import SingBoxMini.Support.Reader
import SingBoxMini.Support.Relay
import SingBoxMini.Support.Runs

/-!
# Support — Proxy

A stream of a proxy, from its first byte to the proxy's return: a request is read, a destination is
connected for it, a response and what was read behind the request are written, and the two streams
are relayed in both directions.

A `Protocol` says how a request is read and what is answered to it.  The client and the destination
send what they like, when they like, in any pieces; every write is taken in any pieces; and whatever
waits may fail.

* `Sound` says for each stage what was sent where.  `Sound.step`: every step keeps it.
* `Safe`, `Complete`: so each side gets what the other has sent behind the request and the response,
  at any time and in the end.
* `Ending.returns`: once both have ended, the proxy comes to its return, if nothing fails.
-/

namespace Proxy
open Relay

/-- What is done with a request: a response without a destination, a destination with the response,
an error, or another service. -/
inductive Outcome (A : Type) where
  | refuse (response : List UInt8)
  | accept (address : A) (response : List UInt8)
  | fail (text : String)
  | leave

/-- How requests are read, what was read behind one, and what is done with it; what the network and
the random numbers answer is of `C`. -/
structure Protocol (ε R C A : Type) where
  read : Reader ε R
  payload : R → List UInt8
  connect : R → C → Outcome A
  /-- The most that is read at once. -/
  size : Nat

/-- Why a proxy returns an error. -/
inductive Failure (ε : Type) where
  | request (error : ε)
  | finishedEarly (read : Nat)
  | io (text : String)

/-- Where a proxy is. -/
inductive Stage (ε R : Type) where
  | requesting
  | connecting (request : R)
  | refusing
  | relaying (request : R) (response : List UInt8)
  | left
  | returned (result : Except (Failure ε) Unit)

namespace Stage

variable {ε R : Type}

/-- The proxy does nothing more. -/
def isOver : Stage ε R → Bool
  | .left | .returned _ => true
  | _ => false

end Stage

/-- A stream: the chunks the client has sent, those of its bytes that are behind the request, the
bytes the destination has sent, whether each has ended, the address that is connected, and the two
directions. -/
structure Stream (ε R A : Type) where
  client : List (List UInt8) := []
  rest : List UInt8 := []
  clientEnded : Bool := false
  destination : List UInt8 := []
  destinationEnded : Bool := false
  stage : Stage ε R := .requesting
  connected : Option A := none
  up : Direction := {}
  down : Direction := {}

/-- What the two sides and the proxy do. -/
inductive Action (C : Type) where
  | clientSends (chunk : List UInt8)
  | clientEnds
  | destinationSends (bytes : List UInt8)
  | destinationEnds
  /-- The request is read. -/
  | request
  | connect (answers : C)
  | up (move : Move)
  | down (move : Move)
  /-- The response is written, or both directions are closed. -/
  | finish
  /-- What is waited for fails, or the proxy is dropped. -/
  | fail (text : String)

namespace Action

variable {C : Type}

/-- A step of the proxy itself. -/
def isOwn : Action C → Bool
  | .request | .connect _ | .up _ | .down _ | .finish => true
  | _ => false

/-- The proxy fails. -/
def isFailure : Action C → Bool
  | .fail _ => true
  | _ => false

end Action

namespace Stream

variable {ε R C A : Type} (P : Protocol ε R C A)

/-- The response is written, so the payload may be. -/
def upReady (s : Stream ε R A) : Bool :=
  match s.stage with
  | .relaying _ response => response.length ≤ s.down.sent.length
  | _ => false

/-- The response may be written, and once the payload is, all the rest. -/
def downReady (s : Stream ε R A) (move : Move) : Bool :=
  match s.stage with
  | .refusing => move.isWrite
  | .relaying request _ => move.isWrite || (P.payload request).length ≤ s.up.sent.length
  | _ => false

/-- A step before the return. -/
def advance (s : Stream ε R A) : Action C → Option (Stream ε R A)
  | .clientSends chunk =>
    if s.clientEnded then none
    else some { s with client := s.client ++ [chunk], rest := s.rest ++ chunk }
  | .clientEnds => if s.clientEnded then none else some { s with clientEnded := true }
  | .destinationSends bytes =>
    if s.destinationEnded then none else some { s with destination := s.destination ++ bytes }
  | .destinationEnds =>
    if s.destinationEnded then none else some { s with destinationEnded := true }
  | .request =>
    match s.stage with
    | .requesting =>
      match P.read.run s.clientEnded s.client with
      | .done request chunks =>
        some { s with rest := chunks.flatten, stage := .connecting request }
      | .failed error => some { s with stage := .returned (.error (.request error)) }
      | .finishedEarly read => some { s with stage := .returned (.error (.finishedEarly read)) }
      | .waiting _ _ => none
    | _ => none
  | .connect answers =>
    match s.stage with
    | .connecting request =>
      match P.connect request answers with
      | .refuse response => some { s with stage := .refusing, down := { pending := response } }
      | .accept address response => some { s with
          connected := some address, stage := .relaying request response
          up := .put (P.payload request), down := { pending := response } }
      | .fail text => some { s with stage := .returned (.error (.io text)) }
      | .leave => some { s with stage := .left }
    | _ => none
  | .up move =>
    if s.upReady then
      (s.up.step s.rest s.clientEnded P.size move).map fun up => { s with up }
    else none
  | .down move =>
    if s.downReady P move then
      (s.down.step s.destination s.destinationEnded P.size move).map fun down => { s with down }
    else none
  | .finish =>
    match s.stage with
    | .refusing =>
      if s.down.pending = [] then some { s with stage := .returned (.ok ()) } else none
    | .relaying _ _ =>
      if s.up.closed = true ∧ s.down.closed = true then
        some { s with stage := .returned (.ok ()) }
      else none
    | _ => none
  | .fail text => some { s with stage := .returned (.error (.io text)) }

/-- The step an action makes, if it is enabled. -/
def step (s : Stream ε R A) (action : Action C) : Option (Stream ε R A) :=
  if s.stage.isOver then none else s.advance P action

/-! ### What was sent where -/

/-- The request was read, and the rest of the client's bytes is behind it. -/
def Read (s : Stream ε R A) (request : R) : Prop :=
  ∃ chunks, P.read.run s.clientEnded s.client = .done request chunks ∧ chunks.flatten = s.rest

/-- No destination is connected, so nothing is relayed. -/
def Unconnected (s : Stream ε R A) : Prop := s.connected = none ∧ s.up = {}

/-- The request is answered with this response, and no destination. -/
def Refused (s : Stream ε R A) (response : List UInt8) : Prop :=
  s.Unconnected ∧ ∃ request answers, s.Read P request ∧ P.connect request answers = .refuse response

/-- A destination is connected for the request, with this response. -/
def Accepted (s : Stream ε R A) (request : R) (response : List UInt8) : Prop :=
  s.Read P request ∧ ∃ answers address, P.connect request answers = .accept address response ∧
    s.connected = some address

/-- What was sent at any time. -/
def Safe (s : Stream ε R A) : Prop :=
  (s.Unconnected ∧ s.down = {}) ∨
    (∃ response, s.Refused P response ∧ s.down.sent <+: response ∧ s.down.counted = 0) ∨
    ∃ request response, s.Accepted P request response ∧
      s.up.sent <+: P.payload request ++ s.rest ∧ s.down.sent <+: response ++ s.destination ∧
      s.up.counted ≤ s.up.sent.length ∧ s.down.counted ≤ s.down.sent.length - response.length

/-- What was sent in the end. -/
def Complete (s : Stream ε R A) : Prop :=
  (s.Refused P s.down.sent ∧ s.down.counted = 0) ∨
    ∃ request response, s.Accepted P request response ∧
      (s.clientEnded = true ∧ s.destinationEnded = true) ∧
      s.up.sent = P.payload request ++ s.rest ∧ s.down.sent = response ++ s.destination ∧
      s.up.counted = s.up.sent.length ∧ s.down.counted = s.destination.length

/-- Both directions, once there is a response. -/
structure Relaying (s : Stream ε R A) (request : R) (response : List UInt8) : Prop where
  accepted : s.Accepted P request response
  up : s.up.Faithful (P.payload request) s.rest s.clientEnded 0
  down : s.down.Faithful response s.destination s.destinationEnded response.length

/-- **What was sent, at each stage.** -/
def Sound (s : Stream ε R A) : Prop :=
  match s.stage with
  | .requesting | .left => s.Unconnected ∧ s.down = {}
  | .connecting request => (s.Unconnected ∧ s.down = {}) ∧ s.Read P request
  | .refusing => ∃ response, s.Refused P response ∧
      s.down.Faithful response [] false response.length
  | .relaying request response => s.Relaying P request response
  | .returned result => s.Safe P ∧ (result = .ok () → s.Complete P)

theorem sound_start : ({} : Stream ε R A).Sound P := ⟨⟨rfl, rfl⟩, rfl⟩

variable {P} {s s' : Stream ε R A} {r : R} {response : List UInt8}

theorem Relaying.safe (h : s.Relaying P r response) : s.Safe P :=
  .inr (.inr ⟨r, response, h.accepted, h.up.sent_prefix, h.down.sent_prefix, h.up.counted_le,
    h.down.counted_le⟩)

/-- **At any time** nothing else was sent. -/
theorem Sound.safe (h : s.Sound P) : s.Safe P := by
  unfold Sound at h
  split at h
  · exact .inl h
  · exact .inl h
  · exact .inl h.1
  · obtain ⟨response, hrefused, hdown⟩ := h
    exact .inr (.inl ⟨response, hrefused, hdown.of_no_source⟩)
  · exact h.safe
  · exact h.1

/-! ### What the client and the destination send -/

/-- More that is sent is behind what was read. -/
theorem Read.clientSends (h : s.Read P r) (hopen : s.clientEnded = false) (chunk : List UInt8) :
    { s with client := s.client ++ [chunk], rest := s.rest ++ chunk }.Read P r := by
  obtain ⟨chunks, hrun, hrest⟩ := h
  have hdeliver := Reader.deliver_run chunk P.read s.client
  rw [hopen] at hrun
  rw [hrun] at hdeliver
  refine ⟨chunks ++ [chunk], ?_, by simp [hrest]⟩
  simp only [hopen]
  exact hdeliver.symm

theorem Read.clientEnds (h : s.Read P r) (hopen : s.clientEnded = false) :
    { s with clientEnded := true }.Read P r := by
  obtain ⟨chunks, hrun, hrest⟩ := h
  have hfinish := Reader.finish_run P.read s.client
  rw [hopen] at hrun
  rw [hrun] at hfinish
  exact ⟨chunks, hfinish.symm, hrest⟩

/-- **Before the return**, what is sent to the proxy changes nothing that it has sent. -/
theorem Sound.arrive (h : s.Sound P) (hover : ¬ s.stage.isOver = true)
    (hstage : s'.stage = s.stage) (hconnected : s'.connected = s.connected) (hup : s'.up = s.up)
    (hdown : s'.down = s.down) (hread : ∀ request, s.Read P request → s'.Read P request)
    (hfaithfulUp : ∀ front, s.up.Faithful front s.rest s.clientEnded 0 →
      s.up.Faithful front s'.rest s'.clientEnded 0)
    (hfaithfulDown : ∀ front n, s.down.Faithful front s.destination s.destinationEnded n →
      s.down.Faithful front s'.destination s'.destinationEnded n) : s'.Sound P := by
  unfold Sound Unconnected at h ⊢
  rw [hstage, hconnected, hup, hdown]
  cases hs : s.stage with
  | requesting =>
      rw [hs] at h
      exact h
  | connecting request =>
      rw [hs] at h
      exact ⟨h.1, hread request h.2⟩
  | refusing =>
      rw [hs] at h
      obtain ⟨response, ⟨hnone, request, answers, hrequest, hconnect⟩, hd⟩ := h
      refine ⟨response, ⟨?_, request, answers, hread _ hrequest, hconnect⟩, hd⟩
      rw [Unconnected, hconnected, hup]
      exact hnone
  | relaying request response =>
      rw [hs] at h
      obtain ⟨⟨hrequest, answers, address, hconnect, haddress⟩, hu, hd⟩ := h
      refine ⟨⟨hread _ hrequest, answers, address, hconnect, hconnected.trans haddress⟩, ?_, ?_⟩
      · rw [hup]
        exact hfaithfulUp _ hu
      · rw [hdown]
        exact hfaithfulDown _ _ hd
  | left | returned _ =>
      rw [hs] at hover
      exact absurd rfl hover

/-! ### What the proxy does -/

theorem Sound.request (h : s.Sound P) (hstep : s.advance P .request = some s') : s'.Sound P := by
  simp only [advance] at hstep
  split at hstep
  next hstage =>
    rw [Sound, hstage] at h
    split at hstep
    next request chunks hrun =>
      cases hstep
      exact ⟨h, chunks, hrun, rfl⟩
    · cases hstep
      exact ⟨.inl h, nofun⟩
    · cases hstep
      exact ⟨.inl h, nofun⟩
    · cases hstep
  · cases hstep

theorem Sound.connect {answers : C} (h : s.Sound P)
    (hstep : s.advance P (.connect answers) = some s') : s'.Sound P := by
  simp only [advance] at hstep
  split at hstep
  next request hstage =>
    rw [Sound, hstage] at h
    obtain ⟨hnone, hread⟩ := h
    split at hstep
    next response hconnect =>
      cases hstep
      exact ⟨response, ⟨hnone.1, request, answers, hread, hconnect⟩,
        Direction.faithful_greet response _ _⟩
    next address response hconnect =>
      cases hstep
      exact ⟨⟨hread, answers, address, hconnect, rfl⟩, Direction.faithful_put _ _ _,
        Direction.faithful_greet response _ _⟩
    · cases hstep
      exact ⟨.inl hnone, nofun⟩
    · cases hstep
      exact hnone
  · cases hstep

theorem Sound.up {move : Move} (h : s.Sound P) (hstep : s.advance P (.up move) = some s') :
    s'.Sound P := by
  obtain ⟨hready, heq⟩ := Option.ite_none_right_eq_some.mp hstep
  obtain ⟨up, hmove, rfl⟩ := Option.map_eq_some_iff.mp heq
  unfold Sound at h ⊢
  unfold upReady at hready
  cases hs : s.stage with
  | relaying request response =>
      simp only [hs] at h ⊢
      exact ⟨h.accepted, h.up.step hmove, h.down⟩
  | requesting | connecting _ | refusing | left | returned _ =>
      rw [hs] at hready
      cases hready

theorem Sound.down {move : Move} (h : s.Sound P) (hstep : s.advance P (.down move) = some s') :
    s'.Sound P := by
  obtain ⟨hready, heq⟩ := Option.ite_none_right_eq_some.mp hstep
  obtain ⟨down, hmove, rfl⟩ := Option.map_eq_some_iff.mp heq
  unfold Sound at h ⊢
  unfold downReady at hready
  cases hs : s.stage with
  | refusing =>
      simp only [hs] at h hready ⊢
      obtain ⟨response, hrefused, hdown⟩ := h
      -- nothing is read for the client here, so there is no source
      cases move with
      | write n => exact ⟨response, hrefused, hdown.write hmove⟩
      | read _ | close => cases hready
  | relaying request response =>
      simp only [hs] at h ⊢
      exact ⟨h.accepted, h.up, h.down.step hmove⟩
  | requesting | connecting _ | left | returned _ =>
      rw [hs] at hready
      cases hready

theorem Sound.finish (h : s.Sound P) (hstep : s.advance P .finish = some s') : s'.Sound P := by
  simp only [advance] at hstep
  unfold Sound at h
  split at hstep
  next hstage =>
    simp only [hstage] at h
    obtain ⟨response, hrefused, hdown⟩ := h
    obtain ⟨hnil, heq⟩ := Option.ite_none_right_eq_some.mp hstep
    cases heq
    have hsent := hdown.bytes
    rw [hnil, List.take_nil, List.append_nil, List.append_nil] at hsent
    subst hsent
    exact ⟨.inr (.inl ⟨_, hrefused, hdown.of_no_source⟩),
      fun _ => .inl ⟨hrefused, hdown.of_no_source.2⟩⟩
  next request response hstage =>
    simp only [hstage] at h
    obtain ⟨⟨hup, hdown⟩, heq⟩ := Option.ite_none_right_eq_some.mp hstep
    cases heq
    obtain ⟨hclient, hsent, hcounted⟩ := h.up.of_closed hup
    obtain ⟨hdestination, hsent', hcounted'⟩ := h.down.of_closed hdown
    rw [Nat.zero_add] at hcounted
    rw [hsent', List.length_append] at hcounted'
    exact ⟨h.safe, fun _ => .inr ⟨request, response, h.accepted, ⟨hclient, hdestination⟩, hsent,
      hsent', hcounted.symm, (Nat.add_left_cancel hcounted').symm⟩⟩
  · cases hstep

/-- **Every step keeps it.** -/
theorem Sound.step {action : Action C} (h : s.Sound P) (hstep : s.step P action = some s') :
    s'.Sound P := by
  obtain ⟨hover, hstep⟩ := Option.ite_none_left_eq_some.mp hstep
  cases action with
  | clientSends chunk =>
      obtain ⟨hopen, heq⟩ := Option.ite_none_left_eq_some.mp hstep
      cases heq
      have hopen := Bool.eq_false_iff.mpr hopen
      refine h.arrive hover rfl rfl rfl rfl (fun _ hread => hread.clientSends hopen chunk)
        (fun _ hup => ?_) (fun _ _ hdown => hdown)
      rw [hopen] at hup ⊢
      exact hup.more chunk
  | clientEnds =>
      obtain ⟨hopen, heq⟩ := Option.ite_none_left_eq_some.mp hstep
      cases heq
      have hopen := Bool.eq_false_iff.mpr hopen
      refine h.arrive hover rfl rfl rfl rfl (fun _ hread => hread.clientEnds hopen)
        (fun _ hup => ?_) (fun _ _ hdown => hdown)
      rw [hopen] at hup
      exact hup.finish
  | destinationSends bytes =>
      obtain ⟨hopen, heq⟩ := Option.ite_none_left_eq_some.mp hstep
      cases heq
      have hopen := Bool.eq_false_iff.mpr hopen
      refine h.arrive hover rfl rfl rfl rfl (fun _ hread => hread) (fun _ hup => hup)
        (fun _ _ hdown => ?_)
      rw [hopen] at hdown ⊢
      exact hdown.more bytes
  | destinationEnds =>
      obtain ⟨hopen, heq⟩ := Option.ite_none_left_eq_some.mp hstep
      cases heq
      have hopen := Bool.eq_false_iff.mpr hopen
      refine h.arrive hover rfl rfl rfl rfl (fun _ hread => hread) (fun _ hup => hup)
        (fun _ _ hdown => ?_)
      rw [hopen] at hdown
      exact hdown.finish
  | request => exact h.request hstep
  | connect answers => exact h.connect hstep
  | up move => exact h.up hstep
  | down move => exact h.down hstep
  | finish => exact h.finish hstep
  | fail text =>
      cases hstep
      exact ⟨h.safe, nofun⟩

variable (P) in
/-- The states of a stream. -/
def Reachable (s : Stream ε R A) : Prop := Runs.Reaches (step P) (fun _ _ => True) {} s

theorem Reachable.sound (h : s.Reachable P) : s.Sound P :=
  h.invariant (sound_start P) fun _ _ _ hsound _ hstep => hsound.step hstep

/-- **A proxy that has returned without an error** has sent everything. -/
theorem Sound.complete (h : s.Sound P) (hstage : s.stage = .returned (.ok ())) :
    s.Complete P := by
  rw [Sound, hstage] at h
  exact h.2 rfl

/-! ### Coming to the end -/

/-- A destination is connected, both sides have ended, and nothing has failed. -/
structure Ending (P : Protocol ε R C A) (s : Stream ε R A) : Prop where
  sound : s.Sound P
  connected : s.connected ≠ none
  client : s.clientEnded = true
  destination : s.destinationEnded = true
  unfailed : ∀ error, s.stage ≠ .returned (.error error)

/-- How far a stream that is ending is from its return. -/
def rank (s : Stream ε R A) : Nat :=
  (if s.stage.isOver then 0 else 1) + s.up.rank s.rest + s.down.rank s.destination

/-- Where a stream that is ending can be. -/
theorem Ending.stages (h : s.Ending P) :
    (∃ request response, s.stage = .relaying request response ∧ s.Relaying P request response) ∨
      s.stage = .returned (.ok ()) := by
  have hsound := h.sound
  unfold Sound at hsound
  cases hs : s.stage with
  | requesting | left =>
      rw [hs] at hsound
      exact absurd hsound.1.1 h.connected
  | connecting _ =>
      rw [hs] at hsound
      exact absurd hsound.1.1.1 h.connected
  | refusing =>
      rw [hs] at hsound
      obtain ⟨_, hrefused, -⟩ := hsound
      exact absurd hrefused.1.1 h.connected
  | relaying request response =>
      rw [hs] at hsound
      exact .inl ⟨request, response, rfl, hsound⟩
  | returned result =>
      cases result with
      | ok _ => exact .inr rfl
      | error error => exact absurd hs (h.unfailed error)

/-- **Every step that is not a failure** brings the end nearer, and is the proxy's own. -/
theorem Ending.step {action : Action C} (h : s.Ending P) (hrun : action.isFailure = false)
    (hstep : s.step P action = some s') :
    s'.Ending P ∧ s'.rank < s.rank ∧ action.isOwn = true := by
  have hsound := h.sound.step hstep
  cases action with
  | clientSends _ | clientEnds => simp [Stream.step, advance, h.client] at hstep
  | destinationSends _ | destinationEnds => simp [Stream.step, advance, h.destination] at hstep
  | request | connect _ =>
      obtain ⟨_, _, hs, -⟩ | hs := h.stages <;>
        simp [Stream.step, advance, hs, Stage.isOver] at hstep
  | up move =>
      obtain ⟨-, hstep⟩ := Option.ite_none_left_eq_some.mp hstep
      obtain ⟨-, heq⟩ := Option.ite_none_right_eq_some.mp hstep
      obtain ⟨up, hmove, rfl⟩ := Option.map_eq_some_iff.mp heq
      have hrank := Direction.rank_step hmove
      exact ⟨⟨hsound, h.connected, h.client, h.destination, h.unfailed⟩,
        Nat.add_lt_add_right (Nat.add_lt_add_left hrank _) _, rfl⟩
  | down move =>
      obtain ⟨-, hstep⟩ := Option.ite_none_left_eq_some.mp hstep
      obtain ⟨-, heq⟩ := Option.ite_none_right_eq_some.mp hstep
      obtain ⟨down, hmove, rfl⟩ := Option.map_eq_some_iff.mp heq
      have hrank := Direction.rank_step hmove
      exact ⟨⟨hsound, h.connected, h.client, h.destination, h.unfailed⟩,
        Nat.add_lt_add_left hrank _, rfl⟩
  | finish =>
      obtain ⟨request, response, hs, -⟩ | hs := h.stages
      · simp only [Stream.step, advance, hs, Stage.isOver, Bool.false_eq_true, if_false] at hstep
        obtain ⟨-, heq⟩ := Option.ite_none_right_eq_some.mp hstep
        cases heq
        refine ⟨⟨hsound, h.connected, h.client, h.destination, nofun⟩, ?_, rfl⟩
        simp [rank, hs, Stage.isOver]
      · simp [Stream.step, hs, Stage.isOver] at hstep
  | fail text => cases hrun

/-- **Until the proxy has returned** it can take a step. -/
theorem Ending.goes_on (h : s.Ending P) (hsize : 0 < P.size)
    (hstage : s.stage ≠ .returned (.ok ())) :
    ∃ action s', action.isFailure = false ∧ s.step P action = some s' := by
  obtain ⟨request, response, hs, hr⟩ | hs := h.stages
  · have hup := hr.up
    have hdown := hr.down
    rw [h.client] at hup
    rw [h.destination] at hdown
    by_cases hgreeted : response.length ≤ s.down.sent.length
    · by_cases hupOpen : s.up.closed = false
      · obtain ⟨move, up, hmove⟩ := hup.goes_on hupOpen hsize
        exact ⟨.up move, { s with up }, rfl, by
          simp [Stream.step, advance, upReady, hs, Stage.isOver, hgreeted, h.client, hmove]⟩
      rw [Bool.not_eq_false] at hupOpen
      have hforwarded : (P.payload request).length ≤ s.up.sent.length := by
        rw [(hup.of_closed hupOpen).2.1, List.length_append]
        exact Nat.le_add_right _ _
      by_cases hdownOpen : s.down.closed = false
      · obtain ⟨move, down, hmove⟩ := hdown.goes_on hdownOpen hsize
        exact ⟨.down move, { s with down }, rfl, by
          simp [Stream.step, advance, downReady, hs, Stage.isOver, hforwarded, h.destination,
            hmove]⟩
      rw [Bool.not_eq_false] at hdownOpen
      exact ⟨.finish, { s with stage := .returned (.ok ()) }, rfl, by
        simp [Stream.step, advance, hs, Stage.isOver, hupOpen, hdownOpen]⟩
    · -- some of the response is not written yet
      obtain ⟨down, hwrite⟩ := Direction.exists_write (hdown.pending_ne_nil hgreeted)
      exact ⟨.down (.write 1), { s with down }, rfl, by
        simp [Stream.step, advance, downReady, hs, Stage.isOver, Move.isWrite, Direction.step,
          hwrite]⟩
  · exact absurd hs hstage

/-- **The proxy returns**, in whatever order it takes its steps. -/
theorem Ending.returns (h : s.Ending P) (hsize : 0 < P.size) :
    Runs.Inevitable (Stream.step P) (fun _ action => action.isFailure = false)
      (fun _ action => action.isOwn = true)
      (fun s => s.stage = .returned (.ok ()) ∧ s.Complete P) s := by
  refine Runs.inevitable_of_rank (I := Ending P) rank ?_ ?_ ?_ ?_ s h
  · intro s action s' hs _ hrun hstep
    exact (hs.step hrun hstep).1
  · intro s hs hgoal
    obtain ⟨action, s', hrun, hstep⟩ :=
      hs.goes_on hsize fun hstage => hgoal ⟨hstage, hs.sound.complete hstage⟩
    exact ⟨action, s', (hs.step hrun hstep).2.2, hrun, hstep⟩
  · intro s action s' hs _ _ hrun hstep
    exact .inr (hs.step hrun hstep).2.1
  · intro s action s' hs _ hother hrun hstep
    exact absurd (hs.step hrun hstep).2.2 hother

end Stream

end Proxy
