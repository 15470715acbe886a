import SingBoxMini.Admin.Supervisor
import SingBoxMini.Support.TomlText

/-!
# Admin — Applied

A saved configuration is not left unapplied, as long as no `put_config` handler is dropped whose
save is still running, or has put a file in place that the supervisor has not loaded since and that
nothing will make it load.

* `Save.Sound`, `Save.step_sound`: a save that has the temporary file to itself puts all of its
  configuration in place, or leaves the file in place as it is.
* `Supervisor.step_config`: the configuration in use is the one the file had when it was loaded.
* `Safe`: saves run one at a time, under the lock of their handler; and where the file is not the
  one in use, a command is in the channel or the handler that saved the file has yet to send one.
* `Tracked`: a run that tells if a file was put in place since the supervisor loaded one.
* `saved_is_applied`: so in a state where nothing goes on they are the same.
-/

namespace SingBoxMini.Admin
open Bytes Text Files

/-! ### A save -/

/-- What a save has done so far: it has the temporary file and what it wrote to it, and this is the
start of its configuration, or all of it. -/
def Save.Sound (env : Env) (files : Files ConfigFile) (save : Save) : Prop :=
  match save.pc with
  | .opening contents => ∃ text, toToml env save.config = .ok text ∧ contents = asBytes text
  | .writing w => (∃ text, toToml env save.config = .ok text ∧ w.contents = asBytes text) ∧
      files.Holds .temporary w ∧ w.written ≤ w.contents.length
  | .replacing w => (∃ text, toToml env save.config = .ok text ∧ w.contents = asBytes text) ∧
      files.Holds .temporary w ∧ w.written = w.contents.length
  | .queued | .done _ => True

/-- The save has succeeded. -/
def Save.succeeded (save : Save) : Bool := save.pc = .done (.ok ())

/-- The file in place has all of a configuration. -/
def Contains (env : Env) (files : Files ConfigFile) (config : Config) : Prop :=
  ∃ text, toToml env config = .ok text ∧ files.read .config = some (asBytes text)

/-- What a step of a save leaves behind. -/
structure Save.Stepped (env : Env) (files files' : Files ConfigFile) (action : SaveAction)
    (save save' : Save) : Prop where
  running : save.pc.isDone = false
  config : save'.config = save.config
  sound : save'.Sound env files'
  disk : (save'.succeeded = false ∧ files'.read .config = files.read .config) ∨
    (action = .rename none ∧ save'.succeeded = true ∧ Contains env files' save.config)

variable {env : Env} {files : Files ConfigFile} {action : SaveAction} {save : Save}

theorem Save.stepped_of_failed (error : AnyhowError) (h : save.pc.isDone = false) :
    Stepped env files files action save { save with pc := .done (.error error) } where
  running := h
  config := rfl
  sound := trivial
  disk := .inl ⟨by simp [succeeded], rfl⟩

/-- An operation that may fail. -/
theorem Save.stepped_orFail {message : String} {error : Option String}
    {next r : Files ConfigFile × Save} (h : save.pc.isDone = false)
    (hnext : error = none → Stepped env files next.1 action save next.2)
    (hr : save.orFail files message error next = r) : Stepped env files r.1 action save r.2 := by
  cases error with
  | some error =>
      rw [← hr]
      exact stepped_of_failed _ h
  | none =>
      rw [← hr]
      exact hnext rfl

/-- **Saving.**  A save that has the temporary file to itself keeps it, and the file in place
changes only when the save succeeds, to all of the configuration. -/
theorem Save.step_sound {files' : Files ConfigFile} {save' : Save} (hsound : save.Sound env files)
    (h : save.step env files action = some (files', save')) :
    Stepped env files files' action save save' := by
  obtain ⟨config, pc⟩ := save
  cases action with
  | start =>
      cases pc with
      | queued =>
          simp only [step] at h
          split at h
          · rename_i text htext
            cases h
            exact ⟨rfl, rfl, ⟨text, htext, rfl⟩, .inl ⟨rfl, rfl⟩⟩
          · cases h
            exact stepped_of_failed _ rfl
      | _ => cases h
  | openTemporary error =>
      cases pc with
      | opening contents =>
          refine stepped_orFail rfl (fun _ => ?_) (Option.some.inj h)
          exact ⟨rfl, rfl, ⟨hsound, holds_create files .temporary contents, Nat.zero_le _⟩,
            .inl ⟨rfl, read_create_of_ne (by simp)⟩⟩
      | _ => cases h
  | write n =>
      cases pc with
      | writing w =>
          obtain ⟨htext, hholds, hle⟩ := hsound
          obtain ⟨⟨-, hn⟩, h⟩ := Option.ite_none_right_eq_some.mp h
          cases h
          exact ⟨rfl, rfl, ⟨htext, hholds.write hle, hn⟩,
            .inl ⟨rfl, hholds.read_write (by simp)⟩⟩
      | _ => cases h
  | writeError error =>
      cases pc with
      | writing w =>
          obtain ⟨-, h⟩ := Option.ite_none_right_eq_some.mp h
          cases h
          exact stepped_of_failed _ rfl
      | _ => cases h
  | permit error =>
      cases pc with
      | writing w =>
          obtain ⟨htext, hholds, -⟩ := hsound
          obtain ⟨⟨hw, -⟩, h⟩ := Option.ite_none_right_eq_some.mp h
          refine stepped_orFail rfl (fun _ => ?_) (Option.some.inj h)
          exact ⟨rfl, rfl, ⟨htext, hholds, hw⟩, .inl ⟨rfl, rfl⟩⟩
      | _ => cases h
  | rename error =>
      cases pc with
      | replacing w =>
          obtain ⟨⟨text, htext, hcontents⟩, hholds, hw⟩ := hsound
          refine stepped_orFail rfl (fun herror => ?_) (Option.some.inj h)
          split
          · rename_i files' hr
            refine ⟨rfl, rfl, trivial, .inr ⟨by rw [herror], rfl, text, htext, ?_⟩⟩
            rw [hholds.rename hr, hw, List.take_length, hcontents]
          · exact stepped_of_failed _ rfl
      | _ => cases h

/-! ### The supervisor -/

/-- What a load finds depends on the file in place. -/
theorem load_congr {files' : Files ConfigFile} (h : files'.read .config = files.read .config)
    (readError : Option String) :
    load env files' readError = load env files readError := by
  have hread : readToString files' readError = readToString files readError := by
    cases readError with
    | some error => rfl
    | none => rw [readToString, readToString, h]
  rw [load, hread, load]

theorem load_of_ok {readError : Option String} {config : Config}
    (h : load env files readError = .ok config) :
    load env files none = .ok config := by
  cases readError with
  | some error => cases h
  | none => exact h

/-- **The configuration in use** was loaded now, or the server is launched with the same one; and
then no command was taken. -/
theorem Supervisor.step_config {channel channel' : Nat} {supervisor supervisor' : Supervisor}
    {action : SupervisorAction} {config : Config}
    (h : supervisor.step env files channel action = some (channel', supervisor'))
    (hc : supervisor'.config? = some config) :
    load env files none = .ok config ∨
      (supervisor.config? = some config ∧ channel' = channel ∧ action = .launch) := by
  cases supervisor <;> cases action <;> try cases h
  case loading.load readError =>
      simp only [step] at h
      split at h
      · rename_i hload
        cases h
        cases hc
        exact .inl (load_of_ok hload)
      · cases h
        cases hc
  case starting.launch => exact .inr ⟨hc, rfl, rfl⟩
  case running.receive =>
      obtain ⟨-, h⟩ := Option.ite_none_right_eq_some.mp h
      cases h
      cases hc
  case waiting.receive =>
      obtain ⟨-, h⟩ := Option.ite_none_right_eq_some.mp h
      cases h
      cases hc
  case finishing.finish again => cases again <;> cases hc
  all_goals cases hc

/-! ### The invariant -/

/-- The request submits the configuration: this is what it was given, with the share addresses
filled in. -/
def AdminRequest.Submits (request : AdminRequest) (config : Config) : Prop :=
  ∃ given network, request = .put given ∧ config = applyAutoShareAddresses network given

/-- What a handler that waits for the lock or for its save has come from. -/
def Handler.Sound (h : Handler) : Prop :=
  match h.pc with
  | .locking config => h.request.Submits config
  | .saving _ => h.request.isPut = true
  | _ => True

/-- The handler has saved a file, and has yet to send the command. -/
def Handler.Owes (saves : List Save) (h : Handler) : Prop :=
  match h.pc with
  | .saving j => ∃ save, saves[j]? = some save ∧ save.succeeded = true
  | .sending => h.request.isPut = true
  | _ => False

theorem Handler.Owes.mono {saves saves' : List Save} {h : Handler} (howes : h.Owes saves)
    (hmono : ∀ (j : SaveId) (save : Save), saves[j]? = some save → save.succeeded = true →
      saves'[j]? = some save) : h.Owes saves' := by
  obtain ⟨request, pc⟩ := h
  cases pc with
  | saving j =>
      obtain ⟨save, hj, hsucceeded⟩ := howes
      exact ⟨save, hmono j save hj hsucceeded, hsucceeded⟩
  | sending => exact howes
  | _ => exact howes.elim

namespace State

/-- One of the requests submitted the configuration. -/
def Submitted (s : State) (config : Config) : Prop :=
  ∃ request ∈ s.handlers.map Handler.request, request.Submits config

/-- The file in place is the one in use, or will be loaded without another command. -/
def upToDate (env : Env) (s : State) : Bool :=
  0 < s.channel ||
    match s.supervisor.config? with
    | some config => load env s.files none = .ok config
    | none => true

/-- A handler may be dropped, unless its save is still running, or was successful and the file is
not `covered`. -/
def mayDrop (covered : Bool) (s : State) (h : Handler) : Bool :=
  match h.pc with
  | .saving j =>
    match s.saves[j]? with
    | some save => save.pc.isDone && (!save.succeeded || covered)
    | none => true
  | .sending => !h.request.isPut || covered
  | _ => true

/-- The condition on the steps. -/
def Orderly (covered : Bool) (s : State) : Action → Prop
  | .handler i .drop => ∀ h ∈ s.handlers[i]?, s.mayDrop covered h = true
  | _ => True

instance (covered : Bool) (s : State) : (action : Action) → Decidable (s.Orderly covered action)
  | .handler _ .drop => inferInstanceAs (Decidable (∀ h ∈ _, _))
  | .handler _ (.authorize _ _ _) | .handler _ .lock | .handler _ .resume | .handler _ .send
  | .request _ | .save _ _ | .supervisor _ => .isTrue trivial

/-- **The invariant.**  What is in the file was submitted, and it is applied or a handler will see
to it. -/
structure Safe (env : Env) (initial : Option (List UInt8)) (s : State) : Prop where
  holder : ∀ (i : HandlerId) (h : Handler), s.handlers[i]? = some h → h.holds = true →
    s.lock = some i
  handler : ∀ (i : HandlerId) (h : Handler), s.handlers[i]? = some h → h.Sound
  owned : ∀ (j : SaveId) (save : Save), s.saves[j]? = some save → save.pc.isDone = false →
    ∃ (i : HandlerId) (h : Handler), s.handlers[i]? = some h ∧ h.pc = .saving j
  sound : ∀ (j : SaveId) (save : Save), s.saves[j]? = some save → save.Sound env s.files
  origin : ∀ (j : SaveId) (save : Save), s.saves[j]? = some save → s.Submitted save.config
  disk : s.files.read .config = initial ∨
    ∃ config, s.Submitted config ∧ Contains env s.files config
  fresh : s.upToDate env = true ∨
    ∃ (i : HandlerId) (h : Handler), s.handlers[i]? = some h ∧ h.Owes s.saves

variable {env : Env} {initial : Option (List UInt8)} {s s' : State}

theorem safe_start (env : Env) (files : Files ConfigFile) :
    (start files).Safe env (files.read .config) where
  holder := by simp [start]
  handler := by simp [start]
  owned := by simp [start]
  sound := by simp [start]
  origin := by simp [start]
  disk := .inl rfl
  fresh := .inl rfl

/-- Saves run one at a time: their handlers hold the lock. -/
theorem Safe.one_running (hs : s.Safe env initial) {j k : SaveId} {save save' : Save}
    (hj : s.saves[j]? = some save) (hk : s.saves[k]? = some save')
    (hdone : save.pc.isDone = false) (hdone' : save'.pc.isDone = false) : j = k := by
  obtain ⟨i, h, hi, hpc⟩ := hs.owned j save hj hdone
  obtain ⟨i', h', hi', hpc'⟩ := hs.owned k save' hk hdone'
  have hlock := hs.holder i h hi (by simp [Handler.holds, hpc])
  have hlock' := hs.holder i' h' hi' (by simp [Handler.holds, hpc'])
  cases hlock.symm.trans hlock'
  cases hi.symm.trans hi'
  cases hpc.symm.trans hpc'
  rfl

theorem upToDate_of_eq (hfiles : s'.files.read .config = s.files.read .config)
    (hsupervisor : s'.supervisor = s.supervisor) (hchannel : s.channel ≤ s'.channel)
    (h : s.upToDate env = true) : s'.upToDate env = true := by
  rw [upToDate, Bool.or_eq_true] at h ⊢
  rw [hsupervisor]
  simp only [load_congr hfiles]
  exact h.imp_left fun hpos => by simp only [decide_eq_true_eq] at hpos ⊢; omega

variable {i : HandlerId} {h : Handler}

theorem map_request_set {handlers : List Handler} (pc : HandlerPc) (hi : handlers[i]? = some h) :
    (handlers.set i { h with pc }).map Handler.request = handlers.map Handler.request := by
  apply List.ext_getElem?
  intro k
  rw [List.getElem?_map, List.getElem?_map, Tasks.getElem?_replace hi]
  split_ifs with hk
  · subst hk
    rw [hi]
    rfl
  · rfl

/-- **A handler moves on**, with the lock or without it.  If its save was running it has ended, and
if it had a command to send, it still has, or none is needed. -/
theorem Safe.moved (hs : s.Safe env initial) {pc : HandlerPc} (hi : s.handlers[i]? = some h)
    (hhandlers : s'.handlers = s.handlers.set i { h with pc }) (hfiles : s'.files = s.files)
    (hsupervisor : s'.supervisor = s.supervisor) (hsaves : s'.saves = s.saves)
    (hchannel : s.channel ≤ s'.channel) (hlock : s'.lock = s.lock ∨ h.holds = true ∧ s'.lock = none)
    (hholds : Handler.holds { h with pc } = true → s'.lock = some i)
    (hsound : Handler.Sound { h with pc })
    (hended : ∀ (j : SaveId) (save : Save), h.pc = .saving j → s.saves[j]? = some save →
      save.pc.isDone = true)
    (howes : h.Owes s.saves → Handler.Owes s.saves { h with pc } ∨ s'.upToDate env = true) :
    s'.Safe env initial := by
  have hrequests : s'.handlers.map Handler.request = s.handlers.map Handler.request := by
    rw [hhandlers, map_request_set pc hi]
  have hget : ∀ k, s'.handlers[k]? = if i = k then some { h with pc } else s.handlers[k]? := by
    intro k
    rw [hhandlers, Tasks.getElem?_replace hi]
  have hsubmitted : ∀ config, s.Submitted config → s'.Submitted config := by
    intro config hconfig
    rwa [Submitted, hrequests]
  refine ⟨?_, ?_, ?_, ?_, ?_, ?_, ?_⟩
  · intro k h' hk hholds'
    rw [hget] at hk
    split_ifs at hk with hik
    · cases hk
      rw [← hik]
      exact hholds hholds'
    · have hkeeps := hs.holder k h' hk hholds'
      rcases hlock with hlock | ⟨hheld, -⟩
      · rw [hlock, hkeeps]
      · cases (hs.holder i h hi hheld).symm.trans hkeeps
        exact absurd rfl hik
  · intro k h' hk
    rw [hget] at hk
    split_ifs at hk with hik
    · cases hk
      exact hsound
    · exact hs.handler k h' hk
  · intro j save hj hdone
    rw [hsaves] at hj
    obtain ⟨k, h', hk, hpc⟩ := hs.owned j save hj hdone
    refine ⟨k, h', ?_, hpc⟩
    rw [hget, if_neg]
    · exact hk
    · rintro rfl
      cases hi.symm.trans hk
      rw [hended j save hpc hj] at hdone
      cases hdone
  · intro j save hj
    rw [hsaves] at hj
    rw [hfiles]
    exact hs.sound j save hj
  · intro j save hj
    rw [hsaves] at hj
    exact hsubmitted _ (hs.origin j save hj)
  · rw [hfiles]
    exact hs.disk.imp_right fun ⟨config, hconfig, hcontains⟩ =>
      ⟨config, hsubmitted config hconfig, hcontains⟩
  · rw [hsaves]
    rcases hs.fresh with hfresh | ⟨k, h', hk, howes'⟩
    · exact .inl (upToDate_of_eq (by rw [hfiles]) hsupervisor hchannel hfresh)
    · by_cases hik : i = k
      · subst hik
        cases hi.symm.trans hk
        rcases howes howes' with howes | hfresh
        · exact .inr ⟨i, _, by rw [hget, if_pos rfl], howes⟩
        · exact .inl hfresh
      · exact .inr ⟨k, h', by rw [hget, if_neg hik, hk], howes'⟩

/-- **A handler takes the lock** and starts its save. -/
theorem Safe.locked (hs : s.Safe env initial) {config : Config} (hi : s.handlers[i]? = some h)
    (hpc : h.pc = .locking config) (hlock : s.lock = none) :
    Safe env initial { s.toHandler i h (.saving s.saves.length) with
      lock := some i, saves := s.saves ++ [⟨config, .queued⟩] } := by
  have hsubmits : h.request.Submits config := by
    have hsound := hs.handler i h hi
    rwa [Handler.Sound, hpc] at hsound
  have hget : ∀ k, (s.handlers.set i { h with pc := .saving s.saves.length })[k]? =
      if i = k then some { h with pc := .saving s.saves.length } else s.handlers[k]? :=
    Tasks.getElem?_replace hi _
  have hsubmitted : ∀ submitted, s.Submitted submitted →
      ∃ request ∈ (s.handlers.set i { h with pc := .saving s.saves.length }).map Handler.request,
        request.Submits submitted := by
    intro submitted hconfig
    rwa [map_request_set _ hi]
  refine ⟨?_, ?_, ?_, ?_, ?_, ?_, ?_⟩
  · intro k h' hk hholds
    rw [toHandler, hget] at hk
    split_ifs at hk with hik
    · rw [hik]
    · have hkeeps := hs.holder k h' hk hholds
      rw [hlock] at hkeeps
      cases hkeeps
  · intro k h' hk
    rw [toHandler, hget] at hk
    split_ifs at hk with hik
    · cases hk
      obtain ⟨given, network, hput, -⟩ := hsubmits
      simp [Handler.Sound, hput, AdminRequest.isPut]
    · exact hs.handler k h' hk
  · intro j save hj hdone
    rw [Tasks.getElem?_spawn] at hj
    split_ifs at hj with hlast
    · exact ⟨i, _, by rw [toHandler, hget, if_pos rfl], by rw [hlast]⟩
    · obtain ⟨k, h', hk, hpc'⟩ := hs.owned j save hj hdone
      refine ⟨k, h', ?_, hpc'⟩
      rw [toHandler, hget, if_neg]
      · exact hk
      · rintro rfl
        cases hi.symm.trans hk
        cases hpc.symm.trans hpc'
  · intro j save hj
    rcases Tasks.of_spawn hj with rfl | hj
    · trivial
    · exact hs.sound j save hj
  · intro j save hj
    rcases Tasks.of_spawn hj with rfl | hj
    · exact hsubmitted _ ⟨h.request, List.mem_map_of_mem (List.mem_of_getElem? hi), hsubmits⟩
    · exact hsubmitted _ (hs.origin j save hj)
  · exact hs.disk.imp_right fun ⟨submitted, hconfig, hcontains⟩ =>
      ⟨submitted, hsubmitted submitted hconfig, hcontains⟩
  · rcases hs.fresh with hfresh | ⟨k, h', hk, howes⟩
    · exact .inl hfresh
    · refine .inr ⟨k, h', ?_, ?_⟩
      · rw [toHandler, hget, if_neg]
        · exact hk
        · rintro rfl
          cases hi.symm.trans hk
          rw [Handler.Owes, hpc] at howes
          exact howes
      · exact howes.mono fun j save hj _ => Tasks.spawn_old hj _

/-! ### The steps -/

theorem Safe.request (hs : s.Safe env initial) (request : AdminRequest) :
    Safe env initial { s with handlers := s.handlers ++ [⟨request, .authorizing⟩] } := by
  have hget : ∀ (k : HandlerId) (h : Handler), s.handlers[k]? = some h →
      (s.handlers ++ [⟨request, .authorizing⟩])[k]? = some h := fun k h hk => Tasks.spawn_old hk _
  have hsubmitted : ∀ config, s.Submitted config →
      ∃ request' ∈ (s.handlers ++ [Handler.mk request .authorizing]).map Handler.request,
        request'.Submits config := by
    rintro config ⟨request', hrequest, hsubmits⟩
    exact ⟨request', by rw [List.map_append]; exact List.mem_append_left _ hrequest, hsubmits⟩
  refine ⟨?_, ?_, ?_, hs.sound, ?_, ?_, ?_⟩
  · intro k h hk hholds
    rcases Tasks.of_spawn hk with rfl | hk
    · cases hholds
    · exact hs.holder k h hk hholds
  · intro k h hk
    rcases Tasks.of_spawn hk with rfl | hk
    · trivial
    · exact hs.handler k h hk
  · intro j save hj hdone
    obtain ⟨k, h, hk, hpc⟩ := hs.owned j save hj hdone
    exact ⟨k, h, hget k h hk, hpc⟩
  · exact fun j save hj => hsubmitted _ (hs.origin j save hj)
  · exact hs.disk.imp_right fun ⟨config, hconfig, hcontains⟩ =>
      ⟨config, hsubmitted config hconfig, hcontains⟩
  · exact hs.fresh.imp_right fun ⟨k, h, hk, howes⟩ => ⟨k, h, hget k h hk, howes⟩

theorem endHandler_lock (s : State) (i : HandlerId) (h : Handler) (pc : HandlerPc) :
    (s.endHandler i h pc).lock = s.lock ∨ h.holds = true ∧ (s.endHandler i h pc).lock = none := by
  cases hholds : h.holds with
  | true => exact .inr ⟨rfl, by simp [endHandler, hholds]⟩
  | false => exact .inl (by simp [endHandler, hholds])

theorem checkPut_config {network : Network} {given config : Config}
    (h : checkPut env network given = .ok config) :
    config = applyAutoShareAddresses network given := by
  unfold checkPut at h
  grind

/-- After `authorize`: a request to save waits for the lock, with what it submits; a request to
reload is about to send; or the handler has returned. -/
theorem admitted_cases (env : Env) (files : Files ConfigFile) (request : AdminRequest)
    (refusal : Option ApiError) (network : Network) (readError : Option String) :
    (∃ config, request.Submits config ∧
      admitted env files request refusal network readError = .locking config) ∨
    (request = .reload ∧ admitted env files request refusal network readError = .sending) ∨
    ∃ result, admitted env files request refusal network readError = .returned result := by
  cases refusal with
  | some error => exact .inr (.inr ⟨_, rfl⟩)
  | none =>
      cases request with
      | put given =>
          simp only [admitted]
          split
          · rename_i config hcheck
            exact .inl ⟨config, ⟨given, network, rfl, checkPut_config hcheck⟩, rfl⟩
          · exact .inr (.inr ⟨_, rfl⟩)
      | reload =>
          rw [admitted]
          split
          · exact .inr (.inl ⟨rfl, rfl⟩)
          · exact .inr (.inr ⟨_, rfl⟩)

theorem Safe.handlerStep (hs : s.Safe env initial) {covered : Bool} {action : HandlerAction}
    (hi : s.handlers[i]? = some h) (hcovered : covered = true → s.upToDate env = true)
    (horderly : s.Orderly covered (.handler i action))
    (hstep : s.handlerStep env i h action = some s') : s'.Safe env initial := by
  obtain ⟨request, pc⟩ := h
  cases action with
  | authorize refusal network readError =>
      obtain ⟨rfl, hstep⟩ := Option.ite_none_right_eq_some.mp hstep
      cases hstep
      have hadmitted := admitted_cases env s.files request refusal network readError
      refine hs.moved hi rfl rfl rfl rfl (Nat.le_refl _) (.inl rfl) ?_ ?_ (by simp) False.elim
      · intro hholds
        rcases hadmitted with ⟨config, -, heq⟩ | ⟨rfl, heq⟩ | ⟨result, heq⟩ <;>
          rw [heq] at hholds <;> cases hholds
      · rcases hadmitted with ⟨config, hsubmits, heq⟩ | ⟨-, heq⟩ | ⟨result, heq⟩ <;> rw [heq]
        · exact hsubmits
        · trivial
        · trivial
  | lock =>
      cases pc with
      | locking config =>
          obtain ⟨hlock, hstep⟩ := Option.ite_none_right_eq_some.mp hstep
          cases hstep
          exact hs.locked hi rfl hlock
      | _ => cases hstep
  | resume =>
      cases pc with
      | saving j =>
          simp only [State.handlerStep] at hstep
          split at hstep
          · rename_i config hj
            cases hstep
            refine hs.moved hi rfl rfl rfl rfl (Nat.le_refl _) (.inl rfl)
              (fun _ => hs.holder i _ hi rfl) trivial ?_ fun _ => .inl (hs.handler i _ hi)
            rintro j' save hpc hj'
            cases hpc
            cases hj.symm.trans hj'
            rfl
          · rename_i config error hj
            cases hstep
            refine hs.moved hi rfl rfl rfl rfl (Nat.le_refl _) (endHandler_lock ..)
              (by simp [Handler.holds]) trivial ?_ ?_
            · rintro j' save hpc hj'
              cases hpc
              cases hj.symm.trans hj'
              rfl
            · rintro ⟨save, hj', hsucceeded⟩
              cases hj.symm.trans hj'
              simp [Save.succeeded] at hsucceeded
          · cases hstep
      | _ => cases hstep
  | send =>
      obtain ⟨rfl, hstep⟩ := Option.ite_none_right_eq_some.mp hstep
      split_ifs at hstep with hreturned hroom
      · cases hstep
        refine hs.moved hi rfl rfl rfl rfl (Nat.le_refl _) (endHandler_lock ..)
          (by simp [Handler.holds]) trivial (by simp) fun _ => .inr ?_
        simp [upToDate, endHandler, toHandler, hreturned, Supervisor.config?]
      · cases hstep
        refine hs.moved hi rfl rfl rfl rfl (Nat.le_succ _)
          (endHandler_lock s i _ (.returned (.ok request.message))) (by simp [Handler.holds])
          trivial (by simp) fun _ => .inr ?_
        simp [upToDate]
  | drop =>
      have hdrop := horderly _ hi
      obtain ⟨-, hstep⟩ := Option.ite_none_right_eq_some.mp hstep
      cases hstep
      refine hs.moved hi rfl rfl rfl rfl (Nat.le_refl _) (endHandler_lock ..)
        (by simp [Handler.holds]) trivial ?_ ?_
      · rintro j save hpc hj
        cases hpc
        simp only [mayDrop, hj, Bool.and_eq_true] at hdrop
        exact hdrop.1
      · intro howes
        refine .inr (upToDate_of_eq (s := s) rfl rfl (Nat.le_refl _) (hcovered ?_))
        cases pc with
        | saving j =>
            obtain ⟨save, hj, hsucceeded⟩ := howes
            simp only [mayDrop, hj, hsucceeded, Bool.and_eq_true] at hdrop
            exact hdrop.2
        | sending =>
            have hput : request.isPut = true := howes
            simpa [mayDrop, hput] using hdrop
        | _ => exact howes.elim

theorem Safe.saveStep (hs : s.Safe env initial) {j : SaveId} {save save' : Save}
    {files' : Files ConfigFile} {action : SaveAction} (hj : s.saves[j]? = some save)
    (hstep : save.step env s.files action = some (files', save')) :
    Safe env initial { s with files := files', saves := s.saves.set j save' } := by
  have hstepped := Save.step_sound (hs.sound j save hj) hstep
  have hget : ∀ k, (s.saves.set j save')[k]? = if j = k then some save' else s.saves[k]? :=
    Tasks.getElem?_replace hj save'
  refine ⟨hs.holder, hs.handler, ?_, ?_, ?_, ?_, ?_⟩
  · intro k save'' hk hdone
    rw [hget] at hk
    split_ifs at hk with hjk
    · exact hs.owned k save (hjk ▸ hj) hstepped.running
    · exact hs.owned k save'' hk hdone
  · intro k save'' hk
    rw [hget] at hk
    split_ifs at hk with hjk
    · cases hk
      exact hstepped.sound
    · -- no other save is running
      cases hdone : save''.pc.isDone with
      | false => exact absurd (hs.one_running hj hk hstepped.running hdone) hjk
      | true =>
          obtain ⟨config, pc⟩ := save''
          cases pc with
          | done result => trivial
          | _ => cases hdone
  · intro k save'' hk
    rw [hget] at hk
    split_ifs at hk
    · cases hk
      rw [hstepped.config]
      exact hs.origin j save hj
    · exact hs.origin k save'' hk
  · rcases hstepped.disk with ⟨-, hread⟩ | ⟨-, -, hcontains⟩
    · refine hs.disk.imp (fun h => hread.trans h) ?_
      rintro ⟨config, hconfig, text, htext, htexts⟩
      exact ⟨config, hconfig, text, htext, hread.trans htexts⟩
    · exact .inr ⟨save.config, hs.origin j save hj, hcontains⟩
  · rcases hstepped.disk with ⟨-, hread⟩ | ⟨-, hsucceeded, -⟩
    · rcases hs.fresh with hfresh | ⟨k, h, hk, howes⟩
      · exact .inl (upToDate_of_eq hread rfl (Nat.le_refl _) hfresh)
      · refine .inr ⟨k, h, hk, howes.mono fun k' save'' hk' hsucceeded => ?_⟩
        rw [hget, if_neg]
        · exact hk'
        · rintro rfl
          cases hj.symm.trans hk'
          have hrunning := hstepped.running
          rw [Save.succeeded, decide_eq_true_eq] at hsucceeded
          rw [hsucceeded] at hrunning
          cases hrunning
    · -- the handler of the save owes the command
      obtain ⟨i, h, hi, hpc⟩ := hs.owned j save hj hstepped.running
      refine .inr ⟨i, h, hi, ?_⟩
      rw [Handler.Owes, hpc]
      exact ⟨save', by rw [hget, if_pos rfl], hsucceeded⟩

theorem Safe.supervisor (hs : s.Safe env initial) {channel' : Nat} {supervisor' : Supervisor}
    {action : SupervisorAction}
    (hstep : s.supervisor.step env s.files s.channel action = some (channel', supervisor')) :
    Safe env initial { s with channel := channel', supervisor := supervisor' } := by
  refine ⟨hs.holder, hs.handler, hs.owned, hs.sound, hs.origin, hs.disk, ?_⟩
  cases hconfig : supervisor'.config? with
  | none =>
      refine .inl ?_
      rw [upToDate, hconfig]
      simp
  | some config =>
      rcases Supervisor.step_config hstep hconfig with hload | ⟨hsame, rfl, -⟩
      · refine .inl ?_
        rw [upToDate, hconfig]
        simp [hload]
      · refine hs.fresh.imp_left fun hfresh => ?_
        rw [upToDate, hsame] at hfresh
        rw [upToDate, hconfig]
        exact hfresh

theorem Safe.step (hs : s.Safe env initial) {covered : Bool} {action : Action}
    (hcovered : covered = true → s.upToDate env = true) (horderly : s.Orderly covered action)
    (hstep : State.step env s action = some s') : s'.Safe env initial := by
  cases action with
  | request request =>
      cases hstep
      exact hs.request request
  | handler i action =>
      obtain ⟨h, hi, hstep⟩ := Option.bind_eq_some_iff.mp hstep
      exact hs.handlerStep hi hcovered horderly hstep
  | save j action =>
      obtain ⟨save, hj, hstep⟩ := Option.bind_eq_some_iff.mp hstep
      obtain ⟨⟨files', save'⟩, hsave, rfl⟩ := Option.map_eq_some_iff.mp hstep
      exact hs.saveStep hj hsave
  | supervisor action =>
      obtain ⟨⟨channel', supervisor'⟩, hnext, rfl⟩ := Option.map_eq_some_iff.mp hstep
      exact hs.supervisor hnext

/-! ### Runs -/

/-- A state, and whether a file was put in place since the supervisor loaded one. -/
structure Tracked where
  state : State
  replaced : Bool

namespace Tracked
variable {t t' : Tracked}

/-- A rename replaces the file, and a load takes it up. -/
def step (env : Env) (t : Tracked) (action : Action) : Option Tracked :=
  (t.state.step env action).map fun state => ⟨state,
    match action with
    | .save _ (.rename none) => true
    | .supervisor (.load _) => false
    | _ => t.replaced⟩

/-- The file in place was loaded, or will be without another command: one is in the channel, or no
configuration is in use. -/
def covered (t : Tracked) : Bool :=
  !t.replaced || 0 < t.state.channel || t.state.supervisor.config?.isNone

/-- The condition, by the schedule. -/
def Orderly (t : Tracked) (action : Action) : Prop := t.state.Orderly t.covered action

instance (t : Tracked) (action : Action) : Decidable (t.Orderly action) :=
  inferInstanceAs (Decidable (State.Orderly _ _ _))

/-- The invariant, and what the supervisor has loaded. -/
structure Safe (env : Env) (initial : Option (List UInt8)) (t : Tracked) : Prop where
  state : t.state.Safe env initial
  loaded : t.replaced = false → ∀ config, t.state.supervisor.config? = some config →
    load env t.state.files none = .ok config

theorem Safe.upToDate (h : t.Safe env initial) (hcovered : t.covered = true) :
    t.state.upToDate env = true := by
  rw [State.upToDate, Bool.or_eq_true]
  rw [covered, Bool.or_eq_true, Bool.or_eq_true, Bool.not_eq_true'] at hcovered
  cases hconfig : t.state.supervisor.config? with
  | none => exact .inr rfl
  | some config =>
      rcases hcovered with (hkept | hchannel) | hnone
      · exact .inr (decide_eq_true (h.loaded hkept config hconfig))
      · exact .inl hchannel
      · rw [hconfig] at hnone
        cases hnone

/-- Handlers leave the file in place and the supervisor alone. -/
theorem handlerStep_frame {i : HandlerId} {h : Handler} {action : HandlerAction}
    (hstep : s.handlerStep env i h action = some s') :
    s'.files = s.files ∧ s'.supervisor = s.supervisor := by
  cases action <;> simp only [handlerStep] at hstep <;> split at hstep <;>
    grind [toHandler, endHandler]

/-- **What a step keeps.** -/
theorem Safe.step (h : t.Safe env initial) {action : Action} (horderly : t.Orderly action)
    (hstep : t.step env action = some t') : t'.Safe env initial := by
  obtain ⟨s', hs', rfl⟩ := Option.map_eq_some_iff.mp hstep
  refine ⟨h.state.step h.upToDate horderly hs', fun hkept config hconfig => ?_⟩
  cases action with
  | request request =>
      cases hs'
      exact h.loaded hkept config hconfig
  | handler i action =>
      obtain ⟨handler, -, hs'⟩ := Option.bind_eq_some_iff.mp hs'
      obtain ⟨hfiles, hsupervisor⟩ := handlerStep_frame hs'
      rw [hsupervisor] at hconfig
      rw [hfiles]
      exact h.loaded hkept config hconfig
  | save j action =>
      obtain ⟨save, hj, hs'⟩ := Option.bind_eq_some_iff.mp hs'
      obtain ⟨⟨files', save'⟩, hsave, rfl⟩ := Option.map_eq_some_iff.mp hs'
      rcases (Save.step_sound (h.state.sound j save hj) hsave).disk with ⟨-, hread⟩ | ⟨rfl, -⟩
      · have hbefore : t.replaced = false := by
          cases action with
          | rename error =>
              cases error with
              | none => cases hkept
              | some error => exact hkept
          | _ => exact hkept
        rw [load_congr hread]
        exact h.loaded hbefore config hconfig
      · cases hkept
  | supervisor action =>
      obtain ⟨⟨channel', supervisor'⟩, hnext, rfl⟩ := Option.map_eq_some_iff.mp hs'
      rcases Supervisor.step_config hnext hconfig with hload | ⟨hsame, -, rfl⟩
      · exact hload
      · exact h.loaded hkept config hsame

end Tracked

/-! ### Quiescent states -/

/-- No handler and no save is in progress, and the channel is empty. -/
def Quiescent (s : State) : Prop :=
  (∀ h ∈ s.handlers, h.pc.inProgress = false) ∧ (∀ save ∈ s.saves, save.pc.isDone = true) ∧
    s.channel = 0

theorem quiescent_of_all (hhandlers : s.handlers.all (!·.pc.inProgress) = true)
    (hsaves : s.saves.all (·.pc.isDone) = true) (hchannel : s.channel = 0) : s.Quiescent := by
  refine ⟨fun h hh => ?_, List.all_eq_true.mp hsaves, hchannel⟩
  simpa using List.all_eq_true.mp hhandlers h hh

/-- **A saved configuration is never left unapplied.**  In every run in which no handler is dropped
that may not be, when nothing is in progress, no command is left and the supervisor waits on a
server, the server was started from the configuration in the file, and the file is the first one or
has all of a configuration that a request submitted. -/
theorem saved_is_applied {env : Env} {files : Files ConfigFile} {s : State} {replaced : Bool}
    {config : Config}
    (h : Runs.Reaches (Tracked.step env) Tracked.Orderly ⟨start files, false⟩ ⟨s, replaced⟩)
    (hq : s.Quiescent) (hrunning : s.supervisor = .running config) :
    load env s.files none = .ok config ∧
      (s.files.read .config = files.read .config ∨
        ∃ submitted, s.Submitted submitted ∧ Contains env s.files submitted) := by
  have hstart : Tracked.Safe env (files.read .config) ⟨start files, false⟩ :=
    ⟨safe_start env files, fun _ config hconfig => by cases hconfig⟩
  have hsafe : s.Safe env (files.read .config) :=
    (h.invariant (I := Tracked.Safe env (files.read .config)) hstart
      fun _ _ _ ht horderly hstep => ht.step horderly hstep).state
  obtain ⟨hhandlers, -, hchannel⟩ := hq
  refine ⟨?_, hsafe.disk⟩
  rcases hsafe.fresh with hfresh | ⟨i, h, hi, howes⟩
  · simpa [upToDate, hchannel, hrunning, Supervisor.config?] using hfresh
  · have hended := hhandlers h (List.mem_of_getElem? hi)
    obtain ⟨request, pc⟩ := h
    cases pc with
    | saving j => cases hended
    | sending => cases hended
    | _ => exact howes.elim

/-! ### A dropped handler -/

open TomlText in
/-- `toml` for configurations that differ in their users. -/
def sampleEnv : Env where
  crates := sampleCrates
  serialize := fun config =>
    if config = sampleConfig config.users then
      .ok (.ofList (document (pairLines "[[users]]" "name" "password"
        (config.users.map fun user => (user.name.toList, user.password.toList)))))
    else .error "unsupported configuration"
  deserialize := fun text =>
    match readPairs "[[users]]" "name" "password" (documentLines text.toList) with
    | some pairs =>
      .ok (sampleConfig (pairs.map fun pair => ⟨.ofList pair.1, .ofList pair.2⟩))
    | none => .error "missing field"
  path := "config.toml"
  temporary := "config.toml.tmp"

/-- Both routes, without an address. -/
def sampleNetwork : Network := ⟨none, none, false, true, true⟩

/-- A directory without files. -/
def emptyFiles : Files ConfigFile := ⟨∅, [], by simp, by simp⟩

/-- A request to save a configuration with one user, up to the start of its save. -/
def putActions (i : HandlerId) (name : String) : List Action :=
  [.request (.put (sampleConfig [⟨name, "secret"⟩])),
    .handler i (.authorize none sampleNetwork none), .handler i .lock]

/-- A save of so many bytes. -/
def saveActions (j : SaveId) (n : Nat) : List Action :=
  [.save j .start, .save j (.openTemporary none), .save j (.write n), .save j (.permit none),
    .save j (.rename none)]

/-- A first configuration is saved and applied. -/
def appliedActions : List Action :=
  .supervisor (.load none) :: putActions 0 "alice" ++ saveActions 0 45 ++
    [.handler 0 .resume, .handler 0 .send, .supervisor .receive, .supervisor (.load none),
      .supervisor .launch]

theorem saved_is_applied_once : ∃ s, Runs.run (State.step sampleEnv) (start emptyFiles)
    appliedActions = some s ∧ s.Quiescent ∧
      s.supervisor = .running (sampleConfig [⟨"alice", "secret"⟩]) ∧
      load sampleEnv s.files none = .ok (sampleConfig [⟨"alice", "secret"⟩]) ∧
      (s.files.read .config = emptyFiles.read .config ∨
        ∃ submitted, s.Submitted submitted ∧ Contains sampleEnv s.files submitted) := by
  have h : Runs.Reaches (Tracked.step sampleEnv) Tracked.Orderly ⟨start emptyFiles, false⟩ ⟨_, _⟩ :=
    Runs.reaches_of_run appliedActions .refl rfl
  have happlied := saved_is_applied h (quiescent_of_all rfl rfl rfl) rfl
  exact ⟨_, rfl, quiescent_of_all rfl rfl rfl, rfl, happlied⟩

/-- **A dropped handler.**  Its save goes on, nobody sends a command, and the server keeps running
with the first configuration. -/
theorem dropped_save_not_applied : ∃ s, Runs.run (State.step sampleEnv) (start emptyFiles)
    (appliedActions ++ putActions 1 "bob" ++ [.handler 1 .drop] ++ saveActions 1 43) = some s ∧
      s.Quiescent ∧ s.supervisor = .running (sampleConfig [⟨"alice", "secret"⟩]) ∧
      load sampleEnv s.files none = .ok (sampleConfig [⟨"bob", "secret"⟩]) ∧
      sampleConfig [⟨"bob", "secret"⟩] ≠ sampleConfig [⟨"alice", "secret"⟩] :=
  ⟨_, rfl, quiescent_of_all rfl rfl rfl, rfl, rfl, by decide⟩

end State

end SingBoxMini.Admin
