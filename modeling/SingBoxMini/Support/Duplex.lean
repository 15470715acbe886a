import Mathlib.Logic.Relation
import Mathlib.Order.GameAdd

/-!
# Support — Duplex

Processes that read and write a byte stream, and two of them at the ends of one connection.

A process is the tree of its reads and writes (`Proc`); `read n` is `read_exact` of `n` bytes.  The
connection is reliable and keeps the order of the bytes, and nothing else is assumed of it: a write
may go out and a read may come in by any non-empty pieces, in any interleaving (`Duplex.Step`).  A
process that fails drops its end; then the other's reads meet the end of the stream and its writes
may fail (`Duplex.Closing`).

* `Proc.on`: what a process does alone, on given input.
* `Duplex.ends_of_schedule`: if one schedule ends with both processes `ok`, then every run is
  finite and ends there, however the bytes were split.
* `Duplex.not_ends_of_neverOk`: with a process that has no `ok` leaf no run ends so.
-/

/-- A process on a byte stream, as the tree of its reads and writes. -/
inductive Proc (ε α : Type) where
  | ok (a : α)
  | fail (e : ε)
  | write (bytes : List UInt8) (next : Proc ε α)
  | read (n : Nat) (next : List UInt8 → Proc ε α)

namespace Proc

variable {ε α β : Type}

/-- Sequencing. -/
def bind : Proc ε α → (α → Proc ε β) → Proc ε β
  | .ok a, f => f a
  | .fail e, _ => .fail e
  | .write bytes next, f => .write bytes (bind next f)
  | .read n next, f => .read n fun bytes => bind (next bytes) f

instance : Monad (Proc ε) where
  pure := .ok
  bind := bind

/-- `write_all` -/
def writeAll (bytes : List UInt8) : Proc ε Unit := .write bytes (.ok ())

/-- `read_exact` -/
def readExact (n : Nat) : Proc ε (List UInt8) := .read n .ok

/-- A computation without input or output. -/
def ofExcept : Except ε α → Proc ε α
  | .ok a => .ok a
  | .error e => .fail e

@[simp] theorem ok_bind (a : α) (f : α → Proc ε β) : (.ok a : Proc ε α) >>= f = f a := rfl
@[simp] theorem writeAll_bind (bytes : List UInt8) (f : Unit → Proc ε β) :
    writeAll bytes >>= f = .write bytes (f ()) := rfl
@[simp] theorem readExact_bind (n : Nat) (f : List UInt8 → Proc ε β) :
    readExact n >>= f = .read n f := rfl
@[simp] theorem ofExcept_ok (a : α) : ofExcept (.ok a : Except ε α) = .ok a := rfl

/-! ### A process alone -/

/-- What a process writes when `input` is all it can read, and its result if it gets to one. -/
def on : Proc ε α → List UInt8 → List UInt8 × Option (Except ε α)
  | .ok a, _ => ([], some (.ok a))
  | .fail e, _ => ([], some (.error e))
  | .write bytes next, input =>
    let (output, result) := on next input
    (bytes ++ output, result)
  | .read n next, input =>
    if n ≤ input.length then on (next (input.take n)) (input.drop n) else ([], none)

variable {n : Nat} {next : List UInt8 → Proc ε α} {input bytes inp inp' out : List UInt8}
  {p p' : Proc ε α}

/-- A process that gets to `ok` past a read has read that much. -/
theorem on_read_ok {a : α} (h : ((Proc.read n next).on input).2 = some (.ok a)) : ∃ bytes rest,
      bytes.length = n ∧ input = bytes ++ rest ∧ ((next bytes).on rest).2 = some (.ok a) := by
  unfold on at h
  by_cases hn : n ≤ input.length
  · rw [if_pos hn] at h
    exact ⟨input.take n, input.drop n, List.length_take_of_le hn,
      (List.take_append_drop n input).symm, h⟩
  · rw [if_neg hn] at h
    cases h

theorem on_write_ok {next : Proc ε α} {a : α}
    (h : ((Proc.write bytes next).on input).2 = some (.ok a)) :
    (next.on input).2 = some (.ok a) := h

theorem on_ofExcept_ok {x : Except ε α} {f : α → Proc ε β} {b : β}
    (h : ((ofExcept x >>= f).on input).2 = some (.ok b)) :
    ∃ a, x = .ok a ∧ ((f a).on input).2 = some (.ok b) := by
  cases x with
  | error e => cases h
  | ok a => exact ⟨a, rfl, h⟩

/-- No leaf is `ok`. -/
def NeverOk : Proc ε α → Prop
  | .ok _ => False
  | .fail _ => True
  | .write _ next => NeverOk next
  | .read _ next => ∀ bytes, NeverOk (next bytes)

theorem neverOk_ofExcept {x : Except ε α} {f : α → Proc ε β} (h : ∀ a, x = .ok a → (f a).NeverOk) :
    (ofExcept x >>= f).NeverOk := by
  cases x with
  | error e => trivial
  | ok a => exact h a rfl

/-! ### Steps of one process -/

/-- A step of a process that has `inp` to read, what is left of it, and what the step writes. -/
inductive Step : Proc ε α → List UInt8 → Proc ε α → List UInt8 → List UInt8 → Prop where
  | send {bytes piece rest inp : List UInt8} {next : Proc ε α} (hb : bytes = piece ++ rest)
      (hne : piece ≠ []) : Step (.write bytes next) inp (.write rest next) inp piece
  | sent {next : Proc ε α} {inp : List UInt8} : Step (.write [] next) inp next inp []
  | receive {n : Nat} {piece inp inp' : List UInt8} {next : List UInt8 → Proc ε α}
      (hi : inp = piece ++ inp') (hne : piece ≠ []) (hn : piece.length ≤ n) :
      Step (.read n next) inp
        (.read (n - piece.length) fun bytes => next (piece ++ bytes)) inp' []
  | received {next : List UInt8 → Proc ε α} {inp : List UInt8} :
      Step (.read 0 next) inp (next []) inp []

/-- Some steps of one process. -/
inductive Steps : Proc ε α → List UInt8 → Proc ε α → List UInt8 → List UInt8 → Prop where
  | refl (p : Proc ε α) (inp : List UInt8) : Steps p inp p inp []
  | more {p p' p'' : Proc ε α} {inp inp' inp'' out out' : List UInt8}
      (h : Step p inp p' inp' out) (t : Steps p' inp' p'' inp'' out') :
      Steps p inp p'' inp'' (out ++ out')

/-- A whole write, and on. -/
theorem Steps.write (h : Steps p inp p' inp' out) :
    Steps (.write bytes p) inp p' inp' (bytes ++ out) := by
  by_cases hb : bytes = []
  · subst hb
    exact .more .sent h
  · exact .more (.send (List.append_nil bytes).symm hb) (.more .sent h)

/-- A whole read, and on. -/
theorem Steps.read (hn : bytes.length = n) (h : Steps (next bytes) inp p' inp' out) :
    Steps (.read n next) (bytes ++ inp) p' inp' out := by
  subst hn
  by_cases hb : bytes = []
  · subst hb
    exact .more .received h
  · have hall : Step (.read bytes.length next) (bytes ++ inp)
        (.read (bytes.length - bytes.length) fun rest => next (bytes ++ rest)) inp [] :=
      .receive rfl hb (le_refl _)
    rw [Nat.sub_self] at hall
    refine .more hall (.more .received ?_)
    rwa [List.append_nil]

/-- The steps of a process are those it makes alone on its input. -/
theorem Step.on_eq (h : Step p inp p' inp' out) :
    p.on inp = (out ++ (p'.on inp').1, (p'.on inp').2) := by
  cases h with
  | send hb hne => simp [on, hb]
  | sent => simp [on]
  | @receive n piece _ _ next hi hne hn =>
      subst hi
      simp only [on, List.length_append, List.nil_append, Prod.mk.eta]
      by_cases hle : n - piece.length ≤ inp'.length
      · rw [if_pos hle, if_pos (by omega), List.take_append, List.take_of_length_le hn,
          List.drop_append, List.drop_of_length_le hn, List.nil_append]
      · rw [if_neg hle, if_neg (by omega)]
  | received => simp [on]

theorem Steps.on_eq (h : Steps p inp p' inp' out) :
    p.on inp = (out ++ (p'.on inp').1, (p'.on inp').2) := by
  induction h with
  | refl => simp
  | more hs _ ih => rw [hs.on_eq, ih, List.append_assoc]

theorem on_read_append (hn : bytes.length = n) (rest : List UInt8) :
    (Proc.read n next).on (bytes ++ rest) = (next bytes).on rest :=
  (Steps.read hn (.refl _ _)).on_eq

/-- More input later changes nothing. -/
theorem Step.more_input (h : Step p inp p' inp' out) (later : List UInt8) :
    Step p (inp ++ later) p' (inp' ++ later) out := by
  cases h with
  | send hb hne => exact .send hb hne
  | sent => exact .sent
  | receive hi hne hn => exact .receive (by rw [hi, List.append_assoc]) hne hn
  | received => exact .received

/-- What `Step.confluent` leaves between two steps: they are the same, or the second goes on where
the first ends. -/
def Extends (p₁ : Proc ε α) (inp₁ out₁ : List UInt8) (p₂ : Proc ε α) (inp₂ out₂ : List UInt8) :
    Prop :=
  (p₁ = p₂ ∧ inp₁ = inp₂ ∧ out₁ = out₂) ∨ ∃ out, Step p₁ inp₁ p₂ inp₂ out ∧ out₂ = out₁ ++ out

theorem extends_send {piece piece' rest : List UInt8} {next : Proc ε α} {more : List UInt8}
    (hp : piece' = piece ++ more) (hb : bytes = more ++ rest) :
    Extends (.write bytes next) inp piece (.write rest next) inp piece' := by
  subst hp
  by_cases hm : more = []
  · subst hm
    subst hb
    exact .inl ⟨rfl, rfl, (List.append_nil piece).symm⟩
  · exact .inr ⟨more, .send hb hm, rfl⟩

theorem extends_receive {piece piece' more : List UInt8} (hp : piece' = piece ++ more)
    (hi : inp = more ++ inp') (hn : piece'.length ≤ n) :
    Extends (.read (n - piece.length) fun bytes => next (piece ++ bytes)) inp []
      (.read (n - piece'.length) fun bytes => next (piece' ++ bytes)) inp' [] := by
  subst hp
  by_cases hm : more = []
  · subst hm
    subst hi
    exact .inl ⟨by simp, rfl, rfl⟩
  · refine .inr ⟨[], ?_, rfl⟩
    rw [List.length_append] at hn ⊢
    have hstep : Step (.read (n - piece.length) fun bytes => next (piece ++ bytes)) inp
        (.read (n - piece.length - more.length) fun bytes => next (piece ++ (more ++ bytes)))
        inp' [] := .receive hi hm (by omega)
    simpa only [Nat.sub_sub, List.append_assoc] using hstep

/-- Two steps of one process on the same input: one goes on where the other ends. -/
theorem Step.confluent {p₁ p₂ : Proc ε α} {inp₁ inp₂ out₁ out₂ : List UInt8}
    (h₁ : Step p inp p₁ inp₁ out₁) (h₂ : Step p inp p₂ inp₂ out₂) :
    Extends p₁ inp₁ out₁ p₂ inp₂ out₂ ∨ Extends p₂ inp₂ out₂ p₁ inp₁ out₁ := by
  cases h₁ with
  | send hb hne =>
      cases h₂ with
      | send hb' hne' =>
          rcases List.append_eq_append_iff.mp (hb.symm.trans hb') with
            ⟨more, hp, hr⟩ | ⟨more, hp, hr⟩
          · exact .inl (extends_send hp hr)
          · exact .inr (extends_send hp hr)
      | sent => exact absurd (List.append_eq_nil_iff.mp hb.symm).1 hne
  | sent =>
      cases h₂ with
      | send hb' hne' => exact absurd (List.append_eq_nil_iff.mp hb'.symm).1 hne'
      | sent => exact .inl (.inl ⟨rfl, rfl, rfl⟩)
  | receive hi hne hn =>
      cases h₂ with
      | receive hi' hne' hn' =>
          rcases List.append_eq_append_iff.mp (hi.symm.trans hi') with
            ⟨more, hp, hr⟩ | ⟨more, hp, hr⟩
          · exact .inl (extends_receive hp hr hn')
          · exact .inr (extends_receive hp hr hn)
      | received => exact absurd (List.length_eq_zero_iff.mp (Nat.le_zero.mp hn)) hne
  | received =>
      cases h₂ with
      | receive hi' hne' hn' => exact absurd (List.length_eq_zero_iff.mp (Nat.le_zero.mp hn')) hne'
      | received => exact .inl (.inl ⟨rfl, rfl, rfl⟩)

/-- The next places of a process, whatever it reads, failures of the stream included. -/
inductive Moves : Proc ε α → Proc ε α → Prop where
  | step {p p' : Proc ε α} {inp inp' out : List UInt8} (h : Step p inp p' inp' out) : Moves p' p
  | broken {bytes : List UInt8} {next : Proc ε α} {e : ε} : Moves (.fail e) (.write bytes next)
  | eof {n : Nat} {next : List UInt8 → Proc ε α} {e : ε} : Moves (.fail e) (.read n next)

theorem acc_ok (a : α) : Acc Moves (.ok a : Proc ε α) := by
  refine ⟨_, fun p' h => ?_⟩
  cases h with
  | step h => cases h

theorem acc_fail (e : ε) : Acc Moves (.fail e : Proc ε α) := by
  refine ⟨_, fun p' h => ?_⟩
  cases h with
  | step h => cases h

theorem acc_write {next : Proc ε α} (h : Acc Moves next) (bytes : List UInt8) :
    Acc Moves (.write bytes next) := by
  induction hlen : bytes.length using Nat.strongRecOn generalizing bytes with
  | ind len ih =>
      refine ⟨_, fun p' hp => ?_⟩
      cases hp with
      | broken => exact acc_fail _
      | step hs =>
          cases hs with
          | sent => exact h
          | @send _ piece rest _ _ hb hne =>
              refine ih rest.length ?_ rest rfl
              have hpos := List.length_pos_iff.mpr hne
              rw [← hlen, hb, List.length_append]
              omega

theorem acc_read (n : Nat) : ∀ {next : List UInt8 → Proc ε α}, (∀ bytes, Acc Moves (next bytes)) →
    Acc Moves (.read n next) := by
  induction n using Nat.strongRecOn with
  | ind n ih =>
      intro next h
      refine ⟨_, fun p' hp => ?_⟩
      cases hp with
      | eof => exact acc_fail _
      | step hs =>
          cases hs with
          | received => exact h []
          | @receive _ piece _ _ _ _ hne hle =>
              have hpos := List.length_pos_iff.mpr hne
              exact ih (n - piece.length) (by omega) fun bytes => h (piece ++ bytes)

/-- **A process does not move forever.** -/
theorem acc_moves (p : Proc ε α) : Acc Moves p := by
  induction p with
  | ok a => exact acc_ok a
  | fail e => exact acc_fail e
  | write bytes next ih => exact acc_write ih bytes
  | read n next ih => exact acc_read n ih

theorem NeverOk.moves (h : p.NeverOk) (hm : Moves p' p) : p'.NeverOk := by
  cases hm with
  | broken => trivial
  | eof => trivial
  | step hs =>
      cases hs with
      | send => exact h
      | sent => exact h
      | receive => exact fun bytes => h _
      | received => exact h []

end Proc

/-! ### Two processes -/

/-- Two processes and the bytes under way between them. -/
structure Duplex (ε α β : Type) where
  left : Proc ε α
  right : Proc ε β
  toRight : List UInt8
  toLeft : List UInt8

namespace Duplex

variable {ε α β : Type}

/-- A step of either process. -/
inductive Step : Duplex ε α β → Duplex ε α β → Prop where
  | left {p p' : Proc ε α} {q : Proc ε β} {x y y' out : List UInt8} (h : p.Step y p' y' out) :
      Step ⟨p, q, x, y⟩ ⟨p', q, x ++ out, y'⟩
  | right {p : Proc ε α} {q q' : Proc ε β} {x x' y out : List UInt8} (h : q.Step x q' x' out) :
      Step ⟨p, q, x, y⟩ ⟨p, q', x', y ++ out⟩

/-- What can befall a process whose peer has failed: the end of the stream, once everything sent
was read, or an error of a write. -/
inductive Closing : Duplex ε α β → Duplex ε α β → Prop where
  | leftEof {n : Nat} {next : List UInt8 → Proc ε α} {e e' : ε} {x : List UInt8} (hn : 0 < n) :
      Closing ⟨.read n next, .fail e, x, []⟩ ⟨.fail e', .fail e, x, []⟩
  | leftBroken {bytes : List UInt8} {next : Proc ε α} {e e' : ε} {x y : List UInt8} :
      Closing ⟨.write bytes next, .fail e, x, y⟩ ⟨.fail e', .fail e, x, y⟩
  | rightEof {n : Nat} {next : List UInt8 → Proc ε β} {e e' : ε} {y : List UInt8} (hn : 0 < n) :
      Closing ⟨.fail e, .read n next, [], y⟩ ⟨.fail e, .fail e', [], y⟩
  | rightBroken {bytes : List UInt8} {next : Proc ε β} {e e' : ε} {x y : List UInt8} :
      Closing ⟨.fail e, .write bytes next, x, y⟩ ⟨.fail e, .fail e', x, y⟩

/-- The steps of a connection. -/
def Run (s t : Duplex ε α β) : Prop := Step s t ∨ Closing s t

/-- Nothing is left to do. -/
def Final (s : Duplex ε α β) : Prop := ∀ t, ¬ Run s t

open Relation

variable {s t : Duplex ε α β} {y x : List UInt8} {a : α} {b : β}

theorem gameAdd_of_run (h : Run s t) :
    Prod.GameAdd Proc.Moves Proc.Moves (t.left, t.right) (s.left, s.right) := by
  rcases h with h | h
  · cases h with
    | left h => exact .fst (.step h)
    | right h => exact .snd (.step h)
  · cases h with
    | leftEof => exact .fst .eof
    | leftBroken => exact .fst .broken
    | rightEof => exact .snd .eof
    | rightBroken => exact .snd .broken

/-- **Every run is finite.** -/
theorem acc_run (s : Duplex ε α β) : Acc (fun t s => Run s t) s := by
  have hgame := s.left.acc_moves.prod_gameAdd s.right.acc_moves
  have hinv := InvImage.accessible (fun t : Duplex ε α β => (t.left, t.right)) hgame
  exact Subrelation.accessible gameAdd_of_run hinv

/-- The same connection, seen from the other side. -/
def swap (s : Duplex ε α β) : Duplex ε β α :=
  ⟨s.right, s.left, s.toLeft, s.toRight⟩

theorem Step.swap (h : Step s t) : Step s.swap t.swap := by
  cases h with
  | left h => exact .right h
  | right h => exact .left h

theorem swap_steps (h : ReflTransGen Step s t) :
    ReflTransGen Step s.swap t.swap :=
  h.lift swap fun _ _ => Step.swap

/-- Two steps of the left process can be joined again. -/
theorem left_confluent {p p₁ p₂ : Proc ε α} (q : Proc ε β) {y₁ y₂ out₁ out₂ : List UInt8}
    (x : List UInt8) (h₁ : p.Step y p₁ y₁ out₁) (h₂ : p.Step y p₂ y₂ out₂) :
    ∃ v : Duplex ε α β, ReflGen Step ⟨p₁, q, x ++ out₁, y₁⟩ v ∧
      ReflTransGen Step ⟨p₂, q, x ++ out₂, y₂⟩ v := by
  rcases h₁.confluent h₂ with
    (⟨rfl, rfl, rfl⟩ | ⟨out, h, rfl⟩) | (⟨rfl, rfl, rfl⟩ | ⟨out, h, rfl⟩)
  · exact ⟨_, .refl, .refl⟩
  · refine ⟨_, .single (.left h), ?_⟩
    rw [List.append_assoc]
  · exact ⟨_, .refl, .refl⟩
  · refine ⟨_, .refl, ?_⟩
    rw [← List.append_assoc]
    exact .single (.left h)

/-- Two steps from one state can be joined again. -/
theorem step_confluent (s t u : Duplex ε α β) (ht : Step s t) (hu : Step s u) :
    ∃ v, ReflGen Step t v ∧ ReflTransGen Step u v := by
  cases ht with
  | left ht =>
      cases hu with
      | left hu => exact left_confluent _ _ ht hu
      | right hu =>
          refine ⟨_, .single (.right (hu.more_input _)), .single (.left (ht.more_input _))⟩
  | right ht =>
      cases hu with
      | left hu =>
          refine ⟨_, .single (.left (hu.more_input _)), .single (.right (ht.more_input _))⟩
      | right hu =>
          obtain ⟨v, htv, huv⟩ := left_confluent _ _ ht hu
          refine ⟨v.swap, ?_, swap_steps huv⟩
          cases htv with
          | refl => exact .refl
          | single h => exact .single h.swap

/-- A process that has ended makes no step. -/
theorem not_step_of_ended :
    ¬ Step ⟨.ok a, .ok b, x, y⟩ t := by
  rintro (⟨⟨⟩⟩ | ⟨⟨⟩⟩)

/-- A failed process stays failed. -/
theorem failed_left {e : ε} (hs : s.left = .fail e) (h : ReflTransGen Step s t) :
    t.left = .fail e := by
  induction h with
  | refl => exact hs
  | tail _ hstep ih =>
      cases hstep with
      | left h =>
          simp only at ih
          subst ih
          cases h
      | right => exact ih

theorem failed_right {e : ε} (hs : s.right = .fail e) (h : ReflTransGen Step s t) :
    t.right = .fail e :=
  failed_left hs (swap_steps h)

/-- Where both can still end `ok`, none has failed. -/
theorem not_closing (h : ReflTransGen Step s ⟨.ok a, .ok b, x, y⟩) : ¬ Closing s t := by
  intro hc
  cases hc with
  | leftEof => cases failed_right rfl h
  | leftBroken => cases failed_right rfl h
  | rightEof => cases failed_left rfl h
  | rightBroken => cases failed_left rfl h

/-- **Completion does not depend on the schedule.**  If one schedule ends with both processes `ok`,
every state of every run can still get there, and no run ends anywhere else. -/
theorem completes (h : ReflTransGen Step s ⟨.ok a, .ok b, x, y⟩) (ht : ReflTransGen Run s t) :
    ReflTransGen Step t ⟨.ok a, .ok b, x, y⟩ := by
  induction ht with
  | refl => exact h
  | tail _ hrun ih =>
      have hstep := hrun.resolve_right (not_closing ih)
      obtain ⟨v, hv, hend⟩ := church_rosser step_confluent (.single hstep) ih
      -- nothing follows the end, so it is where the two schedules meet
      cases hend.cases_head with
      | inl e => exact e ▸ hv
      | inr hnext =>
          obtain ⟨w, hw, -⟩ := hnext
          exact absurd hw not_step_of_ended

/-- What the right process still has to do once the left one has returned. -/
theorem steps_of_left_ok (h : ReflTransGen Step s ⟨.ok a, .ok b, x, y⟩) (hs : s.left = .ok a) :
    ∃ out, s.right.Steps s.toRight (.ok b) x out ∧ s.toLeft ++ out = y := by
  induction h using ReflTransGen.head_induction_on with
  | refl => exact ⟨[], .refl _ _, List.append_nil _⟩
  | head hstep _ ih =>
      cases hstep with
      | left hl =>
          simp only at hs
          subst hs
          cases hl
      | right hr =>
          obtain ⟨out, hsteps, rfl⟩ := ih hs
          exact ⟨_, .more hr hsteps, (List.append_assoc _ _ _).symm⟩

/-- Every run is finite and ends with these results. -/
def Ends (s : Duplex ε α β) (a : α) (b : β) : Prop :=
  Acc (fun t s => Run s t) s ∧
    ∀ t, ReflTransGen Run s t → Final t → t.left = .ok a ∧ t.right = .ok b

/-- **One schedule is enough**: if it ends with both processes `ok`, every run ends so. -/
theorem ends_of_schedule (h : ReflTransGen Step s ⟨.ok a, .ok b, x, y⟩) : s.Ends a b := by
  refine ⟨acc_run s, fun t ht hfinal => ?_⟩
  rcases (completes h ht).cases_head with rfl | ⟨u, hu, -⟩
  · exact ⟨rfl, rfl⟩
  · exact absurd (.inl hu) (hfinal u)

/-- Some run ends. -/
theorem exists_final (s : Duplex ε α β) : ∃ t, ReflTransGen Run s t ∧ Final t := by
  induction acc_run s with
  | intro s _ ih =>
      by_cases hfinal : Final s
      · exact ⟨s, .refl, hfinal⟩
      · obtain ⟨t, ht⟩ := not_forall_not.mp hfinal
        obtain ⟨u, hu, hend⟩ := ih t ht
        exact ⟨u, .head ht hu, hend⟩

theorem neverOk (h : s.right.NeverOk) (ht : ReflTransGen Run s t) :
    t.right.NeverOk := by
  induction ht with
  | refl => exact h
  | tail _ hrun ih =>
      rcases hrun with hstep | hclosing
      · cases hstep with
        | left => exact ih
        | right hs => exact ih.moves (.step hs)
      · cases hclosing with
        | leftEof => exact ih
        | leftBroken => exact ih
        | rightEof => trivial
        | rightBroken => trivial

theorem not_ends_of_neverOk (h : s.right.NeverOk) (a : α) (b : β) :
    ¬ s.Ends a b := by
  rintro ⟨-, hends⟩
  obtain ⟨t, ht, hfinal⟩ := exists_final s
  have hright := neverOk h ht
  rw [(hends t ht hfinal).2] at hright
  exact hright

/-! ### Schedules -/

/-- Steps of the left process, its peer waiting. -/
theorem left_steps {p p' : Proc ε α} {y' out : List UInt8} (h : p.Steps y p' y' out) (q : Proc ε β)
    : ∀ x, ReflTransGen Step ⟨p, q, x, y⟩ ⟨p', q, x ++ out, y'⟩ := by
  induction h with
  | refl => simp [ReflTransGen.refl]
  | more hs _ ih =>
      intro x
      rw [← List.append_assoc]
      exact .head (.left hs) (ih _)

/-- Steps of the right process, its peer waiting. -/
theorem right_steps {q q' : Proc ε β} {x' out : List UInt8} (h : q.Steps x q' x' out) (p : Proc ε α)
    : ∀ y, ReflTransGen Step ⟨p, q, x, y⟩ ⟨p, q', x', y ++ out⟩ := by
  induction h with
  | refl => simp [ReflTransGen.refl]
  | more hs _ ih =>
      intro y
      rw [← List.append_assoc]
      exact .head (.right hs) (ih _)

end Duplex
