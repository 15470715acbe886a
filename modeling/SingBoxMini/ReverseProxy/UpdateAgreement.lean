import SingBoxMini.ReverseProxy.Update
import SingBoxMini.Support.TomlText

/-!
# Reverse proxy — Update — Agreement

When the settings file, the settings in memory and the settings of the task agree.

Three invariants, each kept by every step.

* `TaskOk`: the task has the settings in memory, or some call has still to restart it.  This holds
  in all runs: the slot is locked from the end of the old task to the start of the new one.
* `FilesOk`: the file has the settings of the call that renamed last.  For this no call may open the
  temporary file while another one uses it.
* `MemoryOk`: the memory has the settings of the call that renamed last among those that have
  published theirs.  For this calls must not publish in the wrong order.

`settings_agree`: so they agree once all calls have returned, and a call that fails has changed none
of them.
-/

namespace SingBoxMini.ReverseProxy
open Bytes Files Runs

/-- The call is within `restart`, with the slot locked. -/
def UpdatePc.restarting : UpdatePc → Bool
  | .stopping | .starting _ | .launching _ => true
  | _ => false

/-- A call in `save` is not beyond it. -/
theorem UpdatePc.of_saving {pc : UpdatePc} (h : pc.saving = true) :
    pc.restarting = false ∧ pc.published = false ∧ pc ≠ .publishing ∧ pc ≠ .locking := by
  cases pc with
  | creating | opening _ | writing _ | replacing _ => simp [restarting, published]
  | publishing | locking | stopping | starting _ | launching _ | reporting | reported _
  | returned _ => cases h

/-- What a call in `save` has done so far. -/
def UpdateCall.Writes (env : Env) (files : Files SettingsFile) (call : UpdateCall) : Prop :=
  match call.pc with
  | .opening contents => env.serialize call.settings = .ok contents
  | .writing w => env.serialize call.settings = .ok w.contents ∧
      w.written ≤ w.contents.length ∧ files.Holds .temporary w
  | .replacing w => env.serialize call.settings = .ok w.contents ∧
      w.written = w.contents.length ∧ files.Holds .temporary w
  | _ => True

theorem UpdateCall.Writes.of_idle {env : Env} {files files' : Files SettingsFile}
    {call : UpdateCall} (h : call.Writes env files) (hpc : call.pc.usesTemporary = false) :
    call.Writes env files' := by
  unfold UpdateCall.Writes at h ⊢
  split at h
  · exact h
  · rename_i hw
    rw [hw] at hpc
    cases hpc
  · rename_i hw
    rw [hw] at hpc
    cases hpc
  · trivial

namespace Controller

variable {env : Env} {s s' : Controller} {action : UpdateAction} {i : CallId}
  {call call' : UpdateCall}

/-- Every call has returned. -/
def AllReturned (s : Controller) : Prop :=
  ∀ (i : CallId) (call : UpdateCall), s.calls[i]? = some call → ∃ result, call.pc = .returned result

theorem allReturned_of_calls (results : List (Except AnyhowError ReverseProxyStatus))
    (h : s.calls.map UpdateCall.pc = results.map .returned) : s.AllReturned := by
  intro i call hi
  have hmem : call.pc ∈ results.map UpdatePc.returned := by
    rw [← h]
    exact List.mem_map_of_mem (List.mem_of_getElem? hi)
  obtain ⟨result, -, hresult⟩ := List.mem_map.mp hmem
  exact ⟨result, hresult.symm⟩

variable {j : CallId} {c : UpdateCall}

/-! ### The task -/

/-- Some call has still to restart the task. -/
def Waiting (s : Controller) : Prop :=
  ∃ (j : CallId) (call : UpdateCall), s.calls[j]? = some call ∧ call.pc = .locking

/-- **The task has the settings in memory, or it will be restarted.** -/
structure TaskOk (s : Controller) : Prop where
  held : ∀ (i : CallId) (call : UpdateCall), s.calls[i]? = some call →
    call.pc.restarting = true → s.lock = some i
  holder : ∀ i, s.lock = some i → ∃ call, s.calls[i]? = some call ∧ call.pc.restarting = true
  fresh : ∀ (i : CallId) (call : UpdateCall) (v : ReverseProxySettings), s.calls[i]? = some call →
    call.pc = .starting v ∨ call.pc = .launching v → v = s.settings ∨ s.Waiting
  task : s.lock = none → s.task = s.settings.launched ∨ s.Waiting

theorem taskOk_start (contents : List UInt8) (settings : ReverseProxySettings) :
    (start contents settings).TaskOk := by
  constructor <;> simp [start]

theorem new_pc (env : Env) (settings : ReverseProxySettings) :
    (UpdateCall.new env settings).pc = .creating ∨
      ∃ error, (UpdateCall.new env settings).pc = .returned (.error error) := by
  unfold UpdateCall.new
  cases settings.validate env.parseUrl with
  | ok _ => exact .inl rfl
  | error error => exact .inr ⟨error, rfl⟩

theorem Waiting.other {c' : UpdateCall} (h : s.Waiting) (hj : s.calls[j]? = some c)
    (hpc : c.pc ≠ .locking) (hcalls : s'.calls = s.calls.set j c') : s'.Waiting := by
  rw [Waiting, hcalls]
  exact Tasks.exists_replace hj (fun hlocking => absurd hlocking hpc) h

/-- The call that holds the lock is another one. -/
theorem TaskOk.holder_other (h : s.TaskOk) (hi : s.calls[i]? = some call)
    (hpc : call.pc.restarting = false) (hj : s.lock = some j) :
    ∃ c, (s.calls.set i call')[j]? = some c ∧ c.pc.restarting = true := by
  obtain ⟨c, hc, hr⟩ := h.holder j hj
  have hij : i ≠ j := by
    rintro rfl
    cases hi.symm.trans hc
    cases hpc.symm.trans hr
  exact ⟨c, (List.getElem?_set_ne hij).trans hc, hr⟩

/-- A call moves on outside `restart`. -/
theorem TaskOk.move (h : s.TaskOk) (hi : s.calls[i]? = some call)
    (hpc : call.pc.restarting = false ∧ call.pc ≠ .locking) (hpc' : call'.pc.restarting = false)
    (hcalls : s'.calls = s.calls.set i call') (hsettings : s'.settings = s.settings)
    (htask : s'.task = s.task) (hlock : s'.lock = s.lock) : s'.TaskOk := by
  have hwaiting : s.Waiting → s'.Waiting := fun hw => hw.other hi hpc.2 hcalls
  constructor
  · intro j c hj hr
    rw [hcalls] at hj
    rcases Tasks.of_replace hi hj with ⟨-, rfl⟩ | ⟨-, hj⟩
    · rw [hpc'] at hr
      cases hr
    · rw [hlock]
      exact h.held j c hj hr
  · intro j hj
    rw [hcalls]
    exact h.holder_other hi hpc.1 (hlock ▸ hj)
  · intro j c v hj hv
    rw [hcalls] at hj
    rcases Tasks.of_replace hi hj with ⟨-, rfl⟩ | ⟨-, hj⟩
    · rcases hv with hv | hv <;> rw [hv] at hpc' <;> cases hpc'
    · rw [hsettings]
      exact (h.fresh j c v hj hv).imp_right hwaiting
  · intro hnone
    rw [hlock] at hnone
    rw [htask, hsettings]
    exact (h.task hnone).imp_right hwaiting

/-- A new call. -/
theorem TaskOk.spawn (h : s.TaskOk) (hnew : call.pc.restarting = false) :
    TaskOk { s with calls := s.calls ++ [call] } := by
  have hwaiting : s.Waiting → Waiting { s with calls := s.calls ++ [call] } :=
    Tasks.exists_spawn call
  constructor
  · intro j c hj hr
    rcases Tasks.of_spawn hj with rfl | hj
    · cases hnew.symm.trans hr
    · exact h.held j c hj hr
  · intro j hj
    obtain ⟨c, hc, hr⟩ := h.holder j hj
    exact ⟨c, Tasks.spawn_old hc call, hr⟩
  · intro j c v hj hv
    rcases Tasks.of_spawn hj with rfl | hj
    · rcases hv with hv | hv <;> rw [hv] at hnew <;> cases hnew
    · exact (h.fresh j c v hj hv).imp_right hwaiting
  · intro hnone
    exact (h.task hnone).imp_right hwaiting

/-- One call at a time is within `restart`. -/
theorem TaskOk.unique (h : s.TaskOk) (hi : s.calls[i]? = some call)
    (hpc : call.pc.restarting = true) (hj : s.calls[j]? = some c) (hc : c.pc.restarting = true) :
    i = j :=
  Option.some.inj ((h.held i call hi hpc).symm.trans (h.held j c hj hc))

/-- A call moves on within `restart`, with the settings in memory or while another call waits. -/
theorem TaskOk.advance (h : s.TaskOk) (hi : s.calls[i]? = some call)
    (hpc : call.pc.restarting = true) (hpc' : call'.pc.restarting = true)
    (hfresh : ∀ v, call'.pc = .starting v ∨ call'.pc = .launching v →
      v = s.settings ∨ s.Waiting) (hcalls : s'.calls = s.calls.set i call')
    (hsettings : s'.settings = s.settings) (hlock : s'.lock = s.lock) : s'.TaskOk := by
  have hself : s.lock = some i := h.held i call hi hpc
  have hwaiting : s.Waiting → s'.Waiting := by
    refine fun hw => hw.other hi ?_ hcalls
    intro hlocking
    rw [hlocking] at hpc
    cases hpc
  constructor
  · intro j c hj hr
    rw [hcalls] at hj
    rw [hlock]
    rcases Tasks.of_replace hi hj with ⟨rfl, -⟩ | ⟨-, hj⟩
    · exact hself
    · exact h.held j c hj hr
  · intro j hj
    rw [hlock, hself] at hj
    cases hj
    exact ⟨call', hcalls ▸ Tasks.replace_self hi call', hpc'⟩
  · intro j c v hj hv
    rw [hcalls] at hj
    rw [hsettings]
    rcases Tasks.of_replace hi hj with ⟨-, rfl⟩ | ⟨hij, hj⟩
    · exact (hfresh v hv).imp_right hwaiting
    · refine absurd (h.unique hi hpc hj ?_) hij
      rcases hv with hv | hv <;> rw [hv] <;> rfl
  · intro hnone
    rw [hlock, hself] at hnone
    cases hnone

theorem TaskOk.step (h : s.TaskOk) (hs : s.step env action = some s') : s'.TaskOk := by
  cases did_of_step hs with
  | update settings =>
      refine h.spawn ?_
      rcases new_pc env settings with hpc | ⟨error, hpc⟩ <;> rw [hpc] <;> rfl
  | @fails _ i call _ _ hi hpc =>
      obtain ⟨hr, -, -, hlocking⟩ := UpdatePc.of_saving hpc
      exact h.move hi ⟨hr, hlocking⟩ rfl rfl rfl rfl rfl
  | dirReady hi hpc | opened hi hpc | write hi hpc | synced hi hpc | replaced hi hpc
  | unchanged hi hpc | reportSettings hi hpc | report hi hpc =>
      exact h.move hi (by simp [hpc, UpdatePc.restarting]) rfl rfl rfl rfl rfl
  | @published i call hi hpc hne =>
      have hwaiting : Waiting { s.toCall i call .locking with settings := call.settings } :=
        ⟨i, { call with pc := .locking }, Tasks.replace_self hi _, rfl⟩
      refine ⟨?_, ?_, fun _ _ _ _ _ => .inr hwaiting, fun _ => .inr hwaiting⟩
      · intro j c hj hr
        rcases Tasks.of_replace hi hj with ⟨-, rfl⟩ | ⟨-, hj⟩
        · cases hr
        · exact h.held j c hj hr
      · exact fun j hj => h.holder_other hi (by rw [hpc]; rfl) hj
  | @stop i call hi hpc hlock =>
      have hnobody : ∀ (j : CallId) (c : UpdateCall), s.calls[j]? = some c →
          c.pc.restarting ≠ true := by
        intro j c hj hr
        cases hlock.symm.trans (h.held j c hj hr)
      constructor
      · intro j c hj hr
        rcases Tasks.of_replace hi hj with ⟨rfl, -⟩ | ⟨-, hj⟩
        · rfl
        · exact absurd hr (hnobody j c hj)
      · intro j hj
        cases hj
        exact ⟨{ call with pc := .stopping }, Tasks.replace_self hi _, rfl⟩
      · intro j c v hj hv
        rcases Tasks.of_replace hi hj with ⟨-, rfl⟩ | ⟨-, hj⟩
        · rcases hv with hv | hv <;> cases hv
        · refine absurd ?_ (hnobody j c hj)
          rcases hv with hv | hv <;> rw [hv] <;> rfl
      · intro hnone
        cases hnone
  | @read i call hi hpc =>
      refine h.advance hi (by rw [hpc]; rfl) rfl ?_ rfl rfl rfl
      rintro v (hv | hv) <;> cases hv
      exact .inl rfl
  | @reset i call settings hi hpc =>
      refine h.advance hi (by rw [hpc]; rfl) rfl ?_ rfl rfl rfl
      rintro v (hv | hv) <;> cases hv
      exact h.fresh i call settings hi (.inl hpc)
  | @launch i call settings hi hpc =>
      have hr : call.pc.restarting = true := by rw [hpc]; rfl
      constructor
      · intro j c hj hc
        rcases Tasks.of_replace hi hj with ⟨-, rfl⟩ | ⟨hij, hj⟩
        · cases hc
        · exact absurd (h.unique hi hr hj hc) hij
      · intro j hj
        cases hj
      · intro j c v hj hv
        rcases Tasks.of_replace hi hj with ⟨-, rfl⟩ | ⟨hij, hj⟩
        · rcases hv with hv | hv <;> cases hv
        · refine absurd (h.unique hi hr hj ?_) hij
          rcases hv with hv | hv <;> rw [hv] <;> rfl
      · intro _
        rcases h.fresh i call settings hi (.inr hpc) with rfl | hw
        · exact .inl rfl
        · exact .inr (hw.other hi (by simp [hpc]) rfl)
  | ended => exact ⟨h.held, h.holder, h.fresh, h.task⟩

/-! ### The file -/

/-- The settings the controller was loaded with, or those of the call that put the file in place. -/
def Wrote (initial : ReverseProxySettings) (s : Controller) (q : InodeId)
    (v : ReverseProxySettings) : Prop :=
  (q = 0 ∧ v = initial) ∨ ∃ (i : CallId) (call : UpdateCall), s.calls[i]? = some call ∧
    call.saved = some q ∧ call.settings = v

/-- **The file, in the inode `p`, has the settings of the call that renamed last**, and the
temporary file is another one. -/
structure FilesOk (env : Env) (initial : ReverseProxySettings) (s : Controller) (p : InodeId) :
    Prop where
  alone : ∀ (i j : CallId) (c d : UpdateCall), s.calls[i]? = some c → s.calls[j]? = some d →
    c.pc.usesTemporary = true → d.pc.usesTemporary = true → i = j
  writes : ∀ (i : CallId) (c : UpdateCall), s.calls[i]? = some c →
    c.Writes env s.files
  saved : ∀ (i : CallId) (c : UpdateCall), s.calls[i]? = some c →
    (c.saved ≠ none ↔ c.pc = .publishing ∨ c.pc.published = true)
  named : s.files.entries.lookup .settings = some p
  place : ∃ v bytes, s.files.inodes[p]? = some bytes ∧ env.deserialize bytes = .ok v ∧
    s.Wrote initial p v
  below : ∀ (i : CallId) (c : UpdateCall) (q : InodeId), s.calls[i]? = some c →
    c.saved = some q → 0 < q ∧ q ≤ p
  above : ∀ t, s.files.entries.lookup .temporary = some t → p < t
  once : ∀ (i j : CallId) (c d : UpdateCall) (q : InodeId), s.calls[i]? = some c →
    s.calls[j]? = some d → c.saved = some q → d.saved = some q → i = j

section Files

variable {initial : ReverseProxySettings} {p : InodeId}

theorem filesOk_start {contents : List UInt8} (h : env.deserialize contents = .ok initial) :
    (start contents initial).FilesOk env initial 0 where
  alone := by simp [start]
  writes := by simp [start]
  saved := by simp [start]
  named := rfl
  place := ⟨initial, contents, rfl, h, .inl ⟨rfl, rfl⟩⟩
  below := by simp [start]
  above := by
    intro t ht
    cases ht
  once := by simp [start]

theorem Wrote.replace {q : InodeId} {v : ReverseProxySettings} (h : s.Wrote initial q v)
    (hi : s.calls[i]? = some call) (hcalls : s'.calls = s.calls.set i call')
    (hsettings : call'.settings = call.settings)
    (hsaved : ∀ q, call.saved = some q → call'.saved = some q) : s'.Wrote initial q v := by
  refine h.imp_right fun hcall => ?_
  rw [hcalls]
  exact Tasks.exists_replace hi (fun hc => ⟨hsaved q hc.1, hsettings.trans hc.2⟩) hcall

/-- A call moves on with the file it saved, and the settings file stays as it is. -/
theorem FilesOk.move (h : s.FilesOk env initial p) (hcalls : s'.calls = s.calls.set i call')
    (hi : s.calls[i]? = some call)
    (hsame : call'.saved = call.saved ∧ call'.settings = call.settings)
    (hstage : (call'.pc = .publishing ∨ call'.pc.published = true) ↔
      (call.pc = .publishing ∨ call.pc.published = true))
    (hwrites : call'.Writes env s'.files)
    (hothers : ∀ (j : CallId) (c : UpdateCall), i ≠ j → s.calls[j]? = some c →
      c.Writes env s'.files ∧
        (call'.pc.usesTemporary = true → c.pc.usesTemporary = false))
    (hnamed : s'.files.entries.lookup .settings = some p)
    (hplace : s'.files.inodes[p]? = s.files.inodes[p]?)
    (habove : ∀ t, s'.files.entries.lookup .temporary = some t → p < t) :
    s'.FilesOk env initial p := by
  have hcall : ∀ {j : CallId} {c : UpdateCall}, s'.calls[j]? = some c →
      (i = j ∧ c = call') ∨ (i ≠ j ∧ s.calls[j]? = some c) := by
    intro j c hj
    rw [hcalls] at hj
    exact Tasks.of_replace hi hj
  -- the files the calls have saved are the ones they had
  have hold : ∀ {j : CallId} {c : UpdateCall} {q : InodeId}, s'.calls[j]? = some c →
      c.saved = some q → ∃ d, s.calls[j]? = some d ∧ d.saved = some q := by
    intro j c q hj hq
    rcases hcall hj with ⟨rfl, rfl⟩ | ⟨-, hj⟩
    · exact ⟨call, hi, hsame.1 ▸ hq⟩
    · exact ⟨c, hj, hq⟩
  constructor
  · intro j k c d hj hk hc hd
    rcases hcall hj with ⟨rfl, rfl⟩ | ⟨hij, hj⟩ <;> rcases hcall hk with ⟨rfl, rfl⟩ | ⟨hik, hk⟩
    · rfl
    · cases ((hothers k d hik hk).2 hc).symm.trans hd
    · cases ((hothers j c hij hj).2 hd).symm.trans hc
    · exact h.alone j k c d hj hk hc hd
  · intro j c hj
    rcases hcall hj with ⟨-, rfl⟩ | ⟨hij, hj⟩
    · exact hwrites
    · exact (hothers j c hij hj).1
  · intro j c hj
    rcases hcall hj with ⟨-, rfl⟩ | ⟨-, hj⟩
    · rw [hsame.1, hstage]
      exact h.saved i call hi
    · exact h.saved j c hj
  · exact hnamed
  · obtain ⟨v, bytes, hbytes, hparse, hwrote⟩ := h.place
    exact ⟨v, bytes, hplace.trans hbytes, hparse,
      hwrote.replace hi hcalls hsame.2 fun _ hq => hsame.1.trans hq⟩
  · intro j c q hj hq
    obtain ⟨d, hd, hdq⟩ := hold hj hq
    exact h.below j d q hd hdq
  · exact habove
  · intro j k c d q hj hk hc hd
    obtain ⟨c₀, hc₀, hcq⟩ := hold hj hc
    obtain ⟨d₀, hd₀, hdq⟩ := hold hk hd
    exact h.once j k c₀ d₀ q hc₀ hd₀ hcq hdq

/-- A call moves on, and the files stay as they are. -/
theorem FilesOk.stay (h : s.FilesOk env initial p) (hcalls : s'.calls = s.calls.set i call')
    (hfiles : s'.files = s.files) (hi : s.calls[i]? = some call)
    (hsame : call'.saved = call.saved ∧ call'.settings = call.settings)
    (hstage : (call'.pc = .publishing ∨ call'.pc.published = true) ↔
      (call.pc = .publishing ∨ call.pc.published = true))
    (hwrites : call'.Writes env s.files)
    (huses : call'.pc.usesTemporary = true → call.pc.usesTemporary = true) :
    s'.FilesOk env initial p := by
  refine h.move hcalls hi hsame hstage (hfiles ▸ hwrites) ?_ (hfiles ▸ h.named) (by rw [hfiles])
    (hfiles ▸ h.above)
  intro j c hij hj
  refine ⟨hfiles ▸ h.writes j c hj, fun hcall' => ?_⟩
  by_contra hc
  exact hij (h.alone i j call c hi hj (huses hcall') (by simpa using hc))

/-- A new call. -/
theorem FilesOk.spawn (h : s.FilesOk env initial p) (hnew : call.saved = none)
    (hpc : call.pc.usesTemporary = false ∧ call.pc ≠ .publishing ∧ call.pc.published = false)
    (hwrites : call.Writes env s.files) :
    FilesOk env initial { s with calls := s.calls ++ [call] } p := by
  have hold : ∀ {j : CallId} {c : UpdateCall} {q : InodeId}, (s.calls ++ [call])[j]? = some c →
      c.saved = some q → s.calls[j]? = some c := by
    intro j c q hj hq
    rcases Tasks.of_spawn hj with rfl | hj
    · cases hnew.symm.trans hq
    · exact hj
  constructor
  · intro j k c d hj hk hc hd
    rcases Tasks.of_spawn hj with rfl | hj
    · cases hpc.1.symm.trans hc
    · rcases Tasks.of_spawn hk with rfl | hk
      · cases hpc.1.symm.trans hd
      · exact h.alone j k c d hj hk hc hd
  · intro j c hj
    rcases Tasks.of_spawn hj with rfl | hj
    · exact hwrites
    · exact h.writes j c hj
  · intro j c hj
    rcases Tasks.of_spawn hj with rfl | hj
    · simp [hnew, hpc.2]
    · exact h.saved j c hj
  · exact h.named
  · obtain ⟨v, bytes, hbytes, hparse, hwrote⟩ := h.place
    exact ⟨v, bytes, hbytes, hparse, hwrote.imp_right (Tasks.exists_spawn call)⟩
  · intro j c q hj hq
    exact h.below j c q (hold hj hq) hq
  · exact h.above
  · intro j k c d q hj hk hc hd
    exact h.once j k c d q (hold hj hc) (hold hk hd) hc hd

/-- **The condition**: a call opens the temporary file only while no other call uses it, and a call
publishes its settings only if they are in memory already or no call that renamed after it has
published. -/
def Orderly (s : Controller) : UpdateAction → Prop
  | .openTemporary _ none => ∀ c ∈ s.calls, c.pc.usesTemporary = false
  | .publish i => ∀ call ∈ s.calls[i]?, s.settings = call.settings ∨
      ∀ c ∈ s.calls, c.pc.published = true → ∀ q ∈ c.saved, ∀ a ∈ call.saved, q ≤ a
  | _ => True

instance (s : Controller) : (action : UpdateAction) → Decidable (s.Orderly action)
  | .openTemporary _ none => inferInstanceAs (Decidable (∀ c ∈ s.calls, _))
  | .publish i => inferInstanceAs (Decidable (∀ call ∈ s.calls[i]?, _))
  | .openTemporary _ (some _) | .update _ | .createDir _ _ | .write _ _ | .writeError _ _
  | .sync _ _ | .rename _ _ | .stop _ | .read _ | .reset _ | .launch _ | .reportSettings _
  | .report _ | .ended _ => isTrue trivial

/-- The call that uses the temporary file is the only one. -/
theorem FilesOk.others_idle (h : s.FilesOk env initial p) (hi : s.calls[i]? = some call)
    (hpc : call.pc.usesTemporary = true) {j : CallId} {c : UpdateCall} (hij : i ≠ j)
    (hj : s.calls[j]? = some c) : c.pc.usesTemporary = false := by
  by_contra hc
  exact hij (h.alone i j call c hi hj hpc (by simpa using hc))

/-- The temporary file takes the place of the settings file. -/
theorem FilesOk.replaced {w : Writing} {files : Files SettingsFile}
    (hround : ∀ v bytes, env.serialize v = .ok bytes → env.deserialize bytes = .ok v)
    (h : s.FilesOk env initial p) (hi : s.calls[i]? = some call) (hpc : call.pc = .replacing w)
    (hr : s.files.rename .temporary .settings = some files) :
    FilesOk env initial { s with
      files
      calls := s.calls.set i
        { call with saved := s.files.entries.lookup .temporary, pc := .publishing } } w.inode := by
  have hwrites := h.writes i call hi
  simp only [UpdateCall.Writes, hpc] at hwrites
  obtain ⟨hser, hcomplete, hholds⟩ := hwrites
  obtain ⟨t, ht, hinodes, hlookup⟩ := lookup_rename hr
  cases hholds.named.symm.trans ht
  have hpt : p < w.inode := h.above w.inode ht
  have hidle := fun {j : CallId} {c : UpdateCall} (hij : i ≠ j) (hj : s.calls[j]? = some c) =>
    h.others_idle hi (by rw [hpc]; rfl) hij hj
  constructor
  · intro j k c d hj hk hc hd
    rcases Tasks.of_replace hi hj with ⟨-, rfl⟩ | ⟨hij, hj⟩
    · cases hc
    · cases (hidle hij hj).symm.trans hc
  · intro j c hj
    rcases Tasks.of_replace hi hj with ⟨-, rfl⟩ | ⟨hij, hj⟩
    · exact trivial
    · exact (h.writes j c hj).of_idle (hidle hij hj)
  · intro j c hj
    rcases Tasks.of_replace hi hj with ⟨-, rfl⟩ | ⟨-, hj⟩
    · simp [ht]
    · exact h.saved j c hj
  · simp [hlookup]
  · refine ⟨call.settings, w.contents, ?_, hround _ _ hser, .inr ⟨i, ⟨call.settings,
      s.files.entries.lookup .temporary, .publishing⟩, ?_, ht, rfl⟩⟩
    · rw [hinodes, hholds.contents, hcomplete, List.take_length]
    · exact Tasks.replace_self hi _
  · intro j c q hj hq
    rcases Tasks.of_replace hi hj with ⟨-, rfl⟩ | ⟨-, hj⟩
    · cases ht.symm.trans hq
      exact ⟨Nat.lt_of_le_of_lt (Nat.zero_le p) hpt, Nat.le_refl _⟩
    · obtain ⟨hpos, hle⟩ := h.below j c q hj hq
      exact ⟨hpos, Nat.le_trans hle (Nat.le_of_lt hpt)⟩
  · intro u hu
    simp [hlookup] at hu
  · -- the file that moved is newer than all that were saved
    have hnewer : ∀ {j : CallId} {c : UpdateCall}, s.calls[j]? = some c →
        c.saved ≠ some w.inode := fun hj hq =>
      Nat.not_le_of_lt hpt (h.below _ _ _ hj hq).2
    intro j k c d q hj hk hc hd
    rcases Tasks.of_replace hi hj with ⟨rfl, rfl⟩ | ⟨-, hj⟩ <;>
      rcases Tasks.of_replace hi hk with ⟨rfl, rfl⟩ | ⟨-, hk⟩
    · rfl
    · cases ht.symm.trans hc
      exact absurd hd (hnewer hk)
    · cases ht.symm.trans hd
      exact absurd hc (hnewer hj)
    · exact h.once j k c d q hj hk hc hd

theorem FilesOk.step
    (hround : ∀ v bytes, env.serialize v = .ok bytes → env.deserialize bytes = .ok v)
    (h : s.FilesOk env initial p) (hok : s.Orderly action) (hs : s.step env action = some s') :
    ∃ p', s'.FilesOk env initial p' := by
  cases did_of_step hs with
  | update settings =>
      refine ⟨p, h.spawn rfl ?_ ?_⟩
      · rcases new_pc env settings with hpc | ⟨error, hpc⟩ <;> rw [hpc] <;>
          simp [UpdatePc.usesTemporary, UpdatePc.published]
      · rcases new_pc env settings with hpc | ⟨error, hpc⟩ <;> simp [UpdateCall.Writes, hpc]
  | fails _ _ hi hpc =>
      obtain ⟨-, hpub, hnot, -⟩ := UpdatePc.of_saving hpc
      refine ⟨p, h.stay rfl rfl hi ⟨rfl, rfl⟩ ?_ trivial (fun hu => by cases hu)⟩
      have herror : ∀ error, (UpdatePc.returned (.error error)).published = false := fun _ => rfl
      simp [herror, hpub, hnot]
  | dirReady hi hpc hser =>
      refine ⟨p, h.stay rfl rfl hi ⟨rfl, rfl⟩ ?_ hser (fun hu => by cases hu)⟩
      simp [hpc, UpdatePc.published]
  | @opened i call contents hi hpc =>
      have hwrites := h.writes i call hi
      simp only [UpdateCall.Writes, hpc] at hwrites
      have hne : SettingsFile.settings ≠ .temporary := by simp
      have hnamed : (s.files.create .temporary).1.entries.lookup .settings = some p :=
        (lookup_create_of_ne hne).trans h.named
      refine ⟨p, h.move rfl hi ⟨rfl, rfl⟩ (by simp [hpc, UpdatePc.published])
        ⟨hwrites, Nat.zero_le _, holds_create s.files .temporary contents⟩ ?_ ?_ ?_ ?_⟩
      · intro j c _ hj
        have hidle := hok c (List.mem_of_getElem? hj)
        exact ⟨(h.writes j c hj).of_idle hidle, fun _ => hidle⟩
      · exact hnamed
      · rw [← read_eq hnamed, read_create_of_ne hne, read_eq h.named]
      · intro t ht
        cases (lookup_create s.files .temporary).symm.trans ht
        rcases create_inode s.files .temporary with hold | hnew
        · exact h.above _ hold
        · rw [hnew]
          exact s.files.live _ _ h.named
  | @write i call w n hi hpc hn =>
      have hwrites := h.writes i call hi
      simp only [UpdateCall.Writes, hpc] at hwrites
      obtain ⟨hser, hle, hholds⟩ := hwrites
      refine ⟨p, h.move rfl hi ⟨rfl, rfl⟩ (by simp [hpc, UpdatePc.published])
        ⟨hser, hn, hholds.write hle⟩ ?_ h.named ?_ h.above⟩
      · intro j c hij hj
        have hidle := h.others_idle hi (by rw [hpc]; rfl) hij hj
        exact ⟨(h.writes j c hj).of_idle hidle, fun _ => hidle⟩
      · have hread : (s.files.write w.inode w.written (w.next n)).read .settings =
            s.files.read .settings := hholds.read_write (by simp)
        have hnamed : (s.files.write w.inode w.written (w.next n)).entries.lookup .settings =
            some p := h.named
        rwa [read_eq h.named, read_eq hnamed] at hread
  | synced hi hpc hw =>
      have hwrites := h.writes _ _ hi
      simp only [UpdateCall.Writes, hpc] at hwrites
      refine ⟨p, h.stay rfl rfl hi ⟨rfl, rfl⟩ ?_ ⟨hwrites.1, hw, hwrites.2.2⟩ (fun _ => ?_)⟩
      · simp [hpc, UpdatePc.published]
      · rw [hpc]
        rfl
  | replaced hi hpc hr => exact ⟨_, h.replaced hround hi hpc hr⟩
  | unchanged hi hpc | published hi hpc | stop hi hpc | read hi hpc | reset hi hpc | launch hi hpc
  | reportSettings hi hpc | report hi hpc =>
      refine ⟨p, h.stay rfl rfl hi ⟨rfl, rfl⟩ ?_ trivial (fun hu => by cases hu)⟩
      simp [hpc, UpdatePc.published]
  | ended => exact ⟨p, h.alone, h.writes, h.saved, h.named, h.place, h.below, h.above, h.once⟩

end Files

/-! ### The memory -/

/-- **The memory has the settings of the call that renamed last**, in the inode `m`, among those
that have published theirs. -/
structure MemoryOk (initial : ReverseProxySettings) (s : Controller) (m : InodeId) : Prop where
  wrote : s.Wrote initial m s.settings
  latest : ∀ (i : CallId) (c : UpdateCall) (q : InodeId), s.calls[i]? = some c →
    c.pc.published = true → c.saved = some q → q ≤ m
  published : m = 0 ∨ ∃ (i : CallId) (c : UpdateCall), s.calls[i]? = some c ∧
    c.pc.published = true ∧ c.saved = some m

section Memory

variable {initial : ReverseProxySettings} {p m : InodeId}

theorem memoryOk_start (contents : List UInt8) (initial : ReverseProxySettings) :
    (start contents initial).MemoryOk initial 0 :=
  ⟨.inl ⟨rfl, rfl⟩, by simp [start], .inl rfl⟩

/-- A call moves on, and none is published by it. -/
theorem MemoryOk.move (h : s.MemoryOk initial m) (hcalls : s'.calls = s.calls.set i call')
    (hsettings : s'.settings = s.settings) (hi : s.calls[i]? = some call)
    (hsame : call'.settings = call.settings)
    (hsaved : ∀ q, call.saved = some q → call'.saved = some q)
    (hpub : call.pc.published = true → call'.pc.published = true)
    (hlatest : ∀ q, call'.pc.published = true → call'.saved = some q → q ≤ m) :
    s'.MemoryOk initial m := by
  refine ⟨hsettings ▸ h.wrote.replace hi hcalls hsame hsaved, ?_,
    h.published.imp_right fun hcall => ?_⟩
  · intro j c q hj hc hq
    rw [hcalls] at hj
    rcases Tasks.of_replace hi hj with ⟨-, rfl⟩ | ⟨-, hj⟩
    · exact hlatest q hc hq
    · exact h.latest j c q hj hc hq
  · rw [hcalls]
    exact Tasks.exists_replace hi (fun hc => ⟨hpub hc.1, hsaved m hc.2⟩) hcall

/-- A call publishes its settings, and no call that renamed after it has done so. -/
theorem memoryOk_publish {a : InodeId} (hi : s.calls[i]? = some call)
    (ha : call.saved = some a) (hcalls : s'.calls = s.calls.set i call')
    (hsame : call'.settings = call.settings) (hsaved : call'.saved = call.saved)
    (hpub : call'.pc.published = true) (hsettings : s'.settings = call.settings)
    (hlast : ∀ (j : CallId) (c : UpdateCall) (q : InodeId), s.calls[j]? = some c →
      c.pc.published = true → c.saved = some q → q ≤ a) : s'.MemoryOk initial a := by
  have hself : s'.calls[i]? = some call' := hcalls ▸ Tasks.replace_self hi call'
  refine ⟨.inr ⟨i, call', hself, hsaved.trans ha, hsame.trans hsettings.symm⟩, ?_,
    .inr ⟨i, call', hself, hpub, hsaved.trans ha⟩⟩
  intro j c q hj hc hq
  rw [hcalls] at hj
  rcases Tasks.of_replace hi hj with ⟨-, rfl⟩ | ⟨-, hj⟩
  · rw [hsaved, ha] at hq
    cases hq
    exact Nat.le_refl _
  · exact hlast j c q hj hc hq

theorem MemoryOk.step (hfiles : s.FilesOk env initial p) (h : s.MemoryOk initial m)
    (hok : s.Orderly action) (hs : s.step env action = some s') :
    ∃ m', s'.MemoryOk initial m' := by
  cases did_of_step hs with
  | update settings =>
      refine ⟨m, h.wrote.imp_right (Tasks.exists_spawn _), ?_,
        h.published.imp_right (Tasks.exists_spawn _)⟩
      intro j c q hj hc hq
      rcases Tasks.of_spawn hj with rfl | hj
      · cases hq
      · exact h.latest j c q hj hc hq
  | fails _ _ hi hpc =>
      refine ⟨m, h.move rfl rfl hi rfl (fun _ hq => hq) (fun hp => ?_) (fun _ hp => by cases hp)⟩
      cases (UpdatePc.of_saving hpc).2.1.symm.trans hp
  | dirReady hi hpc | opened hi hpc | write hi hpc | synced hi hpc =>
      refine ⟨m, h.move rfl rfl hi rfl (fun _ hq => hq) (fun hp => ?_) (fun _ hp => by cases hp)⟩
      rw [hpc] at hp
      cases hp
  | replaced hi hpc =>
      -- the call had saved nothing before
      have hnone := (not_congr (hfiles.saved _ _ hi)).mpr (by simp [hpc, UpdatePc.published])
      refine ⟨m, h.move rfl rfl hi rfl (fun q hq => ?_) (fun hp => ?_) (fun _ hp => by cases hp)⟩
      · exact absurd (by rw [hq]; simp) hnone
      · rw [hpc] at hp
        cases hp
  | @unchanged i call hi hpc heq =>
      obtain ⟨a, ha⟩ := Option.ne_none_iff_exists'.mp ((hfiles.saved i call hi).mpr (.inl hpc))
      by_cases ham : a ≤ m
      · refine ⟨m, h.move rfl rfl hi rfl (fun _ hq => hq) (fun _ => rfl) ?_⟩
        intro q _ hq
        cases ha.symm.trans hq
        exact ham
      · refine ⟨a, memoryOk_publish hi ha rfl rfl rfl rfl heq ?_⟩
        intro j c q hj hc hq
        exact Nat.le_trans (h.latest j c q hj hc hq) (Nat.le_of_not_le ham)
  | @published i call hi hpc hne =>
      obtain ⟨a, ha⟩ := Option.ne_none_iff_exists'.mp ((hfiles.saved i call hi).mpr (.inl hpc))
      have hlast := (hok call hi).resolve_left hne
      refine ⟨a, memoryOk_publish hi ha rfl rfl rfl rfl rfl ?_⟩
      intro j c q hj hc hq
      exact hlast c (List.mem_of_getElem? hj) hc q hq a ha
  | stop hi hpc | read hi hpc | reset hi hpc | launch hi hpc | reportSettings hi hpc
  | report hi hpc =>
      refine ⟨m, h.move rfl rfl hi rfl (fun _ hq => hq) (fun _ => rfl) ?_⟩
      intro q _ hq
      exact h.latest _ _ q hi (by rw [hpc]; rfl) hq
  | ended => exact ⟨m, h.wrote, h.latest, h.published⟩

end Memory

/-! ### Agreement -/

section Agreement

variable {initial : ReverseProxySettings} {p m : InodeId}

/-- The settings of a file are those of one call. -/
theorem FilesOk.wrote_unique {q : InodeId} {v v' : ReverseProxySettings}
    (h : s.FilesOk env initial p) (hv : s.Wrote initial q v) (hv' : s.Wrote initial q v') :
    v = v' := by
  rcases hv with ⟨hq, rfl⟩ | ⟨i, c, hi, hc, rfl⟩ <;>
    rcases hv' with ⟨hq', rfl⟩ | ⟨j, d, hj, hd, rfl⟩
  · rfl
  · exact absurd (h.below j d q hj hd).1 (by rw [hq]; exact Nat.lt_irrefl _)
  · exact absurd (h.below i c q hi hc).1 (by rw [hq']; exact Nat.lt_irrefl _)
  · have hij := h.once i j c d q hi hj hc hd
    subst hij
    cases hi.symm.trans hj
    rfl

/-- Once all calls have returned, the call that renamed last has published its settings. -/
theorem FilesOk.eq_of_returned (h : s.FilesOk env initial p) (hm : s.MemoryOk initial m)
    (hreturned : s.AllReturned) : p = m := by
  refine Nat.le_antisymm ?_ ?_
  · obtain ⟨v, -, -, -, hwrote⟩ := h.place
    rcases hwrote with ⟨rfl, -⟩ | ⟨i, c, hi, hc, -⟩
    · exact Nat.zero_le _
    · refine hm.latest i c p hi ?_ hc
      obtain ⟨result, hresult⟩ := hreturned i c hi
      have hstage := (h.saved i c hi).mp (by rw [hc]; simp)
      exact hstage.resolve_left (by simp [hresult])
  · rcases hm.published with rfl | ⟨i, c, hi, -, hc⟩
    · exact Nat.zero_le _
    · exact (h.below i c m hi hc).2

/-- The settings of a call that has not failed are accepted. -/
def Accepted (env : Env) (s : Controller) : Prop :=
  ∀ (i : CallId) (c : UpdateCall), s.calls[i]? = some c →
    c.settings.validate env.parseUrl = .ok () ∨ ∃ error, c.pc = .returned (.error error)

theorem Accepted.replace (h : s.Accepted env) (hi : s.calls[i]? = some call)
    (hpc : ∀ result, call.pc ≠ .returned result) (hcalls : s'.calls = s.calls.set i call')
    (hsame : call'.settings = call.settings) : s'.Accepted env := by
  intro j c hj
  rw [hcalls] at hj
  rcases Tasks.of_replace hi hj with ⟨-, rfl⟩ | ⟨-, hj⟩
  · rw [hsame]
    refine .inl ((h i call hi).resolve_right ?_)
    rintro ⟨error, herror⟩
    exact hpc _ herror
  · exact h j c hj

theorem Accepted.step (h : s.Accepted env) (hs : s.step env action = some s') :
    s'.Accepted env := by
  cases did_of_step hs with
  | update settings =>
      intro j c hj
      rcases Tasks.of_spawn hj with rfl | hj
      · unfold UpdateCall.new
        cases hvalid : settings.validate env.parseUrl with
        | ok _ => exact .inl rfl
        | error error => exact .inr ⟨error, rfl⟩
      · exact h j c hj
  | fails _ _ hi hpc =>
      refine h.replace hi (fun result hr => ?_) rfl rfl
      rw [hr] at hpc
      cases hpc
  | dirReady hi hpc | opened hi hpc | write hi hpc | synced hi hpc | replaced hi hpc
  | unchanged hi hpc | published hi hpc | stop hi hpc | read hi hpc | reset hi hpc | launch hi hpc
  | reportSettings hi hpc | report hi hpc => exact h.replace hi (by simp [hpc]) rfl rfl
  | ended => exact h

/-- The call has put its file in place. -/
def Safe (s : Controller) (i : CallId) : Prop :=
  ∃ call, s.calls[i]? = some call ∧ (call.pc = .publishing ∨ call.pc.published = true)

theorem Safe.not_failed (h : s.Safe i) (hi : s.calls[i]? = some call) (error : AnyhowError) :
    call.pc ≠ .returned (.error error) := by
  obtain ⟨c, hc, hsafe⟩ := h
  cases hi.symm.trans hc
  intro herror
  rw [herror] at hsafe
  rcases hsafe with hsafe | hsafe <;> cases hsafe

theorem Safe.replace {j : CallId} {c c' : UpdateCall} (h : s.Safe i) (hj : s.calls[j]? = some c)
    (hcalls : s'.calls = s.calls.set j c')
    (hsafe : c.pc = .publishing ∨ c.pc.published = true →
      c'.pc = .publishing ∨ c'.pc.published = true) : s'.Safe i := by
  obtain ⟨call, hi, hcall⟩ := h
  by_cases hji : j = i
  · subst hji
    cases hj.symm.trans hi
    exact ⟨c', hcalls ▸ Tasks.replace_self hj c', hsafe hcall⟩
  · exact ⟨call, hcalls ▸ (List.getElem?_set_ne hji).trans hi, hcall⟩

/-- **After its rename a call does not fail.** -/
theorem Safe.step (h : s.Safe i) (hs : s.step env action = some s') : s'.Safe i := by
  cases did_of_step hs with
  | update =>
      obtain ⟨call, hi, hcall⟩ := h
      exact ⟨call, Tasks.spawn_old hi _, hcall⟩
  | fails _ _ hj hpc =>
      obtain ⟨-, hpub, hnot, -⟩ := UpdatePc.of_saving hpc
      refine h.replace hj rfl ?_
      rintro (hc | hc)
      · exact absurd hc hnot
      · cases hpub.symm.trans hc
  | dirReady hj hpc | opened hj hpc | write hj hpc | synced hj hpc =>
      refine h.replace hj rfl ?_
      rw [hpc]
      rintro (hc | hc) <;> cases hc
  | replaced hj => exact h.replace hj rfl fun _ => .inl rfl
  | unchanged hj | published hj | stop hj | read hj | reset hj | launch hj | reportSettings hj
  | report hj => exact h.replace hj rfl fun _ => .inr rfl
  | ended => exact h

/-- What a call changes in the settings file, the memory and the task slot, it changes after its
rename. -/
theorem FilesOk.safe_of_change (h : s.FilesOk env initial p) (hok : s.Orderly action)
    (hs : s.step env action = some s') (ha : action.call = some i)
    (hchange : s'.files.read .settings ≠ s.files.read .settings ∨ s'.settings ≠ s.settings ∨
      s'.task ≠ s.task) : s'.Safe i := by
  -- steps that change none of the three
  have hnone : s'.files.read .settings = s.files.read .settings → s'.settings = s.settings →
      s'.task = s.task → s'.Safe i := by
    intro hfile hmemory htask
    rcases hchange with hne | hne | hne
    · exact absurd hfile hne
    · exact absurd hmemory hne
    · exact absurd htask hne
  cases did_of_step hs with
  | update | ended => cases ha
  | fails | dirReady | synced | unchanged | read | reset | reportSettings | report =>
      exact hnone rfl rfl rfl
  | opened hj hpc => exact hnone (read_create_of_ne (by simp)) rfl rfl
  | write hj hpc =>
      have hwrites := h.writes _ _ hj
      simp only [UpdateCall.Writes, hpc] at hwrites
      exact hnone (hwrites.2.2.read_write (by simp)) rfl rfl
  | replaced hj =>
      cases ha
      exact ⟨_, Tasks.replace_self hj _, .inl rfl⟩
  | published hj | stop hj | launch hj =>
      cases ha
      exact ⟨_, Tasks.replace_self hj _, .inr rfl⟩

end Agreement

/-- **The settings agree.**  In every run in which no call opens the temporary file while another
uses it, and none publishes its settings after a call that renamed later has published others:
once all calls have returned, the settings file, the memory and the task have the same settings, and
these are accepted;
and a call that changed one of the three never returns an error. -/
theorem settings_agree {env : Env}
    (hround : ∀ v bytes, env.serialize v = .ok bytes → env.deserialize bytes = .ok v)
    {contents : List UInt8} {initial : ReverseProxySettings}
    (hload : env.deserialize contents = .ok initial)
    (hvalid : initial.validate env.parseUrl = .ok ()) {s : Controller}
    (h : Reaches (step env) Orderly (start contents initial) s) :
    (s.AllReturned → ∃ bytes, s.files.read .settings = some bytes ∧
      env.deserialize bytes = .ok s.settings ∧ s.settings.validate env.parseUrl = .ok () ∧
      s.task = s.settings.launched) ∧
    ∀ action s' i, s.Orderly action → s.step env action = some s' → action.call = some i →
      s'.files.read .settings ≠ s.files.read .settings ∨ s'.settings ≠ s.settings ∨
        s'.task ≠ s.task →
      ∀ s'' call error, Reaches (step env) (fun _ _ => True) s' s'' →
        s''.calls[i]? = some call → call.pc ≠ .returned (.error error) := by
  obtain ⟨⟨p, hfiles⟩, ⟨m, hmemory⟩, htask, haccepted⟩ : (∃ p, s.FilesOk env initial p) ∧
      (∃ m, s.MemoryOk initial m) ∧ s.TaskOk ∧ s.Accepted env := by
    refine h.invariant (I := fun s => (∃ p, s.FilesOk env initial p) ∧
      (∃ m, s.MemoryOk initial m) ∧ s.TaskOk ∧ s.Accepted env)
      ⟨⟨0, filesOk_start hload⟩, ⟨0, memoryOk_start contents initial⟩,
        taskOk_start contents initial, fun _ _ hi => by simp [start] at hi⟩ ?_
    rintro s a s' ⟨⟨p, hfiles⟩, ⟨m, hmemory⟩, htask, haccepted⟩ hok hs
    exact ⟨hfiles.step hround hok hs, MemoryOk.step hfiles hmemory hok hs, htask.step hs,
      haccepted.step hs⟩
  refine ⟨fun hreturned => ?_, fun action s' i hok hs ha hchange s'' call error hs'' hi => ?_⟩
  · obtain ⟨v, bytes, hbytes, hparse, hwrote⟩ := hfiles.place
    have hpm := hfiles.eq_of_returned hmemory hreturned
    cases hfiles.wrote_unique hwrote (hpm ▸ hmemory.wrote)
    refine ⟨bytes, (read_eq hfiles.named).trans hbytes, hparse, ?_, ?_⟩
    · rcases hwrote with ⟨-, hinitial⟩ | ⟨i, c, hi, hq, hc⟩
      · rw [hinitial]
        exact hvalid
      · rw [← hc]
        refine (haccepted i c hi).resolve_right ?_
        rintro ⟨error, herror⟩
        have hstage := (hfiles.saved i c hi).mp (by rw [hq]; simp)
        rw [herror] at hstage
        rcases hstage with hstage | hstage <;> cases hstage
    · -- nobody holds the lock of the slot, and nobody waits for it
      have hlock : s.lock = none := by
        refine Option.eq_none_iff_forall_not_mem.mpr fun i hi => ?_
        obtain ⟨c, hc, hr⟩ := htask.holder i hi
        obtain ⟨result, hresult⟩ := hreturned i c hc
        rw [hresult] at hr
        cases hr
      refine (htask.task hlock).resolve_right ?_
      rintro ⟨j, c, hj, hpc⟩
      obtain ⟨result, hresult⟩ := hreturned j c hj
      cases hpc.symm.trans hresult
  · have hsafe := hfiles.safe_of_change hok hs ha hchange
    have hlater : s''.Safe i :=
      hs''.invariant (I := fun u => u.Safe i) hsafe fun _ _ _ hu _ hstep => hu.step hstep
    exact hlater.not_failed hi error

/-! ### Two calls -/

/-- A gateway with the given public port. -/
def gatewayOn (port : UInt16) : ReverseProxySettings :=
  { ReverseProxySettings.default "0123456789abcdef" with
    enabled := true, role := .gateway, publicPort := port }

/-- The file of such a gateway. -/
def portText (port : UInt16) : List UInt8 :=
  utf8 (TomlText.document [TomlText.numberLine "public_port" port.toNat])

/-- The port in a file. -/
def readPort (bytes : List UInt8) : Option UInt16 := do
  let text ← ofUtf8 bytes
  match TomlText.documentLines text with
  | [line] => (TomlText.readNumber "public_port" line).map UInt16.ofNat
  | _ => none

theorem readPort_portText (port : UInt16) : readPort (portText port) = some port := by
  have hlines : ∀ line ∈ [TomlText.numberLine "public_port" port.toNat], '\n' ∉ line := by
    simpa using TomlText.newline_not_mem_numberLine (by decide) port.toNat
  rw [readPort, portText, ofUtf8_utf8, Option.bind_eq_bind, Option.bind_some,
    TomlText.documentLines_document hlines]
  simp only [TomlText.readNumber_numberLine, Option.map_some, UInt16.ofNat_toNat]

/-- Files for gateways that differ in their public port. -/
def portFiles : Env where
  parseUrl := fun _ => .error "relative URL without a base"
  serialize := fun v =>
    if v = gatewayOn v.publicPort then .ok (portText v.publicPort)
    else .error "unsupported settings"
  deserialize := fun bytes =>
    match readPort bytes with
    | some port => .ok (gatewayOn port)
    | none => .error "missing field public_port"
  path := "reverse-proxy.toml"
  temporary := "reverse-proxy.tmp"
  parent := "."

theorem portFiles_round (v : ReverseProxySettings) (bytes : List UInt8)
    (h : portFiles.serialize v = .ok bytes) : portFiles.deserialize bytes = .ok v := by
  simp only [portFiles] at h
  split_ifs at h with hv
  cases h
  simp only [portFiles, readPort_portText]
  rw [← hv]

/-- The steps of a call from its first to its rename. -/
def saves (i : CallId) : List UpdateAction :=
  [.createDir i none, .openTemporary i none, .write i 16, .sync i none, .rename i none]

/-- The steps of a call that restarts the task. -/
def restarts (i : CallId) : List UpdateAction :=
  [.stop i, .read i, .reset i, .launch i, .reportSettings i, .report i]

/-- Two calls that save one after the other, and restart the task in the other order. -/
def oneAfterTheOther : List UpdateAction :=
  [.update (gatewayOn 2), .update (gatewayOn 3)] ++ saves 0 ++ [.publish 0] ++ saves 1 ++
    [.publish 1] ++ restarts 1 ++ restarts 0

theorem settings_agree_one_after_the_other : ∃ s,
    run (step portFiles) (start (portText 1) (gatewayOn 1)) oneAfterTheOther = some s ∧
    s.files.read .settings = some (portText 3) ∧ s.settings = gatewayOn 3 ∧
    s.task = (gatewayOn 3).launched ∧ s.AllReturned ∧
    ∃ bytes, s.files.read .settings = some bytes ∧
      portFiles.deserialize bytes = .ok s.settings ∧
      s.settings.validate portFiles.parseUrl = .ok () ∧ s.task = s.settings.launched := by
  have h : Reaches (step portFiles) Orderly (start (portText 1) (gatewayOn 1)) _ :=
    reaches_of_run oneAfterTheOther .refl rfl
  have hagree := settings_agree portFiles_round rfl rfl h
  refine ⟨_, rfl, rfl, rfl, rfl, ?_, hagree.1 ?_⟩
  · exact allReturned_of_calls
      [.ok ⟨gatewayOn 3, ⟨true, none⟩⟩, .ok ⟨gatewayOn 3, ⟨true, none⟩⟩] rfl
  · exact allReturned_of_calls
      [.ok ⟨gatewayOn 3, ⟨true, none⟩⟩, .ok ⟨gatewayOn 3, ⟨true, none⟩⟩] rfl

/-- Two calls that have the temporary file open at the same time. -/
def bothOpen : List UpdateAction :=
  [.update (gatewayOn 2), .update (gatewayOn 3), .createDir 0 none, .createDir 1 none,
    .openTemporary 0 none, .openTemporary 1 none, .write 0 16, .write 1 16, .sync 0 none,
    .sync 1 none, .rename 0 none, .rename 1 none, .publish 0] ++ restarts 0

/-- **The file has the settings of a call that failed, and the memory and the task have others.** -/
theorem settings_disagree : ∃ s,
    run (step portFiles) (start (portText 1) (gatewayOn 1)) bothOpen = some s ∧ s.AllReturned ∧
    s.files.read .settings = some (portText 3) ∧
    portFiles.deserialize (portText 3) = .ok (gatewayOn 3) ∧
    s.settings = gatewayOn 2 ∧ s.task = some (gatewayOn 2) ∧
    ∃ call error, s.calls[1]? = some call ∧ call.settings = gatewayOn 3 ∧
      call.pc = .returned (.error error) := by
  refine ⟨_, rfl, ?_, rfl, rfl, rfl, rfl, _, _, rfl, rfl, rfl⟩
  exact allReturned_of_calls [.ok ⟨gatewayOn 2, ⟨true, none⟩⟩,
    .error ["replace reverse proxy configuration reverse-proxy.toml",
      "No such file or directory (os error 2)"]] rfl

end Controller

end SingBoxMini.ReverseProxy
