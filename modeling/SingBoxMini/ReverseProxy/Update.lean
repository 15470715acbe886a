import SingBoxMini.ReverseProxy.Settings
import SingBoxMini.Support.Files
import SingBoxMini.Support.Runs

/-!
# Reverse proxy — Update

Any number of concurrent calls of `ReverseProxyController::update` (`reverse_proxy.rs`), as atomic
steps: `save` with the file operations it makes, the settings in memory, and `restart`.

* `save` takes no lock.  All calls use one temporary file; `write_all` is one or more writes.
* The settings in memory are compared and replaced under a lock, which is one step; `restart` holds
  the lock of the task slot from its start to its end.
* Any file operation can fail, with any error.

`toml` and `url` are parameters (`Env`).  A task is the settings it was started with.
-/

namespace SingBoxMini.ReverseProxy
open Files

/-- The crates, and how the paths are displayed. -/
structure Env where
  parseUrl : String → Except String String
  /-- `toml::to_string_pretty` -/
  serialize : ReverseProxySettings → Except String (List UInt8)
  /-- `toml::from_str` -/
  deserialize : List UInt8 → Except String ReverseProxySettings
  path : String
  temporary : String
  parent : String

/-- The files of the directory that matter. -/
inductive SettingsFile where
  | settings
  | temporary
deriving DecidableEq

/-- `RuntimeState`, without the time of the start. -/
structure RuntimeState where
  running : Bool
  lastError : Option String
deriving DecidableEq

/-- `ReverseProxyStatus`, without the uptime, the device's name and the connected nodes. -/
structure ReverseProxyStatus where
  settings : ReverseProxySettings
  runtime : RuntimeState
deriving DecidableEq

/-- Where a call of `update` is: before `create_dir_all`; before the temporary file is opened;
writing it; before it is renamed; before the settings are compared with those in memory; before
`task.lock()`; after the old task was aborted and the tracker cleared; with the settings it read;
after the runtime state was reset; before `status`, and with the settings read for it. -/
inductive UpdatePc where
  | creating
  | opening (contents : List UInt8)
  | writing (w : Writing)
  | replacing (w : Writing)
  | publishing
  | locking
  | stopping
  | starting (settings : ReverseProxySettings)
  | launching (settings : ReverseProxySettings)
  | reporting
  | reported (settings : ReverseProxySettings)
  | returned (result : Except AnyhowError ReverseProxyStatus)
deriving DecidableEq

/-- A call, with the settings it was given and the file it put in place. -/
structure UpdateCall where
  settings : ReverseProxySettings
  saved : Option InodeId
  pc : UpdatePc
deriving DecidableEq

/-- A call of `update`, by its position among all of them. -/
abbrev CallId := Nat

/-- `ReverseProxyController`, the directory and the calls; `lock` is that of the task slot. -/
structure Controller where
  files : Files SettingsFile
  settings : ReverseProxySettings
  runtime : RuntimeState
  task : Option ReverseProxySettings
  lock : Option CallId
  calls : List UpdateCall

/-- The steps; a file operation comes with the error it gives, if any. -/
inductive UpdateAction where
  /-- A new call. -/
  | update (settings : ReverseProxySettings)
  | createDir (i : CallId) (error : Option String)
  | openTemporary (i : CallId) (error : Option String)
  /-- The next `n` bytes are written. -/
  | write (i : CallId) (n : Nat)
  | writeError (i : CallId) (error : String)
  | sync (i : CallId) (error : Option String)
  | rename (i : CallId) (error : Option String)
  /-- The settings in memory are compared and replaced. -/
  | publish (i : CallId)
  /-- `restart` locks the slot, aborts the task and clears the tracker. -/
  | stop (i : CallId)
  /-- `restart` reads the settings. -/
  | read (i : CallId)
  /-- `restart` resets the runtime state. -/
  | reset (i : CallId)
  /-- `restart` spawns the new task, if there is to be one. -/
  | launch (i : CallId)
  | reportSettings (i : CallId)
  | report (i : CallId)
  /-- The task ends by itself. -/
  | ended (error : Option String)
deriving DecidableEq

/-- The call whose step it is. -/
def UpdateAction.call : UpdateAction → Option CallId
  | .update _ | .ended _ => none
  | .createDir i _ | .openTemporary i _ | .write i _ | .writeError i _ | .sync i _ | .rename i _
  | .publish i | .stop i | .read i | .reset i | .launch i | .reportSettings i | .report i => some i

/-- The settings the task is started with, if it is. -/
def ReverseProxySettings.launched (settings : ReverseProxySettings) :
    Option ReverseProxySettings :=
  if settings.enabled then some settings else none

/-- A new call.  The settings are validated in `update` and in `save`. -/
def UpdateCall.new (env : Env) (settings : ReverseProxySettings) : UpdateCall where
  settings := settings
  saved := none
  pc := match settings.validate env.parseUrl with
    | .ok () => .creating
    | .error error => .returned (.error error)

/-- The call has the temporary file open, or is about to rename it. -/
def UpdatePc.usesTemporary : UpdatePc → Bool
  | .writing _ | .replacing _ => true
  | _ => false

/-- The call is in `save`, where it can fail. -/
def UpdatePc.saving : UpdatePc → Bool
  | .creating | .opening _ | .writing _ | .replacing _ => true
  | _ => false

/-- The call has compared its settings with those in memory. -/
def UpdatePc.published : UpdatePc → Bool
  | .locking | .stopping | .starting _ | .launching _ | .reporting | .reported _
  | .returned (.ok _) => true
  | _ => false

namespace Controller

/-- A controller after `new`: its file was loaded, and the task was started. -/
def start (contents : List UInt8) (settings : ReverseProxySettings) : Controller where
  files := {
    entries := (∅ : HashMap SettingsFile InodeId).insert .settings 0
    inodes := [contents]
    live := by
      intro name i hi
      cases name with
      | settings =>
          rw [AList.lookup_insert] at hi
          cases hi
          exact Nat.zero_lt_one
      | temporary =>
          rw [AList.lookup_insert_ne (by simp)] at hi
          simp at hi
    oneName := by
      intro name name' i hi hi'
      have honly : ∀ name, ((∅ : HashMap SettingsFile InodeId).insert .settings 0).lookup name =
          some i → name = .settings := by
        intro name hname
        cases name with
        | settings => rfl
        | temporary =>
            rw [AList.lookup_insert_ne (by simp)] at hname
            simp at hname
      rw [honly name hi, honly name' hi'] }
  settings := settings
  runtime := ⟨settings.enabled, none⟩
  task := settings.launched
  lock := none
  calls := []

/-- A call moves on. -/
def toCall (s : Controller) (i : CallId) (call : UpdateCall) (pc : UpdatePc) : Controller :=
  { s with calls := s.calls.set i { call with pc } }

/-- A call returns an error. -/
def fails (s : Controller) (i : CallId) (call : UpdateCall) (error : AnyhowError) : Controller :=
  s.toCall i call (.returned (.error error))

/-- A file operation gives an error, or the call goes on. -/
def orFail (s : Controller) (i : CallId) (call : UpdateCall) (context : List String)
    (error : Option String) (next : Controller) : Controller :=
  match error with
  | some error => s.fails i call (context ++ [error])
  | none => next

/-- The temporary file takes the place of the settings file. -/
def replace (env : Env) (s : Controller) (i : CallId) (call : UpdateCall) : Controller :=
  match s.files.rename .temporary .settings with
  | some files => { s with
      files
      calls := s.calls.set i
        { call with saved := s.files.entries.lookup .temporary, pc := .publishing } }
  | none => s.fails i call ["replace reverse proxy configuration " ++ env.path,
      "No such file or directory (os error 2)"]

/-- The step an action makes, if it is enabled. -/
def step (env : Env) (s : Controller) : UpdateAction → Option Controller
  | .update settings => some { s with calls := s.calls ++ [.new env settings] }
  | .createDir i error =>
    match s.calls[i]? with
    | some call =>
      match call.pc with
      | .creating => some (s.orFail i call ["create reverse proxy directory " ++ env.parent] error
          (match env.serialize call.settings with
            | .ok contents => s.toCall i call (.opening contents)
            | .error error => s.fails i call ["serialize reverse proxy settings", error]))
      | _ => none
    | none => none
  | .openTemporary i error =>
    match s.calls[i]? with
    | some call =>
      match call.pc with
      | .opening contents =>
        let opened := s.files.create .temporary
        some (s.orFail i call ["write reverse proxy configuration " ++ env.temporary] error
          { s.toCall i call (.writing ⟨opened.2, contents, 0⟩) with files := opened.1 })
      | _ => none
    | none => none
  | .write i n =>
    match s.calls[i]? with
    | some call =>
      match call.pc with
      | .writing w =>
        if 0 < n ∧ w.written + n ≤ w.contents.length then
          some { s.toCall i call (.writing { w with written := w.written + n }) with
            files := s.files.write w.inode w.written (w.next n) }
        else none
      | _ => none
    | none => none
  | .writeError i error =>
    match s.calls[i]? with
    | some call =>
      match call.pc with
      | .writing w => if w.written < w.contents.length then some (s.fails i call [error]) else none
      | _ => none
    | none => none
  | .sync i error =>
    match s.calls[i]? with
    | some call =>
      match call.pc with
      | .writing w =>
        if w.written = w.contents.length then
          some (s.orFail i call [] error (s.toCall i call (.replacing w)))
        else none
      | _ => none
    | none => none
  | .rename i error =>
    match s.calls[i]? with
    | some call =>
      match call.pc with
      | .replacing _ => some (s.orFail i call ["replace reverse proxy configuration " ++ env.path]
          error (s.replace env i call))
      | _ => none
    | none => none
  | .publish i =>
    match s.calls[i]? with
    | some call =>
      if call.pc = .publishing then
        if s.settings = call.settings then some (s.toCall i call .reporting)
        else some { s.toCall i call .locking with settings := call.settings }
      else none
    | none => none
  | .stop i =>
    match s.calls[i]? with
    | some call =>
      if call.pc = .locking ∧ s.lock = none then
        some { s.toCall i call .stopping with task := none, lock := some i }
      else none
    | none => none
  | .read i =>
    match s.calls[i]? with
    | some call =>
      if call.pc = .stopping then some (s.toCall i call (.starting s.settings)) else none
    | none => none
  | .reset i =>
    match s.calls[i]? with
    | some call =>
      match call.pc with
      | .starting settings =>
        some { s.toCall i call (.launching settings) with runtime := ⟨false, none⟩ }
      | _ => none
    | none => none
  | .launch i =>
    match s.calls[i]? with
    | some call =>
      match call.pc with
      | .launching settings => some { s.toCall i call .reporting with
          runtime := if settings.enabled then ⟨true, none⟩ else s.runtime
          task := settings.launched
          lock := none }
      | _ => none
    | none => none
  | .reportSettings i =>
    match s.calls[i]? with
    | some call =>
      if call.pc = .reporting then some (s.toCall i call (.reported s.settings)) else none
    | none => none
  | .report i =>
    match s.calls[i]? with
    | some call =>
      match call.pc with
      | .reported settings => some (s.toCall i call (.returned (.ok ⟨settings, s.runtime⟩)))
      | _ => none
    | none => none
  | .ended error =>
    if s.task.isSome ∧ s.runtime.running then some { s with runtime := ⟨false, error⟩ } else none

/-! ### What a step can do -/

/-- **The steps, one by one**, with their guards. -/
inductive Did (env : Env) (s : Controller) : UpdateAction → Controller → Prop where
  | update (settings : ReverseProxySettings) :
      Did env s (.update settings) { s with calls := s.calls ++ [.new env settings] }
  | fails {action : UpdateAction} {i : CallId} {call : UpdateCall} (error : AnyhowError)
      (ha : action.call = some i) (hi : s.calls[i]? = some call) (hpc : call.pc.saving = true) :
      Did env s action (s.fails i call error)
  | dirReady {i : CallId} {call : UpdateCall} {contents : List UInt8} (hi : s.calls[i]? = some call)
      (hpc : call.pc = .creating) (hser : env.serialize call.settings = .ok contents) :
      Did env s (.createDir i none) (s.toCall i call (.opening contents))
  | opened {i : CallId} {call : UpdateCall} {contents : List UInt8} (hi : s.calls[i]? = some call)
      (hpc : call.pc = .opening contents) : Did env s (.openTemporary i none)
        { s.toCall i call (.writing ⟨(s.files.create .temporary).2, contents, 0⟩) with
          files := (s.files.create .temporary).1 }
  | write {i : CallId} {call : UpdateCall} {w : Writing} {n : Nat} (hi : s.calls[i]? = some call)
      (hpc : call.pc = .writing w) (hn : w.written + n ≤ w.contents.length) :
      Did env s (.write i n)
        { s.toCall i call (.writing { w with written := w.written + n }) with
          files := s.files.write w.inode w.written (w.next n) }
  | synced {i : CallId} {call : UpdateCall} {w : Writing} (hi : s.calls[i]? = some call)
      (hpc : call.pc = .writing w) (hw : w.written = w.contents.length) :
      Did env s (.sync i none) (s.toCall i call (.replacing w))
  | replaced {i : CallId} {call : UpdateCall} {w : Writing} {files : Files SettingsFile}
      (hi : s.calls[i]? = some call) (hpc : call.pc = .replacing w)
      (hr : s.files.rename .temporary .settings = some files) : Did env s (.rename i none) { s with
        files
        calls := s.calls.set i
          { call with saved := s.files.entries.lookup .temporary, pc := .publishing } }
  | unchanged {i : CallId} {call : UpdateCall} (hi : s.calls[i]? = some call)
      (hpc : call.pc = .publishing) (heq : s.settings = call.settings) :
      Did env s (.publish i) (s.toCall i call .reporting)
  | published {i : CallId} {call : UpdateCall} (hi : s.calls[i]? = some call)
      (hpc : call.pc = .publishing) (hne : s.settings ≠ call.settings) :
      Did env s (.publish i) { s.toCall i call .locking with settings := call.settings }
  | stop {i : CallId} {call : UpdateCall} (hi : s.calls[i]? = some call) (hpc : call.pc = .locking)
      (hlock : s.lock = none) :
      Did env s (.stop i) { s.toCall i call .stopping with task := none, lock := some i }
  | read {i : CallId} {call : UpdateCall} (hi : s.calls[i]? = some call)
      (hpc : call.pc = .stopping) : Did env s (.read i) (s.toCall i call (.starting s.settings))
  | reset {i : CallId} {call : UpdateCall} {settings : ReverseProxySettings}
      (hi : s.calls[i]? = some call) (hpc : call.pc = .starting settings) : Did env s (.reset i)
        { s.toCall i call (.launching settings) with runtime := ⟨false, none⟩ }
  | launch {i : CallId} {call : UpdateCall} {settings : ReverseProxySettings}
      (hi : s.calls[i]? = some call) (hpc : call.pc = .launching settings) :
      Did env s (.launch i) { s.toCall i call .reporting with
        runtime := if settings.enabled then ⟨true, none⟩ else s.runtime
        task := settings.launched
        lock := none }
  | reportSettings {i : CallId} {call : UpdateCall} (hi : s.calls[i]? = some call)
      (hpc : call.pc = .reporting) :
      Did env s (.reportSettings i) (s.toCall i call (.reported s.settings))
  | report {i : CallId} {call : UpdateCall} {settings : ReverseProxySettings}
      (hi : s.calls[i]? = some call) (hpc : call.pc = .reported settings) :
      Did env s (.report i) (s.toCall i call (.returned (.ok ⟨settings, s.runtime⟩)))
  | ended (error : Option String) : Did env s (.ended error) { s with runtime := ⟨false, error⟩ }

theorem did_of_file {env : Env} {s s' : Controller} {action : UpdateAction} {i : CallId}
    {call : UpdateCall} {context : List String} {error : Option String} {next : Controller}
    (ha : action.call = some i) (hi : s.calls[i]? = some call) (hpc : call.pc.saving = true)
    (h : s.orFail i call context error next = s') (hnext : error = none → Did env s action next) :
    Did env s action s' := by
  cases error with
  | some error =>
      rw [← h]
      exact .fails _ ha hi hpc
  | none =>
      rw [← h]
      exact hnext rfl

theorem did_of_step {env : Env} {s s' : Controller} {action : UpdateAction}
    (h : s.step env action = some s') : Did env s action s' := by
  cases action with
  | update settings =>
      cases h
      exact .update settings
  | createDir i error =>
      simp only [step] at h
      split at h
      · rename_i call hi
        split at h
        · rename_i hpc
          refine did_of_file rfl hi (by simp [hpc, UpdatePc.saving]) (Option.some.inj h) ?_
          rintro rfl
          split
          · rename_i hser
            exact .dirReady hi hpc hser
          · exact .fails _ rfl hi (by simp [hpc, UpdatePc.saving])
        · cases h
      · cases h
  | openTemporary i error =>
      simp only [step] at h
      split at h
      · rename_i call hi
        split at h
        · rename_i contents hpc
          refine did_of_file rfl hi (by simp [hpc, UpdatePc.saving]) (Option.some.inj h) ?_
          rintro rfl
          exact .opened hi hpc
        · cases h
      · cases h
  | write i n =>
      simp only [step] at h
      split at h
      · rename_i call hi
        split at h
        · rename_i w hpc
          obtain ⟨hn, h⟩ := Option.ite_none_right_eq_some.mp h
          cases h
          exact .write hi hpc hn.2
        · cases h
      · cases h
  | writeError i error =>
      simp only [step] at h
      split at h
      · rename_i call hi
        split at h
        · rename_i w hpc
          obtain ⟨-, h⟩ := Option.ite_none_right_eq_some.mp h
          cases h
          exact .fails _ rfl hi (by simp [hpc, UpdatePc.saving])
        · cases h
      · cases h
  | sync i error =>
      simp only [step] at h
      split at h
      · rename_i call hi
        split at h
        · rename_i w hpc
          obtain ⟨hw, h⟩ := Option.ite_none_right_eq_some.mp h
          refine did_of_file rfl hi (by simp [hpc, UpdatePc.saving]) (Option.some.inj h) ?_
          rintro rfl
          exact .synced hi hpc hw
        · cases h
      · cases h
  | rename i error =>
      simp only [step] at h
      split at h
      · rename_i call hi
        split at h
        · rename_i w hpc
          refine did_of_file rfl hi (by simp [hpc, UpdatePc.saving]) (Option.some.inj h) ?_
          rintro rfl
          unfold replace
          split
          · rename_i files hr
            exact .replaced hi hpc hr
          · exact .fails _ rfl hi (by simp [hpc, UpdatePc.saving])
        · cases h
      · cases h
  | publish i =>
      simp only [step] at h
      split at h
      · rename_i call hi
        obtain ⟨hpc, h⟩ := Option.ite_none_right_eq_some.mp h
        split_ifs at h with heq
        · cases h
          exact .unchanged hi hpc heq
        · cases h
          exact .published hi hpc heq
      · cases h
  | stop i =>
      simp only [step] at h
      split at h
      · rename_i call hi
        obtain ⟨⟨hpc, hlock⟩, h⟩ := Option.ite_none_right_eq_some.mp h
        cases h
        exact .stop hi hpc hlock
      · cases h
  | read i =>
      simp only [step] at h
      split at h
      · rename_i call hi
        obtain ⟨hpc, h⟩ := Option.ite_none_right_eq_some.mp h
        cases h
        exact .read hi hpc
      · cases h
  | reset i =>
      simp only [step] at h
      split at h
      · rename_i call hi
        split at h
        · rename_i settings hpc
          cases h
          exact .reset hi hpc
        · cases h
      · cases h
  | launch i =>
      simp only [step] at h
      split at h
      · rename_i call hi
        split at h
        · rename_i settings hpc
          cases h
          exact .launch hi hpc
        · cases h
      · cases h
  | reportSettings i =>
      simp only [step] at h
      split at h
      · rename_i call hi
        obtain ⟨hpc, h⟩ := Option.ite_none_right_eq_some.mp h
        cases h
        exact .reportSettings hi hpc
      · cases h
  | report i =>
      simp only [step] at h
      split at h
      · rename_i call hi
        split at h
        · rename_i settings hpc
          cases h
          exact .report hi hpc
        · cases h
      · cases h
  | ended error =>
      obtain ⟨-, h⟩ := Option.ite_none_right_eq_some.mp h
      cases h
      exact .ended error

end Controller

end SingBoxMini.ReverseProxy
