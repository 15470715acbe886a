import SingBoxMini.Admin.Sessions

/-!
# Admin — Accounts

The requests that change the credential file, logins, and runs of the reset command, as they take
their steps side by side (`login`, `add_admin_user`, `change_admin_password`, `delete_admin_user`,
`reset_credentials`, `load_credentials` and `write_credentials` of `admin.rs`).

* A request is authorised, waits for `credentials_lock`, and then goes on to its end without an
  await: the HTTP server may drop it before, but not after it has the lock.  Other requests run on
  other threads meanwhile.
* The reset command is a process of its own.  It does not have the lock.
* `write_credentials` makes its file operations one by one, and each can fail with any error.  The
  file is read at one moment, and `rename` is atomic.
* The temporary file is the path with the extension `tmp`.  For a path with that extension it is the
  credential file itself.

`Moved` says what a step can do to the files, and what has to be true for it.
-/

namespace SingBoxMini.Admin.Credentials
open Bytes Text Files

/-! ### Paths -/

/-- A path by its parts: the text before the file name, what `Path::parent` displays, and the file
name. -/
structure CredentialsPath where
  start : String
  parent : String
  fileName : List Char

/-- `Path::file_stem`: the file name up to its last dot, unless that is the first character. -/
def fileStem (fileName : List Char) : List Char :=
  match rsplitOnce '.' fileName with
  | some (c :: stem, _) => c :: stem
  | _ => fileName

/-- `Path::extension` -/
def extension (fileName : List Char) : Option (List Char) :=
  match rsplitOnce '.' fileName with
  | some (_ :: _, extension) => some extension
  | _ => none

/-- `Path::with_extension` -/
def withExtension (fileName extension : List Char) : List Char :=
  fileStem fileName ++ '.' :: extension

/-- What the requests and the command are run with. -/
structure Env where
  toml : Toml
  crates : SessionCrates
  /-- The token of the command line. -/
  token : Option (List UInt8)
  path : CredentialsPath

namespace Env
variable (env : Env)

/-- The name of the credential file. -/
def fileName : List Char := env.path.fileName

/-- The name of the temporary file. -/
def temporary : List Char := withExtension env.path.fileName "tmp".toList

/-- `Path::display` of a file of the directory. -/
def display (name : List Char) : String := env.path.start ++ String.ofList name

end Env

/-! ### Reading -/

/-- An error of `std::io`, and whether it is `NotFound`. -/
structure IoError where
  message : String
  notFound : Bool
deriving DecidableEq

/-- An error of `load_credentials`, and what `is_not_found` says of it. -/
structure LoadError where
  error : AnyhowError
  notFound : Bool
deriving DecidableEq

section
variable (env : Env) (files : Files (List Char)) (readError : Option String)

/-- `fs::read_to_string` of the credential file, with the error of the read, if any. -/
def readToString : Except IoError (List Char) :=
  match readError, files.read env.fileName with
  | some error, _ => .error ⟨error, false⟩
  | none, none => .error ⟨"No such file or directory (os error 2)", true⟩
  | none, some bytes =>
    match ofUtf8 bytes with
    | some contents => .ok contents
    | none => .error ⟨"stream did not contain valid UTF-8", false⟩

/-- `load_credentials` -/
def loadCredentials : Except LoadError AdminCredentialsFile :=
  match readToString env files readError with
  | .error error =>
    .error ⟨["read admin credentials " ++ env.display env.fileName, error.message], error.notFound⟩
  | .ok contents => (parseCredentials env.toml contents).mapError fun error =>
    ⟨("parse admin credentials " ++ env.display env.fileName) :: error, false⟩

/-! ### Edits -/

/-- What is done to a file that was loaded. -/
inductive Edit where
  | change (request : Change)
  | reset (credentials : AdminCredentials)
deriving DecidableEq

/-- The edit of a request, and not of the command. -/
def Edit.isRequest : Edit → Bool
  | .change _ => true
  | .reset _ => false

/-- The messages of the responses. -/
def Change.message : Change → String
  | .add _ _ => "admin user added"
  | .changePassword _ _ => "admin password changed"
  | .delete _ => "admin user deleted"

/-- What a task ends with: the response of a login or of a change, what the reset command prints,
and the errors of both. -/
inductive Outcome where
  | loggedIn (response : LoginResponse)
  | changed (change : Change) (message : String)
  | printed (credentials : AdminCredentials)
  | refused (error : ApiError)
  | failed (error : AnyhowError)
deriving DecidableEq

namespace Edit

/-- The file after the edit. -/
def apply : Edit → AdminCredentialsFile → Except ApiError AdminCredentialsFile
  | .change request, file => request.edit file
  | .reset credentials, file => .ok (resetCredentials credentials file)

/-- The user who is edited. -/
def username : Edit → List Char
  | .change request => request.username
  | .reset credentials => credentials.username

/-- The password of the user afterwards, if there is the user. -/
def password? : Edit → Option (List Char)
  | .change request => request.password?
  | .reset credentials => some credentials.password

/-- An error of `load_credentials` or `write_credentials`, as it is reported. -/
def fail : Edit → AnyhowError → Outcome
  | .change _, error => .refused (.internal error)
  | .reset _, error => .failed error

/-- What is reported at the end. -/
def outcome : Edit → Outcome
  | .change request => .changed request request.message
  | .reset credentials => .printed credentials

/-- The users that are edited.  The command starts with none where there is no file. -/
def loaded (edit : Edit) : Except Outcome AdminCredentialsFile :=
  match loadCredentials env files readError, edit with
  | .ok file, _ => .ok file
  | .error error, .reset _ => if error.notFound then .ok ⟨[]⟩ else .error (.failed error.error)
  | .error error, .change _ => .error (.refused (.internal error.error))

/-- From `load_credentials` to the check of `write_credentials`. -/
def load (edit : Edit) : Except Outcome AdminCredentialsFile := do
  let file ← edit.loaded env files readError
  let edited ← (edit.apply file).mapError Outcome.refused
  (ensureCredentials edited).mapError edit.fail
  return edited

end Edit

end

/-- Where the first part of `write_credentials` fails. -/
inductive OpenFault where
  | createDirectory (error : String)
  | openFile (error : String)
deriving DecidableEq

namespace Env
variable (env : Env) (fault : Option OpenFault)

/-- `fs::create_dir_all` of the parent, if the path has one. -/
def createDirAll : Except AnyhowError Unit :=
  match fault with
  | some (.createDirectory error) =>
    if env.path.parent = "" then .ok ()
    else .error ["create admin credential directory " ++ env.path.parent, error]
  | _ => .ok ()

/-- `OpenOptions::open` of the temporary file. -/
def openTemporary : Except AnyhowError Unit :=
  match fault with
  | some (.openFile error) =>
    .error ["write admin credentials " ++ env.display env.temporary, error]
  | _ => .ok ()

/-- `write_credentials` up to the open temporary file, with the bytes to be written. -/
def prepare (file : AdminCredentialsFile) : Except AnyhowError (List UInt8) := do
  env.createDirAll fault
  let contents ← context "serialize admin credentials" (env.toml.toString file)
  env.openTemporary fault
  return utf8 contents

end Env

/-! ### Tasks -/

/-- A login, a request that changes the users, or the command that resets a password. -/
inductive Job where
  | login (username password : List Char)
  | change (headers : Headers) (change : Change)
  | reset (username : List Char) (random : Except String (Vector UInt8 24))
deriving DecidableEq

/-- Where a task is: at its start; waiting for the lock; before it loads the file; with the users to
be written; writing the temporary file; before the rename; and at its end. -/
inductive Pc where
  | arriving
  | waiting
  | loading (edit : Edit)
  | saving (edit : Edit) (file : AdminCredentialsFile)
  | writing (edit : Edit) (w : Writing)
  | replacing (edit : Edit) (w : Writing)
  | ended (outcome : Outcome)
  | dropped
deriving DecidableEq

/-- A job and where it is. -/
structure Task where
  job : Job
  pc : Pc
deriving DecidableEq

/-- The steps; a file operation comes with the error it gives, if any. -/
inductive TaskAction where
  | authorize (readError : Option String) (now : UInt64)
  | login (readError : Option String) (now : UInt64)
  /-- `generated_credentials` -/
  | generate
  | acquire
  | load (readError : Option String)
  | openTemporary (fault : Option OpenFault)
  /-- The next `n` bytes are written. -/
  | write (n : Nat)
  | writeError (error : String)
  | sync (error : Option String)
  | rename (error : Option String)
  /-- The HTTP server drops the request. -/
  | drop
deriving DecidableEq

/-- A job arrives, or a task goes on. -/
inductive Action where
  | arrive (job : Job)
  | task (i : Nat) (action : TaskAction)
deriving DecidableEq

/-- The directory and the tasks, those of all processes. -/
structure State where
  files : Files (List Char)
  /-- The task that has `credentials_lock`. -/
  lock : Option Nat
  tasks : List Task

/-- The end of a request after `authorize` and its check, or the lock. -/
def admitted (env : Env) (files : Files (List Char)) (headers : Headers) (change : Change)
    (readError : Option String) (now : UInt64) : Pc :=
  match authorize env.crates env.toml env.token headers
      ((readToString env files readError).mapError IoError.message) now, change.check with
  | .error error, _ => .ended (.refused error)
  | .ok (), .error error => .ended (.refused error)
  | .ok (), .ok () => .waiting

/-- The end of a login. -/
def loggedIn (env : Env) (files : Files (List Char)) (username password : List Char)
    (readError : Option String) (now : UInt64) : Outcome :=
  match loadCredentials env files readError with
  | .error error => .refused (.internal error.error)
  | .ok credentials =>
    match login env.crates credentials username password now with
    | .error error => .refused error
    | .ok response => .loggedIn response

namespace State

/-- The start of a run, with a directory. -/
def start (files : Files (List Char)) : State := ⟨files, none, []⟩

/-- A task moves on. -/
def move (s : State) (i : Nat) (task : Task) (pc : Pc) : State :=
  { s with tasks := s.tasks.set i { task with pc } }

/-- A task ends; its guard is dropped. -/
def finish (s : State) (i : Nat) (task : Task) (outcome : Outcome) : State :=
  { s.move i task (.ended outcome) with lock := if s.lock = some i then none else s.lock }

/-- The step an action makes in a task, if it is enabled. -/
def taskStep (env : Env) (s : State) (i : Nat) (task : Task) : TaskAction → Option State
  | .authorize readError now =>
    match task.job, task.pc with
    | .change headers change, .arriving =>
      some (s.move i task (admitted env s.files headers change readError now))
    | _, _ => none
  | .login readError now =>
    match task.job, task.pc with
    | .login username password, .arriving =>
      some (s.move i task (.ended (loggedIn env s.files username password readError now)))
    | _, _ => none
  | .generate =>
    match task.job, task.pc with
    | .reset username random, .arriving =>
      match generatedCredentials username random with
      | .error error => some (s.move i task (.ended (.failed error)))
      | .ok credentials => some (s.move i task (.loading (.reset credentials)))
    | _, _ => none
  | .acquire =>
    match task.job, task.pc with
    | .change _ change, .waiting =>
      if s.lock = none then
        some { s.move i task (.loading (.change change)) with lock := some i }
      else none
    | _, _ => none
  | .load readError =>
    match task.pc with
    | .loading edit =>
      match edit.load env s.files readError with
      | .error outcome => some (s.finish i task outcome)
      | .ok file => some (s.move i task (.saving edit file))
    | _ => none
  | .openTemporary fault =>
    match task.pc with
    | .saving edit file =>
      match env.prepare fault file with
      | .error error => some (s.finish i task (edit.fail error))
      | .ok contents =>
        let opened := s.files.create env.temporary
        some { s.move i task (.writing edit ⟨opened.2, contents, 0⟩) with files := opened.1 }
    | _ => none
  | .write n =>
    match task.pc with
    | .writing edit w =>
      if 0 < n ∧ w.written + n ≤ w.contents.length then
        some { s.move i task (.writing edit { w with written := w.written + n }) with
          files := s.files.write w.inode w.written (w.next n) }
      else none
    | _ => none
  | .writeError error =>
    match task.pc with
    | .writing edit w =>
      if w.written < w.contents.length then some (s.finish i task (edit.fail [error])) else none
    | _ => none
  | .sync error =>
    match task.pc with
    | .writing edit w =>
      if w.written = w.contents.length then
        match error with
        | some error => some (s.finish i task (edit.fail [error]))
        | none => some (s.move i task (.replacing edit w))
      else none
    | _ => none
  | .rename error =>
    match task.pc with
    | .replacing edit _ =>
      match error, s.files.rename env.temporary env.fileName with
      | some error, _ => some (s.finish i task
        (edit.fail ["replace admin credentials " ++ env.display env.fileName, error]))
      | none, none => some (s.finish i task
        (edit.fail ["replace admin credentials " ++ env.display env.fileName,
          "No such file or directory (os error 2)"]))
      | none, some files => some { s.finish i task edit.outcome with files }
    | _ => none
  | .drop =>
    match task.job, task.pc with
    | .change _ _, .arriving | .change _ _, .waiting => some (s.move i task .dropped)
    | _, _ => none

/-- The step an action makes, if it is enabled. -/
def step (env : Env) (s : State) : Action → Option State
  | .arrive job => some { s with tasks := s.tasks ++ [⟨job, .arriving⟩] }
  | .task i action => s.tasks[i]?.bind fun task => s.taskStep env i task action

end State

/-! ### What a step can do -/

/-- The outcome is an error. -/
def Outcome.isError : Outcome → Bool
  | .refused _ | .failed _ => true
  | _ => false

/-- The edit that was made, at the end of a task that has succeeded. -/
def Outcome.edit? : Outcome → Option Edit
  | .changed change _ => some (.change change)
  | .printed credentials => some (.reset credentials)
  | _ => none

namespace Pc

/-- What the task has done to the file. -/
def edit? : Pc → Option Edit
  | .ended outcome => outcome.edit?
  | _ => none

/-- The task does nothing more. -/
def isEnded : Pc → Bool
  | .ended _ | .dropped => true
  | _ => false

/-- The task has ended with an error. -/
def hasFailed : Pc → Bool
  | .ended outcome => outcome.isError
  | _ => false

/-- The task has loaded the file and has not replaced it yet. -/
def isActive : Pc → Bool
  | .saving _ _ | .writing _ _ | .replacing _ _ => true
  | _ => false

/-- The task has opened the temporary file. -/
def isOpen : Pc → Bool
  | .writing _ _ | .replacing _ _ => true
  | _ => false

/-- A reset between its read and its rename. -/
def isResetting : Pc → Bool
  | .saving edit _ | .writing edit _ | .replacing edit _ => !edit.isRequest
  | _ => false

/-- A request that has the lock. -/
def isInside : Pc → Bool
  | .loading edit | .saving edit _ | .writing edit _ | .replacing edit _ => edit.isRequest
  | _ => false

end Pc

@[simp] theorem Edit.edit?_outcome (edit : Edit) : edit.outcome.edit? = some edit := by
  cases edit <;> rfl

@[simp] theorem Edit.isError_outcome (edit : Edit) : edit.outcome.isError = false := by
  cases edit <;> rfl

@[simp] theorem Edit.isError_fail (edit : Edit) (error : AnyhowError) :
    (edit.fail error).isError = true := by
  cases edit <;> rfl

theorem Outcome.edit?_of_isError {outcome : Outcome} (h : outcome.isError = true) :
    outcome.edit? = none := by
  cases outcome with
  | refused | failed => rfl
  | _ => cases h

variable {pc : Pc} {i : Nat} {env : Env}

theorem Pc.isActive_of_isOpen (h : pc.isOpen = true) : pc.isActive = true := by
  cases pc with
  | writing | replacing => rfl
  | _ => cases h

/-- An active task is a reset or has the lock. -/
theorem Pc.isInside_of_isActive (h : pc.isActive = true) (hreset : pc.isResetting = false) :
    pc.isInside = true := by
  cases pc with
  | saving edit | writing edit | replacing edit => simpa [isResetting, isInside] using hreset
  | _ => cases h

/-- **A step of a task**, by what it does to the files. -/
inductive Moved (env : Env) (files : Files (List Char)) : Pc → Files (List Char) → Pc → Prop where
  /-- Not between the read and the rename. -/
  | quiet {pc pc' : Pc} (hrunning : pc.isEnded = false) (hactive : pc.isActive = false)
      (hactive' : pc'.isActive = false) (hedit : pc'.edit? = none) : Moved env files pc files pc'
  | loaded {edit : Edit} {file : AdminCredentialsFile} {readError : Option String}
      (hload : edit.load env files readError = .ok file) :
      Moved env files (.loading edit) files (.saving edit file)
  | opened {edit : Edit} {file : AdminCredentialsFile} {contents : List Char}
      (hcontents : env.toml.toString file = .ok contents) :
      Moved env files (.saving edit file) (files.create env.temporary).1
        (.writing edit ⟨(files.create env.temporary).2, utf8 contents, 0⟩)
  | wrote {edit : Edit} {w : Writing} {n : Nat} (hlength : w.written + n ≤ w.contents.length) :
      Moved env files (.writing edit w) (files.write w.inode w.written (w.next n))
        (.writing edit { w with written := w.written + n })
  | synced {edit : Edit} {w : Writing} (hlength : w.written = w.contents.length) :
      Moved env files (.writing edit w) files (.replacing edit w)
  | replaced {edit : Edit} {w : Writing} {files' : Files (List Char)}
      (hrename : files.rename env.temporary env.fileName = some files') :
      Moved env files (.replacing edit w) files' (.ended edit.outcome)
  | failed {pc : Pc} {outcome : Outcome} (hactive : pc.isActive = true)
      (herror : outcome.isError = true) : Moved env files pc files (.ended outcome)

/-- The lock after a step of a task: it may have been free and be the task's, or have been the
task's and be free. -/
structure Locks (lock : Option Nat) (i : Nat) (pc : Pc) (lock' : Option Nat) (pc' : Pc) : Prop where
  others : ∀ j, j ≠ i → lock = some j → lock' = some j
  own : (pc.isInside = true → lock = some i) → pc'.isInside = true → lock' = some i

theorem Locks.same {lock : Option Nat} {pc' : Pc} (h : pc'.isInside = true → pc.isInside = true) :
    Locks lock i pc lock pc' where
  others := fun _ _ hlock => hlock
  own := fun hown hinside => hown (h hinside)

theorem Locks.released {lock : Option Nat} (outcome : Outcome) :
    Locks lock i pc (if lock = some i then none else lock) (.ended outcome) where
  others := by
    intro j hj hlock
    rw [hlock, if_neg (by simpa using hj)]
  own := fun _ hinside => nomatch hinside

theorem Edit.isError_of_load {files : Files (List Char)} {readError : Option String} {edit : Edit}
    {outcome : Outcome} (h : edit.load env files readError = .error outcome) :
    outcome.isError = true := by
  have hbind : ∀ {ε α β : Type} {x : Except ε α} {f : α → Except ε β} {e : ε},
      (x >>= f) = .error e → x = .error e ∨ ∃ a, x = .ok a ∧ f a = .error e := by
    intro ε α β x f e hx
    cases x with
    | error e' => exact .inl (congrArg Except.error (Except.error.inj hx))
    | ok a => exact .inr ⟨a, rfl, hx⟩
  have hmap : ∀ {ε ε' α : Type} {g : ε → ε'} {x : Except ε α} {e : ε'},
      x.mapError g = .error e → ∃ e', e = g e' := by
    intro ε ε' α g x e hx
    cases x with
    | error e' => exact ⟨e', (Except.error.inj hx).symm⟩
    | ok a => cases hx
  rw [Edit.load] at h
  rcases hbind h with h | ⟨file, -, h⟩
  · unfold Edit.loaded at h
    split at h
    · cases h
    · split_ifs at h
      cases h
      rfl
    · cases h
      rfl
  · rcases hbind h with h | ⟨edited, -, h⟩
    · obtain ⟨error, rfl⟩ := hmap h
      rfl
    · rcases hbind h with h | ⟨-, -, h⟩
      · obtain ⟨error, rfl⟩ := hmap h
        exact edit.isError_fail error
      · cases h

theorem Env.prepare_ok {file : AdminCredentialsFile} {fault : Option OpenFault} {bytes : List UInt8}
    (h : env.prepare fault file = .ok bytes) :
    ∃ contents, env.toml.toString file = .ok contents ∧ bytes = utf8 contents := by
  obtain ⟨-, -, h⟩ := bind_ok_iff.mp h
  obtain ⟨contents, hcontents, h⟩ := bind_ok_iff.mp h
  obtain ⟨-, -, h⟩ := bind_ok_iff.mp h
  exact ⟨contents, context_ok_iff.mp hcontents, (Except.ok.inj h).symm⟩

theorem admitted_cases (env : Env) (files : Files (List Char)) (headers : Headers)
    (change : Change) (readError : Option String) (now : UInt64) :
    admitted env files headers change readError now = .waiting ∨
      ∃ error, admitted env files headers change readError now = .ended (.refused error) := by
  rw [admitted]
  split
  · exact .inr ⟨_, rfl⟩
  · exact .inr ⟨_, rfl⟩
  · exact .inl rfl

theorem edit?_loggedIn (env : Env) (files : Files (List Char)) (username password : List Char)
    (readError : Option String) (now : UInt64) :
    (loggedIn env files username password readError now).edit? = none := by
  rw [loggedIn]
  split
  · rfl
  · split <;> rfl

/-- **What a step of a task can do.** -/
theorem State.taskStep_moved {s s' : State} {task : Task} {action : TaskAction}
    (h : s.taskStep env i task action = some s') :
    ∃ pc', s'.tasks = s.tasks.set i { task with pc := pc' } ∧
      Moved env s.files task.pc s'.files pc' ∧ Locks s.lock i task.pc s'.lock pc' := by
  obtain ⟨job, pc⟩ := task
  cases action with
  | authorize readError now =>
      simp only [taskStep] at h
      split at h
      · cases h
        rename_i headers change
        rcases admitted_cases env s.files headers change readError now with hpc | ⟨error, hpc⟩
        · exact ⟨_, rfl, .quiet rfl rfl (by rw [hpc]; rfl) (by rw [hpc]; rfl),
            .same fun hinside => by rw [hpc] at hinside; cases hinside⟩
        · exact ⟨_, rfl, .quiet rfl rfl (by rw [hpc]; rfl) (by rw [hpc]; rfl),
            .same fun hinside => by rw [hpc] at hinside; cases hinside⟩
      · cases h
  | login readError now =>
      simp only [taskStep] at h
      split at h
      · cases h
        exact ⟨_, rfl, .quiet rfl rfl rfl (edit?_loggedIn ..), .same fun hinside => nomatch hinside⟩
      · cases h
  | generate =>
      simp only [taskStep] at h
      split at h
      · split at h
        · cases h
          exact ⟨_, rfl, .quiet rfl rfl rfl rfl, .same fun hinside => nomatch hinside⟩
        · cases h
          exact ⟨_, rfl, .quiet rfl rfl rfl rfl, .same fun hinside => nomatch hinside⟩
      · cases h
  | acquire =>
      simp only [taskStep] at h
      split at h
      · split_ifs at h with hlock
        cases h
        refine ⟨_, rfl, .quiet rfl rfl rfl rfl, fun j _ hj => ?_, fun _ _ => rfl⟩
        rw [hlock] at hj
        cases hj
      · cases h
  | load readError =>
      simp only [taskStep] at h
      split at h
      · rename_i edit
        split at h
        · rename_i outcome hload
          cases h
          have herror := Edit.isError_of_load hload
          exact ⟨_, rfl, .quiet rfl rfl rfl (Outcome.edit?_of_isError herror), .released outcome⟩
        · rename_i file hload
          cases h
          exact ⟨_, rfl, .loaded hload, .same id⟩
      · cases h
  | openTemporary fault =>
      simp only [taskStep] at h
      split at h
      · rename_i edit file
        split at h
        · cases h
          exact ⟨_, rfl, .failed rfl (edit.isError_fail _), .released _⟩
        · rename_i bytes hprepare
          obtain ⟨contents, hcontents, rfl⟩ := Env.prepare_ok hprepare
          cases h
          exact ⟨_, rfl, .opened hcontents, .same id⟩
      · cases h
  | write n =>
      simp only [taskStep] at h
      split at h
      · rename_i edit w
        split_ifs at h with hlength
        cases h
        exact ⟨_, rfl, .wrote hlength.2, .same id⟩
      · cases h
  | writeError error =>
      simp only [taskStep] at h
      split at h
      · rename_i edit w
        split_ifs at h
        cases h
        exact ⟨_, rfl, .failed rfl (edit.isError_fail _), .released _⟩
      · cases h
  | sync error =>
      simp only [taskStep] at h
      split at h
      · rename_i edit w
        split_ifs at h with hlength
        cases error with
        | some error =>
            cases h
            exact ⟨_, rfl, .failed rfl (edit.isError_fail _), .released _⟩
        | none =>
            cases h
            exact ⟨_, rfl, .synced hlength, .same id⟩
      · cases h
  | rename error =>
      simp only [taskStep] at h
      split at h
      · rename_i edit w
        split at h
        · cases h
          exact ⟨_, rfl, .failed rfl (edit.isError_fail _), .released _⟩
        · cases h
          exact ⟨_, rfl, .failed rfl (edit.isError_fail _), .released _⟩
        · rename_i files' hrename
          cases h
          exact ⟨_, rfl, .replaced hrename, .released _⟩
      · cases h
  | drop =>
      simp only [taskStep] at h
      split at h
      · cases h
        exact ⟨_, rfl, .quiet rfl rfl rfl rfl, .same fun hinside => nomatch hinside⟩
      · cases h
        exact ⟨_, rfl, .quiet rfl rfl rfl rfl, .same fun hinside => nomatch hinside⟩
      · cases h

end SingBoxMini.Admin.Credentials
