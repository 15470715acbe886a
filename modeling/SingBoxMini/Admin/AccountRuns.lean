import SingBoxMini.Admin.Accounts
import SingBoxMini.Support.TomlText

/-!
# Admin — Runs over the accounts

What is left in the credential file by any interleaving of requests and resets in which no reset
comes between the read and the rename of another task, or another task between its own
(`Between`).

* `Sound`: a task that has loaded the file and has not replaced it is the only one, and what it is
  about to write is its edit of the file as it is.
* `credentials_file`: the file is accepted throughout, only tasks that report success change it, and
  they change the one user they name.

If the temporary file is the credential file (`temporary_eq_iff`) the first of these does not hold:
opening it truncates the credentials.
-/

namespace SingBoxMini.Admin.Credentials
open Bytes Text Files

/-! ### The temporary file -/

theorem withExtension_eq_self_iff {fileName ext : List Char} :
    withExtension fileName ext = fileName ↔ extension fileName = some ext := by
  have hlonger : fileName ++ '.' :: ext ≠ fileName := fun h => by
    simpa using congrArg List.length h
  unfold withExtension fileStem extension
  split
  · rename_i c stem after hsplit
    rw [rsplitOnce_eq_some hsplit, Option.some.injEq, List.append_cancel_left_eq,
      List.cons.injEq, and_iff_right rfl, eq_comm]
  · rename_i hsplit
    exact iff_of_false hlonger (by simp)

/-- **The temporary file is the credential file** if the path has the extension `tmp`. -/
theorem temporary_eq_iff {env : Env} :
    env.temporary = env.fileName ↔ extension env.fileName = some "tmp".toList :=
  withExtension_eq_self_iff

/-! ### Loading -/

section
variable {env : Env} {files files' : Files (List Char)} {readError : Option String}
  {file file' : AdminCredentialsFile}

theorem loadCredentials_ok_iff : loadCredentials env files readError = .ok file ↔
    readError = none ∧ ∃ bytes contents, files.read env.fileName = some bytes ∧
      ofUtf8 bytes = some contents ∧ parseCredentials env.toml contents = .ok file := by
  unfold loadCredentials readToString
  cases readError with
  | some error => simp
  | none =>
      cases hread : files.read env.fileName with
      | none => simp
      | some bytes =>
          cases hcontents : ofUtf8 bytes with
          | none => simp [hcontents]
          | some contents => simp [hcontents, mapError_ok_iff]

theorem accepted_of_loadCredentials (h : loadCredentials env files readError = .ok file) :
    Accepted file := by
  obtain ⟨-, bytes, contents, -, -, hparse⟩ := loadCredentials_ok_iff.mp h
  exact accepted_of_parseCredentials hparse

/-- Loading depends on the credential file only. -/
theorem loadCredentials_congr (h : files'.read env.fileName = files.read env.fileName) :
    loadCredentials env files' readError = loadCredentials env files readError := by
  unfold loadCredentials readToString
  rw [h]

/-- **What was written is loaded.** -/
theorem loadCredentials_written {contents : List Char}
    (hread : files.read env.fileName = some (utf8 contents))
    (hcontents : env.toml.toString file = .ok contents) (haccepted : Accepted file) :
    loadCredentials env files none = .ok file :=
  loadCredentials_ok_iff.mpr ⟨rfl, _, contents, hread, ofUtf8_utf8 contents,
    parseCredentials_toString hcontents haccepted⟩

/-- A load of a file that is there. -/
theorem Edit.load_ok {edit : Edit} (h : edit.load env files readError = .ok file')
    (hfile : loadCredentials env files none = .ok file) :
    edit.apply file = .ok file' ∧ Accepted file' := by
  obtain ⟨loaded, hloaded, h⟩ := bind_ok_iff.mp h
  obtain ⟨edited, hedited, h⟩ := bind_ok_iff.mp h
  obtain ⟨⟨⟩, hensure, hreturn⟩ := bind_ok_iff.mp h
  cases hreturn
  have haccepted := ensureCredentials_ok_iff.mp (mapError_ok_iff.mp hensure)
  suffices hsame : loaded = file by
    rw [hsame] at hedited
    exact ⟨mapError_ok_iff.mp hedited, haccepted⟩
  obtain ⟨-, bytes, contents, hread, hutf8, hparse⟩ := loadCredentials_ok_iff.mp hfile
  unfold Edit.loaded at hloaded
  cases hload : loadCredentials env files readError with
  | ok found =>
      rw [hload] at hloaded
      cases hloaded
      obtain ⟨rfl, -⟩ := loadCredentials_ok_iff.mp hload
      exact Except.ok.inj (hload.symm.trans hfile)
  | error error =>
      -- there is a file, so the error is not that there is none
      have hfound : error.notFound = false := by
        unfold loadCredentials readToString at hload
        cases readError with
        | some message =>
            cases hload
            rfl
        | none =>
            simp only [hread, hutf8, hparse] at hload
            cases hload
      rw [hload] at hloaded
      cases edit with
      | change request => cases hloaded
      | reset credentials =>
          simp only [hfound] at hloaded
          cases hloaded

end

/-! ### The edits -/

section

variable {edit : Edit} {file file' start : AdminCredentialsFile} {edits : List Edit}

/-- **An edit updates the table** at the user it names. -/
theorem Edit.apply_passwords (h : edit.apply file = .ok file') :
    passwords file' = Function.update (passwords file) edit.username edit.password? := by
  cases edit with
  | change request => exact Change.edit_passwords h
  | reset credentials =>
      cases h
      exact passwords_resetCredentials credentials file

/-- The credentials after edits one after the other, if all of them succeed. -/
def applyAll (start : AdminCredentialsFile) (edits : List Edit) :
    Except ApiError AdminCredentialsFile :=
  edits.foldlM (fun file edit => edit.apply file) start

theorem applyAll_concat (h : applyAll start edits = .ok file)
    (hedit : edit.apply file = .ok file') :
    applyAll start (edits ++ [edit]) = .ok file' := by
  rw [applyAll, List.foldlM_append]
  refine bind_ok_iff.mpr ⟨file, h, ?_⟩
  rw [List.foldlM_cons, hedit]
  rfl

theorem applyAll_concat_ok (h : applyAll start (edits ++ [edit]) = .ok file) :
    ∃ before, applyAll start edits = .ok before ∧ edit.apply before = .ok file := by
  rw [applyAll, List.foldlM_append] at h
  obtain ⟨before, hbefore, h⟩ := bind_ok_iff.mp h
  rw [List.foldlM_cons] at h
  obtain ⟨after, hafter, hreturn⟩ := bind_ok_iff.mp h
  cases hreturn
  exact ⟨before, hbefore, hafter⟩

/-- A user whom only one edit names is left as the edit makes it. -/
theorem passwords_applyAll (h : applyAll start edits = .ok file) (hmem : edit ∈ edits)
    (honly : ∀ other ∈ edits, other.username = edit.username → other = edit) :
    passwords file edit.username = edit.password? := by
  induction edits using List.reverseRecOn generalizing file with
  | nil => cases hmem
  | append_singleton edits last ih =>
      obtain ⟨before, hbefore, hlast⟩ := applyAll_concat_ok h
      rw [Edit.apply_passwords hlast]
      by_cases hname : last.username = edit.username
      · rw [honly last (by simp) hname, Function.update_self]
      · have hne : edit ≠ last := by
          rintro rfl
          exact hname rfl
        have hmem' : edit ∈ edits := by simpa [hne] using hmem
        rw [Function.update_of_ne (Ne.symm hname)]
        exact ih hbefore hmem' fun other hother => honly other (List.mem_append_left _ hother)

end

/-! ### What holds along a run -/

/-- A task that has opened the temporary file. -/
structure Prepares (env : Env) (files : Files (List Char)) (file : AdminCredentialsFile)
    (edit : Edit) (w : Writing) : Prop where
  holds : files.Holds env.temporary w
  written : w.written ≤ w.contents.length
  edited : ∃ file' contents, edit.apply file = .ok file' ∧ Accepted file' ∧
    env.toml.toString file' = .ok contents ∧ w.contents = utf8 contents

/-- What a task is about to write is its edit of the file. -/
def Prepared (env : Env) (files : Files (List Char)) (file : AdminCredentialsFile) : Pc → Prop
  | .saving edit file' => edit.apply file = .ok file' ∧ Accepted file'
  | .writing edit w => Prepares env files file edit w
  | .replacing edit w => Prepares env files file edit w ∧ w.written = w.contents.length
  | _ => True

theorem prepared_of_not_active {env : Env} {files : Files (List Char)}
    {file : AdminCredentialsFile} {pc : Pc} (h : pc.isActive = false) :
    Prepared env files file pc := by
  cases pc with
  | saving | writing | replacing => cases h
  | _ => trivial

namespace State

/-- The edits of the tasks that have succeeded. -/
def edits (s : State) : List Edit := s.tasks.filterMap fun task => task.pc.edit?

/-- A task has ended with an outcome. -/
def Reports (s : State) (i : Nat) (outcome : Outcome) : Prop :=
  ∃ job, s.tasks[i]? = some ⟨job, .ended outcome⟩

/-- No other task is between its read and its rename while a reset is. -/
def between (s : State) : Bool :=
  !(s.tasks.any (·.pc.isResetting)) || decide (s.tasks.countP (·.pc.isActive) ≤ 1)

/-- The requests that are between their read and their rename have the lock. -/
def Locked (s : State) : Prop :=
  ∀ (i : Nat) (task : Task), s.tasks[i]? = some task → task.pc.isInside = true → s.lock = some i

/-- One task at most is between its read and its rename. -/
def Alone (s : State) : Prop :=
  ∀ (i j : Nat) (task other : Task), s.tasks[i]? = some task → s.tasks[j]? = some other →
    task.pc.isActive = true → other.pc.isActive = true → i = j

/-- A write to the credential file itself has failed. -/
def Broken (env : Env) (s : State) : Prop :=
  env.temporary = env.fileName ∧
    ∃ (i : Nat) (task : Task), s.tasks[i]? = some task ∧ task.pc.hasFailed = true

/-- The file is what the edits give one after the other. -/
structure Serves (env : Env) (start : AdminCredentialsFile) (s : State)
    (file : AdminCredentialsFile) : Prop where
  serial : ∃ order, order.Perm s.edits ∧ applyAll start order = .ok file
  prepared : ∀ (i : Nat) (task : Task), s.tasks[i]? = some task →
    Prepared env s.files file task.pc
  loads : loadCredentials env s.files none = .ok file ∨
    env.temporary = env.fileName ∧
      ∃ (i : Nat) (task : Task), s.tasks[i]? = some task ∧ task.pc.isOpen = true

/-- **The invariant.** -/
structure Sound (env : Env) (start : AdminCredentialsFile) (s : State) : Prop where
  locked : s.Locked
  alone : s.Alone
  file : s.Broken env ∨ ∃ file, s.Serves env start file

end State

/-- The steps after which no reset is together with another task between read and rename. -/
def Between (env : Env) (s : State) (action : Action) : Prop :=
  (State.step env s action).all State.between = true

instance (env : Env) (s : State) (action : Action) : Decidable (Between env s action) :=
  inferInstanceAs (Decidable (_ = _))

namespace State

variable {env : Env} {start file : AdminCredentialsFile} {s s' : State} {i : Nat} {task : Task}
  {pc' : Pc}

theorem alone_of_between (hlocked : s.Locked) (hbetween : s.between = true) : s.Alone := by
  intro i j task other hi hj hactive hactive'
  rw [between, Bool.or_eq_true, decide_eq_true_eq, Bool.not_eq_true'] at hbetween
  rcases hbetween with hnone | hcount
  · -- both have the lock
    have hrequest : ∀ {k : Nat} {t : Task}, s.tasks[k]? = some t → t.pc.isActive = true →
        s.lock = some k := by
      intro k t hk hactive
      have hreset : t.pc.isResetting = false := by
        simpa using List.any_eq_false.mp hnone t (List.mem_of_getElem? hk)
      exact hlocked k t hk (Pc.isInside_of_isActive hactive hreset)
    exact Option.some.inj ((hrequest hi hactive).symm.trans (hrequest hj hactive'))
  · exact Tasks.index_unique hcount hi hj hactive hactive'

theorem Locked.moved (h : s.Locked) (hi : s.tasks[i]? = some task)
    (htasks : s'.tasks = s.tasks.set i { task with pc := pc' })
    (hlocks : Locks s.lock i task.pc s'.lock pc') : s'.Locked := by
  intro j other hj hinside
  rw [htasks, Tasks.getElem?_replace hi] at hj
  split_ifs at hj with hij
  · cases hj
    subst hij
    exact hlocks.own (h i task hi) hinside
  · exact hlocks.others j (Ne.symm hij) (h j other hj hinside)

variable {files : Files (List Char)}

theorem edit?_of_moved {files' : Files (List Char)} {pc : Pc} (h : Moved env files pc files' pc') :
    pc.edit? = none ∧ pc.isEnded = false := by
  cases h with
  | quiet hrunning =>
      cases pc with
      | ended => cases hrunning
      | _ => exact ⟨rfl, hrunning⟩
  | failed hactive =>
      cases pc with
      | saving | writing | replacing => exact ⟨rfl, rfl⟩
      | _ => cases hactive
  | _ => exact ⟨rfl, rfl⟩

theorem Broken.moved (h : s.Broken env) (hi : s.tasks[i]? = some task)
    (htasks : s'.tasks = s.tasks.set i { task with pc := pc' })
    (hrunning : task.pc.isEnded = false) : s'.Broken env := by
  obtain ⟨hsame, j, other, hj, hfailed⟩ := h
  refine ⟨hsame, j, other, ?_, hfailed⟩
  rw [htasks, Tasks.getElem?_replace hi, if_neg]
  · exact hj
  · rintro rfl
    cases hi.symm.trans hj
    obtain ⟨job, pc⟩ := task
    cases pc with
    | ended => cases hrunning
    | _ => cases hfailed

/-- **A step of a task**, by what it does to the credentials: it keeps the file, or it is the last
one of a task that succeeds and makes its edit. -/
inductive Effect (env : Env) (s s' : State) (file : AdminCredentialsFile) (pc' : Pc) :
    AdminCredentialsFile → Prop where
  | kept (hedit : pc'.edit? = none) (hread : env.temporary ≠ env.fileName →
      s'.files.read env.fileName = s.files.read env.fileName) : Effect env s s' file pc' file
  | edited {edit : Edit} {file' : AdminCredentialsFile} (hpc : pc' = .ended edit.outcome)
      (happly : edit.apply file = .ok file')
      (hload : loadCredentials env s'.files none = .ok file') : Effect env s s' file pc' file'

/-- The file after a step that is not the last one of an edit. -/
theorem Serves.keep (h : s.Serves env start file) (hi : s.tasks[i]? = some task)
    (htasks : s'.tasks = s.tasks.set i { task with pc := pc' }) (hedit : task.pc.edit? = none)
    (hedit' : pc'.edit? = none) (hown : Prepared env s'.files file pc')
    (hothers : ∀ (j : Nat) (other : Task), i ≠ j → s.tasks[j]? = some other →
      Prepared env s'.files file other.pc)
    (hloads : loadCredentials env s'.files none = .ok file ∨ env.temporary = env.fileName ∧
      ∃ (j : Nat) (other : Task), s'.tasks[j]? = some other ∧ other.pc.isOpen = true) :
    s'.Serves env start file := by
  obtain ⟨order, horder, happly⟩ := h.serial
  refine ⟨⟨order, ?_, happly⟩, fun j other hj => ?_, hloads⟩
  · have hsame : s'.edits = s.edits := by
      rw [edits, edits, htasks]
      exact Tasks.filterMap_replace hi hedit hedit'
    rwa [hsame]
  · rw [htasks, Tasks.getElem?_replace hi] at hj
    split_ifs at hj with hij
    · cases hj
      exact hown
    · exact hothers j other hij hj

/-- The file while the temporary file is open. -/
theorem Serves.loads_of_open (h : s.Serves env start file)
    (hi' : s'.tasks[i]? = some { task with pc := pc' }) (hopen : pc'.isOpen = true)
    (hread : env.temporary ≠ env.fileName →
      s'.files.read env.fileName = s.files.read env.fileName) :
    loadCredentials env s'.files none = .ok file ∨ env.temporary = env.fileName ∧
      ∃ (j : Nat) (other : Task), s'.tasks[j]? = some other ∧ other.pc.isOpen = true := by
  by_cases hsame : env.temporary = env.fileName
  · exact .inr ⟨hsame, i, _, hi', hopen⟩
  · rw [loadCredentials_congr (hread hsame)]
    exact .inl (h.loads.resolve_right fun hright => hsame hright.1)

/-- The tasks other than one between its read and its rename are not. -/
theorem not_active_of_alone (halone : s.Alone) (hi : s.tasks[i]? = some task)
    (hactive : task.pc.isActive = true) {j : Nat} {other : Task} (hij : i ≠ j)
    (hj : s.tasks[j]? = some other) : other.pc.isActive = false := by
  cases hother : other.pc.isActive with
  | false => rfl
  | true => exact absurd (halone i j task other hi hj hactive hother) hij

/-- **A step of a task keeps the file what the edits give.** -/
theorem Serves.moved (h : s.Serves env start file) (hi : s.tasks[i]? = some task)
    (htasks : s'.tasks = s.tasks.set i { task with pc := pc' })
    (hmoved : Moved env s.files task.pc s'.files pc') (halone : s.Alone) (halone' : s'.Alone) :
    s'.Broken env ∨ ∃ file', s'.Serves env start file' ∧ Effect env s s' file pc' file' := by
  have hedit := (edit?_of_moved hmoved).1
  have hi' : s'.tasks[i]? = some { task with pc := pc' } := htasks ▸ Tasks.replace_self hi _
  have hj' : ∀ {j : Nat} {other : Task}, i ≠ j → s.tasks[j]? = some other →
      s'.tasks[j]? = some other := fun hij hj => htasks ▸ (List.getElem?_set_ne hij).trans hj
  -- beside an active task the others are not
  have hidle : task.pc.isActive = true → ∀ (files : Files (List Char)) (j : Nat) (other : Task),
      i ≠ j → s.tasks[j]? = some other → Prepared env files file other.pc :=
    fun hactive files j other hij hj =>
      prepared_of_not_active (not_active_of_alone halone hi hactive hij hj)
  have hown := h.prepared i task hi
  obtain ⟨job, pc⟩ := task
  obtain ⟨files', lock', tasks'⟩ := s'
  cases hmoved with
  | quiet hrunning hactive hactive' hedit' =>
      refine .inr ⟨file, h.keep hi htasks hedit hedit' (prepared_of_not_active hactive')
        (fun j other _ hj => ?_) ?_, .kept hedit' fun _ => rfl⟩
      · exact h.prepared j other hj
      · refine h.loads.imp_right ?_
        rintro ⟨hsame, j, other, hj, hopen⟩
        refine ⟨hsame, j, other, hj' ?_ hj, hopen⟩
        rintro rfl
        cases hi.symm.trans hj
        rw [Pc.isActive_of_isOpen hopen] at hactive
        cases hactive
  | @loaded edit file' readError hload =>
      -- the task is active from now on, so no other one has the temporary file open
      have hidle' : ∀ (j : Nat) (other : Task), i ≠ j → s.tasks[j]? = some other →
          other.pc.isActive = false :=
        fun j other hij hj => not_active_of_alone halone' hi' rfl hij (hj' hij hj)
      have hfile : loadCredentials env s.files none = .ok file := by
        refine h.loads.resolve_right ?_
        rintro ⟨-, j, other, hj, hopen⟩
        by_cases hij : i = j
        · subst hij
          cases hi.symm.trans hj
          cases hopen
        · have hactive := hidle' j other hij hj
          rw [Pc.isActive_of_isOpen hopen] at hactive
          cases hactive
      exact .inr ⟨file, h.keep hi htasks hedit rfl (Edit.load_ok hload hfile)
        (fun j other hij hj => prepared_of_not_active (hidle' j other hij hj)) (.inl hfile),
        .kept rfl fun _ => rfl⟩
  | @opened edit file' contents hcontents =>
      obtain ⟨happly, haccepted⟩ := hown
      have hread : env.temporary ≠ env.fileName →
          (s.files.create env.temporary).1.read env.fileName = s.files.read env.fileName :=
        fun hne => read_create_of_ne hne.symm
      exact .inr ⟨file, h.keep hi htasks hedit rfl
        ⟨holds_create _ _ _, Nat.zero_le _, file', contents, happly, haccepted, hcontents, rfl⟩
        (hidle rfl _) (h.loads_of_open hi' rfl hread), .kept rfl hread⟩
  | @wrote edit w n hlength =>
      have hread : env.temporary ≠ env.fileName →
          (s.files.write w.inode w.written (w.next n)).read env.fileName =
            s.files.read env.fileName := fun hne => hown.holds.read_write hne.symm
      exact .inr ⟨file, h.keep hi htasks hedit rfl
        ⟨hown.holds.write hown.written, hlength, hown.edited⟩ (hidle rfl _)
        (h.loads_of_open hi' rfl hread), .kept rfl hread⟩
  | @synced edit w hlength =>
      exact .inr ⟨file, h.keep hi htasks hedit rfl ⟨hown, hlength⟩ (hidle rfl _)
        (h.loads_of_open hi' rfl fun _ => rfl), .kept rfl fun _ => rfl⟩
  | @replaced edit w _ hrename =>
      obtain ⟨⟨hholds, -, file', contents, happly, haccepted, hcontents, hbytes⟩, hwritten⟩ := hown
      have hread := hholds.rename hrename
      rw [hwritten, List.take_length, hbytes] at hread
      have hload := loadCredentials_written hread hcontents haccepted
      obtain ⟨order, horder, hserial⟩ := h.serial
      refine .inr ⟨file', ⟨⟨order ++ [edit], ?_, applyAll_concat hserial happly⟩, ?_, .inl hload⟩,
        .edited rfl happly hload⟩
      · have hedits : (edits ⟨files', lock', tasks'⟩).Perm (edit :: s.edits) := by
          rw [edits, htasks]
          exact Tasks.filterMap_replace_perm hi hedit edit.edit?_outcome
        exact (List.perm_append_singleton edit order).trans ((horder.cons edit).trans hedits.symm)
      · intro j other hj
        rw [htasks, Tasks.getElem?_replace hi] at hj
        split_ifs at hj with hij
        · cases hj
          trivial
        · exact prepared_of_not_active (not_active_of_alone halone hi rfl hij hj)
  | @failed _ outcome hactive herror =>
      rcases h.loads with hload | ⟨hsame, -⟩
      · exact .inr ⟨file, h.keep hi htasks hedit (Outcome.edit?_of_isError herror) trivial
          (hidle hactive _) (.inl hload), .kept (Outcome.edit?_of_isError herror) fun _ => rfl⟩
      · exact .inl ⟨hsame, i, _, hi', herror⟩

theorem sound_start (h : loadCredentials env files none = .ok start) :
    Sound env start (State.start files) where
  locked := by simp [Locked, State.start]
  alone := by simp [Alone, State.start]
  file := .inr ⟨start, ⟨[], .refl _, rfl⟩, by simp [State.start], .inl h⟩

/-- A new request or process. -/
theorem Sound.arrive (h : s.Sound env start) (job : Job) :
    Sound env start { s with tasks := s.tasks ++ [⟨job, .arriving⟩] } := by
  have hget : ∀ (j : Nat) (other : Task), (s.tasks ++ [⟨job, .arriving⟩])[j]? = some other →
      s.tasks[j]? = some other ∨ other.pc = .arriving := by
    intro j other hj
    rcases Tasks.of_spawn hj with rfl | hj
    · exact .inr rfl
    · exact .inl hj
  have hold : ∀ {j : Nat} {other : Task}, s.tasks[j]? = some other →
      (s.tasks ++ [⟨job, .arriving⟩])[j]? = some other := fun hj => Tasks.spawn_old hj _
  refine ⟨fun j other hj hinside => ?_, fun j k one other hj hk hone hother => ?_, ?_⟩
  · rcases hget j other hj with hj | hpc
    · exact h.locked j other hj hinside
    · rw [hpc] at hinside
      cases hinside
  · rcases hget j one hj with hj | hpc
    · rcases hget k other hk with hk | hpc
      · exact h.alone j k one other hj hk hone hother
      · rw [hpc] at hother
        cases hother
    · rw [hpc] at hone
      cases hone
  · refine h.file.imp ?_ ?_
    · rintro ⟨hsame, j, other, hj, hfailed⟩
      exact ⟨hsame, j, other, hold hj, hfailed⟩
    · rintro ⟨file, hserial, hprepared, hloads⟩
      refine ⟨file, ?_, fun j other hj => ?_, hloads.imp_right ?_⟩
      · have hedits : edits { s with tasks := s.tasks ++ [⟨job, .arriving⟩] } = s.edits := by
          rw [edits, List.filterMap_append]
          exact List.append_nil _
        rw [hedits]
        exact hserial
      · rcases hget j other hj with hj | hpc
        · exact hprepared j other hj
        · rw [hpc]
          trivial
      · rintro ⟨hsame, j, other, hj, hopen⟩
        exact ⟨hsame, j, other, hold hj, hopen⟩

/-- A step of a task, from a sound state. -/
theorem Sound.taskStep (h : s.Sound env start) {action : TaskAction}
    (hstep : State.step env s (.task i action) = some s') (hbetween : s'.between = true) :
    s'.Sound env start ∧ ∃ task pc', s.tasks[i]? = some task ∧
      s'.tasks = s.tasks.set i { task with pc := pc' } ∧
      (env.temporary ≠ env.fileName → ∃ file file', s.Serves env start file ∧
        s'.Serves env start file' ∧ Effect env s s' file pc' file') := by
  obtain ⟨task, hi, hstep⟩ := Option.bind_eq_some_iff.mp hstep
  obtain ⟨pc', htasks, hmoved, hlocks⟩ := taskStep_moved hstep
  have hlocked := h.locked.moved hi htasks hlocks
  have halone := alone_of_between hlocked hbetween
  rcases h.file with hbroken | ⟨file, hserves⟩
  · refine ⟨⟨hlocked, halone, .inl ?_⟩, task, pc', hi, htasks, fun hne => ?_⟩
    · exact hbroken.moved hi htasks (edit?_of_moved hmoved).2
    · exact absurd hbroken.1 hne
  · rcases hserves.moved hi htasks hmoved h.alone halone with hbroken | ⟨file', hserves', heffect⟩
    · exact ⟨⟨hlocked, halone, .inl hbroken⟩, task, pc', hi, htasks,
        fun hne => absurd hbroken.1 hne⟩
    · exact ⟨⟨hlocked, halone, .inr ⟨file', hserves'⟩⟩, task, pc', hi, htasks,
        fun _ => ⟨file, file', hserves, hserves', heffect⟩⟩

/-- **Every run is sound.** -/
theorem sound_of_reaches (hstart : loadCredentials env files none = .ok start)
    (hrun : Runs.Reaches (State.step env) (Between env) (State.start files) s) :
    s.Sound env start := by
  refine hrun.invariant (I := Sound env start) (sound_start hstart) ?_
  intro s action s' hs hbetween hstep
  cases action with
  | arrive job =>
      cases hstep
      exact hs.arrive job
  | task i action =>
      rw [Between, hstep, Option.all_some] at hbetween
      exact (hs.taskStep hstep hbetween).1

/-- The file can be loaded unless it is the temporary file as well. -/
theorem Serves.load (h : s.Serves env start file) (hne : env.temporary ≠ env.fileName) :
    loadCredentials env s.files none = .ok file :=
  h.loads.resolve_right fun hright => hne hright.1

/-- What was reported stays so. -/
theorem Reports.reaches {t : State} {outcome : Outcome} (h : s.Reports i outcome)
    (hrun : Runs.Reaches (State.step env) (Between env) s t) : t.Reports i outcome := by
  refine hrun.invariant (I := fun t => t.Reports i outcome) h ?_
  rintro s action s' ⟨job, hi⟩ - hstep
  refine ⟨job, ?_⟩
  cases action with
  | arrive other =>
      cases hstep
      exact Tasks.spawn_old hi _
  | task j action =>
      obtain ⟨task, hj, hstep⟩ := Option.bind_eq_some_iff.mp hstep
      obtain ⟨pc', htasks, hmoved, -⟩ := taskStep_moved hstep
      rw [htasks, Tasks.getElem?_replace hj, if_neg]
      · exact hi
      · rintro rfl
        cases hj.symm.trans hi
        have hended := (edit?_of_moved hmoved).2
        cases hended

theorem Reports.unique {outcome outcome' : Outcome} (h : s.Reports i outcome)
    (h' : s.Reports i outcome') : outcome = outcome' := by
  obtain ⟨job, hi⟩ := h
  obtain ⟨job', hi'⟩ := h'
  cases hi.symm.trans hi'
  rfl

/-- The table of the file is updated at the user an edit names. -/
def Updated (env : Env) (edit : Edit) (s s' : State) : Prop :=
  ∃ file file', loadCredentials env s.files none = .ok file ∧
    loadCredentials env s'.files none = .ok file' ∧
    passwords file' = Function.update (passwords file) edit.username edit.password?

/-- **The credential file.**  In every run in which resets come between the requests the file is
accepted throughout.  A task that reports an error has not changed it by any of its steps; the step
with which a task reports success changes the user the task names and no other; and there are no
other steps that change it. -/
theorem credentials_file {env : Env} (hextension : extension env.fileName ≠ some "tmp".toList)
    {files : Files (List Char)} {start : AdminCredentialsFile}
    (hstart : loadCredentials env files none = .ok start) {s : State}
    (hrun : Runs.Reaches (State.step env) (Between env) (State.start files) s) :
    (∃ file, loadCredentials env s.files none = .ok file ∧ Accepted file) ∧
    ∀ i action s' t, State.step env s (.task i action) = some s' →
      Between env s (.task i action) → Runs.Reaches (State.step env) (Between env) s' t →
      (∀ outcome, t.Reports i outcome → outcome.isError = true →
        s'.files.read env.fileName = s.files.read env.fileName) ∧
      (∀ outcome edit, s'.Reports i outcome → outcome.edit? = some edit →
        Updated env edit s s') ∧
      (s'.files.read env.fileName ≠ s.files.read env.fileName →
        ∃ outcome edit, s'.Reports i outcome ∧ outcome.edit? = some edit) := by
  have hne : env.temporary ≠ env.fileName := fun h => hextension (temporary_eq_iff.mp h)
  have hsound := sound_of_reaches hstart hrun
  constructor
  · rcases hsound.file with hbroken | ⟨file, hserves⟩
    · exact absurd hbroken.1 hne
    · exact ⟨file, hserves.load hne, accepted_of_loadCredentials (hserves.load hne)⟩
  · intro i action s' t hstep hbetween hlater
    rw [Between, hstep, Option.all_some] at hbetween
    obtain ⟨-, task, pc', hi, htasks, heffect⟩ := hsound.taskStep hstep hbetween
    obtain ⟨file, file', hserves, hserves', heffect⟩ := heffect hne
    have hi' : s'.tasks[i]? = some { task with pc := pc' } := htasks ▸ Tasks.replace_self hi _
    cases heffect with
    | kept hedit hread =>
        refine ⟨fun _ _ _ => hread hne, ?_, fun h => absurd (hread hne) h⟩
        rintro outcome edit ⟨job, hreport⟩ hsome
        cases hi'.symm.trans hreport
        rw [Pc.edit?, hsome] at hedit
        cases hedit
    | @edited edit _ hpc happly hload =>
        have hreport : s'.Reports i edit.outcome := ⟨task.job, by rw [hi', hpc]⟩
        refine ⟨fun outcome houtcome herror => ?_, fun outcome other houtcome hother => ?_,
          fun _ => ⟨_, edit, hreport, edit.edit?_outcome⟩⟩
        · rw [(houtcome.unique (hreport.reaches hlater)), edit.isError_outcome] at herror
          cases herror
        · rw [houtcome.unique hreport, edit.edit?_outcome] at hother
          cases hother
          exact ⟨file, file', hserves.load hne, hload, Edit.apply_passwords happly⟩

end State

/-! ### Samples -/

open TomlText in
/-- `toml` for texts that need no escapes. -/
def sampleToml : Toml where
  toString := fun file =>
    let pairs := file.users.map fun user => (user.username, user.password)
    if pairs.all (fun pair => plain pair.1 && plain pair.2) then
      .ok (document (pairLines "[[users]]" "username" "password" pairs))
    else .error "unsupported text"
  fromStr := fun contents =>
    match readPairs "[[users]]" "username" "password" (documentLines contents) with
    | some pairs => .ok (.multiple ⟨pairs.map fun pair => ⟨pair.1, pair.2⟩⟩)
    | none => .error "missing field"
  fromStr_toString := by
    intro file contents h
    dsimp only at h
    split_ifs at h with hplain
    cases h
    rw [readPairs_document (by decide) (by decide) (by decide) hplain]
    simp [Function.comp_def]

/-- The file of one user. -/
def adminText : String :=
  "[[users]]\nusername = \"admin\"\npassword = \"secret\"\n"

/-- The server with a token, and a name of the credential file. -/
def sampleServer (fileName : String) : Env :=
  ⟨sampleToml, sampleSessionCrates, some (utf8 ['t']), ⟨"", "", fileName.toList⟩⟩

/-- A directory with one file. -/
def directory (fileName contents : String) : Files (List Char) :=
  let empty : Files (List Char) := ⟨∅, [], by simp, by simp⟩
  let opened := empty.create fileName.toList
  opened.1.write opened.2 0 (asBytes contents)

/-- A request to add a user, up to its load. -/
def addActions (i : Nat) : List Action :=
  [.task i (.authorize none 0), .task i .acquire, .task i (.load none)]

/-- A write of so many bytes, up to its rename. -/
def writeActions (i n : Nat) : List Action :=
  [.task i (.openTemporary none), .task i (.write n), .task i (.sync none)]

/-- A user to be added. -/
def addBob : Change := .add "bob".toList "pass".toList

/-- The request for it. -/
def addJob : Job := .change ⟨some "Bearer t".toList, []⟩ addBob

namespace State

/-- A request that adds a user. -/
theorem credentials_file_add : ∃ s s',
    Runs.run (State.step (sampleServer "admin.toml"))
        (State.start (directory "admin.toml" adminText))
        (.arrive addJob :: addActions 0 ++ writeActions 0 94) = some s ∧
      State.step (sampleServer "admin.toml") s (.task 0 (.rename none)) = some s' ∧
      Updated (sampleServer "admin.toml") (.change addBob) s s' := by
  have hrun : Runs.Reaches (State.step (sampleServer "admin.toml"))
      (Between (sampleServer "admin.toml"))
      (State.start (directory "admin.toml" adminText)) _ :=
    Runs.reaches_of_run (.arrive addJob :: addActions 0 ++ writeActions 0 94) .refl rfl
  have hstart : loadCredentials (sampleServer "admin.toml")
      (directory "admin.toml" adminText) none = .ok ⟨[sampleAdmin]⟩ := rfl
  have hstep := (credentials_file (by decide) hstart hrun).2 0 (.rename none) _ _ rfl rfl .refl
  exact ⟨_, _, rfl, rfl, hstep.2.1 (.changed addBob addBob.message) _ ⟨_, rfl⟩ rfl⟩

/-- **A path with the extension `tmp`.**  The temporary file is the credential file: once it is open
the credentials are gone, and a request whose write fails leaves them so. -/
theorem credentials_file_tmp : ∃ s t,
    loadCredentials (sampleServer "admin.tmp") (directory "admin.tmp" adminText) none =
        .ok ⟨[sampleAdmin]⟩ ∧
      Runs.Reaches (State.step (sampleServer "admin.tmp")) (Between (sampleServer "admin.tmp"))
        (State.start (directory "admin.tmp" adminText)) s ∧
      (∀ file, loadCredentials (sampleServer "admin.tmp") s.files none ≠ .ok file) ∧
      State.step (sampleServer "admin.tmp") s
        (.task 0 (.writeError "No space left on device (os error 28)")) = some t ∧
      t.Reports 0 (.refused ⟨.internalServerError, "No space left on device (os error 28)"⟩) ∧
      t.files.read "admin.tmp".toList ≠
        (directory "admin.tmp" adminText).read "admin.tmp".toList := by
  have hrun : Runs.Reaches (State.step (sampleServer "admin.tmp"))
      (Between (sampleServer "admin.tmp"))
      (State.start (directory "admin.tmp" adminText)) _ :=
    Runs.reaches_of_run (.arrive addJob :: addActions 0 ++ [.task 0 (.openTemporary none)])
      .refl rfl
  refine ⟨_, _, rfl, hrun, fun file h => ?_, rfl, ⟨_, rfl⟩, by decide⟩
  cases h

end State

end SingBoxMini.Admin.Credentials
