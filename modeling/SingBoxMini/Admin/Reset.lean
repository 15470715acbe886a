import SingBoxMini.Admin.AccountRuns

/-!
# Admin — Reset

The reset command beside the requests of the running server.  The server has a lock for its own
writers, and the command does not have it.

* `serial_runs`: as long as the command and a request are not together between their read and their
  rename, the file is what the edits give one after the other.
* `reset_loses_update`: otherwise the command writes back what it has read, and a request that has
  succeeded meanwhile is undone.
-/

namespace SingBoxMini.Admin.Credentials
open Bytes Text Files

namespace State

/-- **The file is what the edits give one after the other**, when all tasks have succeeded and no
reset was together with another task between read and rename.  So a user whom only one task has
edited is left as that task made it. -/
theorem serial_runs {env : Env} {files : Files (List Char)} {start : AdminCredentialsFile}
    (hstart : loadCredentials env files none = .ok start) {s : State}
    (hrun : Runs.Reaches (State.step env) (Between env) (State.start files) s)
    (hdone : ∀ task ∈ s.tasks, ∃ outcome, task.pc = .ended outcome ∧ outcome.isError = false) :
    ∃ order file, order.Perm s.edits ∧ applyAll start order = .ok file ∧
      loadCredentials env s.files none = .ok file ∧
      ∀ edit ∈ s.edits, (∀ other ∈ s.edits, other.username = edit.username → other = edit) →
        passwords file edit.username = edit.password? := by
  rcases (sound_of_reaches hstart hrun).file with ⟨-, i, task, hi, hfailed⟩ | ⟨file, hserves⟩
  · obtain ⟨outcome, hpc, herror⟩ := hdone task (List.mem_of_getElem? hi)
    rw [hpc, Pc.hasFailed, herror] at hfailed
    cases hfailed
  · obtain ⟨order, horder, happly⟩ := hserves.serial
    refine ⟨order, file, horder, happly, ?_, fun edit hedit honly => ?_⟩
    · refine hserves.loads.resolve_right ?_
      rintro ⟨-, i, task, hi, hopen⟩
      obtain ⟨outcome, hpc, -⟩ := hdone task (List.mem_of_getElem? hi)
      rw [hpc] at hopen
      cases hopen
    · exact passwords_applyAll happly (horder.mem_iff.mpr hedit) fun other hother =>
        honly other (horder.mem_iff.mp hother)

/-- The bytes of a password. -/
def resetJob : Job := .reset "admin".toList (.ok (Vector.replicate 24 0))

set_option maxRecDepth 4000 in
/-- A reset and then a request, one after the other. -/
theorem serial_runs_reset_add : ∃ s file,
    Runs.run (State.step (sampleServer "admin.toml"))
        (State.start (directory "admin.toml" adminText))
        ([.arrive resetJob, .arrive addJob, .task 0 .generate, .task 0 (.load none)] ++
          writeActions 0 91 ++ [.task 0 (.rename none)] ++ addActions 1 ++ writeActions 1 136 ++
          [.task 1 (.rename none)]) = some s ∧
      loadCredentials (sampleServer "admin.toml") s.files none = .ok file ∧
      passwords file "bob".toList = some "pass".toList := by
  have hrun : Runs.Reaches (State.step (sampleServer "admin.toml"))
      (Between (sampleServer "admin.toml"))
      (State.start (directory "admin.toml" adminText)) _ :=
    Runs.reaches_of_run ([.arrive resetJob, .arrive addJob, .task 0 .generate,
      .task 0 (.load none)] ++ writeActions 0 91 ++ [.task 0 (.rename none)] ++ addActions 1 ++
      writeActions 1 136 ++ [.task 1 (.rename none)]) .refl rfl
  have hstart : loadCredentials (sampleServer "admin.toml")
      (directory "admin.toml" adminText) none = .ok ⟨[sampleAdmin]⟩ := rfl
  obtain ⟨order, file, -, -, hload, honly⟩ := serial_runs hstart hrun
    (List.forall_mem_cons.mpr ⟨⟨_, rfl, rfl⟩, List.forall_mem_singleton.mpr ⟨_, rfl, rfl⟩⟩)
  exact ⟨_, file, rfl, hload, honly (.change addBob) (by decide) (by decide)⟩

set_option maxRecDepth 4000 in
/-- **The reset undoes a request.**  It has read the file before the request adds a user, and
replaces it afterwards.  Both report success, and in no order would the user be missing. -/
theorem reset_loses_update : ∃ s file,
    Runs.run (State.step (sampleServer "admin.toml"))
        (State.start (directory "admin.toml" adminText))
        ([.arrive resetJob, .arrive addJob, .task 0 .generate, .task 0 (.load none)] ++
          addActions 1 ++ writeActions 1 94 ++ [.task 1 (.rename none)] ++ writeActions 0 91 ++
          [.task 0 (.rename none)]) = some s ∧
      (∀ task ∈ s.tasks, ∃ outcome, task.pc = .ended outcome ∧ outcome.isError = false) ∧
      loadCredentials (sampleServer "admin.toml") s.files none = .ok file ∧
      passwords file "bob".toList = none ∧
      ∀ order file', order.Perm s.edits → applyAll ⟨[sampleAdmin]⟩ order = .ok file' →
        passwords file' "bob".toList = some "pass".toList := by
  refine ⟨_, _, rfl, ?_, rfl, rfl, fun order file' horder happly => ?_⟩
  · exact List.forall_mem_cons.mpr ⟨⟨_, rfl, rfl⟩, List.forall_mem_singleton.mpr ⟨_, rfl, rfl⟩⟩
  · have horder : order.Perm [.reset ⟨"admin".toList, List.replicate 48 '0'⟩, .change addBob] :=
      horder
    have honly : ∀ other ∈ order, other.username = (Edit.change addBob).username →
        other = .change addBob := by
      intro other hother hname
      rcases List.mem_pair.mp (horder.mem_iff.mp hother) with rfl | rfl
      · exact absurd hname (by decide)
      · rfl
    exact passwords_applyAll happly (horder.mem_iff.mpr (by simp)) honly

end State

end SingBoxMini.Admin.Credentials
