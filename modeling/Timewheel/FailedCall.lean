import Timewheel.AllOrNothing
import Timewheel.Sync

/-!
# Failed calls of the plain service

The server is set up with `taskService`, which has no log and no lock, and
orders its two writes differently in each operation. `Create`, `Update` and
`Pause` write to the table first and either clean up after the wheel or do not
report what it says, so that a call that fails changes nothing. `Delete` and
`Disable` take the task out of the wheel first and then may fail at the table.
`Enable` cleans up with a second change of the status, which writes time stamps,
and `Resume` does not clean up at all.

`unchanged_iff` says, for each operation, exactly when a failed call leaves the
live row and what the wheels hold as they were, as long as what cleans up does
not fail.

Each operation is followed to where it fails. What has been written by then is
what has to be undone, and it either is (`Create`, `Enable`), or there is
nothing to undo (`Update`, `Pause`), or it is not (`Delete`, `Disable`,
`Resume`).
-/

namespace Timewheel

open MultiLevelTimeWheel
open AtomicTaskService

namespace TaskService

/-! ## The property -/

/-- The ID a call is about. The property is about one ID; the others are never
touched. -/
def taskID : Operation → String
  | .create req => req.id
  | .call id _ => id

/-- **A failed call changes nothing**: when it returns an error, the live row
and what the wheels hold are what they were. A call that succeeds may change
what it likes. -/
def Unchanged (id : String) (s : ServiceState) (r : Option Err × ServiceState) : Prop :=
  r.1 ≠ none → r.2.tasks.live id = s.tasks.live id ∧ r.2.timeWheel.held id = s.timeWheel.held id

/-- **The condition.** `Delete` and `Disable` have nothing to take out of the
wheel when the table is going to fail; the second change of the status in
`Enable` happens to write what was there; and `Resume` is not rejected by the
wheel. Each clause says that the step which would do harm is not reached, or
does none. -/
def Harmless (s : ServiceState) (env : ServiceEnv) : Operation → Prop
  | .create _ => True
  | .call _ (.update _) => True
  | .call _ .pause => True
  | .call id .delete => env.db.fault = true → (s.timeWheel.held id).reached = none
  | .call id .disable => ∀ task, env.get.fault = false → s.tasks.live id = some task →
      task.enabled = true → env.db.fault = true → (s.timeWheel.held id).reached = none
  | .call id .enable => ∀ task, env.get.fault = false → s.tasks.live id = some task →
      env.db.fault = false → Call.enable.WheelFails s.timeWheel id task →
        RestoresStatus task true task.paused env
  | .call id .resume => ∀ task, env.get.fault = false → s.tasks.live id = some task →
      env.db.fault = false → ¬ Call.resume.WheelFails s.timeWheel id task

variable {g : Gorm} {s : ServiceState} {env : ServiceEnv} {id : String} {task : TaskModel}
  {r : Option Err × ServiceState}

/-! ## The operations -/

/-- A call that succeeds need not be looked at, -/
theorem unchanged_ok (h : r.1 = none) : Unchanged id s r := fun hne => absurd h hne

/-- nor one that fails before it has done anything. -/
theorem unchanged_self (err : Option Err) : Unchanged id s (err, s) := fun _ => ⟨rfl, rfl⟩

/-- A call of the database that fails returns an error. -/
theorem repoUpdateStatus_fault (hg : g.Documented) {e : DbEnv} (tasks : TaskTable) (id : String)
    (enabled paused : Bool) (hf : e.fault = true) :
    ∃ err, repoUpdateStatus g tasks id enabled paused e = .error err :=
  hg.updates_fault _ _ _ _ _ hf

/-- **`Create`** cleans up: the row it leaves is not live. The ID was free, and
is free again as far as `GetByID` can see. -/
theorem unchanged_create (hg : g.Documented) (hm : s.timeWheel.Keyed)
    (hrollback : env.rollback.fault = false) (req : TaskCreateRequest) :
    Unchanged req.id s (errOnly (TaskService.create g s req env)) := by
  cases hget : repoGetByID g s.tasks req.id env.get with
  | ok row =>
    unfold TaskService.create
    rw [hget]
    exact unchanged_self _
  | error err =>
    have hattempted : Attempted (createSteps g req) s env (TaskService.create g s req env) :=
      attempted_create hget
    generalize TaskService.create g s req env = r at hattempted ⊢
    cases hattempted with
    | refused _ _ => exact fun _ => ⟨rfl, rfl⟩
    | done _ _ _ => exact unchanged_ok rfl
    | @undone _ _ timeWheel twErr _ _ db tw =>
      obtain ⟨-, hnew, rfl, rfl⟩ := (repoCreate_ok hg).mp db
      have hheld : timeWheel.held req.id = s.timeWheel.held req.id := by
        obtain ⟨-, hheld⟩ := addToTimeWheel_fails hm (req.toTaskModel.created env.db.stamp) env.add
        unfold AtomicTaskService.createSteps at tw
        dsimp only at tw
        split_ifs at tw with hen
        · rw [tw] at hheld
          exact hheld (Option.some_ne_none twErr)
        · cases tw
      have hnone : s.tasks.live req.id = none := by
        unfold TaskTable.live
        rw [show s.tasks req.id = none from hnew]
        rfl
      have hdelete : repoDelete g (Function.update s.tasks req.id
          (some (req.toTaskModel.created env.db.stamp))) req.id env.rollback = .ok _ :=
        repoDelete_update hg hrollback rfl
      refine fun _ => ⟨?_, hheld⟩
      show TaskTable.live (ignoreErr _ (repoDelete g (Function.update s.tasks req.id
        (some (req.toTaskModel.created env.db.stamp))) req.id env.rollback)) req.id = _
      rw [hdelete, hnone]
      exact TaskTable.live_update_deleted (Option.some_ne_none _) _ _

/-- **`Update`** reports what the table says, and has done nothing then. What
the wheel says is ignored. -/
theorem unchanged_update (req : TaskUpdateRequest) :
    Unchanged id s (errOnly (TaskService.update g s id req env)) := by
  unfold TaskService.update
  cases repoGetByID g s.tasks id env.get with
  | error err => exact unchanged_self _
  | ok existing =>
    dsimp only
    cases repoUpdate g s.tasks (req.apply existing) env.db with
    | error err => exact unchanged_self _
    | ok r =>
      obtain ⟨existing, tasks⟩ := r
      dsimp only
      split_ifs
      · exact unchanged_ok rfl
      · exact unchanged_ok rfl

/-- **`Pause`** too. The order of the two writes is the same. -/
theorem unchanged_pause : Unchanged id s (TaskService.pause g s id env) := by
  unfold TaskService.pause
  cases repoGetByID g s.tasks id env.get with
  | error err => exact unchanged_self _
  | ok task =>
    dsimp only
    split_ifs
    · exact unchanged_ok rfl
    · cases repoUpdateStatus g s.tasks id task.enabled true env.db with
      | error err => exact unchanged_self _
      | ok tasks => exact unchanged_ok rfl

/-- What is taken out of the wheel is there again only if nothing was. Nobody
puts it back. -/
theorem unchanged_removed_iff (hm : s.timeWheel.Keyed) (err : Err) :
    Unchanged id s (some err, { s with timeWheel := (s.timeWheel.removeTask id).2 })
      ↔ (s.timeWheel.held id).reached = none := by
  obtain ⟨-, hheld, -⟩ := removeTask_spec hm id
  rw [← Held.remove_eq_self, ← hheld]
  exact ⟨fun h => (h (Option.some_ne_none err)).2, fun h _ => ⟨rfl, h⟩⟩

/-- **`Delete`** takes the task out of the wheel first. If the table then fails,
the row is there and the task is gone. -/
theorem unchanged_delete_iff (hg : g.Documented) (hm : s.timeWheel.Keyed) :
    Unchanged id s (TaskService.delete g s id env) ↔ Harmless s env (.call id .delete) := by
  unfold TaskService.delete Harmless
  dsimp only
  cases hf : env.db.fault with
  | true =>
    obtain ⟨err, herr⟩ : ∃ err, repoDelete g s.tasks id env.db = .error err :=
      hg.delete_fault _ _ _ hf
    rw [herr, unchanged_removed_iff hm]
    exact ⟨fun h _ => h, fun h => h rfl⟩
  | false =>
    rw [(repoDelete_ok hg).mpr ⟨hf, rfl⟩]
    exact iff_of_true (unchanged_ok rfl) (fun h => absurd h Bool.false_ne_true)

/-- **`Disable`** as well. The row still says that it is enabled. -/
theorem unchanged_disable_iff (hg : g.Documented) (hm : s.timeWheel.Keyed) :
    Unchanged id s (TaskService.disable g s id env) ↔ Harmless s env (.call id .disable) := by
  unfold TaskService.disable Harmless
  cases hget : repoGetByID g s.tasks id env.get with
  | error err => exact iff_of_true (unchanged_self _) (forall_of_read_error hg hget _)
  | ok task =>
    have hlive := ((repoGetByID_ok hg).mp hget).2
    refine Iff.trans ?_ (forall_of_read_ok hg hget _).symm
    dsimp only
    by_cases hen : task.enabled = false
    · rw [if_pos hen]
      refine iff_of_true (unchanged_ok rfl) (fun h => ?_)
      exact absurd (hen.symm.trans h) Bool.false_ne_true
    · rw [if_neg hen]
      cases hf : env.db.fault with
      | true =>
        obtain ⟨err, herr⟩ := repoUpdateStatus_fault hg s.tasks id false task.paused hf
        rw [herr]
        refine (unchanged_removed_iff hm err).trans ⟨fun h _ _ => h, fun h => ?_⟩
        exact h (eq_true_of_ne_false hen) rfl
      | false =>
        rw [repoUpdateStatus_live hg hf hlive]
        exact iff_of_true (unchanged_ok rfl) (fun _ h => absurd h Bool.false_ne_true)

/-- **`Enable`** cleans up with a second change of the status. The time at which it was
enabled, which the first one has written, is not taken back. -/
theorem unchanged_enable_iff (hg : g.Documented) (hm : s.timeWheel.Keyed) (ht : s.tasks.Keyed)
    (hrollback : env.rollback.fault = false) :
    Unchanged id s (TaskService.enable g s id env) ↔ Harmless s env (.call id .enable) := by
  unfold TaskService.enable Harmless
  cases hget : repoGetByID g s.tasks id env.get with
  | error err => exact iff_of_true (unchanged_self _) (forall_of_read_error hg hget _)
  | ok task =>
    have hlive := ((repoGetByID_ok hg).mp hget).2
    obtain ⟨hrow, hdel⟩ := TaskTable.live_eq_some.mp hlive
    obtain rfl := ht id task hrow
    refine Iff.trans ?_ (forall_of_read_ok hg hget _).symm
    unfold Call.WheelFails
    dsimp only
    cases hen : task.enabled with
    | true =>
      refine iff_of_true (unchanged_ok rfl) (fun _ h => ?_)
      exact absurd h.1 Bool.true_eq_false.mp
    | false =>
      rw [if_neg Bool.false_ne_true]
      cases hf : env.db.fault with
      | true =>
        obtain ⟨err, herr⟩ := repoUpdateStatus_fault hg s.tasks task.id true task.paused hf
        rw [herr]
        exact iff_of_true (unchanged_self _) (fun h => (nomatch h))
      | false =>
        rw [repoUpdateStatus_live hg hf hlive]
        dsimp only
        -- the flags of the row are not looked at
        rw [show addToTimeWheel s.timeWheel { task with enabled := true } env.add
          = addToTimeWheel s.timeWheel task env.add from rfl]
        obtain ⟨hfails, hheld⟩ := addToTimeWheel_fails hm task env.add
        generalize addToTimeWheel s.timeWheel task env.add = added at hfails hheld ⊢
        obtain ⟨err, timeWheel⟩ := added
        cases hp : task.paused with
        | true =>
          refine iff_of_true (unchanged_ok rfl) (fun _ h => ?_)
          exact absurd h.2.1 Bool.true_eq_false.mp
        | false =>
          rw [if_neg Bool.false_ne_true]
          cases err with
          | none =>
            refine iff_of_true (unchanged_ok rfl) (fun _ h => ?_)
            exact absurd rfl (hfails.mpr h.2.2)
          | some err =>
            have hne := Option.some_ne_none err
            dsimp only
            rw [repoUpdateStatus_update hg hrollback (show (task.written true false
              env.db).deletedAt = none from hdel)]
            unfold Unchanged ignoreErr
            dsimp only
            rw [TaskTable.live_update (show ((task.written true false env.db).written false false
              env.rollback).deletedAt = none from hdel), hlive, Option.some.injEq,
              ← restoresStatus_iff, hen, hp]
            exact ⟨fun h _ _ => (h hne).1,
              fun h _ => ⟨h rfl ⟨rfl, rfl, hfails.mp hne⟩, hheld hne⟩⟩

/-- What `Resume` does once the row is written. Whatever the wheel says. -/
theorem resume_written (hg : g.Documented) (hf : env.db.fault = false)
    (hget : repoGetByID g s.tasks task.id env.get = .ok task) (hp : task.paused = true) :
    (TaskService.resume g s task.id env).1
        = ((resumeSteps g task.id task).twOp task s.timeWheel env).1
      ∧ (TaskService.resume g s task.id env).2.tasks
        = Function.update s.tasks task.id (some (task.written task.enabled false env.db)) := by
  unfold TaskService.resume resumeSteps
  rw [hget]
  dsimp only
  rw [hp, if_neg (Bool.true_eq_false.mp ·),
    repoUpdateStatus_live hg hf ((repoGetByID_ok hg).mp hget).2]
  dsimp only
  cases task.enabled with
  | false => exact ⟨rfl, rfl⟩
  | true =>
    rw [if_pos rfl, if_pos rfl]
    cases s.timeWheel.resumeTask task.id env.resumeAt with
    | mk err timeWheel => cases err <;> exact ⟨rfl, rfl⟩

/-- **`Resume`** does not: the row it leaves is not paused. The client is told
that it failed, and the row says that it runs. -/
theorem unchanged_resume_iff (hg : g.Documented) (hm : s.timeWheel.Keyed) (ht : s.tasks.Keyed) :
    Unchanged id s (TaskService.resume g s id env) ↔ Harmless s env (.call id .resume) := by
  unfold Harmless
  cases hget : repoGetByID g s.tasks id env.get with
  | error err =>
    refine iff_of_true ?_ (forall_of_read_error hg hget _)
    unfold TaskService.resume
    rw [hget]
    exact unchanged_self _
  | ok task =>
    have hlive := ((repoGetByID_ok hg).mp hget).2
    obtain ⟨hrow, hdel⟩ := TaskTable.live_eq_some.mp hlive
    obtain rfl := ht id task hrow
    refine Iff.trans ?_ (forall_of_read_ok hg hget _).symm
    -- a row that is not paused is left alone, and the call succeeds
    cases hp : task.paused with
    | false =>
      refine iff_of_true ?_ (fun _ h => Bool.false_ne_true (hp.symm.trans h.1))
      unfold TaskService.resume
      rw [hget]
      dsimp only
      rw [if_pos hp]
      exact unchanged_ok rfl
    | true =>
      cases hf : env.db.fault with
      | true =>
        refine iff_of_true ?_ (fun h => (nomatch h))
        obtain ⟨err, herr⟩ := repoUpdateStatus_fault hg s.tasks task.id task.enabled false hf
        unfold TaskService.resume
        rw [hget]
        dsimp only
        rw [hp, if_neg (Bool.true_eq_false.mp ·), herr]
        exact unchanged_self _
      | false =>
        obtain ⟨herr, htasks⟩ := resume_written hg hf hget hp
        have hfails := (resume_fails (g := g) hm task env).1
        rw [← herr] at hfails
        unfold Call.WheelFails
        constructor
        -- a failure in the wheel leaves the row without its flag, which has been
        -- written and is not taken back
        · intro h _ hwheel
          have hback := (h (hfails.mpr hwheel.2)).1
          rw [htasks, hlive, TaskTable.live_update (show (task.written task.enabled false
            env.db).deletedAt = none from hdel)] at hback
          have hpaused := congrArg TaskModel.paused (Option.some.inj hback)
          exact Bool.false_ne_true (hpaused.trans hp)
        · intro h
          refine unchanged_ok ?_
          by_contra hne
          exact h rfl ⟨hp, hfails.mp hne⟩

/-- **Exactly when a failed call changes nothing.** The cases are the theorems
above. What the condition leaves open is the failure of the clean-up itself,
which no order of writes could help. -/
theorem unchanged_iff (hg : g.Documented) (hm : s.timeWheel.Keyed) (ht : s.tasks.Keyed)
    (hrollback : env.rollback.fault = false) (op : Operation) :
    Unchanged (taskID op) s (Service.taskService.call g s op env) ↔ Harmless s env op := by
  cases op with
  | create req => exact iff_of_true (unchanged_create hg hm hrollback req) trivial
  | call id c =>
    cases c with
    | update req => exact iff_of_true (unchanged_update req) trivial
    | enable => exact unchanged_enable_iff hg hm ht hrollback
    | disable => exact unchanged_disable_iff hg hm
    | pause => exact iff_of_true unchanged_pause trivial
    | resume => exact unchanged_resume_iff hg hm ht
    | delete => exact unchanged_delete_iff hg hm

/-! ### Two failures -/

/-- The state with one task is in step. So the failures below are not due to the
state they start from. -/
theorem inSync_scheduled : scheduled.InSync :=
  (settles_create documented_tableGorm inSync_freshService (calm_calmEnv 0) .atomicTaskService
    (everySecondRequest "a")).inSync inSync_freshService (by decide +kernel)

/-- A request the wheel rejects. -/
def rejectedRequest : TaskCreateRequest := { everySecondRequest "b" with mode := 2, times := 0 }

/-- A creation that is rejected is cleaned up. -/
theorem unchanged_of_rejected :
    (Service.taskService.call tableGorm scheduled (.create rejectedRequest) (calmEnv 1)).1 ≠ none
      ∧ Unchanged "b" scheduled
        (Service.taskService.call tableGorm scheduled (.create rejectedRequest) (calmEnv 1)) :=
  ⟨by decide +kernel, (unchanged_iff documented_tableGorm inSync_scheduled.keyed
    inSync_scheduled.tasks rfl (.create rejectedRequest)).mpr trivial⟩

/-- The same call at a table that cannot be written. -/
def unwritableEnv : ServiceEnv := { calmEnv 1 with db := { (calmEnv 1).db with fault := true } }

/-- A deletion that fails at the table has taken the task out of the wheel. -/
theorem not_unchanged_of_delete :
    scheduled.InSync ∧ unwritableEnv.rollback.fault = false
      ∧ ¬ Unchanged "a" scheduled
        (Service.taskService.call tableGorm scheduled (.call "a" .delete) unwritableEnv) := by
  refine ⟨inSync_scheduled, rfl, fun h => ?_⟩
  obtain ⟨-, hheld⟩ := h (by decide +kernel)
  have hnormal := congrFun hheld .normal
  revert hnormal
  decide +kernel

end TaskService

end Timewheel
