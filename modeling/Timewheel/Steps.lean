import Timewheel.Held
import Timewheel.Service

/-!
# A call as a step on one row and what is held under it

What a call on an existing task does without failures depends on little: on the
row it reads, less its time stamps, and on what the wheels hold under the ID.
`Call.rowAfter` is the row it leaves and `Call.wheelStep` what it does in the
wheels. `Call.steps_spec` connects the three steps of the call to the two: the
database step writes the one, the wheel step comes to the other, and the
rollback writes the row back.

The point is that rows and registrations are then two small data on which the
calls act by functions that can be evaluated. Whether one order of two calls
gives what another gives, or whether a failed call has left a trace, is a
question about these functions; the database, the three wheels and their pools
are out of the way once the connection is made. Time stamps are blanked out
for that reason: no two runs agree on them.
-/

namespace Timewheel

open TimeWheel (AddEnv)
open MultiLevelTimeWheel

/-! ## Rows without time stamps -/

namespace TaskModel

/-- The row with its time stamps blanked out. That it is soft-deleted stays. A
stamp that is absent stays absent only in `deletedAt`, which says something; the
others are shown to users and read by nobody else. -/
def timeless (row : TaskModel) : TaskModel :=
  { row with
    createdAt := Time.zero
    updatedAt := Time.zero
    enabledAt := none
    pausedAt := none
    deletedAt := row.deletedAt.map (fun _ => Time.zero) }

variable (row : TaskModel)

/-- What a call reads of a row is not among the stamps: its ID, -/
@[simp] theorem timeless_id : row.timeless.id = row.id := rfl

/-- whether it is enabled, -/
@[simp] theorem timeless_enabled : row.timeless.enabled = row.enabled := rfl

/-- whether it is paused, -/
@[simp] theorem timeless_paused : row.timeless.paused = row.paused := rfl

/-- and the task it is made into. -/
@[simp] theorem timeless_toTask : row.timeless.toTask = row.toTask := rfl

/-- Whether it is deleted can still be told. -/
@[simp] theorem timeless_deletedAt :
    row.timeless.deletedAt = row.deletedAt.map (fun _ => Time.zero) := rfl

/-- `updated_at` is a stamp, -/
@[simp] theorem timeless_touched (stamp : Time) : (row.touched stamp).timeless = row.timeless := rfl

/-- and writing the status writes two flags and stamps. -/
@[simp] theorem timeless_written (enabled paused : Bool) (env : DbEnv) :
    (row.written enabled paused env).timeless
      = { row.timeless with enabled := enabled, paused := paused } := rfl

/-- The status is written and written back. That is what a rollback does, and no
trace is left of it but the stamps. -/
theorem timeless_written_written (enabled paused : Bool) (env env' : DbEnv) :
    ((row.written enabled paused env).written row.enabled row.paused env').timeless
      = row.timeless := by
  rw [timeless_written, timeless_written]
  cases row
  rfl

/-- An insertion fills in defaults and stamps, -/
@[simp] theorem timeless_created (stamp : Time) :
    (row.created stamp).timeless = row.withDefaults.timeless := rfl

/-- and a request for an update says nothing of stamps. -/
@[simp] theorem apply_timeless (req : TaskUpdateRequest) :
    (req.apply row).timeless = req.apply row.timeless := rfl

end TaskModel

namespace TaskTable

/-- The live row of a table without time stamps. A row stays live or deleted. -/
theorem live_timeless (t : TaskTable) (id : String) :
    ((t id).map TaskModel.timeless).filter (fun row => row.deletedAt.isNone)
      = (t.live id).map TaskModel.timeless := by
  unfold live
  cases t id with
  | none => rfl
  | some row =>
    rw [Option.map_some, Option.filter_some, Option.filter_some, TaskModel.timeless_deletedAt,
      Option.isNone_map]
    cases row.deletedAt.isNone <;> rfl

end TaskTable

/-! ## Steps on what is held -/

namespace Held

/-- The checks let the task pass, and its place is free. The place is the wheel
of its priority. -/
def Takes (h : Held) (task : Task) : Prop :=
  accepts task = true ∧ h (levelOf task.priority) = none

instance (h : Held) (task : Task) : Decidable (h.Takes task) := inferInstanceAs (Decidable (_ ∧ _))

/-- `AddTask` in running wheels: whether it succeeds and what is held then. The
node is paused if the pool hands out a paused one. The result is `false` when
the wheel returns an error, whichever it is. -/
def add (h : Held) (task : Task) (paused : Bool) : Bool × Held :=
  if h.Takes task then (true, h.put (levelOf task.priority) ⟨normalised task, paused⟩)
  else (false, h)

/-- It succeeds if the task is taken, -/
theorem add_fst (h : Held) (task : Task) (paused : Bool) :
    (h.add task paused).1 = true ↔ h.Takes task := by
  unfold add
  by_cases ht : h.Takes task
  · rw [if_pos ht]
    exact iff_of_true rfl ht
  · rw [if_neg ht]
    exact iff_of_false Bool.false_ne_true ht

/-- and then the task is held as the checks leave it; -/
theorem add_of_takes {h : Held} {task : Task} (ht : h.Takes task) (paused : Bool) :
    h.add task paused = (true, h.put (levelOf task.priority) ⟨normalised task, paused⟩) :=
  if_pos ht

/-- otherwise nothing changes. -/
theorem add_of_not_takes {h : Held} {task : Task} (ht : ¬ h.Takes task) (paused : Bool) :
    h.add task paused = (false, h) := if_neg ht

/-- Whether the added node is paused can be seen. So the flag of a pooled node
is not a detail of the implementation. -/
theorem add_eq_add {h : Held} {task : Task} {b b' : Bool} (ht : h.Takes task) :
    h.add task b = h.add task b' ↔ b = b' := by
  constructor
  · intro heq
    rw [add_of_takes ht, add_of_takes ht, Prod.mk.injEq] at heq
    have hput := congrFun heq.2 (levelOf task.priority)
    rw [put_self, put_self] at hput
    exact congrArg Registration.paused (Option.some.inj hput)
  · rintro rfl
    rfl

end Held

namespace MultiLevelTimeWheel

variable {m : MultiLevelTimeWheel} {id : String}

/-- A call of the wheels for `id`, as a step on what is held. What is held under
the other IDs stays, what is held under `id` is the second part of the step, and
the error tells the first. -/
structure Does (m : MultiLevelTimeWheel) (id : String) (o : Bool × Held)
    (r : Option Err × MultiLevelTimeWheel) : Prop where
  touches : Touches m id r.2
  held : r.2.held id = o.2
  succeeds : r.1 = none ↔ o.1 = true

/-- Without a call. A call that has nothing to do in the wheels succeeds at it. -/
theorem does_nothing (h : Keyed m) (id : String) : Does m id (true, m.held id) (none, m) :=
  ⟨.refl h id, rfl, iff_of_true rfl rfl⟩

/-- `RemoveTask` reaches the first wheel that has the ID, -/
theorem does_removeTask (h : Keyed m) (id : String) :
    Does m id ((m.held id).reached.isSome, (m.held id).remove) (m.removeTask id) := by
  obtain ⟨htouch, hheld, herr⟩ := removeTask_spec h id
  exact ⟨htouch, hheld, herr.trans Option.isSome_iff_ne_none.symm⟩

/-- and so does `PauseTask`. -/
theorem does_pauseTask (h : Keyed m) (id : String) :
    Does m id ((m.held id).reached.isSome, (m.held id).setPaused true) (m.pauseTask id) := by
  obtain ⟨htouch, hheld, herr⟩ := pauseTask_spec h id
  exact ⟨htouch, hheld, herr.trans Option.isSome_iff_ne_none.symm⟩

/-- `AddTask` of the task of a row goes to the wheel of its priority. -/
theorem does_addToTimeWheel (h : Keyed m) (hrun : m.Running) (row : TaskModel) (env : AddEnv) :
    Does m row.id ((m.held row.id).add row.toTask (m.addsPaused row.toTask env))
      (addToTimeWheel m row env) := by
  obtain ⟨htouch, hheld, herr⟩ := addTask_spec h row.toTask env
  have hadm : m.Admits row.toTask ↔ (m.held row.id).Takes row.toTask :=
    ⟨fun hadm => ⟨hadm.1, hadm.2.2⟩, fun ht => ⟨ht.1, (hrun _).running, ht.2⟩⟩
  refine ⟨htouch, hheld.trans ?_, (herr.trans hadm).trans (Held.add_fst _ _ _).symm⟩
  by_cases ht : (m.held row.id).Takes row.toTask
  · rw [if_pos (hadm.mpr ht), Held.add_of_takes ht]
    rfl
  · rw [if_neg (fun h => ht (hadm.mp h)), Held.add_of_not_takes ht]
    rfl

/-- One call after another. The step of both is the one the second comes to in
the wheels the first has left. -/
theorem Does.then {o o' : Bool × Held} {r r' : Option Err × MultiLevelTimeWheel}
    (h : Does m id o r) (h' : Does r.2 id o' r') : Does m id o' r' :=
  ⟨h.touches.trans h'.touches, h'.held, h'.succeeds⟩

end MultiLevelTimeWheel

/-! ## The calls -/

namespace AtomicTaskService

/-- There is nothing to do. Then the call returns before the database is
written. -/
def Call.idle (c : Call) (row : TaskModel) : Bool :=
  match c with
  | .enable => row.enabled
  | .disable => !row.enabled
  | .pause => row.paused
  | .resume => !row.paused
  | .update _ => false
  | .delete => false

/-- The row the database step leaves. A deletion is soft, and its stamp is
blanked out. -/
def Call.rowAfter (c : Call) (row : TaskModel) : TaskModel :=
  match c with
  | .update req => req.apply row
  | .enable => { row with enabled := true }
  | .disable => { row with enabled := false }
  | .pause => { row with paused := true }
  | .resume => { row with paused := false }
  | .delete => { row with deletedAt := some Time.zero }

/-- The wheel step, if a node the pool hands out for it is paused or not. An
update takes the old node out only if the row asks for one; `Resume` of a
disabled task has nothing to do with the wheels. -/
def Call.wheelStep (c : Call) (row : TaskModel) (h : Held) (paused : Bool) : Bool × Held :=
  match c with
  | .update req =>
    if row.enabled && !row.paused then h.remove.add (req.apply row).toTask paused else (true, h)
  | .enable => if row.paused then (true, h) else h.add row.toTask paused
  | .disable => (h.reached.isSome, h.remove)
  | .pause => (h.reached.isSome, h.setPaused true)
  | .resume =>
    if row.enabled then
      if h.reached.isSome then (true, h.setPaused false) else h.add row.toTask paused
    else (true, h)
  | .delete => (h.reached.isSome, h.remove)

/-- The pool hands out a paused node for the wheel step. For an update that is
asked after the removal, which may have put a paused node on top of the pool. -/
def Call.addsPaused (c : Call) (m : MultiLevelTimeWheel) (id : String) (row : TaskModel)
    (env : AddEnv) : Bool :=
  match c with
  | .update req => (m.removeTask id).2.addsPaused (req.apply row).toTask env
  | _ => m.addsPaused row.toTask env

/-- **What the three steps of a call do** to the row of `id` and what is held
under it. After the rollback the row is as before, so a call that fails has
changed nothing but what the wheel step has, and stamps. -/
structure Call.Amounts (c : Call) (s : ServiceState) (id : String) (row : TaskModel)
    (env : ServiceEnv) (steps : AtomicSteps) (task row₁ row₂ : TaskModel) : Prop where
  db : steps.dbOp s.tasks env.db = .ok (task, Function.update s.tasks id (some row₁))
  written : row₁.timeless = c.rowAfter row.timeless
  wheel : Does s.timeWheel id
    (c.wheelStep row (s.timeWheel.held id) (c.addsPaused s.timeWheel id row env.add))
    (steps.twOp task s.timeWheel env)
  rollback : steps.rollbackDB (Function.update s.tasks id (some row₁)) env.rollback
    = .ok (Function.update s.tasks id (some row₂))
  restored : row₂.timeless = row.timeless

section

variable {g : Gorm} {s : ServiceState} {id : String} {row : TaskModel} {env : ServiceEnv}
  {steps : AtomicSteps}

/-- A call has no steps exactly if it is idle. -/
theorem Call.steps_eq_none {c : Call} : c.steps g id row = none ↔ c.idle row = true := by
  cases c <;> simp [Call.steps, Call.idle]

/-- A change of the status. The four calls differ in the flags they write and in
their wheel step, and share the rest. -/
theorem Call.amounts_status (hg : g.Documented) (hc : env.Calm)
    (hlive : s.tasks.live id = some row) {c : Call} {enabled paused : Bool}
    (hdb : ∀ tasks e, steps.dbOp tasks e
      = (repoUpdateStatus g tasks id enabled paused e).map (fun tasks => (row, tasks)))
    (hrb : ∀ tasks e, steps.rollbackDB tasks e
      = repoUpdateStatus g tasks id row.enabled row.paused e)
    (hafter : c.rowAfter row.timeless
      = { row.timeless with enabled := enabled, paused := paused })
    (hwheel : Does s.timeWheel id
      (c.wheelStep row (s.timeWheel.held id) (c.addsPaused s.timeWheel id row env.add))
      (steps.twOp row s.timeWheel env)) :
    c.Amounts s id row env steps row (row.written enabled paused env.db)
      ((row.written enabled paused env.db).written row.enabled row.paused env.rollback) where
  db := by
    rw [hdb, repoUpdateStatus_live hg hc.db hlive]
    rfl
  written := (row.timeless_written enabled paused env.db).trans hafter.symm
  wheel := hwheel
  rollback := by
    have hdel : (row.written enabled paused env.db).deletedAt = none :=
      (TaskTable.live_eq_some.mp hlive).2
    rw [hrb, repoUpdateStatus_update hg hc.rollback hdel]
  restored := row.timeless_written_written enabled paused env.db env.rollback

/-- An update saves the row as the request leaves it, and saves the old row to
undo it. -/
theorem Call.amounts_update (hg : g.Documented) (hc : env.Calm) (hm : s.timeWheel.Keyed)
    (hrun : s.timeWheel.Running) (hkey : id ≠ "") (hid : row.id = id)
    (hlive : s.tasks.live id = some row) (req : TaskUpdateRequest) :
    (Call.update req).Amounts s id row env (updateSteps g id req row)
      ((req.apply row).touched env.db.stamp) ((req.apply row).touched env.db.stamp)
      (row.touched env.rollback.stamp) where
  db := by
    have hstored : s.tasks.live (req.apply row).id ≠ none :=
      ne_of_eq_of_ne (hid ▸ hlive : s.tasks.live row.id = some row) (Option.some_ne_none row)
    refine (repoUpdate_ok hg hstored).mpr ⟨hc.db, fun h => hkey (hid.symm.trans h), rfl, ?_⟩
    rw [show (req.apply row).id = id from hid]
  written := rfl
  wheel := by
    show Does s.timeWheel id (if row.enabled && !row.paused then _ else _)
      (if row.enabled && !row.paused then
        addToTimeWheel (s.timeWheel.removeTask id).2 ((req.apply row).touched env.db.stamp) env.add
      else (none, s.timeWheel))
    cases row.enabled && !row.paused with
    | false => exact does_nothing hm id
    | true =>
      have hremove := does_removeTask hm id
      have hadd := does_addToTimeWheel hremove.touches.keyed (hremove.touches.up.running hrun)
        ((req.apply row).touched env.db.stamp) env.add
      rw [show ((req.apply row).touched env.db.stamp).id = id from hid, hremove.held] at hadd
      exact hremove.then hadd
  rollback := by
    have hdel := (TaskTable.live_eq_some.mp hlive).2
    have hstored : TaskTable.live
        (Function.update s.tasks id (some ((req.apply row).touched env.db.stamp))) row.id
          ≠ none := by
      rw [hid, TaskTable.live_update
        (show ((req.apply row).touched env.db.stamp).deletedAt = none from hdel)]
      exact Option.some_ne_none _
    show Except.map Prod.snd (repoUpdate g _ row env.rollback) = _
    rw [(repoUpdate_ok hg hstored).mpr ⟨hc.rollback, fun h => hkey (hid.symm.trans h), rfl, rfl⟩,
      hid, Function.update_idem]
    rfl
  restored := rfl

/-- A deletion is undone by clearing the stamp. -/
theorem Call.amounts_delete (hg : g.Documented) (hc : env.Calm) (hm : s.timeWheel.Keyed)
    (hid : row.id = id) (hlive : s.tasks.live id = some row) :
    Call.delete.Amounts s id row env (deleteSteps g id row) row
      { row with deletedAt := some env.db.stamp }
      { row with deletedAt := none, updatedAt := env.rollback.stamp } where
  db := by
    show Except.map _ (repoDelete g s.tasks id env.db) = _
    rw [(repoDelete_ok hg).mpr ⟨hc.db, rfl⟩, TaskTable.modifyLive_live hlive]
    rfl
  written := rfl
  wheel := does_removeTask hm id
  rollback := by
    refine (repoUndelete_ok hg).mpr ⟨hc.rollback, ?_⟩
    unfold TaskTable.modify
    rw [hid, Function.update_self, Function.update_idem]
    rfl
  restored := by
    obtain ⟨-, hdel⟩ := TaskTable.live_eq_some.mp hlive
    unfold TaskModel.timeless
    rw [hdel]

/-- The wheel step of `Resume` adds the task where no wheel has it. -/
theorem does_resume (hm : s.timeWheel.Keyed) (hrun : s.timeWheel.Running) (hid : row.id = id) :
    Does s.timeWheel id
      (Call.resume.wheelStep row (s.timeWheel.held id) (s.timeWheel.addsPaused row.toTask env.add))
      ((resumeSteps g id row).twOp row s.timeWheel env) := by
  unfold Call.wheelStep resumeSteps
  dsimp only
  cases row.enabled with
  | false => exact does_nothing hm id
  | true =>
    simp only [if_true]
    obtain ⟨htouch, hheld, hok⟩ := resumeTask_spec hm id env.resumeAt
    have heffect := MultiLevelTimeWheel.resumeTask_effect hm id env.resumeAt
    generalize s.timeWheel.resumeTask id env.resumeAt = r at htouch hheld hok heffect ⊢
    cases heffect with
    | done reached _ _ _ _ =>
      rw [(hm.reached_held id).trans reached]
      exact ⟨htouch, hheld, iff_of_true rfl rfl⟩
    | missing hnone =>
      -- the wheels are as before
      have hreached : (s.timeWheel.held id).reached = none := Held.reached_eq_none.mpr hnone
      rw [hreached, ← hid]
      exact does_addToTimeWheel hm hrun row env.add

/-- **Every call.** An update saves the row, which takes a key. Nothing else is
needed of a call on a task that has a row. -/
theorem Call.steps_spec (hg : g.Documented) (hc : env.Calm) (hm : s.timeWheel.Keyed)
    (hrun : s.timeWheel.Running) (hid : row.id = id) (hlive : s.tasks.live id = some row)
    {c : Call} (hkey : ∀ req, c = .update req → id ≠ "")
    (hsteps : c.steps g id row = some steps) :
    ∃ task row₁ row₂, c.Amounts s id row env steps task row₁ row₂ := by
  cases c with
  | update req =>
    -- the one call that saves a whole row
    obtain rfl := Option.some.inj hsteps
    exact ⟨_, _, _, amounts_update hg hc hm hrun (hkey req rfl) hid hlive req⟩
  | enable =>
    obtain ⟨he, rfl⟩ : row.enabled = false ∧ enableSteps g id row = steps := by
      simpa [Call.steps] using hsteps
    refine ⟨_, _, _, amounts_status hg hc hlive (fun _ _ => rfl) (fun _ _ => ?_) rfl ?_⟩
    · rw [he]
      rfl
    · show Does _ _ (if row.paused then _ else _)
        (if row.paused then (none, s.timeWheel) else addToTimeWheel s.timeWheel row env.add)
      cases row.paused with
      | true => exact does_nothing hm id
      | false => exact hid ▸ does_addToTimeWheel hm hrun row env.add
  | disable =>
    obtain ⟨he, rfl⟩ : row.enabled = true ∧ disableSteps g id row = steps := by
      simpa [Call.steps] using hsteps
    refine ⟨_, _, _, amounts_status hg hc hlive (fun _ _ => rfl) (fun _ _ => ?_) rfl
      (does_removeTask hm id)⟩
    rw [he]
    rfl
  | pause =>
    obtain ⟨hp, rfl⟩ : row.paused = false ∧ pauseSteps g id row = steps := by
      simpa [Call.steps] using hsteps
    refine ⟨_, _, _, amounts_status hg hc hlive (fun _ _ => rfl) (fun _ _ => ?_) rfl
      (does_pauseTask hm id)⟩
    rw [hp]
    rfl
  | resume =>
    obtain ⟨hp, rfl⟩ : row.paused = true ∧ resumeSteps g id row = steps := by
      simpa [Call.steps] using hsteps
    refine ⟨_, _, _, amounts_status hg hc hlive (fun _ _ => rfl) (fun _ _ => ?_) rfl
      (does_resume hm hrun hid)⟩
    rw [hp]
    rfl
  | delete =>
    obtain rfl := Option.some.inj hsteps
    exact ⟨_, _, _, amounts_delete hg hc hm hid hlive⟩

end

end AtomicTaskService

end Timewheel
