import Timewheel.Held
import Timewheel.Service

/-!
# All or nothing

When the wheel step of an operation of `atomicTaskService` fails, the rollback
is to undo the database step, and nothing is done about the wheel. Both sides
of that can go wrong. The rollbacks reuse forward operations, which write time
stamps, and the rollback of `Create` is a soft deletion, which leaves a row;
and the wheel step of `Update` removes the task before it adds the new one.

`allOrNothing_iff` says, for each operation, exactly when the row and the
registration are what they were: the wheel step succeeds, or what the rollback
writes happens to be what was there.

The condition has to be read with the faults in mind. Every access to the
database and to the log may fail, and where one fails early there is no
rollback to speak of; so `StepsReached` says that a call gets as far as its
rollback and carries it out. From there on the question is what the rollback
writes, compared with what was there.
-/

namespace Timewheel

open TimeWheel (AddEnv)
open MultiLevelTimeWheel

namespace AtomicTaskService

/-! ## The property -/

/-- **All or nothing**: when the call has returned an error and its entry in the
log has the status `failed`, the row and what the wheels hold are what they
were. What the call returns besides, and the log, are not compared. -/
def AllOrNothing (id : String) (s : ServiceState) (r : Except Err TaskModel × ServiceState) :
    Prop :=
  errOf r.1 ≠ none → (∃ entry, r.2.opLog = s.opLog ++ [entry] ∧ entry.status = .failed) →
    r.2.tasks id = s.tasks id ∧ r.2.timeWheel.held id = s.timeWheel.held id

/-! ## The condition -/

/-- The three steps are reached and the two database steps succeed, and so does
the log. If the rollback failed, its entry would have another status. -/
structure StepsReached (env : ServiceEnv) : Prop where
  marshal : env.marshalErr = none
  log : env.logErr = none
  logUpdate : env.logUpdateOk = true
  db : env.db.fault = false
  rollback : env.rollback.fault = false

/-- `AddTask` admits the task once `RemoveTask` has been called for its ID. The
removal takes the ID out of the wheel that is reached, which need not be that of
the new priority. -/
def AdmitsAfterRemove (m : MultiLevelTimeWheel) (task : Task) : Prop :=
  accepts task = true ∧ (m.wheel (levelOf task.priority)).running = true
    ∧ (m.held task.id).remove (levelOf task.priority) = none

/-- **The wheel step of the call fails**, on the row `task`. The conditions on
the row say that the wheel step is taken at all. -/
def Call.WheelFails (m : MultiLevelTimeWheel) (id : String) (task : TaskModel) : Call → Prop
  | .update req => id ≠ "" ∧ task.enabled = true ∧ task.paused = false
      ∧ ¬ AdmitsAfterRemove m (req.apply task).toTask
  | .enable => task.enabled = false ∧ task.paused = false ∧ ¬ m.Admits task.toTask
  | .disable => task.enabled = true ∧ (m.held id).reached = none
  | .pause => task.paused = false ∧ (m.held id).reached = none
  | .resume => task.paused = true ∧ task.enabled = true ∧ (m.held id).reached = none
      ∧ ¬ m.Admits task.toTask
  | .delete => (m.held id).reached = none

/-- Changing the status to `enabled` and `paused` and back writes the stamps
that were there. A stamp is only written with its flag, so the row must have had
the very stamps the rollback writes. -/
structure RestoresStatus (task : TaskModel) (enabled paused : Bool) (env : ServiceEnv) :
    Prop where
  enabledAt : task.enabledAt = if task.enabled then some env.rollback.now
    else if enabled then some env.db.now else task.enabledAt
  pausedAt : task.pausedAt = if task.paused then some env.rollback.now
    else if paused then some env.db.now else task.pausedAt
  updatedAt : task.updatedAt = env.rollback.stamp

/-- **What the call leaves when its wheel step has failed is what was there.**
The row must be restored to the last column, and so must what the wheels hold. -/
def Call.Restores (m : MultiLevelTimeWheel) (id : String) (task : TaskModel)
    (env : ServiceEnv) : Call → Prop
  | .update _ => (m.held id).reached = none ∧ task.updatedAt = env.rollback.stamp
  | .enable => RestoresStatus task true task.paused env
  | .disable => RestoresStatus task false task.paused env
  | .pause => RestoresStatus task task.enabled true env
  | .resume => RestoresStatus task task.enabled false env
  | .delete => task.updatedAt = env.rollback.stamp

/-- **The condition**: `Create` has no free key or no task the wheel does not
admit; a call on an existing task restores what was there when its wheel step
fails. A soft-deleted row is not the absence of a row, so nothing can make a
failing `Create` all or nothing. -/
def Operation.Compensates (op : Operation) (s : ServiceState) (env : ServiceEnv) : Prop :=
  match op with
  | .create req =>
    ¬ (env.logErr = none ∧ env.logUpdateOk = true ∧ env.db.fault = false
      ∧ env.rollback.fault = false ∧ s.tasks (requestOf req env).id = none ∧ req.enabled = true
      ∧ ¬ s.timeWheel.Admits (requestOf req env).toTaskModel.withDefaults.toTask)
  | .call id c =>
    ∀ task, env.get.fault = false → s.tasks.live id = some task → StepsReached env →
      c.WheelFails s.timeWheel id task → c.Restores s.timeWheel id task env

/-! ## `executeAtomically` -/

variable {s : ServiceState} {steps : AtomicSteps} {env : ServiceEnv} {id : String}

/-- The entry a call adds to the log. It is written before the steps, and its
status is set after them. -/
theorem log_entry (s : ServiceState) (tasks : TaskTable) (timeWheel : MultiLevelTimeWheel)
    (steps : AtomicSteps) (env : ServiceEnv) (status : OpStatus) (message : String) :
    (∃ entry, (ServiceState.log { s with tasks := tasks, timeWheel := timeWheel } steps env
        status message).opLog = s.opLog ++ [entry] ∧ entry.status = .failed)
      ↔ env.logUpdateOk = true ∧ status = .failed := by
  unfold ServiceState.log
  constructor
  · rintro ⟨entry, hentry, hstatus⟩
    obtain rfl := List.singleton_inj.mp (List.append_cancel_left hentry)
    cases hok : env.logUpdateOk with
    | true => exact ⟨rfl, by simpa [hok] using hstatus⟩
    | false => simp [hok] at hstatus
  · rintro ⟨hok, rfl⟩
    exact ⟨_, rfl, by simp [hok]⟩

/-- **Only a failed wheel step that is rolled back matters.** In all other cases
the call succeeds, or its entry has another status, or nothing has been written. -/
theorem allOrNothing_executeAtomically :
    AllOrNothing id s (executeAtomically s steps env)
      ↔ ((if steps.oldState.isSome then env.marshalErr else none) = none → env.logErr = none →
        env.logUpdateOk = true →
        ∀ task tasks err timeWheel tasks', steps.dbOp s.tasks env.db = .ok (task, tasks) →
          steps.twOp task s.timeWheel env = (some err, timeWheel) →
          steps.rollbackDB tasks env.rollback = .ok tasks' →
          tasks' id = s.tasks id ∧ timeWheel.held id = s.timeWheel.held id) := by
  have hself : ¬ ∃ entry, s.opLog = s.opLog ++ [entry] ∧ entry.status = .failed := by
    rintro ⟨entry, hentry, -⟩
    exact absurd (congrArg List.length hentry) (by simp)
  unfold executeAtomically
  cases hmarshal : (if steps.oldState.isSome then env.marshalErr else none) with
  | some err => exact ⟨fun _ h => (nomatch h), fun _ _ h => absurd h hself⟩
  | none =>
    cases hlog : env.logErr with
    | some err => exact ⟨fun _ _ h => (nomatch h), fun _ _ h => absurd h hself⟩
    | none =>
      dsimp only
      cases hdb : steps.dbOp s.tasks env.db with
      | error err =>
        exact ⟨fun _ _ _ _ _ _ _ _ _ h => (nomatch h), fun _ _ _ => ⟨rfl, rfl⟩⟩
      | ok r =>
        obtain ⟨task, tasks⟩ := r
        dsimp only
        cases htw : steps.twOp task s.timeWheel env with
        | mk err timeWheel =>
          cases err with
          | none =>
            -- the wheel step has succeeded, so there is nothing to compensate
            refine ⟨fun _ _ _ _ _ _ _ _ _ h htw' => ?_, fun _ h => absurd rfl h⟩
            obtain ⟨rfl, rfl⟩ := Prod.mk.inj (Except.ok.inj h)
            rw [htw] at htw'
            cases htw'
          | some err =>
            dsimp only
            cases hrb : steps.rollbackDB tasks env.rollback with
            | error rollbackErr =>
              refine ⟨fun _ _ _ _ _ _ _ _ _ h htw' hrb' => ?_, fun _ _ h => ?_⟩
              · obtain ⟨rfl, rfl⟩ := Prod.mk.inj (Except.ok.inj h)
                rw [hrb] at hrb'
                cases hrb'
              -- the entry says so: `rollback_failed` is not `failed`
              · exact absurd ((log_entry s tasks timeWheel steps env _ _).mp h).2 (by decide)
            | ok tasks' =>
              constructor
              · intro h _ _ hok task' tasks₁ err' timeWheel' tasks₂ hdb' htw' hrb'
                obtain ⟨rfl, rfl⟩ := Prod.mk.inj (Except.ok.inj hdb')
                obtain ⟨-, rfl⟩ := Prod.mk.inj (htw.symm.trans htw')
                obtain rfl := Except.ok.inj (hrb.symm.trans hrb')
                exact h (Option.some_ne_none err)
                  ((log_entry s tasks' timeWheel steps env _ _).mpr ⟨hok, rfl⟩)
              · intro h _ hentry
                have hok := ((log_entry s tasks' timeWheel steps env _ _).mp hentry).1
                exact h rfl rfl hok task tasks err timeWheel tasks' rfl htw hrb

/-- The same, for steps whose results are known: under `possible` the database
step leads to `tasks₁`, from which the rollback leads to `tasks₂`, and the wheel
step fails if `fails`, leaving `held₁`. Each operation is an instance. -/
theorem allOrNothing_of_steps (hold : steps.oldState.isSome = true) (task₁ : TaskModel)
    (tasks₁ tasks₂ : TaskTable) (held₁ : Held) (possible : Prop) {fails : Prop}
    (hdb : ∀ task tasks, steps.dbOp s.tasks env.db = .ok (task, tasks)
      ↔ env.db.fault = false ∧ possible ∧ task = task₁ ∧ tasks = tasks₁)
    (hrb : possible → ∀ tasks, steps.rollbackDB tasks₁ env.rollback = .ok tasks
      ↔ env.rollback.fault = false ∧ tasks = tasks₂)
    (htw : (steps.twOp task₁ s.timeWheel env).1 ≠ none ↔ fails)
    (hheld : (steps.twOp task₁ s.timeWheel env).1 ≠ none →
      (steps.twOp task₁ s.timeWheel env).2.held id = held₁) :
    AllOrNothing id s (executeAtomically s steps env)
      ↔ (StepsReached env → possible → fails →
        tasks₂ id = s.tasks id ∧ held₁ = s.timeWheel.held id) := by
  rw [allOrNothing_executeAtomically, if_pos hold]
  constructor
  · intro h hreached hpossible hfails
    obtain ⟨err, herr⟩ := Option.ne_none_iff_exists'.mp (htw.mpr hfails)
    rw [← hheld (htw.mpr hfails)]
    exact h hreached.marshal hreached.log hreached.logUpdate task₁ tasks₁ err _ tasks₂
      ((hdb _ _).mpr ⟨hreached.db, hpossible, rfl, rfl⟩) (Prod.ext herr rfl)
      ((hrb hpossible _).mpr ⟨hreached.rollback, rfl⟩)
  · intro h hmarshal hlog hok task tasks err timeWheel tasks' hdb' htw' hrb'
    obtain ⟨hdbfault, hpossible, rfl, rfl⟩ := (hdb _ _).mp hdb'
    obtain ⟨hrbfault, rfl⟩ := (hrb hpossible _).mp hrb'
    have hne : (steps.twOp task s.timeWheel env).1 ≠ none := by
      rw [htw']
      exact Option.some_ne_none err
    have hheld := hheld hne
    rw [htw'] at hheld
    rw [hheld]
    exact h ⟨hmarshal, hlog, hok, hdbfault, hrbfault⟩ hpossible (htw.mp hne)

/-- Nothing to do is nothing done. It returns no error. -/
theorem allOrNothing_self (id : String) (s : ServiceState) (task : TaskModel) :
    AllOrNothing id s (.ok task, s) := fun h => absurd rfl h

/-! ## The operations -/

variable {g : Gorm} {task : TaskModel} {m m' : MultiLevelTimeWheel}

/-- A mapped result is a result, mapped. An error stays an error. -/
theorem map_ok_iff {α β : Type} {x : Except Err α} {f : α → β} {b : β} :
    x.map f = .ok b ↔ ∃ a, x = .ok a ∧ f a = b := by
  cases x with
  | ok a => exact ⟨fun h => ⟨a, rfl, Except.ok.inj h⟩, fun ⟨_, h, hb⟩ => by
      rw [← hb, ← Except.ok.inj h]
      rfl⟩
  | error err => exact ⟨fun h => (nomatch h), fun ⟨_, h, _⟩ => (nomatch h)⟩

/-- Two changes of the status in a row. The columns are compared one by one. -/
theorem restoresStatus_iff {enabled paused : Bool} :
    ((((task.withStatus enabled paused env.db.now).touched env.db.stamp).withStatus task.enabled
        task.paused env.rollback.now).touched env.rollback.stamp = task)
      ↔ RestoresStatus task enabled paused env := by
  constructor
  · intro h
    exact ⟨(congrArg TaskModel.enabledAt h).symm, (congrArg TaskModel.pausedAt h).symm,
      (congrArg TaskModel.updatedAt h).symm⟩
  · intro h
    obtain ⟨h₁, h₂, h₃⟩ := h
    cases task
    simp only [TaskModel.withStatus, TaskModel.touched, TaskModel.mk.injEq, true_and, and_true]
    exact ⟨h₁.symm, h₂.symm, h₃.symm⟩

/-- **The four changes of the status**: the database step writes `enabled` and
`paused`, the rollback writes back what the snapshot has, and a wheel step that
fails changes nothing. The registration is then as it was, and only the stamps
of the row are in question. -/
theorem allOrNothing_status (hg : g.Documented) (hlive : s.tasks.live id = some task)
    {enabled paused : Bool} {fails : Prop} (hold : steps.oldState.isSome = true)
    (hdb : ∀ tasks e, steps.dbOp tasks e
      = (repoUpdateStatus g tasks id enabled paused e).map (fun tasks => (task, tasks)))
    (hrb : ∀ tasks e, steps.rollbackDB tasks e
      = repoUpdateStatus g tasks id task.enabled task.paused e)
    (htw : (steps.twOp task s.timeWheel env).1 ≠ none ↔ fails)
    (hheld : (steps.twOp task s.timeWheel env).1 ≠ none →
      (steps.twOp task s.timeWheel env).2.held id = s.timeWheel.held id) :
    AllOrNothing id s (executeAtomically s steps env)
      ↔ (StepsReached env → fails → RestoresStatus task enabled paused env) := by
  obtain ⟨hrow, hdel⟩ := TaskTable.live_eq_some.mp hlive
  let row₁ := (task.withStatus enabled paused env.db.now).touched env.db.stamp
  let row₂ := (row₁.withStatus task.enabled task.paused env.rollback.now).touched
    env.rollback.stamp
  -- the row after the database step is live again
  have hlive₁ : TaskTable.live (Function.update s.tasks id (some row₁)) id = some row₁ :=
    TaskTable.live_eq_some.mpr ⟨Function.update_self _ _ _, hdel⟩
  refine (allOrNothing_of_steps hold task (Function.update s.tasks id (some row₁))
    (Function.update (Function.update s.tasks id (some row₁)) id (some row₂))
    (s.timeWheel.held id) True (fun task' tasks => ?_) (fun _ tasks => ?_) htw hheld).trans ?_
  · rw [hdb, map_ok_iff]
    simp only [repoUpdateStatus_ok hg, TaskTable.modifyLive_live hlive, Prod.mk.injEq]
    constructor
    · rintro ⟨_, ⟨hf, rfl⟩, rfl, rfl⟩
      exact ⟨hf, trivial, rfl, rfl⟩
    · rintro ⟨hf, -, rfl, rfl⟩
      exact ⟨_, ⟨hf, rfl⟩, rfl, rfl⟩
  · rw [hrb, repoUpdateStatus_ok hg, TaskTable.modifyLive_live hlive₁]
  · rw [Function.update_self, hrow, Option.some.injEq, restoresStatus_iff]
    simp

/-! ### The wheel steps -/

/-- When the wheel steps fail: `AddTask` if the task is not admitted, -/
theorem addToTimeWheel_fails (hm : Keyed m) (task : TaskModel) (env : AddEnv) :
    ((addToTimeWheel m task env).1 ≠ none ↔ ¬ m.Admits task.toTask)
      ∧ ((addToTimeWheel m task env).1 ≠ none →
        (addToTimeWheel m task env).2.held task.id = m.held task.id) := by
  obtain ⟨-, hheld, herr⟩ := addTask_spec hm task.toTask env
  refine ⟨herr.not, fun hne => ?_⟩
  rw [if_neg (herr.not.mp hne)] at hheld
  exact hheld

/-- `RemoveTask` if no wheel has the ID, -/
theorem removeTask_fails (hm : Keyed m) (id : String) :
    ((m.removeTask id).1 ≠ none ↔ (m.held id).reached = none)
      ∧ ((m.removeTask id).1 ≠ none → (m.removeTask id).2.held id = m.held id) := by
  obtain ⟨-, hheld, herr⟩ := removeTask_spec hm id
  refine ⟨herr.not.trans not_not, fun hne => ?_⟩
  rw [hheld]
  exact Held.change_of_reached_none (not_not.mp (herr.not.mp hne)) _

/-- and `PauseTask` likewise. None of them changes anything then. -/
theorem pauseTask_fails (hm : Keyed m) (id : String) :
    ((m.pauseTask id).1 ≠ none ↔ (m.held id).reached = none)
      ∧ ((m.pauseTask id).1 ≠ none → (m.pauseTask id).2.held id = m.held id) := by
  obtain ⟨-, hheld, herr⟩ := pauseTask_spec hm id
  refine ⟨herr.not.trans not_not, fun hne => ?_⟩
  rw [hheld]
  exact Held.change_of_reached_none (not_not.mp (herr.not.mp hne)) _

/-- The wheel step of `Resume` adds the task where no wheel has it. -/
theorem resume_fails (hm : Keyed m) (task : TaskModel) (env : ServiceEnv) :
    (((resumeSteps g task.id task).twOp task m env).1 ≠ none
        ↔ task.enabled = true ∧ (m.held task.id).reached = none ∧ ¬ m.Admits task.toTask)
      ∧ (((resumeSteps g task.id task).twOp task m env).1 ≠ none →
        ((resumeSteps g task.id task).twOp task m env).2.held task.id = m.held task.id) := by
  obtain ⟨htouch, hheld, herr⟩ := resumeTask_spec hm task.id env.resumeAt
  simp only [resumeSteps]
  generalize m.resumeTask task.id env.resumeAt = r at htouch hheld herr ⊢
  obtain ⟨err, m'⟩ := r
  cases hen : task.enabled with
  | false => simp
  | true =>
    cases err with
    | none =>
      have hne := herr.mp rfl
      simp [hne]
    | some err =>
      -- nothing was there to be resumed, so nothing has changed
      have hnone : (m.held task.id).reached = none :=
        not_not.mp (herr.not.mp (Option.some_ne_none err))
      have hself : m'.held task.id = m.held task.id :=
        hheld.trans (Held.change_of_reached_none hnone _)
      have hadm : m'.Admits task.toTask ↔ m.Admits task.toTask := by
        rw [admits_iff htouch.up, show m'.held task.toTask.id = m.held task.toTask.id from hself]
        rfl
      obtain ⟨hadd, haddheld⟩ := addToTimeWheel_fails htouch.keyed task env.add
      simp only [if_pos]
      rw [hadd, hadm]
      refine ⟨by simp [hnone], fun hne => ?_⟩
      rw [haddheld (hadd.mpr (fun h => hne (hadm.mp h))), hself]

/-- That of `Enable` adds it unless the row is paused. -/
theorem enable_fails (hm : Keyed m) (task : TaskModel) (env : ServiceEnv) :
    (((enableSteps g task.id task).twOp task m env).1 ≠ none
        ↔ task.paused = false ∧ ¬ m.Admits task.toTask)
      ∧ (((enableSteps g task.id task).twOp task m env).1 ≠ none →
        ((enableSteps g task.id task).twOp task m env).2.held task.id = m.held task.id) := by
  obtain ⟨hadd, hheld⟩ := addToTimeWheel_fails hm task env.add
  rw [show (enableSteps g task.id task).twOp task m env
    = if task.paused then (none, m) else addToTimeWheel m task env.add from rfl]
  cases hp : task.paused with
  | true => simp
  | false => exact ⟨hadd.trans (by simp), hheld⟩

/-- That of `Update` has taken the old task out when it fails. -/
theorem update_fails (hm : Keyed m) (task : TaskModel) (req : TaskUpdateRequest) (env : ServiceEnv) :
    (((updateSteps g task.id req task).twOp ((req.apply task).touched env.db.stamp) m env).1 ≠ none
        ↔ task.enabled = true ∧ task.paused = false
          ∧ ¬ AdmitsAfterRemove m (req.apply task).toTask)
      ∧ (((updateSteps g task.id req task).twOp
          ((req.apply task).touched env.db.stamp) m env).1 ≠ none →
        ((updateSteps g task.id req task).twOp
          ((req.apply task).touched env.db.stamp) m env).2.held task.id
            = (m.held task.id).remove) := by
  obtain ⟨htouch, hrheld, -⟩ := removeTask_spec hm task.id
  obtain ⟨hadd, hheld⟩ := addToTimeWheel_fails htouch.keyed (req.apply task) env.add
  have hadm : (m.removeTask task.id).2.Admits (req.apply task).toTask
      ↔ AdmitsAfterRemove m (req.apply task).toTask := by
    rw [admits_iff htouch.up, show (m.removeTask task.id).2.held (req.apply task).toTask.id
      = (m.held task.id).remove from hrheld]
    rfl
  rw [show (updateSteps g task.id req task).twOp ((req.apply task).touched env.db.stamp) m env
    = if task.enabled && !task.paused then
        addToTimeWheel (m.removeTask task.id).2 (req.apply task) env.add
      else (none, m) from rfl]
  cases hen : task.enabled with
  | false => simp
  | true =>
    cases hp : task.paused with
    | true => simp
    | false =>
      refine ⟨hadd.trans (by rw [hadm]; simp), fun hne => ?_⟩
      exact (hheld hne).trans hrheld

/-! ### Each call -/

/-- `Enable`, in the terms of the condition. -/
theorem allOrNothing_enable (hg : g.Documented) (hm : s.timeWheel.Keyed)
    (hlive : s.tasks.live task.id = some task) :
    AllOrNothing task.id s (Call.enable.body g s task.id task env)
      ↔ (StepsReached env → Call.enable.WheelFails s.timeWheel task.id task →
        Call.enable.Restores s.timeWheel task.id task env) := by
  unfold Call.body Call.steps
  cases hen : task.enabled with
  | true => simp [allOrNothing_self, Call.WheelFails, hen]
  | false =>
    obtain ⟨hfails, hheld⟩ := enable_fails (g := g) hm task env
    refine (allOrNothing_status hg hlive rfl (fun _ _ => rfl)
      (fun _ _ => by rw [hen]; rfl) hfails hheld).trans ?_
    simp [Call.WheelFails, Call.Restores, hen]

/-- `Disable`, -/
theorem allOrNothing_disable (hg : g.Documented) (hm : s.timeWheel.Keyed)
    (hlive : s.tasks.live task.id = some task) :
    AllOrNothing task.id s (Call.disable.body g s task.id task env)
      ↔ (StepsReached env → Call.disable.WheelFails s.timeWheel task.id task →
        Call.disable.Restores s.timeWheel task.id task env) := by
  unfold Call.body Call.steps
  cases hen : task.enabled with
  | false => simp [allOrNothing_self, Call.WheelFails, hen]
  | true =>
    obtain ⟨hfails, hheld⟩ := removeTask_fails hm task.id
    refine (allOrNothing_status hg hlive rfl (fun _ _ => rfl)
      (fun _ _ => by rw [hen]; rfl) hfails hheld).trans ?_
    simp [Call.WheelFails, Call.Restores, hen]

/-- `Pause`, -/
theorem allOrNothing_pause (hg : g.Documented) (hm : s.timeWheel.Keyed)
    (hlive : s.tasks.live task.id = some task) :
    AllOrNothing task.id s (Call.pause.body g s task.id task env)
      ↔ (StepsReached env → Call.pause.WheelFails s.timeWheel task.id task →
        Call.pause.Restores s.timeWheel task.id task env) := by
  unfold Call.body Call.steps
  cases hp : task.paused with
  | true => simp [allOrNothing_self, Call.WheelFails, hp]
  | false =>
    obtain ⟨hfails, hheld⟩ := pauseTask_fails hm task.id
    refine (allOrNothing_status hg hlive rfl (fun _ _ => rfl)
      (fun _ _ => by rw [hp]; rfl) hfails hheld).trans ?_
    simp [Call.WheelFails, Call.Restores, hp]

/-- `Resume`: the four changes of the status. -/
theorem allOrNothing_resume (hg : g.Documented) (hm : s.timeWheel.Keyed)
    (hlive : s.tasks.live task.id = some task) :
    AllOrNothing task.id s (Call.resume.body g s task.id task env)
      ↔ (StepsReached env → Call.resume.WheelFails s.timeWheel task.id task →
        Call.resume.Restores s.timeWheel task.id task env) := by
  unfold Call.body Call.steps
  cases hp : task.paused with
  | false => simp [allOrNothing_self, Call.WheelFails, hp]
  | true =>
    obtain ⟨hfails, hheld⟩ := resume_fails (g := g) hm task env
    refine (allOrNothing_status hg hlive rfl (fun _ _ => rfl)
      (fun _ _ => by rw [hp]; rfl) hfails hheld).trans ?_
    simp [Call.WheelFails, Call.Restores, hp]

/-- The rollback of a deletion writes a time stamp. The deletion itself is taken
back completely. -/
theorem allOrNothing_delete (hg : g.Documented) (hm : s.timeWheel.Keyed)
    (hlive : s.tasks.live task.id = some task) :
    AllOrNothing task.id s (Call.delete.body g s task.id task env)
      ↔ (StepsReached env → Call.delete.WheelFails s.timeWheel task.id task →
        Call.delete.Restores s.timeWheel task.id task env) := by
  obtain ⟨hrow, hdel⟩ := TaskTable.live_eq_some.mp hlive
  obtain ⟨hfails, hheld⟩ := removeTask_fails hm task.id
  let row₁ : TaskModel := { task with deletedAt := some env.db.stamp }
  let row₂ : TaskModel := { row₁ with deletedAt := none, updatedAt := env.rollback.stamp }
  have hback : row₂ = task ↔ task.updatedAt = env.rollback.stamp := by
    constructor
    · exact fun h => (congrArg TaskModel.updatedAt h).symm
    · intro h
      show ({ task with deletedAt := none, updatedAt := env.rollback.stamp } : TaskModel) = task
      rw [← h, ← hdel]
  refine (allOrNothing_of_steps rfl task (Function.update s.tasks task.id (some row₁))
    (Function.update (Function.update s.tasks task.id (some row₁)) task.id (some row₂))
    (s.timeWheel.held task.id) True (fun task' tasks => ?_) (fun _ tasks => ?_) hfails hheld).trans ?_
  · show Except.map _ (repoDelete g s.tasks task.id env.db) = _ ↔ _
    rw [map_ok_iff]
    simp only [repoDelete_ok hg, TaskTable.modifyLive_live hlive, Prod.mk.injEq]
    constructor
    · rintro ⟨_, ⟨hf, rfl⟩, rfl, rfl⟩
      exact ⟨hf, trivial, rfl, rfl⟩
    · rintro ⟨hf, -, rfl, rfl⟩
      exact ⟨_, ⟨hf, rfl⟩, rfl, rfl⟩
  · show repoUndelete g _ task env.rollback = .ok tasks ↔ _
    rw [repoUndelete_ok hg]
    unfold TaskTable.modify
    rw [Function.update_self]
    rfl
  · rw [Function.update_self, hrow, Option.some.injEq, hback]
    simp [Call.WheelFails, Call.Restores]

/-- `Save` of the old row writes a time stamp, and the wheel has lost the task.
So the ID must not have been in a wheel to begin with. -/
theorem allOrNothing_update (hg : g.Documented) (hm : s.timeWheel.Keyed) (req : TaskUpdateRequest)
    (hlive : s.tasks.live task.id = some task) :
    AllOrNothing task.id s ((Call.update req).body g s task.id task env)
      ↔ (StepsReached env → (Call.update req).WheelFails s.timeWheel task.id task →
        (Call.update req).Restores s.timeWheel task.id task env) := by
  obtain ⟨hrow, hdel⟩ := TaskTable.live_eq_some.mp hlive
  obtain ⟨hfails, hheld⟩ := update_fails (g := g) hm task req env
  let row₁ : TaskModel := (req.apply task).touched env.db.stamp
  let row₂ : TaskModel := task.touched env.rollback.stamp
  have hlive₁ : TaskTable.live (Function.update s.tasks task.id (some row₁)) task.id = some row₁ :=
    TaskTable.live_eq_some.mpr ⟨Function.update_self _ _ _, hdel⟩
  have hback : row₂ = task ↔ task.updatedAt = env.rollback.stamp := by
    constructor
    · exact fun h => (congrArg TaskModel.updatedAt h).symm
    · intro h
      show task.touched env.rollback.stamp = task
      rw [← h]
      rfl
  refine (allOrNothing_of_steps rfl row₁ (Function.update s.tasks task.id (some row₁))
    (Function.update (Function.update s.tasks task.id (some row₁)) task.id (some row₂))
    (s.timeWheel.held task.id).remove (task.id ≠ "") (fun task' tasks => ?_) (fun hid tasks => ?_)
    hfails hheld).trans ?_
  · exact repoUpdate_ok hg (ne_of_eq_of_ne hlive (Option.some_ne_none _))
  · show (repoUpdate g _ task env.rollback).map Prod.snd = .ok tasks ↔ _
    rw [map_ok_iff]
    simp only [Prod.exists, repoUpdate_ok hg (ne_of_eq_of_ne hlive₁ (Option.some_ne_none _))]
    constructor
    · rintro ⟨_, _, ⟨hf, -, rfl, rfl⟩, rfl⟩
      exact ⟨hf, rfl⟩
    · rintro ⟨hf, rfl⟩
      exact ⟨_, _, ⟨hf, hid, rfl, rfl⟩, rfl⟩
  · rw [Function.update_self, hrow, Option.some.injEq, hback, Held.remove_eq_self]
    simp only [Call.WheelFails, Call.Restores, and_imp]
    constructor
    · exact fun h hreached hid hen hp hadm => (h hreached hid hen hp hadm).symm
    · exact fun h hreached hid hen hp hadm => (h hreached hid hen hp hadm).symm

/-- **The calls on an existing task.** Each is one of the six above. -/
theorem allOrNothing_body (hg : g.Documented) (hm : s.timeWheel.Keyed) (c : Call)
    (hlive : s.tasks.live task.id = some task) :
    AllOrNothing task.id s (c.body g s task.id task env)
      ↔ (StepsReached env → c.WheelFails s.timeWheel task.id task →
        c.Restores s.timeWheel task.id task env) := by
  cases c with
  | update req => exact allOrNothing_update hg hm req hlive
  | enable => exact allOrNothing_enable hg hm hlive
  | disable => exact allOrNothing_disable hg hm hlive
  | pause => exact allOrNothing_pause hg hm hlive
  | resume => exact allOrNothing_resume hg hm hlive
  | delete => exact allOrNothing_delete hg hm hlive

/-- An error that changes nothing. Both sides are what they were. -/
theorem allOrNothing_error (id : String) (s : ServiceState) (err : Err) :
    AllOrNothing id s (.error err, s) := fun _ _ => ⟨rfl, rfl⟩

/-- The rollback of an insertion leaves a row behind. So it is all or nothing
only if it does not come to that. -/
theorem allOrNothing_create (hg : g.Documented) (hm : s.timeWheel.Keyed) (req : TaskCreateRequest) :
    AllOrNothing (requestOf req env).id s (AtomicTaskService.create g s req env)
      ↔ (Operation.create req).Compensates s env := by
  have hen : (requestOf req env).enabled = req.enabled := by
    unfold requestOf
    split_ifs <;> rfl
  unfold AtomicTaskService.create Operation.Compensates
  dsimp only
  rw [show (if req.id = "" then { req with id := env.generatedID } else req)
    = requestOf req env from rfl, ← hen]
  generalize requestOf req env = req'
  cases hget : repoGetByID g s.tasks req'.id env.get with
  | ok row =>
    have hrow := (TaskTable.live_eq_some.mp ((repoGetByID_ok hg).mp hget).2).1
    refine iff_of_true (allOrNothing_error _ s _) (fun h => ?_)
    rw [hrow] at h
    cases h.2.2.2.2.1
  | error err =>
    let row := req'.toTaskModel.created env.db.stamp
    obtain ⟨hadd, -⟩ := addToTimeWheel_fails hm row env.add
    rw [show row.toTask = req'.toTaskModel.withDefaults.toTask from rfl] at hadd
    refine allOrNothing_executeAtomically.trans ⟨fun h hc => ?_, fun h _ hlog hok => ?_⟩
    · obtain ⟨hlog, hok, hdb, hrb, hnone, hen, hadm⟩ := hc
      obtain ⟨err, herr⟩ := Option.ne_none_iff_exists'.mp (hadd.mpr hadm)
      have hrow := (h rfl hlog hok row _ err _ _
        ((repoCreate_ok hg).mpr ⟨hdb, hnone, rfl, rfl⟩)
        ((if_pos hen).trans (Prod.ext herr rfl)) ((repoDelete_ok hg).mpr ⟨hrb, rfl⟩)).1
      -- the row is there, with its time of deletion
      rw [hnone] at hrow
      unfold TaskTable.modifyLive at hrow
      rw [TaskTable.modify_self,
        show req'.toTaskModel.id = req'.id from rfl, Function.update_self] at hrow
      cases hrow
    · intro task tasks err timeWheel tasks' hcreate htw hrb
      obtain ⟨hdb, hnone, rfl, rfl⟩ := (repoCreate_ok hg).mp hcreate
      refine absurd ⟨hlog, hok, hdb, ((repoDelete_ok hg).mp hrb).1, hnone, ?_⟩ h
      change (if req'.enabled then _ else _) = _ at htw
      cases hen : req'.enabled with
      | false =>
        rw [hen] at htw
        cases htw
      | true =>
        rw [hen, if_pos rfl] at htw
        refine ⟨rfl, hadd.mp ?_⟩
        rw [htw]
        exact Option.some_ne_none err

/-- When the row cannot be read nothing is asked of it. There is no live row, or
the database does not answer. -/
theorem forall_of_read_error (hg : g.Documented) {err : Err}
    (hget : repoGetByID g s.tasks id env.get = .error err) (P : TaskModel → Prop) :
    ∀ task, env.get.fault = false → s.tasks.live id = some task → P task := by
  intro task hf hlive
  rw [(repoGetByID_ok hg).mpr ⟨hf, hlive⟩] at hget
  cases hget

/-- When it is read it is the live row. There is only one. -/
theorem forall_of_read_ok (hg : g.Documented) (hget : repoGetByID g s.tasks id env.get = .ok task)
    (P : TaskModel → Prop) :
    (∀ task, env.get.fault = false → s.tasks.live id = some task → P task) ↔ P task := by
  obtain ⟨hf, hlive⟩ := (repoGetByID_ok hg).mp hget
  refine ⟨fun h => h task hf hlive, fun h task' _ hlive' => ?_⟩
  obtain rfl := Option.some.inj (hlive.symm.trans hlive')
  exact h

/-- **Exactly when an operation is all or nothing**: when a failure of its wheel
step, if it comes to that, leaves nothing to be undone that the rollback does
not undo. For every state of the table and the wheels, every operation, and
every way its accesses may fail. -/
theorem allOrNothing_iff {g : Gorm} (hg : g.Documented) {s : ServiceState}
    (hm : s.timeWheel.Keyed) (ht : s.tasks.Keyed) (op : Operation) (env : ServiceEnv) :
    AllOrNothing (op.taskID env) s (op.execute g s env) ↔ op.Compensates s env := by
  cases op with
  | create req => exact allOrNothing_create hg hm req
  | call id c =>
    simp only [Operation.taskID, Operation.execute, Operation.Compensates, Call.execute]
    cases hget : repoGetByID g s.tasks id env.get with
    | error err => exact iff_of_true (allOrNothing_error id s err) (forall_of_read_error hg hget _)
    | ok task =>
      have hlive := ((repoGetByID_ok hg).mp hget).2
      obtain rfl := ht id task (TaskTable.live_eq_some.mp hlive).1
      refine Iff.trans ?_ (forall_of_read_ok hg hget _).symm
      exact allOrNothing_body hg hm c hlive

/-! ### Two failures -/

/-- A table with the row of the request, and a wheel that has not heard of it.
The service has lost the task in the wheel, say by a restart. -/
def unscheduled : ServiceState where
  tasks := Function.update (fun _ => none) "a"
    (some ((everySecondRequest "a").toTaskModel.created (Time.ofMilli 0)))
  timeWheel := freshMultiLevelWheel
  opLog := []

/-- The row is under its own key. -/
theorem keyed_unscheduled : unscheduled.tasks.Keyed := by
  unfold unscheduled
  exact TaskTable.keyed_empty.update rfl

/-- The deletion of a task the wheel does not hold, in one tick of the clock, is
undone. The stamp that the rollback writes is the one that was there. -/
theorem allOrNothing_of_unscheduled :
    AllOrNothing "a" unscheduled
      ((Operation.call "a" .delete).execute tableGorm unscheduled (calmEnv 0)) := by
  refine (allOrNothing_iff documented_tableGorm (keyed_of_start start_freshMultiLevelWheel)
    keyed_unscheduled (.call "a" .delete) (calmEnv 0)).mpr (fun task _ hlive _ _ => ?_)
  obtain ⟨hrow, -⟩ := TaskTable.live_eq_some.mp hlive
  obtain rfl := Option.some.inj hrow
  rfl

/-- The row and its task. They are in step. -/
def scheduled : ServiceState := ((Operation.create (everySecondRequest "a")).execute tableGorm
  ⟨fun _ => none, freshMultiLevelWheel, []⟩ (calmEnv 0)).2

/-- An update the wheel rejects loses the task. The row is as it was, and the
wheel does not hold the ID any more. -/
theorem not_allOrNothing_of_update :
    ¬ AllOrNothing "a" scheduled
      ((Operation.call "a" (.update { TaskUpdateRequest.keep with
          mode := some 2, times := some 0 })).execute tableGorm scheduled (calmEnv 0)) := by
  intro h
  obtain ⟨-, hheld⟩ := h (by decide +kernel) ⟨_, rfl, by decide +kernel⟩
  have hnormal := congrFun hheld .normal
  revert hnormal
  decide +kernel

end AtomicTaskService

end Timewheel
