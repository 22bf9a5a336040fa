import Timewheel.MultiLevel
import Timewheel.Store

/-!
# The services

Two services keep the table of tasks and the multi-level wheel in step.
`taskService` calls one after the other and cleans up as it goes along.
`atomicTaskService` gives each operation three parts – a database step, a wheel
step and a rollback of the first – and runs them under a lock of the task, with
an entry in the operation log.

An operation on an existing task starts by reading the row. The steps below
are functions of this snapshot, so that the read and the locked part can also
be taken one at a time.
-/

namespace Timewheel

open TimeWheel (AddEnv)

/-! ## Requests -/

/-- `TaskCreateRequest`. -/
structure TaskCreateRequest where
  id : String
  name : String
  description : String
  mode : ℤ
  intervalMs : ℤ
  times : ℤ
  priority : ℤ
  timeoutMs : ℤ
  severity : ℤ
  forDurationMs : ℤ
  repeatIntervalMs : ℤ
  labels : StringMap
  annotations : StringMap
  enabled : Bool
  deriving DecidableEq, Repr

/-- `TaskUpdateRequest`; a nil pointer is `none`. -/
structure TaskUpdateRequest where
  name : Option String
  description : Option String
  mode : Option ℤ
  intervalMs : Option ℤ
  times : Option ℤ
  priority : Option ℤ
  timeoutMs : Option ℤ
  severity : Option ℤ
  forDurationMs : Option ℤ
  repeatIntervalMs : Option ℤ
  labels : Option StringMap
  annotations : Option StringMap
  deriving DecidableEq, Repr

/-- The binding tags of `TaskCreateRequest`. -/
structure TaskCreateRequest.Valid (req : TaskCreateRequest) : Prop where
  id : req.id.length ≤ 64
  name : req.name ≠ "" ∧ req.name.length ≤ 255
  description : req.description.length ≤ 500
  mode : 0 ≤ req.mode ∧ req.mode ≤ 2
  intervalMs : 0 < req.intervalMs
  times : 0 ≤ req.times
  priority : 0 ≤ req.priority ∧ req.priority ≤ 2
  timeoutMs : 0 ≤ req.timeoutMs
  severity : 0 ≤ req.severity ∧ req.severity ≤ 2
  forDurationMs : 0 ≤ req.forDurationMs
  repeatIntervalMs : 0 ≤ req.repeatIntervalMs

/-- The binding tags of `TaskUpdateRequest`. -/
structure TaskUpdateRequest.Valid (req : TaskUpdateRequest) : Prop where
  name : ∀ name ∈ req.name, name.length ≤ 255
  description : ∀ description ∈ req.description, description.length ≤ 500
  mode : ∀ mode ∈ req.mode, 0 ≤ mode ∧ mode ≤ 2
  intervalMs : ∀ ms ∈ req.intervalMs, 0 < ms
  times : ∀ times ∈ req.times, 0 ≤ times
  priority : ∀ priority ∈ req.priority, 0 ≤ priority ∧ priority ≤ 2
  timeoutMs : ∀ ms ∈ req.timeoutMs, 0 ≤ ms
  severity : ∀ severity ∈ req.severity, 0 ≤ severity ∧ severity ≤ 2
  forDurationMs : ∀ ms ∈ req.forDurationMs, 0 ≤ ms
  repeatIntervalMs : ∀ ms ∈ req.repeatIntervalMs, 0 ≤ ms

/-- `ToTaskModel`. A nil map becomes an empty one. Status and history start out
empty. -/
def TaskCreateRequest.toTaskModel (req : TaskCreateRequest) : TaskModel where
  id := req.id
  name := req.name
  description := req.description
  mode := req.mode
  intervalMs := req.intervalMs
  times := req.times
  priority := req.priority
  timeoutMs := req.timeoutMs
  severity := req.severity
  forDurationMs := req.forDurationMs
  repeatIntervalMs := req.repeatIntervalMs
  labels := some (req.labels.getD [])
  annotations := some (req.annotations.getD [])
  enabled := req.enabled
  paused := false
  enabledAt := none
  pausedAt := none
  executedCount := 0
  lastExecutedAt := none
  lastResultValue := 0
  lastIsFiring := false
  alertState := 0
  pendingSince := none
  lastFiredAt := none
  createdAt := Time.zero
  updatedAt := Time.zero
  deletedAt := none

/-- The fields `Update` overwrites. What is not given stays as it is; a zero is
a value like any other. -/
def TaskUpdateRequest.apply (req : TaskUpdateRequest) (existing : TaskModel) : TaskModel :=
  { existing with
    name := req.name.getD existing.name
    description := req.description.getD existing.description
    mode := req.mode.getD existing.mode
    intervalMs := req.intervalMs.getD existing.intervalMs
    times := req.times.getD existing.times
    priority := req.priority.getD existing.priority
    timeoutMs := req.timeoutMs.getD existing.timeoutMs
    severity := req.severity.getD existing.severity
    forDurationMs := req.forDurationMs.getD existing.forDurationMs
    repeatIntervalMs := req.repeatIntervalMs.getD existing.repeatIntervalMs
    labels := req.labels.getD existing.labels
    annotations := req.annotations.getD existing.annotations }

/-! ## The wheel's side -/

/-- `time.Duration(ms) * time.Millisecond`, a product of 64-bit integers. It
wraps around. -/
def durationOfMs (ms : ℤ) : Duration := (ms * Duration.millisecond).bmod (2 ^ 64)

/-- The task `addToTimeWheel` makes of a row. Its function is a placeholder. The
description is put together from two columns. -/
def TaskModel.toTask (m : TaskModel) : Task where
  id := m.id
  mode := TaskMode.ofInt m.mode
  priority := m.priority
  interval := durationOfMs m.intervalMs
  times := m.times
  run := some 0
  description := m.name ++ " - " ++ m.description
  timeout := durationOfMs m.timeoutMs
  severity := m.severity
  forDuration := durationOfMs m.forDurationMs
  repeatInterval := durationOfMs m.repeatIntervalMs
  labels := m.labels
  annotations := m.annotations

/-- The status is not part of the task. -/
@[simp] theorem TaskModel.toTask_written (row : TaskModel) (enabled paused : Bool) (env : DbEnv) :
    (row.written enabled paused env).toTask = row.toTask := rfl

/-- `addToTimeWheel`. Both services use it. -/
def addToTimeWheel (timeWheel : MultiLevelTimeWheel) (m : TaskModel) (env : AddEnv) :
    Option Err × MultiLevelTimeWheel := timeWheel.addTask (some m.toTask) env

/-! ## The state -/

/-- The status of an entry of the operation log. An entry begins as pending. -/
inductive OpStatus where
  | pending
  | completed
  | failed
  | rollbackFailed
  deriving DecidableEq, Repr

/-- `OperationLogModel`. The old state is what a rollback would need. -/
structure OperationLogModel where
  taskID : String
  operation : String
  status : OpStatus
  oldState : Option TaskModel
  errorMessage : String
  deriving DecidableEq, Repr

/-- What the services work on: the table, the wheel, and the operation log,
which `taskService` does not use. It is the state of all runs of the services. -/
structure ServiceState where
  tasks : TaskTable
  timeWheel : MultiLevelTimeWheel
  opLog : List OperationLogModel

/-- What one call of a service leaves open: each access to the database, what
the wheel leaves open, the generated ID, and whether the old state can be
marshalled and the log written. The names say where each of them is used. -/
structure ServiceEnv where
  get : DbEnv
  db : DbEnv
  rollback : DbEnv
  add : AddEnv
  resumeAt : Time
  generatedID : String
  marshalErr : Option Err
  logErr : Option Err
  logUpdateOk : Bool

/-- The error of a result. -/
def errOf {α : Type} : Except Err α → Option Err
  | .ok _ => none
  | .error err => some err

/-- A call of which only the error is returned. -/
def errOnly (r : Except Err TaskModel × ServiceState) : Option Err × ServiceState :=
  (errOf r.1, r.2)

/-- The table after a call whose error is ignored. This happens where the code
cleans up. -/
def ignoreErr (t : TaskTable) : Except Err TaskTable → TaskTable
  | .ok t' => t'
  | .error _ => t

/-! ## `taskService` -/

namespace TaskService

variable (g : Gorm)

/-- `Create`. When the wheel rejects the task, the new row is deleted again. -/
def create (s : ServiceState) (req : TaskCreateRequest) (env : ServiceEnv) :
    Except Err TaskModel × ServiceState :=
  match repoGetByID g s.tasks req.id env.get with
  | .ok _ => (.error (.text "task with this ID already exists"), s)
  | .error _ =>
    match repoCreate g s.tasks req.toTaskModel env.db with
    | .error err => (.error err, s)
    | .ok (taskModel, tasks) =>
      if req.enabled then
        match addToTimeWheel s.timeWheel taskModel env.add with
        | (some err, timeWheel) =>
          (.error err, { s with
            tasks := ignoreErr tasks (repoDelete g tasks req.id env.rollback)
            timeWheel := timeWheel })
        | (none, timeWheel) =>
          (.ok taskModel, { s with tasks := tasks, timeWheel := timeWheel })
      else (.ok taskModel, { s with tasks := tasks })

/-- `Update`. What the wheel returns is only logged. -/
def update (s : ServiceState) (id : String) (req : TaskUpdateRequest) (env : ServiceEnv) :
    Except Err TaskModel × ServiceState :=
  match repoGetByID g s.tasks id env.get with
  | .error err => (.error err, s)
  | .ok existing =>
    match repoUpdate g s.tasks (req.apply existing) env.db with
    | .error err => (.error err, s)
    | .ok (existing, tasks) =>
      if existing.enabled && !existing.paused then
        let (_, timeWheel) := s.timeWheel.removeTask id
        let (_, timeWheel) := addToTimeWheel timeWheel existing env.add
        (.ok existing, { s with tasks := tasks, timeWheel := timeWheel })
      else (.ok existing, { s with tasks := tasks })

/-- `Delete`: from the wheel first. -/
def delete (s : ServiceState) (id : String) (env : ServiceEnv) : Option Err × ServiceState :=
  let (_, timeWheel) := s.timeWheel.removeTask id
  match repoDelete g s.tasks id env.db with
  | .error err => (some err, { s with timeWheel := timeWheel })
  | .ok tasks => (none, { s with tasks := tasks, timeWheel := timeWheel })

/-- `Enable`. When the wheel rejects the task, the status is written back. -/
def enable (s : ServiceState) (id : String) (env : ServiceEnv) : Option Err × ServiceState :=
  match repoGetByID g s.tasks id env.get with
  | .error err => (some err, s)
  | .ok task =>
    if task.enabled then (none, s)
    else
      match repoUpdateStatus g s.tasks id true task.paused env.db with
      | .error err => (some err, s)
      | .ok tasks =>
        let task := { task with enabled := true }
        if task.paused then (none, { s with tasks := tasks })
        else
          match addToTimeWheel s.timeWheel task env.add with
          | (none, timeWheel) => (none, { s with tasks := tasks, timeWheel := timeWheel })
          | (some err, timeWheel) =>
            (some err, { s with
              tasks := ignoreErr tasks
                (repoUpdateStatus g tasks id false task.paused env.rollback)
              timeWheel := timeWheel })

/-- `Disable`: in the wheel first. -/
def disable (s : ServiceState) (id : String) (env : ServiceEnv) : Option Err × ServiceState :=
  match repoGetByID g s.tasks id env.get with
  | .error err => (some err, s)
  | .ok task =>
    if task.enabled = false then (none, s)
    else
      let (_, timeWheel) := s.timeWheel.removeTask id
      match repoUpdateStatus g s.tasks id false task.paused env.db with
      | .error err => (some err, { s with timeWheel := timeWheel })
      | .ok tasks => (none, { s with tasks := tasks, timeWheel := timeWheel })

/-- `Pause`. The row is written first, and what the wheel returns is only
logged. -/
def pause (s : ServiceState) (id : String) (env : ServiceEnv) : Option Err × ServiceState :=
  match repoGetByID g s.tasks id env.get with
  | .error err => (some err, s)
  | .ok task =>
    if task.paused then (none, s)
    else
      match repoUpdateStatus g s.tasks id task.enabled true env.db with
      | .error err => (some err, s)
      | .ok tasks =>
        let (_, timeWheel) := s.timeWheel.pauseTask id
        (none, { s with tasks := tasks, timeWheel := timeWheel })

/-- `Resume`. When the wheel rejects the task the row stays resumed. -/
def resume (s : ServiceState) (id : String) (env : ServiceEnv) : Option Err × ServiceState :=
  match repoGetByID g s.tasks id env.get with
  | .error err => (some err, s)
  | .ok task =>
    if task.paused = false then (none, s)
    else
      match repoUpdateStatus g s.tasks id task.enabled false env.db with
      | .error err => (some err, s)
      | .ok tasks =>
        let s := { s with tasks := tasks }
        if task.enabled then
          match s.timeWheel.resumeTask id env.resumeAt with
          | (none, timeWheel) => (none, { s with timeWheel := timeWheel })
          | (some _, timeWheel) =>
            let (err, timeWheel) := addToTimeWheel timeWheel task env.add
            (err, { s with timeWheel := timeWheel })
        else (none, s)

end TaskService

/-! ## `atomicTaskService` -/

/-- What an operation passes to `executeAtomically`. The three functions share
a variable, the row they are about: the database step returns it as it leaves
it, and the wheel step starts from that. -/
structure AtomicSteps where
  taskID : String
  opType : String
  oldState : Option TaskModel
  dbOp : TaskTable → DbEnv → Except Err (TaskModel × TaskTable)
  twOp : TaskModel → MultiLevelTimeWheel → ServiceEnv → Option Err × MultiLevelTimeWheel
  rollbackDB : TaskTable → DbEnv → Except Err TaskTable

/-- The entry of the log, created as pending and updated to `status` at the end
unless that fails. -/
def ServiceState.log (s : ServiceState) (steps : AtomicSteps) (env : ServiceEnv)
    (status : OpStatus) (message : String) : ServiceState :=
  { s with
    opLog := s.opLog ++ [⟨steps.taskID, steps.opType,
      if env.logUpdateOk then status else .pending, steps.oldState,
      if env.logUpdateOk then message else ""⟩] }

/-- `executeAtomically`, from the lock on. Without an error the result is the
shared variable. -/
def executeAtomically (s : ServiceState) (steps : AtomicSteps) (env : ServiceEnv) :
    Except Err TaskModel × ServiceState :=
  match (if steps.oldState.isSome then env.marshalErr else none), env.logErr with
  | some err, _ => (.error (.wrap "failed to marshal old state" err), s)
  | none, some err => (.error (.wrap "failed to log operation" err), s)
  | none, none =>
    match steps.dbOp s.tasks env.db with
    | .error err => (.error err, s.log steps env .failed err.error)
    | .ok (task, tasks) =>
      match steps.twOp task s.timeWheel env with
      | (none, timeWheel) =>
        (.ok task, ServiceState.log { s with tasks := tasks, timeWheel := timeWheel } steps env
          .completed "")
      | (some err, timeWheel) =>
        match steps.rollbackDB tasks env.rollback with
        | .error rollbackErr =>
          (.error (.text ("operation failed and rollback also failed: " ++ err.error
              ++ " (rollback: " ++ rollbackErr.error ++ ")")),
            ServiceState.log { s with tasks := tasks, timeWheel := timeWheel } steps env
              .rollbackFailed ("TW error: " ++ err.error ++ ", Rollback error: "
                ++ rollbackErr.error))
        | .ok tasks =>
          (.error err, ServiceState.log { s with tasks := tasks, timeWheel := timeWheel } steps env
            .failed err.error)

namespace AtomicTaskService

variable (g : Gorm)

/-- The steps of `Create`. -/
def createSteps (req : TaskCreateRequest) : AtomicSteps where
  taskID := req.id
  opType := "create"
  oldState := none
  dbOp := fun tasks env => repoCreate g tasks req.toTaskModel env
  twOp := fun taskModel timeWheel env =>
    if req.enabled then addToTimeWheel timeWheel taskModel env.add else (none, timeWheel)
  rollbackDB := fun tasks env => repoDelete g tasks req.id env

/-- The steps of `Delete` on the row `task`. -/
def deleteSteps (id : String) (task : TaskModel) : AtomicSteps where
  taskID := id
  opType := "delete"
  oldState := some task
  dbOp := fun tasks env => (repoDelete g tasks id env).map (fun tasks => (task, tasks))
  twOp := fun _ timeWheel _ => timeWheel.removeTask id
  rollbackDB := fun tasks env => repoUndelete g tasks task env

/-- The steps of `Enable`. -/
def enableSteps (id : String) (task : TaskModel) : AtomicSteps where
  taskID := id
  opType := "enable"
  oldState := some task
  dbOp := fun tasks env =>
    (repoUpdateStatus g tasks id true task.paused env).map (fun tasks => (task, tasks))
  twOp := fun task timeWheel env =>
    let task := { task with enabled := true }
    if task.paused then (none, timeWheel) else addToTimeWheel timeWheel task env.add
  rollbackDB := fun tasks env => repoUpdateStatus g tasks id false task.paused env

/-- The steps of `Disable`. -/
def disableSteps (id : String) (task : TaskModel) : AtomicSteps where
  taskID := id
  opType := "disable"
  oldState := some task
  dbOp := fun tasks env =>
    (repoUpdateStatus g tasks id false task.paused env).map (fun tasks => (task, tasks))
  twOp := fun _ timeWheel _ => timeWheel.removeTask id
  rollbackDB := fun tasks env => repoUpdateStatus g tasks id true task.paused env

/-- The steps of `Pause`. -/
def pauseSteps (id : String) (task : TaskModel) : AtomicSteps where
  taskID := id
  opType := "pause"
  oldState := some task
  dbOp := fun tasks env =>
    (repoUpdateStatus g tasks id task.enabled true env).map (fun tasks => (task, tasks))
  twOp := fun _ timeWheel _ => timeWheel.pauseTask id
  rollbackDB := fun tasks env => repoUpdateStatus g tasks id task.enabled false env

/-- The steps of `Resume`. -/
def resumeSteps (id : String) (task : TaskModel) : AtomicSteps where
  taskID := id
  opType := "resume"
  oldState := some task
  dbOp := fun tasks env =>
    (repoUpdateStatus g tasks id task.enabled false env).map (fun tasks => (task, tasks))
  twOp := fun task timeWheel env =>
    if task.enabled then
      match timeWheel.resumeTask id env.resumeAt with
      | (none, timeWheel) => (none, timeWheel)
      | (some _, timeWheel) => addToTimeWheel timeWheel task env.add
    else (none, timeWheel)
  rollbackDB := fun tasks env => repoUpdateStatus g tasks id task.enabled true env

/-- The steps of `Update`. -/
def updateSteps (id : String) (req : TaskUpdateRequest) (oldCopy : TaskModel) : AtomicSteps where
  taskID := id
  opType := "update"
  oldState := some oldCopy
  dbOp := fun tasks env => repoUpdate g tasks (req.apply oldCopy) env
  twOp := fun existing timeWheel env =>
    if existing.enabled && !existing.paused then
      let (_, timeWheel) := timeWheel.removeTask id
      addToTimeWheel timeWheel existing env.add
    else (none, timeWheel)
  rollbackDB := fun tasks env => (repoUpdate g tasks oldCopy env).map Prod.snd

/-- `Create`. -/
def create (s : ServiceState) (req : TaskCreateRequest) (env : ServiceEnv) :
    Except Err TaskModel × ServiceState :=
  let req := if req.id = "" then { req with id := env.generatedID } else req
  match repoGetByID g s.tasks req.id env.get with
  | .ok _ => (.error (.text "task with this ID already exists"), s)
  | .error _ => executeAtomically s (createSteps g req) env

/-- The calls on an existing task. -/
inductive Call where
  | update (req : TaskUpdateRequest)
  | enable
  | disable
  | pause
  | resume
  | delete

/-- What a call has to do once it has read the row, unless it is done. -/
def Call.steps (id : String) (task : TaskModel) : Call → Option AtomicSteps
  | .update req => some (updateSteps g id req task)
  | .enable => if task.enabled then none else some (enableSteps g id task)
  | .disable => if task.enabled = false then none else some (disableSteps g id task)
  | .pause => if task.paused then none else some (pauseSteps g id task)
  | .resume => if task.paused = false then none else some (resumeSteps g id task)
  | .delete => some (deleteSteps g id task)

/-- The part of a call after its read. -/
def Call.body (c : Call) (s : ServiceState) (id : String) (task : TaskModel)
    (env : ServiceEnv) : Except Err TaskModel × ServiceState :=
  match c.steps g id task with
  | none => (.ok task, s)
  | some steps => executeAtomically s steps env

/-- **A call on an existing task**: the read, and the rest from what it
read. -/
def Call.execute (c : Call) (s : ServiceState) (id : String) (env : ServiceEnv) :
    Except Err TaskModel × ServiceState :=
  match repoGetByID g s.tasks id env.get with
  | .error err => (.error err, s)
  | .ok task => c.body g s id task env

/-- `Update`. -/
def update (s : ServiceState) (id : String) (req : TaskUpdateRequest) (env : ServiceEnv) :
    Except Err TaskModel × ServiceState := (Call.update req).execute g s id env

/-- `Enable`. -/
def enable (s : ServiceState) (id : String) (env : ServiceEnv) : Option Err × ServiceState :=
  errOnly (Call.enable.execute g s id env)

/-- `Disable`. -/
def disable (s : ServiceState) (id : String) (env : ServiceEnv) : Option Err × ServiceState :=
  errOnly (Call.disable.execute g s id env)

/-- `Pause`. -/
def pause (s : ServiceState) (id : String) (env : ServiceEnv) : Option Err × ServiceState :=
  errOnly (Call.pause.execute g s id env)

/-- `Resume`. -/
def resume (s : ServiceState) (id : String) (env : ServiceEnv) : Option Err × ServiceState :=
  errOnly (Call.resume.execute g s id env)

/-- `Delete`. -/
def delete (s : ServiceState) (id : String) (env : ServiceEnv) : Option Err × ServiceState :=
  errOnly (Call.delete.execute g s id env)

/-! ### All of them -/

/-- The operations of the service. -/
inductive Operation where
  | create (req : TaskCreateRequest)
  | call (id : String) (c : Call)

/-- The request with the ID it is given. -/
def requestOf (req : TaskCreateRequest) (env : ServiceEnv) : TaskCreateRequest :=
  if req.id = "" then { req with id := env.generatedID } else req

/-- The ID an operation is about. -/
def Operation.taskID (op : Operation) (env : ServiceEnv) : String :=
  match op with
  | .create req => (requestOf req env).id
  | .call id _ => id

/-- The operation as a whole. -/
def Operation.execute (g : Gorm) (op : Operation) (s : ServiceState) (env : ServiceEnv) :
    Except Err TaskModel × ServiceState :=
  match op with
  | .create req => AtomicTaskService.create g s req env
  | .call id c => c.execute g s id env

end AtomicTaskService

/-! ## What the three steps can come to -/

/-- **What an attempt at the three steps can come to**, whatever it logs:
nothing is written, or both sides are, or the wheel step fails and the rollback
leaves what it leaves. -/
inductive Attempted (steps : AtomicSteps) (s : ServiceState) (env : ServiceEnv) :
    Except Err TaskModel × ServiceState → Prop where
  | refused (err : Err) (log : List OperationLogModel) :
      Attempted steps s env (.error err, { s with opLog := log })
  | done {task : TaskModel} {tasks : TaskTable} {timeWheel : MultiLevelTimeWheel}
      (log : List OperationLogModel) (db : steps.dbOp s.tasks env.db = .ok (task, tasks))
      (tw : steps.twOp task s.timeWheel env = (none, timeWheel)) :
      Attempted steps s env (.ok task, ⟨tasks, timeWheel, log⟩)
  | undone {task : TaskModel} {tasks : TaskTable} {timeWheel : MultiLevelTimeWheel} {twErr : Err}
      (err : Err) (log : List OperationLogModel)
      (db : steps.dbOp s.tasks env.db = .ok (task, tasks))
      (tw : steps.twOp task s.timeWheel env = (some twErr, timeWheel)) :
      Attempted steps s env (.error err,
        ⟨ignoreErr tasks (steps.rollbackDB tasks env.rollback), timeWheel, log⟩)

/-- The atomic service attempts its steps. -/
theorem attempted_executeAtomically (steps : AtomicSteps) (s : ServiceState) (env : ServiceEnv) :
    Attempted steps s env (executeAtomically s steps env) := by
  unfold executeAtomically
  split
  · exact .refused _ _
  · exact .refused _ _
  · cases hdb : steps.dbOp s.tasks env.db with
    | error _ => exact .refused _ _
    | ok r =>
      obtain ⟨task, tasks⟩ := r
      dsimp only
      cases htw : steps.twOp task s.timeWheel env with
      | mk err timeWheel =>
        cases err with
        | none => exact .done _ hdb htw
        | some twErr =>
          have hundone := fun err log => Attempted.undone err log hdb htw
          dsimp only
          cases hrb : steps.rollbackDB tasks env.rollback with
          | error _ =>
            rw [hrb] at hundone
            exact hundone _ _
          | ok _ =>
            rw [hrb] at hundone
            exact hundone _ _

/-- **`Create` is the three steps** in `taskService` too, if the ID is free. -/
theorem attempted_create {g : Gorm} {s : ServiceState} {req : TaskCreateRequest}
    {env : ServiceEnv} {err : Err} (hget : repoGetByID g s.tasks req.id env.get = .error err) :
    Attempted (AtomicTaskService.createSteps g req) s env (TaskService.create g s req env) := by
  unfold TaskService.create
  rw [hget]
  dsimp only
  cases hdb : repoCreate g s.tasks req.toTaskModel env.db with
  | error _ => exact .refused _ s.opLog
  | ok r =>
    obtain ⟨taskModel, tasks⟩ := r
    have htw : (AtomicTaskService.createSteps g req).twOp taskModel s.timeWheel env
        = if req.enabled then addToTimeWheel s.timeWheel taskModel env.add
          else (none, s.timeWheel) := rfl
    dsimp only
    cases henabled : req.enabled with
    | false =>
      rw [henabled, if_neg (by exact Bool.false_ne_true)] at htw
      exact .done s.opLog hdb htw
    | true =>
      rw [henabled, if_pos rfl] at htw
      rw [if_pos rfl]
      cases hadd : addToTimeWheel s.timeWheel taskModel env.add with
      | mk err timeWheel =>
        cases err with
        | none => exact .done s.opLog hdb (htw.trans hadd)
        | some twErr => exact .undone _ s.opLog hdb (htw.trans hadd)

/-! ## Calls without failures -/

/-- Nothing fails that is not up to the program. -/
structure ServiceEnv.Calm (env : ServiceEnv) : Prop where
  get : env.get.fault = false
  db : env.db.fault = false
  rollback : env.rollback.fault = false
  marshal : env.marshalErr = none
  log : env.logErr = none

/-- A call that meets no failure, all of it at time `t`. -/
def calmEnv (t : ℕ) : ServiceEnv where
  get := ⟨Time.ofMilli t, Time.ofMilli t, false⟩
  db := ⟨Time.ofMilli t, Time.ofMilli t, false⟩
  rollback := ⟨Time.ofMilli t, Time.ofMilli t, false⟩
  add := newNodeEnv
  resumeAt := Time.ofMilli t
  generatedID := "generated"
  marshalErr := none
  logErr := none
  logUpdateOk := true

/-- A request for a task to run every second. -/
def everySecondRequest (id : String) : TaskCreateRequest where
  id := id
  name := "check"
  description := ""
  mode := 0
  intervalMs := 1000
  times := 0
  priority := 1
  timeoutMs := 0
  severity := 1
  forDurationMs := 0
  repeatIntervalMs := 0
  labels := none
  annotations := none
  enabled := true

/-- An update of nothing. -/
def TaskUpdateRequest.keep : TaskUpdateRequest :=
  ⟨none, none, none, none, none, none, none, none, none, none, none, none⟩

theorem calm_calmEnv (t : ℕ) : (calmEnv t).Calm := ⟨rfl, rfl, rfl, rfl, rfl⟩

end Timewheel
