import Timewheel.Gateway
import Timewheel.Paging
import Timewheel.SnowflakeParse
import Timewheel.Lib.Simulation

/-!
# The interface for tasks

The handlers under `/api/v1/tasks` call `taskService` and make an answer of what
it returns. Behind them is the table with the wheel; a client knows neither. It
knows IDs, and of each ID that it is not used yet, that it names a task, or that
the task is gone. That is the `Registry`.

An answer says what becomes of the registry, for anyone who also knows which of
the request's calls of the database have failed (`Does`). A client that does not
know this cannot tell the failures apart. Most of them leave the registry as it
was, but not all: a task that could not be scheduled is gone, and its ID used up,
or it is there all the same if its row could not be deleted again; a task that
could not be scheduled is enabled if that cannot be undone; and one that could not
be resumed is resumed in the table.

Every run of the interface is a trace of this registry, and its labels determine
each step (`trace_of_serve`). Requests are served one after another, and the
database is one that keeps what is written to it (`Gorm.Documented`).

The registry has no wheel in it. What the wheel contributes is one bit,
whether it has rejected a task, and this shows in the answer. Events of the
wheel between two requests are arbitrary (`Event.background`) and change
nothing that a client sees.
-/

namespace Timewheel.TaskHandler

open Middleware
open AtomicTaskService (Call)

/-! ## The code -/

/-- What the routes of `Setup` lead to. -/
inductive Endpoint where
  | create
  | list
  | get
  | update
  | delete
  | enable
  | disable
  | pause
  | resume
  deriving DecidableEq, Repr

/-- The routes for tasks, by method and pattern. -/
def routes : List ((String × String) × Endpoint) :=
  [(("POST", "/api/v1/tasks"), .create),
    (("GET", "/api/v1/tasks"), .list),
    (("GET", "/api/v1/tasks/:id"), .get),
    (("PUT", "/api/v1/tasks/:id"), .update),
    (("DELETE", "/api/v1/tasks/:id"), .delete),
    (("POST", "/api/v1/tasks/:id/enable"), .enable),
    (("POST", "/api/v1/tasks/:id/disable"), .disable),
    (("POST", "/api/v1/tasks/:id/pause"), .pause),
    (("POST", "/api/v1/tasks/:id/resume"), .resume)]

/-- What the handlers read of a request: the pattern its path has matched, the
parameters of path and query, the body as `ShouldBindJSON` reads it for the two
types of requests, and what the calls leave open. The gin router and the binding
of JSON are libraries; what they hand to the handler is part of the input. -/
structure Input where
  pattern : String
  id : String
  query : String → String
  createBody : Except String TaskCreateRequest
  updateBody : Except String TaskUpdateRequest
  env : ServiceEnv
  listEnv : ListEnv

/-- The data of an answer. -/
inductive Data where
  | task (resp : TaskResponse)
  | tasks (resp : TaskListResponse)
  | text (body : String)

/-- What a handler writes. -/
abbrev Answer := ℕ × Body Data

/-- `c.JSON` with an `ErrorResponse` of the same code. -/
def failure (status : ℕ) (message : String) : Answer := (status, errorResponse status message)

/-- `c.JSON` with a `SuccessResponse`. -/
def success (data : Option Data) : Answer := (200, successResponse data)

/-- A handler that needs the parameter `id`. The check comes first, so an empty
ID never reaches the service. -/
def withID (input : Input) (s : ServiceState) (next : Answer × ServiceState) :
    Answer × ServiceState :=
  if input.id = "" then (failure 400 "Task ID is required", s) else next

/-- A handler that calls the service for its error alone. Four of the handlers
are of this shape; they differ in the service method and in the answer to an
error. -/
def onTask (failed : Err → Answer) (op : ServiceState → String → ServiceEnv →
    Option Err × ServiceState) (input : Input) (s : ServiceState) : Answer × ServiceState :=
  withID input s
    (match op s input.id input.env with
      | (some err, s') => (failed err, s')
      | (none, s') => (success none, s'))

/-- `parseInt`. An empty or malformed number counts as the default. -/
def parseInt (s : String) (defaultVal : ℤ) : ℤ :=
  if s = "" then defaultVal
  else
    match Snowflake.parseInt s with
    | .error _ => defaultVal
    | .ok val => val.toInt

/-- The query of `List`. A priority or mode that is given but negative or
malformed is no condition at all. -/
def taskQuery (query : String → String) : TaskQuery where
  page := parseInt (query "page") 1
  pageSize := parseInt (query "page_size") 20
  name := query "name"
  enabled := if query "enabled" = "" then none else some (query "enabled" == "true")
  paused := if query "paused" = "" then none else some (query "paused" == "true")
  priority :=
    if query "priority" = "" then none
    else if parseInt (query "priority") (-1) ≥ 0 then some (parseInt (query "priority") (-1))
    else none
  mode :=
    if query "mode" = "" then none
    else if parseInt (query "mode") (-1) ≥ 0 then some (parseInt (query "mode") (-1))
    else none
  alertState := none

section Handlers

variable (g : Gorm) (f : GormFind)

/-- `Create`. The answer shows the row as it has been inserted. -/
def create (input : Input) (s : ServiceState) : Answer × ServiceState :=
  match input.createBody with
  | .error err => (failure 400 ("Invalid request: " ++ err), s)
  | .ok req =>
    match TaskService.create g s req input.env with
    | (.error err, s') => (failure 500 err.error, s')
    | (.ok task, s') => (success (some (.task task.toTaskResponse)), s')

/-- `Get`. Whatever goes wrong is answered as a task that does not exist. -/
def get (input : Input) (s : ServiceState) : Answer × ServiceState :=
  withID input s
    (match TaskService.getByID g s input.id input.env.get with
      | .error _ => (failure 404 "Task not found", s)
      | .ok resp => (success (some (.task resp)), s))

/-- `List`. It only reads. -/
def list (input : Input) (s : ServiceState) : Answer × ServiceState :=
  match TaskService.list f s.tasks (taskQuery input.query) input.listEnv with
  | .error err => (failure 500 err.error, s)
  | .ok resp => (success (some (.tasks resp)), s)

/-- `Update`. The body is only looked at if the request has an ID. -/
def update (input : Input) (s : ServiceState) : Answer × ServiceState :=
  withID input s
    (match input.updateBody with
      | .error err => (failure 400 ("Invalid request: " ++ err), s)
      | .ok req =>
        match TaskService.update g s input.id req input.env with
        | (.error err, s') => (failure 500 err.error, s')
        | (.ok task, s') => (success (some (.task task.toTaskResponse)), s'))

/-- `Delete`. An error of the service is answered as a task that does not exist. -/
def delete : Input → ServiceState → Answer × ServiceState :=
  onTask (fun _ => failure 404 "Task not found") (TaskService.delete g)

/-- `Enable`. -/
def enable : Input → ServiceState → Answer × ServiceState :=
  onTask (fun err => failure 500 err.error) (TaskService.enable g)

/-- `Disable`. -/
def disable : Input → ServiceState → Answer × ServiceState :=
  onTask (fun err => failure 500 err.error) (TaskService.disable g)

/-- `Pause`. -/
def pause : Input → ServiceState → Answer × ServiceState :=
  onTask (fun err => failure 500 err.error) (TaskService.pause g)

/-- `Resume`. -/
def resume : Input → ServiceState → Answer × ServiceState :=
  onTask (fun err => failure 500 err.error) (TaskService.resume g)

/-- The handler of an endpoint. -/
def Endpoint.handler : Endpoint → Input → ServiceState → Answer × ServiceState
  | .create => TaskHandler.create g
  | .list => TaskHandler.list f
  | .get => TaskHandler.get g
  | .update => TaskHandler.update g
  | .delete => TaskHandler.delete g
  | .enable => TaskHandler.enable g
  | .disable => TaskHandler.disable g
  | .pause => TaskHandler.pause g
  | .resume => TaskHandler.resume g

/-- **The routes.** Those for alerts, health and metrics only read, and what has
no route is not found: `others`. The two kinds of routes share the middlewares
and nothing else. -/
def setup (others : HttpRequest Input → ServiceState → Middleware.Outcome Data) :
    Route Input Data ServiceState := fun req s =>
  match routes.lookup (req.method, req.input.pattern) with
  | some endpoint =>
    let r := endpoint.handler g f req.input s
    (.wrote r.1.1 r.1.2, r.2)
  | none => (others req s, s)

end Handlers

/-! ## The registry -/

/-- What an ID stands for. A row that has been deleted stays in the table, so
its ID is used up for good. -/
inductive Entry where
  | unused
  | task (row : TaskModel)
  | gone

/-- What a client knows of the table. -/
abbrev Registry := String → Entry

/-- What a row of the table stands for. -/
def entryOf : Option TaskModel → Entry
  | none => .unused
  | some row => if row.deletedAt.isNone then .task row else .gone

/-- **The registry of a table.** It forgets everything the handlers do not show,
the wheel in particular. -/
def registry (t : TaskTable) : Registry := fun id => entryOf (t id)

/-- The status an endpoint asks for. The pair is what `UpdateStatus` writes:
enabled, and paused. -/
def Endpoint.status (row : TaskModel) : Endpoint → Option (Bool × Bool)
  | .enable => some (true, row.paused)
  | .disable => some (false, row.paused)
  | .pause => some (row.enabled, true)
  | .resume => some (row.enabled, false)
  | _ => none

/-- The read of the task of a request finds none, or fails. The handler cannot
tell the two apart. -/
def Missing (R : Registry) (input : Input) : Prop :=
  input.env.get.fault = true ∨ ∀ row, R input.id ≠ .task row

/-- The task of a request to the endpoint is not changed: there is none, or its
status would have to be written and the write fails. A status that is already as
asked for is not written, so nothing can fail. -/
def NotWritten (R : Registry) (input : Input) (e : Endpoint) : Prop :=
  Missing R input ∨ input.env.db.fault = true
    ∧ ∀ row, R input.id = .task row → e.status row ≠ some (row.enabled, row.paused)

/-- The calls of the database before the wheel is called do not fail. What is
called later may still fail. -/
structure Stored (input : Input) : Prop where
  get : input.env.get.fault = false
  db : input.env.db.fault = false

/-- **What an answer says of the registry**: the request `input` to the endpoint
is answered so, and the registry is `R'` then. `L` says what a listing may
answer. Each constructor is one way through a handler, with the faults that lead
there. -/
inductive Does (L : Registry → Input → Answer → Prop) (R : Registry) (input : Input) :
    Endpoint → Answer → Registry → Prop where
  | noID {e : Endpoint} (he : e ≠ .create ∧ e ≠ .list) (hid : input.id = "") :
      Does L R input e (failure 400 "Task ID is required") R
  | list {answer : Answer} (h : L R input answer) : Does L R input .list answer R
  /-- The row as it is in the table. -/
  | found {row : TaskModel} (hget : input.env.get.fault = false) (h : R input.id = .task row) :
      Does L R input .get (success (some (.task row.toTaskResponse))) R
  | notFound (h : Missing R input) : Does L R input .get (failure 404 "Task not found") R
  | badCreate {err : String} (hreq : input.createBody = .error err) :
      Does L R input .create (failure 400 ("Invalid request: " ++ err)) R
  | created {req : TaskCreateRequest} (hreq : input.createBody = .ok req)
      (hdb : input.env.db.fault = false) (h : R req.id = .unused) :
      Does L R input .create
        (success (some (.task (req.toTaskModel.created input.env.db.stamp).toTaskResponse)))
        (Function.update R req.id (.task (req.toTaskModel.created input.env.db.stamp)))
  /-- The ID is used, or the insertion fails. -/
  | notCreated {req : TaskCreateRequest} (err : String) (hreq : input.createBody = .ok req)
      (h : R req.id ≠ .unused ∨ input.env.db.fault = true) :
      Does L R input .create (failure 500 err) R
  /-- The wheel has rejected the task, and its row has been deleted again. -/
  | unscheduled {req : TaskCreateRequest} (err : String) (hreq : input.createBody = .ok req)
      (henabled : req.enabled = true) (hdb : input.env.db.fault = false)
      (hback : input.env.rollback.fault = false) (h : R req.id = .unused) :
      Does L R input .create (failure 500 err) (Function.update R req.id .gone)
  /-- The row could not be deleted again. -/
  | stranded {req : TaskCreateRequest} (err : String) (hreq : input.createBody = .ok req)
      (henabled : req.enabled = true) (hdb : input.env.db.fault = false)
      (hback : input.env.rollback.fault = true) (h : R req.id = .unused) :
      Does L R input .create (failure 500 err)
        (Function.update R req.id (.task (req.toTaskModel.created input.env.db.stamp)))
  | badUpdate {err : String} (hreq : input.updateBody = .error err) :
      Does L R input .update (failure 400 ("Invalid request: " ++ err)) R
  | updated {row : TaskModel} {req : TaskUpdateRequest} (hreq : input.updateBody = .ok req)
      (hdb : Stored input) (h : R input.id = .task row) :
      Does L R input .update
        (success (some (.task ((req.apply row).touched input.env.db.stamp).toTaskResponse)))
        (Function.update R input.id (.task ((req.apply row).touched input.env.db.stamp)))
  | notUpdated {req : TaskUpdateRequest} (err : String) (hreq : input.updateBody = .ok req)
      (h : Missing R input ∨ input.env.db.fault = true) :
      Does L R input .update (failure 500 err) R
  | deleted {row : TaskModel} (hdb : input.env.db.fault = false) (h : R input.id = .task row) :
      Does L R input .delete (success none) (Function.update R input.id .gone)
  | nothingDeleted (hdb : input.env.db.fault = false) (h : ∀ row, R input.id ≠ .task row) :
      Does L R input .delete (success none) R
  | notDeleted (hdb : input.env.db.fault = true) :
      Does L R input .delete (failure 404 "Task not found") R
  | already {e : Endpoint} {row : TaskModel} (hget : input.env.get.fault = false)
      (h : R input.id = .task row) (hstatus : e.status row = some (row.enabled, row.paused)) :
      Does L R input e (success none) R
  | changed {e : Endpoint} {row : TaskModel} {enabled paused : Bool} (hdb : Stored input)
      (h : R input.id = .task row) (hstatus : e.status row = some (enabled, paused))
      (hne : e.status row ≠ some (row.enabled, row.paused)) :
      Does L R input e (success none)
        (Function.update R input.id (.task (row.written enabled paused input.env.db)))
  | notChanged {e : Endpoint} (err : String) (he : e ∈ [.enable, .disable, .pause, .resume])
      (h : NotWritten R input e) : Does L R input e (failure 500 err) R
  /-- The wheel has rejected the task, and the status has been written back. -/
  | disabledAgain {row : TaskModel} (err : String) (hdb : Stored input)
      (hback : input.env.rollback.fault = false) (h : R input.id = .task row)
      (henabled : row.enabled = false) (hpaused : row.paused = false) :
      Does L R input .enable (failure 500 err)
        (Function.update R input.id (.task ((row.written true row.paused input.env.db).written false
          row.paused input.env.rollback)))
  /-- The status could not be written back. -/
  | enabledAnyway {row : TaskModel} (err : String) (hdb : Stored input)
      (hback : input.env.rollback.fault = true) (h : R input.id = .task row)
      (henabled : row.enabled = false) (hpaused : row.paused = false) :
      Does L R input .enable (failure 500 err)
        (Function.update R input.id (.task (row.written true row.paused input.env.db)))
  /-- The wheel has rejected the task, and nobody writes the status back. -/
  | resumedAnyway {row : TaskModel} (err : String) (hdb : Stored input)
      (h : R input.id = .task row) (henabled : row.enabled = true) (hpaused : row.paused = true) :
      Does L R input .resume (failure 500 err)
        (Function.update R input.id (.task (row.written row.enabled false input.env.db)))

/-- **What a listing answers**: the page of the query, of all tasks in the
registry that satisfy its conditions, the newest first, with the number of them;
or an error, if one of the two queries fails. Ties in the time of creation may
come in any order, which is why the rows are given up to what `NewestFirst` and
the conditions determine. -/
inductive Page (like : String → String → Bool) (R : Registry) (input : Input) : Answer → Prop where
  | listed {rows : List TaskModel} (query : TaskQuery)
      (hquery : query = (taskQuery input.query).clamped) (hok : input.listEnv.Faultless)
      (nodup : rows.Nodup) (mem : ∀ row, row ∈ rows ↔ R row.id = .task row
        ∧ query.conditions.all (Condition.holds like row) = true) (newest : NewestFirst rows) :
      Page like R input (success (some (.tasks
        ⟨((rows.drop ((query.page - 1) * query.pageSize).toNat).take query.pageSize.toNat).map
          TaskModel.toTaskResponse, rows.length, query.page, query.pageSize⟩)))
  | failed (err : String) (hfault : ¬ input.listEnv.Faultless) :
      Page like R input (failure 500 err)

/-- Any answer at all. Most of what follows does not depend on what listings
show. -/
def anyPage : Registry → Input → Answer → Prop := fun _ _ _ => True

section Registry

variable {g : Gorm} {f : GormFind} {s : ServiceState} {t : TaskTable} {id : String}
  {row : TaskModel} {input : Input} {L : Registry → Input → Answer → Prop}

/-- An entry is a task exactly if its row is live, -/
theorem entryOf_task : entryOf (t id) = .task row ↔ t.live id = some row := by
  unfold entryOf
  rw [TaskTable.live_eq_some]
  cases hrow : t id with
  | none => simp
  | some row' =>
    by_cases hdel : row'.deletedAt = none
    · simp only [hdel, Option.isNone_none, if_true, Entry.task.injEq, Option.some.injEq]
      exact ⟨fun h => ⟨h, h ▸ hdel⟩, fun h => h.1⟩
    · simp only [Option.isNone_iff_eq_none, hdel, if_false, reduceCtorEq, Option.some.injEq,
        false_iff, not_and]
      exact fun h => h ▸ hdel

/-- and unused exactly if there is no row. -/
theorem entryOf_unused {o : Option TaskModel} : entryOf o = .unused ↔ o = none := by
  unfold entryOf
  cases o with
  | none => simp
  | some row =>
    show (if row.deletedAt.isNone = true then Entry.task row else Entry.gone) = .unused ↔ _
    split_ifs
    · simp
    · simp

/-- A row is written. One entry changes. -/
theorem registry_update (t : TaskTable) (id : String) (o : Option TaskModel) :
    registry (Function.update t id o) = Function.update (registry t) id (entryOf o) :=
  Function.comp_update entryOf t id o

/-- A row that has not been deleted stands for its task. -/
theorem entryOf_some (h : row.deletedAt = none) : entryOf (some row) = .task row := by
  show (if row.deletedAt.isNone = true then Entry.task row else Entry.gone) = .task row
  rw [h]
  rfl

/-- The two facts above, for the registry: -/
theorem registry_task : registry t id = .task row ↔ t.live id = some row := entryOf_task

/-- no task means no live row. -/
theorem registry_ne_task : (∀ row, registry t id ≠ .task row) ↔ t.live id = none := by
  rw [Option.eq_none_iff_forall_ne_some]
  exact forall_congr' (fun row => not_congr registry_task)

/-- The rows keep their keys, and the registry changes as the answer says. This
is what is shown of every handler below. -/
def Done (L : Registry → Input → Answer → Prop) (s : ServiceState) (input : Input) (e : Endpoint)
    (r : Answer × ServiceState) : Prop :=
  r.2.tasks.Keyed ∧ Does L (registry s.tasks) input e r.1 (registry r.2.tasks)

/-- The table stays. Then only the answer is left to be checked. -/
theorem done_same (ht : s.tasks.Keyed) {e : Endpoint} {answer : Answer} {s' : ServiceState}
    (hs' : s'.tasks = s.tasks) (h : Does L (registry s.tasks) input e answer (registry s.tasks)) :
    Done L s input e (answer, s') := by
  refine ⟨?_, ?_⟩
  · show s'.tasks.Keyed
    rwa [hs']
  · show Does _ _ _ _ _ (registry s'.tasks)
    rwa [hs']

/-- One row is written. The row has to be live, and to be written under its own
ID. -/
theorem done_update (ht : s.tasks.Keyed) {e : Endpoint} {answer : Answer} {s' : ServiceState}
    (hs' : s'.tasks = Function.update s.tasks id (some row)) (hid : row.id = id)
    (hrow : row.deletedAt = none)
    (h : Does L (registry s.tasks) input e answer
      (Function.update (registry s.tasks) id (.task row))) : Done L s input e (answer, s') := by
  refine ⟨?_, ?_⟩
  · show s'.tasks.Keyed
    rw [hs']
    exact ht.update hid
  · show Does _ _ _ _ _ (registry s'.tasks)
    rw [hs', registry_update, entryOf_some hrow]
    exact h

/-! ## The handlers -/

/-- A row that has been deleted. A soft delete only sets the time. -/
theorem entryOf_deleted (row : TaskModel) (stamp : Time) :
    entryOf (some { row with deletedAt := some stamp }) = .gone := rfl

/-- What `UpdateStatus` has written. Two columns change, and the time of the
last change. -/
theorem tasks_of_status (hg : g.Documented) (hlive : t.live id = some row) {enabled paused : Bool}
    {env : DbEnv} {tasks : TaskTable}
    (hok : repoUpdateStatus g t id enabled paused env = .ok tasks) :
    tasks = Function.update t id (some (row.written enabled paused env)) := by
  rw [((repoUpdateStatus_ok hg).mp hok).2, TaskTable.modifyLive_live hlive]
  rfl

/-- The row of an ID that is found. A table that is keyed finds a row under the
row's own ID. -/
theorem row_of_found (hg : g.Documented) (ht : t.Keyed) {env : DbEnv}
    (hok : repoGetByID g t id env = .ok row) :
    registry t id = .task row ∧ t.live id = some row ∧ row.id = id ∧ row.deletedAt = none := by
  have hlive := ((repoGetByID_ok hg).mp hok).2
  obtain ⟨hrow, hdel⟩ := TaskTable.live_eq_some.mp hlive
  exact ⟨registry_task.mpr hlive, hlive, ht id row hrow, hdel⟩

/-- Nothing is found. Either the call has failed, or there is no live row. -/
theorem missing_of_error (hg : g.Documented) {err : Err}
    (hget : repoGetByID g t input.id input.env.get = .error err) : Missing (registry t) input := by
  cases hfault : input.env.get.fault with
  | true => exact .inl hfault
  | false => exact .inr (registry_ne_task.mpr ((repoGetByID_missing hg hfault).mp ⟨err, hget⟩))

/-- The status is not written. The row was there, so the write itself has
failed. -/
theorem notWritten_of_error (hg : g.Documented) {e : Endpoint} {enabled paused : Bool} {err : Err}
    (hentry : registry t input.id = .task row)
    (hne : e.status row ≠ some (row.enabled, row.paused))
    (hdb : repoUpdateStatus g t input.id enabled paused input.env.db = .error err) :
    NotWritten (registry t) input e := by
  refine .inr ⟨?_, fun row' hrow' => ?_⟩
  · by_contra hfault
    rw [repoUpdateStatus, hg.updates_ok _ _ _ _ (Bool.eq_false_iff.mpr hfault)] at hdb
    cases hdb
  · obtain rfl : row = row' := Entry.task.inj (hentry.symm.trans hrow')
    exact hne

/-- A handler behind the check for the ID may assume that there is one. -/
theorem done_withID (ht : s.tasks.Keyed) {e : Endpoint} (he : e ≠ .create ∧ e ≠ .list)
    {next : Answer × ServiceState} (h : input.id ≠ "" → Done L s input e next) :
    Done L s input e (withID input s next) := by
  unfold withID
  split_ifs with hid
  · exact done_same ht rfl (.noID he hid)
  · exact h hid

/-- `Create`: the row is inserted first. If the wheel then rejects the task, the
row is deleted again, and if this fails it stays. -/
theorem done_create (hg : g.Documented) (ht : s.tasks.Keyed) (input : Input) :
    Done L s input .create (create g input s) := by
  unfold create
  cases hreq : input.createBody with
  | error err => exact done_same ht rfl (.badCreate hreq)
  | ok req =>
    dsimp only
    unfold TaskService.create
    cases hget : repoGetByID g s.tasks req.id input.env.get with
    | ok row =>
      -- there is a live row of the ID, so it is in use, and nothing is written
      refine done_same ht rfl (.notCreated _ hreq (.inl ?_))
      rw [(row_of_found hg ht hget).1]
      exact nofun
    | error err =>
      dsimp only
      cases hdb : repoCreate g s.tasks req.toTaskModel input.env.db with
      | error err =>
        refine done_same ht rfl (.notCreated _ hreq ?_)
        -- an unused ID and a database that answers would have made the insertion succeed
        by_contra hnot
        obtain ⟨hunused, hfault⟩ := not_or.mp hnot
        have hnone : s.tasks req.id = none := entryOf_unused.mp (not_not.mp hunused)
        rw [repoCreate, hg.create_new _ _ _ (Bool.eq_false_iff.mpr hfault) hnone] at hdb
        cases hdb
      | ok r =>
        obtain ⟨row, tasks⟩ := r
        obtain ⟨hfault, hnone, rfl, rfl⟩ := (repoCreate_ok hg).mp hdb
        have hunused : registry s.tasks req.id = .unused := entryOf_unused.mpr hnone
        have hcreated := @Does.created L _ _ _ hreq hfault hunused
        dsimp only
        split_ifs with henabled
        · cases hadd : addToTimeWheel s.timeWheel (req.toTaskModel.created input.env.db.stamp)
              input.env.add with
          | mk err timeWheel =>
            cases err with
            | none => exact done_update ht rfl rfl rfl hcreated
            | some err =>
              dsimp only
              -- the wheel rejects the task; whether the row can be deleted again
              -- decides what is left
              cases hback : input.env.rollback.fault with
              | true =>
                obtain ⟨err', herr'⟩ := hg.delete_fault (Function.update s.tasks req.id
                  (some (req.toTaskModel.created input.env.db.stamp))) req.id _ hback
                have hdel : repoDelete g (Function.update s.tasks req.id
                  (some (req.toTaskModel.created input.env.db.stamp))) req.id input.env.rollback
                  = .error err' := herr'
                exact done_update ht (congrArg (ignoreErr _) hdel) rfl rfl
                  (.stranded _ hreq henabled hfault hback hunused)
              | false =>
                have hdel := @repoDelete_update g s.tasks req.id
                  (req.toTaskModel.created input.env.db.stamp) input.env.rollback hg hback rfl
                refine ⟨?_, ?_⟩
                · show TaskTable.Keyed (ignoreErr _ (repoDelete g
                    (Function.update s.tasks req.id _) req.id _))
                  rw [hdel]
                  exact ht.update rfl
                · show Does _ _ _ _ _ (registry (ignoreErr _ (repoDelete g
                    (Function.update s.tasks req.id _) req.id _)))
                  rw [hdel]
                  show Does _ _ _ _ _ (registry (Function.update s.tasks req.id _))
                  rw [registry_update, entryOf_deleted]
                  exact .unscheduled _ hreq henabled hfault hback hunused
        · exact done_update ht rfl rfl rfl hcreated

/-- `Get`: the answer is the row of the registry, or 404. -/
theorem done_get (hg : g.Documented) (ht : s.tasks.Keyed) (input : Input) :
    Done L s input .get (get g input s) := by
  refine done_withID ht (by simp) (fun _ => ?_)
  unfold TaskService.getByID
  cases hget : repoGetByID g s.tasks input.id input.env.get with
  | ok row =>
    exact done_same ht rfl (.found ((repoGetByID_ok hg).mp hget).1 (row_of_found hg ht hget).1)
  | error err => exact done_same ht rfl (.notFound (missing_of_error hg hget))

/-- `List`: what it answers is the business of `L`. -/
theorem done_list (f : GormFind) (ht : s.tasks.Keyed) (input : Input)
    (hL : L (registry s.tasks) input (list f input s).1) :
    Done L s input .list (list f input s) := by
  have hs : (list f input s).2.tasks = s.tasks := by
    unfold list
    cases TaskService.list f s.tasks (taskQuery input.query) input.listEnv with
    | error err => rfl
    | ok resp => rfl
  exact done_same ht hs (.list hL)

/-- `Update`: the row is read, changed and saved. What the wheel makes of it
shows in the answer only as a success. -/
theorem done_update_handler (hg : g.Documented) (ht : s.tasks.Keyed) (input : Input) :
    Done L s input .update (update g input s) := by
  refine done_withID ht (by simp) (fun hne => ?_)
  cases hreq : input.updateBody with
  | error err => exact done_same ht rfl (.badUpdate hreq)
  | ok req =>
    dsimp only
    unfold TaskService.update
    cases hget : repoGetByID g s.tasks input.id input.env.get with
    | error err => exact done_same ht rfl (.notUpdated _ hreq (.inl (missing_of_error hg hget)))
    | ok row =>
      obtain ⟨hentry, hlive, hid, hdel⟩ := row_of_found hg ht hget
      have hid' : (req.apply row).id = input.id := hid
      have hrow : s.tasks.live (req.apply row).id ≠ none := by
        rw [hid', hlive]
        exact Option.some_ne_none row
      dsimp only
      cases hdb : repoUpdate g s.tasks (req.apply row) input.env.db with
      | error err =>
        refine done_same ht rfl (.notUpdated _ hreq (.inr ?_))
        by_contra hfault
        have hok := (repoUpdate_ok hg hrow).mpr
          ⟨Bool.eq_false_iff.mpr hfault, ne_of_eq_of_ne hid' hne, rfl, rfl⟩
        exact (nomatch hok.symm.trans hdb)
      | ok r =>
        obtain ⟨row', tasks⟩ := r
        obtain ⟨hfault, -, rfl, rfl⟩ := (repoUpdate_ok hg hrow).mp hdb
        have hupdated := @Does.updated L _ _ _ _ hreq
          ⟨((repoGetByID_ok hg).mp hget).1, hfault⟩ hentry
        dsimp only
        split_ifs
        · exact done_update ht (congrArg (Function.update s.tasks · _) hid') hid' hdel hupdated
        · exact done_update ht (congrArg (Function.update s.tasks · _) hid') hid' hdel hupdated

/-- `Delete`: a row that is not there counts as deleted. -/
theorem done_delete (hg : g.Documented) (ht : s.tasks.Keyed) (input : Input) :
    Done L s input .delete (delete g input s) := by
  refine done_withID ht (by simp) (fun _ => ?_)
  unfold TaskService.delete
  cases hdb : repoDelete g s.tasks input.id input.env.db with
  | error err =>
    refine done_same ht rfl (.notDeleted ?_)
    by_contra hfault
    rw [repoDelete, hg.delete_ok _ _ _ (Bool.eq_false_iff.mpr hfault)] at hdb
    cases hdb
  | ok tasks =>
    obtain ⟨hfault, htasks⟩ := (repoDelete_ok hg).mp hdb
    cases hlive : s.tasks.live input.id with
    | none =>
      rw [TaskTable.modifyLive_none hlive] at htasks
      exact done_same ht htasks (.nothingDeleted hfault (registry_ne_task.mpr hlive))
    | some row =>
      rw [TaskTable.modifyLive_live hlive] at htasks
      have hid : row.id = input.id := ht _ _ (TaskTable.live_eq_some.mp hlive).1
      refine ⟨?_, ?_⟩
      · show tasks.Keyed
        rw [htasks]
        exact ht.update hid
      · show Does _ _ _ _ _ (registry tasks)
        rw [htasks, registry_update, entryOf_deleted]
        exact .deleted hfault (registry_task.mpr hlive)

/-- The status has been written. From here on the handlers of the four endpoints
differ in what the wheel does. -/
theorem done_status (hg : g.Documented) (ht : s.tasks.Keyed)
    (hget : repoGetByID g s.tasks input.id input.env.get = .ok row) {enabled paused : Bool}
    {tasks : TaskTable}
    (hdb : repoUpdateStatus g s.tasks input.id enabled paused input.env.db = .ok tasks)
    {e : Endpoint} {answer : Answer} {s' : ServiceState} (hs' : s'.tasks = tasks)
    (h : Stored input → Does L (registry s.tasks) input e answer
      (Function.update (registry s.tasks) input.id
        (.task (row.written enabled paused input.env.db)))) : Done L s input e (answer, s') := by
  obtain ⟨-, hlive, hid, hdel⟩ := row_of_found hg ht hget
  exact done_update ht (hs'.trans (tasks_of_status hg hlive hdb)) hid hdel
    (h ⟨((repoGetByID_ok hg).mp hget).1, ((repoUpdateStatus_ok hg).mp hdb).1⟩)

/-- The status is different, and has been written. This is how the four
endpoints succeed. -/
theorem done_changed (hg : g.Documented) (ht : s.tasks.Keyed)
    (hget : repoGetByID g s.tasks input.id input.env.get = .ok row) {enabled paused : Bool}
    {tasks : TaskTable}
    (hdb : repoUpdateStatus g s.tasks input.id enabled paused input.env.db = .ok tasks)
    {e : Endpoint} {s' : ServiceState} (hs' : s'.tasks = tasks)
    (hstatus : e.status row = some (enabled, paused))
    (hne : e.status row ≠ some (row.enabled, row.paused)) :
    Done L s input e (success none, s') :=
  done_status hg ht hget hdb hs'
    (fun hstored => .changed hstored (row_of_found hg ht hget).1 hstatus hne)

/-- `Enable`: a task that the wheel rejects is disabled again, if that can be
written. -/
theorem done_enable (hg : g.Documented) (ht : s.tasks.Keyed) (input : Input) :
    Done L s input .enable (enable g input s) := by
  refine done_withID ht (by simp) (fun _ => ?_)
  unfold TaskService.enable
  cases hget : repoGetByID g s.tasks input.id input.env.get with
  | error err =>
    exact done_same ht rfl (.notChanged _ (by simp) (.inl (missing_of_error hg hget)))
  | ok row =>
    obtain ⟨hentry, hlive, hid, hdel⟩ := row_of_found hg ht hget
    have hfound := ((repoGetByID_ok hg).mp hget).1
    dsimp only
    -- three ways: enabled before; paused, so nothing is asked of the wheel; or added to it
    split_ifs with henabled hpaused
    · exact done_same ht rfl (.already hfound hentry (by rw [henabled]; rfl))
    · have hne : Endpoint.enable.status row ≠ some (row.enabled, row.paused) := by
        simp [Endpoint.status, henabled]
      cases hdb : repoUpdateStatus g s.tasks input.id true row.paused input.env.db with
      | error err =>
        exact done_same ht rfl (.notChanged _ (by simp) (notWritten_of_error hg hentry hne hdb))
      | ok tasks => exact done_changed hg ht hget hdb rfl rfl hne
    · have hne : Endpoint.enable.status row ≠ some (row.enabled, row.paused) := by
        simp [Endpoint.status, henabled]
      have henabled : row.enabled = false := Bool.eq_false_iff.mpr henabled
      have hpaused : row.paused = false := Bool.eq_false_iff.mpr hpaused
      cases hdb : repoUpdateStatus g s.tasks input.id true row.paused input.env.db with
      | error err =>
        exact done_same ht rfl (.notChanged _ (by simp) (notWritten_of_error hg hentry hne hdb))
      | ok tasks =>
        dsimp only
        cases addToTimeWheel s.timeWheel { row with enabled := true } input.env.add with
        | mk err timeWheel =>
          cases err with
          | none => exact done_changed hg ht hget hdb rfl rfl hne
          | some err =>
            dsimp only
            have htasks := tasks_of_status hg hlive hdb
            -- rejected by the wheel: the flag is written back, or stays
            cases hback : input.env.rollback.fault with
            | true =>
              obtain ⟨err', herr'⟩ := hg.updates_fault false tasks input.id
                (fun row' => row'.withStatus false row.paused input.env.rollback.now) _ hback
              exact done_status hg ht hget hdb (congrArg (ignoreErr tasks) herr')
                (fun hstored => .enabledAnyway _ hstored hback hentry henabled hpaused)
            | false =>
              have hdone := @repoUpdateStatus_update g s.tasks input.id
                (row.written true row.paused input.env.db) input.env.rollback hg hback hdel false
                row.paused
              rw [← htasks] at hdone
              exact done_update ht (congrArg (ignoreErr tasks) hdone) hid hdel
                (.disabledAgain _ ⟨hfound, ((repoUpdateStatus_ok hg).mp hdb).1⟩ hback hentry henabled
                  hpaused)

/-- `Disable`: what the wheel answers is ignored. -/
theorem done_disable (hg : g.Documented) (ht : s.tasks.Keyed) (input : Input) :
    Done L s input .disable (disable g input s) := by
  refine done_withID ht (by simp) (fun _ => ?_)
  unfold TaskService.disable
  cases hget : repoGetByID g s.tasks input.id input.env.get with
  | error err =>
    exact done_same ht rfl (.notChanged _ (by simp) (.inl (missing_of_error hg hget)))
  | ok row =>
    have hentry := (row_of_found hg ht hget).1
    dsimp only
    split_ifs with henabled
    · exact done_same ht rfl
        (.already ((repoGetByID_ok hg).mp hget).1 hentry (by rw [henabled]; rfl))
    · have hne : Endpoint.disable.status row ≠ some (row.enabled, row.paused) :=
        fun h => henabled (Prod.mk.inj (Option.some.inj h)).1.symm
      cases hdb : repoUpdateStatus g s.tasks input.id false row.paused input.env.db with
      | error err =>
        exact done_same ht rfl (.notChanged _ (by simp) (notWritten_of_error hg hentry hne hdb))
      | ok tasks => exact done_changed hg ht hget hdb rfl rfl hne

/-- `Pause`: the same. -/
theorem done_pause (hg : g.Documented) (ht : s.tasks.Keyed) (input : Input) :
    Done L s input .pause (pause g input s) := by
  refine done_withID ht (by simp) (fun _ => ?_)
  unfold TaskService.pause
  cases hget : repoGetByID g s.tasks input.id input.env.get with
  | error err =>
    exact done_same ht rfl (.notChanged _ (by simp) (.inl (missing_of_error hg hget)))
  | ok row =>
    have hentry := (row_of_found hg ht hget).1
    dsimp only
    split_ifs with hpaused
    · exact done_same ht rfl
        (.already ((repoGetByID_ok hg).mp hget).1 hentry (by rw [hpaused]; rfl))
    · have hne : Endpoint.pause.status row ≠ some (row.enabled, row.paused) := by
        simp [Endpoint.status, hpaused]
      cases hdb : repoUpdateStatus g s.tasks input.id row.enabled true input.env.db with
      | error err =>
        exact done_same ht rfl (.notChanged _ (by simp) (notWritten_of_error hg hentry hne hdb))
      | ok tasks => exact done_changed hg ht hget hdb rfl rfl hne

/-- `Resume`: a task that the wheel rejects stays resumed in the table. -/
theorem done_resume (hg : g.Documented) (ht : s.tasks.Keyed) (input : Input) :
    Done L s input .resume (resume g input s) := by
  refine done_withID ht (by simp) (fun _ => ?_)
  unfold TaskService.resume
  cases hget : repoGetByID g s.tasks input.id input.env.get with
  | error err =>
    exact done_same ht rfl (.notChanged _ (by simp) (.inl (missing_of_error hg hget)))
  | ok row =>
    have hentry := (row_of_found hg ht hget).1
    dsimp only
    split_ifs with hpaused henabled
    · exact done_same ht rfl
        (.already ((repoGetByID_ok hg).mp hget).1 hentry (by rw [hpaused]; rfl))
    · have hne : Endpoint.resume.status row ≠ some (row.enabled, row.paused) :=
        fun h => hpaused (Prod.mk.inj (Option.some.inj h)).2.symm
      have hpaused : row.paused = true := by simpa using hpaused
      cases hdb : repoUpdateStatus g s.tasks input.id row.enabled false input.env.db with
      | error err =>
        exact done_same ht rfl (.notChanged _ (by simp) (notWritten_of_error hg hentry hne hdb))
      | ok tasks =>
        dsimp only
        cases s.timeWheel.resumeTask input.id input.env.resumeAt with
        | mk err timeWheel =>
          cases err with
          | none => exact done_changed hg ht hget hdb rfl rfl hne
          | some _ =>
            dsimp only
            cases addToTimeWheel timeWheel row input.env.add with
            | mk err timeWheel =>
              cases err with
              | none => exact done_changed hg ht hget hdb rfl rfl hne
              | some err =>
                exact done_status hg ht hget hdb rfl
                  (fun hstored => .resumedAnyway _ hstored hentry henabled hpaused)
    · have hne : Endpoint.resume.status row ≠ some (row.enabled, row.paused) :=
        fun h => hpaused (Prod.mk.inj (Option.some.inj h)).2.symm
      cases hdb : repoUpdateStatus g s.tasks input.id row.enabled false input.env.db with
      | error err =>
        exact done_same ht rfl (.notChanged _ (by simp) (notWritten_of_error hg hentry hne hdb))
      | ok tasks => exact done_changed hg ht hget hdb rfl rfl hne

/-- **Every handler does what its answer says.** The handlers one by one. -/
theorem done_handler (hg : g.Documented) (f : GormFind) (ht : s.tasks.Keyed) (e : Endpoint)
    (input : Input) (hL : L (registry s.tasks) input (list f input s).1) :
    Done L s input e (e.handler g f input s) := by
  cases e with
  | create => exact done_create hg ht input
  | list => exact done_list f ht input hL
  | get => exact done_get hg ht input
  | update => exact done_update_handler hg ht input
  | delete => exact done_delete hg ht input
  | enable => exact done_enable hg ht input
  | disable => exact done_disable hg ht input
  | pause => exact done_pause hg ht input
  | resume => exact done_resume hg ht input

/-- The page and its size are positive. The service replaces anything else by
its defaults. -/
theorem clamped_pos (query : TaskQuery) : 0 < query.clamped.page ∧ 0 < query.clamped.pageSize := by
  unfold TaskQuery.clamped
  dsimp only
  constructor
  · split_ifs
    all_goals omega
  · split_ifs
    all_goals omega

/-- **A listing is a page of the registry.** The two queries ask for the rows
that satisfy the conditions, and for their number. -/
theorem page_of_list (hf : f.Documented s.tasks) (input : Input) :
    Page f.like (registry s.tasks) input (list f input s).1 := by
  obtain ⟨hpage, hsize⟩ := clamped_pos (taskQuery input.query)
  unfold list TaskService.list repoList
  dsimp only
  generalize hquery : (taskQuery input.query).clamped = query at hpage hsize ⊢
  cases hcount : input.listEnv.count.fault with
  | true =>
    obtain ⟨err, herr⟩ := hf.count_fault query.conditions _ hcount
    rw [herr]
    exact .failed _ (fun hok => Bool.false_ne_true (hok.count.symm.trans hcount))
  | false =>
    obtain ⟨counted, hcounted, hcounts⟩ := hf.count_ok query.conditions _ hcount
    rw [hcounts]
    dsimp only
    rw [if_pos ⟨hpage, hsize⟩]
    cases hfind : input.listEnv.find.fault with
    | true =>
      obtain ⟨err, herr⟩ := hf.find_fault query.conditions
        (some ⟨(query.page - 1) * query.pageSize, query.pageSize⟩) _ hfind
      rw [herr]
      exact .failed _ (fun hok => Bool.false_ne_true (hok.find.symm.trans hfind))
    | false =>
      have hoffset : 0 ≤ (query.page - 1) * query.pageSize :=
        mul_nonneg (Int.sub_nonneg_of_le hpage) hsize.le
      obtain ⟨rows, hlists, hnewest, hfinds⟩ := hf.find_page query.conditions
        ⟨(query.page - 1) * query.pageSize, query.pageSize⟩ _ hfind hoffset hsize
      rw [hfinds, (hlists.perm_of_lists hcounted).length_eq]
      exact .listed query hquery.symm ⟨hcount, hfind⟩ hlists.nodup
        (fun row => (hlists.mem row).trans (and_congr_left' registry_task.symm)) hnewest

end Registry

/-! ## Runs of the server -/

/-- What happens to the server: a request, or anything at all in the wheel. What
the wheel does meanwhile is left open, since no handler's answer depends on it
beyond accepting or rejecting. -/
inductive Event where
  | request (req : HttpRequest Input)
  | background (timeWheel : MultiLevelTimeWheel)

/-- What a client observes: a request and its answer. -/
abbrev Label := Option (HttpRequest Input × Option (Response Data))

section Runs

variable (parse : Parser) (cfg : Middleware.Config) (g : Gorm) (f : GormFind)
  (others : HttpRequest Input → ServiceState → Middleware.Outcome Data)

/-- **The step function.** -/
def step (gw : Gateway ServiceState) : Event → Option (Gateway ServiceState)
  | .request req => some (respond parse cfg (setup g f others) gw req).2
  | .background timeWheel =>
    some { gw with service := { gw.service with timeWheel := timeWheel } }

/-- What is observed of an event. The background is silent. -/
def label (gw : Gateway ServiceState) : Event → Label
  | .request req => some (req, (respond parse cfg (setup g f others) gw req).1)
  | .background _ => none

end Runs

/-- The endpoint of a request. -/
def endpointOf (req : HttpRequest Input) : Option Endpoint :=
  routes.lookup (req.method, req.input.pattern)

/-- **The registry as a specification.** A request that a middleware answers, or
that is not for a task, changes nothing. The status codes of refusals are those
of the middlewares: 204 for a preflight request, 401 without a valid token, and
429 over the limit. -/
inductive Next (L : Registry → Input → Answer → Prop) (R : Registry) : Label → Registry → Prop where
  | background : Next L R none R
  | refused {req : HttpRequest Input} {resp : Response Data}
      (h : resp.status = 204 ∨ resp.status = 401 ∨ resp.status = 429) :
      Next L R (some (req, some resp)) R
  | other {req : HttpRequest Input} {resp : Response Data} (h : endpointOf req = none) :
      Next L R (some (req, some resp)) R
  | served {req : HttpRequest Input} {resp : Response Data} {e : Endpoint} {R' : Registry}
      (h : endpointOf req = some e) (does : Does L R req.input e (resp.status, resp.body) R') :
      Next L R (some (req, some resp)) R'

/-! ### What a request makes of the registry -/

/-- What a success makes of the registry. It does not depend on what the wheel
did. -/
def Endpoint.succeeds (R : Registry) (input : Input) (e : Endpoint) : Registry :=
  match e with
  | .create =>
    match input.createBody with
    | .ok req => Function.update R req.id (.task (req.toTaskModel.created input.env.db.stamp))
    | .error _ => R
  | .update =>
    match input.updateBody, R input.id with
    | .ok req, .task row =>
      Function.update R input.id (.task ((req.apply row).touched input.env.db.stamp))
    | _, _ => R
  | .delete =>
    match R input.id with
    | .task _ => Function.update R input.id .gone
    | _ => R
  | e =>
    match R input.id with
    | .task row =>
      match e.status row with
      | some (enabled, paused) =>
        if (enabled, paused) = (row.enabled, row.paused) then R
        else Function.update R input.id (.task (row.written enabled paused input.env.db))
      | none => R
    | _ => R

/-- What a failure of the service makes of the registry. Most failures leave it
as it was. The exceptions are a task that the wheel has rejected, when it is
created, enabled or resumed. -/
def Endpoint.fails (R : Registry) (input : Input) (e : Endpoint) : Registry :=
  match e with
  | .create =>
    match input.createBody with
    | .ok req =>
      match R req.id with
      | .unused =>
        if input.env.db.fault then R
        else if input.env.rollback.fault then
          Function.update R req.id (.task (req.toTaskModel.created input.env.db.stamp))
        else Function.update R req.id .gone
      | _ => R
    | .error _ => R
  | .enable =>
    match R input.id with
    | .task row =>
      if input.env.get.fault || input.env.db.fault || row.enabled then R
      else if input.env.rollback.fault then
        Function.update R input.id (.task (row.written true row.paused input.env.db))
      else
        Function.update R input.id (.task ((row.written true row.paused input.env.db).written false
          row.paused input.env.rollback))
    | _ => R
  | .resume =>
    match R input.id with
    | .task row =>
      if input.env.get.fault || input.env.db.fault || !row.paused then R
      else Function.update R input.id (.task (row.written row.enabled false input.env.db))
    | _ => R
  | _ => R

/-- **What becomes of the registry**, by the status of the answer. Of the answer
only the status matters. -/
def Endpoint.becomes (R : Registry) (input : Input) (status : ℕ) (e : Endpoint) : Registry :=
  if status = 200 then e.succeeds R input
  else if status = 500 then e.fails R input
  else R

/-- The registry after a request and its answer. Labels are enough to follow it. -/
def registryAfter (R : Registry) : Label → Registry
  | some (req, some resp) =>
    match endpointOf req with
    | some e => e.becomes R req.input resp.status
    | none => R
  | _ => R

section Determined

variable {L : Registry → Input → Answer → Prop} {R R' : Registry} {input : Input} {e : Endpoint}
  {answer : Answer} {l : Label} {row : TaskModel}

/-- A success that writes the status, or finds it written. The four endpoints
for the status are one case. -/
theorem succeeds_of_status {st : Bool × Bool} (h : R input.id = .task row)
    (hstatus : e.status row = some st) :
    e.succeeds R input = if st = (row.enabled, row.paused) then R
      else Function.update R input.id (.task (row.written st.1 st.2 input.env.db)) := by
  have hsucceeds : e.succeeds R input = match R input.id with
      | .task row =>
        match e.status row with
        | some (enabled, paused) =>
          if (enabled, paused) = (row.enabled, row.paused) then R
          else Function.update R input.id (.task (row.written enabled paused input.env.db))
        | none => R
      | _ => R := by
    cases e with
    | create | list | get | update | delete => exact (nomatch hstatus)
    | enable | disable | pause | resume => rfl
  rw [hsucceeds, h]
  dsimp only
  rw [hstatus]

/-- Where nothing is written, a failure makes nothing of the registry. The
conditions that `Endpoint.fails` tests are those of `NotWritten`. -/
theorem fails_of_notWritten (h : NotWritten R input e)
    (he : e ∈ [.enable, .disable, .pause, .resume]) :
    e.fails R input = R := by
  have hnone : (∀ row, R input.id ≠ .task row) ∨ input.env.get.fault = true
      ∨ input.env.db.fault = true := by
    rcases h with (hget | hnone) | ⟨hdb, -⟩
    · exact .inr (.inl hget)
    · exact .inl hnone
    · exact .inr (.inr hdb)
  unfold Endpoint.fails
  cases e with
  | create | list | get | update | delete => simp at he
  | disable | pause => rfl
  | enable | resume =>
    dsimp only
    cases hentry : R input.id with
    | unused => rfl
    | gone => rfl
    | task row =>
      have hfault := hnone.resolve_left (fun hne => hne row hentry)
      rcases hfault with hfault | hfault
      · simp [hfault]
      · simp [hfault]

/-- Reading changes nothing. Whatever the answer. -/
theorem becomes_of_read (he : e = .get ∨ e = .list) (status : ℕ) : e.becomes R input status = R := by
  have hsucceeds : e.succeeds R input = R := by
    rcases he with rfl | rfl
    · unfold Endpoint.succeeds
      cases R input.id <;> rfl
    · unfold Endpoint.succeeds
      cases R input.id <;> rfl
  have hfails : e.fails R input = R := by
    rcases he with rfl | rfl
    · rfl
    · rfl
  unfold Endpoint.becomes
  rw [hsucceeds, hfails, ite_self, ite_self]

/-- What a rejected task leaves of a registry. The row is gone, or has stayed. -/
theorem fails_of_rejected {req : TaskCreateRequest} (hreq : input.createBody = .ok req)
    (hdb : input.env.db.fault = false) (h : R req.id = .unused) :
    Endpoint.create.fails R input = if input.env.rollback.fault = true then
        Function.update R req.id (.task (req.toTaskModel.created input.env.db.stamp))
      else Function.update R req.id .gone := by
  unfold Endpoint.fails
  dsimp only
  rw [hreq]
  dsimp only
  rw [h]
  exact if_neg (Bool.eq_false_iff.mp hdb)

/-- What a task that is not scheduled is enabled for. The row is disabled again,
or has stayed enabled. -/
theorem fails_of_unscheduled (hdb : Stored input) (h : R input.id = .task row)
    (henabled : row.enabled = false) :
    Endpoint.enable.fails R input = if input.env.rollback.fault = true then
        Function.update R input.id (.task (row.written true row.paused input.env.db))
      else
        Function.update R input.id (.task ((row.written true row.paused input.env.db).written false
          row.paused input.env.rollback)) := by
  unfold Endpoint.fails
  dsimp only
  rw [h]
  exact if_neg (by simp [hdb.get, hdb.db, henabled])

/-- **What an answer says, a function computes**, from the registry, the request
with the calls of the database that fail, and the status of the answer. So an
answer never leaves two registries possible: the client that knows which calls
have failed can compute the registry, without looking at the server. -/
theorem becomes_of_does (h : Does L R input e answer R') : R' = e.becomes R input answer.1 := by
  cases h with
  | noID | badCreate | badUpdate | notFound | notDeleted => rfl
  | list => exact (becomes_of_read (.inr rfl) answer.1).symm
  | found => exact (becomes_of_read (.inl rfl) 200).symm
  | created hreq _ _ =>
    show _ = Endpoint.create.succeeds R input
    unfold Endpoint.succeeds
    dsimp only
    rw [hreq]
  | notCreated err hreq h =>
    show R = Endpoint.create.fails R input
    unfold Endpoint.fails
    dsimp only
    rw [hreq]
    dsimp only
    -- an ID in use is refused anyway; for an unused one the database must have failed
    cases hentry : R _ with
    | task row => rfl
    | gone => rfl
    | unused => exact (if_pos (h.resolve_left (not_not.mpr hentry))).symm
  | unscheduled err hreq _ hdb hback h =>
    exact ((fails_of_rejected hreq hdb h).trans (if_neg (Bool.eq_false_iff.mp hback))).symm
  | stranded err hreq _ hdb hback h =>
    exact ((fails_of_rejected hreq hdb h).trans (if_pos hback)).symm
  | updated hreq _ h =>
    show _ = Endpoint.update.succeeds R input
    unfold Endpoint.succeeds
    dsimp only
    rw [hreq, h]
  | notUpdated => rfl
  | deleted _ h =>
    show _ = Endpoint.delete.succeeds R input
    unfold Endpoint.succeeds
    dsimp only
    rw [h]
  | nothingDeleted _ h =>
    show R = Endpoint.delete.succeeds R input
    unfold Endpoint.succeeds
    dsimp only
    cases hentry : R input.id with
    | task row => exact absurd hentry (h row)
    | unused => rfl
    | gone => rfl
  | already _ h hstatus =>
    exact ((succeeds_of_status h hstatus).trans (if_pos rfl)).symm
  | changed _ h hstatus hne =>
    refine ((succeeds_of_status h hstatus).trans (if_neg (fun heq => hne ?_))).symm
    rw [hstatus, heq]
  | notChanged err he h => exact (fails_of_notWritten h he).symm
  | disabledAgain err hdb hback h henabled _ =>
    exact ((fails_of_unscheduled hdb h henabled).trans
      (if_neg (Bool.eq_false_iff.mp hback))).symm
  | enabledAnyway err hdb hback h henabled _ =>
    exact ((fails_of_unscheduled hdb h henabled).trans (if_pos hback)).symm
  | resumedAnyway err hdb h _ hpaused =>
    show _ = Endpoint.resume.fails R input
    unfold Endpoint.fails
    dsimp only
    rw [h]
    exact (if_neg (by simp [hdb.get, hdb.db, hpaused])).symm

/-- The registry after a step. What the middlewares answer, and what is no
request for a task, changes nothing. -/
theorem registryAfter_of_next (h : Next L R l R') : R' = registryAfter R l := by
  cases h with
  | background => rfl
  | @refused req resp h =>
    show R = match endpointOf req with
      | some e => e.becomes R req.input resp.status
      | none => R
    cases endpointOf req with
    | none => rfl
    | some e =>
      dsimp only
      unfold Endpoint.becomes
      rw [if_neg (by omega), if_neg (by omega)]
  | @other req resp h =>
    show R = match endpointOf req with
      | some e => e.becomes R req.input resp.status
      | none => R
    rw [h]
  | @served req resp e R' h does =>
    show R' = match endpointOf req with
      | some e => e.becomes R req.input resp.status
      | none => R
    rw [h]
    exact becomes_of_does does

end Determined

section Simulates

variable {parse : Parser} {cfg : Middleware.Config} {g : Gorm} {f : GormFind}
  {others : HttpRequest Input → ServiceState → Middleware.Outcome Data} {gw gw' : Gateway ServiceState}
  {es : List Event} {L : Registry → Input → Answer → Prop}

/-- The table is keyed, and the registry is its own. -/
structure Shows (gw : Gateway ServiceState) (R : Registry) : Prop where
  keyed : gw.service.tasks.Keyed
  registry : R = TaskHandler.registry gw.service.tasks

/-- Listings of the state are answered as `L` says. -/
def ListsAs (L : Registry → Input → Answer → Prop) (f : GormFind) (gw : Gateway ServiceState) :
    Event → Prop
  | .request req => L (registry gw.service.tasks) req.input (list f req.input gw.service).1
  | .background _ => True

/-- A request that a middleware answers itself. -/
theorem shows_refused {R : Registry} (hR : Shows gw R) (req : HttpRequest Input)
    {resp : Response Data} (hs : gw'.service = gw.service)
    (h : resp.status = 204 ∨ resp.status = 401 ∨ resp.status = 429) :
    ∃ R', Next L R (some (req, some resp)) R' ∧ Shows gw' R' :=
  ⟨R, .refused h, by rw [hs]; exact hR.keyed, by rw [hs]; exact hR.registry⟩

/-- **A request to the server is a step of the registry.** -/
theorem next_of_respond (hg : g.Documented) {R : Registry} (hR : Shows gw R)
    (req : HttpRequest Input) (hL : ListsAs L f gw (.request req)) :
    ∃ R', Next L R (some (req, (respond parse cfg (setup g f others) gw req).1)) R'
      ∧ Shows (respond parse cfg (setup g f others) gw req).2 R' := by
  rw [respond_eq]
  split_ifs
  · exact shows_refused hR req rfl (.inl rfl)
  · exact shows_refused hR req rfl (.inr (.inr rfl))
  · cases refusal parse cfg.auth req with
    | some message => exact shows_refused hR req rfl (.inr (.inl rfl))
    | none =>
      dsimp only
      unfold setup
      cases he : routes.lookup (req.method, req.input.pattern) with
      | none => exact ⟨R, .other he, hR.keyed, hR.registry⟩
      | some e =>
        obtain ⟨hkeyed, hdoes⟩ := done_handler hg f hR.keyed e req.input hL
        rw [← hR.registry] at hdoes
        exact ⟨_, .served he hdoes, hkeyed, rfl⟩

/-- The server simulates the registry. -/
theorem simulates_next (hg : g.Documented) :
    Simulation.Simulates (step parse cfg g f others) (label parse cfg g f others)
      (fun gw a _ => ListsAs L f gw a) (Next L) Shows := by
  intro gw a gw' R hR hL hstep
  cases a with
  | request req =>
    obtain rfl := Option.some.inj hstep
    exact next_of_respond hg hR req hL
  | background timeWheel =>
    obtain rfl := Option.some.inj hstep
    exact ⟨R, .background, hR.keyed, hR.registry⟩

end Simulates

/-! ### A server -/

/-- A configuration without authentication and limiter. -/
def openConfig : Middleware.Config where
  mode := "standalone"
  redisEnabled := false
  databaseType := "sqlite"
  auth := ⟨false, "jwt", ⟨""⟩, ⟨"X-API-Key", []⟩⟩
  rateLimit := ⟨false, 0, 0, true⟩

/-- A request that asks for a task that is not enabled, if it is a request to
create one. -/
def requestTo (method pattern id : String) : HttpRequest Input where
  method := method
  header := fun _ => ""
  clientIP := "10.0.0.1"
  now := 0
  parsedAt := 0
  requestID := "r"
  input :=
    { pattern := pattern
      id := id
      query := fun _ => ""
      createBody := .ok { everySecondRequest "a" with enabled := false }
      updateBody := .error "EOF"
      env := calmEnv 1
      listEnv := ⟨⟨0, 0, false⟩, ⟨0, 0, false⟩⟩ }

/-- Create the task. -/
def createTask : HttpRequest Input := requestTo "POST" "/api/v1/tasks" ""

/-- Ask for it. -/
def getTask : HttpRequest Input := requestTo "GET" "/api/v1/tasks/:id" "a"

/-- Ask for all tasks. -/
def listTasks : HttpRequest Input := requestTo "GET" "/api/v1/tasks" ""

/-- Delete it. -/
def deleteTask : HttpRequest Input := requestTo "DELETE" "/api/v1/tasks/:id" "a"

/-- A server without tasks. -/
def emptyServer : Gateway ServiceState :=
  ⟨noClients, ⟨fun _ => none, freshMultiLevelWheel, []⟩⟩

/-- Its steps. -/
abbrev openStep : Gateway ServiceState → Event → Option (Gateway ServiceState) :=
  step (fun _ _ _ => .ok false) openConfig tableGorm (tableFind ["a"]) (fun _ _ => .panicked none)

/-- What is observed of them. -/
abbrev openLabel : Gateway ServiceState → Event → Label :=
  label (fun _ _ _ => .ok false) openConfig tableGorm (tableFind ["a"]) (fun _ _ => .panicked none)

/-- A table with one row at most. -/
theorem documented_of_oneRow {t : TaskTable} (ht : t.Keyed) (hall : ∀ id ≠ "a", t id = none) :
    (tableFind ["a"]).Documented t :=
  documented_tableFind (List.nodup_singleton "a") ht (fun id hid => by
    by_contra hne
    exact hid (hall id (fun heq => hne (List.mem_singleton.mpr heq))))

theorem documented_emptyTable : (tableFind ["a"]).Documented (fun _ => none) :=
  documented_of_oneRow TaskTable.keyed_empty (fun _ _ => rfl)

theorem documented_withRow {row : TaskModel} (hid : row.id = "a") :
    (tableFind ["a"]).Documented (Function.update (fun _ => none) "a" (some row)) :=
  documented_of_oneRow (TaskTable.keyed_empty.update hid)
    (fun _ hne => Function.update_of_ne hne _ _)

end Timewheel.TaskHandler
