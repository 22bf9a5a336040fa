import Timewheel.Agreement
import Timewheel.Metering
import Timewheel.Repair

/-!
# Executions across repairs and restarts

A task that is to run once, or a number of times, leaves the wheel when it has
run. Its row stays as it was: a completion writes nothing to the table. So for
a repair, and for the server when it starts again, the task is missing in the
wheel, and they add it with all its executions before it.

`limitsKept_of_sparing` says what keeps the limits all the same: that such
tasks are only added again before they have been called, and that the
executions do not get in each other's way.

The bookkeeping is that of `Metering`, for three wheels and for the time since
the table was created. A registration accounts for its row (`Accounts`): it
has the limit of the row, and all calls there have ever been for the ID were
made for this registration, if there is a limit. Registrations count their own
calls, so the limit holds as long as that is so. It stops being so when a row
is added whose task has been called before, and this is what the condition
rules out.
-/

namespace Timewheel

open TimeWheel (AddEnv)
open MultiLevelTimeWheel

/-! ## The code -/

/-- What `restoreTasks` leaves open: the access to the database, and what the
wheel leaves open in the addition of each ID. Rows are added in the order of the
listing. -/
structure RestoreEnv where
  get : DbEnv
  add : String → AddEnv

/-- The loop of `restoreTasks`. An error is only logged. Paused rows are left
out. -/
def restoreEach (env : String → AddEnv) :
    List TaskModel → MultiLevelTimeWheel → List (String × Err) × MultiLevelTimeWheel
  | [], timeWheel => ([], timeWheel)
  | task :: tasks, timeWheel =>
    if task.paused then restoreEach env tasks timeWheel
    else
      let (err, timeWheel) := timeWheel.addTask (some task.toTask) (env task.id)
      let (logged, timeWheel) := restoreEach env tasks timeWheel
      (err.toList.map (fun err => (task.id, err)) ++ logged, timeWheel)

/-- **`restoreTasks`**: the error it returns, the errors it logs, and the wheel
it leaves. The rows are those that are enabled. -/
def restoreTasks (f : GormFind) (t : TaskTable) (env : RestoreEnv)
    (timeWheel : MultiLevelTimeWheel) :
    Option Err × List (String × Err) × MultiLevelTimeWheel :=
  match repoGetEnabled f t env.get with
  | .error err => (some err, [], timeWheel)
  | .ok tasks =>
    let (logged, timeWheel) := restoreEach env.add tasks timeWheel
    (none, logged, timeWheel)

/-! ## The system -/

/-- What goes on in one wheel, and has gone on since the start of the server. A
restart loses it. -/
structure Activity where
  execs : List Execution
  invoked : List Invocation
  /-- The registrations whose function has panicked. -/
  panicked : List CtxRef

/-- The server, with the calls of task functions there have been. The count of
calls must survive restarts, so the calls of earlier wheels are kept, as the
specification needs them; the program does not. -/
structure Server where
  service : ServiceState
  activity : Level → Activity
  /-- The tasks whose functions were called before the server was last
  started. -/
  earlier : List Task

/-- A creation, a repair, a restart, or a step of the executions of one wheel.
Steps of executions of different wheels come in any order. -/
inductive ServerAction where
  | create (svc : Service) (req : TaskCreateRequest) (env : ServiceEnv)
  | repair (env : RepairEnv)
  | restart (created started : Level → Time) (env : RestoreEnv)
  | background (l : Level) (a : Action)

namespace Server

/-- One wheel with its executions. This is how the results about one wheel are
used. -/
def scheduler (s : Server) (l : Level) : Scheduler :=
  ⟨s.service.timeWheel.wheel l, (s.activity l).execs, (s.activity l).invoked,
    (s.activity l).panicked⟩

/-- The server after a step of the executions of one wheel. The other wheels are
as before. -/
def setScheduler (s : Server) (l : Level) (t : Scheduler) : Server where
  service := { s.service with timeWheel := s.service.timeWheel.setWheel l t.wheel }
  activity := Function.update s.activity l ⟨t.execs, t.invoked, t.panicked⟩
  earlier := s.earlier

/-- The server with other wheels. The executions go on. -/
def withWheel (s : Server) (timeWheel : MultiLevelTimeWheel) : Server :=
  { s with service := { s.service with timeWheel := timeWheel } }

/-- How often the function of the task with this ID has been called. In all
wheels, now and before. -/
def calls (s : Server) (id : String) : ℕ :=
  s.earlier.countP (fun t => t.id = id)
    + (levels.map (fun l => (s.activity l).invoked.countP (fun inv => inv.task.id = id))).sum

/-- The server with wheels that have just been started. The executions under way
are gone. What they have called goes to the record. -/
def restarted (s : Server) (timeWheel : MultiLevelTimeWheel) : Server where
  service := { s.service with timeWheel := timeWheel }
  activity := fun _ => ⟨[], [], []⟩
  earlier := s.earlier ++ levels.flatMap (fun l => (s.activity l).invoked.map Invocation.task)

/-- **The step function.** A creation and a repair are one step each, and the
executions go on between them. -/
def step (g : Gorm) (f : GormFind) (s : Server) : ServerAction → Option Server
  | .create svc req env => some { s with service := svc.execute g s.service (.create req) env }
  | .repair env =>
    some { s with service := (AtomicTaskService.repairInconsistentState f s.service env).2.2 }
  | .restart created started env =>
    ((MultiLevelTimeWheel.new created).start started).map (fun timeWheel =>
      (s.restarted timeWheel).withWheel (restoreTasks f s.service.tasks env timeWheel).2.2)
  | .background l a =>
    if a.isCall then none
    else ((s.scheduler l).step l.config a).map (fun t => s.setScheduler l t)

/-- Nothing is stored, and nothing has been executed. -/
structure Fresh (s : Server) : Prop where
  service : s.service.Fresh
  activity : ∀ l, s.activity l = ⟨[], [], []⟩
  earlier : s.earlier = []

/-- **The limits are kept**: no function has been called more often than the row
of its task allows. Rows that are soft-deleted count as well. -/
def LimitsKept (s : Server) : Prop :=
  ∀ id row k, s.service.tasks id = some row → row.toTask.limit = some k → s.calls id ≤ k

/-! ## The condition -/

/-- The pool hands out no node that an execution of the wheel still holds. An
execution that still held the node would count its call for the new task. -/
def HandsOutIdle (s : Server) (l : Level) (env : AddEnv) : Prop :=
  ∀ e ∈ (s.activity l).execs, env.node ≠ some e.node

/-- **The row may be added again**: its task has not been called if there is a
limit. A task without a limit may be added at any time. -/
def Uncalled (s : Server) (row : TaskModel) : Prop :=
  row.toTask.limit ≠ none → s.calls row.id = 0

/-- The rows a restart finds. None if the listing fails. -/
def enabledRows (s : Server) (f : GormFind) (env : RestoreEnv) : List TaskModel :=
  match repoGetEnabled f s.service.tasks env.get with
  | .ok tasks => tasks
  | .error _ => []

/-- **The condition.** A repair or a restart adds no limited task that has been
called; executions start alone, complete in the list of their node, and lose no
node to a new task. It speaks of the state before the step only. -/
def Sparing (f : GormFind) (s : Server) : ServerAction → Prop
  | .create _ req env => s.HandsOutIdle (levelOf req.toTaskModel.withDefaults.priority) env.add
  | .repair env => ∀ row ∈ s.service.enabledPage f env, row.paused = false →
      row.id ∉ s.service.timeWheel.listedIDs →
        s.Uncalled row ∧ s.HandsOutIdle (levelOf row.priority) (env.add row.id)
  | .restart _ _ env => ∀ row ∈ s.enabledRows f env, row.paused = false → s.Uncalled row
  | .background l a => Careful l.config (s.scheduler l) a ∧ StartsAlone (s.scheduler l) a

instance (s : Server) (l : Level) (env : AddEnv) : Decidable (s.HandsOutIdle l env) :=
  inferInstanceAs (Decidable (∀ e ∈ (s.activity l).execs, env.node ≠ some e.node))

instance (s : Server) (row : TaskModel) : Decidable (s.Uncalled row) :=
  inferInstanceAs (Decidable (row.toTask.limit ≠ none → s.calls row.id = 0))

instance (f : GormFind) (s : Server) : ∀ a, Decidable (s.Sparing f a)
  | .create _ req env => inferInstanceAs (Decidable
      (s.HandsOutIdle (levelOf req.toTaskModel.withDefaults.priority) env.add))
  | .repair env => inferInstanceAs (Decidable (∀ row ∈ s.service.enabledPage f env,
      row.paused = false → row.id ∉ s.service.timeWheel.listedIDs →
        s.Uncalled row ∧ s.HandsOutIdle (levelOf row.priority) (env.add row.id)))
  | .restart _ _ env => inferInstanceAs (Decidable
      (∀ row ∈ s.enabledRows f env, row.paused = false → s.Uncalled row))
  | .background l a => inferInstanceAs (Decidable
      (Careful l.config (s.scheduler l) a ∧ StartsAlone (s.scheduler l) a))

end Server

/-! ## What a creation does -/

section Creation

variable {g : Gorm} {s : ServiceState} {env : ServiceEnv} {req : TaskCreateRequest}

/-- **What a creation can do**, whatever fails: nothing to the table and the
wheels; or there is a row, deleted again perhaps, and it may have been passed to
the wheels. This is all the accounts need to know about creations. -/
inductive CreateEffect (s : ServiceState) (req : TaskCreateRequest) (env : ServiceEnv) :
    ServiceState → Prop where
  | nothing {s' : ServiceState} (tasks : s'.tasks = s.tasks)
      (timeWheel : s'.timeWheel = s.timeWheel) : CreateEffect s req env s'
  | created {s' : ServiceState} {row : TaskModel} (new : s.tasks req.id = none)
      (tasks : s'.tasks = Function.update s.tasks req.id (some row))
      (same : row.toTask = (req.toTaskModel.created env.db.stamp).toTask)
      (timeWheel : s'.timeWheel = s.timeWheel ∨ s'.timeWheel
        = (addToTimeWheel s.timeWheel (req.toTaskModel.created env.db.stamp) env.add).2) :
      CreateEffect s req env s'

/-- A new row that is deleted again is still there. Its key is taken for good. -/
theorem repoDelete_created (hg : g.Documented) {t t' : TaskTable} {id : String} {row : TaskModel}
    {denv : DbEnv} (hlive : row.deletedAt = none)
    (h : repoDelete g (Function.update t id (some row)) id denv = .ok t') :
    t' = Function.update t id (some { row with deletedAt := some denv.stamp }) := by
  obtain ⟨-, rfl⟩ := (repoDelete_ok hg).mp h
  rw [TaskTable.modifyLive_live (TaskTable.live_update hlive t id), Function.update_idem]

/-- For the steps that the services share, -/
theorem createEffect_of_attempted (hg : g.Documented) {r : Except Err TaskModel × ServiceState}
    (h : Attempted (AtomicTaskService.createSteps g req) s env r) :
    CreateEffect s req env r.2 := by
  have hpassed : ∀ {err timeWheel}, (AtomicTaskService.createSteps g req).twOp
      (req.toTaskModel.created env.db.stamp) s.timeWheel env = (err, timeWheel) →
      timeWheel = s.timeWheel ∨ timeWheel
        = (addToTimeWheel s.timeWheel (req.toTaskModel.created env.db.stamp) env.add).2 := by
    intro err timeWheel htw
    obtain rfl := (congrArg Prod.snd htw).symm
    unfold AtomicTaskService.createSteps
    cases req.enabled with
    | false => exact Or.inl rfl
    | true => exact Or.inr rfl
  cases h with
  | refused _ _ => exact .nothing rfl rfl
  | done _ db tw =>
    obtain ⟨-, hnew, rfl, rfl⟩ := (repoCreate_ok hg).mp db
    exact .created hnew rfl rfl (hpassed tw)
  | undone _ _ db tw =>
    obtain ⟨-, hnew, rfl, rfl⟩ := (repoCreate_ok hg).mp db
    cases hdel : repoDelete g (Function.update s.tasks req.id
        (some (req.toTaskModel.created env.db.stamp))) req.id env.rollback with
    | error _ => exact .created hnew (congrArg (ignoreErr _) hdel) rfl (hpassed tw)
    | ok tasks' =>
      have htasks := repoDelete_created hg rfl hdel
      exact .created hnew ((congrArg (ignoreErr _) hdel).trans htasks) rfl (hpassed tw)

/-- and for each service as a whole. -/
theorem createEffect (hg : g.Documented) (s : ServiceState) (req : TaskCreateRequest)
    (env : ServiceEnv) (svc : Service) :
    CreateEffect s (svc.requestOf req env) env (svc.execute g s (.create req) env) := by
  cases svc with
  | taskService =>
    show CreateEffect s req env (TaskService.create g s req env).2
    cases hget : repoGetByID g s.tasks req.id env.get with
    | ok _ =>
      unfold TaskService.create
      rw [hget]
      exact .nothing rfl rfl
    | error _ => exact createEffect_of_attempted hg (attempted_create hget)
  | atomicTaskService =>
    show CreateEffect s (AtomicTaskService.requestOf req env) env
      (AtomicTaskService.create g s req env).2
    rw [create_eq]
    cases repoGetByID g s.tasks (AtomicTaskService.requestOf req env).id env.get with
    | ok _ => exact .nothing rfl rfl
    | error _ => exact createEffect_of_attempted hg (attempted_executeAtomically _ s env)

end Creation

/-! ## What repairs and restarts do -/

section Loops

variable {env : String → AddEnv} {rows : List TaskModel} {twIDs : List String}
  {m : MultiLevelTimeWheel} {P : MultiLevelTimeWheel → Prop}

/-- **The first loop** of a repair keeps what its additions keep. An invariant
of the additions is an invariant of the loop, -/
theorem addMissing_keeps (hadd : ∀ m, ∀ row ∈ rows, row.paused = false → row.id ∉ twIDs →
      P m → P (addToTimeWheel m row (env row.id)).2) (hm : P m) :
    P (addMissing twIDs env rows m).2 := by
  induction rows generalizing m with
  | nil => exact hm
  | cons row rows ih =>
    have hrest : ∀ m, ∀ row' ∈ rows, row'.paused = false → row'.id ∉ twIDs →
        P m → P (addToTimeWheel m row' (env row'.id)).2 := fun m row' hrow' =>
      hadd m row' (List.mem_cons_of_mem row hrow')
    unfold addMissing
    by_cases hrow : (!row.paused && !decide (row.id ∈ twIDs)) = true
    · rw [if_pos hrow]
      obtain ⟨hp, hid⟩ : row.paused = false ∧ row.id ∉ twIDs := by simpa using hrow
      exact ih hrest (hadd m row List.mem_cons_self hp hid hm)
    · rw [if_neg hrow]
      exact ih hrest hm

/-- **The second loop** keeps what removals keep. and the same holds here. -/
theorem removeOrphans_keeps {dbIDs : List String} {tasks : List Task}
    (hremove : ∀ m id, P m → P (m.removeTask id).2) (hm : P m) :
    P (removeOrphans dbIDs tasks m).2 := by
  induction tasks generalizing m with
  | nil => exact hm
  | cons task tasks ih =>
    unfold removeOrphans
    split_ifs
    · exact ih hm
    · exact ih (hremove m task.id hm)

/-- The loop of `restoreTasks` is that of a repair of empty wheels. One lemma
serves both loops. -/
theorem restoreEach_eq (env : String → AddEnv) (rows : List TaskModel) (m : MultiLevelTimeWheel) :
    restoreEach env rows m = addMissing [] env rows m := by
  induction rows generalizing m with
  | nil => rfl
  | cons row rows ih =>
    unfold restoreEach addMissing
    cases row.paused with
    | true => exact ih m
    | false =>
      simp only [ih, Bool.not_false, List.not_mem_nil, decide_false, Bool.and_self, if_true]
      rfl

end Loops

/-- `AddTask` changes the wheel of the level, if any. The others are not looked
at. -/
theorem addTask_wheels (m : MultiLevelTimeWheel) (task : Task) (env : AddEnv) :
    (m.addTask (some task) env).2 = m
      ∨ (m.addTask (some task) env).2 = m.setWheel (levelOf task.priority)
        ((m.wheel (levelOf task.priority)).addTask (levelOf task.priority).config (some task)
          env).2 := by
  unfold addTask addTaskInternal
  dsimp only
  split_ifs
  · exact Or.inl rfl
  · exact Or.inl rfl
  · exact Or.inl rfl
  · exact Or.inl rfl
  · exact Or.inr rfl

/-- A call that tries the wheels in turn does the operation on those it gets to.
It stops at the first that succeeds. -/
theorem firstOf_wheel (m : MultiLevelTimeWheel) (op : Level → TimeWheel → Option Err × TimeWheel)
    (l : Level) :
    (m.firstOf op).2.wheel l = m.wheel l ∨ (m.firstOf op).2.wheel l = (op l (m.wheel l)).2 := by
  unfold firstOf
  cases hhigh : op .high m.highPriorityTW with
  | mk err high =>
    have hh : high = (op .high m.highPriorityTW).2 := (congrArg Prod.snd hhigh).symm
    cases err with
    | none =>
      cases l with
      | high => exact Or.inr hh
      | normal => exact Or.inl rfl
      | low => exact Or.inl rfl
    | some _ =>
      cases hnormal : op .normal m.normalPriorityTW with
      | mk err normal =>
        have hn : normal = (op .normal m.normalPriorityTW).2 := (congrArg Prod.snd hnormal).symm
        cases err with
        | none =>
          cases l with
          | high => exact Or.inr hh
          | normal => exact Or.inr hn
          | low => exact Or.inl rfl
        | some _ =>
          cases l with
          | high => exact Or.inr hh
          | normal => exact Or.inr hn
          | low => exact Or.inr rfl

/-- A wheel that has just been started, in the multi-level wheel. Each of the
three is started on its own. -/
theorem started_of_start {created now : Level → Time} {m : MultiLevelTimeWheel}
    (h : (new created).start now = some m) (l : Level) : Started l.config (m.wheel l) :=
  ⟨false, none, start_wheel h l⟩

/-! ## The invariant -/

namespace Server

variable {s s' : Server} {id : String} {t : Task} {c : CtxRef} {l : Level}

/-- What the wheel of the level holds. The context stands for the registration. -/
def Holds (s : Server) (l : Level) (id : String) (t : Task) (c : CtxRef) : Prop :=
  (s.scheduler l).Holds l.config id t c

/-- The registration is of the row with its ID, in the wheel of its priority,
and all the calls there have been for the ID have been for it, if there is a
limit. Without a limit nothing needs to be known about the calls. -/
def Accounts (s : Server) (l : Level) (id : String) (t : Task) (c : CtxRef) : Prop :=
  ∃ row, s.service.tasks id = some row ∧ levelOf row.toTask.priority = l
    ∧ t.limit = row.toTask.limit ∧ (t.limit ≠ none → s.calls id = (s.scheduler l).calls c)

/-- **The invariant.** Of a row that is held by no wheel only the limit itself
is known, which is why it is a field of its own. -/
structure Accounted (s : Server) : Prop where
  counted : ∀ l, (s.scheduler l).Counted l.config
  held : ∀ l id t c, s.Holds l id t c → s.Accounts l id t c
  kept : s.LimitsKept
  unknown : ∀ id, s.service.tasks id = none → s.calls id = 0

/-- The wheel that was set, -/
@[simp] theorem scheduler_setScheduler_self (s : Server) (l : Level) (t : Scheduler) :
    (s.setScheduler l t).scheduler l = t := by
  unfold scheduler setScheduler
  simp

/-- and the others. -/
theorem scheduler_setScheduler_of_ne (s : Server) {l l' : Level} (h : l' ≠ l) (t : Scheduler) :
    (s.setScheduler l t).scheduler l' = s.scheduler l' := by
  unfold scheduler setScheduler
  simp only [wheel_setWheel_of_ne _ h, Function.update_of_ne h]

/-- The calls of one wheel after those of the others. Written as a sum, so that
no subtraction is needed. -/
theorem calls_setScheduler (s : Server) (l : Level) (t : Scheduler) (id : String) :
    (s.setScheduler l t).calls id
        + (s.scheduler l).invoked.countP (fun inv => inv.task.id = id)
      = s.calls id + t.invoked.countP (fun inv => inv.task.id = id) := by
  unfold calls setScheduler scheduler levels
  simp only [List.map_cons, List.map_nil, List.sum_cons, List.sum_nil]
  cases l with
  | high => simp [Function.update_of_ne]; omega
  | normal => simp [Function.update_of_ne]; omega
  | low => simp [Function.update_of_ne]; omega

/-! ### Other wheels -/

@[simp] theorem calls_withWheel (s : Server) (m : MultiLevelTimeWheel) (id : String) :
    (s.withWheel m).calls id = s.calls id := rfl

/-- Executions and records of calls stay with their levels. -/
theorem scheduler_withWheel (s : Server) (m : MultiLevelTimeWheel) (l : Level) :
    (s.withWheel m).scheduler l = { s.scheduler l with wheel := m.wheel l } := rfl

/-- **Other wheels**: when each registration was there before or is a new one,
of a row without calls. This is the common part of creations, repairs and
restarts. -/
theorem Accounted.withWheel (h : s.Accounted) {m : MultiLevelTimeWheel}
    (hcounted : ∀ l, ((s.withWheel m).scheduler l).Counted l.config)
    (hheld : ∀ l id t c, (s.withWheel m).Holds l id t c → s.Holds l id t c
      ∨ ∃ row, s.service.tasks id = some row ∧ levelOf row.toTask.priority = l
        ∧ t.limit = row.toTask.limit
        ∧ (t.limit ≠ none → s.calls id = 0) ∧ (s.scheduler l).calls c = 0) :
    (s.withWheel m).Accounted where
  counted := hcounted
  held := fun l id t c hh => by
    rcases hheld l id t c hh with hh | ⟨row, hrow, hl, hlimit, hzero, hcalls⟩
    · exact h.held l id t c hh
    · exact ⟨row, hrow, hl, hlimit, fun hne => (hzero hne).trans hcalls.symm⟩
  kept := h.kept
  unknown := h.unknown

/-- **An addition** of a row whose limited task has not been called. The new
registration has been called as often as the task: not at all. -/
theorem Accounted.add (h : s.Accounted) {row row' : TaskModel} {env : AddEnv}
    (hrow : s.service.tasks row.id = some row') (hsame : row'.toTask = row.toTask)
    (hcalls : s.Uncalled row) (hidle : s.HandsOutIdle (levelOf row.toTask.priority) env) :
    (s.withWheel (addToTimeWheel s.service.timeWheel row env).2).Accounted := by
  unfold addToTimeWheel
  rcases addTask_wheels s.service.timeWheel row.toTask env with heq | heq
  · rw [heq]
    exact h
  · rw [heq]
    obtain ⟨hcounted, hheld⟩ :=
      (h.counted (levelOf row.toTask.priority)).addTask row.toTask env hidle
    refine h.withWheel (fun l => ?_) (fun l id t c hh => ?_)
    · rw [scheduler_withWheel]
      by_cases hl : l = levelOf row.toTask.priority
      · subst hl
        rw [wheel_setWheel_self]
        exact hcounted
      · rw [wheel_setWheel_of_ne _ hl]
        exact h.counted l
    · unfold Holds at hh
      rw [scheduler_withWheel] at hh
      by_cases hl : l = levelOf row.toTask.priority
      · subst hl
        rw [wheel_setWheel_self] at hh
        rcases hheld id t c hh with hh | ⟨rfl, hlimit, hzero⟩
        · exact Or.inl hh
        · exact Or.inr ⟨row', hrow, hsame ▸ rfl, hsame ▸ hlimit, fun hne => hcalls (hlimit ▸ hne),
            hzero⟩
      · rw [wheel_setWheel_of_ne _ hl] at hh
        exact Or.inl hh

/-- **A removal.** What is left was there before. -/
theorem Accounted.remove (h : s.Accounted) (id : String) :
    (s.withWheel (s.service.timeWheel.removeTask id).2).Accounted := by
  have hlevel : ∀ l, ((s.withWheel (s.service.timeWheel.removeTask id).2).scheduler l).Counted
      l.config ∧ ∀ id' t c, (s.withWheel (s.service.timeWheel.removeTask id).2).Holds l id' t c →
        s.Holds l id' t c := by
    intro l
    unfold Holds
    rw [scheduler_withWheel]
    rcases firstOf_wheel s.service.timeWheel (fun l w => w.removeTask l.config id true) l
      with heq | heq
    · have heq : (s.service.timeWheel.removeTask id).2.wheel l = _ := heq
      rw [heq]
      exact ⟨h.counted l, fun _ _ _ hh => hh⟩
    · have heq : (s.service.timeWheel.removeTask id).2.wheel l = _ := heq
      rw [heq]
      exact (h.counted l).removeTask id true
  exact h.withWheel (fun l => (hlevel l).1)
    (fun l id t c hh => Or.inl ((hlevel l).2 id t c hh))

/-! ### The steps -/

/-- What is held after a step of one wheel was held before. In this wheel by
assumption, and in the others since they are the same. -/
theorem holds_of_setScheduler {u : Scheduler}
    (hback : ∀ id t c, u.Holds l.config id t c → (s.scheduler l).Holds l.config id t c)
    {l' : Level} (hh : (s.setScheduler l u).Holds l' id t c) : s.Holds l' id t c := by
  unfold Holds at hh ⊢
  by_cases hl : l' = l
  · subst hl
    rw [scheduler_setScheduler_self] at hh
    exact hback id t c hh
  · rwa [scheduler_setScheduler_of_ne s hl] at hh

/-- The counts of each wheel are its own. -/
theorem counted_setScheduler {u : Scheduler} (h : s.Accounted) (hu : u.Counted l.config)
    (l' : Level) : ((s.setScheduler l u).scheduler l').Counted l'.config := by
  by_cases hl : l' = l
  · subst hl
    rw [scheduler_setScheduler_self]
    exact hu
  · rw [scheduler_setScheduler_of_ne s hl]
    exact h.counted l'

/-- A step that calls no function. Most steps of executions are like this. -/
theorem Accounted.quiet {u : Scheduler} (h : s.Accounted) (hu : u.Counted l.config)
    (hback : ∀ id t c, u.Holds l.config id t c → (s.scheduler l).Holds l.config id t c)
    (hinvoked : u.invoked = (s.scheduler l).invoked) : (s.setScheduler l u).Accounted := by
  have hcalls : ∀ id, (s.setScheduler l u).calls id = s.calls id := by
    intro id
    have hsum := calls_setScheduler s l u id
    rw [hinvoked] at hsum
    exact Nat.add_right_cancel hsum
  have hsame : ∀ l' c, ((s.setScheduler l u).scheduler l').calls c = (s.scheduler l').calls c := by
    intro l' c
    by_cases hl : l' = l
    · subst hl
      rw [scheduler_setScheduler_self]
      unfold Scheduler.calls
      rw [hinvoked]
    · rw [scheduler_setScheduler_of_ne s hl]
  refine ⟨counted_setScheduler h hu, fun l' id t c hh => ?_, fun id row k hrow hk => ?_,
    fun id hid => (hcalls id).trans (h.unknown id hid)⟩
  · obtain ⟨row, hrow, hl, hlimit, hcount⟩ := h.held l' id t c (holds_of_setScheduler hback hh)
    refine ⟨row, hrow, hl, hlimit, fun hne => ?_⟩
    rw [hcalls, hsame]
    exact hcount hne
  · rw [hcalls]
    exact h.kept id row k hrow hk

/-- **A step that calls the function of a registration.** It counts once for the
registration and once for the ID, and the registration's own count is below its
limit. -/
theorem Accounted.call {u : Scheduler} {r : Option CtxRef} {t₀ : Task} {c₀ : CtxRef}
    (h : s.Accounted) (hu : u.Counted l.config)
    (hback : ∀ id t c, u.Holds l.config id t c → (s.scheduler l).Holds l.config id t c)
    (hh₀ : s.Holds l t₀.id t₀ c₀)
    (hinvoked : u.invoked = (s.scheduler l).invoked ++ [⟨r, c₀, t₀⟩]) :
    (s.setScheduler l u).Accounted := by
  obtain ⟨row₀, hrow₀, hl₀, hlimit₀, hcount₀⟩ := h.held l _ _ _ hh₀
  -- the wheels are counted together: the sum grows by the one call
  have hcalls : ∀ id, (s.setScheduler l u).calls id
      = s.calls id + (if t₀.id = id then 1 else 0) := by
    intro id
    have hsum := calls_setScheduler s l u id
    rw [hinvoked, List.countP_append, List.countP_singleton] at hsum
    simp only [decide_eq_true_eq] at hsum
    omega
  have hown : ∀ c, u.calls c = (s.scheduler l).calls c + (if c₀ = c then 1 else 0) := by
    intro c
    unfold Scheduler.calls
    rw [hinvoked, List.countP_append, List.countP_singleton]
    simp only [decide_eq_true_eq]
  refine ⟨counted_setScheduler h hu, fun l' id t c hh => ?_, fun id row k hrow hk => ?_,
    fun id hid => ?_⟩
  · have hbefore := holds_of_setScheduler hback hh
    obtain ⟨row, hrow, hl, hlimit, hcount⟩ := h.held l' id t c hbefore
    refine ⟨row, hrow, hl, hlimit, fun hne => ?_⟩
    rw [hcalls, hcount hne]
    by_cases heq : l' = l
    · -- the ID is that of the call exactly if the registration is
      subst heq
      have hiff : t₀.id = id ↔ c₀ = c := by
        constructor
        · rintro rfl
          exact (hh₀.unique hbefore).2
        · rintro rfl
          exact (h.counted l').id_unique hh₀ hbefore
      rw [scheduler_setScheduler_self, hown]
      simp only [hiff]
    · have hid : t₀.id ≠ id := by
        rintro rfl
        obtain rfl := Option.some.inj (hrow₀.symm.trans hrow)
        exact heq (hl.symm.trans hl₀)
      rw [if_neg hid, scheduler_setScheduler_of_ne s heq]
      rfl
  · rw [hcalls]
    by_cases hid : t₀.id = id
    · subst hid
      obtain rfl := Option.some.inj (hrow₀.symm.trans hrow)
      have hlimit := hlimit₀.trans hk
      -- the wheel itself has let the call through, so it was below the limit of the task
      have hbound := hu.metered.bounded ⟨r, c₀, t₀⟩
        (hinvoked ▸ List.mem_append_right _ List.mem_cons_self) k hlimit
      rw [hown, if_pos rfl] at hbound
      rw [if_pos rfl, hcount₀ (by rw [hlimit]; exact Option.some_ne_none k)]
      exact hbound
    · rw [if_neg hid]
      exact h.kept id row k hrow hk
  · have hne : t₀.id ≠ id := by
      rintro rfl
      exact (nomatch hrow₀.symm.trans hid)
    rw [hcalls, if_neg hne]
    exact h.unknown id hid

/-- **A new row**, whose ID no registration has. Nothing has been called for it
either. -/
theorem Accounted.insert (h : s.Accounted) {row : TaskModel} (hnew : s.service.tasks id = none)
    (log : List OperationLogModel) :
    Accounted { s with service := ⟨Function.update s.service.tasks id (some row),
      s.service.timeWheel, log⟩ } where
  counted := h.counted
  held := fun l id' t c hh => by
    obtain ⟨row', hrow', hrest⟩ := h.held l id' t c hh
    refine ⟨row', ?_, hrest⟩
    have hne : id' ≠ id := by
      rintro rfl
      exact (nomatch hnew.symm.trans hrow')
    exact (Function.update_of_ne hne _ _).trans hrow'
  kept := fun id' row' k hrow' hk => by
    by_cases hid : id' = id
    · subst hid
      exact (h.unknown id' hnew).trans_le (Nat.zero_le k)
    · exact h.kept id' row' k ((Function.update_of_ne hid _ _).symm.trans hrow') hk
  unknown := fun id' hid' => by
    have hne : id' ≠ id := by
      rintro rfl
      have hsome : Function.update s.service.tasks id' (some row) id' = none := hid'
      rw [Function.update_self] at hsome
      cases hsome
    exact h.unknown id' ((Function.update_of_ne hne _ _).symm.trans hid')

variable {g : Gorm} {f : GormFind}

/-- **A creation.** By the three things it can do. -/
theorem Accounted.create (hg : g.Documented) (h : s.Accounted) (svc : Service)
    (req : TaskCreateRequest) (env : ServiceEnv) (hsparing : s.Sparing f (.create svc req env)) :
    Accounted { s with service := svc.execute g s.service (.create req) env } := by
  have hcreate := createEffect hg s.service req env svc
  have hpriority : ((svc.requestOf req env).toTaskModel.created env.db.stamp).toTask.priority
      = req.toTaskModel.withDefaults.priority := by
    cases svc with
    | taskService => rfl
    | atomicTaskService =>
      unfold Service.requestOf AtomicTaskService.requestOf
      dsimp only
      split_ifs
      · rfl
      · rfl
  generalize svc.execute g s.service (.create req) env = service at hcreate ⊢
  obtain ⟨tasks, timeWheel, log⟩ := service
  cases hcreate with
  | nothing htasks htimeWheel =>
    obtain rfl : tasks = s.service.tasks := htasks
    obtain rfl : timeWheel = s.service.timeWheel := htimeWheel
    exact ⟨h.counted, h.held, h.kept, h.unknown⟩
  | @created row hnew htasks hsame htimeWheel =>
    obtain rfl : tasks = _ := htasks
    have hinsert : Accounted { s with service := ⟨Function.update s.service.tasks
        (svc.requestOf req env).id (some row), s.service.timeWheel, log⟩ } := h.insert hnew log
    rcases htimeWheel with hwheel | hwheel
    · obtain rfl : timeWheel = s.service.timeWheel := hwheel
      exact hinsert
    · obtain rfl : timeWheel = _ := hwheel
      have hrow : Function.update s.service.tasks (svc.requestOf req env).id (some row)
          (svc.requestOf req env).id = some row := Function.update_self _ _ _
      refine hinsert.add hrow hsame (fun _ => h.unknown _ hnew) ?_
      rw [hpriority]
      exact hsparing

/-- **A repair.** By the two loops. -/
theorem Accounted.repair (h : s.Accounted) (hf : f.Documented s.service.tasks) (env : RepairEnv)
    (hsparing : s.Sparing f (.repair env)) :
    Accounted { s with
      service := (AtomicTaskService.repairInconsistentState f s.service env).2.2 } := by
  have hadd : ∀ m, ∀ row ∈ s.service.enabledPage f env, row.paused = false →
      row.id ∉ (env.order s.service.timeWheel.getAllTasks).map Task.id →
      (s.withWheel m).Accounted →
        (s.withWheel (addToTimeWheel m row (env.add row.id)).2).Accounted := by
    intro m row hrow hp hid hm
    have hlisted : row.id ∉ s.service.timeWheel.listedIDs := fun hmem =>
      hid (((env.order_perm _).map Task.id).mem_iff.mpr hmem)
    obtain ⟨hcalls, hidle⟩ := hsparing row hrow hp hlisted
    exact hm.add (TaskTable.live_eq_some.mp (mem_enabledPage hf hrow).1).1 rfl hcalls hidle
  unfold AtomicTaskService.repairInconsistentState
  unfold ServiceState.enabledPage at hadd
  cases hlist : repoList f s.service.tasks repairQuery env.count env.find with
  | error err => exact h
  | ok r =>
    rw [hlist] at hadd
    obtain ⟨rows, total⟩ := r
    exact removeOrphans_keeps (P := fun m => (s.withWheel m).Accounted)
      (fun m id hm => hm.remove id) (addMissing_keeps hadd h)

/-- Calls move from the wheels to the record. -/
theorem calls_restarted (s : Server) (m : MultiLevelTimeWheel) (id : String) :
    (s.restarted m).calls id = s.calls id := by
  unfold calls restarted levels
  simp [List.countP_append, List.countP_map, Function.comp_def]

/-- New wheels hold nothing. -/
theorem Accounted.restarted (h : s.Accounted) {created now : Level → Time}
    {m : MultiLevelTimeWheel} (hstart : (MultiLevelTimeWheel.new created).start now = some m) :
    (s.restarted m).Accounted where
  counted := fun l => (counted_of_started (started_of_start hstart l)).1
  held := fun l id t c hh =>
    absurd hh ((counted_of_started (started_of_start hstart l)).2 id t c)
  kept := fun id row k hrow hk => by
    rw [calls_restarted]
    exact h.kept id row k hrow hk
  unknown := fun id hid => (calls_restarted s m id).trans (h.unknown id hid)

/-- **A restart.** New wheels, and then the loop. -/
theorem Accounted.restart (h : s.Accounted) (hf : f.Documented s.service.tasks)
    {created now : Level → Time} (env : RestoreEnv)
    (hsparing : s.Sparing f (.restart created now env)) {m : MultiLevelTimeWheel}
    (hstart : (MultiLevelTimeWheel.new created).start now = some m) :
    ((s.restarted m).withWheel (restoreTasks f s.service.tasks env m).2.2).Accounted := by
  have hfresh := h.restarted hstart
  have hsparing : ∀ row ∈ s.enabledRows f env, row.paused = false → s.Uncalled row := hsparing
  unfold enabledRows at hsparing
  unfold restoreTasks
  cases hget : repoGetEnabled f s.service.tasks env.get with
  | error err => exact hfresh
  | ok rows =>
    rw [hget] at hsparing
    have hadd : ∀ m', ∀ row ∈ rows, row.paused = false → row.id ∉ ([] : List String) →
        ((s.restarted m).withWheel m').Accounted →
        ((s.restarted m).withWheel (addToTimeWheel m' row (env.add row.id)).2).Accounted := by
      intro m' row hrow hp _ hm'
      have hlive := (((repoGetEnabled_ok hf hget).2 row).mp hrow).1
      have hstored : s.service.tasks row.id = some row := (TaskTable.live_eq_some.mp hlive).1
      refine hm'.add hstored rfl (fun hne => ?_) (fun e he => absurd he List.not_mem_nil)
      exact (calls_restarted s m row.id).trans (hsparing row hrow hp hne)
    dsimp only
    rw [restoreEach_eq]
    exact addMissing_keeps (P := fun m' => ((s.restarted m).withWheel m').Accounted) hadd hfresh

/-- **One step.** The steps one by one. -/
theorem Accounted.of_step (hg : g.Documented) {a : ServerAction} (h : s.Accounted)
    (hf : f.Documented s.service.tasks) (hsparing : s.Sparing f a)
    (hstep : s.step g f a = some s') : s'.Accounted := by
  cases a with
  | create svc req env =>
    obtain rfl := Option.some.inj hstep
    exact h.create hg svc req env hsparing
  | repair env =>
    obtain rfl := Option.some.inj hstep
    exact h.repair hf env hsparing
  | restart created now env =>
    unfold step at hstep
    dsimp only at hstep
    obtain ⟨m, hstart, rfl⟩ := Option.map_eq_some_iff.mp hstep
    exact h.restart hf env hsparing hstart
  | background l a =>
    unfold step at hstep
    dsimp only at hstep
    split_ifs at hstep with hcall
    obtain ⟨u, hu, rfl⟩ := Option.map_eq_some_iff.mp hstep
    obtain ⟨hcareful, halone⟩ := hsparing
    obtain ⟨hcounted, hback, hinvoked⟩ := (h.counted l).background (Bool.eq_false_iff.mpr hcall)
      hcareful halone hu
    rcases hinvoked with hinvoked | ⟨r, c, t, hh, hinvoked⟩
    · exact h.quiet hcounted hback hinvoked
    · exact h.call hcounted hback hh hinvoked

/-- There are no rows and no calls. -/
theorem accounted_of_fresh (hs : s.Fresh) : s.Accounted := by
  obtain ⟨created, now, hstart⟩ := hs.service.started
  have hsched : ∀ l, s.scheduler l = .ofWheel (s.service.timeWheel.wheel l) := by
    intro l
    unfold scheduler
    rw [hs.activity l]
    rfl
  have hcalls : ∀ id, s.calls id = 0 := by
    intro id
    unfold calls
    simp [hs.activity, hs.earlier]
  refine ⟨fun l => ?_, fun l id t c hh => ?_, fun id row k _ _ => ?_, fun id _ => hcalls id⟩
  · rw [hsched]
    exact (counted_of_started (started_of_start hstart l)).1
  · unfold Holds at hh
    rw [hsched] at hh
    exact absurd hh ((counted_of_started (started_of_start hstart l)).2 id t c)
  · rw [hcalls]
    exact Nat.zero_le k

/-- **Executions across repairs and restarts.** In a history whose repairs and
restarts add no limited task that has been called, and whose executions do not
get in each other's way, no task is called more often than its row allows. The
history may have any number of creations, repairs and restarts, in any order,
between any steps of the executions. -/
theorem limitsKept_of_sparing (hg : g.Documented) (hs : s.Fresh) {as : List ServerAction}
    (hf : Machine.Each (Server.step g f) (fun s _ _ => f.Documented s.service.tasks) s as)
    (hsparing : Machine.Each (Server.step g f) (fun s a _ => s.Sparing f a) s as) :
    Machine.Each (Server.step g f) (fun _ _ s' => s'.LimitsKept) s as := by
  have hstep : ∀ (s : Server) (a : ServerAction) (s' : Server), s.Accounted →
      (f.Documented s.service.tasks ∧ s.Sparing f a) → s.step g f a = some s' →
      s'.Accounted ∧ s'.LimitsKept := by
    rintro s a s' h ⟨hf, hsparing⟩ hstep
    have h' := h.of_step hg hf hsparing hstep
    exact ⟨h', h'.kept⟩
  exact Machine.Each.of_invariant hstep (accounted_of_fresh hs) (hf.and hsparing)

end Server

/-! ### Two histories -/

/-- A request for a task to run once, after 100 ms. -/
def onceRequest (id : String) : TaskCreateRequest :=
  { everySecondRequest id with mode := 1, intervalMs := 100 }

/-- Nothing is stored, and the wheels have just been started. -/
def freshServer : Server := ⟨freshService.service, fun _ => ⟨[], [], []⟩, []⟩

/-- This server has an empty table and wheels that have just been started. -/
theorem fresh_freshServer : freshServer.Fresh := ⟨fresh_freshService, fun _ => rfl, rfl⟩

/-- A tick of the second wheel that executes one task. -/
def executionAt (t : ℕ) : List ServerAction :=
  [.background .normal (.tick (Time.ofMilli t)), .background .normal (.start 0),
    .background .normal (.finish 0 .zero), .background .normal (.complete 0)]

/-- A restart at time 0 of the new clock. -/
def restartAtZero : ServerAction :=
  .restart (fun _ => Time.ofMilli 0) (fun _ => Time.ofMilli 0)
    ⟨(calmEnv 0).get, fun _ => newNodeEnv⟩

/-- A repair at time `t`. -/
def repairAt (t : ℕ) : ServerAction :=
  .repair { calmRepairEnv with add := fun _ => { newNodeEnv with now := Time.ofMilli t } }

/-- The creation of the task. -/
def createOnce : ServerAction := .create .atomicTaskService (onceRequest "a") (calmEnv 0)

/-- Only rows with these keys are created. -/
def ServerAction.CreatesIn (keys : List String) : ServerAction → Prop
  | .create svc req env => (svc.requestOf req env).id ∈ keys
  | _ => True

/-- A table in memory is as documented throughout, if its keys are known. -/
theorem documented_along {g : Gorm} (hg : g.Documented) {keys : List String}
    (hkeys : keys.Nodup) {s : Server} (hs : s.service.tasks = fun _ => none)
    {as : List ServerAction} (has : ∀ a ∈ as, a.CreatesIn keys) :
    Machine.Each (Server.step g (tableFind keys))
      (fun s _ _ => (tableFind keys).Documented s.service.tasks) s as := by
  have hstep : ∀ (s : Server) (a : ServerAction) (s' : Server),
      (s.service.tasks.Keyed ∧ ∀ id, s.service.tasks id ≠ none → id ∈ keys) →
      a.CreatesIn keys → s.step g (tableFind keys) a = some s' →
      (s'.service.tasks.Keyed ∧ ∀ id, s'.service.tasks id ≠ none → id ∈ keys)
        ∧ (tableFind keys).Documented s.service.tasks := by
    rintro s a s' ⟨hkeyed, hall⟩ ha hstep
    refine ⟨?_, documented_tableFind hkeys hkeyed hall⟩
    cases a with
    | create svc req env =>
      obtain rfl := Option.some.inj hstep
      have hcreate := createEffect hg s.service req env svc
      dsimp only
      generalize svc.execute g s.service (.create req) env = service at hcreate ⊢
      cases hcreate with
      | nothing htasks _ =>
        rw [htasks]
        exact ⟨hkeyed, hall⟩
      | @created row _ htasks hsame _ =>
        rw [htasks]
        refine ⟨hkeyed.update (congrArg Task.id hsame), fun id hid => ?_⟩
        by_cases heq : id = (svc.requestOf req env).id
        · exact heq ▸ ha
        · rw [Function.update_of_ne heq] at hid
          exact hall id hid
    | repair env =>
      obtain rfl := Option.some.inj hstep
      have htasks : (AtomicTaskService.repairInconsistentState (tableFind keys) s.service
          env).2.2.tasks = s.service.tasks := by
        unfold AtomicTaskService.repairInconsistentState
        cases repoList (tableFind keys) s.service.tasks repairQuery env.count env.find with
        | error _ => rfl
        | ok _ => rfl
      dsimp only
      rw [htasks]
      exact ⟨hkeyed, hall⟩
    | restart created started env =>
      unfold Server.step at hstep
      dsimp only at hstep
      obtain ⟨m, -, rfl⟩ := Option.map_eq_some_iff.mp hstep
      exact ⟨hkeyed, hall⟩
    | background l a =>
      unfold Server.step at hstep
      dsimp only at hstep
      split_ifs at hstep
      obtain ⟨u, -, rfl⟩ := Option.map_eq_some_iff.mp hstep
      exact ⟨hkeyed, hall⟩
  refine Machine.Each.of_invariant hstep ⟨?_, fun id hid => ?_⟩ (Machine.each_of_forall has)
  · rw [hs]
    exact TaskTable.keyed_empty
  · rw [hs] at hid
    exact absurd rfl hid

/-- The server is restarted, and repaired, before the task has run. -/
theorem limitsKept_of_early_restart :
    Machine.Each (Server.step tableGorm (tableFind ["a"])) (fun _ _ s' => s'.LimitsKept)
      freshServer ([createOnce, repairAt 50, restartAtZero, repairAt 50] ++ executionAt 100) :=
  Server.limitsKept_of_sparing documented_tableGorm fresh_freshServer
    (documented_along documented_tableGorm (List.nodup_singleton "a") rfl (by
      intro a ha
      simp only [List.cons_append, List.nil_append, executionAt, List.mem_cons] at ha
      rcases ha with rfl | rfl | rfl | rfl | rfl | rfl | rfl | rfl | ha
      · exact List.mem_singleton_self "a"
      all_goals trivial))
    (by decide +kernel)

/-- **A finished task runs again**, after a restart and after a repair alike. -/
theorem not_limitsKept_of_finished :
    ¬ (Machine.Each (Server.step tableGorm (tableFind ["a"])) (fun _ _ s' => s'.LimitsKept)
        freshServer ([createOnce] ++ executionAt 100 ++ [restartAtZero] ++ executionAt 100))
      ∧ ¬ (Machine.Each (Server.step tableGorm (tableFind ["a"])) (fun _ _ s' => s'.LimitsKept)
        freshServer ([createOnce] ++ executionAt 100 ++ [repairAt 100] ++ executionAt 200)) := by
  -- the row of the task allows one call, and there have been two
  have key : ∀ as : List ServerAction,
      (Machine.run (Server.step tableGorm (tableFind ["a"])) freshServer as).map
        (fun s => (s.calls "a", (s.service.tasks "a").map (fun row => row.toTask.limit)))
          = some (2, some (some 1)) →
      ¬ Machine.Each (Server.step tableGorm (tableFind ["a"])) (fun _ _ s' => s'.LimitsKept)
        freshServer as := by
    intro as hrun hkept
    obtain ⟨s, hs, hsame⟩ := Option.map_eq_some_iff.mp hrun
    obtain ⟨hcalls, hrow⟩ := Prod.mk.inj hsame
    obtain ⟨row, hrow, hlimit⟩ := Option.map_eq_some_iff.mp hrow
    have hbound := Machine.state_of_each (P := Server.LimitsKept)
      (fun id row k hrow => absurd hrow (Option.some_ne_none row).symm) hkept hs "a" row 1 hrow hlimit
    omega
  exact ⟨key _ (by decide +kernel), key _ (by decide +kernel)⟩

end Timewheel
