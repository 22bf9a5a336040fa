import Timewheel.Service

/-!
# What a creation stores

A request becomes a row, the mapper inserts the row and fills in its column
defaults, the response is read off the row, and so is the task of the wheel.
On the way a zero priority and a zero severity, which mean "high" and
"critical", turn into the defaults of their columns, and a duration of more
than 63 bits of nanoseconds wraps around.

`create_carries_iff` says that this is all that gets lost.

The fields are compared at three places: in the response to the creation, in
what a later read returns, and in the task of the wheel. All three are read
off the row, so it is enough to know the row (`CreatedAs`), and each place is
then a statement about one conversion.
-/

namespace Timewheel

open TimeWheel (AddEnv checkTask)

/-! ## The response -/

/-- `TaskResponse`. Times and counters are shown as they are in the row. -/
structure TaskResponse where
  id : String
  name : String
  description : String
  mode : ℤ
  modeText : String
  intervalMs : ℤ
  times : ℤ
  priority : ℤ
  priorityText : String
  timeoutMs : ℤ
  severity : ℤ
  severityText : String
  forDurationMs : ℤ
  repeatIntervalMs : ℤ
  labels : StringMap
  annotations : StringMap
  enabled : Bool
  paused : Bool
  enabledAt : Option Time
  pausedAt : Option Time
  executedCount : ℤ
  lastExecutedAt : Option Time
  lastResultValue : UInt64
  lastIsFiring : Bool
  alertState : ℤ
  alertStateText : String
  pendingSince : Option Time
  lastFiredAt : Option Time
  createdAt : Time
  updatedAt : Time
  deriving DecidableEq, Repr

/-- The text of one of three constants. Modes, priorities, severities and states
all have three. -/
def textOf (zero one two : String) : ℤ → String
  | 0 => zero
  | 1 => one
  | 2 => two
  | _ => "unknown"

/-- `getModeText`. -/
def getModeText : ℤ → String := textOf "repeated" "once" "fixed_times"

/-- `getPriorityText`. -/
def getPriorityText : ℤ → String := textOf "high" "normal" "low"

/-- `getSeverityText`. -/
def getSeverityText : ℤ → String := textOf "critical" "warning" "info"

/-- `getAlertStateText`. -/
def getAlertStateText : ℤ → String := textOf "pending" "firing" "resolved"

/-- `ToTaskResponse`. Field by field. -/
def TaskModel.toTaskResponse (m : TaskModel) : TaskResponse where
  id := m.id
  name := m.name
  description := m.description
  mode := m.mode
  modeText := getModeText m.mode
  intervalMs := m.intervalMs
  times := m.times
  priority := m.priority
  priorityText := getPriorityText m.priority
  timeoutMs := m.timeoutMs
  severity := m.severity
  severityText := getSeverityText m.severity
  forDurationMs := m.forDurationMs
  repeatIntervalMs := m.repeatIntervalMs
  labels := m.labels
  annotations := m.annotations
  enabled := m.enabled
  paused := m.paused
  enabledAt := m.enabledAt
  pausedAt := m.pausedAt
  executedCount := m.executedCount
  lastExecutedAt := m.lastExecutedAt
  lastResultValue := m.lastResultValue
  lastIsFiring := m.lastIsFiring
  alertState := m.alertState
  alertStateText := getAlertStateText m.alertState
  pendingSince := m.pendingSince
  lastFiredAt := m.lastFiredAt
  createdAt := m.createdAt
  updatedAt := m.updatedAt

/-- `GetByID`, of either service. The mapper leaves out rows that are
soft-deleted. -/
def TaskService.getByID (g : Gorm) (s : ServiceState) (id : String) (env : DbEnv) :
    Except Err TaskResponse :=
  (repoGetByID g s.tasks id env).map TaskModel.toTaskResponse

/-! ## What was asked for -/

/-- The response carries what was asked for. A missing map and an empty one are
the same to a client. -/
structure TaskResponse.Carries (resp : TaskResponse) (req : TaskCreateRequest) : Prop where
  mode : resp.mode = req.mode
  intervalMs : resp.intervalMs = req.intervalMs
  times : resp.times = req.times
  priority : resp.priority = req.priority
  timeoutMs : resp.timeoutMs = req.timeoutMs
  severity : resp.severity = req.severity
  forDurationMs : resp.forDurationMs = req.forDurationMs
  repeatIntervalMs : resp.repeatIntervalMs = req.repeatIntervalMs
  labels : resp.labels.getD [] = req.labels.getD []
  annotations : resp.annotations.getD [] = req.annotations.getD []

/-- The task of the wheel carries what was asked for. Durations are compared as
exact numbers of nanoseconds. -/
structure Task.Carries (task : Task) (req : TaskCreateRequest) : Prop where
  mode : task.mode = TaskMode.ofInt req.mode
  interval : task.interval = req.intervalMs * Duration.millisecond
  times : task.times = req.times
  priority : task.priority = req.priority
  timeout : task.timeout = req.timeoutMs * Duration.millisecond
  severity : task.severity = req.severity
  forDuration : task.forDuration = req.forDurationMs * Duration.millisecond
  repeatInterval : task.repeatInterval = req.repeatIntervalMs * Duration.millisecond
  labels : task.labels.getD [] = req.labels.getD []
  annotations : task.annotations.getD [] = req.annotations.getD []

/-- One of the wheels has the task under the ID. This is looked up as the code
would. -/
def MultiLevelTimeWheel.HoldsTask (m : MultiLevelTimeWheel) (id : String) (task : Task) : Prop :=
  ∃ l n, (m.wheel l).lookup l.config id = some n ∧ ((m.wheel l).heap n).task = some task

/-- **The creation carries what was asked for**: in the response, to a later
read, and into the wheel. The wheel is only asked about if the task is enabled. -/
structure Carried (g : Gorm) (req : TaskCreateRequest) (row : TaskModel) (s : ServiceState) :
    Prop where
  returned : row.toTaskResponse.Carries req
  later : ∀ env, env.fault = false →
    ∃ resp, TaskService.getByID g s req.id env = .ok resp ∧ resp.Carries req
  wheel : req.enabled = true → (∃ task, s.timeWheel.HoldsTask req.id task)
    ∧ ∀ task, s.timeWheel.HoldsTask req.id task → task.Carries req

/-- The duration has at most 63 bits of nanoseconds. A duration in Go is a
signed number of nanoseconds. -/
def FitsDuration (ms : ℤ) : Prop := ms * Duration.millisecond < 2 ^ 63

instance (ms : ℤ) : Decidable (FitsDuration ms) := inferInstanceAs (Decidable (_ < _))

/-- **The request can be stored as it is**: it asks for neither of the two
zeros, and for the wheel every duration fits. It depends on nothing but the
request. -/
structure TaskCreateRequest.Storable (req : TaskCreateRequest) : Prop where
  priority : req.priority ≠ 0
  severity : req.severity ≠ 0
  fits : req.enabled = true → FitsDuration req.intervalMs ∧ FitsDuration req.timeoutMs
    ∧ FitsDuration req.forDurationMs ∧ FitsDuration req.repeatIntervalMs

instance (req : TaskCreateRequest) : Decidable req.Storable :=
  decidable_of_iff (req.priority ≠ 0 ∧ req.severity ≠ 0 ∧ (req.enabled = true →
      FitsDuration req.intervalMs ∧ FitsDuration req.timeoutMs ∧ FitsDuration req.forDurationMs
        ∧ FitsDuration req.repeatIntervalMs))
    ⟨fun h => ⟨h.1, h.2.1, h.2.2⟩, fun h => ⟨h.priority, h.severity, h.fits⟩⟩

/-! ## The parts -/

variable {g : Gorm} {s s' : ServiceState} {req : TaskCreateRequest} {env : ServiceEnv}
  {row : TaskModel} {m m' : MultiLevelTimeWheel}

/-- A duration that fits does not wrap around. A negative number of milliseconds
does not pass the checks. -/
theorem durationOfMs_eq_iff {ms : ℤ} (h : 0 ≤ ms) :
    durationOfMs ms = ms * Duration.millisecond ↔ FitsDuration ms := by
  have hnonneg : 0 ≤ ms * Duration.millisecond := Int.mul_nonneg h (by decide)
  unfold durationOfMs FitsDuration
  rw [Int.bmod_eq_iff (by decide)]
  push_cast
  generalize ms * Duration.millisecond = d at hnonneg ⊢
  omega

/-- The response to the row that was inserted. The mapper replaces the two zeros
by the defaults of the columns before it inserts. -/
theorem carries_toTaskResponse_iff (stamp : Time) :
    (req.toTaskModel.created stamp).toTaskResponse.Carries req
      ↔ req.priority ≠ 0 ∧ req.severity ≠ 0 := by
  have hpriority : (req.toTaskModel.created stamp).priority
      = if req.priority = 0 then 1 else req.priority := rfl
  have hseverity : (req.toTaskModel.created stamp).severity
      = if req.severity = 0 then 1 else req.severity := rfl
  constructor
  · intro h
    refine ⟨fun hzero => ?_, fun hzero => ?_⟩
    · have := h.priority
      rw [show (req.toTaskModel.created stamp).toTaskResponse.priority
        = if req.priority = 0 then 1 else req.priority from hpriority, if_pos hzero, hzero] at this
      cases this
    · have := h.severity
      rw [show (req.toTaskModel.created stamp).toTaskResponse.severity
        = if req.severity = 0 then 1 else req.severity from hseverity, if_pos hzero, hzero] at this
      cases this
  · rintro ⟨hp, hs⟩
    exact ⟨rfl, rfl, rfl, hpriority.trans (if_neg hp), rfl, hseverity.trans (if_neg hs), rfl, rfl,
      rfl, rfl⟩

/-- The task made of it. The task is made of the row and not of the request. -/
theorem carries_toTask_iff (hvalid : req.Valid) (stamp : Time) :
    (req.toTaskModel.created stamp).toTask.Carries req
      ↔ req.priority ≠ 0 ∧ req.severity ≠ 0 ∧ FitsDuration req.intervalMs
        ∧ FitsDuration req.timeoutMs ∧ FitsDuration req.forDurationMs
        ∧ FitsDuration req.repeatIntervalMs := by
  have hresponse : (req.toTaskModel.created stamp).toTaskResponse.Carries req
      ↔ req.priority ≠ 0 ∧ req.severity ≠ 0 := carries_toTaskResponse_iff stamp
  rw [← durationOfMs_eq_iff hvalid.intervalMs.le, ← durationOfMs_eq_iff hvalid.timeoutMs,
    ← durationOfMs_eq_iff hvalid.forDurationMs, ← durationOfMs_eq_iff hvalid.repeatIntervalMs,
    ← and_assoc, ← hresponse]
  constructor
  · intro h
    exact ⟨⟨rfl, rfl, rfl, h.priority, rfl, h.severity, rfl, rfl, rfl, rfl⟩, h.interval, h.timeout,
      h.forDuration, h.repeatInterval⟩
  · rintro ⟨h, hinterval, htimeout, hfor, hrepeat⟩
    exact ⟨rfl, hinterval, rfl, h.priority, htimeout, h.severity, hfor, hrepeat, rfl, rfl⟩

/-- A task of a valid request passes the checks as it is. The wheel fills in no
defaults then. -/
theorem checkTask_of_valid (hvalid : req.Valid) (stamp : Time) {task' : Task}
    (h : checkTask (req.toTaskModel.created stamp).toTask = .ok task')
    (hinterval : 0 < (req.toTaskModel.created stamp).toTask.interval) :
    task' = (req.toTaskModel.created stamp).toTask := by
  have hmode : ∀ n, (req.toTaskModel.created stamp).toTask.mode ≠ .other n := by
    intro n
    show TaskMode.ofInt req.mode ≠ .other n
    obtain ⟨hlo, hhi⟩ := hvalid.mode
    obtain hm | hm | hm : req.mode = 0 ∨ req.mode = 1 ∨ req.mode = 2 := by omega
    · rw [hm]
      exact fun h => (nomatch h)
    · rw [hm]
      exact fun h => (nomatch h)
    · rw [hm]
      exact fun h => (nomatch h)
  cases (checkTask_ok h).2.2 with
  | repeated _ _ => rfl
  | once _ => rw [if_neg (not_le.mpr hinterval)]
  | fixedTimes _ _ _ => rfl
  | other hother _ => exact absurd hother (hmode _)

namespace MultiLevelTimeWheel

/-- An `AddTask` that succeeds leaves the task in the wheel of its priority. The
other wheels are as before. -/
theorem addTask_holds {task : Task} {env : AddEnv} (h : m.addTask (some task) env = (none, m')) :
    0 < task.interval ∧ ∃ task', checkTask task = .ok task'
      ∧ (∃ n, (m'.wheel (levelOf task.priority)).lookup (levelOf task.priority).config task.id
          = some n ∧ ((m'.wheel (levelOf task.priority)).heap n).task = some task')
      ∧ ∀ l, l ≠ levelOf task.priority → m'.wheel l = m.wheel l := by
  unfold addTask addTaskInternal at h
  dsimp only at h
  by_cases hid : task.id = ""
  · rw [if_pos hid] at h
    cases h
  by_cases hfn : task.run = none
  · rw [if_neg hid, if_pos hfn] at h
    cases h
  by_cases hinterval : task.interval ≤ 0
  · rw [if_neg hid, if_neg hfn, if_pos hinterval] at h
    cases h
  by_cases hrun : (m.wheel (levelOf task.priority)).running = false
  · rw [if_neg hid, if_neg hfn, if_neg hinterval, if_pos hrun] at h
    cases h
  rw [if_neg hid, if_neg hfn, if_neg hinterval, if_neg hrun] at h
  have hstep := addTask_step (levelOf task.priority).config (m.wheel (levelOf task.priority))
    (some task) env
  generalize (m.wheel (levelOf task.priority)).addTask (levelOf task.priority).config
    (some task) env = r at hstep h
  obtain ⟨herr, rfl⟩ := Prod.mk.inj h
  refine ⟨not_le.mp hinterval, ?_⟩
  cases hstep with
  | rejected _ => cases herr
  | duplicate _ _ _ _ => cases herr
  | @added t task' n w₁ w' task_eq check new got linked =>
    obtain rfl := Option.some.inj task_eq
    refine ⟨task', check, ⟨n, ?_, ?_⟩, fun l hl => wheel_setWheel_of_ne m hl w'⟩
    · rw [wheel_setWheel_self, linked.lookup, insertEntry_lookup,
        if_pos (checkTask_ok check).2.2.id_eq.symm]
    · rw [wheel_setWheel_self, linked.task]
      exact got.task

end MultiLevelTimeWheel

/-- **What a creation that succeeds has done.** Row, table and wheel after it. -/
structure CreatedAs (s : ServiceState) (req : TaskCreateRequest) (env : ServiceEnv)
    (row : TaskModel) (s' : ServiceState) : Prop where
  row_eq : row = req.toTaskModel.created env.db.stamp
  tasks : s'.tasks = Function.update s.tasks req.id (some row)
  wheel : req.enabled = true → addToTimeWheel s.timeWheel row env.add = (none, s'.timeWheel)

/-- From the steps the services have in common, -/
theorem createdAs_of_attempted (hg : g.Documented)
    (h : Attempted (AtomicTaskService.createSteps g req) s env (.ok row, s')) :
    CreatedAs s req env row s' := by
  cases h with
  | done log db tw =>
    obtain ⟨-, -, hrow, htasks⟩ := (repoCreate_ok hg).mp db
    exact ⟨hrow, hrow ▸ htasks, fun henabled => (if_pos henabled).symm.trans tw⟩

/-- for the plain service, -/
theorem createdAs_of_taskService (hg : g.Documented)
    (h : TaskService.create g s req env = (.ok row, s')) : CreatedAs s req env row s' := by
  cases hget : repoGetByID g s.tasks req.id env.get with
  | ok _ =>
    unfold TaskService.create at h
    rw [hget] at h
    cases h
  | error _ => exact createdAs_of_attempted hg (h ▸ attempted_create hget)

/-- and for the atomic one, which makes up no ID here. -/
theorem createdAs_of_atomicTaskService (hg : g.Documented) (hid : req.id ≠ "")
    (h : AtomicTaskService.create g s req env = (.ok row, s')) : CreatedAs s req env row s' := by
  unfold AtomicTaskService.create at h
  rw [if_neg hid] at h
  dsimp only at h
  cases hget : repoGetByID g s.tasks req.id env.get with
  | ok _ =>
    rw [hget] at h
    cases h
  | error _ =>
    rw [hget] at h
    exact createdAs_of_attempted hg (h ▸ attempted_executeAtomically _ s env)

/-- **What the creation has put where**, if the wheel had nothing under the ID.
Each of the three places gives one part of the condition. -/
theorem CreatedAs.carried_iff (hg : g.Documented) (hvalid : req.Valid)
    (hunused : ∀ l, (s.timeWheel.wheel l).lookup l.config req.id = none)
    (h : CreatedAs s req env row s') : Carried g req row s' ↔ req.Storable := by
  obtain ⟨rfl, htasks, hwheel⟩ := h
  -- a later read finds the row that was returned
  have hread : ∀ denv : DbEnv, denv.fault = false → TaskService.getByID g s' req.id denv
      = .ok (req.toTaskModel.created env.db.stamp).toTaskResponse := by
    intro denv hf
    unfold TaskService.getByID
    rw [htasks, (repoGetByID_ok hg).mpr ⟨hf, TaskTable.live_update rfl s.tasks req.id⟩]
    rfl
  -- and the wheel runs the task made of it
  have hholds : req.enabled = true → ∀ task, s'.timeWheel.HoldsTask req.id task
      ↔ task = (req.toTaskModel.created env.db.stamp).toTask := by
    intro henabled task
    obtain ⟨hinterval, task', hcheck, ⟨n, hn, hnode⟩, hothers⟩ :=
      MultiLevelTimeWheel.addTask_holds (hwheel henabled)
    obtain rfl := checkTask_of_valid hvalid env.db.stamp hcheck hinterval
    constructor
    · rintro ⟨l, k, hk, htask⟩
      by_cases hl : l = levelOf (req.toTaskModel.created env.db.stamp).toTask.priority
      · subst hl
        obtain rfl := Option.some.inj (hn.symm.trans hk)
        exact Option.some.inj (htask.symm.trans hnode)
      · rw [hothers l hl] at hk
        exact (nomatch (hunused l).symm.trans hk)
    · rintro rfl
      exact ⟨_, n, hn, hnode⟩
  constructor
  · intro hc
    obtain ⟨hp, hs⟩ := (carries_toTaskResponse_iff env.db.stamp).mp hc.returned
    refine ⟨hp, hs, fun henabled => ?_⟩
    have hcarries := (hc.wheel henabled).2 _ ((hholds henabled _).mpr rfl)
    exact ((carries_toTask_iff hvalid env.db.stamp).mp hcarries).2.2
  · rintro ⟨hp, hs, hfits⟩
    have hresponse := (carries_toTaskResponse_iff env.db.stamp).mpr ⟨hp, hs⟩
    refine ⟨hresponse, fun denv hf => ⟨_, hread denv hf, hresponse⟩, fun henabled => ⟨?_, ?_⟩⟩
    · exact ⟨_, (hholds henabled _).mpr rfl⟩
    · intro task htask
      obtain rfl := (hholds henabled task).mp htask
      exact (carries_toTask_iff hvalid env.db.stamp).mpr ⟨hp, hs, hfits henabled⟩

/-- **A creation carries what was asked for exactly if it can be stored as it
is**, in either service. No assumption is made on the other rows or on the other
tasks in the wheel. -/
theorem create_carries_iff (hg : g.Documented) (hvalid : req.Valid) (hid : req.id ≠ "")
    (hunused : ∀ l, (s.timeWheel.wheel l).lookup l.config req.id = none)
    (h : TaskService.create g s req env = (.ok row, s')
      ∨ AtomicTaskService.create g s req env = (.ok row, s')) :
    Carried g req row s' ↔ req.Storable := by
  cases h with
  | inl h => exact (createdAs_of_taskService hg h).carried_iff hg hvalid hunused
  | inr h => exact (createdAs_of_atomicTaskService hg hid h).carried_iff hg hvalid hunused

/-! ### A creation -/

/-- Nothing stored yet, and a wheel that has just been started. -/
def emptyService : ServiceState := ⟨fun _ => none, freshMultiLevelWheel, []⟩

/-- Nothing is registered, -/
theorem lookup_emptyService (l : Level) (id : String) :
    (emptyService.timeWheel.wheel l).lookup l.config id = none := by
  cases l <;> exact AList.lookup_empty id

/-- and the request passes the validation. -/
theorem valid_everySecondRequest : (everySecondRequest "a").Valid := by
  constructor <;> decide

/-- A normal task with a warning. -/
theorem carried_everySecondRequest :
    ∃ row s, TaskService.create tableGorm emptyService (everySecondRequest "a") (calmEnv 0)
        = (.ok row, s)
      ∧ Carried tableGorm (everySecondRequest "a") row s := by
  obtain ⟨row, s, hcreate⟩ : ∃ row s, TaskService.create tableGorm emptyService
      (everySecondRequest "a") (calmEnv 0) = (.ok row, s) := ⟨_, _, rfl⟩
  exact ⟨row, s, hcreate, (create_carries_iff documented_tableGorm valid_everySecondRequest
    (by decide) (fun l => lookup_emptyService l "a") (Or.inl hcreate)).mpr (by decide)⟩

/-- **A task of high priority** is stored, answered and run as a normal one. -/
theorem not_carried_of_high :
    ¬ ∀ (s : ServiceState) (req : TaskCreateRequest) (env : ServiceEnv) (row : TaskModel)
        (s' : ServiceState), req.Valid → req.id ≠ "" → s.tasks req.id = none →
      (∀ l, (s.timeWheel.wheel l).lookup l.config req.id = none) →
      TaskService.create tableGorm s req env = (.ok row, s') → Carried tableGorm req row s' := by
  intro h
  have hvalid : ({ everySecondRequest "a" with priority := 0 } : TaskCreateRequest).Valid := by
    constructor <;> decide
  have hcarried := h emptyService { everySecondRequest "a" with priority := 0 } (calmEnv 0) _ _
    hvalid (by decide) rfl (fun l => lookup_emptyService l "a") rfl
  have hpriority : (1 : ℤ) = 0 := hcarried.returned.priority
  cases hpriority

end Timewheel
