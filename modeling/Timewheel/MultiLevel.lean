import Timewheel.Effects

/-!
# The multi-level wheel

`MultiLevelTimeWheel` keeps three wheels, one for each priority. `AddTask`
goes by the priority of the task; the calls that take an ID try the three
wheels in turn, since an ID does not say which of them holds it.

Every call runs under the lock of the multi-level wheel, so each is one atomic
step. Its wheels are made without a cache and without a store.

Every operation that takes an ID is of one shape: an operation on a single
wheel, tried on the three in turn (`firstOf`). What it does is that the first
wheel with an entry for the ID changes, and the others stay (`firstOf_eq`).
Results about single wheels carry over through this.
-/

namespace Timewheel

open TimeWheel (AddEnv checkTask)

/-! ## The code -/

/-- The three wheels. The constructors are in the order in which they are tried. -/
inductive Level where
  | high
  | normal
  | low
  deriving DecidableEq, Repr

instance : Fintype Level := ⟨{.high, .normal, .low}, fun l => by cases l <;> decide⟩

/-- The granularity of each wheel. The higher the priority the finer. -/
def Level.interval : Level → Duration
  | .high => Duration.ofMilli 10
  | .normal => Duration.ofMilli 100
  | .low => Duration.ofMilli 1000

theorem defaultShards_pos : 0 < 64 := by decide

/-- The options `NewMultiLevelTimeWheel` passes, and the defaults. -/
def Level.config (l : Level) : Config where
  slotNum := 60
  interval := l.interval
  shardNum := 64
  sinks := ⟨false, false, false⟩
  slotNum_pos := by decide
  interval_pos := by cases l <;> decide
  shardNum_pos := defaultShards_pos

/-- `MultiLevelTimeWheel`. The lock that goes with them is what makes a call one
step. -/
structure MultiLevelTimeWheel where
  highPriorityTW : TimeWheel
  normalPriorityTW : TimeWheel
  lowPriorityTW : TimeWheel
  started : Bool

/-- The wheel `addTask` picks: a priority out of range counts as the nearest
one. -/
def levelOf (priority : TaskPriority) : Level :=
  let priority := if priority < taskPriorityHigh then taskPriorityHigh
    else if priority > taskPriorityLow then taskPriorityLow else priority
  if priority = taskPriorityHigh then .high
  else if priority = taskPriorityNormal then .normal
  else if priority = taskPriorityLow then .low
  else .normal

namespace MultiLevelTimeWheel

/-- The wheel of a level. Together with `setWheel` this lets one definition
serve the three fields. -/
def wheel (m : MultiLevelTimeWheel) : Level → TimeWheel
  | .high => m.highPriorityTW
  | .normal => m.normalPriorityTW
  | .low => m.lowPriorityTW

/-- Overwrite the wheel of a level. The other two and the flag stay. -/
def setWheel (m : MultiLevelTimeWheel) (l : Level) (w : TimeWheel) : MultiLevelTimeWheel :=
  match l with
  | .high => { m with highPriorityTW := w }
  | .normal => { m with normalPriorityTW := w }
  | .low => { m with lowPriorityTW := w }

/-- `NewMultiLevelTimeWheel`. Each wheel reads the clock for itself. -/
def new (now : Level → Time) : MultiLevelTimeWheel where
  highPriorityTW := TimeWheel.new false none (now .high)
  normalPriorityTW := TimeWheel.new false none (now .normal)
  lowPriorityTW := TimeWheel.new false none (now .low)
  started := false

/-- `Start`. The second call does nothing. -/
def start (m : MultiLevelTimeWheel) (now : Level → Time) : Option MultiLevelTimeWheel :=
  if m.started then some m
  else do
    let high ← TimeWheel.start Level.high.config m.highPriorityTW (now .high)
    let normal ← TimeWheel.start Level.normal.config m.normalPriorityTW (now .normal)
    let low ← TimeWheel.start Level.low.config m.lowPriorityTW (now .low)
    return ⟨high, normal, low, true⟩

/-- `addTask`, which takes no lock. -/
def addTaskInternal (m : MultiLevelTimeWheel) (task : Task) (env : AddEnv) :
    Option Err × MultiLevelTimeWheel :=
  let l := levelOf task.priority
  if (m.wheel l).running = false then (some .wheelNotRunning, m)
  else
    let (err, w) := (m.wheel l).addTask l.config (some task) env
    (err, m.setWheel l w)

/-- `AddTask`. An interval of zero is refused even for a task that is to run
once, which a single wheel would take. -/
def addTask (m : MultiLevelTimeWheel) (task : Option Task) (env : AddEnv) :
    Option Err × MultiLevelTimeWheel :=
  match task with
  | none => (some .invalidParam, m)
  | some task =>
    if task.id = "" then (some .invalidParam, m)
    else if task.run = none then (some .invalidParam, m)
    else if task.interval ≤ 0 then (some (.text "task interval must be greater than 0"), m)
    else m.addTaskInternal task env

/-- The calls that take an ID try the three wheels in turn; the error is that
of the last one. -/
def firstOf (m : MultiLevelTimeWheel) (op : Level → TimeWheel → Option Err × TimeWheel) :
    Option Err × MultiLevelTimeWheel :=
  match op .high m.highPriorityTW with
  | (none, high) => (none, { m with highPriorityTW := high })
  | (some _, high) =>
    match op .normal m.normalPriorityTW with
    | (none, normal) => (none, { m with highPriorityTW := high, normalPriorityTW := normal })
    | (some _, normal) =>
      let (err, low) := op .low m.lowPriorityTW
      (err, { m with highPriorityTW := high, normalPriorityTW := normal, lowPriorityTW := low })

/-- `RemoveTask`. No store is configured, so none can fail. -/
def removeTask (m : MultiLevelTimeWheel) (taskID : String) : Option Err × MultiLevelTimeWheel :=
  m.firstOf (fun l w => w.removeTask l.config taskID true)

/-- `PauseTask`. -/
def pauseTask (m : MultiLevelTimeWheel) (taskID : String) : Option Err × MultiLevelTimeWheel :=
  m.firstOf (fun l w => w.pauseTask l.config taskID)

/-- `ResumeTask`. -/
def resumeTask (m : MultiLevelTimeWheel) (taskID : String) (now : Time) :
    Option Err × MultiLevelTimeWheel :=
  m.firstOf (fun l w => w.resumeTask l.config taskID now)

/-- `GetTask`: the node, and the wheel it belongs to. A lookup counts as a hit
or a miss of the cache, so it changes the wheels it asks. -/
def getTask (m : MultiLevelTimeWheel) (taskID : String) :
    Option (Level × NodeRef) × MultiLevelTimeWheel :=
  match m.highPriorityTW.getTask Level.high.config taskID with
  | (some n, high) => (some (.high, n), { m with highPriorityTW := high })
  | (none, high) =>
    match m.normalPriorityTW.getTask Level.normal.config taskID with
    | (some n, normal) =>
      (some (.normal, n), { m with highPriorityTW := high, normalPriorityTW := normal })
    | (none, normal) =>
      let (n, low) := m.lowPriorityTW.getTask Level.low.config taskID
      (n.map (fun n => (.low, n)),
        { m with highPriorityTW := high, normalPriorityTW := normal, lowPriorityTW := low })

/-- `ClearAllTasks`: the number of tasks cleared. -/
def clearAllTasks (m : MultiLevelTimeWheel) (order : Level → List String) (now : Time) :
    ℕ × MultiLevelTimeWheel :=
  let (count₁, high) := m.highPriorityTW.clearAllTasks Level.high.config (order .high) now
  let (count₂, normal) :=
    m.normalPriorityTW.clearAllTasks Level.normal.config (order .normal) now
  let (count₃, low) := m.lowPriorityTW.clearAllTasks Level.low.config (order .low) now
  (count₁ + count₂ + count₃, ⟨high, normal, low, m.started⟩)

/-- `UpdateTask`. A nil task is dereferenced: the call panics, and that is
`none`. The old task is removed from whichever wheel has it, before the new one
is looked at. -/
def updateTask (m : MultiLevelTimeWheel) (task : Option Task) (env : AddEnv) :
    Option (Option Err × MultiLevelTimeWheel) :=
  task.map (fun task =>
    match m.removeTask task.id with
    | (some .taskNotFound, m) => m.addTaskInternal task env
    | (some err, m) => (some err, m)
    | (none, m) => m.addTaskInternal task env)

/-! ### The wheel of a level -/

/-- The wheel that was set is read back, -/
@[simp] theorem wheel_setWheel_self (m : MultiLevelTimeWheel) (l : Level) (w : TimeWheel) :
    (m.setWheel l w).wheel l = w := by
  cases l <;> rfl

/-- the others are as before, -/
theorem wheel_setWheel_of_ne (m : MultiLevelTimeWheel) {l l' : Level} (h : l' ≠ l)
    (w : TimeWheel) : (m.setWheel l w).wheel l' = m.wheel l' := by
  cases l <;> cases l' <;> first | rfl | exact absurd rfl h

/-- and setting a wheel to what it is does nothing. -/
@[simp] theorem setWheel_wheel (m : MultiLevelTimeWheel) (l : Level) :
    m.setWheel l (m.wheel l) = m := by
  cases l <;> rfl

/-- The levels in the order in which they are tried. -/
def levels : List Level := [.high, .normal, .low]

/-- **Trying the wheels in turn.** When the operation fails on the wheels
without `p`, changing nothing, and succeeds on the others, it is the first of
these that changes. The error is the same wherever it comes from. -/
theorem firstOf_eq (m : MultiLevelTimeWheel) {op : Level → TimeWheel → Option Err × TimeWheel}
    {p : Level → Bool} {err : Err}
    (hfail : ∀ l, p l = false → op l (m.wheel l) = (some err, m.wheel l))
    (hdone : ∀ l, p l = true → (op l (m.wheel l)).1 = none) :
    m.firstOf op = match levels.find? p with
      | none => (some err, m)
      | some l => (none, m.setWheel l (op l (m.wheel l)).2) := by
  have done : ∀ l, p l = true → op l (m.wheel l) = (none, (op l (m.wheel l)).2) :=
    fun l hl => Prod.ext (hdone l hl) rfl
  -- high, normal, low: the order in which the code asks them
  unfold firstOf levels
  cases hhigh : p .high with
  | true =>
    have h : op .high m.highPriorityTW = _ := done .high hhigh
    rw [List.find?_cons_of_pos hhigh, h]
    rfl
  | false =>
    have h : op .high m.highPriorityTW = _ := hfail .high hhigh
    rw [List.find?_cons_of_neg (by simp [hhigh]), h]
    cases hnormal : p .normal with
    | true =>
      have h : op .normal m.normalPriorityTW = _ := done .normal hnormal
      rw [List.find?_cons_of_pos hnormal]
      dsimp only
      rw [h]
      rfl
    | false =>
      have h : op .normal m.normalPriorityTW = _ := hfail .normal hnormal
      rw [List.find?_cons_of_neg (by simp [hnormal])]
      dsimp only
      rw [h]
      cases hlow : p .low with
      | true =>
        have h : op .low m.lowPriorityTW = _ := done .low hlow
        rw [List.find?_cons_of_pos hlow]
        dsimp only
        rw [h]
        rfl
      | false =>
        have h : op .low m.lowPriorityTW = _ := hfail .low hlow
        rw [List.find?_cons_of_neg (by simp [hlow])]
        dsimp only
        rw [h]
        rfl

/-! ## What is registered where -/

variable {m m' : MultiLevelTimeWheel} {id : String} {l : Level} {w : TimeWheel}

/-- The registrations of each wheel. One registry for each level. -/
def registry (m : MultiLevelTimeWheel) (l : Level) : Registry := (m.wheel l).registry l.config

/-- The ID has an entry in the wheel of level `l`. -/
def Registered (m : MultiLevelTimeWheel) (l : Level) (id : String) : Prop :=
  (m.wheel l).lookup l.config id ≠ none

instance (m : MultiLevelTimeWheel) (l : Level) (id : String) : Decidable (m.Registered l id) :=
  inferInstanceAs (Decidable ((m.wheel l).lookup l.config id ≠ none))

/-- **No ID is in two wheels.** Nothing in the code enforces this across wheels. -/
def UniqueIDs (m : MultiLevelTimeWheel) : Prop :=
  ∀ id l l', m.Registered l id → m.Registered l' id → l = l'

/-- The wheel that a call for an ID reaches: the first one that has an entry for
it. The empty ID is held by none. -/
def holder (m : MultiLevelTimeWheel) (id : String) : Option Level :=
  levels.find? (fun l => decide (id ≠ "") && decide (m.Registered l id))

/-- The wheel that is reached has an entry, -/
theorem registered_of_holder (h : m.holder id = some l) : id ≠ "" ∧ m.Registered l id := by
  have hp := List.find?_some h
  simpa using hp

/-- and if none is reached, none has. -/
theorem holder_eq_none : m.holder id = none ↔ id = "" ∨ ∀ l, ¬ m.Registered l id := by
  unfold holder levels
  simp only [List.find?_eq_none, List.mem_cons, List.not_mem_nil, or_false]
  constructor
  · intro h
    by_cases hid : id = ""
    · exact Or.inl hid
    · refine Or.inr (fun l hl => ?_)
      have := h l (by cases l <;> simp)
      simp [hid, hl] at this
  · rintro (rfl | h) l -
    · simp
    · simp [h l]

/-- Setting one wheel changes one registry. -/
theorem registry_setWheel (m : MultiLevelTimeWheel) (l : Level) (w : TimeWheel) :
    (m.setWheel l w).registry = Function.update m.registry l (w.registry l.config) := by
  funext l'
  by_cases hl : l' = l
  · subst hl
    rw [Function.update_self]
    unfold registry
    rw [wheel_setWheel_self]
  · rw [Function.update_of_ne hl]
    unfold registry
    rw [wheel_setWheel_of_ne m hl]

/-- The entries of all three wheels are in order. This is the invariant that the
services rely on. -/
def Keyed (m : MultiLevelTimeWheel) : Prop := ∀ l, Entries l.config (m.wheel l)

/-- All three wheels are running. -/
def Running (m : MultiLevelTimeWheel) : Prop := ∀ l, Up (m.wheel l)

/-- Where the entries are in order, no registration means no entry, -/
theorem Keyed.registry_eq_none (h : Keyed m) (l : Level) (id : String) :
    m.registry l id = none ↔ ¬ m.Registered l id := by
  rw [Registered, not_not]
  exact (h l).registry_eq_none id

/-- and the other way round. -/
theorem Keyed.registered_iff (h : Keyed m) (l : Level) (id : String) :
    m.Registered l id ↔ m.registry l id ≠ none := by
  rw [Ne, h.registry_eq_none, not_not]

/-- The wheel that is set has to be in order. -/
theorem Keyed.setWheel (h : Keyed m) (hw : Entries l.config w) : Keyed (m.setWheel l w) := by
  intro l'
  by_cases hl : l' = l
  · subst hl
    rwa [wheel_setWheel_self]
  · rw [wheel_setWheel_of_ne m hl]
    exact h l'

/-- Each wheel of `m'` is running if that of `m` is. No call stops a wheel. -/
def StaysUp (m m' : MultiLevelTimeWheel) : Prop := ∀ l, SameUp (m.wheel l) (m'.wheel l)

/-- Steps put together keep wheels running -/
theorem StaysUp.refl (m : MultiLevelTimeWheel) : StaysUp m m := fun _ => .refl _

/-- if each of them does. -/
theorem StaysUp.trans {m'' : MultiLevelTimeWheel} (h : StaysUp m m') (h' : StaysUp m' m'') :
    StaysUp m m'' := fun l => (h l).trans (h' l)

/-- So the multi-level wheel goes on running, -/
theorem StaysUp.running (h : StaysUp m m') (hm : Running m) : Running m' :=
  fun l => (h l).up (hm l)

/-- also when one of its wheels has changed. -/
theorem staysUp_setWheel (hw : SameUp (m.wheel l) w) : StaysUp m (m.setWheel l w) := by
  intro l'
  by_cases hl : l' = l
  · subst hl
    rwa [wheel_setWheel_self]
  · rw [wheel_setWheel_of_ne m hl]
    exact .refl _

/-! ## The calls that take an ID -/

/-- A call that looks for the entry of an ID reaches the first wheel that has
one. The operations on a single wheel fail on an ID without an entry, and
succeed otherwise. -/
theorem firstOf_withEntry {op : Level → TimeWheel → Option Err × TimeWheel}
    (hop : ∀ l, ∃ g, op l (m.wheel l) = withEntry l.config (m.wheel l) id g
      ∧ ∀ n, (g n).1 = none) :
    m.firstOf op = match m.holder id with
      | none => (some (missingErr id), m)
      | some l => (none, m.setWheel l (op l (m.wheel l)).2) := by
  refine m.firstOf_eq (fun l hl => ?_) (fun l hl => ?_)
  · obtain ⟨g, hg, -⟩ := hop l
    rw [hg]
    refine withEntry_missing ?_
    by_contra hcon
    push Not at hcon
    simp [Registered, hcon.1, hcon.2] at hl
  · obtain ⟨g, hg, hnone⟩ := hop l
    obtain ⟨hid, hreg⟩ : id ≠ "" ∧ m.Registered l id := by simpa using hl
    obtain ⟨n, hn⟩ := Option.ne_none_iff_exists'.mp hreg
    rw [hg, withEntry_found hid hn]
    exact hnone n

/-- **A call for one ID on the registries**: it applies `f` to what the first
wheel holds under the ID, and fails if none holds anything. The services know
the wheels by this alone. -/
inductive ByID (m : MultiLevelTimeWheel) (id : String)
    (f : Registration → Option Registration) : Option Err × MultiLevelTimeWheel → Prop where
  | missing (h : ∀ l, m.registry l id = none) : ByID m id f (some (missingErr id), m)
  | done {l : Level} {r : Registration} {m' : MultiLevelTimeWheel}
      (reached : m.holder id = some l) (held : m.registry l id = some r) (keyed : Keyed m')
      (up : StaysUp m m') (registry : m'.registry
        = Function.update m.registry l (Function.update (m.registry l) id (f r))) :
      ByID m id f (none, m')

/-- **What a call for one ID does**, from what it does to a single wheel. -/
theorem byID_of_firstOf (h : Keyed m) {op : Level → TimeWheel → Option Err × TimeWheel}
    {f : Registration → Option Registration}
    (hop : ∀ l, ∃ g, op l (m.wheel l) = withEntry l.config (m.wheel l) id g
      ∧ ∀ n, (g n).1 = none)
    (heffect : ∀ l, Timewheel.ByID l.config (m.wheel l) id f (op l (m.wheel l))) :
    ByID m id f (m.firstOf op) := by
  rw [firstOf_withEntry hop]
  cases hh : m.holder id with
  | none =>
    refine .missing (fun l => (h.registry_eq_none l id).mpr ?_)
    rcases holder_eq_none.mp hh with rfl | hnone
    · rw [← h.registry_eq_none]
      exact (h l).registry_empty
    · exact hnone l
  | some l =>
    have hreg := (registered_of_holder hh).2
    have hl := heffect l
    dsimp only
    generalize op l (m.wheel l) = r at hl ⊢
    cases hl with
    | missing hnone => exact absurd ((h.registry_eq_none l id).mp hnone) (not_not.mpr hreg)
    | done held entries up registry =>
      refine .done hh held (h.setWheel entries) (staysUp_setWheel up) ?_
      rw [registry_setWheel, registry]
      rfl

/-- `RemoveTask` leaves nothing under the ID, -/
theorem removeTask_effect (h : Keyed m) (id : String) :
    ByID m id (fun _ => none) (m.removeTask id) :=
  byID_of_firstOf h
    (fun l => (removeTask_eq l.config (m.wheel l) id true).imp
      (fun _ hg => ⟨hg.1, fun n => (hg.2 n).1⟩))
    (fun l => Timewheel.removeTask_effect (h l) id true)

/-- `PauseTask` sets the flag of the registration, -/
theorem pauseTask_effect (h : Keyed m) (id : String) :
    ByID m id (fun r => some { r with paused := true }) (m.pauseTask id) :=
  byID_of_firstOf h
    (fun l => (pauseTask_eq l.config (m.wheel l) id).imp
      (fun _ hg => ⟨hg.1, fun n => (hg.2 n).1⟩))
    (fun l => Timewheel.pauseTask_effect (h l) id)

/-- and `ResumeTask` clears it. -/
theorem resumeTask_effect (h : Keyed m) (id : String) (now : Time) :
    ByID m id (fun r => some { r with paused := false }) (m.resumeTask id now) :=
  byID_of_firstOf h
    (fun l => (resumeTask_eq l.config (m.wheel l) id now).imp
      (fun _ hg => ⟨hg.1, fun n => (hg.2 n).1⟩))
    (fun l => Timewheel.resumeTask_effect (h l) id now)

/-! ## AddTask -/

/-- The checks of both `AddTask`s, in order. -/
def acceptTask (task : Task) : Except Err Task :=
  if task.id = "" then .error .invalidParam
  else if task.run = none then .error .invalidParam
  else if task.interval ≤ 0 then .error (.text "task interval must be greater than 0")
  else checkTask task

/-- The checks let the task pass. -/
def accepts (task : Task) : Bool :=
  match acceptTask task with
  | .ok _ => true
  | .error _ => false

theorem checkTask_of_acceptTask {t t' : Task} (h : acceptTask t = .ok t') :
    checkTask t = .ok t' := by
  unfold acceptTask at h
  split_ifs at h
  exact h

/-- `AddTask` to a running wheel is its checks, and then the call of the
wheel. -/
theorem addTask_eq (m : MultiLevelTimeWheel) (task : Task) (env : AddEnv)
    (hrun : (m.wheel (levelOf task.priority)).running = true) :
    m.addTask (some task) env = match acceptTask task with
      | .error err => (some err, m)
      | .ok _ =>
        (((m.wheel (levelOf task.priority)).addTask (levelOf task.priority).config
            (some task) env).1,
          m.setWheel (levelOf task.priority)
            ((m.wheel (levelOf task.priority)).addTask (levelOf task.priority).config
              (some task) env).2) := by
  unfold addTask acceptTask addTaskInternal
  dsimp only
  rw [hrun, if_neg (Bool.noConfusion : ¬ true = false)]
  split_ifs
  · rfl
  · rfl
  · rfl
  · cases hcheck : checkTask task with
    | ok _ => rfl
    | error err =>
      have hadd : (m.wheel (levelOf task.priority)).addTask (levelOf task.priority).config
          (some task) env = (some err, m.wheel (levelOf task.priority)) := by
        unfold TimeWheel.addTask
        dsimp only
        rw [hcheck]
      rw [hadd, setWheel_wheel]

/-- Why `AddTask` rejects a task. -/
inductive Rejects (m : MultiLevelTimeWheel) (task : Task) : Err → Prop where
  | check {err : Err} (h : acceptTask task = .error err) : Rejects m task err
  | notRunning (h : (m.wheel (levelOf task.priority)).running = false) :
      Rejects m task .wheelNotRunning

/-- **`AddTask` on the registries**: it enters the task in the wheel of its
priority, paused if the pool hands out a paused node. -/
inductive AddEffect (m : MultiLevelTimeWheel) (task : Task) (env : AddEnv) :
    Option Err × MultiLevelTimeWheel → Prop where
  | rejected {err : Err} (reason : Rejects m task err) : AddEffect m task env (some err, m)
  | duplicate {t' : Task} {m' : MultiLevelTimeWheel} (accepted : acceptTask task = .ok t')
      (taken : m.registry (levelOf task.priority) task.id ≠ none) (keyed : Keyed m')
      (up : StaysUp m m') (registry : m'.registry = m.registry) :
      AddEffect m task env (some .taskAlreadyExists, m')
  | added {t' : Task} {m' : MultiLevelTimeWheel} (accepted : acceptTask task = .ok t')
      (running : (m.wheel (levelOf task.priority)).running = true)
      (new : m.registry (levelOf task.priority) task.id = none) (keyed : Keyed m')
      (up : StaysUp m m')
      (registry : m'.registry = Function.update m.registry (levelOf task.priority)
        (Function.update (m.registry (levelOf task.priority)) task.id
          (some ⟨t', (m.wheel (levelOf task.priority)).handsOutPaused env.node⟩))) :
      AddEffect m task env (none, m')

/-- `AddTask` works on the registry of one level. -/
theorem addTask_effect (h : Keyed m) (task : Task) (env : AddEnv) :
    AddEffect m task env (m.addTask (some task) env) := by
  cases hrun : (m.wheel (levelOf task.priority)).running with
  | false =>
    unfold addTask addTaskInternal
    dsimp only
    have hcheck : ∀ err, acceptTask task = .error err →
        AddEffect m task env (some err, m) := fun err herr => .rejected (.check herr)
    unfold acceptTask at hcheck
    split_ifs at hcheck ⊢
    · exact hcheck _ rfl
    · exact hcheck _ rfl
    · exact hcheck _ rfl
    · exact .rejected (.notRunning hrun)
  | true =>
    rw [addTask_eq m task env hrun]
    cases haccept : acceptTask task with
    | error err => exact .rejected (.check haccept)
    | ok t' =>
      have hcheck := checkTask_of_acceptTask haccept
      have heffect := Timewheel.addTask_effect (h (levelOf task.priority)) (some task) env
      dsimp only
      generalize (m.wheel (levelOf task.priority)).addTask (levelOf task.priority).config
        (some task) env = r at heffect ⊢
      cases heffect with
      | rejected reason =>
        cases reason with
        | check herr => cases herr.symm.trans hcheck
        | notRunning _ hrun' => cases hrun'.symm.trans hrun
      | duplicate task_eq check taken entries up registry =>
        obtain rfl := Option.some.inj task_eq
        refine .duplicate haccept taken (h.setWheel entries) (staysUp_setWheel up) ?_
        rw [registry_setWheel, registry]
        exact Function.update_eq_self _ _
      | added task_eq check new entries up registry =>
        obtain rfl := Option.some.inj task_eq
        obtain rfl := Except.ok.inj (hcheck.symm.trans check)
        refine .added haccept hrun new (h.setWheel entries) (staysUp_setWheel up) ?_
        rw [registry_setWheel, registry]
        rfl

/-! ## Starting -/

/-- Starting the levels starts each wheel. -/
theorem start_wheel {created now : Level → Time} (h : (new created).start now = some m)
    (l : Level) : ∃ created now,
      TimeWheel.start l.config (TimeWheel.new false none created) now = some (m.wheel l) := by
  unfold start at h
  rw [if_neg (by exact Bool.false_ne_true)] at h
  obtain ⟨high, hhigh, h⟩ := Option.bind_eq_some_iff.mp h
  obtain ⟨normal, hnormal, h⟩ := Option.bind_eq_some_iff.mp h
  obtain ⟨low, hlow, h⟩ := Option.bind_eq_some_iff.mp h
  obtain rfl := Option.some.inj h
  cases l with
  | high => exact ⟨_, _, hhigh⟩
  | normal => exact ⟨_, _, hnormal⟩
  | low => exact ⟨_, _, hlow⟩

/-- A wheel that has just been started is empty. -/
theorem start_empty {created now : Level → Time} (h : (new created).start now = some m)
    (l : Level) :
    Up (m.wheel l) ∧ (∀ id, (m.wheel l).lookup l.config id = none) ∧ (m.wheel l).taskPool = [] := by
  obtain ⟨created, now, hwheel⟩ := start_wheel h l
  unfold TimeWheel.start at hwheel
  rw [if_neg (by exact Bool.false_ne_true)] at hwheel
  obtain ⟨slot, -, heq⟩ := Option.map_eq_some_iff.mp hwheel
  rw [← heq]
  exact ⟨⟨rfl, rfl⟩, fun id => AList.lookup_empty id, rfl⟩

/-- A multi-level wheel that has just been started is in order. -/
theorem keyed_of_start {created now : Level → Time} (h : (new created).start now = some m) :
    Keyed m := by
  intro l
  obtain ⟨-, hlookup, hpool⟩ := start_empty h l
  exact {
    task := fun id n hn => (nomatch (hlookup id).symm.trans hn)
    id_ne := fun id n hn => (nomatch (hlookup id).symm.trans hn)
    allocated := fun id n hn => (nomatch (hlookup id).symm.trans hn)
    not_pooled := fun id n hn => (nomatch (hlookup id).symm.trans hn)
    pool_nodup := hpool ▸ List.nodup_nil
    pool_lt := fun n hn => (nomatch hpool ▸ hn) }

end MultiLevelTimeWheel

/-! ### A wheel to run -/

/-- The multi-level wheel started at time 0. -/
def freshMultiLevelWheel : MultiLevelTimeWheel where
  highPriorityTW := { TimeWheel.new false none Time.zero with running := true, currentSlot := 0 }
  normalPriorityTW := { TimeWheel.new false none Time.zero with running := true, currentSlot := 0 }
  lowPriorityTW := { TimeWheel.new false none Time.zero with running := true, currentSlot := 0 }
  started := true

theorem start_freshMultiLevelWheel :
    (MultiLevelTimeWheel.new (fun _ => Time.zero)).start (fun _ => Time.ofMilli 0)
      = some freshMultiLevelWheel := by
  have key : ∀ I, 1 ≤ I → ∀ cfg : Config, cfg.interval = Duration.ofMilli I → cfg.slotNum = 60 →
      TimeWheel.start cfg (TimeWheel.new false none Time.zero) (Time.ofMilli 0)
        = some { TimeWheel.new false none Time.zero with running := true, currentSlot := 0 } := by
    intro I hI cfg hinterval hslots
    unfold TimeWheel.start
    rw [if_neg (by exact Bool.false_ne_true), hinterval, hslots, initialSlot_ofMilli hI,
      Nat.zero_div]
    rfl
  unfold MultiLevelTimeWheel.start
  rw [if_neg (by exact Bool.false_ne_true)]
  dsimp only [MultiLevelTimeWheel.new]
  rw [key 10 (by decide) Level.high.config rfl rfl,
    key 100 (by decide) Level.normal.config rfl rfl,
    key 1000 (by decide) Level.low.config rfl rfl]
  rfl

/-- What an `AddTask` at time 0 leaves open, answered with a new node. -/
def newNodeEnv : AddEnv := ⟨Time.ofMilli 0, none, ⟨Time.zero, [], []⟩, true⟩

end Timewheel
