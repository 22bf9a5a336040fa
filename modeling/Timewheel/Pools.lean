import Timewheel.MultiLevel
import Timewheel.Restart

/-!
# The pools of the multi-level wheel

The three wheels share the pools of one manager while they are running, and
each has a pool of its own for when it has no manager. The first wheel to stop
releases the manager, and so do the others and then the multi-level wheel
itself; the next `Start` hands the same manager out again.

A released pool takes no more executions. `poolsOpen_iff` says when a started
wheel has its pools open: until it is started for the second time.

A wheel is in one of three phases, and the phases come in this order: fresh,
live, stopped. There is no way back, because the manager stays released; so
whether the pools are open after a call can be told from the sequence of calls
alone.
-/

namespace Timewheel

/-! ## The code -/

/-- A goroutine pool, by its number. -/
abbrev PoolRef := ℕ

/-- `PoolManager`. One pool for each priority. -/
structure PoolManager where
  highPriorityPool : PoolRef
  normalPriorityPool : PoolRef
  lowPriorityPool : PoolRef
  deriving DecidableEq

/-- The pool to which `Execute` submits. A priority out of range counts as
normal. -/
def PoolManager.execute (pm : PoolManager) : Option Task → PoolRef
  | none => pm.normalPriorityPool
  | some task =>
    if task.priority = taskPriorityHigh then pm.highPriorityPool
    else if task.priority = taskPriorityLow then pm.lowPriorityPool
    else pm.normalPriorityPool

/-- The multi-level wheel with its pools: those of its manager, and for each
wheel the manager it has and the pool of its own. The pools below `nextPool`
have been created. A released pool is never opened again. -/
structure Pools where
  wheels : MultiLevelTimeWheel
  poolManager : PoolManager
  managerOf : Level → Option PoolManager
  poolOf : Level → PoolRef
  released : PoolRef → Bool
  nextPool : PoolRef

namespace Pools

variable {p p' : Pools} {l : Level} {r : PoolRef}

/-- `NewMultiLevelTimeWheel`: a pool for each wheel, then the manager's. The
numbers only have to be different. -/
def new (created : Level → Time) : Pools where
  wheels := MultiLevelTimeWheel.new created
  poolManager := ⟨3, 4, 5⟩
  managerOf := fun _ => none
  poolOf
    | .high => 0
    | .normal => 1
    | .low => 2
  released := fun _ => false
  nextPool := 6

/-- `Release` of a pool. It cannot be taken back. -/
def releasePool (p : Pools) (r : PoolRef) : Pools :=
  { p with released := Function.update p.released r true }

/-- `Release` of a manager. -/
def releaseManager (p : Pools) (pm : PoolManager) : Pools :=
  ((p.releasePool pm.highPriorityPool).releasePool pm.normalPriorityPool).releasePool
    pm.lowPriorityPool

/-- `Stop` of one wheel. The wheel gets a new pool of its own, but not a new
manager. -/
def stopWheel (p : Pools) (l : Level) : Pools :=
  if (p.wheels.wheel l).running then
    let p := { p with wheels := p.wheels.setWheel l (p.wheels.wheel l).stop }
    let p := match p.managerOf l with
      | some pm => { p.releaseManager pm with managerOf := Function.update p.managerOf l none }
      | none => p
    let p := p.releasePool (p.poolOf l)
    { p with poolOf := Function.update p.poolOf l p.nextPool, nextPool := p.nextPool + 1 }
  else p

/-- `Start`. The manager was made by the constructor. -/
def start (p : Pools) (now : Level → Time) : Option Pools :=
  if p.wheels.started then some p
  else (p.wheels.start now).map
    (fun wheels => { p with wheels := wheels, managerOf := fun _ => some p.poolManager })

/-- `Stop`. The manager is released more than once, which does no further harm. -/
def stop (p : Pools) : Pools :=
  if p.wheels.started then
    let p := ((p.stopWheel .high).stopWheel .normal).stopWheel .low
    let p := p.releaseManager p.poolManager
    { p with wheels := { p.wheels with started := false } }
  else p

/-- The pool to which the tick of a wheel submits an execution. A wheel with a
manager does not use its own pool. -/
def submitPool (p : Pools) (l : Level) (task : Option Task) : PoolRef :=
  match p.managerOf l with
  | some pm => pm.execute task
  | none => p.poolOf l

/-- **The pools are open** while the multi-level wheel is started: none to which
a wheel would submit an execution has been released. Any task may come up. -/
def PoolsOpen (p : Pools) : Prop :=
  p.wheels.started = true → ∀ l task, p.released (p.submitPool l task) = false

end Pools

/-- A call of the lifecycle. -/
inductive PoolAction where
  | start (now : Level → Time)
  | stop

/-- The call is a `Start`. -/
def PoolAction.isStart : PoolAction → Bool
  | .start _ => true
  | .stop => false

/-- **The step function.** -/
def poolStep (p : Pools) : PoolAction → Option Pools
  | .start now => p.start now
  | .stop => some p.stop

namespace Pools

variable {p p' : Pools} {l : Level} {r : PoolRef} {now : Level → Time}

/-! ## Releasing -/

/-- A pool that has been released stays released. -/
theorem released_releasePool (h : p.released r = true) (q : PoolRef) :
    (p.releasePool q).released r = true := by
  show Function.update p.released q true r = true
  by_cases hrq : r = q
  · subst hrq
    rw [Function.update_self]
  · rw [Function.update_of_ne hrq]
    exact h

/-- Whatever a task is, a released manager has its pool released. All three are
released. -/
theorem released_execute (p : Pools) (pm : PoolManager) (task : Option Task) :
    (p.releaseManager pm).released (pm.execute task) = true := by
  have hself : ∀ (q : Pools) r, (q.releasePool r).released r = true := fun q r => by
    show Function.update q.released r true r = true
    rw [Function.update_self]
  have hlow := hself ((p.releasePool pm.highPriorityPool).releasePool pm.normalPriorityPool)
    pm.lowPriorityPool
  have hnormal := released_releasePool (hself (p.releasePool pm.highPriorityPool)
    pm.normalPriorityPool) pm.lowPriorityPool
  have hhigh := released_releasePool (released_releasePool (hself p pm.highPriorityPool)
    pm.normalPriorityPool) pm.lowPriorityPool
  unfold PoolManager.execute
  cases task with
  | none => exact hnormal
  | some task =>
    dsimp only
    split_ifs
    · exact hhigh
    · exact hlow
    · exact hnormal

/-! ## The three phases -/

/-- Not started yet: all pools are open. The constructor leads here. -/
structure Fresh (p : Pools) : Prop where
  started : p.wheels.started = false
  running : ∀ l, (p.wheels.wheel l).running = false
  open_ : ∀ r, p.released r = false

/-- Live for the first time. The first `Start` leads here. -/
structure Live (p : Pools) : Prop where
  started : p.wheels.started = true
  manager : ∀ l, p.managerOf l = some p.poolManager
  open_ : ∀ r, p.released r = false

/-- Stopped: the manager has been released. The first `Stop` of a live wheel
leads here. -/
structure Stopped (p : Pools) : Prop where
  started : p.wheels.started = false
  released : ∀ task, p.released (p.poolManager.execute task) = true

/-- A new wheel is fresh. -/
theorem fresh_new (created : Level → Time) : Fresh (new created) :=
  ⟨rfl, fun l => by cases l <;> rfl, fun _ => rfl⟩

/-- A `Stop` of a wheel that is not started does nothing, -/
theorem Fresh.stop (h : Fresh p) : p.stop = p := by
  unfold Pools.stop
  rw [h.started]
  rfl

/-- whichever of the two phases it is in, -/
theorem Stopped.stop (h : Stopped p) : p.stop = p := by
  unfold Pools.stop
  rw [h.started]
  rfl

/-- and neither does a `Start` of one that is. -/
theorem Live.start (h : Live p) (now : Level → Time) : p.start now = some p := by
  unfold Pools.start
  rw [if_pos h.started]

/-- `Stop` releases the manager, whatever the wheels do. The pools are those of
the manager. -/
theorem Live.stop (h : Live p) : Stopped p.stop := by
  unfold Pools.stop
  rw [if_pos h.started]
  exact ⟨rfl, fun task => released_execute _ _ task⟩

/-- The wheels start: none of them has an interval below a millisecond. So
`Start` does not panic. -/
theorem start_wheels (m : MultiLevelTimeWheel) (now : Level → Time) (h : m.started = false) :
    ∃ m', m.start now = some m' ∧ m'.started = true := by
  have key : ∀ l w t, ∃ w', TimeWheel.start (Level.config l) w t = some w' := by
    intro l w t
    unfold TimeWheel.start
    split_ifs
    · exact ⟨w, rfl⟩
    · unfold initialSlot
      rw [if_neg (by cases l <;> decide)]
      exact ⟨_, rfl⟩
  unfold MultiLevelTimeWheel.start
  rw [h, if_neg Bool.false_ne_true]
  obtain ⟨high, hhigh⟩ := key .high m.highPriorityTW (now .high)
  obtain ⟨normal, hnormal⟩ := key .normal m.normalPriorityTW (now .normal)
  obtain ⟨low, hlow⟩ := key .low m.lowPriorityTW (now .low)
  rw [hhigh, hnormal, hlow]
  exact ⟨_, rfl, rfl⟩

/-- What `Start` does when the multi-level wheel is not started. Every wheel
gets the manager. -/
theorem start_of_not_started (h : p.wheels.started = false) (now : Level → Time) :
    ∃ wheels, wheels.started = true
      ∧ p.start now
        = some { p with wheels := wheels, managerOf := fun _ => some p.poolManager } := by
  obtain ⟨wheels, hwheels, hstarted⟩ := start_wheels p.wheels now h
  refine ⟨wheels, hstarted, ?_⟩
  unfold Pools.start
  rw [h, if_neg Bool.false_ne_true, hwheels]
  rfl

/-- The first `Start` makes the wheel live. -/
theorem Fresh.start (h : Fresh p) (hstep : p.start now = some p') : Live p' := by
  obtain ⟨wheels, hstarted, heq⟩ := start_of_not_started h.started now
  obtain rfl := Option.some.inj (heq.symm.trans hstep)
  exact ⟨hstarted, fun _ => rfl, h.open_⟩

/-- The manager that `Start` hands out again is the released one. So the wheel
is started with its pools released. -/
theorem Stopped.start (h : Stopped p) (now : Level → Time) :
    ∃ p', p.start now = some p' ∧ ¬ p'.PoolsOpen := by
  obtain ⟨wheels, hstarted, heq⟩ := start_of_not_started h.started now
  refine ⟨_, heq, fun hopen => ?_⟩
  have hreleased : p.released (p.poolManager.execute none) = false := hopen hstarted .high none
  exact Bool.false_ne_true (hreleased.symm.trans (h.released none))

/-- A wheel that is not started has nothing to submit, -/
theorem Fresh.poolsOpen (h : Fresh p) : p.PoolsOpen :=
  fun hstarted => absurd (h.started.symm.trans hstarted) Bool.false_ne_true

/-- a live one has all its pools open, -/
theorem Live.poolsOpen (h : Live p) : p.PoolsOpen := fun _ _ _ => h.open_ _

/-- and a stopped one has nothing to submit either. -/
theorem Stopped.poolsOpen (h : Stopped p) : p.PoolsOpen :=
  fun hstarted => absurd (h.started.symm.trans hstarted) Bool.false_ne_true

/-! ## Runs -/

/-- From a stopped wheel on there may be no `Start`. Any number of calls of
`Stop` may come. -/
theorem Stopped.each_iff (h : Stopped p) (as : List PoolAction) :
    Machine.Each poolStep (fun _ _ p' => p'.PoolsOpen) p as
      ↔ ¬ List.Sublist [true] (as.map PoolAction.isStart) := by
  induction as with
  | nil => simp
  | cons a as ih =>
    cases a with
    | start now =>
      obtain ⟨p', hstep, hclosed⟩ := h.start now
      constructor
      · exact fun heach => absurd (heach p' hstep).1 hclosed
      · exact fun hno => absurd (List.cons_sublist_cons.mpr (List.nil_sublist _)) hno
    | stop =>
      have hsub : List.Sublist [true] (false :: as.map PoolAction.isStart)
          ↔ List.Sublist [true] (as.map PoolAction.isStart) := by
        simp [List.cons_sublist_cons']
      rw [List.map_cons, PoolAction.isStart, hsub, ← ih]
      constructor
      · intro heach
        have hrest := (heach p.stop rfl).2
        rwa [h.stop] at hrest
      · rintro heach p' hstep
        obtain rfl := Option.some.inj hstep
        rw [h.stop]
        exact ⟨h.poolsOpen, heach⟩

/-- From a started wheel on there may be no `Start` after a `Stop`. Calls of
`Start` before that do nothing. -/
theorem Live.each_iff (h : Live p) (as : List PoolAction) :
    Machine.Each poolStep (fun _ _ p' => p'.PoolsOpen) p as
      ↔ ¬ List.Sublist [false, true] (as.map PoolAction.isStart) := by
  induction as with
  | nil => simp
  | cons a as ih =>
    cases a with
    | start now =>
      have hsub : List.Sublist [false, true] (true :: as.map PoolAction.isStart)
          ↔ List.Sublist [false, true] (as.map PoolAction.isStart) := by
        simp [List.cons_sublist_cons']
      rw [List.map_cons, PoolAction.isStart, hsub, ← ih]
      constructor
      · exact fun heach => (heach p (h.start now)).2
      · rintro heach p' hstep
        obtain rfl := Option.some.inj ((h.start now).symm.trans hstep)
        exact ⟨h.poolsOpen, heach⟩
    | stop =>
      rw [List.map_cons, PoolAction.isStart, List.cons_sublist_cons, ← h.stop.each_iff]
      constructor
      · exact fun heach => (heach p.stop rfl).2
      · rintro heach p' hstep
        obtain rfl := Option.some.inj hstep
        exact ⟨h.stop.poolsOpen, heach⟩

/-- **The pools are open exactly until the wheel is started again**: in a
sequence of calls in which no `Start` comes after a `Stop` that comes after a
`Start`. The condition is a pattern in the sequence of calls, so it can be read
off a program that makes them. -/
theorem poolsOpen_iff (created : Level → Time) (as : List PoolAction) :
    Machine.Each poolStep (fun _ _ p => p.PoolsOpen) (new created) as
      ↔ ¬ List.Sublist [true, false, true] (as.map PoolAction.isStart) := by
  have key : ∀ p, Fresh p → (Machine.Each poolStep (fun _ _ p => p.PoolsOpen) p as
      ↔ ¬ List.Sublist [true, false, true] (as.map PoolAction.isStart)) := by
    intro p h
    induction as with
    | nil => simp
    | cons a as ih =>
      cases a with
      | start now =>
        obtain ⟨wheels, -, hstart⟩ := start_of_not_started h.started now
        rw [List.map_cons, PoolAction.isStart, List.cons_sublist_cons,
          ← (h.start hstart).each_iff]
        constructor
        · exact fun heach => (heach _ hstart).2
        · rintro heach p' hstep
          obtain rfl := Option.some.inj (hstart.symm.trans hstep)
          exact ⟨(h.start hstart).poolsOpen, heach⟩
      | stop =>
        have hsub : List.Sublist [true, false, true] (false :: as.map PoolAction.isStart)
            ↔ List.Sublist [true, false, true] (as.map PoolAction.isStart) := by
          simp [List.cons_sublist_cons']
        rw [List.map_cons, PoolAction.isStart, hsub, ← ih]
        constructor
        · intro heach
          have hrest := (heach p.stop rfl).2
          rwa [h.stop] at hrest
        · rintro heach p' hstep
          obtain rfl := Option.some.inj hstep
          rw [h.stop]
          exact ⟨h.poolsOpen, heach⟩
  exact key _ (fresh_new created)

/-- The wheel is started, stopped and started again, and would submit to a
released pool. -/
theorem not_poolsOpen_of_restart :
    ¬ ∀ (created : Level → Time) (as : List PoolAction),
      Machine.Each poolStep (fun _ _ p => p.PoolsOpen) (new created) as := by
  intro h
  have hrun : ∃ p, Machine.run poolStep (new (fun _ => Time.zero))
      [.start (fun _ => Time.ofMilli 0), .stop, .start (fun _ => Time.ofMilli 0)] = some p
        ∧ p.wheels.started = true ∧ p.released (p.submitPool .high none) = true := by
    refine ⟨_, rfl, ?_⟩
    decide +kernel
  obtain ⟨p, hrun, hstarted, hreleased⟩ := hrun
  have hopen := Machine.state_of_each (P := PoolsOpen) (fresh_new _).poolsOpen (h _ _) hrun
  exact Bool.false_ne_true ((hopen hstarted .high none).symm.trans hreleased)

end Pools

end Timewheel
