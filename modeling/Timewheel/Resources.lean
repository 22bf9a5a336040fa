import Timewheel.Lib.Ledger
import Timewheel.Lifecycle

/-!
# What an execution takes and gives back

`executeTask` takes three things: a token of the semaphore, one on
`runningTasks`, and the write lock of the shard of its task. The first two are
given back by its deferred function, which runs however the body ends. The lock
is given back by a line at the end of the locked section.

Between that line and the `Lock` the sinks of the alert are called, and two of
them are not the wheel's own: the `HistoryStore` and the callback. When one of
them panics, the deferred function recovers, gives back the token, and the
shard stays locked for good. `givesBack_iff` says that this is the only way:
every execution that has ended has given back everything exactly when none of
those that have ended panicked in a sink.

Every step that one goroutine takes by itself is a step here: taking the token
and counting are two, and so are giving it back and counting down; the sinks
are called one by one with the lock held; and between any two steps come those
of other executions, of ticks and of calls. Calls of the interface wait for
the locks of their shards.

There are two invariants. That of the accounts says that a token and a place
in the counter belong to an execution from the step that took them to the step
that gives them back (`Accounted`); it holds in every run. That of the locks
says who holds the lock of a shard: an execution in its locked section, or one
that panicked there (`Locked`).
-/

namespace Timewheel

open TimeWheel

/-! ## The locked section, up to the sinks and from there -/

/-- What is left of `handleAlertStateLocked`: the sinks to call, whether
`lastFiredAt` is to be set then, and what is to be added to `totalAlertsFired`.
The sinks are called with the lock held, and what follows them is under it too. -/
structure AlertRest where
  calls : List AlertEvent
  stamp : Bool
  fired : ℕ
  deriving DecidableEq, Repr

/-- The node after the sinks. A repeated alert is timed from here. -/
def AlertRest.close (rest : AlertRest) (node : TaskSlot) (now : Time) : TaskSlot :=
  if rest.stamp then { node with lastFiredAt := now } else node

/-- `handleAlertStateLocked` up to its first sink: the node, what has been added
to `totalAlertsFired`, and the rest. The state of the node is written before the
first sink is called, so a panic leaves it written. -/
def beginAlert (sinks : AlertSinks) (node : TaskSlot) (taskInfo : TaskInfo)
    (result : AlarmResult) (now : Time) : TaskSlot × ℕ × AlertRest :=
  if node.task = none then (node, 0, ⟨[], false, 0⟩)
  else
    let oldState := node.alertState
    let (computed, newState) := node.computeAlertState result.isFiring taskInfo.forDuration now
    let node := { computed with alertState := newState }
    let manager := AlertEvent.managerRecord taskInfo.id oldState newState result
      taskInfo.severity taskInfo.labels taskInfo.annotations
    let store := AlertEvent.storeRecord
      { taskID := taskInfo.id, oldState := oldState, state := newState, timestamp := now,
        value := result.value, threshold := result.threshold, isFiring := result.isFiring,
        severity := taskInfo.severity }
    let callback := AlertEvent.stateChange taskInfo.id oldState newState result
    if oldState ≠ newState then
      let calls := (if sinks.historyManager then [manager] else [])
        ++ (if sinks.historyStore then [store] else [])
        ++ (if sinks.onAlertStateChange then [callback] else [])
      if newState = .firing ∧ taskInfo.repeatInterval > 0 then (node, 0, ⟨calls, true, 1⟩)
      else if newState = .firing then (node, 0, ⟨calls, false, 1⟩)
      else (node, 0, ⟨calls, false, 0⟩)
    else if newState = .firing ∧ taskInfo.repeatInterval > 0 then
      if node.lastFiredAt.isZero = false
          ∧ now.sub node.lastFiredAt ≥ taskInfo.repeatInterval then
        -- the repeated alert is counted before the sinks are called
        (node, 1, ⟨(if sinks.historyManager then [manager] else [])
          ++ (if sinks.onAlertStateChange then [callback] else []), true, 0⟩)
      else (node, 0, ⟨[], false, 0⟩)
    else (node, 0, ⟨[], false, 0⟩)

/-- The two parts make up `handleAlertStateLocked`. So splitting it has not
changed it. -/
theorem handleAlertStateLocked_eq (sinks : AlertSinks) (node : TaskSlot) (info : TaskInfo)
    (result : AlarmResult) (now : Time) :
    handleAlertStateLocked sinks node info result now
      = let (node, fired, rest) := beginAlert sinks node info result now
        ⟨rest.close node now, rest.calls, fired + rest.fired⟩ := by
  unfold handleAlertStateLocked beginAlert
  by_cases htask : node.task = none
  · rw [if_pos htask, if_pos htask]
    rfl
  · rw [if_neg htask, if_neg htask]
    obtain ⟨computed, newState⟩ := node.computeAlertState result.isFiring info.forDuration now
    dsimp only
    split_ifs
    all_goals rfl

namespace TimeWheel

/-- The part up to the sinks, on a node of the wheel. The counter of fired
alerts is part of the wheel. -/
def beginAlert (cfg : Config) (w : TimeWheel) (n : NodeRef) (taskInfo : TaskInfo)
    (result : AlarmResult) (now : Time) : TimeWheel × AlertRest :=
  let (node, fired, rest) := Timewheel.beginAlert cfg.sinks (w.heap n) taskInfo result now
  ({ w.setNode n node with
      counters := { w.counters with totalAlertsFired := w.counters.totalAlertsFired + fired } },
    rest)

/-- A sink is called. What it does is its own business; that it was called is
kept. -/
def callSink (w : TimeWheel) (e : AlertEvent) : TimeWheel :=
  { w with alertEvents := w.alertEvents ++ [e] }

/-- The part after the sinks. It is not reached when a sink panics. -/
def endAlert (w : TimeWheel) (n : NodeRef) (rest : AlertRest) (now : Time) : TimeWheel :=
  { w.setNode n (rest.close (w.heap n) now) with
    counters := { w.counters with totalAlertsFired := w.counters.totalAlertsFired + rest.fired } }

/-- Calling the sinks one after another calls them all. -/
theorem foldl_callSink (w : TimeWheel) (calls : List AlertEvent) :
    calls.foldl callSink w = { w with alertEvents := w.alertEvents ++ calls } := by
  induction calls generalizing w with
  | nil =>
    rw [List.append_nil]
    rfl
  | cons e calls ih =>
    rw [List.foldl_cons, ih]
    show { w with alertEvents := w.alertEvents ++ [e] ++ calls } = _
    rw [List.append_assoc, List.singleton_append]

/-- **The parts in a row** are the locked step of the alert. This connects the
fine steps of this module to the single step of the others. -/
theorem endAlert_beginAlert (cfg : Config) (w : TimeWheel) (n : NodeRef) (info : TaskInfo)
    (result : AlarmResult) (now : Time) :
    ((w.beginAlert cfg n info result now).2.calls.foldl callSink
        (w.beginAlert cfg n info result now).1).endAlert n
      (w.beginAlert cfg n info result now).2 now = w.applyAlert cfg n info result now := by
  rw [foldl_callSink]
  unfold applyAlert
  rw [handleAlertStateLocked_eq]
  unfold TimeWheel.beginAlert
  generalize Timewheel.beginAlert cfg.sinks (w.heap n) info result now = parts
  obtain ⟨node, fired, rest⟩ := parts
  unfold endAlert setNode
  dsimp only
  rw [Function.update_self, Function.update_idem, Nat.add_assoc]

end TimeWheel

/-- The sink is not the wheel's own: it may panic. The `HistoryManager` is part
of the package and appends to a slice. -/
def AlertEvent.isForeign : AlertEvent → Bool
  | .managerRecord _ _ _ _ _ _ _ => false
  | .storeRecord _ => true
  | .stateChange _ _ _ _ => true

/-! ## The system -/

/-- Where a call of `executeTask` stands. Each is between two steps that others
may come between. -/
inductive Point where
  /-- At the `select` of `acquireSemaphore`. -/
  | acquiring
  /-- The token is in the channel, and `runningTasks` is next. -/
  | acquired
  | checking
  /-- `runTask` returned an error, and `onError` is called. -/
  | failed (info : TaskInfo)
  | running (info : TaskInfo)
  /-- At `shard.mu.Lock()`. -/
  | locking (info : TaskInfo) (result : AlarmResult)
  /-- The lock is held, and the sinks are called one after the other. -/
  | notifying (info : TaskInfo) (rest : AlertRest)
  | deferred
  /-- The token is taken out of the channel, and `runningTasks` is next. -/
  | released
  | ended
  deriving DecidableEq, Repr

/-- A call of `executeTask`: its arguments, `semaphoreAcquired`, and where it
stands. `tokens` and `counted` are its account: the tokens it has put into the
channel less those it has taken out, and what it has added to `runningTasks`.
The account is not in the code; it is what the theorem is about. -/
structure Activation where
  node : NodeRef
  now : Time
  currentSlot : ℕ
  semaphoreAcquired : Bool
  point : Point
  tokens : ℤ
  counted : ℤ
  deriving DecidableEq, Repr

/-- The wheel, the calls of `executeTask` so far, and what they share: which of
them holds the lock of a shard, the length of the channel `taskSemaphore`, and
the counter. A shard is locked by one of the calls, named by its place in the
list. -/
structure Resources where
  wheel : TimeWheel
  acts : List Activation
  locks : ℕ → Option ℕ
  taskSemaphore : ℕ
  runningTasks : ℤ

/-- What a call of `executeTask` does. Which of them are possible depends on
where the call stands. -/
inductive Move where
  | acquire
  | giveUp
  | count
  | check
  | onError
  | finish (result : AlarmResult)
  /-- A panic where no lock is held: of `Run` or of `onError`. -/
  | panic
  | lock
  | notify
  /-- The sink panics. -/
  | notifyPanic
  | unlock
  | release
  | done
  deriving DecidableEq, Repr

/-- One step: of a call of `executeTask`, of a tick, of a call of the interface,
or of a `Stop`, which cancels the context and, when nothing is executed any
more, begins with a new one. `Stop` waits for the executions between its two
steps. -/
inductive ResourceAction where
  | act (i : ℕ) (m : Move)
  | tick (now : Time)
  | call (a : Action)
  | cancel
  | renew

/-- The shards a call of the interface locks. `ClearAllTasks` goes through all
of them. -/
def Action.shards (cfg : Config) : Action → List ℕ
  | .addTask task _ => (task.map (fun t => shardOf cfg t.id)).toList
  | .updateTask task _ => (task.map (fun t => shardOf cfg t.id)).toList
  | .removeTask taskID _ => [shardOf cfg taskID]
  | .pauseTask taskID => [shardOf cfg taskID]
  | .resumeTask taskID _ => [shardOf cfg taskID]
  | .clearAllTasks _ _ => List.range cfg.shardNum
  | _ => []

namespace Resources

variable {cfg : Config} {limit : ℕ} {s s' : Resources} {i j k : ℕ} {a b : Activation}
  {m : Move} {as bs : List ResourceAction}

/-- A wheel with nothing executed. No call of `executeTask` has been made, and
no lock is held. -/
def ofWheel (w : TimeWheel) : Resources := ⟨w, [], fun _ => none, 0, 0⟩

/-- The activation at `i` moves on. The list only grows, so places are names. -/
def put (s : Resources) (i : ℕ) (a : Activation) : Resources := { s with acts := s.acts.set i a }

/-- After `updateTaskResult`: the task may be gone. The code looks at the task
again after the function has returned, and does not lock the shard for one that
is gone. -/
def afterResult (s : Resources) (i : ℕ) (a : Activation) (info : TaskInfo)
    (result : AlarmResult) : Resources :=
  if (s.wheel.heap a.node).task = none then s.put i { a with point := .deferred }
  else s.put i { a with point := .locking info result }

/-- `checkTaskState`, `copyTaskInfo` and `runTask` up to the call of the
function. They are one step, as no lock or token is involved. -/
def check (s : Resources) (i : ℕ) (a : Activation) : Resources :=
  match s.wheel.checkTaskState a.node with
  | none => s.put i { a with point := .deferred }
  | some task =>
    match s.wheel.runTaskCheck a.node task.copyTaskInfo with
    | some err =>
      { s with wheel := s.wheel.updateTaskResult a.node AlarmResult.zero (some err) }.put i
        { a with point := .failed task.copyTaskInfo }
    | none => s.put i { a with point := .running task.copyTaskInfo }

/-- A step of the activation `a`, the `i`-th. With the limit 0 there is no
semaphore. What is not listed cannot happen. -/
def stepAct (cfg : Config) (limit : ℕ) (s : Resources) (i : ℕ) (a : Activation) :
    Point → Move → Option Resources
  | .acquiring, .acquire =>
    if limit = 0 then some (s.put i { a with point := .checking })
    else if s.taskSemaphore < limit then
      some ({ s with taskSemaphore := s.taskSemaphore + 1 }.put i
        { a with point := .acquired, tokens := a.tokens + 1 })
    else none
  | .acquiring, .giveUp =>
    if limit ≠ 0 ∧ s.wheel.RootDone then some (s.put i { a with point := .deferred }) else none
  | .acquired, .count =>
    some ({ s with runningTasks := s.runningTasks + 1 }.put i
      { a with point := .checking, semaphoreAcquired := true, counted := a.counted + 1 })
  | .checking, .check => some (s.check i a)
  -- a task removed since `checkTaskState` looked is a nil pointer to `copyTaskInfo`
  | .checking, .panic => some (s.put i { a with point := .deferred })
  -- without an `onError` the wheel goes straight on
  | .failed info, .onError => some (s.afterResult i a info AlarmResult.zero)
  | .failed _, .panic => some (s.put i { a with point := .deferred })
  | .running info, .finish result =>
    some ({ s with wheel := s.wheel.updateTaskResult a.node result none }.afterResult i a info
      result)
  | .running _, .panic => some (s.put i { a with point := .deferred })
  | .locking info result, .lock =>
    if s.locks (shardOf cfg info.id) = none then
      let (w, rest) := s.wheel.beginAlert cfg a.node info result a.now
      some ({ s with
        wheel := w
        locks := Function.update s.locks (shardOf cfg info.id) (some i) }.put i
          { a with point := .notifying info rest })
    else none
  | .notifying info rest, .notify =>
    match rest.calls with
    | [] => none
    | e :: es =>
      some ({ s with wheel := s.wheel.callSink e }.put i
        { a with point := .notifying info { rest with calls := es } })
  | .notifying _ rest, .notifyPanic =>
    match rest.calls with
    | [] => none
    | e :: _ =>
      if e.isForeign then
        some ({ s with wheel := s.wheel.callSink e }.put i { a with point := .deferred })
      else none
  | .notifying info rest, .unlock =>
    if rest.calls = [] then
      some ({ s with
        wheel := (s.wheel.endAlert a.node rest a.now).handleTaskSchedulingLocked cfg a.node info
          a.now a.currentSlot
        locks := Function.update s.locks (shardOf cfg info.id) none }.put i
          { a with point := .deferred })
    else none
  | .deferred, .release =>
    if limit ≠ 0 ∧ a.semaphoreAcquired ∧ s.taskSemaphore ≠ 0 then
      some ({ s with taskSemaphore := s.taskSemaphore - 1 }.put i
        { a with point := .released, tokens := a.tokens - 1 })
    else none
  | .deferred, .done =>
    if limit ≠ 0 ∧ a.semaphoreAcquired then none else some (s.put i { a with point := .ended })
  | .released, .done =>
    some ({ s with runningTasks := s.runningTasks - 1 }.put i
      { a with point := .ended, counted := a.counted - 1 })
  | _, _ => none

/-- **The step function.** A tick starts executions, which then stand at the
semaphore; a call of the interface needs the locks of its shards for itself. -/
def step (cfg : Config) (limit : ℕ) (s : Resources) : ResourceAction → Option Resources
  | .act i m => s.acts[i]?.bind (fun a => s.stepAct cfg limit i a a.point m)
  | .tick now =>
    some { s with
      wheel := (s.wheel.tick cfg now).2.2
      acts := s.acts ++ (Scheduler.collect cfg s.wheel now).map
        (fun e => ⟨e.node, e.now, e.currentSlot, false, .acquiring, 0, 0⟩) }
  | .call a =>
    if a.isCall ∧ ∀ k ∈ a.shards cfg, s.locks k = none then
      (Scheduler.step cfg (Scheduler.ofWheel s.wheel) a).map (fun t => { s with wheel := t.wheel })
    else none
  | .cancel => some { s with wheel := s.wheel.cancelRoot }
  | .renew =>
    if ∀ a ∈ s.acts, a.point = .ended then
      some { s with wheel := s.wheel.renewCtx, taskSemaphore := 0, runningTasks := 0 }
    else none

/-- **Everything is given back**: an activation that has ended holds no lock, no
token and no place in the counter; the channel and the counter are what the
others have on their accounts; and at most `limit` of them have a token. Nothing
is asked of executions that are still under way, except that there are not too
many. -/
structure GivesBack (limit : ℕ) (s : Resources) : Prop where
  lock : ∀ i a, s.acts[i]? = some a → a.point = .ended → ∀ k, s.locks k ≠ some i
  account : ∀ a ∈ s.acts, a.point = .ended → a.tokens = 0 ∧ a.counted = 0
  taskSemaphore : s.taskSemaphore = Ledger.held Activation.tokens s.acts
  runningTasks : s.runningTasks = Ledger.held Activation.counted s.acts
  bounded : limit ≠ 0 → s.acts.countP (fun a => 0 < a.tokens) ≤ limit

/-! ## What a step is -/

/-- A point, as far as the resources go. Points that hold the same things are
one phase. -/
inductive Phase where
  | entering
  | taken
  /-- In the body, with the lock of a shard or without one. -/
  | inside (shard : Option ℕ)
  | leaving
  | released
  | over
  deriving DecidableEq

/-- The phase of a point. The locked section is the only one with a lock. -/
def phase (cfg : Config) : Point → Phase
  | .acquiring => .entering
  | .acquired => .taken
  | .checking => .inside none
  | .failed _ => .inside none
  | .running _ => .inside none
  | .locking _ _ => .inside none
  | .notifying info _ => .inside (some (shardOf cfg info.id))
  | .deferred => .leaving
  | .released => .released
  | .ended => .over

/-- **What a step of an activation is.** It forgets what happens to the wheel,
which the accounts do not look at, and keeps what is taken and given back. Every
later proof is a case analysis on it. -/
inductive Moved (cfg : Config) (limit : ℕ) (s : Resources) (i : ℕ) (a : Activation) :
    Move → Resources → Prop where
  | pass {m : Move} {w : TimeWheel} {p : Point} (hpanic : m ≠ .notifyPanic) (hdone : m ≠ .done)
      (hfrom : phase cfg a.point = .entering ∨ phase cfg a.point = .inside none)
      (hto : phase cfg p = .inside none ∨ phase cfg p = .leaving) :
      Moved cfg limit s i a m ({ s with wheel := w }.put i { a with point := p })
  | take (hfrom : phase cfg a.point = .entering) (hlimit : limit ≠ 0)
      (hroom : s.taskSemaphore < limit) :
      Moved cfg limit s i a .acquire
        ({ s with taskSemaphore := s.taskSemaphore + 1 }.put i
          { a with point := .acquired, tokens := a.tokens + 1 })
  | count (hfrom : phase cfg a.point = .taken) :
      Moved cfg limit s i a .count
        ({ s with runningTasks := s.runningTasks + 1 }.put i
          { a with point := .checking, semaphoreAcquired := true, counted := a.counted + 1 })
  | lock {w : TimeWheel} {p : Point} {k : ℕ} (hfrom : phase cfg a.point = .inside none)
      (hfree : s.locks k = none) (hto : phase cfg p = .inside (some k)) :
      Moved cfg limit s i a .lock
        ({ s with wheel := w, locks := Function.update s.locks k (some i) }.put i
          { a with point := p })
  | notify {w : TimeWheel} {p : Point} {k : ℕ} (hfrom : phase cfg a.point = .inside (some k))
      (hto : phase cfg p = .inside (some k)) :
      Moved cfg limit s i a .notify ({ s with wheel := w }.put i { a with point := p })
  | notifyPanic {w : TimeWheel} {k : ℕ} (hfrom : phase cfg a.point = .inside (some k)) :
      Moved cfg limit s i a .notifyPanic
        ({ s with wheel := w }.put i { a with point := .deferred })
  | unlock {w : TimeWheel} {k : ℕ} (hfrom : phase cfg a.point = .inside (some k)) :
      Moved cfg limit s i a .unlock
        ({ s with wheel := w, locks := Function.update s.locks k none }.put i
          { a with point := .deferred })
  | release (hfrom : phase cfg a.point = .leaving) (hacquired : a.semaphoreAcquired = true)
      (hsome : s.taskSemaphore ≠ 0) :
      Moved cfg limit s i a .release
        ({ s with taskSemaphore := s.taskSemaphore - 1 }.put i
          { a with point := .released, tokens := a.tokens - 1 })
  | leave (hfrom : phase cfg a.point = .leaving)
      (hnone : ¬ (limit ≠ 0 ∧ a.semaphoreAcquired = true)) :
      Moved cfg limit s i a .done (s.put i { a with point := .ended })
  | uncount (hfrom : phase cfg a.point = .released) :
      Moved cfg limit s i a .done
        ({ s with runningTasks := s.runningTasks - 1 }.put i
          { a with point := .ended, counted := a.counted - 1 })

/-- An execution that goes on after a result has been noted is in the body, or
leaving. -/
theorem moved_afterResult (hfrom : phase cfg a.point = .inside none) (hpanic : m ≠ .notifyPanic)
    (hdone : m ≠ .done) (w : TimeWheel) (info : TaskInfo) (result : AlarmResult) :
    Moved cfg limit s i a m ({ s with wheel := w }.afterResult i a info result) := by
  unfold afterResult
  split_ifs
  · exact .pass hpanic hdone (Or.inr hfrom) (Or.inr rfl)
  · exact .pass hpanic hdone (Or.inr hfrom) (Or.inl rfl)

/-- So is one that has been checked. -/
theorem moved_check (hfrom : phase cfg a.point = .inside none) :
    Moved cfg limit s i a .check (s.check i a) := by
  unfold check
  have hpanic : Move.check ≠ .notifyPanic := Move.noConfusion
  have hdone : Move.check ≠ .done := Move.noConfusion
  cases s.wheel.checkTaskState a.node with
  | none => exact .pass hpanic hdone (Or.inr hfrom) (Or.inr rfl)
  | some task =>
    dsimp only
    cases s.wheel.runTaskCheck a.node task.copyTaskInfo with
    | none => exact .pass hpanic hdone (Or.inr hfrom) (Or.inl rfl)
    | some err => exact .pass hpanic hdone (Or.inr hfrom) (Or.inl rfl)

/-- The inversion of `stepAct`. This is the only place where the step function
is unfolded for the accounts and the locks. -/
theorem moved_of_stepAct (h : s.stepAct cfg limit i a a.point m = some s') :
    Moved cfg limit s i a m s' := by
  unfold stepAct at h
  split at h
  · next hp =>
    split_ifs at h with hlimit hroom
    · obtain rfl := Option.some.inj h
      exact .pass Move.noConfusion Move.noConfusion (Or.inl (congrArg (phase cfg) hp)) (Or.inl rfl)
    · exact Option.some.inj h ▸ .take (congrArg (phase cfg) hp) hlimit hroom
  · next hp =>
    split_ifs at h
    obtain rfl := Option.some.inj h
    exact .pass Move.noConfusion Move.noConfusion (Or.inl (congrArg (phase cfg) hp)) (Or.inr rfl)
  · next hp => exact Option.some.inj h ▸ .count (congrArg (phase cfg) hp)
  · next hp => exact Option.some.inj h ▸ moved_check (congrArg (phase cfg) hp)
  · next hp =>
    obtain rfl := Option.some.inj h
    exact .pass Move.noConfusion Move.noConfusion (Or.inr (congrArg (phase cfg) hp)) (Or.inr rfl)
  · next info hp =>
    obtain rfl := Option.some.inj h
    exact moved_afterResult (congrArg (phase cfg) hp) Move.noConfusion Move.noConfusion s.wheel info
      AlarmResult.zero
  · next hp =>
    obtain rfl := Option.some.inj h
    exact .pass Move.noConfusion Move.noConfusion (Or.inr (congrArg (phase cfg) hp)) (Or.inr rfl)
  · next info result hp =>
    obtain rfl := Option.some.inj h
    exact moved_afterResult (congrArg (phase cfg) hp) Move.noConfusion Move.noConfusion _ info
      result
  · next hp =>
    obtain rfl := Option.some.inj h
    exact .pass Move.noConfusion Move.noConfusion (Or.inr (congrArg (phase cfg) hp)) (Or.inr rfl)
  · next hp =>
    split_ifs at h with hfree
    exact Option.some.inj h ▸ .lock (congrArg (phase cfg) hp) hfree rfl
  · next hp =>
    split at h
    · cases h
    · exact Option.some.inj h ▸ .notify (congrArg (phase cfg) hp) rfl
  · next hp =>
    split at h
    · cases h
    · split_ifs at h
      exact Option.some.inj h ▸ .notifyPanic (congrArg (phase cfg) hp)
  · next hp =>
    split_ifs at h
    exact Option.some.inj h ▸ .unlock (congrArg (phase cfg) hp)
  · next hp =>
    split_ifs at h with hheld
    exact Option.some.inj h ▸ .release (congrArg (phase cfg) hp) hheld.2.1 hheld.2.2
  · next hp =>
    split_ifs at h with hnone
    exact Option.some.inj h ▸ .leave (congrArg (phase cfg) hp) hnone
  · next hp => exact Option.some.inj h ▸ .uncount (congrArg (phase cfg) hp)
  · cases h

/-! ## The accounts -/

/-- The account of an activation is what its phase says. An execution without a
semaphore has nothing throughout. -/
def Balanced (cfg : Config) (limit : ℕ) (a : Activation) : Prop :=
  match phase cfg a.point with
  | .entering => a.semaphoreAcquired = false ∧ a.tokens = 0 ∧ a.counted = 0
  | .taken => limit ≠ 0 ∧ a.tokens = 1 ∧ a.counted = 0
  | .inside _ =>
    (a.semaphoreAcquired = false ∧ a.tokens = 0 ∧ a.counted = 0)
      ∨ (a.semaphoreAcquired = true ∧ limit ≠ 0 ∧ a.tokens = 1 ∧ a.counted = 1)
  | .leaving =>
    (a.semaphoreAcquired = false ∧ a.tokens = 0 ∧ a.counted = 0)
      ∨ (a.semaphoreAcquired = true ∧ limit ≠ 0 ∧ a.tokens = 1 ∧ a.counted = 1)
  | .released => a.tokens = 0 ∧ a.counted = 1
  | .over => a.tokens = 0 ∧ a.counted = 0

/-- **The invariant of the accounts.** The sums are over all executions, those
that have ended included. -/
structure Accounted (cfg : Config) (limit : ℕ) (s : Resources) : Prop where
  balanced : ∀ a ∈ s.acts, Balanced cfg limit a
  taskSemaphore : s.taskSemaphore = Ledger.held Activation.tokens s.acts
  runningTasks : s.runningTasks = Ledger.held Activation.counted s.acts
  room : limit ≠ 0 → s.taskSemaphore ≤ limit

/-- Nobody has taken out more than he put in, and who has ended has nothing. So
executions with a token can be counted by the sum. -/
theorem Balanced.tokens_nonneg (h : Balanced cfg limit a) : 0 ≤ a.tokens := by
  unfold Balanced at h
  split at h <;> omega

/-- This is what the theorem says of an execution that has ended. -/
theorem Balanced.of_ended (h : Balanced cfg limit a) (hp : a.point = .ended) :
    a.tokens = 0 ∧ a.counted = 0 := by
  unfold Balanced at h
  rw [hp] at h
  exact h

/-- One account is written, and the channel and the counter with it. The two
must move by the same amount. -/
theorem Accounted.write (h : Accounted cfg limit s) (hi : s.acts[i]? = some a)
    (hb : Balanced cfg limit b) {w : TimeWheel} {locks : ℕ → Option ℕ} {tokens : ℕ} {running : ℤ}
    (htokens : (tokens : ℤ) = s.taskSemaphore + (b.tokens - a.tokens))
    (hrunning : running = s.runningTasks + (b.counted - a.counted))
    (hroom : limit ≠ 0 → tokens ≤ limit) :
    Accounted cfg limit (put ⟨w, s.acts, locks, tokens, running⟩ i b) := by
  refine ⟨fun c hc => ?_, ?_, ?_, hroom⟩
  · rcases List.mem_or_eq_of_mem_set hc with hc | rfl
    · exact h.balanced c hc
    · exact hb
  · exact (htokens.trans (congrArg (· + _) h.taskSemaphore)).trans (Ledger.held_set _ hi b).symm
  · exact (hrunning.trans (congrArg (· + _) h.runningTasks)).trans (Ledger.held_set _ hi b).symm

/-- An activation that keeps its account. Then nothing else may change. -/
theorem Accounted.walk (h : Accounted cfg limit s) (hi : s.acts[i]? = some a) {p : Point}
    (hb : Balanced cfg limit { a with point := p }) {w : TimeWheel} {locks : ℕ → Option ℕ} :
    Accounted cfg limit (put ⟨w, s.acts, locks, s.taskSemaphore, s.runningTasks⟩ i
      { a with point := p }) :=
  h.write hi hb (by simp) (by simp) h.room

/-- **A move keeps the accounts.** Each move is one of the two kinds above. -/
theorem Accounted.of_moved (h : Accounted cfg limit s) (hi : s.acts[i]? = some a)
    (hmoved : Moved cfg limit s i a m s') : Accounted cfg limit s' := by
  have hbal := h.balanced a (List.mem_of_getElem? hi)
  unfold Balanced at hbal
  cases hmoved with
  | pass hpanic hdone hfrom hto =>
    refine h.walk hi ?_
    unfold Balanced
    -- the points in between hold what the points before them hold
    rcases hfrom with hfrom | hfrom <;> rw [hfrom] at hbal <;>
      rcases hto with hto | hto <;> dsimp only <;> rw [hto]
    · exact Or.inl hbal
    · exact Or.inl hbal
    · exact hbal
    · exact hbal
  | take hfrom hlimit hroom =>
    -- one token more, in the channel and in the account
    rw [hfrom] at hbal
    obtain ⟨-, htokens, hcounted⟩ := hbal
    refine h.write hi ?_ (by push_cast; ring) (by simp) (fun _ => hroom)
    exact ⟨hlimit, congrArg (· + 1) htokens, hcounted⟩
  | count hfrom =>
    -- one execution more, in the counter and in the account
    rw [hfrom] at hbal
    obtain ⟨hlimit, htokens, hcounted⟩ := hbal
    refine h.write hi ?_ (by simp) (by ring) h.room
    exact Or.inr ⟨rfl, hlimit, htokens, congrArg (· + 1) hcounted⟩
  | lock hfrom hfree hto =>
    rw [hfrom] at hbal
    refine h.walk hi ?_
    unfold Balanced
    dsimp only
    rw [hto]
    exact hbal
  | notify hfrom hto =>
    rw [hfrom] at hbal
    refine h.walk hi ?_
    unfold Balanced
    dsimp only
    rw [hto]
    exact hbal
  | notifyPanic hfrom =>
    rw [hfrom] at hbal
    refine h.walk hi ?_
    exact hbal
  | unlock hfrom =>
    rw [hfrom] at hbal
    refine h.walk hi ?_
    exact hbal
  | release hfrom hacquired hsome =>
    rw [hfrom] at hbal
    -- who holds no token does not release one
    rcases hbal with ⟨hnot, -⟩ | ⟨-, -, htokens, hcounted⟩
    · exact absurd (hnot.symm.trans hacquired) Bool.false_ne_true
    · refine h.write hi ?_ ?_ (by simp) (fun hlimit => ?_)
      · exact ⟨sub_eq_zero.mpr htokens, hcounted⟩
      · push_cast [Nat.one_le_iff_ne_zero.mpr hsome]
        ring
      · exact (Nat.sub_le _ _).trans (h.room hlimit)
  | leave hfrom hnone =>
    rw [hfrom] at hbal
    refine h.walk hi ?_
    rcases hbal with ⟨-, hzero⟩ | ⟨hacquired, hlimit, -⟩
    · exact hzero
    · exact absurd ⟨hlimit, hacquired⟩ hnone
  | uncount hfrom =>
    rw [hfrom] at hbal
    obtain ⟨htokens, hcounted⟩ := hbal
    refine h.write hi ?_ (by simp) (by ring) h.room
    exact ⟨htokens, sub_eq_zero.mpr hcounted⟩

/-- **A step keeps the accounts.** Ticks start with empty accounts, calls of the
interface touch none, and `Stop` begins anew once all have ended. -/
theorem Accounted.of_step {x : ResourceAction} (h : Accounted cfg limit s)
    (hstep : step cfg limit s x = some s') : Accounted cfg limit s' := by
  cases x with
  | act i m =>
    obtain ⟨a, hi, hstep⟩ := Option.bind_eq_some_iff.mp hstep
    exact h.of_moved hi (moved_of_stepAct hstep)
  | tick now =>
    obtain rfl := Option.some.inj hstep
    have hnew : ∀ a ∈ (Scheduler.collect cfg s.wheel now).map (fun e =>
        (⟨e.node, e.now, e.currentSlot, false, .acquiring, 0, 0⟩ : Activation)),
        Balanced cfg limit a ∧ a.tokens = 0 ∧ a.counted = 0 := by
      intro a ha
      obtain ⟨e, -, rfl⟩ := List.mem_map.mp ha
      exact ⟨⟨rfl, rfl, rfl⟩, rfl, rfl⟩
    refine ⟨fun a ha => ?_, ?_, ?_, h.room⟩
    · exact (List.mem_append.mp ha).elim (h.balanced a) (fun ha => (hnew a ha).1)
    · dsimp only
      rw [Ledger.held_append, Ledger.held_eq_zero _ (fun a ha => (hnew a ha).2.1), add_zero]
      exact h.taskSemaphore
    · dsimp only
      rw [Ledger.held_append, Ledger.held_eq_zero _ (fun a ha => (hnew a ha).2.2), add_zero]
      exact h.runningTasks
  | call a =>
    unfold step at hstep
    dsimp only at hstep
    split_ifs at hstep
    obtain ⟨t, -, rfl⟩ := Option.map_eq_some_iff.mp hstep
    exact ⟨h.balanced, h.taskSemaphore, h.runningTasks, h.room⟩
  | cancel =>
    obtain rfl := Option.some.inj hstep
    exact ⟨h.balanced, h.taskSemaphore, h.runningTasks, h.room⟩
  | renew =>
    unfold step at hstep
    dsimp only at hstep
    split_ifs at hstep with hended
    obtain rfl := Option.some.inj hstep
    have hzero : ∀ a ∈ s.acts, a.tokens = 0 ∧ a.counted = 0 :=
      fun a ha => (h.balanced a ha).of_ended (hended a ha)
    refine ⟨h.balanced, ?_, ?_, fun _ => Nat.zero_le _⟩
    · exact (Ledger.held_eq_zero _ (fun a ha => (hzero a ha).1)).symm
    · exact (Ledger.held_eq_zero _ (fun a ha => (hzero a ha).2)).symm

/-! ## The locks -/

/-- The body is behind. All that is left is the deferred function. -/
def Past (p : Phase) : Prop := p = .leaving ∨ p = .released ∨ p = .over

/-- **The invariant of the locks**, after the actions `bs`: a lock is held by an
activation in its locked section, or by one that panicked in a sink; and such a
one never gives its lock back. It is stated for the actions so far, since a
panic in a sink leaves no other trace than a lock. -/
structure Locked (cfg : Config) (bs : List ResourceAction) (s : Resources) : Prop where
  holder : ∀ k i, s.locks k = some i → ∃ a, s.acts[i]? = some a
    ∧ (phase cfg a.point = .inside (some k) ∨ .act i .notifyPanic ∈ bs)
  held : ∀ i a k, s.acts[i]? = some a → phase cfg a.point = .inside (some k) → s.locks k = some i
  leaked : ∀ i, .act i .notifyPanic ∈ bs →
    (∃ k, s.locks k = some i) ∧ ∃ a, s.acts[i]? = some a ∧ Past (phase cfg a.point)
  ended : ∀ i, .act i .done ∈ bs ↔ ∃ a, s.acts[i]? = some a ∧ a.point = .ended

/-- The activation at `i` is written, the others are not. Writing at one place. -/
theorem get_set {l : List Activation} (hi : l[i]? = some a) (b : Activation) (j : ℕ) :
    (l.set i b)[j]? = if j = i then some b else l[j]? := by
  split_ifs with h
  · subst h
    rw [List.getElem?_set_self (List.getElem?_eq_some_iff.mp hi).1]
  · exact List.getElem?_set_ne (Ne.symm h)

/-- The executions that have ended, after a move. Only `done` ends an execution. -/
theorem Locked.ended_set (h : Locked cfg bs s) (hi : s.acts[i]? = some a) (ha : a.point ≠ .ended)
    (hdone : m = .done ↔ b.point = .ended) (j : ℕ) :
    .act j .done ∈ bs ++ [.act i m]
      ↔ ∃ c, (s.acts.set i b)[j]? = some c ∧ c.point = .ended := by
  rw [get_set hi, List.mem_append, List.mem_singleton, h.ended j]
  split_ifs with hji
  · subst hji
    constructor
    · rintro (⟨c, hj, hc⟩ | heq)
      · exact absurd (Option.some.inj (hi.symm.trans hj) ▸ hc) ha
      · exact ⟨b, rfl, hdone.mp (ResourceAction.act.inj heq).2.symm⟩
    · rintro ⟨c, hj, hc⟩
      obtain rfl := Option.some.inj hj
      exact Or.inr (by rw [hdone.mpr hc])
  · exact or_iff_left (fun heq => hji (ResourceAction.act.inj heq).1)

/-- An activation whose body is not behind has not panicked in a sink. One that
has is past its body for good. -/
theorem Locked.not_panicked (h : Locked cfg bs s) (hi : s.acts[i]? = some a)
    (ha : ¬ Past (phase cfg a.point)) : .act i .notifyPanic ∉ bs := by
  intro hmem
  obtain ⟨-, b, hb, hpast⟩ := h.leaked i hmem
  obtain rfl := Option.some.inj (hi.symm.trans hb)
  exact ha hpast

/-- The body is not behind while it lasts. -/
theorem not_past_inside {shard : Option ℕ} : ¬ Past (.inside shard) := by
  rintro (h | h | h) <;> exact Phase.noConfusion h

/-- The panics in a sink, after another move. They are the same as before. -/
theorem mem_append_act {x : Move} (hx : m ≠ x) :
    (.act j x : ResourceAction) ∈ bs ++ [.act i m] ↔ .act j x ∈ bs := by
  rw [List.mem_append, List.mem_singleton]
  exact or_iff_left (fun heq => hx (ResourceAction.act.inj heq).2.symm)

/-- An activation that moves on and leaves the locks alone. That is all but
three of the moves. -/
theorem Locked.walk (h : Locked cfg bs s) (hi : s.acts[i]? = some a)
    (hlocks : s'.locks = s.locks) (hacts : s'.acts = s.acts.set i b)
    (hsection : ∀ k, phase cfg b.point = .inside (some k) ↔ phase cfg a.point = .inside (some k))
    (hpast : Past (phase cfg a.point) → Past (phase cfg b.point)) (hpanic : m ≠ .notifyPanic)
    (hdone : m = .done ↔ b.point = .ended) (ha : a.point ≠ .ended) :
    Locked cfg (bs ++ [.act i m]) s' := by
  refine ⟨fun k j hk => ?_, fun j c k hj hc => ?_, fun j hj => ?_, fun j => ?_⟩
  · rw [hlocks] at hk
    obtain ⟨c, hj, hc⟩ := h.holder k j hk
    rw [hacts, get_set hi, mem_append_act hpanic]
    split_ifs with hji
    · subst hji
      obtain rfl : a = c := Option.some.inj (hi.symm.trans hj)
      exact ⟨b, rfl, hc.imp_left (hsection k).mpr⟩
    · exact ⟨c, hj, hc⟩
  · rw [hacts, get_set hi] at hj
    rw [hlocks]
    split_ifs at hj with hji
    · subst hji
      obtain rfl := Option.some.inj hj
      exact h.held j a k hi ((hsection k).mp hc)
    · exact h.held j c k hj hc
  · obtain ⟨hk, c, hget, hc⟩ := h.leaked j ((mem_append_act hpanic).mp hj)
    rw [hlocks, hacts, get_set hi]
    split_ifs with hji
    · subst hji
      obtain rfl : a = c := Option.some.inj (hi.symm.trans hget)
      exact ⟨hk, b, rfl, hpast hc⟩
    · exact ⟨hk, c, hget, hc⟩
  · rw [hacts]
    exact h.ended_set hi ha hdone j

/-- An execution in any other phase has not ended. -/
theorem ne_ended {p : Point} {x : Phase} (h : phase cfg p = x) (hx : x ≠ .over) : p ≠ .ended :=
  fun heq => hx (h.symm.trans (congrArg (phase cfg) heq))

/-- The locks that others never gave back, after a move that leaves them to
them. They stay where they are. -/
theorem Locked.leaked_set (h : Locked cfg bs s) (hi : s.acts[i]? = some a)
    (hnot : .act i .notifyPanic ∉ bs) {locks : ℕ → Option ℕ}
    (hkeep : ∀ {j k}, j ≠ i → s.locks k = some j → locks k = some j)
    (hj : .act j .notifyPanic ∈ bs) :
    (∃ k, locks k = some j) ∧ ∃ c, (s.acts.set i b)[j]? = some c ∧ Past (phase cfg c.point) := by
  have hji : j ≠ i := fun heq => hnot (heq ▸ hj)
  obtain ⟨⟨k, hk⟩, c, hget, hc⟩ := h.leaked j hj
  rw [get_set hi, if_neg hji]
  exact ⟨⟨k, hkeep hji hk⟩, c, hget, hc⟩

/-- **Taking the lock.** Nobody held it, also none that panicked. -/
theorem Locked.lock (h : Locked cfg bs s) (hi : s.acts[i]? = some a)
    (hfrom : phase cfg a.point = .inside none) (hfree : s.locks k = none)
    (hto : phase cfg b.point = .inside (some k)) {w : TimeWheel} :
    Locked cfg (bs ++ [.act i .lock]) (Resources.put { s with
      wheel := w, locks := Function.update s.locks k (some i) } i b) := by
  have hnot : .act i .notifyPanic ∉ bs := h.not_panicked hi (hfrom ▸ not_past_inside)
  have hb : b.point ≠ .ended := ne_ended hto Phase.noConfusion
  have ha : a.point ≠ .ended := ne_ended hfrom Phase.noConfusion
  -- the lock that is taken was nobody's
  have hkeep : ∀ {j k'}, j ≠ i → s.locks k' = some j →
      Function.update s.locks k (some i) k' = some j := by
    intro j k' _ hk
    have hne : k' ≠ k := fun heq => by
      rw [heq, hfree] at hk
      exact Option.some_ne_none j hk.symm
    rw [Function.update_of_ne hne, hk]
  refine ⟨fun k' j hk => ?_, fun j c k' hj hc => ?_, fun j hj => ?_,
    h.ended_set hi ha ⟨Move.noConfusion, fun heq => absurd heq hb⟩⟩
  · show ∃ c, (s.acts.set i b)[j]? = some c ∧ _
    rw [get_set hi, mem_append_act Move.noConfusion]
    have hk : Function.update s.locks k (some i) k' = some j := hk
    by_cases hk' : k' = k
    · rw [hk', Function.update_self] at hk
      obtain rfl := Option.some.inj hk
      rw [if_pos rfl]
      exact ⟨b, rfl, Or.inl (hk' ▸ hto)⟩
    · rw [Function.update_of_ne hk'] at hk
      obtain ⟨c, hj, hc⟩ := h.holder k' j hk
      split_ifs with hji
      · subst hji
        obtain rfl : a = c := Option.some.inj (hi.symm.trans hj)
        rcases hc with hc | hc
        · rw [hfrom] at hc
          exact absurd (Phase.inside.inj hc).symm (Option.some_ne_none k')
        · exact absurd hc hnot
      · exact ⟨c, hj, hc⟩
  · have hj : (s.acts.set i b)[j]? = some c := hj
    rw [get_set hi] at hj
    show Function.update s.locks k (some i) k' = some j
    split_ifs at hj with hji
    · obtain rfl := Option.some.inj hj
      obtain rfl := Option.some.inj (Phase.inside.inj (hto.symm.trans hc))
      rw [hji, Function.update_self]
    · exact hkeep hji (h.held j c k' hj hc)
  · exact h.leaked_set hi hnot hkeep ((mem_append_act Move.noConfusion).mp hj)

/-- **Giving the lock back.** It was its own, so nobody else's is given back. -/
theorem Locked.unlock (h : Locked cfg bs s) (hi : s.acts[i]? = some a)
    (hfrom : phase cfg a.point = .inside (some k)) (hto : phase cfg b.point = .leaving)
    {w : TimeWheel} :
    Locked cfg (bs ++ [.act i .unlock]) (Resources.put { s with
      wheel := w, locks := Function.update s.locks k none } i b) := by
  have hnot : .act i .notifyPanic ∉ bs := h.not_panicked hi (hfrom ▸ not_past_inside)
  have hown : s.locks k = some i := h.held i a k hi hfrom
  have hb : b.point ≠ .ended := ne_ended hto Phase.noConfusion
  have ha : a.point ≠ .ended := ne_ended hfrom Phase.noConfusion
  -- the lock that is given back is nobody else's
  have hkeep : ∀ {j k'}, j ≠ i → s.locks k' = some j →
      Function.update s.locks k none k' = some j := by
    intro j k' hji hk
    have hne : k' ≠ k := fun heq =>
      hji (Option.some.inj (hk.symm.trans ((congrArg s.locks heq).trans hown)))
    rw [Function.update_of_ne hne, hk]
  refine ⟨fun k' j hk => ?_, fun j c k' hj hc => ?_, fun j hj => ?_,
    h.ended_set hi ha ⟨Move.noConfusion, fun heq => absurd heq hb⟩⟩
  · show ∃ c, (s.acts.set i b)[j]? = some c ∧ _
    rw [get_set hi, mem_append_act Move.noConfusion]
    have hk : Function.update s.locks k none k' = some j := hk
    by_cases hk' : k' = k
    · rw [hk', Function.update_self] at hk
      exact absurd hk.symm (Option.some_ne_none j)
    · rw [Function.update_of_ne hk'] at hk
      obtain ⟨c, hj, hc⟩ := h.holder k' j hk
      split_ifs with hji
      · subst hji
        obtain rfl : a = c := Option.some.inj (hi.symm.trans hj)
        rcases hc with hc | hc
        · exact absurd (Option.some.inj (Phase.inside.inj (hc.symm.trans hfrom))) hk'
        · exact absurd hc hnot
      · exact ⟨c, hj, hc⟩
  · have hj : (s.acts.set i b)[j]? = some c := hj
    rw [get_set hi] at hj
    show Function.update s.locks k none k' = some j
    split_ifs at hj with hji
    · obtain rfl := Option.some.inj hj
      rw [hto] at hc
      exact Phase.noConfusion hc
    · exact hkeep hji (h.held j c k' hj hc)
  · exact h.leaked_set hi hnot hkeep ((mem_append_act Move.noConfusion).mp hj)

/-- **A panic in a sink** leaves the lock where it is. From now on nobody in its
section holds it, and the actions say why. -/
theorem Locked.notifyPanic (h : Locked cfg bs s) (hi : s.acts[i]? = some a)
    (hfrom : phase cfg a.point = .inside (some k)) (hto : phase cfg b.point = .leaving)
    {w : TimeWheel} :
    Locked cfg (bs ++ [.act i .notifyPanic]) (Resources.put { s with wheel := w } i b) := by
  have hb : b.point ≠ .ended := ne_ended hto Phase.noConfusion
  have ha : a.point ≠ .ended := ne_ended hfrom Phase.noConfusion
  refine ⟨fun k' j hk => ?_, fun j c k' hj hc => ?_, fun j hj => ?_,
    h.ended_set hi ha ⟨Move.noConfusion, fun heq => absurd heq hb⟩⟩
  · show ∃ c, (s.acts.set i b)[j]? = some c ∧ _
    rw [get_set hi]
    split_ifs with hji
    · exact ⟨b, rfl, Or.inr (List.mem_append_right bs (hji ▸ List.mem_singleton_self _))⟩
    · obtain ⟨c, hget, hc⟩ := h.holder k' j hk
      exact ⟨c, hget, hc.imp_right (List.mem_append_left _)⟩
  · have hj : (s.acts.set i b)[j]? = some c := hj
    rw [get_set hi] at hj
    split_ifs at hj with hji
    · obtain rfl := Option.some.inj hj
      rw [hto] at hc
      exact Phase.noConfusion hc
    · exact h.held j c k' hj hc
  · show (∃ k, s.locks k = some j) ∧ ∃ c, (s.acts.set i b)[j]? = some c ∧ _
    rw [get_set hi]
    split_ifs with hji
    · exact ⟨⟨k, hji ▸ h.held i a k hi hfrom⟩, b, rfl, Or.inl hto⟩
    · refine h.leaked j ((List.mem_append.mp hj).resolve_right (fun heq => hji ?_))
      exact (ResourceAction.act.inj (List.mem_singleton.mp heq)).1

/-- **A move keeps the invariant of the locks.** One case for each kind of move. -/
theorem Locked.of_moved (h : Locked cfg bs s) (hi : s.acts[i]? = some a)
    (hmoved : Moved cfg limit s i a m s') : Locked cfg (bs ++ [.act i m]) s' := by
  cases hmoved with
  | @pass _ _ p hpanic hdone hfrom hto =>
    have ha : a.point ≠ .ended :=
      hfrom.elim (fun hp => ne_ended hp Phase.noConfusion) (fun hp => ne_ended hp Phase.noConfusion)
    have hb : p ≠ .ended :=
      hto.elim (fun hp => ne_ended hp Phase.noConfusion) (fun hp => ne_ended hp Phase.noConfusion)
    -- neither end of the move is a point inside a lock, so who holds what is as before
    refine h.walk hi rfl rfl (fun k => ?_) (fun hpast => ?_) hpanic
      ⟨fun heq => absurd heq hdone, fun heq => absurd heq hb⟩ ha
    · rcases hfrom with hfrom | hfrom <;> rcases hto with hto | hto <;> dsimp only <;>
        rw [hfrom, hto] <;> simp
    · rcases hfrom with hfrom | hfrom <;> rw [hfrom] at hpast
      · rcases hpast with hp | hp | hp <;> exact Phase.noConfusion hp
      · exact absurd hpast not_past_inside
  | take hfrom hlimit hroom =>
    refine h.walk hi rfl rfl (fun k => ?_) (fun hpast => ?_) Move.noConfusion
      ⟨fun heq => Move.noConfusion heq, fun heq => Point.noConfusion heq⟩
      (ne_ended hfrom Phase.noConfusion)
    · rw [hfrom]
      exact ⟨fun heq => Phase.noConfusion heq, fun heq => Phase.noConfusion heq⟩
    · rw [hfrom] at hpast
      rcases hpast with hp | hp | hp <;> exact Phase.noConfusion hp
  | count hfrom =>
    refine h.walk hi rfl rfl (fun k => ?_) (fun hpast => ?_) Move.noConfusion
      ⟨fun heq => Move.noConfusion heq, fun heq => Point.noConfusion heq⟩
      (ne_ended hfrom Phase.noConfusion)
    · rw [hfrom]
      exact ⟨fun heq => absurd (Phase.inside.inj heq).symm (Option.some_ne_none k),
        fun heq => Phase.noConfusion heq⟩
    · rw [hfrom] at hpast
      rcases hpast with hp | hp | hp <;> exact Phase.noConfusion hp
  | lock hfrom hfree hto => exact h.lock hi hfrom hfree hto
  | notify hfrom hto =>
    refine h.walk hi rfl rfl (fun k => ?_) (fun hpast => ?_) Move.noConfusion
      ⟨fun heq => Move.noConfusion heq, fun heq => absurd heq (ne_ended hto Phase.noConfusion)⟩
      (ne_ended hfrom Phase.noConfusion)
    · rw [hfrom, hto]
    · rw [hfrom] at hpast
      exact absurd hpast not_past_inside
  | notifyPanic hfrom => exact h.notifyPanic hi hfrom rfl
  | unlock hfrom => exact h.unlock hi hfrom rfl
  | release hfrom hacquired hsome =>
    refine h.walk hi rfl rfl (fun k => ?_) (fun _ => Or.inr (Or.inl rfl)) Move.noConfusion
      ⟨fun heq => Move.noConfusion heq, fun heq => Point.noConfusion heq⟩
      (ne_ended hfrom Phase.noConfusion)
    rw [hfrom]
    exact ⟨fun heq => Phase.noConfusion heq, fun heq => Phase.noConfusion heq⟩
  | leave hfrom hnone =>
    refine h.walk hi rfl rfl (fun k => ?_) (fun _ => Or.inr (Or.inr rfl)) Move.noConfusion
      ⟨fun _ => rfl, fun _ => rfl⟩ (ne_ended hfrom Phase.noConfusion)
    rw [hfrom]
    exact ⟨fun heq => Phase.noConfusion heq, fun heq => Phase.noConfusion heq⟩
  | uncount hfrom =>
    refine h.walk hi rfl rfl (fun k => ?_) (fun _ => Or.inr (Or.inr rfl)) Move.noConfusion
      ⟨fun _ => rfl, fun _ => rfl⟩ (ne_ended hfrom Phase.noConfusion)
    rw [hfrom]
    exact ⟨fun heq => Phase.noConfusion heq, fun heq => Phase.noConfusion heq⟩

/-- Steps of the others, which add activations at most. A tick does this. -/
theorem Locked.of_append (h : Locked cfg bs s) {x : ResourceAction} (hx : ∀ i m, x ≠ .act i m)
    {new : List Activation} (hnew : ∀ a ∈ new, a.point = .acquiring)
    (hlocks : s'.locks = s.locks) (hacts : s'.acts = s.acts ++ new) :
    Locked cfg (bs ++ [x]) s' := by
  have hmem : ∀ {i m}, (.act i m : ResourceAction) ∈ bs ++ [x] ↔ .act i m ∈ bs := by
    intro i m
    rw [List.mem_append, List.mem_singleton]
    exact or_iff_left (fun heq => hx i m heq.symm)
  have hold : ∀ {i : ℕ} {a : Activation}, s.acts[i]? = some a → s'.acts[i]? = some a :=
    fun {i a} hi => by
      rw [hacts, List.getElem?_append_left (List.getElem?_eq_some_iff.mp hi).1, hi]
  have hback : ∀ {i : ℕ} {a : Activation}, s'.acts[i]? = some a → a.point ≠ .acquiring →
      s.acts[i]? = some a :=
    fun {i a} hi hp => by
      rw [hacts] at hi
      rcases lt_or_ge i s.acts.length with hlt | hge
      · rwa [List.getElem?_append_left hlt] at hi
      · rw [List.getElem?_append_right hge] at hi
        exact absurd (hnew a (List.mem_of_getElem? hi)) hp
  refine ⟨fun k i hk => ?_, fun i a k hi hin => ?_, fun i hi => ?_, fun i => ?_⟩
  · rw [hlocks] at hk
    obtain ⟨a, ha, hin⟩ := h.holder k i hk
    exact ⟨a, hold ha, hin.imp_right hmem.mpr⟩
  · rw [hlocks]
    refine h.held i a k (hback hi (fun heq => ?_)) hin
    rw [heq] at hin
    exact Phase.noConfusion hin
  · rw [hlocks]
    obtain ⟨hk, a, ha, hpast⟩ := h.leaked i (hmem.mp hi)
    exact ⟨hk, a, hold ha, hpast⟩
  · rw [hmem, h.ended i]
    constructor
    · rintro ⟨a, ha, hp⟩
      exact ⟨a, hold ha, hp⟩
    · rintro ⟨a, ha, hp⟩
      exact ⟨a, hback ha (fun heq => Point.noConfusion (heq.symm.trans hp)), hp⟩

/-- Steps of the others that leave the activations alone. Calls of the interface
and both parts of `Stop` do. -/
theorem Locked.of_same (h : Locked cfg bs s) {x : ResourceAction} (hx : ∀ i m, x ≠ .act i m)
    (hlocks : s'.locks = s.locks) (hacts : s'.acts = s.acts) : Locked cfg (bs ++ [x]) s' :=
  h.of_append hx (fun _ ha => absurd ha List.not_mem_nil) hlocks
    (hacts.trans (List.append_nil _).symm)

/-- **A step keeps the invariant of the locks.** Together with the moves, these
are all. -/
theorem Locked.of_step {x : ResourceAction} (h : Locked cfg bs s)
    (hstep : step cfg limit s x = some s') : Locked cfg (bs ++ [x]) s' := by
  cases x with
  | act i m =>
    obtain ⟨a, hi, hstep⟩ := Option.bind_eq_some_iff.mp hstep
    exact h.of_moved hi (moved_of_stepAct hstep)
  | tick now =>
    obtain rfl := Option.some.inj hstep
    refine h.of_append (fun _ _ => ResourceAction.noConfusion) (fun a ha => ?_) rfl rfl
    obtain ⟨e, -, rfl⟩ := List.mem_map.mp ha
    rfl
  | call a =>
    unfold step at hstep
    dsimp only at hstep
    split_ifs at hstep
    obtain ⟨t, -, rfl⟩ := Option.map_eq_some_iff.mp hstep
    exact h.of_same (fun _ _ => ResourceAction.noConfusion) rfl rfl
  | cancel =>
    obtain rfl := Option.some.inj hstep
    exact h.of_same (fun _ _ => ResourceAction.noConfusion) rfl rfl
  | renew =>
    unfold step at hstep
    dsimp only at hstep
    split_ifs at hstep
    obtain rfl := Option.some.inj hstep
    exact h.of_same (fun _ _ => ResourceAction.noConfusion) rfl rfl

/-! ## Runs -/

/-- Both invariants, along a run. By induction on the actions, adding one at the
end. -/
theorem accounted_locked {w : TimeWheel}
    (hrun : Machine.run (step cfg limit) (ofWheel w) as = some s) :
    Accounted cfg limit s ∧ Locked cfg as s := by
  have hstep : ∀ bs s a s', Accounted cfg limit s ∧ Locked cfg bs s →
      step cfg limit s a = some s' → Accounted cfg limit s' ∧ Locked cfg (bs ++ [a]) s' :=
    fun bs s a s' h hstep => ⟨h.1.of_step hstep, h.2.of_step hstep⟩
  have haccounted : Accounted cfg limit (ofWheel w) :=
    ⟨fun _ ha => absurd ha List.not_mem_nil, rfl, rfl, fun _ => Nat.zero_le _⟩
  have hlocked : Locked cfg [] (ofWheel w) := by
    refine ⟨fun _ i hk => absurd hk.symm (Option.some_ne_none i), fun _ a _ hi => ?_,
      fun _ hmem => absurd hmem List.not_mem_nil, fun _ => ?_⟩
    · exact absurd hi.symm (Option.some_ne_none a)
    · refine ⟨fun hmem => absurd hmem List.not_mem_nil, ?_⟩
      rintro ⟨a, hi, -⟩
      exact absurd hi.symm (Option.some_ne_none a)
  exact Machine.inv_of_history hstep ⟨haccounted, hlocked⟩ hrun

/-- **What was taken is given back.** After any steps, in any order, every
execution that has ended has given back everything, and no more executions have
a token than there may be, exactly when no execution that has ended panicked in
a sink. The accounts are balanced in every run, so they make no condition. A
lock is kept after the end exactly by those that panicked with it in their
hands. -/
theorem givesBack_iff (w : TimeWheel)
    (hrun : Machine.run (step cfg limit) (ofWheel w) as = some s) :
    GivesBack limit s ↔ ∀ i, .act i .notifyPanic ∈ as → .act i .done ∉ as := by
  obtain ⟨haccounted, hlocked⟩ := accounted_locked hrun
  constructor
  · intro h i hpanic hdone
    obtain ⟨a, ha, hended⟩ := (hlocked.ended i).mp hdone
    obtain ⟨⟨k, hk⟩, -⟩ := hlocked.leaked i hpanic
    exact h.lock i a ha hended k hk
  · intro h
    refine ⟨fun i a hi hended k hk => ?_, fun a ha => (haccounted.balanced a ha).of_ended,
      haccounted.taskSemaphore, haccounted.runningTasks, fun hlimit => ?_⟩
    · obtain ⟨b, hb, hin⟩ := hlocked.holder k i hk
      obtain rfl : a = b := Option.some.inj (hi.symm.trans hb)
      rcases hin with hin | hpanic
      · rw [hended] at hin
        exact Phase.noConfusion hin
      · exact h i hpanic ((hlocked.ended i).mpr ⟨a, hi, hended⟩)
    · have hcount := Ledger.countP_le_held Activation.tokens
        (fun a ha => (haccounted.balanced a ha).tokens_nonneg)
      rw [← haccounted.taskSemaphore] at hcount
      exact (Int.ofNat_le.mp hcount).trans (haccounted.room hlimit)

/-- The small wheel with a callback for the changes of alerts. It is called
while the lock is held. -/
def withCallback : Config := { fourSlots with sinks := ⟨false, false, true⟩ }

/-- Two executions and one token: the function of the first one panics, the
second one goes all the way. -/
theorem givesBack_of_panic_in_run :
    ∃ s, Machine.run (step withCallback 1) (ofWheel fourSlotWheel)
        [.call (addAt 0 "a" .repeated 10 none), .call (addAt 0 "b" .repeated 10 none),
          .tick (Time.ofMilli 10), .act 0 .acquire, .act 0 .count, .act 0 .check, .act 0 .panic,
          .act 0 .release, .act 1 .acquire, .act 1 .count, .act 0 .done, .act 1 .check,
          .act 1 (.finish ⟨1, 0, true⟩), .act 1 .lock, .act 1 .notify, .act 1 .unlock,
          .act 1 .release, .act 1 .done] = some s
      ∧ GivesBack 1 s := by
  obtain ⟨s, hs⟩ := Option.isSome_iff_exists.mp (by decide +kernel :
    (Machine.run (step withCallback 1) (ofWheel fourSlotWheel)
      [.call (addAt 0 "a" .repeated 10 none), .call (addAt 0 "b" .repeated 10 none),
        .tick (Time.ofMilli 10), .act 0 .acquire, .act 0 .count, .act 0 .check, .act 0 .panic,
        .act 0 .release, .act 1 .acquire, .act 1 .count, .act 0 .done, .act 1 .check,
        .act 1 (.finish ⟨1, 0, true⟩), .act 1 .lock, .act 1 .notify, .act 1 .unlock,
        .act 1 .release, .act 1 .done]).isSome = true)
  exact ⟨s, hs, (givesBack_iff fourSlotWheel hs).mpr (by simp)⟩

/-- **A panic in the callback**: the execution ends and the shard of its task
stays locked. -/
theorem not_givesBack_of_panic_in_callback :
    ∃ s, Machine.run (step withCallback 0) (ofWheel fourSlotWheel)
        [.call (addAt 0 "a" .repeated 10 none), .tick (Time.ofMilli 10), .act 0 .acquire,
          .act 0 .check, .act 0 (.finish ⟨1, 0, true⟩), .act 0 .lock, .act 0 .notifyPanic,
          .act 0 .done] = some s
      ∧ ¬ GivesBack 0 s := by
  have hrun : (Machine.run (step withCallback 0) (ofWheel fourSlotWheel)
      [.call (addAt 0 "a" .repeated 10 none), .tick (Time.ofMilli 10), .act 0 .acquire,
        .act 0 .check, .act 0 (.finish ⟨1, 0, true⟩), .act 0 .lock, .act 0 .notifyPanic,
        .act 0 .done]).map (fun s =>
          (s.locks (shardOf withCallback "a"), s.acts[0]?.map Activation.point))
      = some (some 0, some .ended) := by decide +kernel
  obtain ⟨s, hs, hended⟩ := Option.map_eq_some_iff.mp hrun
  obtain ⟨a, ha, hp⟩ := Option.map_eq_some_iff.mp (congrArg Prod.snd hended)
  exact ⟨s, hs, fun h => h.lock 0 a ha hp _ (congrArg Prod.fst hended)⟩

end Resources

end Timewheel
