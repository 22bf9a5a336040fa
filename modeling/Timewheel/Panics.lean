import Timewheel.Restart

/-!
# Executions that panic

`updateTaskResult` has a parameter for the value of a panic: with it the
execution counts as a failure and as a panic, and the error callback is told.
The value is only known in the deferred recovery of `executeTask`. But a panic
of the task unwinds from the call of its function straight to that recovery,
past `updateTaskResult` and past the locked section, and the recovery writes to
the log, frees the semaphore and no more.

The system below keeps a ledger of the failures there have been beside the
scheduler, and `failuresAccounted_iff` compares the two: the counters and the
callback account for the failures of a run exactly if no task panics in it.

The ledger is part of the specification and not of the code. It grows by one
entry whenever `runTask` returns an error or the function panics, which is when a failure
is to be counted and the error callback to be told.
-/

namespace Timewheel

open TimeWheel Scheduler

variable {cfg : Config} {w w' w'' : TimeWheel} {s s' : Scheduler}

/-! ## The code -/

/-- How an execution can fail. A function that returns has not failed, whatever
its result. -/
inductive Failure where
  /-- `runTask` returned an error. -/
  | error (err : Err)
  /-- The function of the task panicked. -/
  | panic (taskID value : String)
  deriving DecidableEq, Repr

/-- The error the callback is to be called with. The text is that of the branch
of the code which is never reached. -/
def Failure.report : Failure → Err
  | .error err => err
  | .panic taskID value => .text ("task " ++ taskID ++ " panicked: " ++ value)

/-- Panics have a counter of their own. -/
def Failure.isPanic : Failure → Bool
  | .error _ => false
  | .panic _ _ => true

/-- `updateTaskResult` with all its arguments: the wheel it leaves, and the
calls of the error callback, when it is set. The name of the task is looked up
for the text, and may be unknown by then. -/
def TimeWheel.updateTaskResultWith (onError : Bool) (w : TimeWheel) (n : NodeRef)
    (result : AlarmResult) (err : Option Err) (panicValue : Option String) :
    TimeWheel × List Err :=
  let w := w.setNode n
    { w.heap n with executed := (w.heap n).executed + 1, lastResult := result }
  let w := { w with
    counters := { w.counters with totalTasksExecuted := w.counters.totalTasksExecuted + 1 } }
  let taskID := match (w.heap n).task with
    | some task => task.id
    | none => "unknown"
  match panicValue, err with
  | some value, _ =>
    ({ w with
        counters :=
          { w.counters with
            totalTasksFailed := w.counters.totalTasksFailed + 1
            totalTaskPanics := w.counters.totalTaskPanics + 1 } },
      if onError then [Failure.report (.panic taskID value)] else [])
  | none, some err =>
    ({ w with
        counters := { w.counters with totalTasksFailed := w.counters.totalTasksFailed + 1 } },
      if onError then [err] else [])
  | none, none => (w, [])

/-- **The branch for panics is dead**: the value `executeTask` passes is always
nil, and then this is the `updateTaskResult` of the executions. -/
theorem updateTaskResultWith_none (onError : Bool) (w : TimeWheel) (n : NodeRef)
    (result : AlarmResult) (err : Option Err) :
    (w.updateTaskResultWith onError n result err none).1 = w.updateTaskResult n result err := by
  cases err with
  | none => rfl
  | some err => rfl

/-! ## The system -/

/-- A scheduler, the calls of the error callback, and the failures there have
been. The last two are recorded by the step function below. -/
structure Reported where
  scheduler : Scheduler
  onErrors : List Err
  failures : List Failure

/-- What a step hands to `updateTaskResult`, if it calls it: the node, the
result and the error. A start that is turned away and a return call it; a panic
does not. -/
def Scheduler.resultOf (s : Scheduler) : Action → Option (NodeRef × AlarmResult × Option Err)
  | .start i =>
    (s.execs[i]?).bind (fun e =>
      (s.wheel.checkTaskState e.node).bind (fun task =>
        (s.wheel.runTaskCheck e.node task.copyTaskInfo).map (fun err =>
          (e.node, AlarmResult.zero, some err))))
  | .finish i result => (s.execs[i]?).map (fun e => (e.node, result, none))
  | _ => none

/-- The calls of the error callback in a step. -/
def Scheduler.errorCalls (onError : Bool) (s : Scheduler) (a : Action) : List Err :=
  match s.resultOf a with
  | some (n, result, err) => (s.wheel.updateTaskResultWith onError n result err none).2
  | none => []

/-- The failure there is in a step, if any: a panic with the value `value`, or
the error of `runTask`. -/
def Scheduler.failureOf (s : Scheduler) (a : Action) (value : String) : Option Failure :=
  match a with
  | .panic i =>
    (s.execs[i]?).bind (fun e =>
      match e.stage with
      | .running info => some (.panic info.id value)
      | _ => none)
  | a => (s.resultOf a).bind (fun r => r.2.2.map .error)

namespace Reported

/-- Nothing has happened yet. -/
def ofWheel (w : TimeWheel) : Reported := ⟨Scheduler.ofWheel w, [], []⟩

/-- **The step function.** The text goes with a panic, as its value. -/
def step (cfg : Config) (onError : Bool) (s : Reported) (a : LifecycleAction × String) :
    Option Reported :=
  (lifecycleStep cfg s.scheduler a.1).map (fun t =>
    match a.1 with
    | .act b =>
      { scheduler := t
        onErrors := s.onErrors ++ s.scheduler.errorCalls onError b
        failures := s.failures ++ (s.scheduler.failureOf b a.2).toList }
    | _ => { s with scheduler := t })

end Reported

/-- A panic of a task. -/
def LifecycleAction.isPanic : LifecycleAction → Bool
  | .act (.panic _) => true
  | _ => false

/-- **The failures so far are accounted for**: the panics and the failures are
counted, and the callback has been called for each of them once. -/
structure Reported.Balanced (onError : Bool) (s : Reported) : Prop where
  panics : s.scheduler.wheel.counters.totalTaskPanics = s.failures.countP Failure.isPanic
  failed : s.scheduler.wheel.counters.totalTasksFailed = s.failures.length
  reported : onError = true → s.onErrors = s.failures.map Failure.report

/-- **A step accounts for its failures**: they are counted and reported, and a
panicked execution counts as executed and goes on where one that returns
does. -/
structure FailuresAccounted (onError : Bool) (s : Reported) (a : LifecycleAction × String)
    (s' : Reported) : Prop where
  balanced : s'.Balanced onError
  goesOn : ∀ i e info, a.1 = .act (.panic i) → s.scheduler.execs[i]? = some e →
    e.stage = .running info →
      (s'.scheduler.wheel.heap e.node).executed = (s.scheduler.wheel.heap e.node).executed + 1
        ∧ ∃ result, s'.scheduler.execs = (s.scheduler.finish i e info result).execs

/-! ## The counters of failures -/

/-- The two counters of failures are as they were. -/
structure SameFailures (w w' : TimeWheel) : Prop where
  panics : w'.counters.totalTaskPanics = w.counters.totalTaskPanics
  failed : w'.counters.totalTasksFailed = w.counters.totalTasksFailed

namespace SameFailures

/-- Steps that fail with nothing -/
theorem refl (w : TimeWheel) : SameFailures w w := ⟨rfl, rfl⟩

/-- can be put together. -/
theorem trans (h : SameFailures w w') (h' : SameFailures w' w'') : SameFailures w w'' :=
  ⟨h'.panics.trans h.panics, h'.failed.trans h.failed⟩

end SameFailures

/-- Changing pointers does not count, -/
theorem TimeWheel.Relinked.sameFailures (h : Relinked w w') : SameFailures w w' := by
  obtain ⟨heap, slots, rfl⟩ := h.frame
  exact ⟨rfl, rfl⟩

/-- nor does taking a node from the pool, -/
theorem sameFailures_poolGet (w : TimeWheel) (choice : Option NodeRef) :
    SameFailures w (w.poolGet choice).2 := by
  unfold poolGet
  cases choice with
  | none => exact ⟨rfl, rfl⟩
  | some n =>
    dsimp only
    split_ifs
    · exact ⟨rfl, rfl⟩
    · exact ⟨rfl, rfl⟩

/-- so adding a task counts nothing, -/
theorem sameFailures_addTask (cfg : Config) (w : TimeWheel) (task : Option Task) (env : AddEnv) :
    SameFailures w (w.addTask cfg task env).2 := by
  unfold addTask
  cases task with
  | none => exact .refl w
  | some t =>
    dsimp only
    cases checkTask t with
    | error err => exact .refl w
    | ok t' =>
      dsimp only
      split_ifs
      · exact .refl w
      · have hprepared : SameFailures w (w.prepareNode cfg t' env).2 :=
          (sameFailures_poolGet w env.node).trans ⟨rfl, rfl⟩
        generalize w.prepareNode cfg t' env = g at hprepared ⊢
        obtain ⟨n, w₁⟩ := g
        dsimp only at hprepared ⊢
        cases w₁.lookup cfg t'.id with
        | some m => exact hprepared.trans ⟨rfl, rfl⟩
        | none =>
          have hlinked := (relinked_insertOrdered w₁ n t'.priority (w₁.heap n).slotIndex)
          exact hprepared.trans (hlinked.sameFailures.trans ⟨rfl, rfl⟩)

/-- removing one neither, -/
theorem sameFailures_removeTask (cfg : Config) (w : TimeWheel) (id : String) (deleteOk : Bool) :
    SameFailures w (w.removeTask cfg id deleteOk).2 := by
  unfold removeTask
  by_cases hid : id = ""
  · rw [if_pos hid]
    exact .refl w
  · rw [if_neg hid]
    cases w.lookup cfg id with
    | none => exact .refl w
    | some n =>
      exact (w.unlink_spec n (w.heap n).slotIndex).1.sameFailures.trans ⟨rfl, rfl⟩

/-- nor clearing one, -/
theorem sameFailures_clearTask (cfg : Config) (w : TimeWheel) (id : String) :
    SameFailures w (w.clearTask cfg id) := by
  cases hn : w.lookup cfg id with
  | none =>
    rw [clearTask_of_lookup_none hn]
    exact .refl w
  | some n =>
    obtain ⟨w₁, hrel, hclear⟩ := clearTask_frame hn
    rw [hclear]
    exact hrel.sameFailures.trans ⟨rfl, rfl⟩

/-- nor the locked section at the end of an execution. -/
theorem sameFailures_lockedSection (cfg : Config) (w : TimeWheel) (n : NodeRef) (info : TaskInfo)
    (result : AlarmResult) (now : Time) (slot : ℕ) :
    SameFailures w (w.lockedSection cfg n info result now slot) := by
  have halert : SameFailures w (w.applyAlert cfg n info result now) := ⟨rfl, rfl⟩
  unfold lockedSection handleTaskSchedulingLocked
  split_ifs
  · exact halert
  · obtain ⟨heap, slots, hw, -⟩ :=
      @rescheduleTask_frame cfg (w.applyAlert cfg n info result now) n info now slot
    rw [hw]
    exact ⟨rfl, rfl⟩
  · obtain ⟨heap, slots, hw, -⟩ :=
      @removeTaskInternal_frame cfg (w.applyAlert cfg n info result now) n info slot
    rw [hw]
    exact ⟨rfl, rfl⟩

/-- The interface counts no failures. -/
theorem sameFailures_call {a : Action} (ha : a.isCall = true) (h : step cfg s a = some s') :
    SameFailures s.wheel s'.wheel :=
  wheel_of_call (SameFailures s.wheel) ha h (.refl s.wheel)
    (fun w task env h => h.trans (sameFailures_addTask cfg w task env))
    (fun w id deleteOk h => h.trans (sameFailures_removeTask cfg w id deleteOk))
    (fun _ _ h => h.trans ⟨rfl, rfl⟩) (fun _ _ _ h => h.trans ⟨rfl, rfl⟩)
    (fun w id h => h.trans (sameFailures_clearTask cfg w id)) (fun _ _ h => h.trans ⟨rfl, rfl⟩)

/-! ## What a step counts -/

/-- **A step counts what it reports**: the failures are those of the ledger, of
which none is a panic, and the callback is called with each. This is one step of
the balance. -/
structure Counts (onError : Bool) (w w' : TimeWheel) (calls : List Err)
    (failure : Option Failure) : Prop where
  panics : w'.counters.totalTaskPanics = w.counters.totalTaskPanics
  none_panics : failure.toList.countP Failure.isPanic = 0
  failed : w'.counters.totalTasksFailed
    = w.counters.totalTasksFailed + failure.toList.length
  reported : onError = true → calls = failure.toList.map Failure.report

/-- What a step that is not a panic counts goes through `updateTaskResult`. The
callback is told of the same error as the counter. -/
theorem counts_of_result (onError : Bool) {a : Action} (ha : ∀ i, a ≠ .panic i) (value : String)
    (hnone : s.resultOf a = none → SameFailures s.wheel w')
    (hsome : ∀ n result err, s.resultOf a = some (n, result, err) →
      w' = s.wheel.updateTaskResult n result err) :
    Counts onError s.wheel w' (s.errorCalls onError a) (s.failureOf a value) := by
  have hfailure : s.failureOf a value = (s.resultOf a).bind (fun r => r.2.2.map .error) := by
    cases a with
    | panic i => exact absurd rfl (ha i)
    | _ => rfl
  rw [hfailure]
  unfold Scheduler.errorCalls
  cases hr : s.resultOf a with
  | none => exact ⟨(hnone hr).panics, rfl, (hnone hr).failed, fun _ => rfl⟩
  | some r =>
    obtain ⟨n, result, err⟩ := r
    rw [hsome n result err hr]
    cases err with
    | none => exact ⟨rfl, rfl, rfl, fun _ => rfl⟩
    | some err =>
      refine ⟨rfl, rfl, rfl, fun honError => ?_⟩
      rw [honError]
      rfl

/-- An execution is started, or `runTask` turns it away. The checks of `runTask`
come before the function is called. -/
theorem wheel_start {i : ℕ} {e : Execution} (he : s.execs[i]? = some e) :
    (s.resultOf (.start i) = none ∧ (s.start i e).wheel = s.wheel)
      ∨ ∃ err, s.resultOf (.start i) = some (e.node, AlarmResult.zero, some err)
        ∧ (s.start i e).wheel = s.wheel.updateTaskResult e.node AlarmResult.zero (some err) := by
  have hr : s.resultOf (.start i) = (s.wheel.checkTaskState e.node).bind (fun task =>
      (s.wheel.runTaskCheck e.node task.copyTaskInfo).map (fun err =>
        (e.node, AlarmResult.zero, some err))) := by
    unfold Scheduler.resultOf
    dsimp only
    rw [he, Option.bind_some]
  rw [hr]
  unfold Scheduler.start
  cases s.wheel.checkTaskState e.node with
  | none => exact Or.inl ⟨rfl, rfl⟩
  | some task =>
    dsimp only [Option.bind_some]
    cases s.wheel.runTaskCheck e.node task.copyTaskInfo with
    | none => exact Or.inl ⟨rfl, rfl⟩
    | some err => exact Or.inr ⟨err, rfl, rfl⟩

/-- **A step that is not a panic** counts and reports what it fails with. Calls
and ticks fail with nothing. -/
theorem counts_step (onError : Bool) {a : Action} (ha : ∀ i, a ≠ .panic i)
    (h : step cfg s a = some s') (value : String) :
    Counts onError s.wheel s'.wheel (s.errorCalls onError a) (s.failureOf a value) := by
  cases stepped_of_step h with
  | call hcall hstep =>
    have hnone : s.resultOf a = none := by
      cases a with
      | start i => cases hcall
      | finish i result => cases hcall
      | _ => rfl
    exact counts_of_result onError ha value (fun _ => sameFailures_call hcall h)
      (fun n result err hr => absurd (hnone.symm.trans hr) (Option.some_ne_none _).symm)
  | tick now =>
    exact counts_of_result onError ha value (fun _ => ⟨rfl, rfl⟩) (fun n result err hr => nomatch hr)
  | reject he hs =>
    exact counts_of_result onError ha value (fun _ => ⟨rfl, rfl⟩) (fun n result err hr => nomatch hr)
  | @start i e he hs =>
    rcases wheel_start he with ⟨hr, hw⟩ | ⟨err, hr, hw⟩
    · refine counts_of_result onError ha value (fun _ => ?_)
        (fun n result err hsome => absurd (hr.symm.trans hsome) (Option.some_ne_none _).symm)
      rw [hw]
      exact .refl s.wheel
    -- the checks before the call fail with an error, which is counted and reported
    · refine counts_of_result onError ha value
        (fun hnone => absurd (hr.symm.trans hnone) (Option.some_ne_none _))
        (fun n result err' hsome => ?_)
      obtain ⟨rfl, rfl, rfl⟩ : e.node = n ∧ AlarmResult.zero = result ∧ some err = err' := by
        simpa using hr.symm.trans hsome
      exact hw
  | @finish i e info he hs result =>
    have hr : s.resultOf (.finish i result) = some (e.node, result, none) := by
      unfold Scheduler.resultOf
      dsimp only
      rw [he, Option.map_some]
    refine counts_of_result onError ha value
      (fun hnone => absurd (hr.symm.trans hnone) (Option.some_ne_none _)) (fun n r err hsome => ?_)
    obtain ⟨rfl, rfl, rfl⟩ : e.node = n ∧ result = r ∧ none = err := by
      simpa using hr.symm.trans hsome
    unfold Scheduler.finish
    dsimp only
    split_ifs
    · rfl
    · rfl
  | panic he hs => exact absurd rfl (ha _)
  | complete he hs =>
    exact counts_of_result onError ha value
      (fun _ => sameFailures_lockedSection cfg s.wheel _ _ _ _ _)
      (fun n result err hr => nomatch hr)

/-! ## Runs -/

/-- A step without a panic keeps the balance. Both sides grow by the same. -/
theorem Reported.Balanced.of_step {onError : Bool} {s s' : Reported}
    {a : LifecycleAction × String} (h : s.Balanced onError) (ha : a.1.isPanic = false)
    (hstep : Reported.step cfg onError s a = some s') : s'.Balanced onError := by
  obtain ⟨a, value⟩ := a
  obtain ⟨t, ht, rfl⟩ := Option.map_eq_some_iff.mp hstep
  cases a with
  | start now =>
    obtain ⟨w, hw, rfl⟩ := Option.map_eq_some_iff.mp ht
    have hsame : w.counters = s.scheduler.wheel.counters := by
      unfold TimeWheel.start at hw
      split_ifs at hw
      · rw [← Option.some.inj hw]
      · obtain ⟨slot, -, rfl⟩ := Option.map_eq_some_iff.mp hw
        rfl
    exact ⟨hsame ▸ h.panics, hsame ▸ h.failed, h.reported⟩
  | stop =>
    unfold lifecycleStep at ht
    split_ifs at ht
    obtain rfl := Option.some.inj ht
    have hsame : s.scheduler.wheel.stop.counters = s.scheduler.wheel.counters := by
      unfold TimeWheel.stop
      split_ifs
      · rfl
      · rfl
    exact ⟨hsame ▸ h.panics, hsame ▸ h.failed, h.reported⟩
  | act b =>
    have hb : ∀ i, b ≠ .panic i := by
      rintro i rfl
      cases ha
    unfold lifecycleStep at ht
    dsimp only at ht
    split_ifs at ht
    obtain ⟨hpanics, hnone, hfailed, hreported⟩ := counts_step onError hb ht value
    refine ⟨?_, ?_, fun honError => ?_⟩
    · rw [List.countP_append, hnone, hpanics, h.panics, Nat.add_zero]
    · rw [List.length_append, hfailed, h.failed]
    · dsimp only
      rw [List.map_append, hreported honError, h.reported honError]

/-- A panic is nowhere to be found in the counters. The ledger has one more, and
the rest is as before. -/
theorem not_balanced_of_panic {onError : Bool} {s s' : Reported} {a : LifecycleAction × String}
    (h : s.Balanced onError) (ha : a.1.isPanic = true)
    (hstep : Reported.step cfg onError s a = some s') : ¬ s'.Balanced onError := by
  intro h'
  obtain ⟨a, value⟩ := a
  obtain ⟨i, rfl⟩ : ∃ i, a = .act (.panic i) := by
    cases a with
    | start now => cases ha
    | stop => cases ha
    | act b =>
      cases b with
      | panic i => exact ⟨i, rfl⟩
      | _ => cases ha
  obtain ⟨t, ht, rfl⟩ := Option.map_eq_some_iff.mp hstep
  have hstepped := stepped_of_step (show step cfg s.scheduler (.panic i) = some t from ht)
  cases hstepped with
  | call hcall hcalled => cases hcall
  | @panic i e info he hs =>
    have hfailure : s.scheduler.failureOf (.panic i) value = some (.panic info.id value) := by
      unfold Scheduler.failureOf
      dsimp only
      rw [he, Option.bind_some, hs]
    have hcount := h'.panics
    dsimp only at hcount
    rw [hfailure, List.countP_append, ← h.panics] at hcount
    exact Nat.succ_ne_self _ hcount.symm

/-- **Exactly the runs without a panic account for their failures.** The steps
include `Start` and `Stop` and all calls. The equality has to hold after every
step; one panic anywhere in the run breaks it for good. -/
theorem failuresAccounted_iff (cfg : Config) (onError : Bool) (cacheEnabled : Bool)
    (store : Option (AList (fun _ : String => Task))) (now : Time)
    (as : List (LifecycleAction × String)) :
    Machine.Each (Reported.step cfg onError) (FailuresAccounted onError)
        (Reported.ofWheel (TimeWheel.new cacheEnabled store now)) as
      ↔ Machine.Each (Reported.step cfg onError) (fun _ a _ => a.1.isPanic = false)
        (Reported.ofWheel (TimeWheel.new cacheEnabled store now)) as := by
  have hkeep : ∀ s a s', s.Balanced onError → Reported.step cfg onError s a = some s' →
      a.1.isPanic = false → s'.Balanced onError ∧ FailuresAccounted onError s a s' := by
    intro s a s' h hstep ha
    have h' := h.of_step ha hstep
    refine ⟨h', h', fun i e info hpanic _ _ => ?_⟩
    rw [hpanic] at ha
    cases ha
  have hneed : ∀ s a s', s.Balanced onError → Reported.step cfg onError s a = some s' →
      FailuresAccounted onError s a s' → a.1.isPanic = false := by
    intro s a s' h hstep hq
    refine Bool.eq_false_iff.mpr (fun ha => ?_)
    exact not_balanced_of_panic h ha hstep hq.balanced
  exact Machine.each_iff_of_invariant (fun s a s' (_ : True) h hstep hg => hkeep s a s' h hstep hg)
    (fun s a s' _ h hstep hq => hneed s a s' h hstep hq) (fun _ _ => trivial)
    ⟨rfl, rfl, fun _ => rfl⟩

/-- **A task that panics.** It is called once and panics; no counter moves, the
callback hears of nothing, and the node is left where it is. -/
theorem not_failuresAccounted_of_panic :
    ¬ Machine.Each (Reported.step fourSlots true) (FailuresAccounted true)
      (Reported.ofWheel (TimeWheel.new false none Time.zero))
      ([(.start (Time.ofMilli 0), "")] ++ (acts ([addAt 0 "a" .repeated 10 none] ++ ticksAt [10]
        ++ [.start 0, .panic 0])).map (fun a => (a, "test task panic!"))) := by
  intro h
  have hrun : (Machine.run (Reported.step fourSlots true)
      (Reported.ofWheel (TimeWheel.new false none Time.zero))
      ([(.start (Time.ofMilli 0), "")] ++ (acts ([addAt 0 "a" .repeated 10 none] ++ ticksAt [10]
        ++ [.start 0, .panic 0])).map (fun a => (a, "test task panic!")))).map (fun s =>
          (s.scheduler.wheel.counters.totalTaskPanics, s.onErrors, s.failures))
      = some (0, [], [.panic "a" "test task panic!"]) := by decide +kernel
  obtain ⟨t, ht, hvalues⟩ := Option.map_eq_some_iff.mp hrun
  simp only [Prod.mk.injEq] at hvalues
  obtain ⟨hpanics, -, hfailures⟩ := hvalues
  have hbalanced : t.Balanced true := Machine.state_of_each (P := fun s => s.Balanced true)
    ⟨rfl, rfl, fun _ => rfl⟩ (h.imp (fun _ _ _ hq => hq.balanced)) ht
  have hcount := hbalanced.panics
  rw [hpanics, hfailures] at hcount
  exact absurd hcount (by decide)

end Timewheel
