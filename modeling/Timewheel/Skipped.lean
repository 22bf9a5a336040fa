import Timewheel.Restart

/-!
# Skipped executions

`runTask` does not invoke the function of a task whose context is missing, or
is done while the task has a timeout. It says that it skips the execution, and
returns its error beside an `AlarmResult` nobody has filled in.
`executeTask` does not look at the error: the zero result goes on into the
alert evaluation, where it reads as a condition that does not hold.

So an evaluation that has not taken place resolves a firing alert, or starts
the wait of a pending one over. `alertUntouched_skipped_iff` says which nodes
a skipped execution leaves as they are: those on which there is nothing to
lose. The contexts that are done are those of `Restart`, and the run at the
end of the module is a restart.

The zero result is a result like any other to the code that follows, so the
lemmas are about conditions that do not hold in general (`isFiring = false`),
and skipping is the special case. What such a result does to a node can be
written down in closed form (`node_handleAlertStateLocked_of_not_firing`), and
the condition is read off it.
-/

namespace Timewheel

open TimeWheel Scheduler

variable {cfg : Config} {s s₁ s₂ s₃ : Scheduler} {w : TimeWheel} {n : NodeRef}

/-- **The alert of a node is as it was**, and no sink has been told anything. An
execution that was skipped should leave it so. -/
structure AlertUntouched (n : NodeRef) (w w' : TimeWheel) : Prop where
  alertState : (w'.heap n).alertState = (w.heap n).alertState
  pendingSince : (w'.heap n).pendingSince = (w.heap n).pendingSince
  lastFiredAt : (w'.heap n).lastFiredAt = (w.heap n).lastFiredAt
  alertEvents : w'.alertEvents = w.alertEvents

/-- **A node with nothing to lose** to an evaluation of the zero result: it
carries no task any more, or its alert is pending, has not begun to, and has
never fired unless the node stays registered. It is a condition on the node at
the time of the locked section. -/
def NothingToLose (w : TimeWheel) (n : NodeRef) (info : TaskInfo) : Prop :=
  (w.heap n).task = none
    ∨ ((w.heap n).alertState = .pending ∧ (w.heap n).pendingSince = Time.zero
      ∧ (shouldRescheduleTask (w.heap n) info = true ∨ (w.heap n).lastFiredAt = Time.zero))

instance (w : TimeWheel) (n : NodeRef) (info : TaskInfo) : Decidable (NothingToLose w n info) :=
  inferInstanceAs (Decidable (_ ∨ _))

/-! ## What the zero result does -/

/-- Recording a result, of whatever kind, is not what touches the alert. It
counts the execution and keeps the result. -/
theorem alertUntouched_updateTaskResult (w : TimeWheel) (n : NodeRef) (result : AlarmResult)
    (err : Option Err) : AlertUntouched n w (w.updateTaskResult n result err) := by
  have hheap := (updateTaskResult_core w n result err).heap
  refine ⟨?_, ?_, ?_, rfl⟩
  all_goals rw [hheap, heap_setNode_self]

/-- The node after the evaluation of a condition that does not hold. A firing
alert is resolved, and any other is pending again. -/
theorem node_handleAlertStateLocked_of_not_firing (sinks : AlertSinks) {node : TaskSlot}
    (ht : node.task ≠ none) (info : TaskInfo) {result : AlarmResult}
    (hresult : result.isFiring = false) (now : Time) :
    (handleAlertStateLocked sinks node info result now).node
      = { node with
          pendingSince := Time.zero
          alertState := if node.alertState = .firing then .resolved else .pending } := by
  unfold handleAlertStateLocked
  rw [if_neg ht, hresult, TaskSlot.computeAlertState_of_not_firing]
  dsimp only
  by_cases hfiring : node.alertState = .firing
  · rw [if_pos hfiring, hfiring]
    rfl
  · simp only [if_neg hfiring, reduceCtorEq, false_and, if_false]
    split_ifs
    all_goals rfl

/-- An alert that is pending already is reported to nobody. There is no change
of state to report. -/
theorem events_handleAlertStateLocked_of_pending (sinks : AlertSinks) {node : TaskSlot}
    (hpending : node.alertState = .pending) (info : TaskInfo) {result : AlarmResult}
    (hresult : result.isFiring = false) (now : Time) :
    (handleAlertStateLocked sinks node info result now).events = [] := by
  unfold handleAlertStateLocked
  rw [hresult, TaskSlot.computeAlertState_of_not_firing, hpending]
  simp only [reduceCtorEq, false_and, if_false, ne_eq, not_true_eq_false]
  split_ifs
  all_goals rfl

/-- The same, for the node in the wheel. -/
theorem heap_applyAlert_of_not_firing (ht : (w.heap n).task ≠ none) (info : TaskInfo)
    {result : AlarmResult} (hresult : result.isFiring = false) (now : Time) :
    (w.applyAlert cfg n info result now).heap n
      = { w.heap n with
          pendingSince := Time.zero
          alertState := if (w.heap n).alertState = .firing then .resolved else .pending } := by
  rw [(applyAlert_core w n info result now).heap, heap_setNode_self]
  exact node_handleAlertStateLocked_of_not_firing cfg.sinks ht info hresult now

/-- **The locked section after a condition that does not hold**, for a node that
stays registered. Times and links change as well, which does not matter for the
alert. -/
theorem lockedSection_of_rescheduled {info : TaskInfo} (ht : (w.heap n).task ≠ none)
    (hresched : shouldRescheduleTask (w.heap n) info = true) {result : AlarmResult}
    (hresult : result.isFiring = false) (now : Time) (slot : ℕ) :
    let w' := w.lockedSection cfg n info result now slot
    (w'.heap n).alertState = (if (w.heap n).alertState = .firing then .resolved else .pending)
      ∧ (w'.heap n).pendingSince = Time.zero ∧ (w'.heap n).lastFiredAt = (w.heap n).lastFiredAt
      ∧ w'.alertEvents = (w.applyAlert cfg n info result now).alertEvents := by
  have hnode := @heap_applyAlert_of_not_firing cfg w n ht info result hresult now
  obtain ⟨heap, slots, hw, -, r, i, hself⟩ :=
    @rescheduleTask_frame cfg (w.applyAlert cfg n info result now) n info now slot
  have hlocked : w.lockedSection cfg n info result now slot
      = { w.applyAlert cfg n info result now with heap := heap, slots := slots } := by
    unfold lockedSection handleTaskSchedulingLocked
    rw [if_neg (by rw [hnode]; exact ht), if_pos (by rw [hnode]; exact hresched), hw]
  have hlast := congrArg TaskSlot.lastFiredAt hself
  rw [hnode] at hself hlast
  rw [hlocked]
  exact ⟨congrArg TaskSlot.alertState hself, congrArg TaskSlot.pendingSince hself, hlast, rfl⟩

/-- The same for a node that is removed. Clearing the node also clears the time
at which it has fired last. -/
theorem lockedSection_of_removed {info : TaskInfo} (ht : (w.heap n).task ≠ none)
    (hresched : shouldRescheduleTask (w.heap n) info = false) {result : AlarmResult}
    (hresult : result.isFiring = false) (now : Time) (slot : ℕ) :
    let w' := w.lockedSection cfg n info result now slot
    (w'.heap n).alertState = .pending ∧ (w'.heap n).pendingSince = Time.zero
      ∧ (w'.heap n).lastFiredAt = Time.zero
      ∧ w'.alertEvents = (w.applyAlert cfg n info result now).alertEvents := by
  have hnode := @heap_applyAlert_of_not_firing cfg w n ht info result hresult now
  obtain ⟨heap, slots, hw, -, hself⟩ :=
    @removeTaskInternal_frame cfg (w.applyAlert cfg n info result now) n info slot
  have hlocked : w.lockedSection cfg n info result now slot
      = (w.applyAlert cfg n info result now).removeTaskInternal cfg n info slot := by
    unfold lockedSection handleTaskSchedulingLocked
    rw [if_neg (by rw [hnode]; exact ht),
      if_neg (by rw [hnode]; exact fun h => Bool.false_ne_true (hresched.symm.trans h))]
  rw [hlocked, hw]
  refine ⟨?_, ?_, ?_, rfl⟩
  all_goals
    dsimp only
    rw [hself]
    rfl

/-- **Which nodes a condition that does not hold leaves alone.** By the two
lemmas, according to whether the task goes on. -/
theorem alertUntouched_lockedSection_iff (w : TimeWheel) (n : NodeRef) (info : TaskInfo)
    {result : AlarmResult} (hresult : result.isFiring = false) (now : Time) (slot : ℕ) :
    AlertUntouched n w (w.lockedSection cfg n info result now slot) ↔ NothingToLose w n info := by
  by_cases ht : (w.heap n).task = none
  · rw [lockedSection_of_task_none ht]
    exact ⟨fun _ => Or.inl ht, fun _ => ⟨rfl, rfl, rfl, rfl⟩⟩
  have hevents : (w.heap n).alertState = .pending →
      (w.applyAlert cfg n info result now).alertEvents = w.alertEvents := by
    intro hpending
    show w.alertEvents ++ (handleAlertStateLocked cfg.sinks _ info result now).events = _
    rw [events_handleAlertStateLocked_of_pending _ hpending info hresult, List.append_nil]
  cases hresched : shouldRescheduleTask (w.heap n) info with
  | true =>
    obtain ⟨hstate, hsince, hlast, hev⟩ :=
      @lockedSection_of_rescheduled cfg w n info ht hresched result hresult now slot
    constructor
    · intro h
      refine Or.inr ⟨?_, h.pendingSince.symm.trans hsince, Or.inl hresched⟩
      -- an alert that fires is resolved, and one that is resolved is pending afterwards
      have hsame := h.alertState.symm.trans hstate
      split_ifs at hsame with hfiring
      · exact absurd (hfiring.symm.trans hsame) AlertState.noConfusion
      · exact hsame
    · intro h
      obtain ⟨hpending, hzero, -⟩ := h.resolve_left ht
      refine ⟨?_, hsince.trans hzero.symm, hlast, hev.trans (hevents hpending)⟩
      rw [hstate, hpending]
      rfl
  | false =>
    obtain ⟨hstate, hsince, hlast, hev⟩ :=
      @lockedSection_of_removed cfg w n info ht hresched result hresult now slot
    constructor
    · exact fun h => Or.inr ⟨h.alertState.symm.trans hstate, h.pendingSince.symm.trans hsince,
        Or.inr (h.lastFiredAt.symm.trans hlast)⟩
    · intro h
      obtain ⟨hpending, hzero, hfired⟩ := h.resolve_left ht
      have hnever := hfired.resolve_left (fun hr => Bool.false_ne_true (hresched.symm.trans hr))
      exact ⟨hstate.trans hpending.symm, hsince.trans hzero.symm, hlast.trans hnever.symm,
        hev.trans (hevents hpending)⟩

/-! ## Executions -/

/-- **A skipped execution touches the alert of its node**, unless the node has
nothing to lose when the execution has the lock. `s₂` is whatever the others
have made of the system by then. The others may have done anything between the
skipping and the locked section, so the condition speaks of the later state. -/
theorem alertUntouched_skipped_iff {i : ℕ} {e : Execution} {task : Task} {err : Err}
    (he : s.execs[i]? = some e) (hcollected : e.stage = .collected)
    (htask : s.wheel.checkTaskState e.node = some task)
    (hskip : s.wheel.runTaskCheck e.node task.copyTaskInfo = some err) :
    ∃ s₁, step cfg s (.start i) = some s₁ ∧ s₁.invoked = s.invoked
      ∧ s₁.execs[i]? = some { e with stage := .finished task.copyTaskInfo AlarmResult.zero }
      ∧ ∀ s₂ j, s₂.execs[j]?
          = some { e with stage := .finished task.copyTaskInfo AlarmResult.zero } →
        ∃ s₃, step cfg s₂ (.complete j) = some s₃
          ∧ (AlertUntouched e.node s.wheel s₁.wheel ∧ AlertUntouched e.node s₂.wheel s₃.wheel
            ↔ NothingToLose s₂.wheel e.node task.copyTaskInfo) := by
  obtain ⟨node, registration, now, slot, stage⟩ := e
  obtain rfl : stage = .collected := hcollected
  have hstart : step cfg s (.start i) = some
      { s with
        wheel := s.wheel.updateTaskResult node AlarmResult.zero (some err)
        execs := s.execs.set i
          ⟨node, registration, now, slot, .finished task.copyTaskInfo AlarmResult.zero⟩ } := by
    simp only [step, he, Scheduler.start]
    rw [htask]
    dsimp only
    rw [hskip]
  refine ⟨_, hstart, rfl, ?_, fun s₂ j he₂ => ?_⟩
  · rw [List.getElem?_set_self (List.getElem?_eq_some_iff.mp he).1]
  · have hcomplete : step cfg s₂ (.complete j) = some (s₂.complete cfg j
        ⟨node, registration, now, slot, .finished task.copyTaskInfo AlarmResult.zero⟩
        task.copyTaskInfo AlarmResult.zero) := by
      simp only [step, he₂]
    have hupdated := alertUntouched_updateTaskResult s.wheel node AlarmResult.zero (some err)
    exact ⟨_, hcomplete, (and_iff_right hupdated).trans
      (alertUntouched_lockedSection_iff s₂.wheel node task.copyTaskInfo rfl now slot)⟩

/-- Four slots, and every sink there is. -/
def loudSlots : Config := { fourSlots with sinks := ⟨true, true, true⟩ }

/-- A repeated task with a timeout. -/
def impatientTask : Task :=
  { Task.plain "a" .repeated (Duration.ofMilli 10) with timeout := Duration.ofMilli 5 }

/-- The task is added to a wheel that has just been started. -/
def addImpatient : List LifecycleAction :=
  [.start (Time.ofMilli 0), .act (.addTask (some impatientTask)
    ⟨Time.ofMilli 0, none, ⟨Time.zero, [], []⟩, true⟩)]

/-- A restart, and the tick that collects the task after it. -/
def restartAndTick : List LifecycleAction :=
  [.stop, .start (Time.ofMilli 20)] ++ acts (ticksAt [30, 40, 50, 60])

/-- A new wheel is given the task, goes through `as`, and is restarted. The
restart cancels the context of the task. -/
def restartedAfter (as : List LifecycleAction) : Option Scheduler :=
  Machine.run (lifecycleStep loudSlots) (ofWheel (TimeWheel.new false none Time.zero))
    (addImpatient ++ as ++ restartAndTick)

/-- The execution that the tick after the restart collects, at `now`. -/
def collectedAt (now slot : ℕ) : Execution := ⟨0, some 1, Time.ofMilli now, slot, .collected⟩

/-- A task that has never been evaluated has nothing to lose. -/
theorem alertUntouched_of_neverRun :
    ∃ s s₁ s₃, restartedAfter [] = some s ∧ step loudSlots s (.start 0) = some s₁
      ∧ step loudSlots s₁ (.complete 0) = some s₃
      ∧ AlertUntouched 0 s.wheel s₁.wheel ∧ AlertUntouched 0 s₁.wheel s₃.wheel := by
  have hrun : (restartedAfter []).map (fun s => (s.execs[0]?, s.wheel.checkTaskState 0,
      s.wheel.runTaskCheck 0 impatientTask.copyTaskInfo,
      (step loudSlots s (.start 0)).map (fun s₁ =>
        decide (NothingToLose s₁.wheel 0 impatientTask.copyTaskInfo))))
      = some (some (collectedAt 50 1), some impatientTask,
        some (.wrap "task a" .contextCanceled), some true) := by decide +kernel
  obtain ⟨s, hs, hvalues⟩ := Option.map_eq_some_iff.mp hrun
  simp only [Prod.mk.injEq] at hvalues
  obtain ⟨he, htask, hskip, hnothing⟩ := hvalues
  obtain ⟨s₁, hstart, -, he₁, hcomplete⟩ :=
    @alertUntouched_skipped_iff loudSlots s 0 (collectedAt 50 1) impatientTask _ he rfl htask hskip
  obtain ⟨s₃, hs₃, hiff⟩ := hcomplete s₁ 0 he₁
  rw [hstart, Option.map_some, Option.some.injEq, decide_eq_true_eq] at hnothing
  exact ⟨s, s₁, s₃, hs, hstart, hs₃, hiff.mpr hnothing⟩

/-- **A restart resolves a firing alert.** The execution after the restart
invokes nothing, and three sinks are told that the alert is over. -/
theorem not_alertUntouched_of_restart :
    ∃ s s₁ s₃, restartedAfter (acts (ticksAt [10]
          ++ [.start 0, .finish 0 ⟨1, 0, true⟩, .complete 0])) = some s
      ∧ s.wheel.runTaskCheck 0 impatientTask.copyTaskInfo
        = some (.wrap "task a" .contextCanceled)
      ∧ step loudSlots s (.start 0) = some s₁ ∧ s₁.invoked = s.invoked
      ∧ step loudSlots s₁ (.complete 0) = some s₃
      ∧ (s₁.wheel.heap 0).alertState = .firing ∧ (s₃.wheel.heap 0).alertState = .resolved
      ∧ s₃.wheel.alertEvents.length = s₁.wheel.alertEvents.length + 3
      ∧ ¬ AlertUntouched 0 s₁.wheel s₃.wheel := by
  have hrun : ((restartedAfter (acts (ticksAt [10]
        ++ [.start 0, .finish 0 ⟨1, 0, true⟩, .complete 0]))).bind (fun s =>
          (step loudSlots s (.start 0)).bind (fun s₁ =>
            (step loudSlots s₁ (.complete 0)).map (fun s₃ =>
              (s.wheel.runTaskCheck 0 impatientTask.copyTaskInfo,
                decide (s₁.invoked = s.invoked), (s₁.wheel.heap 0).alertState,
                (s₃.wheel.heap 0).alertState,
                decide (s₃.wheel.alertEvents.length = s₁.wheel.alertEvents.length + 3))))))
      = some (some (.wrap "task a" .contextCanceled), true, .firing, .resolved, true) := by
    decide +kernel
  obtain ⟨s, hs, hrun⟩ := Option.bind_eq_some_iff.mp hrun
  obtain ⟨s₁, hs₁, hrun⟩ := Option.bind_eq_some_iff.mp hrun
  obtain ⟨s₃, hs₃, hvalues⟩ := Option.map_eq_some_iff.mp hrun
  simp only [Prod.mk.injEq] at hvalues
  obtain ⟨hskip, hinvoked, hfiring, hresolved, hevents⟩ := hvalues
  refine ⟨s, s₁, s₃, hs, hskip, hs₁, of_decide_eq_true hinvoked, hs₃, hfiring, hresolved,
    of_decide_eq_true hevents, fun h => ?_⟩
  have hsame := h.alertState
  rw [hfiring, hresolved] at hsame
  exact AlertState.noConfusion hsame

end Timewheel
