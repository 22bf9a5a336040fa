import Timewheel.Lib.Run
import Timewheel.Notifications

/-!
# The sinks of an alert

What `handleAlertStateLocked` has to tell it tells three times: to the history
manager, to the `HistoryStore`, and to the callback. It has two branches that
tell something, one for a change of the state and one for an alert that is
repeated, and the second one leaves the store out. Nor does the record that the
first one makes for the store carry the labels and annotations of the task.

So the sinks agree on a sequence of evaluations exactly when no alert is
repeated in it, and the task has neither labels nor annotations to miss if its
state ever changes (`sinksAgree_iff`).

An evaluation tells each sink one thing or nothing, and there are three cases
of this (`Told`). Two of them show a difference between the sinks, so the
condition excludes one of the two and asks for an unlabelled task in the
other.
-/

namespace Timewheel

/-! ## What is expected -/

/-- What a sink is told. This is what all three of them have in common. -/
structure SinkEvent where
  taskID : String
  oldState : AlertState
  newState : AlertState
  value : UInt64
  threshold : UInt64
  deriving DecidableEq, Repr

/-- What a sink that keeps a history is told besides. Labels and annotations are
what their maps have entries of: an empty text has none, like a nil map. The
callback is not given them. -/
structure HistoryEvent extends SinkEvent where
  severity : Severity
  labels : List (String × String)
  annotations : List (String × String)
  deriving DecidableEq, Repr

namespace AlertEvent

/-- What `historyManager.Record` is told. The other events are not for the
manager. -/
def recorded : AlertEvent → Option HistoryEvent
  | .managerRecord taskID oldState newState result severity labels annotations =>
    some ⟨⟨taskID, oldState, newState, result.value, result.threshold⟩, severity, labels.getD [],
      annotations.getD []⟩
  | .storeRecord _ => none
  | .stateChange _ _ _ _ => none

/-- What `historyStore.Record` is told. The record has the texts for labels and
annotations that it was made with, which are empty. -/
def stored : AlertEvent → Option HistoryEvent
  | .managerRecord _ _ _ _ _ _ _ => none
  | .storeRecord record =>
    some ⟨⟨record.taskID, record.oldState, record.state, record.value, record.threshold⟩,
      record.severity, [], []⟩
  | .stateChange _ _ _ _ => none

/-- What `onAlertStateChange` is told. -/
def notified : AlertEvent → Option SinkEvent
  | .managerRecord _ _ _ _ _ _ _ => none
  | .storeRecord _ => none
  | .stateChange taskID oldState newState result =>
    some ⟨taskID, oldState, newState, result.value, result.threshold⟩

end AlertEvent

/-- **The sinks agree**: the store is told what the manager is told, and so is
the callback as far as it goes. Both as sequences, so order and number count. -/
structure SinksAgree (events : List AlertEvent) : Prop where
  stored : events.filterMap AlertEvent.stored = events.filterMap AlertEvent.recorded
  notified : events.filterMap AlertEvent.notified
    = (events.filterMap AlertEvent.recorded).map HistoryEvent.toSinkEvent

/-- All three sinks. -/
def allSinks : AlertSinks := ⟨true, true, true⟩

/-- One evaluation, as a step of the node. Every evaluation is possible. -/
def evaluate (taskInfo : TaskInfo) (node : TaskSlot) (e : Evaluation) : Option TaskSlot :=
  some (handleAlertStateLocked allSinks node taskInfo e.result e.now).node

/-- The calls of the sinks in a sequence of evaluations. In the order in which
they are made. -/
def eventsOf (taskInfo : TaskInfo) : TaskSlot → List Evaluation → List AlertEvent
  | _, [] => []
  | node, e :: evs =>
    let o := handleAlertStateLocked allSinks node taskInfo e.result e.now
    o.events ++ eventsOf taskInfo o.node evs

/-- The evaluation changes the state of the alert. By the state machine alone. -/
def ChangesState (taskInfo : TaskInfo) (node : TaskSlot) (e : Evaluation) : Prop :=
  node.alertState ≠ (node.computeAlertState e.result.isFiring taskInfo.forDuration e.now).2

/-- **The evaluation repeats the alert**: it fires before and it fires now, and
the interval is over. This is the test of the second branch. -/
def RepeatsAlert (taskInfo : TaskInfo) (node : TaskSlot) (e : Evaluation) : Prop :=
  node.alertState = .firing ∧ e.result.isFiring = true ∧ 0 < taskInfo.repeatInterval
    ∧ node.lastFiredAt ≠ Time.zero ∧ taskInfo.repeatInterval ≤ e.now.sub node.lastFiredAt

/-- The task has neither labels nor annotations. A nil map and an empty one are
the same here. -/
def Unlabelled (taskInfo : TaskInfo) : Prop :=
  taskInfo.labels.getD [] = [] ∧ taskInfo.annotations.getD [] = []

instance (taskInfo : TaskInfo) (node : TaskSlot) (e : Evaluation) :
    Decidable (ChangesState taskInfo node e) := inferInstanceAs (Decidable (_ ≠ _))

instance (taskInfo : TaskInfo) (node : TaskSlot) (e : Evaluation) :
    Decidable (RepeatsAlert taskInfo node e) := inferInstanceAs (Decidable (_ ∧ _))

instance (taskInfo : TaskInfo) : Decidable (Unlabelled taskInfo) :=
  inferInstanceAs (Decidable (_ ∧ _))

/-! ## One evaluation -/

section Evaluations

variable {taskInfo : TaskInfo} {node : TaskSlot} {e : Evaluation} {evs : List Evaluation}

/-- **What an evaluation tells the sinks.** The cases are the two branches of
the code and neither of them. -/
inductive Told (taskInfo : TaskInfo) (node : TaskSlot) (e : Evaluation)
    (events : List AlertEvent) : Prop where
  | changed (v : HistoryEvent) (changes : ChangesState taskInfo node e)
      (labels : v.labels = taskInfo.labels.getD [])
      (annotations : v.annotations = taskInfo.annotations.getD [])
      (recorded : events.filterMap AlertEvent.recorded = [v])
      (stored : events.filterMap AlertEvent.stored = [{ v with labels := [], annotations := [] }])
      (notified : events.filterMap AlertEvent.notified = [v.toSinkEvent])
  | repeated (v : HistoryEvent) (repeats : RepeatsAlert taskInfo node e)
      (recorded : events.filterMap AlertEvent.recorded = [v])
      (stored : events.filterMap AlertEvent.stored = [])
      (notified : events.filterMap AlertEvent.notified = [v.toSinkEvent])
  | nothing (same : ¬ ChangesState taskInfo node e) (quiet : ¬ RepeatsAlert taskInfo node e)
      (events_eq : events = [])

/-- An alert that fires goes on firing exactly while its condition holds.
Otherwise it is resolved. -/
theorem TaskSlot.computeAlertState_of_alertState_firing (node : TaskSlot) (isFiring : Bool)
    (forDuration : Duration) (now : Time) (h : node.alertState = .firing) :
    (node.computeAlertState isFiring forDuration now).2 = .firing ↔ isFiring = true := by
  unfold TaskSlot.computeAlertState
  rw [if_pos h, if_pos h]
  cases isFiring with
  | true => exact ⟨fun _ => rfl, fun _ => rfl⟩
  | false => exact ⟨fun heq => (nomatch heq), fun heq => (nomatch heq)⟩

/-- **One evaluation** of a node with a task, with all sinks set. -/
theorem told_handleAlertStateLocked (htask : node.task ≠ none) :
    Told taskInfo node e
      (handleAlertStateLocked allSinks node taskInfo e.result e.now).events := by
  have hlast := node.lastFiredAt_computeAlertState_of_firing e.result.isFiring
    taskInfo.forDuration e.now
  have hfires := node.computeAlertState_of_alertState_firing e.result.isFiring
    taskInfo.forDuration e.now
  have hchanges : ChangesState taskInfo node e ↔ node.alertState
      ≠ (node.computeAlertState e.result.isFiring taskInfo.forDuration e.now).2 := Iff.rfl
  unfold handleAlertStateLocked
  rw [if_neg htask]
  generalize node.computeAlertState e.result.isFiring taskInfo.forDuration e.now = c
    at hlast hfires hchanges ⊢
  obtain ⟨computed, newState⟩ := c
  dsimp only at hlast hfires hchanges ⊢
  -- the state stays: a repeat that is due is told to two of the three sinks
  by_cases hsame : node.alertState = newState
  · have hnot : ¬ ChangesState taskInfo node e := fun h => hchanges.mp h hsame
    rw [if_neg (not_not.mpr hsame)]
    by_cases hrepeat : newState = .firing ∧ taskInfo.repeatInterval > 0
    · have hold : node.alertState = .firing := hsame.trans hrepeat.1
      rw [if_pos hrepeat, hlast hold]
      by_cases hdue : node.lastFiredAt.isZero = false
          ∧ e.now.sub node.lastFiredAt ≥ taskInfo.repeatInterval
      · rw [if_pos hdue]
        refine .repeated _ ⟨hold, (hfires hold).mp hrepeat.1, hrepeat.2, ?_, hdue.2⟩ rfl rfl rfl
        simpa [Time.isZero] using hdue.1
      · rw [if_neg hdue]
        refine .nothing hnot (fun h => hdue ⟨?_, h.2.2.2.2⟩) rfl
        simpa [Time.isZero] using h.2.2.2.1
    · rw [if_neg hrepeat]
      refine .nothing hnot (fun h => hrepeat ⟨(hfires h.1).mpr h.2.1, h.2.2.1⟩) rfl
  · rw [if_pos hsame]
    -- the state changes, and each of the three sinks is told
    have hchanges := hchanges.mpr hsame
    by_cases hrepeat : newState = .firing ∧ taskInfo.repeatInterval > 0
    · rw [if_pos hrepeat]
      exact .changed _ hchanges rfl rfl rfl rfl rfl
    · rw [if_neg hrepeat]
      by_cases hfiring : newState = .firing
      · rw [if_pos hfiring]
        exact .changed _ hchanges rfl rfl rfl rfl rfl
      · rw [if_neg hfiring]
        exact .changed _ hchanges rfl rfl rfl rfl rfl

/-- An alert that is repeated keeps its state. So the two branches exclude each
other. -/
theorem RepeatsAlert.not_changesState (h : RepeatsAlert taskInfo node e) :
    ¬ ChangesState taskInfo node e := by
  intro hchanges
  have hfires := (node.computeAlertState_of_alertState_firing e.result.isFiring
    taskInfo.forDuration e.now h.1).mpr h.2.1
  exact hchanges (h.1.trans hfires.symm)

/-! ## Sequences of evaluations -/

/-- The first evaluation, and then the others. -/
theorem eventsOf_cons :
    eventsOf taskInfo node (e :: evs)
      = (handleAlertStateLocked allSinks node taskInfo e.result e.now).events
        ++ eventsOf taskInfo
          (handleAlertStateLocked allSinks node taskInfo e.result e.now).node evs :=
  rfl

/-- The node keeps its task in between. -/
theorem task_of_evaluation (htask : node.task ≠ none) :
    (handleAlertStateLocked allSinks node taskInfo e.result e.now).node.task ≠ none :=
  (task_handleAlertStateLocked allSinks node taskInfo e.result e.now).trans_ne htask

/-- The callback is told what the manager is told. In both branches. -/
theorem notified_eventsOf (htask : node.task ≠ none) :
    (eventsOf taskInfo node evs).filterMap AlertEvent.notified
      = ((eventsOf taskInfo node evs).filterMap AlertEvent.recorded).map
          HistoryEvent.toSinkEvent := by
  induction evs generalizing node with
  | nil => rfl
  | cons e evs ih =>
    have hrest := ih (@task_of_evaluation taskInfo node e htask)
    rw [eventsOf_cons, List.filterMap_append, List.filterMap_append, List.map_append, hrest]
    congr 1
    cases @told_handleAlertStateLocked taskInfo node e htask with
    | changed v changes labels annotations recorded stored notified => rw [notified, recorded]; rfl
    | repeated v repeats recorded stored notified => rw [notified, recorded]; rfl
    | nothing same quiet events_eq => rw [events_eq]; rfl

/-- The store is told no more often than the manager. Each evaluation tells it
at most what it tells the manager. -/
theorem length_stored_le (htask : node.task ≠ none) :
    ((eventsOf taskInfo node evs).filterMap AlertEvent.stored).length
      ≤ ((eventsOf taskInfo node evs).filterMap AlertEvent.recorded).length := by
  induction evs generalizing node with
  | nil => exact le_refl _
  | cons e evs ih =>
    have hrest := ih (@task_of_evaluation taskInfo node e htask)
    rw [eventsOf_cons, List.filterMap_append, List.filterMap_append, List.length_append,
      List.length_append]
    refine Nat.add_le_add ?_ hrest
    cases @told_handleAlertStateLocked taskInfo node e htask with
    | changed v changes labels annotations recorded stored notified => rw [stored, recorded]; rfl
    | repeated v repeats recorded stored notified => rw [stored, recorded]; exact Nat.zero_le _
    | nothing same quiet events_eq => rw [events_eq]; rfl

/-- The store is told what the manager is told exactly when nothing is repeated,
and nothing is missing in the records. The lengths decide: once something is
missing, nothing later can make up for it. -/
theorem stored_eq_recorded_iff (htask : node.task ≠ none) :
    (eventsOf taskInfo node evs).filterMap AlertEvent.stored
        = (eventsOf taskInfo node evs).filterMap AlertEvent.recorded
      ↔ Machine.Each (evaluate taskInfo) (fun node e _ => ¬ RepeatsAlert taskInfo node e
          ∧ (ChangesState taskInfo node e → Unlabelled taskInfo)) node evs := by
  induction evs generalizing node with
  | nil => exact ⟨fun _ => trivial, fun _ => rfl⟩
  | cons e evs ih =>
    have htask' := @task_of_evaluation taskInfo node e htask
    have hle := @length_stored_le taskInfo _ evs htask'
    have hstep : Machine.Each (evaluate taskInfo) (fun node e _ => ¬ RepeatsAlert taskInfo node e
          ∧ (ChangesState taskInfo node e → Unlabelled taskInfo)) node (e :: evs)
        ↔ (¬ RepeatsAlert taskInfo node e ∧ (ChangesState taskInfo node e → Unlabelled taskInfo))
          ∧ Machine.Each (evaluate taskInfo) (fun node e _ => ¬ RepeatsAlert taskInfo node e
            ∧ (ChangesState taskInfo node e → Unlabelled taskInfo))
            (handleAlertStateLocked allSinks node taskInfo e.result e.now).node evs :=
      ⟨fun h => h _ rfl, fun h s' hs' => Option.some.inj hs' ▸ h⟩
    rw [hstep, ← ih htask', eventsOf_cons, List.filterMap_append, List.filterMap_append]
    cases @told_handleAlertStateLocked taskInfo node e htask with
    | changed v changes labels annotations recorded stored notified =>
      have hquiet : ¬ RepeatsAlert taskInfo node e := fun h => h.not_changesState changes
      have hlabels : ({ v with labels := [], annotations := [] } : HistoryEvent) = v
          ↔ Unlabelled taskInfo := by
        unfold Unlabelled
        rw [← labels, ← annotations]
        obtain ⟨ev, severity, l, a⟩ := v
        rw [HistoryEvent.mk.injEq]
        exact ⟨fun h => ⟨h.2.2.1.symm, h.2.2.2.symm⟩, fun h => ⟨rfl, rfl, h.1.symm, h.2.symm⟩⟩
      rw [recorded, stored, List.singleton_append, List.singleton_append, List.cons_eq_cons,
        hlabels]
      exact and_congr_left (fun _ => ⟨fun h => ⟨hquiet, fun _ => h⟩, fun h => h.2 changes⟩)
    | repeated v repeats recorded stored notified =>
      rw [recorded, stored, List.nil_append, List.singleton_append]
      constructor
      · intro h
        have hlength := congrArg List.length h
        rw [List.length_cons] at hlength
        omega
      · exact fun h => absurd repeats h.1.1
    | nothing same quiet events_eq =>
      rw [events_eq]
      exact (and_iff_right ⟨quiet, fun h => absurd h same⟩).symm

/-- **The sinks of an alert agree** on a sequence of evaluations of a task
exactly when none of them repeats the alert, and none changes the state of a
task with labels or annotations. For the callback there is no condition, so the
one for the store is that of all three. -/
theorem sinksAgree_iff (taskInfo : TaskInfo) {node : TaskSlot} (htask : node.task ≠ none)
    (evs : List Evaluation) :
    SinksAgree (eventsOf taskInfo node evs)
      ↔ Machine.Each (evaluate taskInfo) (fun node e _ => ¬ RepeatsAlert taskInfo node e
          ∧ (ChangesState taskInfo node e → Unlabelled taskInfo)) node evs := by
  rw [← stored_eq_recorded_iff htask]
  exact ⟨fun h => h.stored, fun h => ⟨h, notified_eventsOf htask⟩⟩

/-- A task without labels, whose alert fires and is resolved. -/
theorem sinksAgree_of_resolved :
    SinksAgree (eventsOf
      { (Task.plain "a" .repeated Duration.millisecond).copyTaskInfo with repeatInterval := 20 }
      { TaskSlot.zero with task := some (Task.plain "a" .repeated Duration.millisecond) }
      [⟨⟨3, 2, true⟩, 10⟩, ⟨⟨3, 2, true⟩, 20⟩, ⟨⟨1, 2, false⟩, 30⟩, ⟨⟨3, 2, true⟩, 40⟩]) :=
  (sinksAgree_iff _ (Option.some_ne_none _) _).mpr (by decide)

/-- **An alert that is repeated**: it fires at 10 and again at 30, and the store
is told once. -/
theorem not_sinksAgree_of_repeat :
    ¬ SinksAgree (eventsOf
      { (Task.plain "a" .repeated Duration.millisecond).copyTaskInfo with repeatInterval := 20 }
      { TaskSlot.zero with task := some (Task.plain "a" .repeated Duration.millisecond) }
      [⟨⟨3, 2, true⟩, 10⟩, ⟨⟨3, 2, true⟩, 30⟩]) :=
  fun h => absurd h.stored (by decide)

end Evaluations

end Timewheel
