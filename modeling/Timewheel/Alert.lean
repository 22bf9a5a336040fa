import Timewheel.Types

/-!
# The alert state machine

After an execution the scheduler evaluates the alert of the task:
`computeAlertState` moves the node between `Pending`, `Firing` and
`Resolved`, and `handleAlertStateLocked` reports the change to the sinks
that are configured and repeats the notification of an alert that keeps
firing.

The node keeps three fields – the last state, `pendingSince` and
`lastFiredAt` – while what the state *means* is a property of the whole
history: the alert fires when the condition has held without interruption
for the duration `For`. The two meet in `Streak`, the invariant that says
how the fields of the node read the current uninterrupted run of firing
evaluations, and `alertState_after_evaluations` is the meaning read off it.
-/

namespace Timewheel

/-! ## The code -/

/-- The sinks a wheel is configured with. -/
structure AlertSinks where
  historyManager : Bool
  historyStore : Bool
  onAlertStateChange : Bool
  deriving DecidableEq, Repr

/-- `AlertHistory`, as `handleAlertStateLocked` fills it. -/
structure AlertHistory where
  taskID : String
  oldState : AlertState
  state : AlertState
  timestamp : Time
  value : UInt64
  threshold : UInt64
  isFiring : Bool
  severity : Severity
  deriving DecidableEq, Repr

/-- A call to one of the sinks. -/
inductive AlertEvent where
  | managerRecord (taskID : String) (oldState newState : AlertState) (result : AlarmResult)
      (severity : Severity) (labels annotations : StringMap)
  | storeRecord (record : AlertHistory)
  | stateChange (taskID : String) (oldState newState : AlertState) (result : AlarmResult)
  deriving DecidableEq, Repr

/-- `computeAlertState`: the node with its `pendingSince` and `lastFiredAt`
brought up to date, and the new state. The caller stores the state. -/
def TaskSlot.computeAlertState (ts : TaskSlot) (isFiring : Bool) (forDuration : Duration)
    (now : Time) : TaskSlot × AlertState :=
  if isFiring then
    if ts.alertState = .firing then (ts, .firing)
    else if forDuration ≤ 0 then
      ({ ts with lastFiredAt := now, pendingSince := Time.zero }, .firing)
    else if ts.pendingSince.isZero then ({ ts with pendingSince := now }, .pending)
    else if now.sub ts.pendingSince ≥ forDuration then
      ({ ts with lastFiredAt := now, pendingSince := Time.zero }, .firing)
    else (ts, .pending)
  else if ts.alertState = .firing then ({ ts with pendingSince := Time.zero }, .resolved)
  else ({ ts with pendingSince := Time.zero }, .pending)

/-- What `handleAlertStateLocked` does: the node it leaves, the sinks it
calls, in order, and what it adds to `totalAlertsFired`. -/
structure AlertOutcome where
  node : TaskSlot
  events : List AlertEvent
  fired : ℕ
  deriving DecidableEq, Repr

/-- `handleAlertStateLocked`. -/
def handleAlertStateLocked (sinks : AlertSinks) (node : TaskSlot) (taskInfo : TaskInfo)
    (result : AlarmResult) (now : Time) : AlertOutcome :=
  -- the task was removed while the lock was being acquired
  if node.task = none then ⟨node, [], 0⟩
  else
    let oldState := node.alertState
    let (computed, newState) := node.computeAlertState result.isFiring taskInfo.forDuration now
    let node := { computed with alertState := newState }
    let manager := AlertEvent.managerRecord taskInfo.id oldState newState result
      taskInfo.severity taskInfo.labels taskInfo.annotations
    let store := AlertEvent.storeRecord
      { taskID := taskInfo.id, oldState := oldState, state := newState, timestamp := now,
        value := result.value, threshold := result.threshold, isFiring := result.isFiring,
        severity := taskInfo.severity }
    let callback := AlertEvent.stateChange taskInfo.id oldState newState result
    if oldState ≠ newState then
      let events := (if sinks.historyManager then [manager] else [])
        ++ (if sinks.historyStore then [store] else [])
        ++ (if sinks.onAlertStateChange then [callback] else [])
      if newState = .firing ∧ taskInfo.repeatInterval > 0 then
        ⟨{ node with lastFiredAt := now }, events, 1⟩
      else if newState = .firing then ⟨node, events, 1⟩
      else ⟨node, events, 0⟩
    else if newState = .firing ∧ taskInfo.repeatInterval > 0 then
      if node.lastFiredAt.isZero = false
          ∧ now.sub node.lastFiredAt ≥ taskInfo.repeatInterval then
        -- the repeated alert goes to the manager and the callback only
        ⟨{ node with lastFiredAt := now },
          (if sinks.historyManager then [manager] else [])
            ++ (if sinks.onAlertStateChange then [callback] else []), 1⟩
      else ⟨node, [], 0⟩
    else ⟨node, [], 0⟩

/-! ## What one evaluation changes

Only the three alert fields of the node are written, and the state left is
the computed one. -/

/-- The node left by `computeAlertState` differs in `pendingSince` and
`lastFiredAt` at most. -/
theorem TaskSlot.computeAlertState_frame (ts : TaskSlot) (isFiring : Bool)
    (forDuration : Duration) (now : Time) :
    ∃ p l, (ts.computeAlertState isFiring forDuration now).1
      = { ts with pendingSince := p, lastFiredAt := l } := by
  unfold TaskSlot.computeAlertState
  split_ifs
  all_goals exact ⟨_, _, rfl⟩

/-- A condition that does not hold: `Resolved` after `Firing`, else
`Pending`, and nothing is pending. -/
theorem TaskSlot.computeAlertState_of_not_firing (ts : TaskSlot) (forDuration : Duration)
    (now : Time) :
    ts.computeAlertState false forDuration now
      = ({ ts with pendingSince := Time.zero },
        if ts.alertState = .firing then .resolved else .pending) := by
  unfold TaskSlot.computeAlertState
  rw [if_neg Bool.false_ne_true]
  split_ifs
  all_goals rfl

/-- A condition that holds does not resolve the alert. -/
theorem TaskSlot.computeAlertState_of_firing (ts : TaskSlot) (forDuration : Duration)
    (now : Time) : (ts.computeAlertState true forDuration now).2 ≠ .resolved := by
  unfold TaskSlot.computeAlertState
  rw [if_pos rfl]
  split_ifs
  all_goals exact fun h => AlertState.noConfusion h

/-- **The frame of an evaluation**: it writes the alert fields of the node
and nothing else. -/
theorem handleAlertStateLocked_frame (sinks : AlertSinks) (node : TaskSlot)
    (taskInfo : TaskInfo) (result : AlarmResult) (now : Time) :
    ∃ s p l, (handleAlertStateLocked sinks node taskInfo result now).node
      = { node with alertState := s, pendingSince := p, lastFiredAt := l } := by
  obtain ⟨p, l, h⟩ := node.computeAlertState_frame result.isFiring taskInfo.forDuration now
  unfold handleAlertStateLocked
  dsimp only
  rw [h]
  split_ifs
  all_goals exact ⟨_, _, _, rfl⟩

/-- The state an evaluation leaves is the computed one. -/
theorem alertState_handleAlertStateLocked (sinks : AlertSinks) {node : TaskSlot}
    (htask : node.task ≠ none) (taskInfo : TaskInfo) (result : AlarmResult) (now : Time) :
    (handleAlertStateLocked sinks node taskInfo result now).node.alertState
      = (node.computeAlertState result.isFiring taskInfo.forDuration now).2 := by
  unfold handleAlertStateLocked
  rw [if_neg htask]
  dsimp only
  split_ifs
  all_goals rfl

/-- The `pendingSince` an evaluation leaves is the computed one. -/
theorem pendingSince_handleAlertStateLocked (sinks : AlertSinks) {node : TaskSlot}
    (htask : node.task ≠ none) (taskInfo : TaskInfo) (result : AlarmResult) (now : Time) :
    (handleAlertStateLocked sinks node taskInfo result now).node.pendingSince
      = (node.computeAlertState result.isFiring taskInfo.forDuration now).1.pendingSince := by
  unfold handleAlertStateLocked
  rw [if_neg htask]
  dsimp only
  split_ifs
  all_goals rfl

/-- An evaluation does not take the task out of the node. -/
theorem task_handleAlertStateLocked (sinks : AlertSinks) (node : TaskSlot)
    (taskInfo : TaskInfo) (result : AlarmResult) (now : Time) :
    (handleAlertStateLocked sinks node taskInfo result now).node.task = node.task := by
  obtain ⟨s, p, l, h⟩ := handleAlertStateLocked_frame sinks node taskInfo result now
  rw [h]

/-! ## Sequences of evaluations -/

/-- One evaluation: what the task returned, and when. -/
structure Evaluation where
  result : AlarmResult
  now : Time
  deriving DecidableEq, Repr

/-- A node whose alert has not been evaluated yet, as `AddTask` leaves it. -/
structure TaskSlot.Fresh (node : TaskSlot) : Prop where
  task : node.task ≠ none
  alertState : node.alertState = .pending
  pendingSince : node.pendingSince = Time.zero
  lastFiredAt : node.lastFiredAt = Time.zero

/-- The node after a sequence of evaluations. -/
def evaluateAll (sinks : AlertSinks) (taskInfo : TaskInfo) (node : TaskSlot)
    (evs : List Evaluation) : TaskSlot :=
  evs.foldl (fun n e => (handleAlertStateLocked sinks n taskInfo e.result e.now).node) node

/-- Whether the condition held at the `i`-th evaluation. -/
def firingAt (evs : List Evaluation) (i : ℕ) : Bool :=
  (evs[i]?).any (fun e => e.result.isFiring)

/-- The time of the `i`-th evaluation. -/
def nowAt (evs : List Evaluation) (i : ℕ) : Time :=
  (evs[i]?).elim Time.zero Evaluation.now

/-- `j` is the first index of the maximal run of consecutive firing
evaluations that ends at `k`. -/
structure StreakStart (evs : List Evaluation) (j k : ℕ) : Prop where
  le : j ≤ k
  firing : ∀ i, j ≤ i → i ≤ k → firingAt evs i = true
  first : j = 0 ∨ firingAt evs (j - 1) = false

/-- A firing evaluation after one that did not fire starts a streak. -/
theorem StreakStart.start {evs : List Evaluation} {k : ℕ} (hk : firingAt evs k = true)
    (hprev : k = 0 ∨ firingAt evs (k - 1) = false) : StreakStart evs k k where
  le := le_refl k
  firing := fun i h₁ h₂ => by rwa [le_antisymm h₂ h₁]
  first := hprev

/-- A firing evaluation continues the streak of the evaluation before it. -/
theorem StreakStart.extend {evs : List Evaluation} {j k : ℕ} (h : StreakStart evs j k)
    (hk : firingAt evs (k + 1) = true) : StreakStart evs j (k + 1) where
  le := Nat.le_succ_of_le h.le
  firing := fun i h₁ h₂ => by
    rcases Nat.lt_or_eq_of_le h₂ with h₂ | rfl
    · exact h.firing i h₁ (Nat.lt_succ_iff.mp h₂)
    · exact hk
  first := h.first

/-- A streak has one start. -/
theorem StreakStart.unique {evs : List Evaluation} {i j k : ℕ} (hi : StreakStart evs i k)
    (hj : StreakStart evs j k) : i = j := by
  have key : ∀ {a b : ℕ}, StreakStart evs a k → StreakStart evs b k → a ≤ b := by
    intro a b ha hb
    by_contra hlt
    rcases ha.first with h0 | hf
    · omega
    · have hle := ha.le
      rw [hb.firing (a - 1) (by omega) (by omega)] at hf
      exact Bool.noConfusion hf
  exact le_antisymm (key hi hj) (key hj hi)

/-! ## The fields read the streak -/

/-- **How the fields of the node read the history**, after the evaluations up
to `k`. In a streak that started at `j` the node either fires, and the
streak has lasted `For`, or it is pending since `now_j` and has not. Outside
a streak nothing is pending. -/
inductive Streak (forDuration : Duration) (evs : List Evaluation) (k : ℕ)
    (node : TaskSlot) : Prop where
  | firing (j : ℕ) (start : StreakStart evs j k) (state : node.alertState = .firing)
      (since : node.pendingSince = Time.zero)
      (lasted : forDuration ≤ 0 ∨ forDuration ≤ (nowAt evs k).sub (nowAt evs j))
  | pending (j : ℕ) (start : StreakStart evs j k) (state : node.alertState = .pending)
      (since : node.pendingSince = nowAt evs j) (positive : 0 < forDuration)
      (short : (nowAt evs k).sub (nowAt evs j) < forDuration)
  | idle (none : firingAt evs k = false) (state : node.alertState ≠ .firing)
      (since : node.pendingSince = Time.zero)

variable {forDuration : Duration} {evs : List Evaluation} {k : ℕ} {node : TaskSlot}

/-- Under the invariant the node fires exactly when the streak has
lasted. -/
theorem Streak.firing_iff (h : Streak forDuration evs k node) :
    node.alertState = .firing
      ↔ firingAt evs k = true
        ∧ (forDuration ≤ 0
          ∨ ∃ j, StreakStart evs j k
            ∧ forDuration ≤ (nowAt evs k).sub (nowAt evs j)) := by
  cases h with
  | firing j start state since lasted =>
    exact ⟨fun _ => ⟨start.firing k start.le (le_refl k),
      lasted.imp_right (fun h => ⟨j, start, h⟩)⟩, fun _ => state⟩
  | pending j start state since positive short =>
    refine ⟨fun h => absurd h (by rw [state]; decide), fun ⟨_, h⟩ => ?_⟩
    rcases h with h | ⟨i, hi, h⟩
    · exact absurd h (not_le.mpr positive)
    · rw [hi.unique start] at h
      exact absurd h (not_le.mpr short)
  | idle none state since =>
    exact ⟨fun h => absurd h state, fun h => absurd h.1 (by rw [none]; decide)⟩

/-- A condition that does not hold ends the streak. -/
theorem streak_of_not_firing {taskInfo : TaskInfo} {sinks : AlertSinks} {result : AlarmResult}
    {now : Time} (htask : node.task ≠ none) (hresult : result.isFiring = false)
    (hk : firingAt evs k = false) :
    Streak forDuration evs k (handleAlertStateLocked sinks node taskInfo result now).node := by
  refine Streak.idle hk ?_ ?_
  · rw [alertState_handleAlertStateLocked sinks htask, hresult,
      TaskSlot.computeAlertState_of_not_firing]
    split_ifs
    all_goals exact fun h => AlertState.noConfusion h
  · rw [pendingSince_handleAlertStateLocked sinks htask, hresult,
      TaskSlot.computeAlertState_of_not_firing]

/-- A condition that starts to hold starts a streak: it fires at once
without a duration, and is pending since now with one. -/
theorem streak_of_start {taskInfo : TaskInfo} {sinks : AlertSinks} {result : AlarmResult}
    (htask : node.task ≠ none) (hresult : result.isFiring = true)
    (hstate : node.alertState ≠ .firing) (hsince : node.pendingSince = Time.zero)
    (hstart : StreakStart evs k k) :
    Streak taskInfo.forDuration evs k
      (handleAlertStateLocked sinks node taskInfo result (nowAt evs k)).node := by
  have hzero : node.pendingSince.isZero = true := by rw [hsince]; rfl
  by_cases hfor : taskInfo.forDuration ≤ 0
  · refine Streak.firing k hstart ?_ ?_ (Or.inl hfor)
    · rw [alertState_handleAlertStateLocked sinks htask, hresult]
      simp [TaskSlot.computeAlertState, hstate, hfor]
    · rw [pendingSince_handleAlertStateLocked sinks htask, hresult]
      simp [TaskSlot.computeAlertState, hstate, hfor]
  · refine Streak.pending k hstart ?_ ?_ (not_le.mp hfor) ?_
    · rw [alertState_handleAlertStateLocked sinks htask, hresult]
      simp [TaskSlot.computeAlertState, hstate, hfor, hzero]
    · rw [pendingSince_handleAlertStateLocked sinks htask, hresult]
      simp [TaskSlot.computeAlertState, hstate, hfor, hzero]
    · rw [show (nowAt evs k).sub (nowAt evs k) = 0 from sub_self _]
      exact not_le.mp hfor

/-- **One evaluation keeps the invariant.** -/
theorem Streak.step {taskInfo : TaskInfo} {sinks : AlertSinks} {result : AlarmResult}
    (h : Streak taskInfo.forDuration evs k node) (htask : node.task ≠ none)
    (hresult : firingAt evs (k + 1) = result.isFiring)
    (hpos : ∀ i ≤ k, nowAt evs i ≠ 0) (hmono : nowAt evs k ≤ nowAt evs (k + 1)) :
    Streak taskInfo.forDuration evs (k + 1)
      (handleAlertStateLocked sinks node taskInfo result (nowAt evs (k + 1))).node := by
  cases hf : result.isFiring with
  | false => exact streak_of_not_firing htask hf (hresult.trans hf)
  | true =>
    have hk : firingAt evs (k + 1) = true := hresult.trans hf
    cases h with
    | idle none state since =>
      exact streak_of_start htask hf state since (StreakStart.start hk (Or.inr none))
    | firing j start state since lasted =>
      refine Streak.firing j (start.extend hk) ?_ ?_ (lasted.imp_right (fun h => ?_))
      · rw [alertState_handleAlertStateLocked sinks htask, hf]
        simp [TaskSlot.computeAlertState, state]
      · rw [pendingSince_handleAlertStateLocked sinks htask, hf]
        simp [TaskSlot.computeAlertState, state, since]
      · -- the streak only gets longer
        unfold Time.sub at h ⊢
        lia
    | pending j start state since positive short =>
      have hfor : ¬ taskInfo.forDuration ≤ 0 := not_le.mpr positive
      have hst : node.alertState ≠ .firing := by rw [state]; decide
      by_cases hlast : taskInfo.forDuration ≤ (nowAt evs (k + 1)).sub (nowAt evs j)
      · refine Streak.firing j (start.extend hk) ?_ ?_ (Or.inr hlast)
        · rw [alertState_handleAlertStateLocked sinks htask, hf]
          simp [TaskSlot.computeAlertState, hst, hfor, since, hpos j start.le, hlast]
        · rw [pendingSince_handleAlertStateLocked sinks htask, hf]
          simp [TaskSlot.computeAlertState, hst, hfor, since, hpos j start.le, hlast]
      · refine Streak.pending j (start.extend hk) ?_ ?_ positive (not_le.mp hlast)
        · rw [alertState_handleAlertStateLocked sinks htask, hf]
          simp [TaskSlot.computeAlertState, hst, hfor, since, hpos j start.le, hlast]
        · rw [pendingSince_handleAlertStateLocked sinks htask, hf]
          simp [TaskSlot.computeAlertState, hst, hfor, since, hpos j start.le, hlast]

/-! ## The meaning of the state -/

/-- One more evaluation. -/
theorem evaluateAll_take_succ (sinks : AlertSinks) (taskInfo : TaskInfo) (node : TaskSlot)
    {evs : List Evaluation} {k : ℕ} (hk : k < evs.length) :
    evaluateAll sinks taskInfo node (evs.take (k + 1))
      = (handleAlertStateLocked sinks (evaluateAll sinks taskInfo node (evs.take k)) taskInfo
          evs[k].result (nowAt evs k)).node := by
  rw [evaluateAll, List.take_succ_eq_append_getElem hk, List.foldl_append]
  simp [nowAt, hk, evaluateAll]

theorem firingAt_of_lt {evs : List Evaluation} {k : ℕ} (hk : k < evs.length) :
    firingAt evs k = evs[k].result.isFiring := by
  simp [firingAt, hk]

/-- Evaluations do not take the task out of the node. -/
theorem task_evaluateAll (sinks : AlertSinks) (taskInfo : TaskInfo) (node : TaskSlot)
    (evs : List Evaluation) : (evaluateAll sinks taskInfo node evs).task = node.task := by
  induction evs generalizing node with
  | nil => rfl
  | cons e evs ih =>
    exact (ih _).trans (task_handleAlertStateLocked sinks node taskInfo e.result e.now)

/-- The times of a sequence of evaluations are ordered. -/
theorem nowAt_le_succ {evs : List Evaluation} (hmono : evs.Pairwise (fun e f => e.now ≤ f.now))
    {k : ℕ} (hk : k + 1 < evs.length) : nowAt evs k ≤ nowAt evs (k + 1) := by
  have h := List.pairwise_iff_getElem.mp hmono k (k + 1) (by omega) hk (Nat.lt_succ_self k)
  simpa [nowAt, hk, Nat.lt_of_succ_lt hk] using h

/-- **The invariant holds along every sequence of evaluations.** -/
theorem streak_evaluateAll (sinks : AlertSinks) (taskInfo : TaskInfo) {node : TaskSlot}
    (hfresh : node.Fresh) {evs : List Evaluation} (hpos : ∀ e ∈ evs, e.now ≠ Time.zero)
    (hmono : evs.Pairwise (fun e f => e.now ≤ f.now)) {k : ℕ} (hk : k < evs.length) :
    Streak taskInfo.forDuration evs k
      (evaluateAll sinks taskInfo node (evs.take (k + 1))) := by
  have htask : ∀ l, (evaluateAll sinks taskInfo node l).task ≠ none := fun l => by
    rw [task_evaluateAll]
    exact hfresh.task
  induction k with
  | zero =>
    rw [evaluateAll_take_succ sinks taskInfo node hk]
    have hstate : node.alertState ≠ .firing := by rw [hfresh.alertState]; decide
    cases hf : evs[0].result.isFiring with
    | false => exact streak_of_not_firing hfresh.task hf ((firingAt_of_lt hk).trans hf)
    | true =>
      exact streak_of_start hfresh.task hf hstate hfresh.pendingSince
        (StreakStart.start ((firingAt_of_lt hk).trans hf) (Or.inl rfl))
  | succ k ih =>
    rw [evaluateAll_take_succ sinks taskInfo node hk]
    refine (ih (by omega)).step (htask _) (firingAt_of_lt hk) (fun i hi => ?_)
      (nowAt_le_succ hmono hk)
    have hlt : i < evs.length := by omega
    have h := hpos evs[i] (List.getElem_mem hlt)
    simpa [nowAt, hlt, Time.zero] using h

/-- The alert state of a fresh node after the first `k` evaluations. -/
def stateAfter (sinks : AlertSinks) (taskInfo : TaskInfo) (node : TaskSlot)
    (evs : List Evaluation) (k : ℕ) : AlertState :=
  (evaluateAll sinks taskInfo node (evs.take k)).alertState

/-- **The alert state machine meets its specification.** After the
evaluation `k` the state is `Firing` exactly when the condition holds and
has held for the duration `For` since the start of the current streak,
`Resolved` exactly when the condition fails right after `Firing`, and
`Pending` in every other case. -/
theorem alertState_after_evaluations (sinks : AlertSinks) (taskInfo : TaskInfo)
    {node : TaskSlot} (hfresh : node.Fresh) {evs : List Evaluation}
    (hpos : ∀ e ∈ evs, e.now ≠ Time.zero)
    (hmono : evs.Pairwise (fun e f => e.now ≤ f.now)) {k : ℕ} (hk : k < evs.length) :
    let fires := firingAt evs k = true
      ∧ (taskInfo.forDuration ≤ 0
        ∨ ∃ j, StreakStart evs j k
          ∧ taskInfo.forDuration ≤ (nowAt evs k).sub (nowAt evs j))
    let resolves := firingAt evs k = false
      ∧ stateAfter sinks taskInfo node evs k = .firing
    (stateAfter sinks taskInfo node evs (k + 1) = .firing ↔ fires)
      ∧ (stateAfter sinks taskInfo node evs (k + 1) = .resolved ↔ resolves)
      ∧ (stateAfter sinks taskInfo node evs (k + 1) = .pending ↔ ¬ fires ∧ ¬ resolves) := by
  intro fires resolves
  have htask : (evaluateAll sinks taskInfo node (evs.take k)).task ≠ none := by
    rw [task_evaluateAll]
    exact hfresh.task
  have hfires : stateAfter sinks taskInfo node evs (k + 1) = .firing ↔ fires :=
    (streak_evaluateAll sinks taskInfo hfresh hpos hmono hk).firing_iff
  have hresolves : stateAfter sinks taskInfo node evs (k + 1) = .resolved ↔ resolves := by
    unfold stateAfter
    rw [evaluateAll_take_succ sinks taskInfo node hk,
      alertState_handleAlertStateLocked sinks htask, ← firingAt_of_lt hk]
    cases hf : firingAt evs k with
    | true =>
      exact ⟨fun h => absurd h (TaskSlot.computeAlertState_of_firing _ _ _),
        fun h => absurd (hf.symm.trans h.1) (by decide)⟩
    | false =>
      rw [TaskSlot.computeAlertState_of_not_firing]
      by_cases hs : (evaluateAll sinks taskInfo node (evs.take k)).alertState = .firing
      · exact ⟨fun _ => ⟨hf, hs⟩, fun _ => if_pos hs⟩
      · refine ⟨fun h => ?_, fun h => absurd h.2 hs⟩
        exact absurd ((if_neg hs).symm.trans h) (by decide)
  refine ⟨hfires, hresolves, ?_⟩
  rw [← hfires, ← hresolves]
  cases stateAfter sinks taskInfo node evs (k + 1)
  all_goals decide

/-- The condition holds at 10 and at 30, and no longer at 40; with a duration of
20 the alert fires at 30 and is resolved at 40. -/
theorem alertState_of_sustained :
    let task := Task.plain "a" .repeated Duration.millisecond
    let info := { task.copyTaskInfo with forDuration := 20 }
    let node := { TaskSlot.zero with task := some task }
    let evs := [⟨⟨0, 0, true⟩, 10⟩, ⟨⟨0, 0, true⟩, 30⟩, ⟨⟨0, 0, false⟩, 40⟩]
    stateAfter ⟨true, true, true⟩ info node evs 2 = .firing
      ∧ stateAfter ⟨true, true, true⟩ info node evs 3 = .resolved := by
  intro task info node evs
  have hfresh : node.Fresh := ⟨Option.some_ne_none task, rfl, rfl, rfl⟩
  have hpos : ∀ e ∈ evs, e.now ≠ Time.zero := by decide
  have hmono : evs.Pairwise (fun e f => e.now ≤ f.now) := by decide
  have hfires : stateAfter ⟨true, true, true⟩ info node evs 2 = .firing := by
    refine (alertState_after_evaluations _ info hfresh hpos hmono
      (show 1 < evs.length by decide)).1.mpr ⟨rfl, Or.inr ⟨0, ?_, by decide⟩⟩
    exact (StreakStart.start rfl (Or.inl rfl)).extend rfl
  exact ⟨hfires, (alertState_after_evaluations _ info hfresh hpos hmono
    (show 2 < evs.length by decide)).2.1.mpr ⟨rfl, hfires⟩⟩

end Timewheel
