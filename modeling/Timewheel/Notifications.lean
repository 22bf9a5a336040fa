import Timewheel.Alert

/-!
# Notifications

`onAlertStateChange` is called when the state of an alert changes, and again
every `RepeatInterval` while the alert keeps firing. The throttle is one field
of the node, `lastFiredAt`. It is written when `computeAlertState` enters
`Firing`, once more by `handleAlertStateLocked` when the alert is to be
repeated, and with every repetition; the alert being resolved does not clear
it.

Still the field has one meaning whenever it is read: in a firing node it is
the time of the latest `Firing` notification of the current episode
(`Throttle`). The old value that a resolved alert leaves behind is overwritten
before the node fires again.

The claim about the throttle is about the past: which evaluation has notified
last. So the proofs keep, along a sequence of evaluations, a statement about
indices (`LatestFiring`), and the field is compared with the time of that
index. An evaluation that notifies makes itself the latest, and one that does
not leaves the latest as it is.
-/

namespace Timewheel

/-! ## The calls of one evaluation -/

/-- A call of `onAlertStateChange`. The other events go to the history. -/
def AlertEvent.isStateChange : AlertEvent → Bool
  | .managerRecord _ _ _ _ _ _ _ => false
  | .storeRecord _ => false
  | .stateChange _ _ _ _ => true

/-- The calls of `onAlertStateChange` in an evaluation. There is one at most. -/
def AlertOutcome.notifications (o : AlertOutcome) : List AlertEvent :=
  o.events.filter AlertEvent.isStateChange

/-- **What an evaluation can do**, as far as notifications are concerned. The
three cases exclude each other. -/
inductive Notified (taskInfo : TaskInfo) (result : AlarmResult) (now : Time) (node : TaskSlot)
    (o : AlertOutcome) : Prop where
  /-- The state changes. -/
  | changed (state : node.alertState ≠ o.node.alertState)
      (calls : o.notifications
        = [.stateChange taskInfo.id node.alertState o.node.alertState result])
      (fired : o.fired = if o.node.alertState = .firing then 1 else 0)
      (last : o.node.alertState = .firing → o.node.lastFiredAt = now)
  /-- The alert keeps firing, and the interval is over. -/
  | repeated (before : node.alertState = .firing) (after : o.node.alertState = .firing)
      (interval : 0 < taskInfo.repeatInterval)
      (due : taskInfo.repeatInterval ≤ now.sub node.lastFiredAt)
      (calls : o.notifications
        = [.stateChange taskInfo.id node.alertState o.node.alertState result])
      (fired : o.fired = 1) (last : o.node.lastFiredAt = now)
  /-- Nothing is to be said. -/
  | quiet (same : o.node.alertState = node.alertState)
      (throttled : node.alertState = .firing → 0 < taskInfo.repeatInterval →
        node.lastFiredAt = Time.zero ∨ now.sub node.lastFiredAt < taskInfo.repeatInterval)
      (calls : o.notifications = []) (fired : o.fired = 0)
      (last : node.alertState = .firing → o.node.lastFiredAt = node.lastFiredAt)

/-- An alert that starts to fire is stamped with the time. Whatever the field
was before. -/
theorem TaskSlot.lastFiredAt_computeAlertState (ts : TaskSlot) (isFiring : Bool)
    (forDuration : Duration) (now : Time) (hnot : ts.alertState ≠ .firing)
    (hfires : (ts.computeAlertState isFiring forDuration now).2 = .firing) :
    (ts.computeAlertState isFiring forDuration now).1.lastFiredAt = now := by
  unfold TaskSlot.computeAlertState at hfires ⊢
  rw [if_neg hnot] at hfires ⊢
  split_ifs at hfires ⊢
  all_goals rfl

/-- An alert that fires already keeps its stamp. The state machine does not
touch it then. -/
theorem TaskSlot.lastFiredAt_computeAlertState_of_firing (ts : TaskSlot) (isFiring : Bool)
    (forDuration : Duration) (now : Time) (hfires : ts.alertState = .firing) :
    (ts.computeAlertState isFiring forDuration now).1.lastFiredAt = ts.lastFiredAt := by
  unfold TaskSlot.computeAlertState
  rw [if_pos hfires]
  split_ifs
  all_goals rfl

/-- **One evaluation** of a node that carries a task, with the callback set. The
cases are those of the state machine, and then of the throttle. -/
theorem notified_handleAlertStateLocked {sinks : AlertSinks}
    (hcall : sinks.onAlertStateChange = true) {node : TaskSlot} (htask : node.task ≠ none)
    (taskInfo : TaskInfo) (result : AlarmResult) (now : Time) :
    Notified taskInfo result now node
      (handleAlertStateLocked sinks node taskInfo result now) := by
  have hstamp := node.lastFiredAt_computeAlertState result.isFiring taskInfo.forDuration now
  have hkept := node.lastFiredAt_computeAlertState_of_firing result.isFiring
    taskInfo.forDuration now
  unfold handleAlertStateLocked
  rw [if_neg htask]
  generalize node.computeAlertState result.isFiring taskInfo.forDuration now = c at hstamp hkept ⊢
  obtain ⟨computed, newState⟩ := c
  dsimp only at hstamp hkept ⊢
  -- without a change of state a notification can only be a repeat
  by_cases hsame : node.alertState = newState
  · rw [if_neg (not_not.mpr hsame)]
    by_cases hrepeat : newState = .firing ∧ taskInfo.repeatInterval > 0
    · rw [if_pos hrepeat, hkept (hsame.trans hrepeat.1)]
      by_cases hdue : node.lastFiredAt.isZero = false
          ∧ now.sub node.lastFiredAt ≥ taskInfo.repeatInterval
      · rw [if_pos hdue]
        refine .repeated (hsame.trans hrepeat.1) hrepeat.1 hrepeat.2 hdue.2 ?_ rfl rfl
        unfold AlertOutcome.notifications
        cases sinks.historyManager <;> simp [hcall, AlertEvent.isStateChange]
      · rw [if_neg hdue]
        refine .quiet hsame.symm (fun _ _ => ?_) rfl rfl (fun _ => rfl)
        by_contra hcon
        push Not at hcon
        refine hdue ⟨?_, hcon.2⟩
        simpa [Time.isZero] using hcon.1
    · rw [if_neg hrepeat]
      exact .quiet hsame.symm (fun hf hi => absurd ⟨hsame.symm.trans hf, hi⟩ hrepeat) rfl rfl hkept
  · rw [if_pos hsame]
    -- a change is told once, whichever of the other two sinks are set
    have hcalls : ∀ n fired, AlertOutcome.notifications
        ⟨n, (if sinks.historyManager then [AlertEvent.managerRecord taskInfo.id node.alertState
            newState result taskInfo.severity taskInfo.labels taskInfo.annotations] else [])
          ++ (if sinks.historyStore then [AlertEvent.storeRecord
            { taskID := taskInfo.id, oldState := node.alertState, state := newState,
              timestamp := now, value := result.value, threshold := result.threshold,
              isFiring := result.isFiring, severity := taskInfo.severity }] else [])
          ++ (if sinks.onAlertStateChange then [AlertEvent.stateChange taskInfo.id
            node.alertState newState result] else []), fired⟩
        = [.stateChange taskInfo.id node.alertState newState result] := by
      intro n fired
      unfold AlertOutcome.notifications
      cases sinks.historyManager <;> cases sinks.historyStore <;>
        simp [hcall, AlertEvent.isStateChange]
    have hlast : newState = .firing → computed.lastFiredAt = now :=
      fun hf => hstamp (fun h => hsame (h.trans hf.symm)) hf
    by_cases hrepeat : newState = .firing ∧ taskInfo.repeatInterval > 0
    · rw [if_pos hrepeat]
      exact .changed hsame (hcalls _ _) (if_pos hrepeat.1).symm (fun _ => rfl)
    · rw [if_neg hrepeat]
      by_cases hfiring : newState = .firing
      · rw [if_pos hfiring]
        exact .changed hsame (hcalls _ _) (if_pos hfiring).symm hlast
      · rw [if_neg hfiring]
        exact .changed hsame (hcalls _ _) (if_neg hfiring).symm hlast

/-! ## The calls of a sequence of evaluations -/

/-- The result of the `i`-th evaluation. -/
def resultAt (evs : List Evaluation) (i : ℕ) : AlarmResult :=
  (evs[i]?).elim AlarmResult.zero Evaluation.result

/-- What the evaluation `k` of a sequence does. It depends on the evaluations
before it. -/
def outcomeAt (sinks : AlertSinks) (taskInfo : TaskInfo) (node : TaskSlot)
    (evs : List Evaluation) (k : ℕ) : AlertOutcome :=
  handleAlertStateLocked sinks (evaluateAll sinks taskInfo node (evs.take k)) taskInfo
    (resultAt evs k) (nowAt evs k)

/-- The evaluation `k` notifies that the alert fires. It may be the first one of
an episode or a repetition. -/
def FiringNotified (sinks : AlertSinks) (taskInfo : TaskInfo) (node : TaskSlot)
    (evs : List Evaluation) (k : ℕ) : Prop :=
  (outcomeAt sinks taskInfo node evs k).notifications ≠ []
    ∧ stateAfter sinks taskInfo node evs (k + 1) = .firing

instance (sinks : AlertSinks) (taskInfo : TaskInfo) (node : TaskSlot) (evs : List Evaluation)
    (k : ℕ) : Decidable (FiringNotified sinks taskInfo node evs k) :=
  inferInstanceAs (Decidable (_ ∧ _))

/-- The alert fires from the evaluation `j` on until before `k`: both are in one
episode, unless `k` ends it. An alert that is resolved and fires again begins a
new one. -/
def Episode (sinks : AlertSinks) (taskInfo : TaskInfo) (node : TaskSlot)
    (evs : List Evaluation) (j k : ℕ) : Prop :=
  ∀ i, j < i → i ≤ k → stateAfter sinks taskInfo node evs i = .firing

/-- `j` is the latest `Firing` notification before the evaluation `k`, in the
same episode. The index stands for the notification. -/
structure LatestFiring (sinks : AlertSinks) (taskInfo : TaskInfo) (node : TaskSlot)
    (evs : List Evaluation) (j k : ℕ) : Prop where
  lt : j < k
  notified : FiringNotified sinks taskInfo node evs j
  latest : ∀ i, j < i → i < k → ¬ FiringNotified sinks taskInfo node evs i
  episode : Episode sinks taskInfo node evs j k

section Sequence

variable {sinks : AlertSinks} {taskInfo : TaskInfo} {node : TaskSlot} {evs : List Evaluation}
  {j k : ℕ}

/-- The node after one more evaluation. -/
theorem evaluateAll_succ (hk : k < evs.length) :
    evaluateAll sinks taskInfo node (evs.take (k + 1))
      = (outcomeAt sinks taskInfo node evs k).node := by
  rw [evaluateAll_take_succ sinks taskInfo node hk]
  simp [outcomeAt, resultAt, hk]

/-- What the evaluation `k` can do. A node keeps its task. -/
theorem notified_outcomeAt (hcall : sinks.onAlertStateChange = true) (hfresh : node.Fresh) :
    Notified taskInfo (resultAt evs k) (nowAt evs k)
      (evaluateAll sinks taskInfo node (evs.take k)) (outcomeAt sinks taskInfo node evs k) := by
  refine notified_handleAlertStateLocked hcall ?_ taskInfo _ _
  rw [task_evaluateAll]
  exact hfresh.task

/-- There is one latest notification. Of two, the later one would come after the
latest. -/
theorem LatestFiring.unique {i : ℕ} (hi : LatestFiring sinks taskInfo node evs i k)
    (hj : LatestFiring sinks taskInfo node evs j k) : i = j := by
  rcases lt_trichotomy i j with h | h | h
  · exact absurd hj.notified (hi.latest j h hj.lt)
  · exact h
  · exact absurd hi.notified (hj.latest i h hi.lt)

/-- A notification is the latest one for the evaluation after it. The node fires
after it. -/
theorem latestFiring_succ (h : FiringNotified sinks taskInfo node evs k) :
    LatestFiring sinks taskInfo node evs k (k + 1) where
  lt := Nat.lt_succ_self k
  notified := h
  latest := fun i h₁ h₂ => by omega
  episode := fun i h₁ h₂ => by
    obtain rfl : i = k + 1 := by omega
    exact h.2

/-- The latest notification stays the latest while nothing is notified. The
episode goes on. -/
theorem LatestFiring.extend (h : LatestFiring sinks taskInfo node evs j k)
    (hstate : stateAfter sinks taskInfo node evs (k + 1) = .firing)
    (hnot : ¬ FiringNotified sinks taskInfo node evs k) :
    LatestFiring sinks taskInfo node evs j (k + 1) where
  lt := Nat.lt_succ_of_lt h.lt
  notified := h.notified
  latest := fun i h₁ h₂ => by
    rcases Nat.lt_succ_iff_lt_or_eq.mp h₂ with h₂ | rfl
    · exact h.latest i h₁ h₂
    · exact hnot
  episode := fun i h₁ h₂ => by
    rcases Nat.lt_or_eq_of_le h₂ with h₂ | rfl
    · exact h.episode i h₁ (Nat.lt_succ_iff.mp h₂)
    · exact hstate

/-! ## The throttle -/

/-- **What `lastFiredAt` means.** In a firing node it is the time of the latest
`Firing` notification of the episode. In other states the field has no meaning. -/
def Throttle (sinks : AlertSinks) (taskInfo : TaskInfo) (node : TaskSlot)
    (evs : List Evaluation) (k : ℕ) : Prop :=
  stateAfter sinks taskInfo node evs k = .firing →
    ∃ j, LatestFiring sinks taskInfo node evs j k
      ∧ (evaluateAll sinks taskInfo node (evs.take k)).lastFiredAt = nowAt evs j

/-- An evaluation that notifies sets the field to its own time. This is the
first of the two cases, -/
theorem throttle_of_notified (h : FiringNotified sinks taskInfo node evs k)
    (hlast : (evaluateAll sinks taskInfo node (evs.take (k + 1))).lastFiredAt = nowAt evs k) :
    Throttle sinks taskInfo node evs (k + 1) := fun _ => ⟨k, latestFiring_succ h, hlast⟩

/-- **One evaluation keeps the meaning of the field.** in the other one the
field is left alone. -/
theorem Throttle.step (h : Throttle sinks taskInfo node evs k)
    (hcall : sinks.onAlertStateChange = true) (hfresh : node.Fresh) (hk : k < evs.length) :
    Throttle sinks taskInfo node evs (k + 1) := by
  have hnode : evaluateAll sinks taskInfo node (evs.take (k + 1))
      = (outcomeAt sinks taskInfo node evs k).node := evaluateAll_succ hk
  intro hfires
  have hafter : (outcomeAt sinks taskInfo node evs k).node.alertState = .firing := by
    rw [← hnode]
    exact hfires
  have hstep : Notified taskInfo (resultAt evs k) (nowAt evs k)
      (evaluateAll sinks taskInfo node (evs.take k)) (outcomeAt sinks taskInfo node evs k) :=
    notified_outcomeAt hcall hfresh
  cases hstep with
  | changed state calls fired last =>
    refine throttle_of_notified ⟨?_, hfires⟩ (hnode ▸ last hafter) hfires
    rw [calls]
    exact List.cons_ne_nil _ _
  | repeated before after interval due calls fired last =>
    refine throttle_of_notified ⟨?_, hfires⟩ (hnode ▸ last) hfires
    rw [calls]
    exact List.cons_ne_nil _ _
  | quiet same throttled calls fired last =>
    have hbefore := same.symm.trans hafter
    obtain ⟨j, hj, hlast⟩ := h hbefore
    refine ⟨j, hj.extend hfires (fun hn => hn.1 calls), ?_⟩
    rw [hnode, last hbefore]
    exact hlast

/-- **It is kept along every sequence of evaluations.** Before the first
evaluation nothing fires. -/
theorem throttle_evaluateAll (hcall : sinks.onAlertStateChange = true) (hfresh : node.Fresh)
    (hk : k ≤ evs.length) : Throttle sinks taskInfo node evs k := by
  induction k with
  | zero =>
    intro hfires
    have hpending : stateAfter sinks taskInfo node evs 0 = .pending := hfresh.alertState
    exact AlertState.noConfusion (hpending.symm.trans hfires)
  | succ k ih => exact (ih (by omega)).step hcall hfresh hk

/-! ## Which evaluations notify -/

/-- **When a notification is due**: the state changes, or it stays `Firing` and
the latest notification of the episode is `RepeatInterval` ago. It speaks of
states and times only, not of the field. -/
def NotificationDue (sinks : AlertSinks) (taskInfo : TaskInfo) (node : TaskSlot)
    (evs : List Evaluation) (k : ℕ) : Prop :=
  stateAfter sinks taskInfo node evs k ≠ stateAfter sinks taskInfo node evs (k + 1)
    ∨ (stateAfter sinks taskInfo node evs k = .firing
      ∧ stateAfter sinks taskInfo node evs (k + 1) = .firing
      ∧ 0 < taskInfo.repeatInterval
      ∧ ∃ j, LatestFiring sinks taskInfo node evs j k
        ∧ taskInfo.repeatInterval ≤ (nowAt evs k).sub (nowAt evs j))

/-- The readings of the clock do not go back. -/
theorem nowAt_mono (hmono : evs.Pairwise (fun e f => e.now ≤ f.now)) (hjk : j ≤ k)
    (hk : k < evs.length) : nowAt evs j ≤ nowAt evs k := by
  induction k with
  | zero =>
    obtain rfl := Nat.le_zero.mp hjk
    exact le_refl _
  | succ k ih =>
    rcases Nat.lt_or_eq_of_le hjk with hlt | rfl
    · exact (ih (Nat.lt_succ_iff.mp hlt) (by omega)).trans (nowAt_le_succ hmono hk)
    · exact le_refl _

/-- **One evaluation notifies exactly when that is due**, and counts exactly the
`Firing` notifications. The field is the time of the latest notification, so the
test of the code is that of the definition. -/
theorem notifications_outcomeAt (hcall : sinks.onAlertStateChange = true) (hfresh : node.Fresh)
    (hpos : ∀ e ∈ evs, e.now ≠ Time.zero) (hk : k < evs.length) :
    let call := AlertEvent.stateChange taskInfo.id (stateAfter sinks taskInfo node evs k)
      (stateAfter sinks taskInfo node evs (k + 1)) (resultAt evs k)
    (NotificationDue sinks taskInfo node evs k →
        (outcomeAt sinks taskInfo node evs k).notifications = [call])
      ∧ (¬ NotificationDue sinks taskInfo node evs k →
        (outcomeAt sinks taskInfo node evs k).notifications = [])
      ∧ (outcomeAt sinks taskInfo node evs k).fired
        = if FiringNotified sinks taskInfo node evs k then 1 else 0 := by
  have hnode : evaluateAll sinks taskInfo node (evs.take (k + 1))
      = (outcomeAt sinks taskInfo node evs k).node := evaluateAll_succ hk
  have hafter : stateAfter sinks taskInfo node evs (k + 1)
      = (outcomeAt sinks taskInfo node evs k).node.alertState := by rw [← hnode]; rfl
  have hthrottle : Throttle sinks taskInfo node evs k := throttle_evaluateAll hcall hfresh hk.le
  have hstep : Notified taskInfo (resultAt evs k) (nowAt evs k)
      (evaluateAll sinks taskInfo node (evs.take k)) (outcomeAt sinks taskInfo node evs k) :=
    notified_outcomeAt hcall hfresh
  have hcount : ∀ {c : AlertEvent}, (outcomeAt sinks taskInfo node evs k).notifications = [c] →
      (FiringNotified sinks taskInfo node evs k
        ↔ (outcomeAt sinks taskInfo node evs k).node.alertState = .firing) := by
    intro c hc
    unfold FiringNotified
    rw [hafter, hc]
    exact and_iff_right (List.cons_ne_nil _ _)
  cases hstep with
  | changed state calls fired last =>
    refine ⟨fun _ => hafter ▸ calls, fun hnot => absurd (Or.inl (hafter ▸ state)) hnot, ?_⟩
    rw [fired]
    exact if_congr (hcount calls).symm rfl rfl
  | repeated before after interval due calls fired last =>
    obtain ⟨j, hj, hlast⟩ := hthrottle before
    have hdue : NotificationDue sinks taskInfo node evs k :=
      Or.inr ⟨before, hafter.trans after, interval, j, hj, hlast ▸ due⟩
    refine ⟨fun _ => hafter ▸ calls, fun hnot => absurd hdue hnot, ?_⟩
    rw [fired, if_pos ((hcount calls).mpr after)]
  | quiet same throttled calls fired last =>
    refine ⟨fun hdue => ?_, fun _ => calls, ?_⟩
    · rcases hdue with hne | ⟨hbefore, -, hinterval, j, hj, hdue⟩
      · exact absurd (hafter.trans same).symm hne
      · -- the field is the time of `j`, which is not the zero time
        obtain ⟨i, hi, hlast⟩ := hthrottle hbefore
        obtain rfl := hi.unique hj
        have hlt : i < evs.length := hi.lt.trans hk
        have hne : nowAt evs i ≠ Time.zero := by
          simpa [nowAt, hlt] using hpos evs[i] (List.getElem_mem hlt)
        rcases throttled hbefore hinterval with hzero | hshort
        · exact absurd (hlast.symm.trans hzero) hne
        · rw [hlast] at hshort
          exact absurd hdue (not_le.mpr hshort)
    · rw [fired, if_neg (fun hn => hn.1 calls)]

/-- **The notifications are the state changes and the throttled repeats**, each
made once. So two `Firing` notifications of one episode are at least
`RepeatInterval` apart, and `totalAlertsFired` grows by the number of `Firing`
notifications. The clock may stand still between evaluations, and the results
may be any. -/
theorem notifications_of_evaluations (sinks : AlertSinks) (taskInfo : TaskInfo)
    {node : TaskSlot} (hcall : sinks.onAlertStateChange = true) (hfresh : node.Fresh)
    {evs : List Evaluation} (hpos : ∀ e ∈ evs, e.now ≠ Time.zero)
    (hmono : evs.Pairwise (fun e f => e.now ≤ f.now)) :
    (∀ k < evs.length,
      (NotificationDue sinks taskInfo node evs k →
        (outcomeAt sinks taskInfo node evs k).notifications
          = [.stateChange taskInfo.id (stateAfter sinks taskInfo node evs k)
              (stateAfter sinks taskInfo node evs (k + 1)) (resultAt evs k)])
        ∧ (¬ NotificationDue sinks taskInfo node evs k →
          (outcomeAt sinks taskInfo node evs k).notifications = []))
      ∧ (∀ i k, i < k → k < evs.length → FiringNotified sinks taskInfo node evs i →
        FiringNotified sinks taskInfo node evs k → Episode sinks taskInfo node evs i k →
        taskInfo.repeatInterval ≤ (nowAt evs k).sub (nowAt evs i))
      ∧ ∑ k ∈ Finset.range evs.length, (outcomeAt sinks taskInfo node evs k).fired
        = ((Finset.range evs.length).filter
            (fun k => FiringNotified sinks taskInfo node evs k)).card := by
  have hcalls := fun k (hk : k < evs.length) =>
    @notifications_outcomeAt sinks taskInfo node evs k hcall hfresh hpos hk
  refine ⟨fun k hk => ⟨(hcalls k hk).1, (hcalls k hk).2.1⟩, fun i k hik hk hi hk' hep => ?_, ?_⟩
  · -- within an episode only the interval makes an evaluation notify
    have hdue : NotificationDue sinks taskInfo node evs k := by
      by_contra hnot
      exact hk'.1 ((hcalls k hk).2.1 hnot)
    rcases hdue with hne | ⟨-, -, -, j, hj, hdue⟩
    · exact absurd ((hep k hik (le_refl k)).trans hk'.2.symm) hne
    · have hij : i ≤ j := by
        by_contra hlt
        exact hj.latest i (not_le.mp hlt) hik hi
      have hle := nowAt_mono hmono hij (hj.lt.trans hk)
      unfold Time.sub at hdue ⊢
      lia
  · rw [Finset.card_filter]
    exact Finset.sum_congr rfl (fun k hk => (hcalls k (Finset.mem_range.mp hk)).2.2)

end Sequence

/-- The condition holds at 10, 20 and 30, and the alert is repeated every 20: it
notifies at 10 and at 30. -/
theorem notifications_of_repeat :
    let task := Task.plain "a" .repeated Duration.millisecond
    let info := { task.copyTaskInfo with repeatInterval := 20 }
    let node := { TaskSlot.zero with task := some task }
    let evs := [⟨⟨0, 0, true⟩, 10⟩, ⟨⟨0, 0, true⟩, 20⟩, ⟨⟨0, 0, true⟩, 30⟩]
    (outcomeAt ⟨true, true, true⟩ info node evs 2).notifications
        = [.stateChange "a" .firing .firing ⟨0, 0, true⟩]
      ∧ ∑ k ∈ Finset.range 3, (outcomeAt ⟨true, true, true⟩ info node evs k).fired = 2 := by
  intro task info node evs
  have hfresh : node.Fresh := ⟨Option.some_ne_none task, rfl, rfl, rfl⟩
  have hpos : ∀ e ∈ evs, e.now ≠ Time.zero := by decide
  have hmono : evs.Pairwise (fun e f => e.now ≤ f.now) := by decide
  obtain ⟨hcalls, -, hfired⟩ :=
    notifications_of_evaluations ⟨true, true, true⟩ info rfl hfresh hpos hmono
  have hlatest : LatestFiring ⟨true, true, true⟩ info node evs 0 2 := by
    refine ⟨by decide, by decide, fun i h₁ h₂ => ?_, fun i h₁ h₂ => ?_⟩
    · obtain rfl : i = 1 := by omega
      decide
    · obtain rfl | rfl : i = 1 ∨ i = 2 := by omega
      all_goals rfl
  have hdue : NotificationDue ⟨true, true, true⟩ info node evs 2 :=
    Or.inr ⟨rfl, rfl, by decide, 0, hlatest, by decide⟩
  refine ⟨(hcalls 2 (by decide)).1 hdue, hfired.trans ?_⟩
  decide

end Timewheel
