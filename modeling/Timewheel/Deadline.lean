import Timewheel.Overlap
import Timewheel.Rollback
import Timewheel.Effects

/-!
# Slots and deadlines

A task that is due at `t` belongs to the slot of the bucket `t / interval`: a
tick finds only the nodes of the slot it handles. `AddTask` and
`rescheduleTask` set the time and the slot together. `ResumeTask` sets the time
and leaves the node where it is.

So a resumed task is in the wrong slot, and comes up to a revolution late,
unless its new time happens to belong to the slot it was in. In serial use
nothing else goes wrong (`linkedInSlot_iff`). The interval, the clock and the
intervals of the tasks are in whole milliseconds.

The proof keeps a stronger statement along the runs: the slot a node names, in
its `slotIndex`, is the slot of its deadline (`Timely`). In a sound wheel a
node is linked in the slot it names, so the two say the same
(`Inv.linked_iff_slotIndex`). Each call and each step of an execution is then
a matter of the fields of one node.
-/

namespace Timewheel

open TimeWheel Scheduler

/-! ## What is expected -/

/-- The slot of a deadline, for an interval of `I` milliseconds. This is the
bucket the tick looks into when the time has come. -/
def slotOf (I N : ℕ) (runAt : Time) : ℕ := runAt.unixMilli / I % N

/-- **Every registered node is in the slot of its deadline.** Otherwise the tick
that should execute it looks in another list. -/
def LinkedInSlot (cfg : Config) (I : ℕ) (w : TimeWheel) : Prop :=
  ∀ id n, w.lookup cfg id = some n → n ∈ w.slotNodes (slotOf I cfg.slotNum (w.heap n).runAt)

/-- A reading in whole milliseconds. The wheel computes with `UnixMilli`. -/
def WholeTime (t : Time) : Prop := t = Time.ofMilli t.unixMilli

/-- A duration in whole milliseconds. -/
def WholeDuration (d : Duration) : Prop := d = d.milliseconds * Duration.millisecond

/-- The readings and the task of an action are in whole milliseconds. Fractions
of a millisecond would be cut off in one place and not in the other. -/
def Action.Whole : Action → Prop
  | .addTask task env => (∀ t ∈ task, WholeDuration t.interval) ∧ WholeTime env.now
  | .updateTask task env =>
    (∀ t ∈ task, WholeDuration t.interval) ∧ WholeTime env.add.now ∧ WholeTime env.rollback.now
  | .resumeTask _ now => WholeTime now
  | .tick now => WholeTime now
  | _ => True

instance (t : Time) : Decidable (WholeTime t) := inferInstanceAs (Decidable (_ = _))

instance (d : Duration) : Decidable (WholeDuration d) := inferInstanceAs (Decidable (_ = _))

instance : ∀ a : Action, Decidable a.Whole
  | .addTask _ _ => inferInstanceAs (Decidable (_ ∧ _))
  | .updateTask _ _ => inferInstanceAs (Decidable (_ ∧ _))
  | .resumeTask _ _ => inferInstanceAs (Decidable (WholeTime _))
  | .tick _ => inferInstanceAs (Decidable (WholeTime _))
  | .removeTask _ _ => isTrue trivial
  | .pauseTask _ => isTrue trivial
  | .clearAllTasks _ _ => isTrue trivial
  | .reject _ => isTrue trivial
  | .start _ => isTrue trivial
  | .finish _ _ => isTrue trivial
  | .panic _ => isTrue trivial
  | .complete _ => isTrue trivial

/-- The delay with which `ResumeTask` sets the next run. A task without an
interval runs at once. -/
def resumeDelay (node : TaskSlot) : Duration :=
  match node.task with
  | some task => if task.interval > 0 then task.interval else Duration.millisecond
  | none => Duration.millisecond

/-- **A task is resumed in its slot**: the slot `AddTask` would compute for the
same delay is the one the node is in. It speaks of the state before the call. -/
def ResumesInSlot (cfg : Config) (s : Scheduler) : Action → Prop
  | .resumeTask id now => id ≠ "" → ∀ n ∈ s.wheel.lookup cfg id, (s.wheel.heap n).paused = true →
      slotIndexFor cfg.interval cfg.slotNum now (resumeDelay (s.wheel.heap n))
        = (s.wheel.heap n).slotIndex
  | _ => True

instance (cfg : Config) (s : Scheduler) : ∀ a, Decidable (ResumesInSlot cfg s a)
  | .resumeTask _ _ => inferInstanceAs (Decidable (_ → _))
  | .addTask _ _ => isTrue trivial
  | .removeTask _ _ => isTrue trivial
  | .updateTask _ _ => isTrue trivial
  | .pauseTask _ => isTrue trivial
  | .clearAllTasks _ _ => isTrue trivial
  | .tick _ => isTrue trivial
  | .reject _ => isTrue trivial
  | .start _ => isTrue trivial
  | .finish _ _ => isTrue trivial
  | .panic _ => isTrue trivial
  | .complete _ => isTrue trivial

/-! ## A node -/

/-- The node is in the slot of its deadline, and the interval of its task is in
whole milliseconds. The interval is that of the next round. -/
structure Timely (cfg : Config) (I : ℕ) (node : TaskSlot) : Prop where
  interval : ∀ t, node.task = some t → 0 < t.interval ∧ WholeDuration t.interval
  slotIndex : node.slotIndex = slotOf I cfg.slotNum node.runAt

/-- The registered nodes are timely. A node that waits in the pool may name any
slot. -/
def AllTimely (cfg : Config) (I : ℕ) (w : TimeWheel) : Prop :=
  ∀ id n, w.lookup cfg id = some n → Timely cfg I (w.heap n)

variable {cfg : Config} {I : ℕ} {w w' : TimeWheel} {lists lists' : ℕ → List NodeRef}
  {n m : NodeRef} {node : TaskSlot} {s s' : Scheduler} {now : Time} {d : Duration}

/-- A positive duration in whole milliseconds. So it can be written as a natural
number of them. -/
theorem WholeDuration.eq_ofMilli (h : WholeDuration d) (hd : 0 < d) :
    ∃ m : ℕ, d = Duration.ofMilli m := by
  unfold WholeDuration at h
  have hpos : 0 ≤ Duration.milliseconds d := Int.tdiv_nonneg hd.le (by decide)
  obtain ⟨m, hm⟩ := Int.eq_ofNat_of_zero_le hpos
  exact ⟨m, h.trans (congrArg (· * Duration.millisecond) hm)⟩

/-- **The slot that is computed is the slot of the deadline.** Where everything
is in whole milliseconds, adding the delay to the bucket and taking the bucket
of the sum come to the same. -/
theorem slotIndexFor_eq_slotOf (hI : cfg.interval = Duration.ofMilli I) (hnow : WholeTime now)
    (hwhole : WholeDuration d) (hd : 0 < d) :
    slotIndexFor cfg.interval cfg.slotNum now d = slotOf I cfg.slotNum (now.add d) := by
  have hpos : 1 ≤ I := by
    have hinterval := cfg.interval_pos
    rw [hI] at hinterval
    rcases Nat.eq_zero_or_pos I with rfl | h
    · exact absurd hinterval (by decide)
    · exact h
  obtain ⟨m, rfl⟩ := hwhole.eq_ofMilli hd
  unfold WholeTime at hnow
  rw [hI, hnow, slotIndexFor_ofMilli hpos, slotOf, add_ofMilli, Time.unixMilli_ofMilli]

/-- The pointers do not matter. So linking and unlinking cannot disturb this. -/
theorem timely_payload : Timely cfg I node.payload ↔ Timely cfg I node :=
  ⟨fun h => ⟨h.interval, h.slotIndex⟩, fun h => ⟨h.interval, h.slotIndex⟩⟩

/-! ## Changes -/

/-- **A change at one node**: the others keep what they have. This is the form
that all the steps take. -/
theorem AllTimely.of_change (h : AllTimely cfg I w) (n : NodeRef)
    (hentry : ∀ id m, m ≠ n → w'.lookup cfg id = some m → w.lookup cfg id = some m)
    (hpay : ∀ m, m ≠ n → (w'.heap m).payload = (w.heap m).payload)
    (hn : ∀ id, w'.lookup cfg id = some n → Timely cfg I (w'.heap n)) : AllTimely cfg I w' := by
  intro id m hm
  by_cases hmn : m = n
  · subst hmn
    exact hn id hm
  · rw [← timely_payload, hpay m hmn, timely_payload]
    exact h id m (hentry id m hmn hm)

/-- The same with the frame condition of the wheel, -/
theorem AllTimely.of_changesOnly (h : AllTimely cfg I w) (hc : ChangesOnly n w w' lists lists')
    (hn : ∀ id, w'.lookup cfg id = some n → Timely cfg I (w'.heap n)) : AllTimely cfg I w' :=
  h.of_change n (fun id m hm hl => (hc.entry _ id m hm).mp hl) hc.payload hn

/-- A node that is free afterwards does not matter. It has left the map. -/
theorem AllTimely.of_free (h : AllTimely cfg I w) (hc : ChangesOnly n w w' lists lists')
    (hf : Free w' lists' n) : AllTimely cfg I w' :=
  h.of_changesOnly hc (fun _ hl => absurd hl (hf.no_entry _ _))

/-- Writing a node of the map. As `ResumeTask` does, and the end of an
execution. -/
theorem AllTimely.setNode (h : AllTimely cfg I w)
    (hn : Timely cfg I (w.heap n) → Timely cfg I node) : AllTimely cfg I (w.setNode n node) := by
  refine h.of_change n (fun _ _ _ hl => hl) (fun m hm => ?_) (fun id hl => ?_)
  · rw [heap_setNode_of_ne hm]
  · rw [heap_setNode_self]
    exact hn (h id n hl)

/-! ## The calls -/

/-- The interval of a task that passed the checks. A task that is to run
once may come without an interval, and is then given one millisecond. -/
theorem Checked.interval {t t' : Task} (h : Checked t t') (hwhole : WholeDuration t.interval) :
    0 < t'.interval ∧ WholeDuration t'.interval := by
  cases h with
  | repeated _ hpos => exact ⟨hpos, hwhole⟩
  | once _ =>
    split_ifs with hle
    · exact ⟨(by decide : (0 : ℤ) < Duration.millisecond),
        (by decide : WholeDuration Duration.millisecond)⟩
    · exact ⟨not_le.mp hle, hwhole⟩
  | fixedTimes _ _ hpos => exact ⟨hpos, hwhole⟩
  | other _ hpos => exact ⟨hpos, hwhole⟩

/-- **`AddTask`** puts a node into the slot of its deadline. It computes the
slot and the time from one reading of the clock. -/
theorem AllTimely.addTask (h : AllTimely cfg I w) (hinv : Inv cfg w lists)
    (hI : cfg.interval = Duration.ofMilli I) {task : Option Task}
    (htask : ∀ t ∈ task, WholeDuration t.interval) {env : AddEnv} (hnow : WholeTime env.now) :
    AllTimely cfg I (w.addTask cfg task env).2 := by
  have hadd := addTask_cases hinv task env
  generalize hr : w.addTask cfg task env = r at hadd ⊢
  cases hadd with
  | rejected reason => exact h
  | duplicate task_eq check running taken inv changes handedOut free installed =>
    exact h.of_free changes free
  | @added t t' n w' lists' i task_eq check running new inv changes handedOut used installed =>
    obtain ⟨w'', hadd, hlookup, hself, hother⟩ := addTask_payload check running new env
    subst task_eq
    obtain rfl : w'' = w' := (Prod.mk.inj (hadd.symm.trans hr)).2
    obtain ⟨-, -, hchecked⟩ := checkTask_ok check
    obtain ⟨hpos, hwhole⟩ := hchecked.interval (htask t rfl)
    refine h.of_change (w.poolGet env.node).1 (fun id m hm hl => ?_) hother (fun _ _ => ?_)
    · rw [hlookup] at hl
      split_ifs at hl with hid
      · exact absurd (Option.some.inj hl).symm hm
      · exact hl
    · rw [← timely_payload, hself]
      refine ⟨fun t'' ht => ?_, ?_⟩
      · obtain rfl : t' = t'' := Option.some.inj ht
        exact ⟨hpos, hwhole⟩
      · exact slotIndexFor_eq_slotOf hI hnow hwhole hpos

/-- Removing a task, -/
theorem AllTimely.removeTask (h : AllTimely cfg I w) (hinv : Inv cfg w lists) (id : String)
    (deleteOk : Bool) : AllTimely cfg I (w.removeTask cfg id deleteOk).2 := by
  have hremove := removeTask_cases hinv id deleteOk
  generalize w.removeTask cfg id deleteOk = r at hremove ⊢
  cases hremove with
  | emptyID hid => exact h
  | notFound hne hid => exact h
  | removed hid used id_eq inv changes released => exact h.of_free changes released.toFree

/-- replacing it by another one, which is a removal and an addition, -/
theorem AllTimely.updateTask (h : AllTimely cfg I w) (hinv : Inv cfg w lists)
    (hI : cfg.interval = Duration.ofMilli I) {task : Option Task}
    (htask : ∀ t ∈ task, WholeDuration t.interval) {env : UpdateEnv}
    (hadd : WholeTime env.add.now) (hback : WholeTime env.rollback.now) :
    AllTimely cfg I (w.updateTask cfg task env).2 := by
  refine (updateTask_wheel (fun w' => (∃ lists, Inv cfg w' lists) ∧ AllTimely cfg I w') w task env
    ⟨⟨lists, hinv⟩, h⟩ (fun id => ?_) (fun w' t ht h' => ?_) (fun w' id n t hn ht h' => ?_)).2
  · obtain ⟨lists', h'⟩ := removeTask_evolves hinv id env.deleteOk
    exact ⟨⟨lists', h'.inv⟩, h.removeTask hinv id env.deleteOk⟩
  · obtain ⟨⟨lists', hinv'⟩, htimely⟩ := h'
    obtain ⟨lists'', h''⟩ := addTask_evolves hinv' (some t) env.add
    refine ⟨⟨lists'', h''.inv⟩, htimely.addTask hinv' hI (fun t' ht' => ?_) hadd⟩
    exact htask t' (ht.trans ht')
  · obtain ⟨⟨lists', hinv'⟩, htimely⟩ := h'
    obtain ⟨lists'', h''⟩ := addTask_evolves hinv' (some t) env.rollback
    refine ⟨⟨lists'', h''.inv⟩, htimely.addTask hinv' hI (fun t' ht' => ?_) hback⟩
    obtain rfl := Option.some.inj ht'
    exact ((h id n hn).interval t ht).2

/-- or removing all of them, one after the other. -/
theorem AllTimely.clearAllTasks (h : AllTimely cfg I w) (hinv : Inv cfg w lists)
    (order : List String) (now : Time) : AllTimely cfg I (w.clearAllTasks cfg order now).2 := by
  refine (clearAllTasks_wheel (fun w' => (∃ lists, Inv cfg w' lists) ∧ AllTimely cfg I w') w order
    now ⟨⟨lists, hinv⟩, h⟩ (fun w' id h' => ?_) (fun w' f h' => ?_)).2
  · obtain ⟨⟨lists', hinv'⟩, htimely⟩ := h'
    rcases clearTask_cases hinv' id with ⟨-, heq⟩ | ⟨n, i, c, t, lists'', -, -, hinv'', hc, hr⟩
    · rw [heq]
      exact ⟨⟨lists', hinv'⟩, htimely⟩
    · exact ⟨⟨lists'', hinv''⟩, htimely.of_free hc hr.toFree⟩
  · obtain ⟨⟨lists', hinv'⟩, htimely⟩ := h'
    have hcore : SameCore w' { w' with taskCache := w'.taskCache.map f } :=
      ⟨rfl, rfl, rfl, rfl, rfl, rfl, rfl⟩
    exact ⟨⟨lists', hcore.inv hinv'⟩, htimely⟩

/-- What `ResumeTask` does: nothing, or it sets the next run of a paused node.
It does not touch the slot. -/
theorem resumeTask_cases (cfg : Config) (w : TimeWheel) (id : String) (now : Time) :
    ((w.resumeTask cfg id now).2 = w
        ∧ ∀ n ∈ w.lookup cfg id, id ≠ "" → (w.heap n).paused = false)
      ∨ ∃ n, id ≠ "" ∧ w.lookup cfg id = some n ∧ (w.heap n).paused = true
        ∧ (w.resumeTask cfg id now).2
          = w.setNode n { w.heap n with
              paused := false, runAt := now.add (resumeDelay (w.heap n)) } := by
  unfold TimeWheel.resumeTask
  by_cases hid : id = ""
  · rw [if_pos hid]
    exact Or.inl ⟨rfl, fun _ _ hne => absurd hid hne⟩
  · rw [if_neg hid]
    cases hn : w.lookup cfg id with
    | none => exact Or.inl ⟨rfl, fun _ hmem => nomatch hmem⟩
    | some n =>
      dsimp only
      cases hp : (w.heap n).paused with
      | false =>
        rw [if_pos rfl]
        exact Or.inl ⟨rfl, fun m hm _ => Option.some.inj hm ▸ hp⟩
      | true =>
        rw [if_neg Bool.noConfusion]
        exact Or.inr ⟨n, hid, rfl, hp, rfl⟩

/-- The delay of a timely node is positive and in whole milliseconds. By the
interval of its task. -/
theorem Timely.resumeDelay (h : Timely cfg I node) :
    0 < resumeDelay node ∧ WholeDuration (resumeDelay node) := by
  have hone : (0 : ℤ) < Duration.millisecond ∧ WholeDuration Duration.millisecond := by decide
  unfold Timewheel.resumeDelay
  cases ht : node.task with
  | none => exact hone
  | some t =>
    obtain ⟨hpos, hwhole⟩ := h.interval t ht
    dsimp only
    rw [if_pos hpos]
    exact ⟨hpos, hwhole⟩

/-! ## Executions -/

/-- The end of an execution writes neither of the two fields. -/
theorem AllTimely.updateTaskResult (h : AllTimely cfg I w) (n : NodeRef) (result : AlarmResult)
    (err : Option Err) : AllTimely cfg I (w.updateTaskResult n result err) :=
  h.setNode (fun hn => ⟨hn.interval, hn.slotIndex⟩)

/-- The node a locked section leaves: cleared, or with its next run and the slot
of that. Which of the two it is depends on the limit of the task. -/
theorem lockedSection_node (cfg : Config) (w : TimeWheel) {n : NodeRef} (info : TaskInfo)
    (result : AlarmResult) (now : Time) (slot : ℕ) (ht : (w.heap n).task ≠ none) :
    ((w.lockedSection cfg n info result now slot).heap n).task = none
      ∨ ∃ node : TaskSlot, node.task = (w.heap n).task
        ∧ ((w.lockedSection cfg n info result now slot).heap n).payload
          = { node with
              runAt := now.add info.interval
              slotIndex := slotIndexFor cfg.interval cfg.slotNum now info.interval } := by
  have htask : ((w.applyAlert cfg n info result now).heap n).task = (w.heap n).task :=
    (applyAlert_same w n info result now).task n
  unfold lockedSection handleTaskSchedulingLocked
  generalize w.applyAlert cfg n info result now = w₁ at htask ⊢
  rw [if_neg (htask ▸ ht)]
  split_ifs
  · obtain ⟨heap, slots, hw, -, hself⟩ := @rescheduleTask_payload cfg w₁ n info now slot
    rw [hw]
    exact Or.inr ⟨(w₁.heap n).payload, htask, hself⟩
  · obtain ⟨heap, slots, hw, -, hself⟩ := @removeTaskInternal_frame cfg w₁ n info slot
    rw [hw]
    exact Or.inl (congrArg TaskSlot.task hself)

/-- **The locked section** puts its node into the slot of its deadline. It
computes both from the reading of the tick. -/
theorem AllTimely.lockedSection (h : AllTimely cfg I w) (hinv : Inv cfg w lists)
    (hI : cfg.interval = Duration.ofMilli I) {i : ℕ} {c : CtxRef} {t : Task}
    (hu : Used cfg w lists n i c t) (result : AlarmResult) (hnow : WholeTime now) {slot : ℕ}
    (hown : UnlinksOwnList cfg w n t.copyTaskInfo now slot) :
    AllTimely cfg I (w.lockedSection cfg n t.copyTaskInfo result now slot) := by
  obtain ⟨lists', -, hc, hkept⟩ := hinv.lockedSection hu result now hown
  refine h.of_changesOnly hc (fun id hl => ?_)
  obtain ⟨hpos, hwhole⟩ := (h t.id n hu.lookup).interval t hu.task_eq
  rcases hkept with ⟨j, hused⟩ | hreleased
  · rcases lockedSection_node cfg w t.copyTaskInfo result now slot
      (ne_of_eq_of_ne hu.task_eq (Option.some_ne_none t)) with hnone | ⟨node, htask, hpay⟩
    · exact absurd (hnone.symm.trans hused.task_eq) (Option.some_ne_none t).symm
    · rw [← timely_payload, hpay]
      refine ⟨fun t' ht' => ?_, ?_⟩
      · obtain rfl : t = t' := Option.some.inj (hu.task_eq.symm.trans (htask.symm.trans ht'))
        exact ⟨hpos, hwhole⟩
      · exact slotIndexFor_eq_slotOf hI hnow hwhole hpos
  · exact absurd hl (hreleased.no_entry _ _)

/-- An execution carries the reading of its tick. So the readings of all
executions are those of ticks. -/
theorem execs_now {a : Action} (hstep : step cfg s a = some s') {e : Execution}
    (he : e ∈ s'.execs) : (∃ e' ∈ s.execs, e'.now = e.now) ∨ a = .tick e.now := by
  -- a step of an execution keeps the reading it came with
  have hset : ∀ {i : ℕ} {e₀ : Execution} {stage : Stage}, s.execs[i]? = some e₀ →
      e ∈ s.execs.set i { e₀ with stage := stage } → ∃ e' ∈ s.execs, e'.now = e.now := by
    intro i e₀ stage he₀ hmem
    rcases List.mem_or_eq_of_mem_set hmem with hmem | rfl
    · exact ⟨e, hmem, rfl⟩
    · exact ⟨e₀, List.mem_of_getElem? he₀, rfl⟩
  have herase : ∀ {i : ℕ}, e ∈ s.execs.eraseIdx i → ∃ e' ∈ s.execs, e'.now = e.now :=
    fun hmem => ⟨e, List.mem_of_mem_eraseIdx hmem, rfl⟩
  cases stepped_of_step hstep with
  | call hcall hw => exact Or.inl ⟨e, he, rfl⟩
  | tick now =>
    rcases List.mem_append.mp he with he | he
    · exact Or.inl ⟨e, he, rfl⟩
    · obtain ⟨n, -, rfl⟩ := List.mem_map.mp he
      exact Or.inr rfl
  | reject _ _ => exact Or.inl (herase he)
  | panic _ _ => exact Or.inl (herase he)
  | complete _ _ => exact Or.inl (herase he)
  | @start i e₀ he₀ _ =>
    unfold Scheduler.start at he
    cases hstate : s.wheel.checkTaskState e₀.node with
    | none =>
      rw [hstate] at he
      exact Or.inl (herase he)
    | some task =>
      rw [hstate] at he
      dsimp only at he
      cases hcheck : s.wheel.runTaskCheck e₀.node task.copyTaskInfo with
      | none =>
        rw [hcheck] at he
        exact Or.inl (hset he₀ he)
      | some err =>
        rw [hcheck] at he
        exact Or.inl (hset he₀ he)
  | @finish i e₀ info he₀ _ result =>
    unfold Scheduler.finish at he
    dsimp only at he
    split_ifs at he
    · exact Or.inl (herase he)
    · exact Or.inl (hset he₀ he)

/-! ## Runs -/

/-- In a wheel that is sound, a node is linked in the slot it names. A node is
in one list, the one it names. -/
theorem Inv.linked_iff_slotIndex (hinv : Inv cfg w lists) :
    LinkedInSlot cfg I w ↔ ∀ id n, w.lookup cfg id = some n →
      (w.heap n).slotIndex = slotOf I cfg.slotNum (w.heap n).runAt := by
  refine forall_congr' (fun id => forall_congr' (fun n => forall_congr' (fun hn => ?_)))
  obtain ⟨i, c, t, hu, -⟩ := hinv.used_of_lookup hn
  rw [hinv.slotNodes_eq, hu.slotIndex_eq]
  exact ⟨fun hmem => hinv.family.disjoint _ _ n hu.mem hmem, fun hi => hi ▸ hu.mem⟩

/-- Resuming a task in its slot. The slot of the new deadline is the old one. -/
theorem AllTimely.resumeTask (h : AllTimely cfg I s.wheel) (hI : cfg.interval = Duration.ofMilli I)
    {id : String} (hnow : WholeTime now) (hslot : ResumesInSlot cfg s (.resumeTask id now)) :
    AllTimely cfg I (s.wheel.resumeTask cfg id now).2 := by
  rcases resumeTask_cases cfg s.wheel id now with ⟨heq, -⟩ | ⟨n, hid, hn, hp, heq⟩
  · rw [heq]
    exact h
  · rw [heq]
    refine h.setNode (fun htimely => ⟨htimely.interval, ?_⟩)
    obtain ⟨hpos, hwhole⟩ := htimely.resumeDelay
    exact (hslot hid n hn hp).symm.trans (slotIndexFor_eq_slotOf hI hnow hwhole hpos)

/-- **A call** keeps the nodes timely, if it resumes no task out of its slot.
The others than `ResumeTask` need no condition. -/
theorem AllTimely.of_call {a : Action} (h : AllTimely cfg I s.wheel) (hinv : Inv cfg s.wheel lists)
    (hI : cfg.interval = Duration.ofMilli I) (hcall : a.isCall = true) (ha : a.Whole)
    (hslot : ResumesInSlot cfg s a) (hstep : step cfg s a = some s') :
    AllTimely cfg I s'.wheel := by
  have hcalled := called_of_step hcall hstep
  generalize s'.wheel = w' at hcalled ⊢
  cases hcalled with
  | addTask task env =>
    exact h.addTask hinv hI ha.1 ha.2
  | removeTask taskID deleteOk =>
    exact h.removeTask hinv taskID deleteOk
  | updateTask task env =>
    exact h.updateTask hinv hI ha.1 ha.2.1 ha.2.2
  | pauseTask taskID =>
    exact pauseTask_wheel (AllTimely cfg I) s.wheel taskID h
      (fun n => h.setNode (fun hn => ⟨hn.interval, hn.slotIndex⟩))
  | resumeTask taskID now =>
    exact h.resumeTask hI ha hslot
  | clearAllTasks order now =>
    exact h.clearAllTasks hinv order now

/-- **A serial step** keeps the nodes timely, if it resumes no task out of its
slot. In serial use an execution unlinks its node from the right list. -/
theorem AllTimely.of_step {a : Action} (h : AllTimely cfg I s.wheel) (hs : SerialSound cfg s lists)
    (hI : cfg.interval = Duration.ofMilli I) (hexecs : ∀ e ∈ s.execs, WholeTime e.now)
    (hserial : Serial s a) (ha : a.Whole) (hslot : ResumesInSlot cfg s a)
    (hstep : step cfg s a = some s') : AllTimely cfg I s'.wheel := by
  cases stepped_of_step hstep with
  | call hcall hw => exact h.of_call hs.inv hI hcall ha hslot hstep
  | tick now => exact h
  | reject _ _ => exact h
  | panic _ _ => exact h
  | @start i e he _ =>
    unfold Scheduler.start
    cases s.wheel.checkTaskState e.node with
    | none => exact h
    | some task =>
      dsimp only
      cases s.wheel.runTaskCheck e.node task.copyTaskInfo with
      | none => exact h
      | some err => exact h.updateTaskResult e.node AlarmResult.zero (some err)
  | @finish i e info he _ result =>
    unfold Scheduler.finish
    dsimp only
    split_ifs
    · exact h.updateTaskResult e.node result none
    · exact h.updateTaskResult e.node result none
  | @complete i e info result he hstage =>
    have hown := (hs.careful hserial).own i e rfl he
    rcases hs.completed he hstage hown with hw | ⟨k, c, t, -, hu, hunlinks, hw⟩
    · rw [hw]
      exact h
    · rw [hw]
      exact h.lockedSection hs.inv hI hu result (hexecs e (List.mem_of_getElem? he)) hunlinks

/-- The executions go on with readings in whole milliseconds. A tick is given
one. -/
theorem execs_whole {a : Action} (hexecs : ∀ e ∈ s.execs, WholeTime e.now) (ha : a.Whole)
    (hstep : step cfg s a = some s') : ∀ e ∈ s'.execs, WholeTime e.now := by
  intro e he
  rcases execs_now hstep he with ⟨e', he', heq⟩ | rfl
  · exact heq ▸ hexecs e' he'
  · exact ha

/-- **A task resumed out of its slot** is linked elsewhere. This is the
direction that makes the condition necessary. -/
theorem resumesInSlot_of_linked {a : Action} (h : AllTimely cfg I s.wheel)
    (hI : cfg.interval = Duration.ofMilli I) (ha : a.Whole) (hstep : step cfg s a = some s')
    (hinv : Inv cfg s'.wheel lists) (hlinked : LinkedInSlot cfg I s'.wheel) :
    ResumesInSlot cfg s a := by
  cases a with
  | resumeTask id now =>
    intro hid n hn hp
    obtain rfl := Option.some.inj hstep
    have htimely := h id n hn
    obtain ⟨hpos, hwhole⟩ := htimely.resumeDelay
    rw [slotIndexFor_eq_slotOf hI ha hwhole hpos]
    rcases resumeTask_cases cfg s.wheel id now with ⟨-, hnot⟩ | ⟨m, -, hm, -, heq⟩
    · exact absurd ((hnot n hn hid).symm.trans hp) Bool.false_ne_true
    · obtain rfl : m = n := Option.some.inj (hm.symm.trans hn)
      have hslot := hinv.linked_iff_slotIndex.mp hlinked
      dsimp only at hslot
      rw [heq] at hslot
      have hn' := hslot id m hn
      rw [heap_setNode_self] at hn'
      exact hn'.symm
  | addTask task env => trivial
  | removeTask taskID deleteOk => trivial
  | updateTask task env => trivial
  | pauseTask taskID => trivial
  | clearAllTasks order now => trivial
  | tick now => trivial
  | reject i => trivial
  | start i => trivial
  | finish i result => trivial
  | panic i => trivial
  | complete i => trivial

/-- **Slot and deadline agree.** In every serial run every registered node is in
the slot of its deadline after every step exactly when every task that is
resumed is resumed in its slot. The condition holds for
instance where the new deadline is a whole number of revolutions after the old one. -/
theorem linkedInSlot_iff (h : Started cfg w) (hI : cfg.interval = Duration.ofMilli I)
    {as : List Action} (hserial : Machine.Each (step cfg) (fun s a _ => Serial s a) (ofWheel w) as)
    (hwhole : ∀ a ∈ as, a.Whole) :
    Machine.Each (step cfg) (fun _ _ s' => LinkedInSlot cfg I s'.wheel) (ofWheel w) as
      ↔ Machine.Each (step cfg) (fun s a _ => ResumesInSlot cfg s a) (ofWheel w) as := by
  have hkeep : ∀ s a s', Serial s a ∧ a.Whole →
      ((∃ lists, SerialSound cfg s lists) ∧ AllTimely cfg I s.wheel
        ∧ ∀ e ∈ s.execs, WholeTime e.now) →
      step cfg s a = some s' → ResumesInSlot cfg s a →
      ((∃ lists, SerialSound cfg s' lists) ∧ AllTimely cfg I s'.wheel
        ∧ ∀ e ∈ s'.execs, WholeTime e.now) ∧ LinkedInSlot cfg I s'.wheel := by
    rintro s a s' ⟨ha, hwhole⟩ ⟨⟨lists, hs⟩, htimely, hexecs⟩ hstep hslot
    obtain ⟨lists', hs'⟩ := hs.of_step ha hstep
    have htimely' := htimely.of_step hs hI hexecs ha hwhole hslot hstep
    refine ⟨⟨⟨lists', hs'⟩, htimely', execs_whole hexecs hwhole hstep⟩, ?_⟩
    exact hs'.inv.linked_iff_slotIndex.mpr (fun id n hn => (htimely' id n hn).slotIndex)
  have hneed : ∀ s a s', Serial s a ∧ a.Whole →
      ((∃ lists, SerialSound cfg s lists) ∧ AllTimely cfg I s.wheel
        ∧ ∀ e ∈ s.execs, WholeTime e.now) →
      step cfg s a = some s' → LinkedInSlot cfg I s'.wheel → ResumesInSlot cfg s a := by
    rintro s a s' ⟨ha, hwhole⟩ ⟨⟨lists, hs⟩, htimely, -⟩ hstep hlinked
    obtain ⟨lists', hs'⟩ := hs.of_step ha hstep
    exact resumesInSlot_of_linked htimely hI hwhole hstep hs'.inv hlinked
  refine Machine.each_iff_along hkeep hneed (hserial.and (Machine.each_of_forall hwhole))
    ⟨⟨_, serialSound_of_started h⟩, fun id n hn => ?_, fun e he => absurd he List.not_mem_nil⟩
  exact absurd (hn.symm.trans (lookup_of_started h id)) (Option.some_ne_none n)

/-- A task that is executed and paused, and resumed in its slot a revolution
later. -/
theorem linkedInSlot_of_revolution :
    Machine.Each (step fourSlots) (fun _ _ s' => LinkedInSlot fourSlots 10 s'.wheel)
      (ofWheel fourSlotWheel)
      ([addAt 0 "a" .repeated 10 none] ++ ticksAt [10] ++ [.start 0, .finish 0 .zero, .complete 0,
        .pauseTask "a", .resumeTask "a" (Time.ofMilli 50)]) :=
  (linkedInSlot_iff started_fourSlotWheel rfl (by decide +kernel) (by decide +kernel)).mpr
    (by decide +kernel)

/-- **A task resumed late**: the task is due at 10 ms, paused, and resumed at
15 ms. It is due at 25 ms then and still in slot 1, which the ticks reach again
at 50 ms. -/
theorem not_linkedInSlot_of_resume :
    Machine.Each (step fourSlots) (fun s a _ => Serial s a) (ofWheel fourSlotWheel)
        [addAt 0 "a" .repeated 10 none, .pauseTask "a", .resumeTask "a" (Time.ofMilli 15)]
      ∧ ¬ Machine.Each (step fourSlots) (fun _ _ s' => LinkedInSlot fourSlots 10 s'.wheel)
        (ofWheel fourSlotWheel)
        [addAt 0 "a" .repeated 10 none, .pauseTask "a", .resumeTask "a" (Time.ofMilli 15)] := by
  refine ⟨by decide +kernel, ?_⟩
  have hrun : ((Machine.run (step fourSlots) (ofWheel fourSlotWheel)
      [addAt 0 "a" .repeated 10 none, .pauseTask "a"]).bind
        (fun t => step fourSlots t (.resumeTask "a" (Time.ofMilli 15)))).map
          (fun u => (u.wheel.lookup fourSlots "a",
            u.wheel.slotNodes (slotOf 10 4 (u.wheel.heap 0).runAt))) = some (some 0, []) := by
    decide +kernel
  obtain ⟨u, hu, hnodes⟩ := Option.map_eq_some_iff.mp hrun
  obtain ⟨t, ht, hstep⟩ := Option.bind_eq_some_iff.mp hu
  refine Machine.not_each_of_step ht hstep (fun hlinked => ?_)
  have hmem := hlinked "a" 0 (congrArg Prod.fst hnodes)
  have hnil : u.wheel.slotNodes (slotOf 10 4 (u.wheel.heap 0).runAt) = [] :=
    congrArg Prod.snd hnodes
  exact List.not_mem_nil (hnil ▸ hmem)

end Timewheel
