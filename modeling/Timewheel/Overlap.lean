import Timewheel.Isolation

/-!
# Serial runs and overlapping executions

A run is serial when calls and ticks wait until every execution has ended. In
a serial run a completion needs no luck: the node is still in the slot it was
collected from, since only its own execution could have moved it. So the wheel
is well formed in every state of a serial run (`wellFormed_of_serial`).

When executions overlap, the slot an execution remembers may be out of date,
and its locked section then moves on the head of a slot its node is not in.
`wellFormed_iff_ownList` says that this is the only way to break the wheel:
from a state of a serial run on, whatever ticks and executions do, the wheel
is well formed after every completion exactly when every completion takes its
node out of the list the node is in.

Both results rest on one step lemma. In a serial run executions remember the
right slot (`Seated`), because between the tick and their end nobody else
touches their nodes; without seriality this has to be assumed of each
completion, and it turns out that nothing less will do.
-/

namespace Timewheel

open DList Scheduler

variable {cfg : Config} {s s' : Scheduler} {w w' : TimeWheel}
  {lists lists' : ℕ → List NodeRef}

/-! ## Serial runs -/

/-- A serial step: a call or a tick finds no execution under way. Executions may
interleave with each other. -/
def Serial (s : Scheduler) (a : Action) : Prop :=
  (a.isCall = true ∨ a.isTick = true) → s.execs = []

instance (s : Scheduler) (a : Action) : Decidable (Serial s a) :=
  inferInstanceAs (Decidable ((_ ∨ _) → _))

/-- While its node carries a task, the slot an execution remembers is the slot
of the node. A node without a task has been released, and its slot does not
matter. -/
def Execution.Seated (w : TimeWheel) (e : Execution) : Prop :=
  (w.heap e.node).task ≠ none → (w.heap e.node).slotIndex = e.currentSlot

/-- The invariant of serial runs: besides soundness, no node has two executions,
and the executions are seated. With these two, completions are as they should
be. -/
structure SerialSound (cfg : Config) (s : Scheduler) (lists : ℕ → List NodeRef) : Prop
    extends Sound cfg s lists where
  distinct : (s.execs.map Execution.node).Nodup
  seated : ∀ e ∈ s.execs, e.Seated s.wheel

/-- With no execution under way the wheel is all there is. This is so at the
beginning, and whenever all executions have ended. -/
theorem serialSound_of_idle (hidle : s.execs = []) (h : Inv cfg s.wheel lists) :
    SerialSound cfg s lists := by
  refine ⟨⟨h, ?_⟩, ?_, ?_⟩
  all_goals rw [hidle]
  · exact fun _ he => absurd he List.not_mem_nil
  · exact List.nodup_nil
  · exact fun _ he => absurd he List.not_mem_nil

/-- In a serial run every step is careful. So the results about careful runs
apply. -/
theorem SerialSound.careful {a : Action} (h : SerialSound cfg s lists) (ha : Serial s a) :
    Careful cfg s a where
  idle := fun e he hg => by
    have hcall : a.isCall = true := by
      cases a with
      | addTask task env => rfl
      | updateTask task env => rfl
      | removeTask taskID deleteOk => rfl
      | pauseTask taskID => rfl
      | resumeTask taskID now => rfl
      | clearAllTasks order now => rfl
      | tick now => exact absurd hg (Set.notMem_empty _)
      | reject i => exact absurd hg (Set.notMem_empty _)
      | start i => exact absurd hg (Set.notMem_empty _)
      | finish i result => exact absurd hg (Set.notMem_empty _)
      | panic i => exact absurd hg (Set.notMem_empty _)
      | complete i => exact absurd hg (Set.notMem_empty _)
    rw [ha (Or.inl hcall)] at he
    exact List.not_mem_nil he
  own := fun i e _ he => by
    unfold Execution.OnOwnList
    split
    · by_cases ht : (s.wheel.heap e.node).task = none
      · exact Or.inl ht
      · exact Or.inr (Or.inr (Or.inl (h.seated e (List.mem_of_getElem? he) ht).symm))
    · trivial

/-- Executions stay seated in a step that does not touch their node. The slot is
written with the node only. -/
theorem Execution.Seated.changesOnly {n : NodeRef} {e : Execution} (h : e.Seated w)
    (hc : ChangesOnly n w w' lists lists') (hn : e.node ≠ n) : e.Seated w' := by
  have hpay := hc.payload e.node hn
  have htask : (w'.heap e.node).task = (w.heap e.node).task := by
    show (w'.heap e.node).payload.task = (w.heap e.node).payload.task
    rw [hpay]
  have hslot : (w'.heap e.node).slotIndex = (w.heap e.node).slotIndex := by
    show (w'.heap e.node).payload.slotIndex = (w.heap e.node).payload.slotIndex
    rw [hpay]
  intro ht
  rw [hslot]
  exact h (htask ▸ ht)

/-- The record of a result does not move a node. It writes two other fields. -/
theorem Execution.Seated.updateTaskResult {e : Execution} (h : e.Seated w) (n : NodeRef)
    (result : AlarmResult) (err : Option Err) :
    e.Seated (w.updateTaskResult n result err) := by
  by_cases hn : e.node = n
  · subst hn
    have hheap : (w.updateTaskResult e.node result err).heap e.node
        = { w.heap e.node with
            executed := (w.heap e.node).executed + 1, lastResult := result } := by
      rw [(updateTaskResult_core w e.node result err).heap, heap_setNode_self]
    unfold Execution.Seated
    rw [hheap]
    exact h
  · exact h.changesOnly (changesOnly_updateTaskResult w n result err (fun _ => [])) hn

/-- The node of the `i`-th execution belongs to no other one. So ending one
execution leaves the others seated. -/
theorem node_ne_of_mem_eraseIdx {es : List Execution} {i : ℕ} {e e' : Execution}
    (h : (es.map Execution.node).Nodup) (he : es[i]? = some e) (he' : e' ∈ es.eraseIdx i) :
    e'.node ≠ e.node := by
  induction es generalizing i with
  | nil => simp at he'
  | cons x xs ih =>
    have hx := List.nodup_cons.mp h
    cases i with
    | zero =>
      obtain rfl : x = e := by simpa using he
      have hmem : e' ∈ xs := by simpa using he'
      exact fun heq => hx.1 (heq ▸ List.mem_map_of_mem hmem)
    | succ i =>
      have he₀ : xs[i]? = some e := by simpa using he
      rw [List.eraseIdx_cons_succ] at he'
      rcases List.mem_cons.mp he' with rfl | hmem
      · exact fun heq => hx.1 (heq ▸ List.mem_map_of_mem (List.mem_of_getElem? he₀))
      · exact ih hx.2 he₀ hmem

/-- Fewer executions have fewer nodes. -/
theorem distinct_eraseIdx {es : List Execution} (i : ℕ)
    (h : (es.map Execution.node).Nodup) : ((es.eraseIdx i).map Execution.node).Nodup :=
  ((List.eraseIdx_sublist es i).map Execution.node).nodup h

/-- An execution that moves on keeps its node. Only its stage changes. -/
theorem distinct_set {es : List Execution} {i : ℕ} {e : Execution} (he : es[i]? = some e)
    (stage : Stage) (h : (es.map Execution.node).Nodup) :
    ((es.set i { e with stage := stage }).map Execution.node).Nodup := by
  rw [List.map_set]
  show ((es.map Execution.node).set i e.node).Nodup
  have hget : (es.map Execution.node)[i]? = some e.node := by
    rw [List.getElem?_map, he]
    rfl
  obtain ⟨hi, hget⟩ := List.getElem?_eq_some_iff.mp hget
  rw [← hget, List.set_getElem_self]
  exact h

/-- **A serial step keeps the serial invariant.** The cases are the actions; the
completion is the one that moves a node. -/
theorem SerialSound.of_step {a : Action} (h : SerialSound cfg s lists) (ha : Serial s a)
    (hstep : step cfg s a = some s') : ∃ lists', SerialSound cfg s' lists' := by
  have hcareful := h.careful ha
  obtain ⟨lists', hsound⟩ := h.toSound.of_step hcareful hstep
  -- the invariant of careful runs is kept already; what is left is that no two
  -- executions have a node in common, and that each node is in its slot
  suffices hexecs : (s'.execs.map Execution.node).Nodup ∧ ∀ e ∈ s'.execs, e.Seated s'.wheel
    from ⟨lists', hsound, hexecs.1, hexecs.2⟩
  cases stepped_of_step hstep with
  | call hcall hw =>
    -- a call only comes when nothing is under way
    have hnil := ha (Or.inl hcall)
    exact ⟨h.distinct, fun e he => absurd he (by
      show e ∉ s.execs
      rw [hnil]
      exact List.not_mem_nil)⟩
  | tick now =>
    have hnil := ha (Or.inr rfl)
    obtain ⟨hnodup, hcollect⟩ := collect_spec h.inv now
    dsimp only
    rw [hnil, List.nil_append]
    refine ⟨hnodup, fun e he _ => ?_⟩
    obtain ⟨c, t, hu, -⟩ := hcollect e he
    exact hu.slotIndex_eq
  | reject he hs =>
    exact ⟨distinct_eraseIdx _ h.distinct,
      fun e he => h.seated e (List.mem_of_mem_eraseIdx he)⟩
  | panic he hs =>
    exact ⟨distinct_eraseIdx _ h.distinct,
      fun e he => h.seated e (List.mem_of_mem_eraseIdx he)⟩
  | @start i e he hs =>
    have hseated := h.seated e (List.mem_of_getElem? he)
    unfold Scheduler.start
    cases s.wheel.checkTaskState e.node with
    | none =>
      exact ⟨distinct_eraseIdx _ h.distinct,
        fun e he => h.seated e (List.mem_of_mem_eraseIdx he)⟩
    | some task =>
      dsimp only
      cases s.wheel.runTaskCheck e.node task.copyTaskInfo with
      | some err =>
        refine ⟨distinct_set he _ h.distinct, fun e' he' => ?_⟩
        rcases List.mem_or_eq_of_mem_set he' with he' | rfl
        · exact (h.seated e' he').updateTaskResult _ _ _
        · exact hseated.updateTaskResult _ _ _
      | none =>
        refine ⟨distinct_set he _ h.distinct, fun e' he' => ?_⟩
        rcases List.mem_or_eq_of_mem_set he' with he' | rfl
        · exact h.seated e' he'
        · exact hseated
  | @finish i e info he hs result =>
    have hseated := h.seated e (List.mem_of_getElem? he)
    unfold Scheduler.finish
    dsimp only
    split_ifs
    · exact ⟨distinct_eraseIdx _ h.distinct,
        fun e' he' => (h.seated e' (List.mem_of_mem_eraseIdx he')).updateTaskResult _ _ _⟩
    · refine ⟨distinct_set he _ h.distinct, fun e' he' => ?_⟩
      rcases List.mem_or_eq_of_mem_set he' with he' | rfl
      · exact (h.seated e' he').updateTaskResult _ _ _
      · exact hseated.updateTaskResult _ _ _
  | @complete i e info result he hs =>
    refine ⟨distinct_eraseIdx _ h.distinct, fun e' he' => ?_⟩
    -- the completion moves the node of its own execution, so the others stay where they are
    have hne := node_ne_of_mem_eraseIdx h.distinct he he'
    have hseated := h.seated e' (List.mem_of_mem_eraseIdx he')
    rcases h.completed he hs (hcareful.own i e rfl he) with hw | ⟨k, c, t, -, hu, hown, hw⟩
    · rw [hw]
      exact hseated
    · obtain ⟨lists'', -, hc⟩ := lockedSection_evolves h.inv hu result e.now hown
      rw [hw]
      exact hseated.changesOnly hc hne

/-- The initial state of a system. It has no executions. -/
theorem serialSound_of_started (h : Started cfg w) : SerialSound cfg (ofWheel w) (fun _ => []) :=
  serialSound_of_idle rfl (inv_of_started h)

/-- **Serial use keeps the wheel well formed.** It is the invariant of serial
runs, read off in every state. -/
theorem wellFormed_of_serial (h : Started cfg w) {as : List Action}
    (hserial : Machine.Each (step cfg) (fun s a _ => Serial s a) (ofWheel w) as) :
    Machine.Each (step cfg) (fun _ _ s' => ∃ lists, WellFormed cfg s'.wheel lists)
      (ofWheel w) as := by
  have hstep : ∀ s a s', (∃ lists, SerialSound cfg s lists) → Serial s a →
      step cfg s a = some s' →
      (∃ lists, SerialSound cfg s' lists) ∧ ∃ lists, WellFormed cfg s'.wheel lists := by
    rintro s a s' ⟨lists, hs⟩ ha hstep
    obtain ⟨lists', hs'⟩ := hs.of_step ha hstep
    exact ⟨⟨lists', hs'⟩, lists', hs'.inv.wellFormed⟩
  exact Machine.Each.of_invariant hstep ⟨_, serialSound_of_started h⟩ hserial

/-- Two tasks in one slot, executed and rescheduled in turn, and one of them
removed. -/
theorem wellFormed_of_two_tasks :
    Machine.Each (step fourSlots) (fun _ _ s' => ∃ lists, WellFormed fourSlots s'.wheel lists)
      (ofWheel fourSlotWheel)
      ([addAt 0 "a" .repeated 10 none, addAt 0 "b" .once 10 none] ++ ticksAt [10]
        ++ [.start 0, .start 1, .finish 1 .zero, .complete 1, .finish 0 .zero, .complete 0,
          .pauseTask "a"] ++ ticksAt [20] ++ [.start 0, .removeTask "a" true]) :=
  wellFormed_of_serial started_fourSlotWheel (by decide +kernel)

/-! ## Overlapping executions -/

/-- A step other than a call is careful when its completion is. Ticks and starts
need no condition. -/
theorem careful_of_ownList {a : Action} (ha : a.isCall = false)
    (h : CompletesOnOwnList cfg s a) : Careful cfg s a where
  idle := fun e he => by
    have hgiven : a.given = ∅ := by
      cases a with
      | addTask task env => exact Bool.noConfusion ha
      | updateTask task env => exact Bool.noConfusion ha
      | removeTask taskID deleteOk => rfl
      | pauseTask taskID => rfl
      | resumeTask taskID now => rfl
      | clearAllTasks order now => rfl
      | tick now => rfl
      | reject i => rfl
      | start i => rfl
      | finish i result => rfl
      | panic i => rfl
      | complete i => rfl
    rw [hgiven]
    exact Set.notMem_empty _
  own := h

/-- **A completion from a foreign list breaks the wheel.** The head of the
foreign list is moved on, and a node drops out of it without being released. -/
theorem Sound.ownList_of_wellFormed {i : ℕ} (h : Sound cfg s lists)
    (hstep : step cfg s (.complete i) = some s') (hw : WellFormed cfg s'.wheel lists') :
    CompletesOnOwnList cfg s (.complete i) := by
  intro i' e ha he
  obtain rfl : i = i' := Action.complete.inj ha
  cases stepped_of_step hstep with
  | call hcall _ => exact Bool.noConfusion hcall
  | @complete _ e' info result he' hs =>
    obtain rfl : e' = e := Option.some.inj (he'.symm.trans he)
    unfold Execution.OnOwnList
    rw [hs]
    by_cases ht : (s.wheel.heap e'.node).task = none
    · exact Or.inl ht
    · obtain ⟨k, c, t, hr, hu, hinfo⟩ := (h.tracked e' (List.mem_of_getElem? he)).used ht
      rw [hs] at hinfo
      obtain rfl : info = t.copyTaskInfo := hinfo
      by_contra hown
      exact not_wellFormed_lockedSection h.inv hu result e'.now hown lists' hw

/-- **Overlapping executions.** Let a serial run lead to a state, and let only
ticks and executions follow. The wheel is well formed after every completion
exactly when every completion takes its node out of the list it is in. No
assumption is made on how the executions overlap, or on how long they last. -/
theorem wellFormed_iff_ownList (h : Started cfg w) {as : List Action}
    (hserial : Machine.Each (step cfg) (fun s a _ => Serial s a) (ofWheel w) as)
    (hrun : Machine.run (step cfg) (ofWheel w) as = some s) {bs : List Action}
    (hbs : ∀ a ∈ bs, a.isCall = false) :
    Machine.Each (step cfg) (fun _ a s' => (∃ i, a = .complete i) →
        ∃ lists, WellFormed cfg s'.wheel lists) s bs
      ↔ Machine.Each (step cfg) (fun s a _ => CompletesOnOwnList cfg s a) s bs := by
  have hserialStep : ∀ s a s', (∃ lists, SerialSound cfg s lists) → Serial s a →
      step cfg s a = some s' → ∃ lists, SerialSound cfg s' lists :=
    fun s a s' ⟨lists, hs⟩ ha hstep => hs.of_step ha hstep
  obtain ⟨lists, hsound⟩ :=
    Machine.inv_of_run hserialStep ⟨_, serialSound_of_started h⟩ hserial hrun
  have hkeep : ∀ s a s', a.isCall = false → (∃ lists, Sound cfg s lists) →
      step cfg s a = some s' → CompletesOnOwnList cfg s a →
      (∃ lists, Sound cfg s' lists)
        ∧ ((∃ i, a = .complete i) → ∃ lists, WellFormed cfg s'.wheel lists) := by
    rintro s a s' ha ⟨lists, hs⟩ hstep hown
    obtain ⟨lists', hs'⟩ := hs.of_step (careful_of_ownList ha hown) hstep
    exact ⟨⟨lists', hs'⟩, fun _ => ⟨lists', hs'.inv.wellFormed⟩⟩
  have hneed : ∀ s a s', a.isCall = false → (∃ lists, Sound cfg s lists) →
      step cfg s a = some s' →
      ((∃ i, a = .complete i) → ∃ lists, WellFormed cfg s'.wheel lists) →
      CompletesOnOwnList cfg s a := by
    rintro s a s' - ⟨lists, hs⟩ hstep hw i e rfl he
    obtain ⟨lists', hw'⟩ := hw ⟨i, rfl⟩
    exact hs.ownList_of_wellFormed hstep hw' i e rfl he
  exact Machine.each_iff_of_invariant hkeep hneed hbs ⟨lists, hsound.toSound⟩

/-- A task of 20 ms whose first execution lasts longer than a revolution: the
node is collected at 20 ms and again at 70 ms, and both executions run. -/
def overlappingRun : List Action :=
  ticksAt [10, 20, 30, 40, 50, 70]
    ++ [.start 0, .finish 0 .zero, .start 1, .finish 1 .zero, .complete 0]

/-- When the two executions complete at the same slot, all is well. -/
theorem wellFormed_of_timely_overlap :
    ∃ s, Machine.run (step fourSlots) (ofWheel fourSlotWheel) [addAt 0 "a" .repeated 40 none]
        = some s
      ∧ Machine.Each (step fourSlots) (fun _ a s' => (∃ i, a = .complete i) →
        ∃ lists, WellFormed fourSlots s'.wheel lists) s
        (ticksAt [10, 20, 30, 40, 50, 60, 70, 80] ++ [.start 0, .finish 0 .zero, .start 1,
          .complete 0, .finish 0 .zero, .complete 0]) := by
  obtain ⟨s, hs⟩ : ∃ s, Machine.run (step fourSlots) (ofWheel fourSlotWheel)
      [addAt 0 "a" .repeated 40 none] = some s :=
    Option.isSome_iff_exists.mp (by decide +kernel)
  have hall : Machine.Each (step fourSlots) (fun s a _ => CompletesOnOwnList fourSlots s a)
      (ofWheel fourSlotWheel) ([addAt 0 "a" .repeated 40 none]
        ++ (ticksAt [10, 20, 30, 40, 50, 60, 70, 80] ++ [.start 0, .finish 0 .zero, .start 1,
          .complete 0, .finish 0 .zero, .complete 0])) := by decide +kernel
  exact ⟨s, hs, (wellFormed_iff_ownList started_fourSlotWheel (by decide +kernel) hs
    (by decide)).mpr ((Machine.each_append.mp hall).2 s hs)⟩

/-- **A stale slot**: when the second execution completes, the first one has
moved the node to slot 0. The second one moves on the head of slot 2, where it
was collected, and pushes the node to slot 1, so that slots 0 and 1 both hold
it. -/
theorem not_wellFormed_of_overlap :
    ∃ s, Machine.run (step fourSlots) (ofWheel fourSlotWheel) [addAt 0 "a" .repeated 20 none]
        = some s
      ∧ ¬ Machine.Each (step fourSlots) (fun _ a s' => (∃ i, a = .complete i) →
        ∃ lists, WellFormed fourSlots s'.wheel lists) s (overlappingRun ++ [.complete 0]) := by
  have hrun : ((Machine.run (step fourSlots) (ofWheel fourSlotWheel)
      ([addAt 0 "a" .repeated 20 none] ++ overlappingRun)).bind
        (fun t => step fourSlots t (.complete 0))).map
          (fun u => (u.wheel.slots 0, u.wheel.slots 1)) = some (some 0, some 0) := by
    decide +kernel
  obtain ⟨u, hu, hslots⟩ := Option.map_eq_some_iff.mp hrun
  obtain ⟨t, ht, hstep⟩ := Option.bind_eq_some_iff.mp hu
  rw [Machine.run_append] at ht
  obtain ⟨s, hs, ht⟩ := Option.bind_eq_some_iff.mp ht
  refine ⟨s, hs, Machine.not_each_of_step ht hstep (fun hw => ?_)⟩
  obtain ⟨lists, hw⟩ := hw ⟨0, rfl⟩
  have h₀ := hw.mem_of_slots (congrArg Prod.fst hslots)
  have h₁ := hw.mem_of_slots (congrArg Prod.snd hslots)
  exact absurd (hw.family.disjoint 0 1 0 h₀ h₁) (by decide)

end Timewheel
