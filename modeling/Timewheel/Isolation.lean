import Timewheel.Exec

/-!
# Registrations under node reuse

Each successful `AddTask` is a registration, and its context identifies it.
An execution holds a pointer to the node of the registration it was collected
for; nodes are recycled, and all that protects a new registration from an old
execution is that a released node carries no task.

That is enough as long as a node is not handed out again while an execution
still holds it, and as long as the locked section takes the node out of the
list it is in. `Sound` is the invariant: the wheel is well formed, and the
node of every execution is either in use for the registration it was collected
for or released. `isolated_of_careful` draws the conclusion for every run.

The condition (`Careful`) is about two things only, and each can be seen in
the state before the step. It says nothing about how executions and calls
interleave. The proof follows the invariant through the actions; most of the
work is in `Evolves`, which says how an operation of the wheel may change the
nodes that executions hold.
-/

namespace Timewheel

open DList Scheduler

variable {cfg : Config} {s s' : Scheduler} {w w' : TimeWheel}
  {lists lists' : ℕ → List NodeRef}

/-! ## The initial state -/

/-- `w` is a wheel that has just been constructed and started. With or without a
cache and a store. -/
def Started (cfg : Config) (w : TimeWheel) : Prop :=
  ∃ cacheEnabled store now₀ now,
    TimeWheel.start cfg (TimeWheel.new cacheEnabled store now₀) now = some w

/-- **A wheel that holds nothing** satisfies the invariant. All nodes are free. -/
theorem inv_empty (hslots : ∀ i, w.slots i = none)
    (hshards : ∀ j id, (w.shards j).lookup id = none) (hpool : w.taskPool = []) :
    Inv cfg w (fun _ => []) where
  family := ⟨hslots, fun _ _ _ h _ => absurd h List.not_mem_nil⟩
  node := fun n => by
    refine Or.inr ⟨fun _ => List.not_mem_nil, fun j id hentry => ?_⟩
    exact Option.some_ne_none n (hentry.symm.trans (hshards j id))
  ctx_inj := fun hm _ => absurd hm.mem List.not_mem_nil
  pool_nodup := hpool ▸ List.nodup_nil
  pool_lt := fun n h => absurd (hpool ▸ h) List.not_mem_nil

/-- Only the cursor of a wheel is set when it is started. So everything that
holds of a new wheel holds of it. -/
theorem Started.eq_new (h : Started cfg w) : ∃ cacheEnabled store now₀ slot,
    w = { TimeWheel.new cacheEnabled store now₀ with running := true, currentSlot := slot } := by
  obtain ⟨cacheEnabled, store, now₀, now, h⟩ := h
  unfold TimeWheel.start at h
  rw [if_neg (by exact Bool.false_ne_true)] at h
  obtain ⟨slot, -, rfl⟩ := Option.map_eq_some_iff.mp h
  exact ⟨cacheEnabled, store, now₀, slot, rfl⟩

/-- The runs below begin with the invariant. -/
theorem inv_of_started (h : Started cfg w) : Inv cfg w (fun _ => []) := by
  obtain ⟨cacheEnabled, store, now₀, slot, rfl⟩ := h.eq_new
  exact inv_empty (fun _ => rfl) (fun _ id => AList.lookup_empty id) rfl

/-- A wheel that has just been started has no tasks. Nothing has been
registered. -/
theorem lookup_of_started (h : Started cfg w) (id : String) : w.lookup cfg id = none := by
  cases hid : w.lookup cfg id with
  | none => rfl
  | some n =>
    obtain ⟨i, c, t, hu, -⟩ := (inv_of_started h).used_of_lookup hid
    exact absurd hu.mem List.not_mem_nil

/-! ### A small wheel

Concrete runs below take place on a wheel of four slots of 10 ms, started at
time 0. -/

/-- Four slots of 10 ms, without sinks. -/
def fourSlots : Config where
  slotNum := 4
  interval := Duration.ofMilli 10
  shardNum := 64
  sinks := ⟨false, false, false⟩
  slotNum_pos := by decide
  interval_pos := by decide
  shardNum_pos := by decide

/-- The wheel after `New` and `Start`. Runs can be evaluated on it. -/
def fourSlotWheel : TimeWheel :=
  { TimeWheel.new false none Time.zero with running := true, currentSlot := 0 }

/-- Started at time 0, the wheel begins at its first slot. -/
theorem start_fourSlots (store : Option (AList (fun _ : String => Task))) :
    (TimeWheel.new false store Time.zero).start fourSlots (Time.ofMilli 0)
      = some { TimeWheel.new false store Time.zero with running := true, currentSlot := 0 } := by
  unfold TimeWheel.start
  rw [if_neg (by exact Bool.false_ne_true)]
  show (initialSlot (Duration.ofMilli 10) 4 (Time.ofMilli 0)).map _ = _
  rw [initialSlot_ofMilli (by decide)]
  rfl

/-- It is as the theorems want it. -/
theorem started_fourSlotWheel : Started fourSlots fourSlotWheel :=
  ⟨false, none, Time.zero, Time.ofMilli 0, start_fourSlots none⟩

/-- `AddTask` at `now` ms of a task to run every `interval` ms; `node` is what
the pool hands out. -/
def addAt (now : ℕ) (id : String) (mode : TaskMode) (interval : ℕ) (node : Option NodeRef) :
    Action :=
  .addTask (some (Task.plain id mode (Duration.ofMilli interval)))
    ⟨Time.ofMilli now, node, ⟨Time.zero, [], []⟩, true⟩

/-- The ticks at the given milliseconds. -/
def ticksAt (times : List ℕ) : List Action := times.map (fun now => .tick (Time.ofMilli now))

/-! ## The invariant of the system -/

/-- The snapshot an execution works with is the one of `task`. It is taken when
the execution starts. -/
def Stage.InfoOf (task : Task) : Stage → Prop
  | .collected => True
  | .running info => info = task.copyTaskInfo
  | .finished info _ => info = task.copyTaskInfo

/-- **The node of the execution is its own or nobody's**: it is in use for the
registration the execution was collected for, or released. In the second case
the execution will find no task, and do nothing. -/
structure Tracked (cfg : Config) (w : TimeWheel) (lists : ℕ → List NodeRef)
    (e : Execution) : Prop where
  allocated : e.node < w.nextNode
  status : (∃ i c t, e.registration = some c ∧ Used cfg w lists e.node i c t
    ∧ e.stage.InfoOf t) ∨ Released w lists e.node

/-- The invariant of the wheel with its executions. The lists are an existential
in the results. -/
structure Sound (cfg : Config) (s : Scheduler) (lists : ℕ → List NodeRef) : Prop where
  inv : Inv cfg s.wheel lists
  tracked : ∀ e ∈ s.execs, Tracked cfg s.wheel lists e

/-- A step that keeps the node keeps track of it. A node that is handed out anew
is the exception. -/
theorem Tracked.evolves {given : Set NodeRef} {e : Execution} (h : Tracked cfg w lists e)
    (hw : Evolves cfg given w w' lists lists') (hg : e.node ∉ given) :
    Tracked cfg w' lists' e where
  allocated := lt_of_lt_of_le h.allocated hw.nextNode
  status := by
    have hk := hw.keeps e.node h.allocated hg
    rcases h.status with ⟨i, c, t, hr, hu, hinfo⟩ | hrel
    · exact (hk.used i c t hu).imp_left (fun ⟨j, hu'⟩ => ⟨j, c, t, hr, hu', hinfo⟩)
    · exact Or.inr (hk.released hrel)

/-- An execution that moves on to a stage with the snapshot of its task. The
node is not looked at. -/
theorem Tracked.setStage {e : Execution} (h : Tracked cfg w lists e) {stage : Stage}
    (hstage : ∀ i c t, e.registration = some c → Used cfg w lists e.node i c t →
      e.stage.InfoOf t → stage.InfoOf t) :
    Tracked cfg w lists { e with stage := stage } where
  allocated := h.allocated
  status := h.status.imp_left (fun ⟨i, c, t, hr, hu, hinfo⟩ =>
    ⟨i, c, t, hr, hu, hstage i c t hr hu hinfo⟩)

/-- While its node carries a task, an execution is tracked to it. A released
node carries none. -/
theorem Tracked.used {e : Execution} (h : Tracked cfg w lists e)
    (ht : (w.heap e.node).task ≠ none) :
    ∃ i c t, e.registration = some c ∧ Used cfg w lists e.node i c t ∧ e.stage.InfoOf t :=
  h.status.resolve_right (fun hr => ht hr.task)

/-- The system after the step of the wheel, for the executions that stay. Each
of them is tracked on its own. -/
theorem Sound.evolves {given : Set NodeRef} (h : Sound cfg s lists)
    (hw : Evolves cfg given s.wheel w' lists lists') (hg : ∀ e ∈ s.execs, e.node ∉ given)
    {execs : List Execution}
    (hexecs : ∀ e ∈ execs, e ∈ s.execs ∨ Tracked cfg w' lists' e) :
    ∀ e ∈ execs, Tracked cfg w' lists' e := by
  intro e he
  rcases hexecs e he with he | ht
  · exact (h.tracked e he).evolves hw (hg e he)
  · exact ht

/-! ## The condition -/

/-- The locked section of the execution, if that is what comes next, takes the
node out of the list it is in. In the other stages nothing is unlinked. -/
def Execution.OnOwnList (cfg : Config) (w : TimeWheel) (e : Execution) : Prop :=
  match e.stage with
  | .finished info _ => UnlinksOwnList cfg w e.node info e.now e.currentSlot
  | _ => True

/-- A step that completes an execution takes the node out of the list it is in.
Other actions unlink through the map, where the slot is the right one. -/
def CompletesOnOwnList (cfg : Config) (s : Scheduler) (a : Action) : Prop :=
  ∀ i e, a = .complete i → s.execs[i]? = some e → e.OnOwnList cfg s.wheel

/-- **The condition on a step**: a call hands out no node that an execution
still holds, and a completion takes the node out of the list it is in. In serial
use both are met by themselves. -/
structure Careful (cfg : Config) (s : Scheduler) (a : Action) : Prop where
  idle : ∀ e ∈ s.execs, e.node ∉ a.given
  own : CompletesOnOwnList cfg s a

instance (cfg : Config) (w : TimeWheel) (e : Execution) : Decidable (e.OnOwnList cfg w) :=
  match h : e.stage with
  | .finished info _ =>
    decidable_of_iff (UnlinksOwnList cfg w e.node info e.now e.currentSlot)
      (by unfold Execution.OnOwnList; rw [h])
  | .collected => isTrue (by unfold Execution.OnOwnList; rw [h]; trivial)
  | .running _ => isTrue (by unfold Execution.OnOwnList; rw [h]; trivial)

instance (cfg : Config) (s : Scheduler) : ∀ a, Decidable (CompletesOnOwnList cfg s a)
  | .complete i =>
    decidable_of_iff (∀ e ∈ s.execs[i]?, e.OnOwnList cfg s.wheel)
      ⟨fun h _ e hj he => h e (Action.complete.inj hj ▸ he), fun h e he => h i e rfl he⟩
  | .addTask _ _ => isTrue (fun _ _ => Action.noConfusion)
  | .removeTask _ _ => isTrue (fun _ _ => Action.noConfusion)
  | .updateTask _ _ => isTrue (fun _ _ => Action.noConfusion)
  | .pauseTask _ => isTrue (fun _ _ => Action.noConfusion)
  | .resumeTask _ _ => isTrue (fun _ _ => Action.noConfusion)
  | .clearAllTasks _ _ => isTrue (fun _ _ => Action.noConfusion)
  | .tick _ => isTrue (fun _ _ => Action.noConfusion)
  | .reject _ => isTrue (fun _ _ => Action.noConfusion)
  | .start _ => isTrue (fun _ _ => Action.noConfusion)
  | .finish _ _ => isTrue (fun _ _ => Action.noConfusion)
  | .panic _ => isTrue (fun _ _ => Action.noConfusion)

instance (cfg : Config) (s : Scheduler) (a : Action) : Decidable (Careful cfg s a) :=
  decidable_of_iff ((∀ e ∈ s.execs, e.node ∉ a.given) ∧ CompletesOnOwnList cfg s a)
    ⟨fun h => ⟨h.1, h.2⟩, fun h => ⟨h.idle, h.own⟩⟩

/-! ## One step -/

/-- A call of the interface. -/
theorem call_evolves {a : Action} (h : Inv cfg s.wheel lists) (hcall : a.isCall = true)
    (hstep : step cfg s a = some { s with wheel := w }) :
    ∃ lists', Evolves cfg a.given s.wheel w lists lists' := by
  have hcalled : Called cfg s.wheel a w := called_of_step hcall hstep
  cases hcalled with
  | addTask task env =>
    exact addTask_evolves h task env
  | removeTask taskID deleteOk =>
    exact removeTask_evolves h taskID deleteOk
  | updateTask task env =>
    exact updateTask_evolves h task env
  | pauseTask taskID =>
    exact ⟨lists, pauseTask_evolves h taskID⟩
  | resumeTask taskID now =>
    exact ⟨lists, resumeTask_evolves h taskID now⟩
  | clearAllTasks order now =>
    exact clearAllTasks_evolves h order now

/-- The nodes a tick collects are nodes of its slot, each once. They are in use,
since they are in a list. -/
theorem collect_spec (h : Inv cfg w lists) (now : Time) :
    ((collect cfg w now).map Execution.node).Nodup
      ∧ ∀ e ∈ collect cfg w now, ∃ c t,
        Used cfg w lists e.node e.currentSlot c t ∧ e.registration = some c
          ∧ e.stage = .collected ∧ e.now = now := by
  unfold collect TimeWheel.tick
  dsimp only
  have hmem : ∀ n, n ∈ ((w.slotNodes (tickSlot cfg.slotNum w.currentSlot)).filter
      (fun n => isDue now (w.heap n).runAt)).insertionSort
        (fun a b => w.runsBefore b a = false) →
      n ∈ lists (tickSlot cfg.slotNum w.currentSlot) := by
    intro n hn
    rw [List.mem_insertionSort, List.mem_filter, h.slotNodes_eq] at hn
    exact hn.1
  constructor
  · rw [List.map_map, show (Execution.node ∘ fun n => (⟨n, (w.heap n).ctx, now,
      tickSlot cfg.slotNum w.currentSlot, .collected⟩ : Execution)) = id from rfl, List.map_id]
    rw [(List.perm_insertionSort _ _).nodup_iff, h.slotNodes_eq]
    exact (h.family.chain _).nodup.filter _
  · intro e he
    obtain ⟨n, hn, rfl⟩ := List.mem_map.mp he
    obtain ⟨c, t, hu⟩ := h.used_of_mem (hmem n hn)
    exact ⟨c, t, hu, hu.ctx_eq, rfl, rfl⟩

/-- A tick writes the cursor. Nodes and maps are not touched. -/
theorem tick_core (cfg : Config) (w : TimeWheel) (now : Time) :
    SameCore w (w.tick cfg now).2.2 := ⟨rfl, rfl, rfl, rfl, rfl, rfl, rfl⟩

/-- So every execution is still tracked. -/
theorem SameCore.tracked (hc : SameCore w w') {e : Execution} (h : Tracked cfg w lists e) :
    Tracked cfg w' lists e where
  allocated := hc.nextNode ▸ h.allocated
  status := h.status.imp (fun ⟨i, c, t, hr, hu, hinfo⟩ => ⟨i, c, t, hr, hc.used hu, hinfo⟩)
    (fun hr => ⟨hc.free hr.toFree, hc.heap ▸ hr.task⟩)

/-- The start of an execution: which task it finds on its node. By the invariant
it is the task of its own registration. -/
theorem checkTaskState_eq {e : Execution} {task : Task}
    (h : w.checkTaskState e.node = some task) (ht : Tracked cfg w lists e) :
    ∃ i c, e.registration = some c ∧ Used cfg w lists e.node i c task
      ∧ (w.heap e.node).paused = false := by
  unfold TimeWheel.checkTaskState at h
  by_cases hp : (w.heap e.node).paused = true
  · rw [if_pos hp] at h
    exact absurd h (Option.some_ne_none task).symm
  · rw [if_neg hp] at h
    obtain ⟨i, c, t, hr, hu, -⟩ := ht.used (by rw [h]; exact Option.some_ne_none task)
    obtain rfl : t = task := Option.some.inj (hu.task_eq.symm.trans h)
    exact ⟨i, c, hr, hu, by simpa using hp⟩

/-- **What a completion can do**: nothing, when its node has lost its task, and
else what the locked section does to the registration it belongs to. The
registration is the one the execution was collected for. -/
theorem Sound.completed {i : ℕ} {e : Execution} {info : TaskInfo} {result : AlarmResult}
    (h : Sound cfg s lists) (he : s.execs[i]? = some e) (hs : e.stage = .finished info result)
    (hown : e.OnOwnList cfg s.wheel) :
    (s.complete cfg i e info result).wheel = s.wheel
      ∨ ∃ k c t, e.registration = some c ∧ Used cfg s.wheel lists e.node k c t
        ∧ UnlinksOwnList cfg s.wheel e.node t.copyTaskInfo e.now e.currentSlot
        ∧ (s.complete cfg i e info result).wheel
          = s.wheel.lockedSection cfg e.node t.copyTaskInfo result e.now e.currentSlot := by
  unfold Execution.OnOwnList at hown
  rw [hs] at hown
  by_cases ht : (s.wheel.heap e.node).task = none
  · exact Or.inl (lockedSection_of_task_none ht info result e.now e.currentSlot)
  · obtain ⟨k, c, t, hr, hu, hinfo⟩ := (h.tracked e (List.mem_of_getElem? he)).used ht
    rw [hs] at hinfo
    obtain rfl : info = t.copyTaskInfo := hinfo
    exact Or.inr ⟨k, c, t, hr, hu, hown, rfl⟩

/-- **A careful step keeps the invariant.** -/
theorem Sound.of_step {a : Action} (h : Sound cfg s lists) (hcareful : Careful cfg s a)
    (hstep : step cfg s a = some s') : ∃ lists', Sound cfg s' lists' := by
  have hnone : ∀ e ∈ s.execs, e.node ∉ (∅ : Set NodeRef) := fun _ _ => Set.notMem_empty _
  cases stepped_of_step hstep with
  | call hcall hw =>
    obtain ⟨lists', hev⟩ := call_evolves h.inv hcall hw
    exact ⟨lists', hev.inv, h.evolves hev hcareful.idle (fun e he => Or.inl he)⟩
  | tick now =>
    have hcore := tick_core cfg s.wheel now
    refine ⟨lists, hcore.inv h.inv, fun e he => hcore.tracked ?_⟩
    rcases List.mem_append.mp he with he | he
    · exact h.tracked e he
    · obtain ⟨c, t, hu, hr, hst, -⟩ := (collect_spec h.inv now).2 e he
      refine ⟨hu.allocated, Or.inl ⟨_, c, t, hr, hu, ?_⟩⟩
      rw [hst]
      trivial
  | reject he hs =>
    exact ⟨lists, h.inv, fun e he => h.tracked e (List.mem_of_mem_eraseIdx he)⟩
  | panic he hs =>
    exact ⟨lists, h.inv, fun e he => h.tracked e (List.mem_of_mem_eraseIdx he)⟩
  | @start i e he hs =>
    have htr := h.tracked e (List.mem_of_getElem? he)
    unfold Scheduler.start
    cases hcheck : s.wheel.checkTaskState e.node with
    | none => exact ⟨lists, h.inv, fun e he => h.tracked e (List.mem_of_mem_eraseIdx he)⟩
    | some task =>
      obtain ⟨k, c, hr, hu, -⟩ := checkTaskState_eq hcheck htr
      -- the snapshot is taken from the task the node is in use for
      have hsnap : ∀ stage : Stage, stage.InfoOf task →
          ∀ w', Evolves cfg ∅ s.wheel w' lists lists →
          Tracked cfg w' lists { e with stage := stage } := fun stage hinfo w' hev =>
        (htr.setStage (fun _ _ t _ hu' _ => (hu.unique hu').2.2 ▸ hinfo)).evolves hev
          (Set.notMem_empty _)
      dsimp only
      cases s.wheel.runTaskCheck e.node task.copyTaskInfo with
      | some err =>
        have hev := updateTaskResult_evolves h.inv e.node AlarmResult.zero (some err)
        refine ⟨lists, hev.inv, h.evolves hev hnone (fun e' he' => ?_)⟩
        rcases List.mem_or_eq_of_mem_set he' with he' | rfl
        · exact Or.inl he'
        · exact Or.inr (hsnap (.finished task.copyTaskInfo AlarmResult.zero) rfl _ hev)
      | none =>
        refine ⟨lists, h.inv, h.evolves (.refl h.inv) hnone (fun e' he' => ?_)⟩
        rcases List.mem_or_eq_of_mem_set he' with he' | rfl
        · exact Or.inl he'
        · exact Or.inr (hsnap (.running task.copyTaskInfo) rfl _ (.refl h.inv))
  | @finish i e info he hs result =>
    have htr := h.tracked e (List.mem_of_getElem? he)
    have hev := updateTaskResult_evolves h.inv e.node result none
    unfold Scheduler.finish
    dsimp only
    split_ifs
    · exact ⟨lists, hev.inv, h.evolves hev hnone
        (fun e' he' => Or.inl (List.mem_of_mem_eraseIdx he'))⟩
    · refine ⟨lists, hev.inv, h.evolves hev hnone (fun e' he' => ?_)⟩
      rcases List.mem_or_eq_of_mem_set he' with he' | rfl
      · exact Or.inl he'
      · have hstage : Tracked cfg s.wheel lists { e with stage := .finished info result } :=
          htr.setStage (fun _ _ t _ _ hinfo => by rw [hs] at hinfo; exact hinfo)
        exact Or.inr (hstage.evolves hev (Set.notMem_empty _))
  | @complete i e info result he hs =>
    have hstay : ∀ e', e' ∈ s.execs.eraseIdx i → e' ∈ s.execs := fun _ =>
      List.mem_of_mem_eraseIdx
    rcases h.completed he hs (hcareful.own i e rfl he) with hw | ⟨k, c, t, -, hu, hown, hw⟩
    · refine ⟨lists, hw ▸ h.inv, fun e' he' => ?_⟩
      rw [hw]
      exact h.tracked e' (hstay e' he')
    · obtain ⟨lists', hev, -⟩ := lockedSection_evolves h.inv hu result e.now hown
      refine ⟨lists', hw ▸ hev.inv, ?_⟩
      rw [hw]
      exact h.evolves hev hnone (fun e' he' => Or.inl (hstay e' he'))

/-! ## Isolation -/

/-- **A completion for the registration `r` leaves the others alone**: their
entries in the map, every field of their nodes – alert state, `runAt` and slot
among them – and their order in the slots. When `r` is gone it changes
nothing. -/
structure LeavesOthers (cfg : Config) (r : Option CtxRef) (w w' : TimeWheel) : Prop where
  entry : ∀ id m, w.lookup cfg id = some m → (w.heap m).ctx ≠ r → w'.lookup cfg id = some m
  fields : ∀ id m, w.lookup cfg id = some m → (w.heap m).ctx ≠ r →
    (w'.heap m).payload = (w.heap m).payload
  position : ∀ i, (w'.slotNodes i).filter (fun m => (w.heap m).ctx ≠ r)
    = (w.slotNodes i).filter (fun m => (w.heap m).ctx ≠ r)
  gone : (∀ id m, w.lookup cfg id = some m → (w.heap m).ctx ≠ r) → w' = w

/-- **An isolated step.** So far every execution has called the function of
the registration it was collected for, and if the step completes an execution
it leaves the other registrations alone. -/
structure IsolatedStep (cfg : Config) (s : Scheduler) (a : Action) (s' : Scheduler) : Prop where
  invokes : ∀ inv ∈ s'.invoked, inv.collectedFor = some inv.registration
  completes : ∀ i e, a = .complete i → s.execs[i]? = some e →
    LeavesOthers cfg e.registration s.wheel s'.wheel

/-- Nothing is changed, and so nothing of others. -/
theorem LeavesOthers.refl (cfg : Config) (r : Option CtxRef) (w : TimeWheel) :
    LeavesOthers cfg r w w :=
  ⟨fun _ _ h _ => h, fun _ _ _ _ => rfl, fun _ => rfl, fun _ => rfl⟩

/-- The nodes of other registrations are the nodes other than `n`. -/
theorem Inv.ctx_ne_iff {n m : NodeRef} {i j : ℕ} {c : CtxRef} {t : Task}
    (h : Inv cfg w lists) (hu : Used cfg w lists n i c t) (hm : m ∈ lists j) :
    (w.heap m).ctx ≠ some c ↔ m ≠ n := by
  obtain ⟨d, s, hum⟩ := h.used_of_mem hm
  rw [hum.ctx_eq, Ne, Option.some.injEq]
  refine not_congr ⟨?_, ?_⟩
  · rintro rfl
    exact h.ctx_inj hum hu
  · rintro rfl
    exact (hum.unique hu).2.1

/-- **A change at the node of a registration leaves the others alone.** -/
theorem ChangesOnly.leavesOthers {n : NodeRef} {i : ℕ} {c : CtxRef} {t : Task}
    (hc : ChangesOnly n w w' lists lists') (h : Inv cfg w lists) (h' : Inv cfg w' lists')
    (hu : Used cfg w lists n i c t) : LeavesOthers cfg (some c) w w' := by
  have hne : ∀ m, (w.heap m).ctx ≠ some c → m ≠ n := by
    rintro m hm rfl
    exact hm hu.ctx_eq
  refine ⟨fun id m hid hm => (hc.entry _ _ m (hne m hm)).mpr hid,
    fun id m _ hm => hc.payload m (hne m hm), fun k => ?_, fun hgone => ?_⟩
  · rw [h.slotNodes_eq, h'.slotNodes_eq]
    have hleft : (lists' k).filter (fun m => (w.heap m).ctx ≠ some c)
        = (lists' k).filter (· ≠ n) := by
      refine List.filter_congr (fun m hm => ?_)
      by_cases hmn : m = n
      · subst hmn
        simp [hu.ctx_eq]
      · have := (h.ctx_ne_iff hu ((hc.mem_iff hmn k).mp hm)).mpr hmn
        simp [this, hmn]
    have hright : (lists k).filter (fun m => (w.heap m).ctx ≠ some c)
        = (lists k).filter (· ≠ n) := by
      refine List.filter_congr (fun m hm => ?_)
      have := h.ctx_ne_iff hu hm
      simp only [decide_eq_decide]
      exact this
    rw [hleft, hright, hc.order k]
  · exact absurd hu.ctx_eq (hgone t.id n hu.lookup)

/-- **A careful step is isolated.** -/
theorem Sound.isolated {a : Action} (h : Sound cfg s lists)
    (hinvoked : ∀ inv ∈ s.invoked, inv.collectedFor = some inv.registration)
    (hcareful : Careful cfg s a) (hstep : step cfg s a = some s') :
    IsolatedStep cfg s a s' := by
  have hno : ∀ {a : Action}, (∀ i, a ≠ .complete i) → ∀ i e, a = .complete i →
      s.execs[i]? = some e → LeavesOthers cfg e.registration s.wheel s'.wheel :=
    fun hne i _ ha _ => absurd ha (hne i)
  cases stepped_of_step hstep with
  | call hcall hw =>
    refine ⟨hinvoked, hno (fun i ha => ?_)⟩
    subst ha
    exact Bool.noConfusion hcall
  | tick now => exact ⟨hinvoked, hno (fun _ => Action.noConfusion)⟩
  | reject he hs => exact ⟨hinvoked, hno (fun _ => Action.noConfusion)⟩
  | panic he hs => exact ⟨hinvoked, hno (fun _ => Action.noConfusion)⟩
  | @start i e he hs =>
    refine ⟨?_, hno (fun _ => Action.noConfusion)⟩
    unfold Scheduler.start
    cases hcheck : s.wheel.checkTaskState e.node with
    | none => exact hinvoked
    | some task =>
      dsimp only
      cases s.wheel.runTaskCheck e.node task.copyTaskInfo with
      | some err => exact hinvoked
      | none =>
        obtain ⟨k, c, hr, hu, -⟩ :=
          checkTaskState_eq hcheck (h.tracked e (List.mem_of_getElem? he))
        intro inv hinv
        rcases List.mem_append.mp hinv with hinv | hinv
        · exact hinvoked inv hinv
        · rw [hu.ctx_eq] at hinv
          obtain rfl : inv = ⟨e.registration, c, task⟩ := by simpa using hinv
          exact hr
  | @finish i e info he hs result =>
    refine ⟨?_, hno (fun _ => Action.noConfusion)⟩
    unfold Scheduler.finish
    dsimp only
    split_ifs
    · exact hinvoked
    · exact hinvoked
  | @complete i e info result he hs =>
    refine ⟨hinvoked, fun i' e' ha he' => ?_⟩
    obtain rfl : i = i' := Action.complete.inj ha
    obtain rfl : e = e' := Option.some.inj (he.symm.trans he')
    rcases h.completed he hs (hcareful.own i e rfl he) with hw | ⟨k, c, t, hr, hu, hown, hw⟩
    · rw [hw]
      exact .refl cfg _ _
    · obtain ⟨lists', hev, hc⟩ := lockedSection_evolves h.inv hu result e.now hown
      rw [hr, hw]
      exact hc.leavesOthers h.inv hev.inv hu

/-- The initial state of a system is sound. -/
theorem sound_of_started (h : Started cfg w) : Sound cfg (ofWheel w) (fun _ => []) :=
  ⟨inv_of_started h, fun _ he => absurd he List.not_mem_nil⟩

/-- **Isolation of registrations.** In a run in which no call hands out a node
that an execution still holds, and every completion takes its node out of the
list it is in, no execution calls the function of a registration other than
its own, and no completion changes anything of another registration. -/
theorem isolated_of_careful (h : Started cfg w) {as : List Action}
    (hcareful : Machine.Each (step cfg) (fun s a _ => Careful cfg s a) (ofWheel w) as) :
    Machine.Each (step cfg) (IsolatedStep cfg) (ofWheel w) as := by
  have hstep : ∀ s a s', ((∃ lists, Sound cfg s lists)
      ∧ ∀ inv ∈ s.invoked, inv.collectedFor = some inv.registration) → Careful cfg s a →
      step cfg s a = some s' →
      ((∃ lists, Sound cfg s' lists)
        ∧ ∀ inv ∈ s'.invoked, inv.collectedFor = some inv.registration)
      ∧ IsolatedStep cfg s a s' := by
    rintro s a s' ⟨⟨lists, hsound⟩, hinvoked⟩ hc hs
    have hiso := hsound.isolated hinvoked hc hs
    exact ⟨⟨hsound.of_step hc hs, hiso.invokes⟩, hiso⟩
  exact Machine.Each.of_invariant hstep
    ⟨⟨_, sound_of_started h⟩, fun _ hinv => absurd hinv List.not_mem_nil⟩ hcareful

/-- A task is replaced while its execution is under way, on a new node: the
late completion finds its node released. -/
theorem isolated_of_newNode :
    Machine.Each (step fourSlots) (IsolatedStep fourSlots) (ofWheel fourSlotWheel)
      ([addAt 0 "a" .repeated 10 none] ++ ticksAt [10] ++ [.start 0, .removeTask "a" true,
        addAt 15 "b" .repeated 10 none, .finish 0 .zero] ++ ticksAt [20, 30] ++ [.start 0]) :=
  isolated_of_careful started_fourSlotWheel (by decide +kernel)

/-- **A recycled node**: the tick at 10 ms collects the task `a`, which is
removed before its execution starts, and the task `b` gets its node. The
execution calls the function of `b`. -/
theorem not_isolated_of_reuse :
    ¬ Machine.Each (step fourSlots) (IsolatedStep fourSlots) (ofWheel fourSlotWheel)
      ([addAt 0 "a" .repeated 10 none] ++ ticksAt [10] ++
        [.removeTask "a" true, addAt 15 "b" .repeated 10 (some 0), .start 0]) := by
  intro h
  have hrun : (Machine.run (step fourSlots) (ofWheel fourSlotWheel)
      ([addAt 0 "a" .repeated 10 none] ++ ticksAt [10] ++
        [.removeTask "a" true, addAt 15 "b" .repeated 10 (some 0), .start 0])).map invoked
      = some [⟨some 1, 2, Task.plain "b" .repeated (Duration.ofMilli 10)⟩] := by decide +kernel
  obtain ⟨t, ht, hinvoked⟩ := Option.map_eq_some_iff.mp hrun
  have hinvokes := Machine.state_of_each
    (P := fun s => ∀ inv ∈ s.invoked, inv.collectedFor = some inv.registration)
    (fun _ hinv => absurd hinv List.not_mem_nil) (h.imp (fun _ _ _ hs => hs.invokes)) ht
  rw [hinvoked] at hinvokes
  exact absurd (hinvokes _ List.mem_cons_self) (by decide)

end Timewheel
