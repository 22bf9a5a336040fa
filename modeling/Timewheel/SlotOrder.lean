import Timewheel.Mirror

/-!
# The order of a slot

The tasks of a slot are to stand in the order of their priority, the smaller
value first. `AddTask` looks for the place of a new task in a list that it takes
to be sorted, and keeps it sorted if it is: what it does to the priorities of
the slot is an ordered insertion (`slotPriorities_linkTask`). A removal leaves a
sublist.

`rescheduleTask` moves a task to the front of its new slot, whatever its
priority. `prioritised_iff` says that this is where the order is lost in serial
use: it holds throughout exactly if no task is ever pushed in front of one of
higher priority.

What matters of a slot is the list of its priorities (`slotPriorities`). An
insertion, a removal and a move are each one operation on that list, and
whether it is still sorted afterwards is a question about sorted lists alone.
-/

namespace Timewheel

open TimeWheel Scheduler

variable {cfg : Config} {s s' : Scheduler} {w w' : TimeWheel} {lists lists' : ℕ → List NodeRef}
  {n : NodeRef} {i : ℕ} {c : CtxRef} {t : Task}

/-! ## What is expected -/

/-- The priority of the task a node carries. None if it is free. -/
def TimeWheel.priorityOf (w : TimeWheel) (n : NodeRef) : Option TaskPriority :=
  (w.heap n).task.map Task.priority

/-- The priorities of the tasks in a slot, from its head on. The nodes are those
that a tick would meet, in this order. -/
def TimeWheel.slotPriorities (w : TimeWheel) (i : ℕ) : List TaskPriority :=
  (w.slotNodes i).filterMap w.priorityOf

/-- **The slots are sorted by priority.** Equal priorities may stand in either
order. -/
def TimeWheel.Prioritised (cfg : Config) (w : TimeWheel) : Prop :=
  ∀ i < cfg.slotNum, (w.slotPriorities i).Pairwise (· ≤ ·)

/-- The execution of `n` moves it, if at all, in front of a task that does not
run before it. It is enough to compare with the head of the slot, since the slot
is sorted. -/
def TimeWheel.PushesInOrder (cfg : Config) (w : TimeWheel) (n : NodeRef) (info : TaskInfo)
    (result : AlarmResult) (now : Time) : Prop :=
  w.endsTask cfg n info result now = false →
    (w.heap n).slotIndex ≠ slotIndexFor cfg.interval cfg.slotNum now info.interval →
    ∀ p ∈ w.priorityOf n,
      ∀ q ∈ (w.slotPriorities (slotIndexFor cfg.interval cfg.slotNum now info.interval)).head?,
        p ≤ q

/-- **The step pushes no task in front of one of higher priority.** Only the end
of an execution moves a node. -/
def Scheduler.PushesInOrder (cfg : Config) (s : Scheduler) : Action → Prop
  | .complete i =>
    match s.execs[i]? with
    | some ⟨n, _, now, _, .finished info result⟩ => s.wheel.PushesInOrder cfg n info result now
    | _ => True
  | _ => True

instance (cfg : Config) (w : TimeWheel) : Decidable (w.Prioritised cfg) :=
  inferInstanceAs (Decidable (∀ i < cfg.slotNum, _))

instance (cfg : Config) (w : TimeWheel) (n : NodeRef) (info : TaskInfo) (result : AlarmResult)
    (now : Time) : Decidable (w.PushesInOrder cfg n info result now) :=
  inferInstanceAs (Decidable (_ → _ → _))

instance (cfg : Config) (s : Scheduler) (a : Action) : Decidable (s.PushesInOrder cfg a) := by
  unfold Scheduler.PushesInOrder
  split
  · split
    · infer_instance
    · infer_instance
  · infer_instance

/-! ## The priorities of a slot -/

/-- By the invariant, the nodes of a slot are those of its list. -/
theorem slotPriorities_eq (h : Inv cfg w lists) (i : ℕ) :
    w.slotPriorities i = (lists i).filterMap w.priorityOf := by
  unfold slotPriorities
  rw [h.slotNodes_eq]

/-- What is in a slot carries a task. So the list of priorities leaves none of
them out. -/
theorem Inv.priorityOf_ne_none (h : Inv cfg w lists) (hn : n ∈ lists i) :
    w.priorityOf n ≠ none := by
  obtain ⟨c, t, hu⟩ := h.used_of_mem hn
  unfold priorityOf
  rw [hu.task_eq]
  exact Option.some_ne_none _

/-- A part of a sorted list is sorted. -/
theorem TimeWheel.Prioritised.of_sublist (hw : w.Prioritised cfg)
    (hsub : ∀ i, (w'.slotPriorities i).Sublist (w.slotPriorities i)) : w'.Prioritised cfg :=
  fun i hi => (hw i hi).sublist (hsub i)

/-- The same lists, of nodes that carry the same tasks. Times, counters and
flags do not show in the priorities. -/
theorem slotPriorities_congr (h : Inv cfg w lists) (h' : Inv cfg w' lists)
    (htask : ∀ m i, m ∈ lists i → (w'.heap m).task = (w.heap m).task) (i : ℕ) :
    w'.slotPriorities i = w.slotPriorities i := by
  rw [slotPriorities_eq h', slotPriorities_eq h]
  refine List.filterMap_congr (fun m hm => ?_)
  unfold priorityOf
  rw [htask m i hm]

/-- **Releasing a node** leaves the order of the others. One of the priorities
drops out. -/
theorem slotPriorities_of_released (h : Inv cfg w lists) (h' : Inv cfg w' lists')
    (hc : ChangesOnly n w w' lists lists') (hrel : Released w' lists' n) (i : ℕ) :
    (w'.slotPriorities i).Sublist (w.slotPriorities i) := by
  have hne : ∀ m ∈ lists' i, m ≠ n := fun m hm hmn => hrel.not_mem i (hmn ▸ hm)
  have hlist : lists' i = (lists i).filter (· ≠ n) := by
    rw [← hc.order i]
    exact (List.filter_eq_self.mpr (fun m hm => decide_eq_true (hne m hm))).symm
  have hsame : (lists' i).filterMap w'.priorityOf = (lists' i).filterMap w.priorityOf := by
    refine List.filterMap_congr (fun m hm => ?_)
    have htag := TaskSlot.tag_of_payload (hc.payload m (hne m hm))
    exact congrArg (Option.map Task.priority) (congrArg Prod.fst htag)
  rw [slotPriorities_eq h', slotPriorities_eq h, hsame, hlist]
  exact List.filter_sublist.filterMap _

/-! ## Insertion -/

/-- **The search of `AddTask` is an ordered insertion** of the priority, as far
as the nodes of the slot carry tasks. By induction on the list: the search goes
on while the priority it meets is smaller. -/
theorem filterMap_insertedList {p : TaskPriority} {f : NodeRef → Option TaskPriority}
    {xs : List NodeRef} (hxs : ∀ m ∈ xs, w.priorityOf m ≠ none) (hn : f n = some p)
    (hf : ∀ m ∈ xs, f m = w.priorityOf m) :
    (w.insertedList n p xs).filterMap f
      = (xs.filterMap w.priorityOf).orderedInsert (· ≤ ·) p := by
  induction xs with
  | nil => simp [insertedList, hn]
  | cons x xs ih =>
    have hrest := ih (fun m hm => hxs m (List.mem_cons_of_mem x hm))
      (fun m hm => hf m (List.mem_cons_of_mem x hm))
    have hx := hf x List.mem_cons_self
    obtain ⟨q, hq⟩ := Option.ne_none_iff_exists'.mp (hxs x List.mem_cons_self)
    rw [hq] at hx
    rw [List.filterMap_cons_some hq, List.orderedInsert_cons]
    have hruns : w.runsFirst p x = decide (q < p) := by
      obtain ⟨task, htask, rfl⟩ := Option.map_eq_some_iff.mp hq
      unfold runsFirst
      rw [htask]
      rfl
    by_cases hlt : q < p
    · rw [if_neg (not_le.mpr hlt), ← hrest]
      unfold insertedList
      rw [List.takeWhile_cons_of_pos (hruns.trans (decide_eq_true hlt)),
        List.dropWhile_cons_of_pos (hruns.trans (decide_eq_true hlt)), List.cons_append,
        List.filterMap_cons_some hx]
    · have hfalse : ¬ w.runsFirst p x = true := by
        rw [hruns, decide_eq_true_iff]
        exact hlt
      have hsame : xs.filterMap f = xs.filterMap w.priorityOf :=
        List.filterMap_congr (fun m hm => hf m (List.mem_cons_of_mem x hm))
      rw [if_pos (not_lt.mp hlt)]
      unfold insertedList
      rw [List.takeWhile_cons_of_neg hfalse, List.dropWhile_cons_of_neg hfalse, List.nil_append,
        List.filterMap_cons_some hn, List.filterMap_cons_some hx, hsame]

/-- Linking a prepared node inserts its priority in its slot. The other slots
are not touched. -/
theorem slotPriorities_linkTask (h : Inv cfg w lists) (hf : Free w lists n)
    (hp : Prepared w n i c t) (hi : i < cfg.slotNum)
    (hfresh : ∀ m j s, ¬ Used cfg w lists m j c s) (hid : w.lookup cfg t.id = none)
    (env : AddEnv) (k : ℕ) :
    (w.linkTask cfg n t env).slotPriorities k
      = if k = i then (w.slotPriorities i).orderedInsert (· ≤ ·) t.priority
        else w.slotPriorities k := by
  obtain ⟨hinv, hc, hused, -, -⟩ := h.linkTask hf hp hi hfresh hid env
  have hsame : ∀ j, ∀ m ∈ lists j,
      (w.linkTask cfg n t env).priorityOf m = w.priorityOf m := fun j m hm => by
    have hne : m ≠ n := fun hmn => hf.not_mem j (hmn ▸ hm)
    have htag := TaskSlot.tag_of_payload (hc.payload m hne)
    exact congrArg (Option.map Task.priority) (congrArg Prod.fst htag)
  have hself : (w.linkTask cfg n t env).priorityOf n = some t.priority :=
    congrArg (Option.map Task.priority) hused.task_eq
  rw [slotPriorities_eq hinv]
  by_cases hk : k = i
  · subst hk
    rw [if_pos rfl, Function.update_self, slotPriorities_eq h]
    exact filterMap_insertedList (fun m hm => h.priorityOf_ne_none hm) hself (hsame k)
  · rw [if_neg hk, Function.update_of_ne hk, slotPriorities_eq h]
    exact List.filterMap_congr (hsame k)

/-- Inserting in order keeps the order. This is the lemma of the library. -/
theorem TimeWheel.Prioritised.of_insert {p : TaskPriority} (hw : w.Prioritised cfg)
    (hinsert : ∀ k, w'.slotPriorities k
      = if k = i then (w.slotPriorities i).orderedInsert (· ≤ ·) p else w.slotPriorities k) :
    w'.Prioritised cfg := by
  intro k hk
  rw [hinsert]
  split_ifs with hki
  · exact (hw i (hki ▸ hk)).orderedInsert p _
  · exact hw k hk

/-! ## The calls -/

/-- The invariant of the wheel, and the order of its slots. The calls keep both. -/
structure SoundAndSorted (cfg : Config) (w : TimeWheel) : Prop where
  inv : ∃ lists, Inv cfg w lists
  sorted : w.Prioritised cfg

/-- Another wheel with the same lists, of nodes that carry the same tasks. So
the priorities are the same, -/
theorem SoundAndSorted.congr (h : Inv cfg w lists) (h' : Inv cfg w' lists)
    (hw : w.Prioritised cfg)
    (htask : ∀ m i, m ∈ lists i → (w'.heap m).task = (w.heap m).task) :
    SoundAndSorted cfg w' :=
  ⟨⟨lists, h'⟩,
    hw.of_sublist fun i => (slotPriorities_congr h h' htask i).symm ▸ List.Sublist.refl _⟩

/-- A change at a node that is in no list. A node is prepared before it is
linked. -/
theorem SoundAndSorted.of_free (h : Inv cfg w lists) (h' : Inv cfg w' lists)
    (hc : ChangesOnly n w w' lists lists) (hf : ∀ i, n ∉ lists i) (hw : w.Prioritised cfg) :
    SoundAndSorted cfg w' := by
  refine .congr h h' hw (fun m i hm => ?_)
  have hne : m ≠ n := fun hmn => hf i (hmn ▸ hm)
  exact congrArg Prod.fst (TaskSlot.tag_of_payload (hc.payload m hne))

/-- A task is removed, cleared or ended. -/
theorem SoundAndSorted.of_released (h : Inv cfg w lists) (h' : Inv cfg w' lists')
    (hc : ChangesOnly n w w' lists lists') (hrel : Released w' lists' n)
    (hw : w.Prioritised cfg) : SoundAndSorted cfg w' :=
  ⟨⟨lists', h'⟩, hw.of_sublist (slotPriorities_of_released h h' hc hrel)⟩

/-- Writing fields other than the task. Neither links nor tags may change
either. -/
theorem SoundAndSorted.setNode (h : SoundAndSorted cfg w) {node : TaskSlot}
    (hnext : node.next = (w.heap n).next) (hprev : node.prev = (w.heap n).prev)
    (htag : node.tag = (w.heap n).tag) : SoundAndSorted cfg (w.setNode n node) := by
  obtain ⟨⟨lists, hinv⟩, hw⟩ := h
  refine .congr hinv (hinv.setNode hnext hprev htag) hw (fun m _ _ => ?_)
  by_cases hm : m = n
  · subst hm
    rw [heap_setNode_self]
    exact congrArg Prod.fst htag
  · rw [heap_setNode_of_ne hm]

/-- **`AddTask` keeps the slots sorted.** A task that is not registered is not
linked. -/
theorem SoundAndSorted.addTask (h : SoundAndSorted cfg w) (task : Option Task) (env : AddEnv) :
    SoundAndSorted cfg (w.addTask cfg task env).2 := by
  obtain ⟨⟨lists, hinv⟩, hw⟩ := h
  unfold TimeWheel.addTask
  cases task with
  | none => exact ⟨⟨lists, hinv⟩, hw⟩
  | some t =>
    dsimp only
    cases checkTask t with
    | error err => exact ⟨⟨lists, hinv⟩, hw⟩
    | ok t' =>
      dsimp only
      split_ifs
      · exact ⟨⟨lists, hinv⟩, hw⟩
      · have hp := prepareNode_spec hinv t' env
        generalize w.prepareNode cfg t' env = g at hp ⊢
        obtain ⟨n, w₁⟩ := g
        dsimp only at hp ⊢
        obtain ⟨-, hw₁⟩ := SoundAndSorted.of_free hinv hp.inv hp.changes hp.free.not_mem hw
        obtain ⟨i, hi, hprep⟩ := hp.prepared
        cases hid : w₁.lookup cfg t'.id with
        | some m =>
          obtain ⟨hinv', hc, -⟩ := hp.inv.poolPut hp.free hprep.allocated hprep.not_pooled
          exact .of_free hp.inv hinv' hc hp.free.not_mem hw₁
        | none =>
          have hfresh : ∀ m j s, ¬ Used cfg w₁ lists m j w.nextCtx s := fun m j s hu => by
            have hne : m ≠ n := fun hmn => hp.free.not_used (hmn ▸ hu)
            exact lt_irrefl _ (hp.changes.used_before hinv hne hu).ctx_lt
          obtain ⟨hinv', -⟩ := hp.inv.linkTask hp.free hprep hi hfresh hid env
          exact ⟨⟨_, hinv'⟩, hw₁.of_insert
            (slotPriorities_linkTask hp.inv hp.free hprep hi hfresh hid env)⟩

/-- A removal keeps them so, -/
theorem SoundAndSorted.removeTask (h : SoundAndSorted cfg w) (id : String) (deleteOk : Bool) :
    SoundAndSorted cfg (w.removeTask cfg id deleteOk).2 := by
  obtain ⟨⟨lists, hinv⟩, hw⟩ := h
  have hremove := removeTask_cases hinv id deleteOk
  generalize w.removeTask cfg id deleteOk = r at hremove ⊢
  cases hremove with
  | emptyID _ => exact ⟨⟨lists, hinv⟩, hw⟩
  | notFound _ _ => exact ⟨⟨lists, hinv⟩, hw⟩
  | removed hid used id_eq inv changes released => exact .of_released hinv inv changes released hw

/-- and so does clearing an entry. -/
theorem SoundAndSorted.clearTask (h : SoundAndSorted cfg w) (id : String) :
    SoundAndSorted cfg (w.clearTask cfg id) := by
  obtain ⟨⟨lists, hinv⟩, hw⟩ := h
  rcases clearTask_cases hinv id with ⟨-, heq⟩ | ⟨n, i, c, t, lists', -, -, hinv', hc, hrel⟩
  · exact heq.symm ▸ ⟨⟨lists, hinv⟩, hw⟩
  · exact .of_released hinv hinv' hc hrel hw

/-- **The calls keep the slots sorted.** There is no condition on them. -/
theorem SoundAndSorted.call {a : Action} (h : SoundAndSorted cfg s.wheel) (hcall : a.isCall = true)
    (hstep : step cfg s a = some s') : SoundAndSorted cfg s'.wheel := by
  refine wheel_of_call (SoundAndSorted cfg) hcall hstep h (fun _ task env h => h.addTask task env)
    (fun _ id deleteOk h => h.removeTask id deleteOk) (fun _ _ h => h.setNode rfl rfl rfl)
    (fun _ _ _ h => h.setNode rfl rfl rfl) (fun _ id h => h.clearTask id) (fun w f h => ?_)
  obtain ⟨⟨lists, hinv⟩, hw⟩ := h
  have hcore : SameCore w { w with taskCache := w.taskCache.map f } :=
    ⟨rfl, rfl, rfl, rfl, rfl, rfl, rfl⟩
  exact .congr hinv (hcore.inv hinv) hw (fun _ _ _ => rfl)

/-! ## Executions -/

/-- What does not end an execution keeps the lists, and the tasks. A tick leaves
the nodes where they are. -/
theorem SoundAndSorted.background {a : Action} (h : Inv cfg s.wheel lists)
    (hw : s.wheel.Prioritised cfg) (ha : a.isCall = false) (hcomplete : ∀ i, a ≠ .complete i)
    (hstep : step cfg s a = some s') : SoundAndSorted cfg s'.wheel := by
  have hends : s.endsTask cfg a = false := by
    cases a with
    | complete i => exact absurd rfl (hcomplete i)
    | _ => rfl
  have hsame := background_same ha hstep hends
  suffices hinv : Inv cfg s'.wheel lists from .congr h hinv hw (fun m _ _ => hsame.task m)
  cases stepped_of_step hstep with
  | call hcall _ => exact absurd (hcall.symm.trans ha) Bool.noConfusion
  | tick now => exact (tick_core cfg s.wheel now).inv h
  | reject _ _ => exact h
  | panic _ _ => exact h
  | @start i e _ _ =>
    unfold Scheduler.start
    cases s.wheel.checkTaskState e.node with
    | none => exact h
    | some task =>
      dsimp only
      cases s.wheel.runTaskCheck e.node task.copyTaskInfo with
      | none => exact h
      | some err => exact h.updateTaskResult _ _ _
  | @finish i e info _ _ result =>
    unfold Scheduler.finish
    dsimp only
    split_ifs
    · exact h.updateTaskResult _ _ _
    · exact h.updateTaskResult _ _ _
  | @complete i e info result _ _ => exact absurd rfl (hcomplete i)

/-- A list with one more element in front. In a sorted list the first element is
the least. -/
theorem pairwise_cons_iff_head {p : TaskPriority} {qs : List TaskPriority}
    (hqs : qs.Pairwise (· ≤ ·)) :
    (p :: qs).Pairwise (· ≤ ·) ↔ ∀ q ∈ qs.head?, p ≤ q := by
  cases qs with
  | nil => simp
  | cons q qs =>
    rw [List.pairwise_cons, and_iff_left hqs]
    constructor
    · intro h q' hq'
      exact h q' (List.mem_of_mem_head? hq')
    · intro h q' hq'
      have hq := h q rfl
      rcases List.mem_cons.mp hq' with rfl | hmem
      · exact hq
      · exact hq.trans (List.rel_of_pairwise_cons hqs hmem)

/-- **Moving a task** to the front of another slot keeps the order exactly if
the task is not behind the one that heads the slot. In its own slot it stays
where it is. -/
theorem prioritised_movedLists_iff {j : ℕ} (h : Inv cfg w lists) (hw : w.Prioritised cfg)
    (hu : Used cfg w lists n i c t) (h' : Inv cfg w' (movedLists lists n i j))
    (htask : ∀ m, (w'.heap m).task = (w.heap m).task) (hj : j < cfg.slotNum) :
    w'.Prioritised cfg ↔ (i ≠ j → ∀ q ∈ (w.slotPriorities j).head?, t.priority ≤ q) := by
  have hsame : w'.priorityOf = w.priorityOf := by
    funext m
    unfold priorityOf
    rw [htask]
  by_cases hij : i = j
  · have hlists : movedLists lists n i j = lists := if_pos hij
    rw [hlists] at h'
    refine iff_of_true (hw.of_sublist fun k => ?_) (fun hne => absurd hij hne)
    exact (slotPriorities_congr h h' (fun m _ _ => htask m) k).symm ▸ List.Sublist.refl _
  · -- the other slots lose the task at most
    have hfront : w'.slotPriorities j = t.priority :: w.slotPriorities j := by
      rw [slotPriorities_eq h', slotPriorities_eq h, hsame]
      unfold movedLists
      rw [if_neg hij, Function.update_self, Function.update_of_ne (Ne.symm hij)]
      exact List.filterMap_cons_some (congrArg (Option.map Task.priority) hu.task_eq)
    have hother : ∀ k, k ≠ j → (w'.slotPriorities k).Sublist (w.slotPriorities k) := by
      intro k hk
      rw [slotPriorities_eq h', slotPriorities_eq h, hsame]
      unfold movedLists
      rw [if_neg hij, Function.update_of_ne hk]
      refine List.Sublist.filterMap _ ?_
      by_cases hki : k = i
      · subst hki
        rw [Function.update_self]
        exact List.erase_sublist
      · rw [Function.update_of_ne hki]
    rw [forall_prop_of_true hij, ← pairwise_cons_iff_head (hw j hj), ← hfront]
    refine ⟨fun hw' => hw' j hj, fun hpairwise k hk => ?_⟩
    by_cases hkj : k = j
    · exact hkj ▸ hpairwise
    · exact (hw k hk).sublist (hother k hkj)

/-- **The locked section** keeps the order exactly if it pushes the task in
front of none of higher priority. If the task ends, it is only taken out. -/
theorem prioritised_lockedSection_iff {slot : ℕ} (h : Inv cfg w lists) (hw : w.Prioritised cfg)
    (hu : Used cfg w lists n i c t) (result : AlarmResult) (now : Time)
    (hown : UnlinksOwnList cfg w n t.copyTaskInfo now slot) :
    (w.lockedSection cfg n t.copyTaskInfo result now slot).Prioritised cfg
      ↔ w.PushesInOrder cfg n t.copyTaskInfo result now := by
  have hends := hu.endsTask_eq h result now
  unfold TimeWheel.PushesInOrder
  by_cases hr : shouldRescheduleTask (w.heap n) t.copyTaskInfo = true
  · have hfalse : w.endsTask cfg n t.copyTaskInfo result now = false := by rw [hends, hr]; rfl
    have hpriority : w.priorityOf n = some t.priority :=
      congrArg (Option.map Task.priority) hu.task_eq
    obtain ⟨hinv, -, -⟩ := h.lockedSection_reschedule hu result now hown hr
    rw [prioritised_movedLists_iff h hw hu hinv (lockedSection_same hfalse slot).task
      (slotIndexFor_lt cfg.interval cfg.slotNum_pos now t.interval), forall_prop_of_true hfalse,
      hu.slotIndex_eq, hpriority]
    refine imp_congr_right (fun _ => ⟨fun hle p hp => ?_, fun hle => hle _ rfl⟩)
    exact Option.some.inj hp ▸ hle
  · have htrue : w.endsTask cfg n t.copyTaskInfo result now = true := by
      rw [hends, Bool.eq_false_of_not_eq_true hr]
      rfl
    obtain ⟨lists', hinv, hc, hrel⟩ := h.lockedSection_remove hu result now hown hr
    exact iff_of_true (SoundAndSorted.of_released h hinv hc hrel hw).sorted
      (fun hfalse => nomatch htrue.symm.trans hfalse)

/-! ## Serial runs -/

/-- **A serial step keeps the slots sorted exactly if it pushes in order.** So
the condition of the step is exact, and the runs follow. -/
theorem prioritised_step_iff {a : Action} (hs : SerialSound cfg s lists)
    (hw : s.wheel.Prioritised cfg) (hserial : Serial s a) (hstep : step cfg s a = some s') :
    s'.wheel.Prioritised cfg ↔ s.PushesInOrder cfg a := by
  -- only a completion pushes a node at the head of a slot
  by_cases hcomplete : ∃ i, a = .complete i
  · obtain ⟨i, rfl⟩ := hcomplete
    cases stepped_of_step hstep with
    | call hcall _ => exact Bool.noConfusion hcall
    | @complete _ e info result he hst =>
      have hown := (hs.careful hserial).own i e rfl he
      unfold Execution.OnOwnList at hown
      rw [hst] at hown
      obtain ⟨n, r, now, slot, stage⟩ := e
      obtain rfl : stage = .finished info result := hst
      have hpushes : s.PushesInOrder cfg (.complete i)
          = s.wheel.PushesInOrder cfg n info result now := by
        unfold Scheduler.PushesInOrder
        dsimp only
        rw [he]
      rw [hpushes]
      show (s.wheel.lockedSection cfg n info result now slot).Prioritised cfg ↔ _
      -- a node that has been released is in no slot, so nothing is pushed
      by_cases ht : (s.wheel.heap n).task = none
      · have hnone : s.wheel.priorityOf n = none := congrArg (Option.map Task.priority) ht
        rw [lockedSection_of_task_none ht]
        refine iff_of_true hw (fun _ _ p hp => ?_)
        rw [hnone] at hp
        exact nomatch hp
      · obtain ⟨k, c, t, -, hu, hinfo⟩ := (hs.tracked _ (List.mem_of_getElem? he)).used ht
        obtain rfl : info = t.copyTaskInfo := hinfo
        exact prioritised_lockedSection_iff hs.inv hw hu result now hown
  · have hcomplete : ∀ i, a ≠ .complete i := fun i h => hcomplete ⟨i, h⟩
    have hpushes : s.PushesInOrder cfg a := by
      cases a with
      | complete i => exact absurd rfl (hcomplete i)
      | _ => trivial
    refine iff_of_true ?_ hpushes
    cases hcall : a.isCall with
    | true => exact (SoundAndSorted.call ⟨⟨lists, hs.inv⟩, hw⟩ hcall hstep).sorted
    | false => exact (SoundAndSorted.background hs.inv hw hcall hcomplete hstep).sorted

/-- An empty wheel is sorted. Its slots have nothing in them. -/
theorem prioritised_of_started (h : Started cfg w) : w.Prioritised cfg := by
  intro i _
  rw [slotPriorities_eq (inv_of_started h)]
  exact List.Pairwise.nil

/-- **Exactly the serial runs in which the slots stay sorted.** The condition is
about the priorities of two tasks at a time: the one that has been executed, and
the one at the head of the slot it goes to. -/
theorem prioritised_iff (h : Started cfg w) {as : List Action}
    (hserial : Machine.Each (step cfg) (fun s a _ => Serial s a) (ofWheel w) as) :
    Machine.Each (step cfg) (fun _ _ s' => s'.wheel.Prioritised cfg) (ofWheel w) as
      ↔ Machine.Each (step cfg) (fun s a _ => s.PushesInOrder cfg a) (ofWheel w) as := by
  have hinv : ∀ s a s', Serial s a → (∃ lists, SerialSound cfg s lists) →
      step cfg s a = some s' → ∃ lists', SerialSound cfg s' lists' := by
    rintro s a s' hser ⟨lists, hs⟩ hstep
    exact hs.of_step hser hstep
  have hsorted : ∀ s a s', Serial s a → (∃ lists, SerialSound cfg s lists) →
      s.wheel.Prioritised cfg → step cfg s a = some s' →
      (s'.wheel.Prioritised cfg ↔ s.PushesInOrder cfg a) := by
    rintro s a s' hser ⟨lists, hs⟩ hw hstep
    exact prioritised_step_iff hs hw hser hstep
  exact Machine.each_state_iff hinv hsorted hserial ⟨_, serialSound_of_started h⟩
    (prioritised_of_started h)

/-- `AddTask` at `now` ms of a task of a priority, run every `interval` ms. -/
def addWithPriority (now : ℕ) (id : String) (priority : TaskPriority) (interval : ℕ) : Action :=
  .addTask (some { Task.plain id .repeated (Duration.ofMilli interval) with priority := priority })
    ⟨Time.ofMilli now, none, ⟨Time.zero, [], []⟩, true⟩

/-- Tasks of priorities 2, 0 and 1 in one slot; then one of them is executed, and
pushed in front of one of lower priority. -/
theorem prioritised_of_ordered :
    Machine.Each (step fourSlots) (fun _ _ s' => s'.wheel.Prioritised fourSlots)
      (ofWheel fourSlotWheel)
      ([addWithPriority 0 "a" 2 20, addWithPriority 0 "b" 0 20, addWithPriority 0 "c" 1 20,
        addWithPriority 0 "d" (-1) 10] ++ ticksAt [10]
        ++ [.start 0, .finish 0 .zero, .complete 0]) :=
  (prioritised_iff started_fourSlotWheel (by decide +kernel)).mpr (by decide +kernel)

/-- **A task of low priority that is rescheduled comes before one of high
priority.** -/
theorem not_prioritised_of_rescheduled :
    let as := [addWithPriority 0 "high" 0 20, addWithPriority 0 "low" 2 10] ++ ticksAt [10]
      ++ [.start 0, .finish 0 .zero, .complete 0]
    Machine.Each (step fourSlots) (fun s a _ => Serial s a) (ofWheel fourSlotWheel) as
      ∧ ¬ Machine.Each (step fourSlots) (fun _ _ s' => s'.wheel.Prioritised fourSlots)
        (ofWheel fourSlotWheel) as := by
  decide +kernel

end Timewheel
