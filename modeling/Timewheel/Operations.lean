import Timewheel.WellFormed

/-!
# What the operations do to the wheel

Each operation of the wheel is a change at one node, and keeps the invariant.
The four kinds of change come first – writing fields, detaching, attaching
and moving a node – and then the operations, each as an instance of one.

For each operation there are three statements: the invariant after it, the
frame (`ChangesOnly`), and what has become of its node, which is in use, free
or released. Everything that is proved about runs is put together from these,
so that no other module unfolds an operation to look at its pointers.

Only one thing has to be assumed anywhere. An execution that ends unlinks its
node from the slot it was collected from, and that has to be the slot the node
is in (`UnlinksOwnList`). `not_wellFormed_lockedSection` says that nothing
less would do.
-/

namespace Timewheel

open DList TimeWheel

variable {cfg : Config} {w w' : TimeWheel} {lists : ℕ → List NodeRef} {n : NodeRef} {i : ℕ}
  {c : CtxRef} {t : Task}

/-! ## The kinds of change -/

/-- `w'` differs from `w` in the parts the invariant does not read. Metrics,
contexts that have been cancelled, and calls to the sinks are of this kind. -/
structure SameCore (w w' : TimeWheel) : Prop where
  heap : w'.heap = w.heap
  slots : w'.slots = w.slots
  shards : w'.shards = w.shards
  taskPool : w'.taskPool = w.taskPool
  nextNode : w'.nextNode = w.nextNode
  nextCtx : w'.nextCtx = w.nextCtx
  running : w'.running = w.running

namespace SameCore

/-- No node has changed, -/
theorem changesOnly (h : SameCore w w') (n : NodeRef) (lists : ℕ → List NodeRef) :
    ChangesOnly n w w' lists lists where
  payload := fun m _ => by rw [h.heap]
  order := fun _ => rfl
  entry := fun j id m _ => by rw [h.shards]
  pool := fun m _ hm => h.taskPool ▸ hm
  nextNode := h.nextNode.ge
  nextCtx := h.nextCtx.ge
  running := h.running

/-- so a node in use stays so, -/
theorem used (h : SameCore w w') (hu : Used cfg w lists n i c t) : Used cfg w' lists n i c t :=
  (h.changesOnly (n + 1) lists).used (Nat.lt_succ_self n).ne hu

/-- a free one stays free, -/
theorem free (h : SameCore w w') (hf : Free w lists n) : Free w' lists n :=
  (h.changesOnly (n + 1) lists).free (Nat.lt_succ_self n).ne hf

/-- every ID finds the node it found, -/
theorem lookup (h : SameCore w w') (id : String) : w'.lookup cfg id = w.lookup cfg id := by
  unfold TimeWheel.lookup
  rw [h.shards]

/-- and the invariant is kept. -/
theorem inv (h : SameCore w w') (hinv : Inv cfg w lists) : Inv cfg w' lists := by
  have hnext : w'.next = w.next := by
    funext m
    show (w'.heap m).next = (w.heap m).next
    rw [h.heap]
  have hprev : w'.prev = w.prev := by
    funext m
    show (w'.heap m).prev = (w.heap m).prev
    rw [h.heap]
  refine ⟨?_, fun n => ?_, ?_, h.taskPool ▸ hinv.pool_nodup, ?_⟩
  · rw [h.slots, hnext, hprev]
    exact hinv.family
  · exact (hinv.node n).imp (fun ⟨i, c, t, hu⟩ => ⟨i, c, t, h.used hu⟩) h.free
  · intro m n i j c s t hm hn
    have hback : SameCore w' w := ⟨h.heap.symm, h.slots.symm, h.shards.symm,
      h.taskPool.symm, h.nextNode.symm, h.nextCtx.symm, h.running.symm⟩
    exact hinv.ctx_inj (hback.used hm) (hback.used hn)
  · rw [h.taskPool, h.nextNode]
    exact hinv.pool_lt

end SameCore

/-! ### Writing fields -/

/-- A node that is written keeps its successor, -/
theorem next_setNode {node : TaskSlot} (h : node.next = (w.heap n).next) :
    (w.setNode n node).next = w.next := by
  funext m
  by_cases hm : m = n
  · subst hm
    simp [setNode, next, h]
  · simp [setNode, next, hm]

/-- and its predecessor, if they are not among what is written. So the lists are
the same. -/
theorem prev_setNode {node : TaskSlot} (h : node.prev = (w.heap n).prev) :
    (w.setNode n node).prev = w.prev := by
  funext m
  by_cases hm : m = n
  · subst hm
    simp [setNode, prev, h]
  · simp [setNode, prev, hm]

/-- What is written is read, -/
@[simp] theorem heap_setNode_self (w : TimeWheel) (n : NodeRef) (node : TaskSlot) :
    (w.setNode n node).heap n = node := by
  simp [setNode]

/-- at this node and no other. -/
theorem heap_setNode_of_ne {m : NodeRef} (h : m ≠ n) (node : TaskSlot) :
    (w.setNode n node).heap m = w.heap m := by
  simp [setNode, h]

/-- Writing a node changes that node. The slots, the map, the pool and the
counters are not touched. -/
theorem changesOnly_setNode (w : TimeWheel) (n : NodeRef) (node : TaskSlot)
    (lists : ℕ → List NodeRef) : ChangesOnly n w (w.setNode n node) lists lists where
  payload := fun m hm => by rw [heap_setNode_of_ne hm]
  order := fun _ => rfl
  entry := fun _ _ _ _ => Iff.rfl
  pool := fun _ _ hm => hm
  nextNode := le_refl _
  nextCtx := le_refl _
  running := rfl

/-- A node in use stays so when its task, context and slot are not written.
These three are its tag, and everything else about a node in use is in the slots
and the map. -/
theorem Used.setNode {node : TaskSlot} (htag : node.tag = (w.heap n).tag)
    (hu : Used cfg w lists n i c t) : Used cfg (w.setNode n node) lists n i c t where
  mem := hu.mem
  slot_lt := hu.slot_lt
  tag := by rw [heap_setNode_self, htag, hu.tag]
  entry := hu.entry
  allocated := hu.allocated
  ctx_lt := hu.ctx_lt
  not_pooled := hu.not_pooled

/-- A free node may be written at will. -/
theorem Free.setNode (node : TaskSlot) (hf : Free w lists n) : Free (w.setNode n node) lists n :=
  ⟨hf.not_mem, hf.no_entry⟩

/-- **Writing fields of a node** other than its pointers, task, context and slot
keeps the invariant. This covers pausing, resuming, noting a result and
evaluating an alert. -/
theorem Inv.setNode (h : Inv cfg w lists) {node : TaskSlot}
    (hnext : node.next = (w.heap n).next) (hprev : node.prev = (w.heap n).prev)
    (htag : node.tag = (w.heap n).tag) : Inv cfg (w.setNode n node) lists := by
  refine (changesOnly_setNode w n node lists).inv h ?_ h.pool_nodup (h.pool_lt n) ?_
  · rw [next_setNode hnext, prev_setNode hprev]
    exact h.family
  · rcases h.node n with ⟨i, c, t, hu⟩ | hf
    · exact Or.inl ⟨i, c, t, hu.setNode htag, fun m j s hm hs => hm (h.ctx_inj hs hu)⟩
    · exact Or.inr (hf.setNode node)

/-- Writing a free node keeps the invariant. An execution may still write to its
node after the node has been released. -/
theorem Inv.setNode_free (h : Inv cfg w lists) (hf : Free w lists n) (node : TaskSlot) :
    Inv cfg (w.setNode n node) lists := by
  refine (changesOnly_setNode w n node lists).inv h ?_ h.pool_nodup (h.pool_lt n)
    (Or.inr (hf.setNode node))
  have hne : ∀ i, ∀ x ∈ lists i, x ≠ n := fun i x hx hxn => hf.not_mem i (hxn ▸ hx)
  refine h.family.congr (fun i x hx => ?_) (fun i x hx => ?_)
  · show ((w.setNode n node).heap x).next = (w.heap x).next
    rw [heap_setNode_of_ne (hne i x hx)]
  · show ((w.setNode n node).heap x).prev = (w.heap x).prev
    rw [heap_setNode_of_ne (hne i x hx)]

/-! ### The lists without a node -/

/-- A node that is taken out of a list, -/
theorem filter_erase (l : List NodeRef) (n : NodeRef) :
    (l.erase n).filter (· ≠ n) = l.filter (· ≠ n) := by
  induction l with
  | nil => rfl
  | cons x xs ih =>
    by_cases hx : x = n
    · subst hx
      simp
    · rw [List.erase_cons_tail (by simpa using hx), List.filter_cons, List.filter_cons, ih]

/-- or put into one, changes nothing about the order of the others, -/
theorem filter_insertedList (w : TimeWheel) (n : NodeRef) (priority : TaskPriority)
    (l : List NodeRef) : (w.insertedList n priority l).filter (· ≠ n) = l.filter (· ≠ n) := by
  conv_rhs => rw [← List.takeWhile_append_dropWhile (p := w.runsFirst priority) (l := l)]
  rw [insertedList, List.filter_append, List.filter_append]
  simp

/-- in this list or in any other. -/
theorem order_update {lists : ℕ → List NodeRef} {i : ℕ} {l : List NodeRef}
    (h : l.filter (· ≠ n) = (lists i).filter (· ≠ n)) (k : ℕ) :
    (Function.update lists i l k).filter (· ≠ n) = (lists k).filter (· ≠ n) := by
  by_cases hk : k = i
  · subst hk
    rw [Function.update_self, h]
  · rw [Function.update_of_ne hk]

/-- A detached node is in no list. It was in one list only, and there only once. -/
theorem not_mem_erase (h : Inv cfg w lists) (hu : Used cfg w lists n i c t) (k : ℕ) :
    n ∉ Function.update lists i ((lists i).erase n) k := by
  by_cases hk : k = i
  · subst hk
    rw [Function.update_self]
    exact (h.family.chain k).nodup.not_mem_erase
  · rw [Function.update_of_ne hk]
    exact fun hn => hk (h.family.disjoint k i n hn hu.mem)

/-! ### Detaching a node -/

/-- The map without the entry of a node in use. The entry of the node is the one
under the ID of its task, so deleting that one is enough. -/
theorem lookup_deleteEntry (hu : Used cfg w lists n i c t) (j : ℕ) (id : String) (m : NodeRef) :
    ((w.deleteEntry cfg t.id).shards j).lookup id = some m
      ↔ m ≠ n ∧ (w.shards j).lookup id = some m := by
  unfold deleteEntry
  dsimp only
  by_cases hj : j = shardOf cfg t.id
  · subst hj
    rw [Function.update_self]
    by_cases hid : id = t.id
    · subst hid
      rw [AList.lookup_erase, show (w.shards (shardOf cfg t.id)).lookup t.id = some n
        from hu.lookup]
      constructor
      · exact fun h => absurd h (Option.some_ne_none m).symm
      · exact fun h => absurd (Option.some.inj h.2).symm h.1
    · rw [AList.lookup_erase_ne hid]
      refine ⟨fun h => ⟨?_, h⟩, fun h => h.2⟩
      rintro rfl
      exact hid ((hu.entry _ _).mp h).2
  · rw [Function.update_of_ne hj]
    refine ⟨fun h => ⟨?_, h⟩, fun h => h.2⟩
    rintro rfl
    exact hj ((hu.entry _ _).mp h).1

/-- The head that `unlink` moves on is the head of the node's own list. `unlink`
is told a slot, and looks at it only if the node has no predecessor. If that is
the case, the slot must be right. -/
theorem unlinkSlots_eq {slot : ℕ} (hslot : w.prev n ≠ none ∨ slot = i) :
    w.unlinkSlots n slot
      = if w.prev n = none then Function.update w.slots i (w.next n) else w.slots := by
  unfold unlinkSlots
  rcases hslot with h | rfl
  · rw [if_neg h, if_neg h]
  · rfl

/-- **Unlinking a node from the list it is in.** The lists of all slots are one
family of disjoint chains, and the general lemma about families does the rest. -/
theorem family_unlink (h : Inv cfg w lists) (hn : n ∈ lists i) {slot : ℕ}
    (hslot : w.prev n ≠ none ∨ slot = i) :
    Family (w.unlink n slot).slots (Function.update lists i ((lists i).erase n))
      (w.unlink n slot).next (w.unlink n slot).prev := by
  obtain ⟨-, hnext, hprev, hslots⟩ := w.unlink_spec n slot
  rw [hnext, hprev, hslots, unlinkSlots_eq hslot]
  exact h.family.unlink hn

/-- **Detaching a node**: it is unlinked, its entry is deleted, and it goes to
the pool. This is the common part of `RemoveTask`, `clearTask` and the internal
`removeTask`, which differ in how they clear the node (`node`) and in what else
they write. -/
theorem Inv.detach (h : Inv cfg w lists) (hu : Used cfg w lists n i c t) {slot : ℕ}
    (hslot : w.prev n ≠ none ∨ slot = i) (w' : TimeWheel) (node : TaskSlot)
    (hheap : w'.heap = Function.update (w.unlink n slot).heap n node)
    (hslots : w'.slots = (w.unlink n slot).slots)
    (hshards : w'.shards = (w.deleteEntry cfg t.id).shards)
    (hpool : w'.taskPool = n :: w.taskPool) (hnextNode : w'.nextNode = w.nextNode)
    (hnextCtx : w'.nextCtx = w.nextCtx) (hrunning : w'.running = w.running) :
    Inv cfg w' (Function.update lists i ((lists i).erase n))
      ∧ ChangesOnly n w w' lists (Function.update lists i ((lists i).erase n))
      ∧ Free w' (Function.update lists i ((lists i).erase n)) n := by
  have hnot := not_mem_erase h hu
  have hchanges : ChangesOnly n w w' lists (Function.update lists i ((lists i).erase n)) := by
    refine ⟨fun m hm => ?_, order_update (filter_erase _ n), fun j id m hm => ?_,
      fun m hm hp => ?_, hnextNode.ge, hnextCtx.ge, hrunning⟩
    · rw [hheap, Function.update_of_ne hm]
      exact (w.unlink_spec n slot).1.payload m
    · rw [hshards, lookup_deleteEntry hu]
      exact and_iff_right hm
    · rw [hpool] at hp
      exact (List.mem_cons.mp hp).resolve_left hm
  have hfree : Free w' (Function.update lists i ((lists i).erase n)) n := by
    refine ⟨hnot, fun j id => ?_⟩
    rw [hshards, Ne, lookup_deleteEntry hu]
    exact fun hn => hn.1 rfl
  refine ⟨hchanges.inv h ?_ ?_ ?_ (Or.inr hfree), hchanges, hfree⟩
  · rw [hslots]
    refine (family_unlink h hu.mem hslot).congr (fun k x hx => ?_) (fun k x hx => ?_)
    · have hxn : x ≠ n := fun hxn => hnot k (hxn ▸ hx)
      show (w'.heap x).next = ((w.unlink n slot).heap x).next
      rw [hheap, Function.update_of_ne hxn]
    · have hxn : x ≠ n := fun hxn => hnot k (hxn ▸ hx)
      show (w'.heap x).prev = ((w.unlink n slot).heap x).prev
      rw [hheap, Function.update_of_ne hxn]
  · rw [hpool]
    exact List.nodup_cons.mpr ⟨hu.not_pooled, h.pool_nodup⟩
  · intro _
    rw [hnextNode]
    exact hu.allocated

/-! ### Attaching a node -/

/-- A node about to be attached: allocated, out of the pool, and prepared for a
task under a new context. Its pointers are nil, and its slot is the one it is
going to. -/
structure Prepared (w : TimeWheel) (n : NodeRef) (i : ℕ) (c : CtxRef) (t : Task) : Prop where
  tag : (w.heap n).tag = (some t, some c, i)
  next : (w.heap n).next = none
  prev : (w.heap n).prev = none
  allocated : n < w.nextNode
  ctx_lt : c < w.nextCtx
  not_pooled : n ∉ w.taskPool

/-- The map with a new entry. The ID had no entry, so no other one is hidden by
it. -/
theorem lookup_insertEntry {id : String} (hid : w.lookup cfg id = none) (j : ℕ)
    (id' : String) (m : NodeRef) :
    ((w.insertEntry cfg id n).shards j).lookup id' = some m
      ↔ (m = n ∧ j = shardOf cfg id ∧ id' = id) ∨ (w.shards j).lookup id' = some m := by
  unfold insertEntry
  dsimp only
  by_cases hj : j = shardOf cfg id
  · subst hj
    rw [Function.update_self]
    by_cases hid' : id' = id
    · subst hid'
      rw [AList.lookup_insert, show (w.shards (shardOf cfg id')).lookup id' = none from hid]
      constructor
      · exact fun h => Or.inl ⟨(Option.some.inj h).symm, rfl, rfl⟩
      · rintro (⟨rfl, -⟩ | h)
        · rfl
        · exact absurd h (Option.some_ne_none m).symm
    · rw [AList.lookup_insert_ne hid']
      exact ⟨Or.inr, fun h => h.resolve_left (fun h => hid' h.2.2)⟩
  · rw [Function.update_of_ne hj]
    exact ⟨Or.inr, fun h => h.resolve_left (fun h => hj h.2.1)⟩

/-- **Attaching a node**: it is linked in its slot by priority, and entered
under the ID of its task. Where it is linked depends on the priorities of the
nodes in front of it, but that it is linked once does not. -/
theorem Inv.attach (h : Inv cfg w lists) (hf : Free w lists n) (hp : Prepared w n i c t)
    (hi : i < cfg.slotNum) (hfresh : ∀ m j s, ¬ Used cfg w lists m j c s)
    (hid : w.lookup cfg t.id = none) {priority : TaskPriority} (w' : TimeWheel)
    (hheap : w'.heap = (w.insertOrdered n priority i).heap)
    (hslots : w'.slots = (w.insertOrdered n priority i).slots)
    (hshards : w'.shards = (w.insertEntry cfg t.id n).shards)
    (hpool : w'.taskPool = w.taskPool) (hnextNode : w'.nextNode = w.nextNode)
    (hnextCtx : w'.nextCtx = w.nextCtx) (hrunning : w'.running = w.running) :
    let lists' := Function.update lists i (w.insertedList n priority (lists i))
    Inv cfg w' lists' ∧ ChangesOnly n w w' lists lists' ∧ Used cfg w' lists' n i c t := by
  intro lists'
  obtain ⟨hrel, hfam⟩ :=
    insertOrdered_spec h.family hf.not_mem hp.next hp.prev priority i (h.length_le i)
  -- only this node and its place change, so the rest of the wheel keeps its invariant
  have hchanges : ChangesOnly n w w' lists lists' := by
    refine ⟨fun m _ => ?_, order_update (filter_insertedList w n priority _),
      fun j id m hm => ?_, fun m _ hm => hpool ▸ hm, hnextNode.ge, hnextCtx.ge, hrunning⟩
    · rw [hheap]
      exact hrel.payload m
    · rw [hshards, lookup_insertEntry hid]
      exact or_iff_right (fun h => hm h.1)
  -- and the node itself is in order: listed once, found under the ID, and in no pool
  have hused : Used cfg w' lists' n i c t := by
    refine ⟨?_, hi, ?_, fun j id => ?_, ?_, ?_, ?_⟩
    · show n ∈ Function.update lists i _ i
      rw [Function.update_self, insertedList]
      exact List.mem_append_right _ List.mem_cons_self
    · rw [hheap, hrel.tag n, hp.tag]
    · rw [hshards, lookup_insertEntry hid]
      exact ⟨fun h => (h.resolve_right (hf.no_entry j id)).2, fun h => Or.inl ⟨rfl, h⟩⟩
    · rw [hnextNode]
      exact hp.allocated
    · rw [hnextCtx]
      exact hp.ctx_lt
    · rw [hpool]
      exact hp.not_pooled
  refine ⟨hchanges.inv h ?_ (hpool ▸ h.pool_nodup) ?_ ?_, hchanges, hused⟩
  · have hnext : w'.next = (w.insertOrdered n priority i).next := by
      funext m
      show (w'.heap m).next = _
      rw [hheap]
      rfl
    have hprev : w'.prev = (w.insertOrdered n priority i).prev := by
      funext m
      show (w'.heap m).prev = _
      rw [hheap]
      rfl
    rw [hslots, hnext, hprev]
    exact hfam
  · exact fun _ => hused.allocated
  · exact Or.inl ⟨i, c, t, hused, fun m j s _ => hfresh m j s⟩

/-! ### Moving a node -/

/-- **Moving a node**: it is unlinked from its list, and pushed in front of
another. The other list may be its own, and then the node comes to the front of
it. -/
theorem Inv.move (h : Inv cfg w lists) (hu : Used cfg w lists n i c t) {slot : ℕ}
    (hslot : w.prev n ≠ none ∨ slot = i) {j : ℕ} (hj : j < cfg.slotNum) (node : TaskSlot)
    (hnext : node.next = (((w.unlink n slot).pushFront n j).heap n).next)
    (hprev : node.prev = (((w.unlink n slot).pushFront n j).heap n).prev)
    (htag : node.tag = (some t, some c, j)) :
    let erased := Function.update lists i ((lists i).erase n)
    let lists' := Function.update erased j (n :: erased j)
    let w' := ((w.unlink n slot).pushFront n j).setNode n node
    Inv cfg w' lists' ∧ ChangesOnly n w w' lists lists' ∧ Used cfg w' lists' n j c t := by
  intro erased lists' w'
  have hnot : ∀ k, n ∉ erased k := not_mem_erase h hu
  obtain ⟨hrel₁, -⟩ := w.unlink_spec n slot
  obtain ⟨hrel₂, hn₂, hp₂, hs₂⟩ := (w.unlink n slot).pushFront_spec n j
  have hrel := hrel₁.trans hrel₂
  -- taken out first, so the slot may be the one it comes from
  have hfam := (family_unlink h hu.mem hslot).pushFront j hnot
  have hchanges : ChangesOnly n w w' lists lists' := by
    refine ⟨fun m hm => ?_, fun k => ?_, fun j id m _ => ?_, fun m _ hm => ?_, ?_, ?_, ?_⟩
    · show ((((w.unlink n slot).pushFront n j).setNode n node).heap m).payload = _
      rw [heap_setNode_of_ne hm]
      exact hrel.payload m
    · have hfront : (n :: erased j).filter (· ≠ n) = (erased j).filter (· ≠ n) := by simp
      exact (order_update hfront k).trans (order_update (filter_erase _ n) k)
    · show ((((w.unlink n slot).pushFront n _).shards j).lookup id = some m ↔ _)
      rw [hrel.shards]
    · exact hrel.taskPool ▸ hm
    · exact hrel.nextNode.ge
    · exact hrel.nextCtx.ge
    · exact hrel.running
  have hused : Used cfg w' lists' n j c t := by
    refine ⟨?_, hj, ?_, fun k id => ?_, ?_, ?_, ?_⟩
    · show n ∈ Function.update erased j _ j
      rw [Function.update_self]
      exact List.mem_cons_self
    · show ((((w.unlink n slot).pushFront n j).setNode n node).heap n).tag = _
      rw [heap_setNode_self, htag]
    · show (((w.unlink n slot).pushFront n j).shards k).lookup id = some n ↔ _
      rw [hrel.shards]
      exact hu.entry k id
    · exact lt_of_lt_of_eq hu.allocated hrel.nextNode.symm
    · exact lt_of_lt_of_eq hu.ctx_lt hrel.nextCtx.symm
    · exact fun hp => hu.not_pooled (hrel.taskPool ▸ hp)
  refine ⟨hchanges.inv h ?_ ?_ (fun _ => hused.allocated) ?_, hchanges, hused⟩
  · rw [next_setNode hnext, prev_setNode hprev, hn₂, hp₂]
    show Family ((w.unlink n slot).pushFront n j).slots _ _ _
    rw [hs₂]
    exact hfam
  · exact hrel.taskPool.symm ▸ h.pool_nodup
  · exact Or.inl ⟨j, c, t, hused, fun m k s hm hs => hm (h.ctx_inj hs hu)⟩

/-! ## Executions -/

/-- A node whose registration is gone: it is free, and carries no task. Whoever
still refers to it sees by the missing task that there is nothing to do. -/
structure Released (w : TimeWheel) (lists : ℕ → List NodeRef) (n : NodeRef) : Prop
    extends Free w lists n where
  task : (w.heap n).task = none

/-- A change at another node leaves it released. -/
theorem ChangesOnly.released {m : NodeRef} {lists' : ℕ → List NodeRef}
    (h : ChangesOnly n w w' lists lists') (hm : m ≠ n) (hr : Released w lists m) :
    Released w' lists' m where
  toFree := h.free hm hr.toFree
  task := by
    have ht : (w'.heap m).tag = (w.heap m).tag := TaskSlot.tag_of_payload (h.payload m hm)
    exact (congrArg Prod.fst ht).trans hr.task

/-! ### Bookkeeping -/

/-- `updateTaskResult` writes two fields of the node. The rest of it is metrics. -/
theorem updateTaskResult_core (w : TimeWheel) (n : NodeRef) (result : AlarmResult)
    (err : Option Err) :
    SameCore (w.setNode n
      { w.heap n with executed := (w.heap n).executed + 1, lastResult := result })
      (w.updateTaskResult n result err) := ⟨rfl, rfl, rfl, rfl, rfl, rfl, rfl⟩

/-- `applyAlert` writes the node. Besides it tells the sinks, which the
invariant does not look at. -/
theorem applyAlert_core (w : TimeWheel) (n : NodeRef) (info : TaskInfo) (result : AlarmResult)
    (now : Time) :
    SameCore (w.setNode n (handleAlertStateLocked cfg.sinks (w.heap n) info result now).node)
      (w.applyAlert cfg n info result now) := ⟨rfl, rfl, rfl, rfl, rfl, rfl, rfl⟩

/-- The alert evaluation writes nothing the invariant reads. It writes the state
of the alert, and two times. -/
theorem applyAlert_node (sinks : AlertSinks) (node : TaskSlot) (info : TaskInfo)
    (result : AlarmResult) (now : Time) :
    (handleAlertStateLocked sinks node info result now).node.next = node.next
      ∧ (handleAlertStateLocked sinks node info result now).node.prev = node.prev
      ∧ (handleAlertStateLocked sinks node info result now).node.tag = node.tag := by
  obtain ⟨s, p, l, h⟩ := handleAlertStateLocked_frame sinks node info result now
  rw [h]
  exact ⟨rfl, rfl, rfl⟩

/-- So the invariant is kept by either, -/
theorem Inv.updateTaskResult (h : Inv cfg w lists) (n : NodeRef) (result : AlarmResult)
    (err : Option Err) : Inv cfg (w.updateTaskResult n result err) lists :=
  (updateTaskResult_core w n result err).inv (h.setNode rfl rfl rfl)

/-- nothing else changes, -/
theorem changesOnly_updateTaskResult (w : TimeWheel) (n : NodeRef) (result : AlarmResult)
    (err : Option Err) (lists : ℕ → List NodeRef) :
    ChangesOnly n w (w.updateTaskResult n result err) lists lists :=
  (changesOnly_setNode w n _ lists).trans
    ((updateTaskResult_core w n result err).changesOnly n lists)

/-- and a node in use stays so, with its task and context. -/
theorem Used.updateTaskResult (hu : Used cfg w lists n i c t) (result : AlarmResult)
    (err : Option Err) : Used cfg (w.updateTaskResult n result err) lists n i c t :=
  (updateTaskResult_core w n result err).used (hu.setNode rfl)

/-- The same three for the evaluation: the invariant, -/
theorem Inv.applyAlert (h : Inv cfg w lists) (n : NodeRef) (info : TaskInfo)
    (result : AlarmResult) (now : Time) : Inv cfg (w.applyAlert cfg n info result now) lists := by
  obtain ⟨hnext, hprev, htag⟩ := applyAlert_node cfg.sinks (w.heap n) info result now
  exact (applyAlert_core w n info result now).inv (h.setNode hnext hprev htag)

/-- the frame, -/
theorem changesOnly_applyAlert (w : TimeWheel) (n : NodeRef) (info : TaskInfo)
    (result : AlarmResult) (now : Time) (lists : ℕ → List NodeRef) :
    ChangesOnly n w (w.applyAlert cfg n info result now) lists lists :=
  (changesOnly_setNode w n _ lists).trans
    ((applyAlert_core w n info result now).changesOnly n lists)

/-- and the node. -/
theorem Used.applyAlert (hu : Used cfg w lists n i c t) (info : TaskInfo)
    (result : AlarmResult) (now : Time) :
    Used cfg (w.applyAlert cfg n info result now) lists n i c t :=
  (applyAlert_core w n info result now).used
    (hu.setNode (applyAlert_node cfg.sinks (w.heap n) info result now).2.2)

/-! ### Rescheduling and removing -/

/-- What `rescheduleTask` writes: the pointers, and the next run and the slot of
its node. The task, the context and the counter stay as they are. -/
theorem rescheduleTask_payload (w : TimeWheel) (n : NodeRef) (info : TaskInfo) (now : Time)
    (slot : ℕ) :
    ∃ heap slots, w.rescheduleTask cfg n info now slot = { w with heap := heap, slots := slots }
      ∧ (∀ m, m ≠ n → (heap m).payload = (w.heap m).payload)
      ∧ (heap n).payload
        = { (w.heap n).payload with
            runAt := now.add info.interval
            slotIndex := slotIndexFor cfg.interval cfg.slotNum now info.interval } := by
  unfold TimeWheel.rescheduleTask
  dsimp only
  split_ifs with hslot
  · obtain ⟨hframe, hpay⟩ :=
      ((w.setNode n { w.heap n with runAt := now.add info.interval }).unlink_spec n slot).1.trans
        (pushFront_spec _ n (slotIndexFor cfg.interval cfg.slotNum now info.interval)).1
    obtain ⟨heap, slots, hw⟩ := hframe
    rw [hw] at hpay ⊢
    refine ⟨_, slots, rfl, fun m hm => ?_, ?_⟩
    · rw [Function.update_of_ne hm]
      refine (hpay m).trans ?_
      rw [heap_setNode_of_ne hm]
    · rw [Function.update_self]
      have hself := hpay n
      rw [heap_setNode_self] at hself
      exact congrArg (fun node : TaskSlot =>
        { node with slotIndex := slotIndexFor cfg.interval cfg.slotNum now info.interval }) hself
  · have hsame : (w.heap n).slotIndex = slotIndexFor cfg.interval cfg.slotNum now info.interval := by
      rw [heap_setNode_self] at hslot
      exact not_not.mp hslot
    refine ⟨_, w.slots, rfl, fun m hm => ?_, ?_⟩
    · rw [Function.update_of_ne hm]
    · rw [Function.update_self, ← hsame]
      rfl

/-- So everything but the nodes and the slots is as before. -/
theorem rescheduleTask_frame (w : TimeWheel) (n : NodeRef) (info : TaskInfo) (now : Time)
    (slot : ℕ) :
    ∃ heap slots, w.rescheduleTask cfg n info now slot = { w with heap := heap, slots := slots }
      ∧ (∀ m, m ≠ n → (heap m).payload = (w.heap m).payload)
      ∧ ∃ r i, (heap n).payload = { (w.heap n).payload with runAt := r, slotIndex := i } := by
  obtain ⟨heap, slots, hw, hother, hself⟩ := @rescheduleTask_payload cfg w n info now slot
  exact ⟨heap, slots, hw, hother, _, _, hself⟩

/-- What the internal `removeTask` writes: besides the pointers its node, which
it clears, the map, the cache and the pool. The entry it deletes is the one
under the ID of the snapshot. -/
theorem removeTaskInternal_frame (w : TimeWheel) (n : NodeRef) (info : TaskInfo) (slot : ℕ) :
    ∃ heap slots, w.removeTaskInternal cfg n info slot
        = { w with
            heap := heap
            slots := slots
            shards := (w.deleteEntry cfg info.id).shards
            ctxs := (w.cancelCtx (w.heap n).cancel).ctxs
            taskPool := n :: w.taskPool
            taskCache := w.taskCache.map (fun cache => cacheDelete cache info.id) }
      ∧ (∀ m, m ≠ n → (heap m).payload = (w.heap m).payload)
      ∧ heap n = clearAlert (clearNode (w.heap n)) := by
  obtain ⟨hframe, hpay⟩ := (w.unlink_spec n slot).1
  obtain ⟨heap, slots, hw⟩ := hframe
  rw [hw] at hpay
  have hcancel : (heap n).cancel = (w.heap n).cancel := by
    show (heap n).payload.cancel = (w.heap n).payload.cancel
    rw [hpay n]
  refine ⟨Function.update heap n (clearAlert (clearNode (heap n))), slots, ?_, fun m hm => ?_, ?_⟩
  · unfold TimeWheel.removeTaskInternal
    rw [hw, ← hcancel]
    rfl
  · rw [Function.update_of_ne hm]
    exact hpay m
  · rw [Function.update_self]
    show clearAlert (clearNode (heap n).payload) = clearAlert (clearNode (w.heap n).payload)
    rw [hpay n]

/-- The lists after the node `n` of slot `i` has been moved to the front of slot
`j`, if that is another one. A node that stays in its slot is not moved within
it either. -/
def movedLists (lists : ℕ → List NodeRef) (n : NodeRef) (i j : ℕ) : ℕ → List NodeRef :=
  if i = j then lists
  else
    let erased := Function.update lists i ((lists i).erase n)
    Function.update erased j (n :: erased j)

/-- **`rescheduleTask`** leaves the node in use, in its slot or in front of
another one, provided the slot it unlinks the node from is the one the node is
in. If the node stays in its slot it is not unlinked at all, and then the slot
does not matter. -/
theorem Inv.rescheduleTask (h : Inv cfg w lists) (hu : Used cfg w lists n i c t)
    (info : TaskInfo) (now : Time) {slot : ℕ}
    (hslot : slotIndexFor cfg.interval cfg.slotNum now info.interval = i
      ∨ w.prev n ≠ none ∨ slot = i) :
    let j := slotIndexFor cfg.interval cfg.slotNum now info.interval
    let lists' := movedLists lists n i j
    Inv cfg (w.rescheduleTask cfg n info now slot) lists'
      ∧ ChangesOnly n w (w.rescheduleTask cfg n info now slot) lists lists'
      ∧ Used cfg (w.rescheduleTask cfg n info now slot) lists' n j c t := by
  intro j lists'
  let node : TaskSlot := { w.heap n with runAt := now.add info.interval }
  have h₁ : Inv cfg (w.setNode n node) lists := h.setNode rfl rfl rfl
  have hu₁ : Used cfg (w.setNode n node) lists n i c t := hu.setNode rfl
  have hprev₁ : (w.setNode n node).prev = w.prev := prev_setNode rfl
  have hc₁ := changesOnly_setNode w n node lists
  unfold TimeWheel.rescheduleTask
  dsimp only
  rw [hu₁.slotIndex_eq]
  by_cases hsame : i = j
  · have hlists : lists' = lists := if_pos hsame
    rw [if_neg (not_not_intro hsame), hlists, ← hsame]
    exact ⟨h₁, hc₁, hu₁⟩
  · have hlists : lists' = _ := if_neg hsame
    rw [if_pos hsame, hlists]
    have hslot₁ : (w.setNode n node).prev n ≠ none ∨ slot = i := by
      rw [hprev₁]
      exact hslot.resolve_left (fun h => hsame h.symm)
    have hlt := slotIndexFor_lt cfg.interval cfg.slotNum_pos now info.interval
    obtain ⟨hinv, hc, hused⟩ := h₁.move hu₁ hslot₁ hlt
      { (((w.setNode n node).unlink n slot).pushFront n j).heap n with slotIndex := j }
      rfl rfl (by
        have htag := (((w.setNode n node).unlink_spec n slot).1.trans
          (((w.setNode n node).unlink n slot).pushFront_spec n j).1).tag n
        rw [hu₁.tag] at htag
        have ht := congrArg Prod.fst htag
        have hctx := congrArg (fun t => t.2.1) htag
        exact Prod.ext ht (Prod.ext hctx rfl))
    exact ⟨hinv, hc₁.trans hc, hused⟩

/-- **The internal `removeTask`** leaves the node released. The snapshot names
the ID of the task, which is what `hinfo` asks for. -/
theorem Inv.removeTaskInternal (h : Inv cfg w lists) (hu : Used cfg w lists n i c t)
    {info : TaskInfo} (hinfo : info.id = t.id) {slot : ℕ}
    (hslot : w.prev n ≠ none ∨ slot = i) :
    ∃ lists', Inv cfg (w.removeTaskInternal cfg n info slot) lists'
      ∧ ChangesOnly n w (w.removeTaskInternal cfg n info slot) lists lists'
      ∧ Released (w.removeTaskInternal cfg n info slot) lists' n := by
  obtain ⟨heap, slots, hw⟩ := (w.unlink_spec n slot).1.frame
  obtain ⟨hinv, hc, hf⟩ := h.detach hu hslot (w.removeTaskInternal cfg n info slot)
    (clearAlert (clearNode ((w.unlink n slot).heap n)))
    (by unfold TimeWheel.removeTaskInternal; rw [hw]; rfl)
    (by unfold TimeWheel.removeTaskInternal; rw [hw]; rfl)
    (by unfold TimeWheel.removeTaskInternal; rw [hw, hinfo]; rfl)
    (by unfold TimeWheel.removeTaskInternal; rw [hw]; rfl)
    (by unfold TimeWheel.removeTaskInternal; rw [hw]; rfl)
    (by unfold TimeWheel.removeTaskInternal; rw [hw]; rfl)
    (by unfold TimeWheel.removeTaskInternal; rw [hw]; rfl)
  refine ⟨_, hinv, hc, hf, ?_⟩
  unfold TimeWheel.removeTaskInternal
  simp [poolPut, clearAlert, clearNode]

/-! ### The locked section -/

/-- The locked section of an execution unlinks the node from the list it is
in, or leaves it where it is: the node carries no task any more, or is not
the head of its list, or is still in the slot it was collected from, or is
rescheduled to the slot it is in. -/
def UnlinksOwnList (cfg : Config) (w : TimeWheel) (n : NodeRef) (info : TaskInfo) (now : Time)
    (slot : ℕ) : Prop :=
  (w.heap n).task = none ∨ (w.heap n).prev ≠ none ∨ slot = (w.heap n).slotIndex
    ∨ (shouldRescheduleTask (w.heap n) info = true
      ∧ slotIndexFor cfg.interval cfg.slotNum now info.interval = (w.heap n).slotIndex)

instance (cfg : Config) (w : TimeWheel) (n : NodeRef) (info : TaskInfo) (now : Time)
    (slot : ℕ) : Decidable (UnlinksOwnList cfg w n info now slot) :=
  inferInstanceAs (Decidable (_ ∨ _))

/-- **A completion after the node has lost its task does nothing.** It looks at
the task first, under the lock, and returns if there is none. So an execution
whose task has been removed meanwhile does no harm. -/
theorem lockedSection_of_task_none (ht : (w.heap n).task = none) (info : TaskInfo)
    (result : AlarmResult) (now : Time) (slot : ℕ) :
    w.lockedSection cfg n info result now slot = w := by
  have hout : handleAlertStateLocked cfg.sinks (w.heap n) info result now
      = ⟨w.heap n, [], 0⟩ := by
    unfold handleAlertStateLocked
    rw [if_pos ht]
  have halert : w.applyAlert cfg n info result now = w := by
    unfold applyAlert setNode
    rw [hout]
    dsimp only
    rw [Function.update_eq_self, List.append_nil, Nat.add_zero]
  unfold lockedSection handleTaskSchedulingLocked
  rw [halert, if_pos ht]

/-- What the alert evaluation at the start of the locked section leaves. The
node is still in use, with the same task and links, and whether it runs again is
not changed by the evaluation. -/
theorem applyAlert_spec (h : Inv cfg w lists) (hu : Used cfg w lists n i c t)
    (result : AlarmResult) (now : Time) :
    let w₁ := w.applyAlert cfg n t.copyTaskInfo result now
    Inv cfg w₁ lists ∧ Used cfg w₁ lists n i c t ∧ ChangesOnly n w w₁ lists lists
      ∧ w₁.prev n = w.prev n
      ∧ shouldRescheduleTask (w₁.heap n) t.copyTaskInfo
        = shouldRescheduleTask (w.heap n) t.copyTaskInfo := by
  intro w₁
  have hheap : w₁.heap n
      = (handleAlertStateLocked cfg.sinks (w.heap n) t.copyTaskInfo result now).node := by
    show (w.applyAlert cfg n t.copyTaskInfo result now).heap n = _
    rw [(applyAlert_core w n t.copyTaskInfo result now).heap, heap_setNode_self]
  refine ⟨h.applyAlert n _ result now, hu.applyAlert _ result now,
    changesOnly_applyAlert w n _ result now lists, ?_, ?_⟩
  · show (w₁.heap n).prev = (w.heap n).prev
    rw [hheap]
    exact (applyAlert_node _ _ _ _ _).2.1
  · obtain ⟨s, p, l, hs⟩ :=
      handleAlertStateLocked_frame cfg.sinks (w.heap n) t.copyTaskInfo result now
    rw [hheap, hs]
    rfl

/-- For a node in use, what the locked section has to respect. The first of its
cases cannot occur, and the slot of the node is that of its list. -/
theorem Used.unlinksOwnList_iff (hu : Used cfg w lists n i c t) (now : Time) (slot : ℕ) :
    UnlinksOwnList cfg w n t.copyTaskInfo now slot
      ↔ w.prev n ≠ none ∨ slot = i
        ∨ (shouldRescheduleTask (w.heap n) t.copyTaskInfo = true
          ∧ slotIndexFor cfg.interval cfg.slotNum now t.interval = i) := by
  unfold UnlinksOwnList
  rw [hu.slotIndex_eq, hu.task_eq]
  exact or_iff_right (Option.some_ne_none t)

/-- The locked section of a task that runs again. It ends up in the slot of its
next run, in use as before. -/
theorem Inv.lockedSection_reschedule (h : Inv cfg w lists) (hu : Used cfg w lists n i c t)
    (result : AlarmResult) (now : Time) {slot : ℕ}
    (hown : UnlinksOwnList cfg w n t.copyTaskInfo now slot)
    (hr : shouldRescheduleTask (w.heap n) t.copyTaskInfo = true) :
    let j := slotIndexFor cfg.interval cfg.slotNum now t.interval
    let lists' := movedLists lists n i j
    let w' := w.lockedSection cfg n t.copyTaskInfo result now slot
    Inv cfg w' lists' ∧ ChangesOnly n w w' lists lists' ∧ Used cfg w' lists' n j c t := by
  obtain ⟨h₁, hu₁, hc₁, hprev, hresched⟩ := applyAlert_spec h hu result now
  have hown' := (hu.unlinksOwnList_iff now slot).mp hown
  rw [← hprev] at hown'
  have hslot : slotIndexFor cfg.interval cfg.slotNum now t.copyTaskInfo.interval = i
      ∨ (w.applyAlert cfg n t.copyTaskInfo result now).prev n ≠ none ∨ slot = i := by
    rcases hown' with hp | hs | ⟨-, hs⟩
    · exact Or.inr (Or.inl hp)
    · exact Or.inr (Or.inr hs)
    · exact Or.inl hs
  unfold TimeWheel.lockedSection handleTaskSchedulingLocked
  rw [if_neg (by rw [hu₁.task_eq]; exact Option.some_ne_none t), hresched, if_pos hr]
  obtain ⟨hinv, hc, hused⟩ := h₁.rescheduleTask hu₁ t.copyTaskInfo now hslot
  exact ⟨hinv, hc₁.trans hc, hused⟩

/-- The locked section of a task that has run its last time. It ends up in the
pool. -/
theorem Inv.lockedSection_remove (h : Inv cfg w lists) (hu : Used cfg w lists n i c t)
    (result : AlarmResult) (now : Time) {slot : ℕ}
    (hown : UnlinksOwnList cfg w n t.copyTaskInfo now slot)
    (hr : ¬ shouldRescheduleTask (w.heap n) t.copyTaskInfo = true) :
    ∃ lists', Inv cfg (w.lockedSection cfg n t.copyTaskInfo result now slot) lists'
      ∧ ChangesOnly n w (w.lockedSection cfg n t.copyTaskInfo result now slot) lists lists'
      ∧ Released (w.lockedSection cfg n t.copyTaskInfo result now slot) lists' n := by
  obtain ⟨h₁, hu₁, hc₁, hprev, hresched⟩ := applyAlert_spec h hu result now
  have hown' := (hu.unlinksOwnList_iff now slot).mp hown
  rw [← hprev] at hown'
  have hslot : (w.applyAlert cfg n t.copyTaskInfo result now).prev n ≠ none ∨ slot = i := by
    rcases hown' with hp | hs | ⟨hs, -⟩
    · exact Or.inl hp
    · exact Or.inr hs
    · exact absurd hs hr
  unfold TimeWheel.lockedSection handleTaskSchedulingLocked
  rw [if_neg (by rw [hu₁.task_eq]; exact Option.some_ne_none t), hresched, if_neg hr]
  have hid : t.copyTaskInfo.id = t.id := rfl
  obtain ⟨lists', hinv, hc, hrel⟩ := h₁.removeTaskInternal hu₁ hid hslot
  exact ⟨lists', hinv, hc₁.trans hc, hrel⟩

/-- **The locked section** changes its own node only, and leaves it in use or
released, when it unlinks the node from its own list. This is the form in which
runs use it. -/
theorem Inv.lockedSection (h : Inv cfg w lists) (hu : Used cfg w lists n i c t)
    (result : AlarmResult) (now : Time) {slot : ℕ}
    (hown : UnlinksOwnList cfg w n t.copyTaskInfo now slot) :
    ∃ lists', Inv cfg (w.lockedSection cfg n t.copyTaskInfo result now slot) lists'
      ∧ ChangesOnly n w (w.lockedSection cfg n t.copyTaskInfo result now slot) lists lists'
      ∧ ((∃ j, Used cfg (w.lockedSection cfg n t.copyTaskInfo result now slot) lists' n j c t)
        ∨ Released (w.lockedSection cfg n t.copyTaskInfo result now slot) lists' n) := by
  by_cases hr : shouldRescheduleTask (w.heap n) t.copyTaskInfo = true
  · obtain ⟨hinv, hc, hused⟩ := h.lockedSection_reschedule hu result now hown hr
    exact ⟨_, hinv, hc, Or.inl ⟨_, hused⟩⟩
  · obtain ⟨lists', hinv, hc, hrel⟩ := h.lockedSection_remove hu result now hown hr
    exact ⟨lists', hinv, hc, Or.inr hrel⟩

/-- A node without predecessor heads its slot. -/
theorem Used.slots_eq (hu : Used cfg w lists n i c t) (h : Inv cfg w lists)
    (hprev : w.prev n = none) : w.slots i = some n := by
  obtain ⟨ys, hys⟩ := (h.family.chain i).eq_head_of_prv_none hu.mem hprev
  rw [(h.family.chain i).head_eq, hys]
  rfl

/-- And whatever heads a slot of a well-formed wheel is in its list. -/
theorem WellFormed.mem_of_slots (h : WellFormed cfg w lists) (hs : w.slots i = some n) :
    n ∈ lists i :=
  List.mem_of_mem_head? (by rw [← (h.family.chain i).head_eq, hs]; rfl)

/-- **Unlinking from a foreign list breaks the wheel**: the node is left in its
old slot besides its new one, or there without being registered. The head
pointer that is moved on belongs to another list. The slot of the node still
points to it, while its own pointers say that it is somewhere else, or nowhere;
and no family of lists fits that. -/
theorem not_wellFormed_lockedSection (h : Inv cfg w lists) (hu : Used cfg w lists n i c t)
    (result : AlarmResult) (now : Time) {slot : ℕ}
    (hown : ¬ UnlinksOwnList cfg w n t.copyTaskInfo now slot) (lists' : ℕ → List NodeRef) :
    ¬ WellFormed cfg (w.lockedSection cfg n t.copyTaskInfo result now slot) lists' := by
  obtain ⟨h₁, hu₁, -, hprev, hresched⟩ := applyAlert_spec h hu result now
  rw [hu.unlinksOwnList_iff] at hown
  push Not at hown
  obtain ⟨hp, hslot, hsame⟩ := hown
  rw [← hprev] at hp
  -- the head of the node's list is not moved on
  have hunlinked : ∀ node : TaskSlot, node.prev = none →
      (((w.applyAlert cfg n t.copyTaskInfo result now).setNode n node).unlink n slot).slots i
        = some n := by
    -- suppose some lists did fit
    intro node hnode
    rw [(unlink_spec _ n slot).2.2.2]
    have hp' : ((w.applyAlert cfg n t.copyTaskInfo result now).setNode n node).prev n = none := by
      show (((w.applyAlert cfg n t.copyTaskInfo result now).setNode n node).heap n).prev = none
      rw [heap_setNode_self, hnode]
    unfold unlinkSlots
    rw [if_pos hp', Function.update_of_ne (Ne.symm hslot)]
    exact hu₁.slots_eq h₁ hp
  intro hw
  unfold TimeWheel.lockedSection handleTaskSchedulingLocked at hw
  rw [if_neg (by rw [hu₁.task_eq]; exact Option.some_ne_none t), hresched] at hw
  by_cases hr : shouldRescheduleTask (w.heap n) t.copyTaskInfo = true
  · rw [if_pos hr] at hw
    have hne : slotIndexFor cfg.interval cfg.slotNum now t.interval ≠ i := hsame hr
    unfold TimeWheel.rescheduleTask at hw
    dsimp only at hw
    have hi : (((w.applyAlert cfg n t.copyTaskInfo result now).setNode n
        { (w.applyAlert cfg n t.copyTaskInfo result now).heap n with
          runAt := now.add t.copyTaskInfo.interval }).heap n).slotIndex
          ≠ slotIndexFor cfg.interval cfg.slotNum now t.copyTaskInfo.interval := by
      rw [heap_setNode_self]
      show ((w.applyAlert cfg n t.copyTaskInfo result now).heap n).slotIndex ≠ _
      rw [hu₁.slotIndex_eq]
      exact Ne.symm hne
    rw [if_pos hi] at hw
    refine hne (hw.family.disjoint _ _ n (hw.mem_of_slots ?_) (hw.mem_of_slots ?_))
    · show (pushFront _ n _).slots _ = some n
      rw [(pushFront_spec _ n _).2.2.2]
      exact Function.update_self _ _ _
    · show (pushFront _ n _).slots _ = some n
      rw [(pushFront_spec _ n _).2.2.2]
      exact (Function.update_of_ne (Ne.symm hne) _ _).trans (hunlinked _ hp)
  · rw [if_neg hr] at hw
    have hmem : n ∈ lists' i := by
      refine hw.mem_of_slots ?_
      have hkeep := hunlinked ((w.applyAlert cfg n t.copyTaskInfo result now).heap n) hp
      unfold setNode at hkeep
      rw [Function.update_eq_self] at hkeep
      exact hkeep
    obtain ⟨j, id, hentry⟩ := (hw.registered n).mp ⟨i, hmem⟩
    obtain ⟨heap, slots, hrel⟩ :=
      ((w.applyAlert cfg n t.copyTaskInfo result now).unlink_spec n slot).1.frame
    have hdel : (((w.applyAlert cfg n t.copyTaskInfo result now).deleteEntry cfg t.id).shards
        j).lookup id = some n := by
      unfold TimeWheel.removeTaskInternal at hentry
      rw [hrel] at hentry
      exact hentry
    exact ((lookup_deleteEntry hu₁ j id n).mp hdel).1 rfl

end Timewheel
