import Timewheel.Wheel

/-!
# The representation invariant

Five pieces of pointer surgery and two indexes have to agree on what is in
the wheel. `WellFormed cfg w lists` says that they do: the slots hold disjoint
doubly linked lists, `lists i` being the nodes of slot `i`, each node knows
its slot, and the nodes in the lists are the nodes in the task map, every one
of them under the ID of its task in the shard of that ID. `Inv` adds what the
next operation relies on: nodes of the pool are not in use, and a registered
node has a context of its own.

An operation changes the wheel in one of four ways – it detaches a node,
attaches one, moves one to another slot, or writes fields the invariant does
not read – and each of these keeps the invariant (`Inv.detach`, `Inv.attach`,
`Inv.move`, `Inv.congr`). What the operations do is said once, in
`unlink_spec`, `pushFront_spec` and `insertOrdered_spec`.

The invariant is stated with the lists as an argument. They are the ghost
state of the proofs: the code has only pointers, and a theorem about an
operation says which lists the wheel has afterwards, as a function of those
before.
-/

namespace Timewheel

open DList

/-! ## Links and payload -/

/-- A node without its two pointers. It is what pointer surgery does not touch. -/
def TaskSlot.payload (node : TaskSlot) : TaskSlot := { node with next := none, prev := none }

/-- The fields the invariant reads besides the pointers. Two nodes with the same
tag serve the same registration in the same slot. -/
def TaskSlot.tag (node : TaskSlot) : Option Task × Option CtxRef × ℕ :=
  (node.task, node.ctx, node.slotIndex)

/-- It is part of the payload. -/
theorem TaskSlot.tag_of_payload {a b : TaskSlot} (h : a.payload = b.payload) : a.tag = b.tag := by
  show a.payload.tag = b.payload.tag
  rw [h]

namespace TimeWheel

variable {cfg : Config} {w w' : TimeWheel}

/-- `w'` differs from `w` in pointers and slots only. Everything but the
pointers can be carried over. -/
structure Relinked (w w' : TimeWheel) : Prop where
  frame : ∃ heap slots, w' = { w with heap := heap, slots := slots }
  payload : ∀ n, (w'.heap n).payload = (w.heap n).payload

namespace Relinked

/-- Surgery is made of steps of one pointer, -/
theorem refl (w : TimeWheel) : Relinked w w := ⟨⟨w.heap, w.slots, rfl⟩, fun _ => rfl⟩

/-- one after another, -/
theorem trans {w₁ w₂ w₃ : TimeWheel} (h : Relinked w₁ w₂) (h' : Relinked w₂ w₃) :
    Relinked w₁ w₃ := by
  obtain ⟨heap, slots, rfl⟩ := h.frame
  obtain ⟨heap', slots', rfl⟩ := h'.frame
  exact ⟨⟨heap', slots', rfl⟩, fun n => (h'.payload n).trans (h.payload n)⟩

/-- and all of them leave the map, -/
theorem shards (h : Relinked w w') : w'.shards = w.shards := by
  obtain ⟨_, _, rfl⟩ := h.frame
  rfl

/-- the pool, -/
theorem taskPool (h : Relinked w w') : w'.taskPool = w.taskPool := by
  obtain ⟨_, _, rfl⟩ := h.frame
  rfl

/-- the allocation of nodes -/
theorem nextNode (h : Relinked w w') : w'.nextNode = w.nextNode := by
  obtain ⟨_, _, rfl⟩ := h.frame
  rfl

/-- and contexts, -/
theorem nextCtx (h : Relinked w w') : w'.nextCtx = w.nextCtx := by
  obtain ⟨_, _, rfl⟩ := h.frame
  rfl

/-- the flag, -/
theorem running (h : Relinked w w') : w'.running = w.running := by
  obtain ⟨_, _, rfl⟩ := h.frame
  rfl

/-- and the tags of the nodes. -/
theorem tag (h : Relinked w w') (n : NodeRef) : (w'.heap n).tag = (w.heap n).tag :=
  TaskSlot.tag_of_payload (h.payload n)

end Relinked

/-! ### One pointer -/

/-- Writing a pointer forward, -/
theorem relinked_setNext (w : TimeWheel) (n : NodeRef) (v : Option NodeRef) :
    Relinked w (w.setNext n v) := by
  refine ⟨⟨_, w.slots, rfl⟩, fun m => ?_⟩
  by_cases h : m = n
  · subst h
    simp [setNext, setNode, TaskSlot.payload]
  · simp [setNext, setNode, h]

/-- backward, -/
theorem relinked_setPrev (w : TimeWheel) (n : NodeRef) (v : Option NodeRef) :
    Relinked w (w.setPrev n v) := by
  refine ⟨⟨_, w.slots, rfl⟩, fun m => ?_⟩
  by_cases h : m = n
  · subst h
    simp [setPrev, setNode, TaskSlot.payload]
  · simp [setPrev, setNode, h]

/-- or to the head of a slot is such a step. -/
theorem relinked_setSlot (w : TimeWheel) (i : ℕ) (v : Option NodeRef) :
    Relinked w (w.setSlot i v) := ⟨⟨w.heap, _, rfl⟩, fun _ => rfl⟩

/-- What each of them writes, and what it leaves, is all there is to know of it. -/
@[simp] theorem next_setNext (w : TimeWheel) (n : NodeRef) (v : Option NodeRef) :
    (w.setNext n v).next = Function.update w.next n v := by
  funext m
  by_cases h : m = n
  · subst h
    simp [setNext, setNode, next]
  · simp [setNext, setNode, next, h]

@[simp] theorem prev_setNext (w : TimeWheel) (n : NodeRef) (v : Option NodeRef) :
    (w.setNext n v).prev = w.prev := by
  funext m
  by_cases h : m = n
  · subst h
    simp [setNext, setNode, prev]
  · simp [setNext, setNode, prev, h]

@[simp] theorem next_setPrev (w : TimeWheel) (n : NodeRef) (v : Option NodeRef) :
    (w.setPrev n v).next = w.next := by
  funext m
  by_cases h : m = n
  · subst h
    simp [setPrev, setNode, next]
  · simp [setPrev, setNode, next, h]

@[simp] theorem prev_setPrev (w : TimeWheel) (n : NodeRef) (v : Option NodeRef) :
    (w.setPrev n v).prev = Function.update w.prev n v := by
  funext m
  by_cases h : m = n
  · subst h
    simp [setPrev, setNode, prev]
  · simp [setPrev, setNode, prev, h]

@[simp] theorem slots_setNext (w : TimeWheel) (n : NodeRef) (v : Option NodeRef) :
    (w.setNext n v).slots = w.slots := rfl

@[simp] theorem slots_setPrev (w : TimeWheel) (n : NodeRef) (v : Option NodeRef) :
    (w.setPrev n v).slots = w.slots := rfl

@[simp] theorem slots_setSlot (w : TimeWheel) (i : ℕ) (v : Option NodeRef) :
    (w.setSlot i v).slots = Function.update w.slots i v := rfl

@[simp] theorem next_setSlot (w : TimeWheel) (i : ℕ) (v : Option NodeRef) :
    (w.setSlot i v).next = w.next := rfl

@[simp] theorem prev_setSlot (w : TimeWheel) (i : ℕ) (v : Option NodeRef) :
    (w.setSlot i v).prev = w.prev := rfl

theorem heap_next (w : TimeWheel) (n : NodeRef) : (w.heap n).next = w.next n := rfl

theorem heap_prev (w : TimeWheel) (n : NodeRef) : (w.heap n).prev = w.prev n := rfl

/-! ### The three surgeries -/

/-- What `unlink` does to the slots. The code tests the pointer backward to see
whether a node heads its list. -/
def unlinkSlots (w : TimeWheel) (n : NodeRef) (slot : ℕ) : ℕ → Option NodeRef :=
  if w.prev n = none then Function.update w.slots slot (w.next n) else w.slots

/-- The second half of `unlink`, after a first half that leaves the pointers of
`n` itself alone. The code reads the pointers of the node again at this point. -/
theorem unlinkBack_spec {w w₁ : TimeWheel} {n : NodeRef} {slot : ℕ} (hr : Relinked w w₁)
    (hn : w₁.next = unlinkNxt w.next w.prev n) (hp : w₁.prev = w.prev)
    (hs : w₁.slots = w.unlinkSlots n slot) (hself : w₁.next n = w.next n) :
    let w₂ := match (w₁.heap n).next with
      | some m => w₁.setPrev m (w₁.heap n).prev
      | none => w₁
    Relinked w w₂ ∧ w₂.next = unlinkNxt w.next w.prev n
      ∧ w₂.prev = unlinkPrv w.next w.prev n ∧ w₂.slots = w.unlinkSlots n slot := by
  rw [heap_next, hself, heap_prev, hp]
  cases hm : w.next n with
  | none =>
    refine ⟨hr, hn, ?_, hs⟩
    rw [hp, unlinkPrv, hm]
  | some m =>
    refine ⟨hr.trans (relinked_setPrev w₁ m _), ?_, ?_, ?_⟩
    · rw [next_setPrev, hn]
    · rw [prev_setPrev, hp, unlinkPrv, hm]
    · rw [slots_setPrev, hs]

/-- **Unlinking** joins the neighbours, and moves the head of `slot` on when the
node has no predecessor. If `slot` is not the node's own, the head of a foreign
list is moved. -/
theorem unlink_spec (w : TimeWheel) (n : NodeRef) (slot : ℕ) :
    Relinked w (w.unlink n slot)
      ∧ (w.unlink n slot).next = unlinkNxt w.next w.prev n
      ∧ (w.unlink n slot).prev = unlinkPrv w.next w.prev n
      ∧ (w.unlink n slot).slots = w.unlinkSlots n slot := by
  unfold unlink
  rw [heap_prev]
  cases hq : w.prev n with
  | none =>
    refine unlinkBack_spec (relinked_setSlot w slot _) ?_ (prev_setSlot w slot _) ?_ rfl
    · rw [next_setSlot, unlinkNxt, hq]
    · rw [slots_setSlot, unlinkSlots, if_pos hq, heap_next]
  | some q =>
    refine unlinkBack_spec (relinked_setNext w q _) ?_ (prev_setNext w q _) ?_ ?_
    · rw [next_setNext, unlinkNxt, hq, heap_next]
    · rw [slots_setNext, unlinkSlots, if_neg (by rw [hq]; exact Option.some_ne_none q)]
    · rw [next_setNext, heap_next]
      by_cases h : n = q
      · rw [← h, Function.update_self]
      · rw [Function.update_of_ne h]

/-- **Pushing a node in front** of a slot. The old head points back to it. -/
theorem pushFront_spec (w : TimeWheel) (n : NodeRef) (slot : ℕ) :
    Relinked w (w.pushFront n slot)
      ∧ (w.pushFront n slot).next = Function.update w.next n (w.slots slot)
      ∧ (w.pushFront n slot).prev
        = Function.update (setPrvAt w.prev (w.slots slot) n) n none
      ∧ (w.pushFront n slot).slots = Function.update w.slots slot (some n) := by
  unfold pushFront
  dsimp only [slots_setNext]
  cases w.slots slot with
  | none =>
    refine ⟨((relinked_setNext w n _).trans (relinked_setSlot _ slot _)).trans
      (relinked_setPrev _ n _), ?_⟩
    simp [setPrvAt]
  | some m =>
    refine ⟨(((relinked_setNext w n _).trans (relinked_setPrev _ m _)).trans
      (relinked_setSlot _ slot _)).trans (relinked_setPrev _ n _), ?_⟩
    simp [setPrvAt]

/-- The nodes behind which a task of a priority is inserted. Among equal
priorities the new task comes first. -/
def runsFirst (w : TimeWheel) (priority : TaskPriority) (n : NodeRef) : Bool :=
  (w.heap n).task.any (fun task => decide (task.priority < priority))

/-- **The search of `AddTask`** stops at the last node of the leading part of
the list whose tasks run first. By induction on the list, following the loop. -/
theorem findPrev_eq {priority : TaskPriority} {p q hd : Option NodeRef} {xs : List NodeRef}
    (h : Chain w.next w.prev q hd xs) {fuel : ℕ} (hf : xs.length ≤ fuel) :
    w.findPrev priority fuel p hd
      = ((xs.takeWhile (w.runsFirst priority)).getLast?).or p := by
  induction xs generalizing p q hd fuel with
  | nil =>
    rw [chain_nil.mp h]
    cases fuel with
    | zero => rfl
    | succ fuel => rfl
  | cons x xs ih =>
    obtain ⟨rfl, _, htail⟩ := h
    cases fuel with
    | zero => exact absurd hf (by simp)
    | succ fuel =>
      have hlen : xs.length ≤ fuel := by simpa using hf
      unfold findPrev
      cases ht : (w.heap x).task with
      | none => simp [runsFirst, ht]
      | some task =>
        by_cases hlt : task.priority < priority
        · have hx : w.runsFirst priority x = true := by simp [runsFirst, ht, hlt]
          dsimp only
          rw [if_pos hlt, heap_next, ih htail hlen, List.takeWhile_cons_of_pos hx]
          cases List.takeWhile (w.runsFirst priority) xs with
          | nil => rfl
          | cons y ys =>
            rw [List.getLast?_cons_cons, List.getLast?_eq_some_getLast (List.cons_ne_nil y ys)]
            rfl
        · have hx : w.runsFirst priority x = false := by simp [runsFirst, ht, hlt]
          dsimp only
          rw [if_neg hlt, List.takeWhile_cons_of_neg (by rw [hx]; exact Bool.false_ne_true)]
          rfl

/-- The list of a slot after a task of a priority has been added. -/
def insertedList (w : TimeWheel) (n : NodeRef) (priority : TaskPriority)
    (xs : List NodeRef) : List NodeRef :=
  xs.takeWhile (w.runsFirst priority) ++ n :: xs.dropWhile (w.runsFirst priority)

/-- **Inserting by priority** puts a new node behind the leading tasks that run
first. If there are no such tasks, it becomes the head. -/
theorem insertOrdered_spec {lists : ℕ → List NodeRef}
    (F : Family w.slots lists w.next w.prev) {n : NodeRef} (hn : ∀ i, n ∉ lists i)
    (hnext : w.next n = none) (hprev : w.prev n = none) (priority : TaskPriority) (slot : ℕ)
    (hlen : (lists slot).length ≤ w.nextNode) :
    Relinked w (w.insertOrdered n priority slot)
      ∧ Family (w.insertOrdered n priority slot).slots
        (Function.update lists slot (w.insertedList n priority (lists slot)))
        (w.insertOrdered n priority slot).next (w.insertOrdered n priority slot).prev := by
  have hchain := F.chain slot
  have hhead := hchain.head_eq
  have hpush := F.pushFront slot hn
  unfold insertOrdered
  cases hs : w.slots slot with
  | none =>
    -- an empty slot: the node becomes its head
    have hnil : lists slot = [] := by
      rw [hs] at hhead
      exact List.head?_eq_none_iff.mp hhead.symm
    refine ⟨relinked_setSlot w slot _, ?_⟩
    rw [hs, hnil] at hpush
    rw [hnil, slots_setSlot, next_setSlot, prev_setSlot]
    rwa [setPrvAt, ← hnext, Function.update_eq_self, hnext, ← hprev,
      Function.update_eq_self] at hpush
  | some head =>
    have hmem : head ∈ lists slot := List.mem_of_mem_head? (by rw [← hhead, hs]; rfl)
    have hne : n ≠ head := fun h => hn slot (h ▸ hmem)
    have hfind : w.findPrev priority w.nextNode none (some head)
        = (((lists slot).takeWhile (w.runsFirst priority)).getLast?).or none :=
      findPrev_eq (hs ▸ hchain) hlen
    rw [Option.or_none] at hfind
    dsimp only
    rw [hfind]
    cases hq : ((lists slot).takeWhile (w.runsFirst priority)).getLast? with
    | none =>
      have htake := List.getLast?_eq_none_iff.mp hq
      have hdrop : (lists slot).dropWhile (w.runsFirst priority) = lists slot := by
        have := List.takeWhile_append_dropWhile (p := w.runsFirst priority) (l := lists slot)
        rwa [htake, List.nil_append] at this
      refine ⟨((relinked_setNext w n _).trans (relinked_setPrev _ head _)).trans
        (relinked_setSlot _ slot _), ?_⟩
      rw [insertedList, htake, hdrop, List.nil_append]
      rw [hs, setPrvAt] at hpush
      have hself : Function.update (Function.update w.prev head (some n)) n none
          = Function.update w.prev head (some n) := by
        rw [Function.update_eq_self_iff, Function.update_of_ne hne, hprev]
      rw [hself] at hpush
      simpa using hpush
    | some q =>
      obtain ⟨as, has⟩ : ∃ as, (lists slot).takeWhile (w.runsFirst priority) = as ++ [q] :=
        List.getLast?_eq_some_iff.mp hq
      have hsplit : lists slot = as ++ q :: (lists slot).dropWhile (w.runsFirst priority) := by
        conv_lhs => rw [← List.takeWhile_append_dropWhile (p := w.runsFirst priority)
          (l := lists slot), has]
        simp
      have hins := F.insertAfter hn hsplit
      have hqn : q ≠ n := fun h => hn slot (by rw [hsplit, h]; simp)
      have hlist : w.insertedList n priority (lists slot)
          = as ++ q :: n :: (lists slot).dropWhile (w.runsFirst priority) := by
        rw [insertedList, has]
        simp
      have hfront : (w.setNext n (w.heap q).next).next q = w.next q := by
        rw [next_setNext, Function.update_of_ne hqn]
      dsimp only
      rw [hlist, heap_next (w.setNext n (w.heap q).next), hfront, heap_next w]
      cases hm : w.next q with
      | none =>
        rw [hm, setPrvAt] at hins
        refine ⟨((relinked_setNext w n _).trans (relinked_setNext _ q _)).trans
          (relinked_setPrev _ n _), ?_⟩
        simpa using hins
      | some m =>
        rw [hm, setPrvAt] at hins
        refine ⟨(((relinked_setNext w n _).trans (relinked_setPrev _ m _)).trans
          (relinked_setNext _ q _)).trans (relinked_setPrev _ n _), ?_⟩
        simpa using hins

end TimeWheel

/-! ## The invariant -/

open TimeWheel

/-- **Well-formedness**: what holds of a wheel between operations, as long as
nothing goes wrong. `lists i` are the nodes of slot `i`, from the head on. -/
structure WellFormed (cfg : Config) (w : TimeWheel) (lists : ℕ → List NodeRef) : Prop where
  /-- Each slot holds a nil-terminated doubly linked list whose head has no
  predecessor, and no node is in two slots. -/
  family : Family w.slots lists w.next w.prev
  /-- A node in slot `i` has `slotIndex = i`. -/
  slotIndex : ∀ i n, n ∈ lists i → i < cfg.slotNum ∧ (w.heap n).slotIndex = i
  /-- The nodes in the slots are the nodes in the task map. -/
  registered : ∀ n, (∃ i, n ∈ lists i) ↔ ∃ j id, (w.shards j).lookup id = some n
  /-- An entry is in the shard of its ID, which is the ID of its task. -/
  entry : ∀ j id n, (w.shards j).lookup id = some n →
    j = shardOf cfg id ∧ ∃ task, (w.heap n).task = some task ∧ task.id = id

/-- The node `n` is in use: it carries `task`, in slot `i`, for the registration
whose context is `c`. It collects what the invariant says of such a node. -/
structure Used (cfg : Config) (w : TimeWheel) (lists : ℕ → List NodeRef) (n : NodeRef)
    (i : ℕ) (c : CtxRef) (task : Task) : Prop where
  mem : n ∈ lists i
  slot_lt : i < cfg.slotNum
  tag : (w.heap n).tag = (some task, some c, i)
  entry : ∀ j id, (w.shards j).lookup id = some n ↔ j = shardOf cfg task.id ∧ id = task.id
  allocated : n < w.nextNode
  ctx_lt : c < w.nextCtx
  not_pooled : n ∉ w.taskPool

/-- The node `n` is not in use. It may be in the pool, or have never been used. -/
structure Free (w : TimeWheel) (lists : ℕ → List NodeRef) (n : NodeRef) : Prop where
  not_mem : ∀ i, n ∉ lists i
  no_entry : ∀ j id, (w.shards j).lookup id ≠ some n

/-- **The invariant of the wheel**: every node is in use or free, two nodes in
use serve different registrations, and the pool holds each of its nodes once.
Whether a node is in use can be told from the lists or from the map; they agree. -/
structure Inv (cfg : Config) (w : TimeWheel) (lists : ℕ → List NodeRef) : Prop where
  family : Family w.slots lists w.next w.prev
  node : ∀ n, (∃ i c task, Used cfg w lists n i c task) ∨ Free w lists n
  ctx_inj : ∀ {m n i j c s t}, Used cfg w lists m i c s → Used cfg w lists n j c t → m = n
  pool_nodup : w.taskPool.Nodup
  pool_lt : ∀ n ∈ w.taskPool, n < w.nextNode

/-- `w'` differs from `w` at the node `n` at most: every other node keeps its
fields, its place in its list and its entry in the map. This is the frame
condition of the operations: most invariants about nodes need to be checked at
one node only. -/
structure ChangesOnly (n : NodeRef) (w w' : TimeWheel) (lists lists' : ℕ → List NodeRef) :
    Prop where
  payload : ∀ m, m ≠ n → (w'.heap m).payload = (w.heap m).payload
  order : ∀ i, (lists' i).filter (· ≠ n) = (lists i).filter (· ≠ n)
  entry : ∀ j id m, m ≠ n →
    ((w'.shards j).lookup id = some m ↔ (w.shards j).lookup id = some m)
  pool : ∀ m, m ≠ n → m ∈ w'.taskPool → m ∈ w.taskPool
  nextNode : w.nextNode ≤ w'.nextNode
  nextCtx : w.nextCtx ≤ w'.nextCtx
  running : w'.running = w.running

section

variable {cfg : Config} {w w' w'' : TimeWheel} {lists lists' lists'' : ℕ → List NodeRef}
  {n m : NodeRef} {i j : ℕ} {c d : CtxRef} {task : Task}

/-- A node in use carries its task, -/
theorem Used.task_eq (h : Used cfg w lists n i c task) : (w.heap n).task = some task :=
  congrArg Prod.fst h.tag

/-- its context, -/
theorem Used.ctx_eq (h : Used cfg w lists n i c task) : (w.heap n).ctx = some c :=
  congrArg (fun t => t.2.1) h.tag

/-- and the number of its slot. -/
theorem Used.slotIndex_eq (h : Used cfg w lists n i c task) : (w.heap n).slotIndex = i :=
  congrArg (fun t => t.2.2) h.tag

/-- The map finds a node in use under the ID of its task. -/
theorem Used.lookup (h : Used cfg w lists n i c task) : w.lookup cfg task.id = some n :=
  (h.entry _ _).mpr ⟨rfl, rfl⟩

/-- A node is used in one way. Its slot, context and task are determined. -/
theorem Used.unique {s t : Task} (h : Used cfg w lists n i c s) (h' : Used cfg w lists n j d t) :
    i = j ∧ c = d ∧ s = t := by
  have heq := h.tag.symm.trans h'.tag
  simp only [Prod.mk.injEq, Option.some.injEq] at heq
  exact ⟨heq.2.2, heq.2.1, heq.1⟩

/-- A node is not both. -/
theorem Free.not_used (h : Free w lists n) : ¬ Used cfg w lists n i c task :=
  fun hu => h.not_mem i hu.mem

namespace Inv

/-- A node in a list is in use. -/
theorem used_of_mem (h : Inv cfg w lists) (hn : n ∈ lists i) :
    ∃ c task, Used cfg w lists n i c task := by
  rcases h.node n with ⟨k, c, task, hu⟩ | hf
  · obtain rfl := h.family.disjoint k i n hu.mem hn
    exact ⟨c, task, hu⟩
  · exact absurd hn (hf.not_mem i)

/-- A node in the map is in use. -/
theorem used_of_lookup (h : Inv cfg w lists) {id : String} (hn : w.lookup cfg id = some n) :
    ∃ i c task, Used cfg w lists n i c task ∧ task.id = id := by
  rcases h.node n with ⟨k, c, task, hu⟩ | hf
  · exact ⟨k, c, task, hu, ((hu.entry _ _).mp hn).2.symm⟩
  · exact absurd hn (hf.no_entry _ _)

/-- A node of the pool is free. -/
theorem free_of_pool (h : Inv cfg w lists) (hn : n ∈ w.taskPool) : Free w lists n := by
  rcases h.node n with ⟨k, c, task, hu⟩ | hf
  · exact absurd hn hu.not_pooled
  · exact hf

/-- The invariant contains well-formedness. -/
theorem wellFormed (h : Inv cfg w lists) : WellFormed cfg w lists where
  family := h.family
  slotIndex := fun i n hn => by
    obtain ⟨c, task, hu⟩ := h.used_of_mem hn
    exact ⟨hu.slot_lt, hu.slotIndex_eq⟩
  registered := fun n => by
    constructor
    · rintro ⟨i, hn⟩
      obtain ⟨c, task, hu⟩ := h.used_of_mem hn
      exact ⟨_, _, hu.lookup⟩
    · rintro ⟨j, id, hn⟩
      rcases h.node n with ⟨k, c, task, hu⟩ | hf
      · exact ⟨k, hu.mem⟩
      · exact absurd hn (hf.no_entry j id)
  entry := fun j id n hn => by
    rcases h.node n with ⟨k, c, task, hu⟩ | hf
    · obtain ⟨rfl, rfl⟩ := (hu.entry j id).mp hn
      exact ⟨rfl, task, hu.task_eq, rfl⟩
    · exact absurd hn (hf.no_entry j id)

/-- The walk over a slot has fuel enough. -/
theorem length_le (h : Inv cfg w lists) (i : ℕ) : (lists i).length ≤ w.nextNode := by
  have hsub : (lists i).Subperm (List.range w.nextNode) := by
    refine (h.family.chain i).nodup.subperm (fun n hn => ?_)
    obtain ⟨c, task, hu⟩ := h.used_of_mem hn
    exact List.mem_range.mpr hu.allocated
  have hlen := hsub.length_le
  rwa [List.length_range] at hlen

/-- **Following the pointers of a slot meets its nodes.** -/
theorem slotNodes_eq (h : Inv cfg w lists) (i : ℕ) : w.slotNodes i = lists i :=
  (h.family.chain i).walk_eq (h.length_le i)

end Inv

namespace ChangesOnly

/-- Doing nothing changes no node, -/
theorem refl (n : NodeRef) (w : TimeWheel) (lists : ℕ → List NodeRef) :
    ChangesOnly n w w lists lists :=
  ⟨fun _ _ => rfl, fun _ => rfl, fun _ _ _ _ => Iff.rfl, fun _ _ h => h, le_refl _, le_refl _, rfl⟩

/-- and two changes of one node are one. -/
theorem trans (h : ChangesOnly n w w' lists lists') (h' : ChangesOnly n w' w'' lists' lists'') :
    ChangesOnly n w w'' lists lists'' where
  payload := fun m hm => (h'.payload m hm).trans (h.payload m hm)
  order := fun i => (h'.order i).trans (h.order i)
  entry := fun j id m hm => (h'.entry j id m hm).trans (h.entry j id m hm)
  pool := fun m hm hp => h.pool m hm (h'.pool m hm hp)
  nextNode := h.nextNode.trans h'.nextNode
  nextCtx := h.nextCtx.trans h'.nextCtx
  running := h'.running.trans h.running

/-- The other nodes stay in their lists, -/
theorem mem_iff (h : ChangesOnly n w w' lists lists') (hm : m ≠ n) (i : ℕ) :
    m ∈ lists' i ↔ m ∈ lists i := by
  have key : ∀ l : List NodeRef, m ∈ l.filter (· ≠ n) ↔ m ∈ l := fun l => by
    simp [List.mem_filter, hm]
  rw [← key, h.order i, key]

/-- those in use stay in use, -/
theorem used (h : ChangesOnly n w w' lists lists') (hm : m ≠ n)
    (hu : Used cfg w lists m i c task) : Used cfg w' lists' m i c task where
  mem := (h.mem_iff hm i).mpr hu.mem
  slot_lt := hu.slot_lt
  tag := (TaskSlot.tag_of_payload (h.payload m hm)).trans hu.tag
  entry := fun j id => (h.entry j id m hm).trans (hu.entry j id)
  allocated := lt_of_lt_of_le hu.allocated h.nextNode
  ctx_lt := lt_of_lt_of_le hu.ctx_lt h.nextCtx
  not_pooled := fun hp => hu.not_pooled (h.pool m hm hp)

/-- and those that are free stay free. -/
theorem free (h : ChangesOnly n w w' lists lists') (hm : m ≠ n) (hf : Free w lists m) :
    Free w' lists' m where
  not_mem := fun i hi => hf.not_mem i ((h.mem_iff hm i).mp hi)
  no_entry := fun j id he => hf.no_entry j id ((h.entry j id m hm).mp he)

/-- Away from `n`, what is in use afterwards was in use before. -/
theorem used_before (h : ChangesOnly n w w' lists lists') (hinv : Inv cfg w lists) (hm : m ≠ n)
    (hu : Used cfg w' lists' m i c task) : Used cfg w lists m i c task := by
  rcases hinv.node m with ⟨k, d, t, hu'⟩ | hf
  · obtain ⟨rfl, rfl, rfl⟩ := (h.used hm hu').unique hu
    exact hu'
  · exact absurd hu (h.free hm hf).not_used

/-- **The local rule.** A change at the node `n` keeps the invariant when the
lists stay linked, the pool stays without repetition, and `n` itself is free
afterwards or in use for a registration that no other node serves. -/
theorem inv (h : ChangesOnly n w w' lists lists') (hinv : Inv cfg w lists)
    (hfamily : Family w'.slots lists' w'.next w'.prev) (hnodup : w'.taskPool.Nodup)
    (hpool : n ∈ w'.taskPool → n < w'.nextNode)
    (hn : (∃ i c task, Used cfg w' lists' n i c task
        ∧ ∀ m j t, m ≠ n → ¬ Used cfg w lists m j c t) ∨ Free w' lists' n) :
    Inv cfg w' lists' where
  family := hfamily
  node := fun m => by
    by_cases hm : m = n
    · subst hm
      exact hn.imp_left (fun ⟨i, c, task, hu, _⟩ => ⟨i, c, task, hu⟩)
    · exact (hinv.node m).imp (fun ⟨i, c, task, hu⟩ => ⟨i, c, task, h.used hm hu⟩) (h.free hm)
  ctx_inj := fun {a b i j c s t} ha hb => by
    -- a node other than `n` cannot serve the registration `n` serves
    have key : ∀ {i s b j t}, Used cfg w' lists' n i c s → Used cfg w' lists' b j c t →
        n = b := by
      intro i s b j t ha hb
      by_contra hne
      rcases hn with ⟨k, d, r, hu, hfresh⟩ | hf
      · obtain ⟨rfl, rfl, rfl⟩ := ha.unique hu
        exact hfresh b j t (Ne.symm hne) (h.used_before hinv (Ne.symm hne) hb)
      · exact hf.not_used ha
    by_cases han : a = n
    · subst han
      exact key ha hb
    · by_cases hbn : b = n
      · subst hbn
        exact (key hb ha).symm
      · exact hinv.ctx_inj (h.used_before hinv han ha) (h.used_before hinv hbn hb)
  pool_nodup := hnodup
  pool_lt := fun m hm => by
    by_cases hmn : m = n
    · subst hmn
      exact hpool hm
    · exact lt_of_lt_of_le (hinv.pool_lt m (h.pool m hmn hm)) h.nextNode

end ChangesOnly

end

end Timewheel
