import Timewheel.Exec

/-!
# What is registered

Seen from outside, a wheel is a map from IDs to tasks, each of them paused or
not: its `registry`.

`Entries` is what this view rests on: an entry of the map points to a node
that carries the task of its ID and is not in the pool. It says nothing about
the slots, so unlike `Inv` it survives an execution that unlinks the wrong
list. Below are the kinds of change the calls and the executions are made of,
each with what it does to the registry.

The kinds of change are three: a node is released with its entry
(`NodeReleased`), a node is drawn from the pool (`NodeDrawn`, and `NodeGot`
once it carries a task), and changes that the view does not see
(`SameEntries`). Each comes with two lemmas, one for `Entries` and one for the
registry.
-/

namespace Timewheel

open TimeWheel

variable {cfg : Config} {w w' w₁ : TimeWheel} {n m : NodeRef} {id : String} {t : Task}

/-! ## The view -/

/-- What is held under an ID. The flag is that of the node and not part of the
task. -/
structure Registration where
  task : Task
  paused : Bool
  deriving DecidableEq, Repr

/-- What is held under each ID. This is the abstract state: no shards, nodes,
slots or levels. -/
abbrev Registry := String → Option Registration

/-- What a node contributes to the view. Everything else in a node belongs to
the implementation. -/
def TaskSlot.held (node : TaskSlot) : Option Task × Bool := (node.task, node.paused)

/-- **The registry of a wheel.** It reads the map first and then the node. -/
def TimeWheel.registry (cfg : Config) (w : TimeWheel) : Registry := fun id =>
  (w.lookup cfg id).bind
    (fun n => (w.heap n).task.map (fun task => ⟨task, (w.heap n).paused⟩))

/-- The pool would hand out a node that was released while paused. `AddTask`
does not clear the flag, so the new registration would be paused from the start. -/
def TimeWheel.handsOutPaused (w : TimeWheel) (choice : Option NodeRef) : Bool :=
  choice.any (fun n => decide (n ∈ w.taskPool) && (w.heap n).paused)

/-- The wheel is running, and has no cache. Both matter for `AddTask` and for
lookups, and neither changes in what follows. -/
structure Up (w : TimeWheel) : Prop where
  running : w.running = true
  taskCache : w.taskCache = none

/-- `w'` is running if `w` is, and has no cache if `w` has none. -/
structure SameUp (w w' : TimeWheel) : Prop where
  running : w'.running = w.running
  taskCache : w.taskCache = none → w'.taskCache = none

/-- This is transitive and reflexive, -/
theorem SameUp.refl (w : TimeWheel) : SameUp w w := ⟨rfl, fun h => h⟩

/-- as a step made of smaller ones needs it, -/
theorem SameUp.trans {w'' : TimeWheel} (h : SameUp w w') (h' : SameUp w' w'') : SameUp w w'' :=
  ⟨h'.running.trans h.running, fun hc => h'.taskCache (h.taskCache hc)⟩

/-- and it carries `Up` along. -/
theorem SameUp.up (h : SameUp w w') (hw : Up w) : Up w' :=
  ⟨h.running.trans hw.running, h.taskCache hw.taskCache⟩

/-- **An entry points to a node that carries the task of its ID.** The pool is
part of it, since a node in the pool may be handed out at any time. -/
structure Entries (cfg : Config) (w : TimeWheel) : Prop where
  task : ∀ id n, w.lookup cfg id = some n → ∃ t, (w.heap n).task = some t ∧ t.id = id
  id_ne : ∀ id n, w.lookup cfg id = some n → id ≠ ""
  allocated : ∀ id n, w.lookup cfg id = some n → n < w.nextNode
  not_pooled : ∀ id n, w.lookup cfg id = some n → n ∉ w.taskPool
  pool_nodup : w.taskPool.Nodup
  pool_lt : ∀ n ∈ w.taskPool, n < w.nextNode

/-- Two IDs never share a node: it carries one task, and the task has one ID. -/
theorem Entries.injective (h : Entries cfg w) {id' : String} (hid : w.lookup cfg id = some n)
    (hid' : w.lookup cfg id' = some n) : id = id' := by
  obtain ⟨t, ht, rfl⟩ := h.task id n hid
  obtain ⟨t', ht', rfl⟩ := h.task id' n hid'
  exact congrArg Task.id (Option.some.inj (ht.symm.trans ht'))

/-- An ID is registered exactly if it has an entry. An entry always leads to a
task. -/
theorem Entries.registry_eq_none (h : Entries cfg w) (id : String) :
    w.registry cfg id = none ↔ w.lookup cfg id = none := by
  unfold TimeWheel.registry
  cases hid : w.lookup cfg id with
  | none => simp
  | some n =>
    obtain ⟨t, ht, -⟩ := h.task id n hid
    simp [ht]

/-- The empty ID is never registered. -/
theorem Entries.registry_empty (h : Entries cfg w) : w.registry cfg "" = none := by
  rw [h.registry_eq_none]
  exact Option.eq_none_iff_forall_not_mem.mpr (fun n hn => h.id_ne "" n hn rfl)

/-- The registration the entry of a node stands for. This is how a registration
is found, -/
theorem registry_of_lookup (hid : w.lookup cfg id = some n) (ht : (w.heap n).task = some t) :
    w.registry cfg id = some ⟨t, (w.heap n).paused⟩ := by
  unfold TimeWheel.registry
  rw [hid, Option.bind_some, ht]
  rfl

/-- A registration is that of a node. and this is what finding one tells. -/
theorem lookup_of_registry {r : Registration} (h : w.registry cfg id = some r) :
    ∃ n, w.lookup cfg id = some n ∧ (w.heap n).task = some r.task
      ∧ (w.heap n).paused = r.paused := by
  unfold TimeWheel.registry at h
  obtain ⟨n, hn, h⟩ := Option.bind_eq_some_iff.mp h
  obtain ⟨t, ht, rfl⟩ := Option.map_eq_some_iff.mp h
  exact ⟨n, hn, ht, rfl⟩

/-- **Congruence**: an ID with the same entry, whose node has kept its task and
its flag, has the same registration. -/
theorem registry_congr (hid : w'.lookup cfg id = w.lookup cfg id)
    (hheld : ∀ m, w.lookup cfg id = some m → (w'.heap m).held = (w.heap m).held) :
    w'.registry cfg id = w.registry cfg id := by
  unfold TimeWheel.registry
  rw [hid]
  cases hm : w.lookup cfg id with
  | none => rfl
  | some m =>
    have htask : (w'.heap m).task = (w.heap m).task := congrArg Prod.fst (hheld m hm)
    have hpaused : (w'.heap m).paused = (w.heap m).paused := congrArg Prod.snd (hheld m hm)
    rw [Option.bind_some, Option.bind_some, htask, hpaused]

/-! ### The map -/

/-- Inserting an entry changes one ID, -/
theorem insertEntry_lookup (w : TimeWheel) (id : String) (n : NodeRef) (id' : String) :
    (w.insertEntry cfg id n).lookup cfg id' = if id' = id then some n else w.lookup cfg id' := by
  unfold TimeWheel.lookup insertEntry
  dsimp only
  by_cases hj : shardOf cfg id' = shardOf cfg id
  · rw [hj, Function.update_self]
    split_ifs with hid
    · rw [hid, AList.lookup_insert]
    · rw [AList.lookup_insert_ne hid]
  · rw [Function.update_of_ne hj, if_neg (fun hid => hj (congrArg (shardOf cfg) hid))]

/-- and so does deleting one. -/
theorem deleteEntry_lookup (w : TimeWheel) (id : String) (id' : String) :
    (w.deleteEntry cfg id).lookup cfg id' = if id' = id then none else w.lookup cfg id' := by
  unfold TimeWheel.lookup deleteEntry
  dsimp only
  by_cases hj : shardOf cfg id' = shardOf cfg id
  · rw [hj, Function.update_self]
    split_ifs with hid
    · rw [hid, AList.lookup_erase]
    · rw [AList.lookup_erase_ne hid]
  · rw [Function.update_of_ne hj, if_neg (fun hid => hj (congrArg (shardOf cfg) hid))]

/-- Lookups read the shards only. -/
theorem lookup_congr (h : w'.shards = w.shards) (id : String) :
    w'.lookup cfg id = w.lookup cfg id := by
  unfold TimeWheel.lookup
  rw [h]

/-! ## The kinds of change -/

/-- `w'` differs from `w` in nothing the view rests on. Slots, links, counters
and times may have changed. -/
structure SameEntries (w w' : TimeWheel) : Prop where
  shards : w'.shards = w.shards
  taskPool : w'.taskPool = w.taskPool
  nextNode : w'.nextNode = w.nextNode
  held : ∀ m, (w'.heap m).held = (w.heap m).held
  up : SameUp w w'

namespace SameEntries

/-- Such changes can be put together, -/
theorem refl (w : TimeWheel) : SameEntries w w := ⟨rfl, rfl, rfl, fun _ => rfl, .refl w⟩

/-- one after another. -/
theorem trans {w'' : TimeWheel} (h : SameEntries w w') (h' : SameEntries w' w'') :
    SameEntries w w'' :=
  ⟨h'.shards.trans h.shards, h'.taskPool.trans h.taskPool, h'.nextNode.trans h.nextNode,
    fun m => (h'.held m).trans (h.held m), h.up.trans h'.up⟩

/-- Nodes keep their tasks, -/
theorem task (h : SameEntries w w') (m : NodeRef) : (w'.heap m).task = (w.heap m).task :=
  congrArg Prod.fst (h.held m)

/-- entries their nodes, -/
theorem lookup (h : SameEntries w w') (id : String) : w'.lookup cfg id = w.lookup cfg id :=
  lookup_congr h.shards id

/-- so that the entries stay sound, -/
theorem entries (h : SameEntries w w') (hw : Entries cfg w) : Entries cfg w' where
  task := fun id n hn => by
    rw [h.task]
    exact hw.task id n (h.lookup id ▸ hn)
  id_ne := fun id n hn => hw.id_ne id n (h.lookup id ▸ hn)
  allocated := fun id n hn => h.nextNode ▸ hw.allocated id n (h.lookup id ▸ hn)
  not_pooled := fun id n hn => h.taskPool ▸ hw.not_pooled id n (h.lookup id ▸ hn)
  pool_nodup := h.taskPool ▸ hw.pool_nodup
  pool_lt := fun n hn => h.nextNode ▸ hw.pool_lt n (h.taskPool ▸ hn)

/-- and the registry does not change. -/
theorem registry (h : SameEntries w w') : w'.registry cfg = w.registry cfg :=
  funext (fun id => registry_congr (h.lookup id) (fun m _ => h.held m))

end SameEntries

/-- What a node holds is part of its payload, everything but the links. -/
theorem TaskSlot.held_of_payload {a b : TaskSlot} (h : a.payload = b.payload) :
    a.held = b.held := by
  show (a.payload.task, a.payload.paused) = (b.payload.task, b.payload.paused)
  rw [h]

/-- Pointers are not part of the view. Linking and unlinking a node does not
show. -/
theorem TimeWheel.Relinked.sameEntries (h : Relinked w w') : SameEntries w w' := by
  refine ⟨h.shards, h.taskPool, h.nextNode, fun m => TaskSlot.held_of_payload (h.payload m),
    ?_⟩
  obtain ⟨heap, slots, rfl⟩ := h.frame
  exact ⟨rfl, fun hcache => hcache⟩

/-- Writing fields that are not part of the view. Counters and times are such
fields. -/
theorem sameEntries_setNode {node : TaskSlot} (h : node.held = (w.heap n).held) :
    SameEntries w (w.setNode n node) := by
  refine ⟨rfl, rfl, rfl, fun m => ?_, ⟨rfl, fun hcache => hcache⟩⟩
  by_cases hm : m = n
  · subst hm
    rw [heap_setNode_self]
    exact h
  · rw [heap_setNode_of_ne hm]

/-- The node `n` is taken out of the entries: its ID is deleted, and it waits in
the pool, with its flag as it was. This is what `removeTask` does to the view,
in whichever list it looks for the node. -/
structure NodeReleased (cfg : Config) (w : TimeWheel) (id : String) (n : NodeRef)
    (w' : TimeWheel) : Prop where
  shards : w'.shards = (w.deleteEntry cfg id).shards
  taskPool : w'.taskPool = n :: w.taskPool
  nextNode : w'.nextNode = w.nextNode
  held : ∀ m, m ≠ n → (w'.heap m).held = (w.heap m).held
  paused : (w'.heap n).paused = (w.heap n).paused
  up : SameUp w w'

namespace NodeReleased

/-- One ID loses its entry. -/
theorem lookup (h : NodeReleased cfg w id n w') (id' : String) :
    w'.lookup cfg id' = if id' = id then none else w.lookup cfg id' := by
  rw [lookup_congr h.shards, deleteEntry_lookup]

/-- Releasing the node of an entry. The node goes to the pool as its entry goes
away. -/
theorem entries (h : NodeReleased cfg w id n w') (hw : Entries cfg w)
    (hid : w.lookup cfg id = some n) : Entries cfg w' := by
  have key : ∀ id' m, w'.lookup cfg id' = some m → w.lookup cfg id' = some m ∧ m ≠ n := by
    intro id' m hm
    rw [h.lookup] at hm
    split_ifs at hm with heq
    exact ⟨hm, fun hmn => heq (hw.injective (hmn ▸ hm) hid)⟩
  exact {
    task := fun id' m hm => by
      obtain ⟨hm, hne⟩ := key id' m hm
      rw [show (w'.heap m).task = (w.heap m).task from congrArg Prod.fst (h.held m hne)]
      exact hw.task id' m hm
    id_ne := fun id' m hm => hw.id_ne id' m (key id' m hm).1
    allocated := fun id' m hm => h.nextNode ▸ hw.allocated id' m (key id' m hm).1
    not_pooled := fun id' m hm hp => by
      obtain ⟨hm, hne⟩ := key id' m hm
      rw [h.taskPool] at hp
      exact hw.not_pooled id' m hm ((List.mem_cons.mp hp).resolve_left hne)
    pool_nodup := by
      rw [h.taskPool]
      exact List.nodup_cons.mpr ⟨hw.not_pooled id n hid, hw.pool_nodup⟩
    pool_lt := fun m hm => by
      rw [h.taskPool] at hm
      rw [h.nextNode]
      rcases List.mem_cons.mp hm with rfl | hm
      · exact hw.allocated id m hid
      · exact hw.pool_lt m hm }

/-- A node released while not paused makes the pool no worse. The new member of
the pool is harmless. -/
theorem handsOutPaused (h : NodeReleased cfg w id n w') (hp : (w.heap n).paused = false)
    (hnot : n ∉ w.taskPool) (choice : Option NodeRef) :
    w'.handsOutPaused choice = w.handsOutPaused choice := by
  cases choice with
  | none => rfl
  | some k =>
    show (decide (k ∈ w'.taskPool) && (w'.heap k).paused)
      = (decide (k ∈ w.taskPool) && (w.heap k).paused)
    rw [h.taskPool]
    by_cases hk : k = n
    · subst hk
      rw [h.paused, hp, Bool.and_false, Bool.and_false]
    · rw [show (w'.heap k).paused = (w.heap k).paused from congrArg Prod.snd (h.held k hk)]
      simp [hk]

/-- **One ID is no longer registered**, and the others stay as they are. -/
theorem registry (h : NodeReleased cfg w id n w') (hw : Entries cfg w)
    (hid : w.lookup cfg id = some n) :
    w'.registry cfg = Function.update (w.registry cfg) id none := by
  funext id'
  by_cases heq : id' = id
  · subst heq
    rw [Function.update_self, (h.entries hw hid).registry_eq_none, h.lookup, if_pos rfl]
  · rw [Function.update_of_ne heq]
    refine registry_congr (by rw [h.lookup, if_neg heq]) (fun m hm => h.held m ?_)
    rintro rfl
    exact heq (hw.injective hm hid)

end NodeReleased

/-- The node `n` was drawn from the pool. It is paused exactly if it was
released so. It is new if the pool has nothing to offer. -/
structure NodeDrawn (w : TimeWheel) (choice : Option NodeRef) (n : NodeRef)
    (w' : TimeWheel) : Prop where
  shards : w'.shards = w.shards
  held : ∀ m, m ≠ n → (w'.heap m).held = (w.heap m).held
  paused : (w'.heap n).paused = w.handsOutPaused choice
  source : (n = w.nextNode ∧ w'.taskPool = w.taskPool ∧ w'.nextNode = w.nextNode + 1)
    ∨ (n ∈ w.taskPool ∧ w'.taskPool = w.taskPool.erase n ∧ w'.nextNode = w.nextNode)
  up : SameUp w w'

/-- The node `n` was drawn from the pool, and made to carry the task `t`. Its
flag has not been touched. -/
structure NodeGot (w : TimeWheel) (choice : Option NodeRef) (t : Task) (n : NodeRef)
    (w' : TimeWheel) : Prop extends NodeDrawn w choice n w' where
  task : (w'.heap n).task = some t

namespace NodeGot

variable {choice : Option NodeRef}

/-- A node from the pool has no entry. So a node that is drawn never takes a
task away from an ID. -/
theorem ne_of_lookup (h : NodeGot w choice t n w') (hw : Entries cfg w)
    (hm : w.lookup cfg id = some m) : m ≠ n := by
  rintro rfl
  rcases h.source with ⟨heq, -, -⟩ | ⟨hp, -, -⟩
  · exact lt_irrefl _ (heq ▸ hw.allocated id m hm)
  · exact hw.not_pooled id m hm hp

/-- Taking a node keeps the view and what it rests on. The node is now in
neither place. -/
theorem entries (h : NodeGot w choice t n w') (hw : Entries cfg w) :
    Entries cfg w' ∧ n ∉ w'.taskPool ∧ n < w'.nextNode := by
  have hlookup : ∀ id, w'.lookup cfg id = w.lookup cfg id := fun id => lookup_congr h.shards id
  have hnext : w.nextNode ≤ w'.nextNode := by
    rcases h.source with ⟨-, -, hn⟩ | ⟨-, -, hn⟩
    · exact hn ▸ Nat.le_succ _
    · exact hn.ge
  have hpool : w'.taskPool.Nodup ∧ (∀ m ∈ w'.taskPool, m ∈ w.taskPool ∧ m ≠ n) := by
    rcases h.source with ⟨hn, hp, -⟩ | ⟨-, hp, -⟩
    · rw [hp]
      refine ⟨hw.pool_nodup, fun m hm => ⟨hm, ?_⟩⟩
      exact hn ▸ (hw.pool_lt m hm).ne
    · rw [hp]
      refine ⟨hw.pool_nodup.erase n, fun m hm => ⟨List.mem_of_mem_erase hm, ?_⟩⟩
      rintro rfl
      exact hw.pool_nodup.not_mem_erase hm
  refine ⟨?_, fun hn => (hpool.2 n hn).2 rfl, ?_⟩
  · exact {
      task := fun id m hm => by
        rw [hlookup] at hm
        rw [show (w'.heap m).task = (w.heap m).task from
          congrArg Prod.fst (h.held m (h.ne_of_lookup hw hm))]
        exact hw.task id m hm
      id_ne := fun id m hm => hw.id_ne id m (hlookup id ▸ hm)
      allocated := fun id m hm => lt_of_lt_of_le (hw.allocated id m (hlookup id ▸ hm)) hnext
      not_pooled := fun id m hm hp => hw.not_pooled id m (hlookup id ▸ hm) (hpool.2 m hp).1
      pool_nodup := hpool.1
      pool_lt := fun m hm => lt_of_lt_of_le (hw.pool_lt m (hpool.2 m hm).1) hnext }
  · rcases h.source with ⟨hn, -, hn'⟩ | ⟨hn, -, hn'⟩
    · exact hn' ▸ hn ▸ Nat.lt_succ_self _
    · exact hn' ▸ hw.pool_lt n hn

/-- It has no entry yet. -/
theorem registry (h : NodeGot w choice t n w') (hw : Entries cfg w) :
    w'.registry cfg = w.registry cfg :=
  funext (fun id => registry_congr (lookup_congr h.shards id)
    (fun m hm => h.held m (h.ne_of_lookup hw hm)))

/-- Putting the node back. This is what `AddTask` does when the ID is taken. -/
theorem poolPut (h : NodeGot w choice t n w') (hw : Entries cfg w) :
    Entries cfg (w'.poolPut n) ∧ (w'.poolPut n).registry cfg = w.registry cfg := by
  obtain ⟨hw', hnot, hlt⟩ := h.entries hw
  refine ⟨?_, h.registry hw⟩
  exact {
    task := hw'.task
    id_ne := hw'.id_ne
    allocated := hw'.allocated
    not_pooled := fun id m hm hp => by
      rcases List.mem_cons.mp hp with rfl | hp
      · exact h.ne_of_lookup hw ((lookup_congr h.shards id).symm.trans hm) rfl
      · exact hw'.not_pooled id m hm hp
    pool_nodup := List.nodup_cons.mpr ⟨hnot, hw'.pool_nodup⟩
    pool_lt := fun m hm => by
      rcases List.mem_cons.mp hm with rfl | hm
      · exact hlt
      · exact hw'.pool_lt m hm }

/-- Entering the node under the ID of its task. **One ID becomes registered**,
with the flag the node was drawn with. -/
theorem insertEntry (h : NodeGot w choice t n w') (hw : Entries cfg w) (hid : t.id ≠ "") :
    Entries cfg (w'.insertEntry cfg t.id n)
      ∧ (w'.insertEntry cfg t.id n).registry cfg
        = Function.update (w.registry cfg) t.id (some ⟨t, w.handsOutPaused choice⟩) := by
  obtain ⟨hw', hnot, hlt⟩ := h.entries hw
  have key : ∀ id' m, (w'.insertEntry cfg t.id n).lookup cfg id' = some m →
      (id' = t.id ∧ m = n) ∨ w'.lookup cfg id' = some m := by
    intro id' m hm
    rw [insertEntry_lookup] at hm
    split_ifs at hm with heq
    · exact Or.inl ⟨heq, (Option.some.inj hm).symm⟩
    · exact Or.inr hm
  refine ⟨?_, ?_⟩
  · exact {
      task := fun id' m hm => by
        rcases key id' m hm with ⟨rfl, rfl⟩ | hm
        · exact ⟨t, h.task, rfl⟩
        · exact hw'.task id' m hm
      id_ne := fun id' m hm => by
        rcases key id' m hm with ⟨rfl, rfl⟩ | hm
        · exact hid
        · exact hw'.id_ne id' m hm
      allocated := fun id' m hm => by
        rcases key id' m hm with ⟨rfl, rfl⟩ | hm
        · exact hlt
        · exact hw'.allocated id' m hm
      not_pooled := fun id' m hm => by
        rcases key id' m hm with ⟨rfl, rfl⟩ | hm
        · exact hnot
        · exact hw'.not_pooled id' m hm
      pool_nodup := hw'.pool_nodup
      pool_lt := hw'.pool_lt }
  · funext id'
    by_cases heq : id' = t.id
    · subst heq
      have hentry : (w'.insertEntry cfg t.id n).lookup cfg t.id = some n := by
        rw [insertEntry_lookup, if_pos rfl]
      rw [registry_of_lookup hentry h.task, Function.update_self, ← h.paused]
      rfl
    · rw [Function.update_of_ne heq, ← h.registry hw]
      exact registry_congr (by rw [insertEntry_lookup, if_neg heq]) (fun _ _ => rfl)

end NodeGot

end Timewheel
