import Timewheel.Registry

/-!
# What the calls do to the registry

The calls are the obvious operations on the map from IDs to tasks, up to one
detail: a task that is added is paused from the start when the pool hands out
a node that was released while paused, since nothing resets the flag
(`addTask_effect`, `removeTask_effect`, `pauseTask_effect`,
`resumeTask_effect`). Executions leave the registry alone until they end a
task (`background_same`).

The registry is what the map says when the nodes are looked up: for each ID a
task and whether it is paused. No list and no slot is looked at, and so the
effects hold of every wheel whose entries are in order, also of one whose
lists have been spoilt by executions that overlap. The services on top of the
wheel rely on nothing else.

Each call is taken apart in two steps: how it looks for its node, which is the
same for all calls that take an ID (`withEntry`), and what it does with the
node it finds.
-/

namespace Timewheel

open TimeWheel

variable {cfg : Config} {w w' w₁ : TimeWheel} {n m : NodeRef} {id : String} {t : Task}

/-! ## AddTask -/

/-- Linking a node changes pointers only. It walks the list of the slot to find
the place, and writes to the neighbours. -/
theorem relinked_insertOrdered (w : TimeWheel) (n : NodeRef) (priority : TaskPriority)
    (slot : ℕ) : Relinked w (w.insertOrdered n priority slot) := by
  unfold insertOrdered
  cases w.slots slot with
  | none => exact relinked_setSlot w slot _
  | some head =>
    dsimp only
    cases w.findPrev priority w.nextNode none (some head) with
    | none =>
      exact ((relinked_setNext w n _).trans (relinked_setPrev _ head _)).trans
        (relinked_setSlot _ slot _)
    | some q =>
      dsimp only
      have hfront := relinked_setNext w n (w.heap q).next
      cases ((w.setNext n (w.heap q).next).heap q).next with
      | none =>
        exact (hfront.trans (relinked_setNext _ q _)).trans (relinked_setPrev _ n _)
      | some m =>
        exact ((hfront.trans (relinked_setPrev _ m _)).trans (relinked_setNext _ q _)).trans
          (relinked_setPrev _ n _)

/-- A new node. The pool is empty, or has let go of the nodes put into it. -/
theorem nodeDrawn_new (w : TimeWheel) {choice : Option NodeRef}
    (h : w.handsOutPaused choice = false) :
    NodeDrawn w choice w.nextNode
      { w.setNode w.nextNode TaskSlot.zero with nextNode := w.nextNode + 1 } := by
  refine ⟨rfl, fun m hm => ?_, ?_, Or.inl ⟨rfl, rfl, rfl⟩, ⟨rfl, fun hcache => hcache⟩⟩
  · show ((w.setNode w.nextNode TaskSlot.zero).heap m).held = _
    rw [heap_setNode_of_ne hm]
  · show ((w.setNode w.nextNode TaskSlot.zero).heap w.nextNode).paused = _
    rw [heap_setNode_self, h]
    rfl

/-- What `sync.Pool` hands out is either one of the nodes put into it or a new
one. -/
theorem poolGet_drawn (w : TimeWheel) (choice : Option NodeRef) :
    NodeDrawn w choice (w.poolGet choice).1 (w.poolGet choice).2 := by
  unfold poolGet
  cases choice with
  | none => exact nodeDrawn_new w rfl
  | some n =>
    dsimp only
    by_cases hn : n ∈ w.taskPool
    · rw [if_pos hn]
      refine ⟨rfl, fun _ _ => rfl, ?_, Or.inr ⟨hn, rfl, rfl⟩, ⟨rfl, fun hcache => hcache⟩⟩
      simp [handsOutPaused, hn]
    · rw [if_neg hn]
      exact nodeDrawn_new w (by simp [handsOutPaused, hn])

/-- Preparing a node takes it from the pool and makes it carry the task. It
overwrites every field but the flag. -/
theorem prepareNode_got (cfg : Config) (w : TimeWheel) (t : Task) (env : AddEnv) :
    NodeGot w env.node t (w.prepareNode cfg t env).1 (w.prepareNode cfg t env).2 := by
  have hdrawn := poolGet_drawn w env.node
  unfold prepareNode
  generalize w.poolGet env.node = g at hdrawn ⊢
  obtain ⟨n, w₁⟩ := g
  dsimp only [withCancel] at hdrawn ⊢
  refine ⟨⟨hdrawn.shards, fun m hm => ?_, ?_, hdrawn.source,
    ⟨hdrawn.up.running, hdrawn.up.taskCache⟩⟩, ?_⟩
  · rw [heap_setNode_of_ne hm]
    exact hdrawn.held m hm
  · rw [heap_setNode_self, ← hdrawn.paused]
    rfl
  · rw [heap_setNode_self]
    rfl

/-- **What `AddTask` can do**, as far as the map and the pool are concerned. It
is refused by the checks; or it takes a node, finds the ID taken, and puts the
node back; or it enters the node. -/
inductive AddStep (cfg : Config) (w : TimeWheel) (task : Option Task) (env : AddEnv) :
    Option Err × TimeWheel → Prop where
  | rejected {err : Err} (reason : AddRejects w task err) :
      AddStep cfg w task env (some err, w)
  | duplicate {t t' : Task} {n : NodeRef} {w₁ : TimeWheel} (task_eq : task = some t)
      (check : checkTask t = .ok t') (taken : w.lookup cfg t'.id ≠ none)
      (got : NodeGot w env.node t' n w₁) :
      AddStep cfg w task env (some .taskAlreadyExists, w₁.poolPut n)
  | added {t t' : Task} {n : NodeRef} {w₁ w' : TimeWheel} (task_eq : task = some t)
      (check : checkTask t = .ok t') (new : w.lookup cfg t'.id = none)
      (got : NodeGot w env.node t' n w₁)
      (linked : SameEntries (w₁.insertEntry cfg t'.id n) w') :
      AddStep cfg w task env (none, w')

/-- The code takes one of these three ways. -/
theorem addTask_step (cfg : Config) (w : TimeWheel) (task : Option Task) (env : AddEnv) :
    AddStep cfg w task env (w.addTask cfg task env) := by
  unfold addTask
  cases task with
  | none => exact .rejected .isNil
  | some t =>
    dsimp only
    cases hcheck : checkTask t with
    | error err => exact .rejected (.check hcheck)
    | ok t' =>
      dsimp only
      by_cases hrun : w.running = false
      · rw [if_pos hrun]
        exact .rejected (.notRunning hcheck hrun)
      · rw [if_neg hrun]
        have hgot := prepareNode_got cfg w t' env
        generalize w.prepareNode cfg t' env = g at hgot ⊢
        obtain ⟨n, w₁⟩ := g
        have hlookup : w₁.lookup cfg t'.id = w.lookup cfg t'.id := lookup_congr hgot.shards _
        dsimp only
        cases hid : w₁.lookup cfg t'.id with
        | some m =>
          refine .duplicate rfl hcheck ?_ hgot
          rw [← hlookup, hid]
          exact Option.some_ne_none m
        | none =>
          refine .added rfl hcheck (hlookup ▸ hid) hgot ?_
          -- linking first and entering then is the other way round
          have hlink := relinked_insertOrdered w₁ n t'.priority (w₁.heap n).slotIndex
          obtain ⟨heap, slots, hw⟩ := hlink.frame
          refine ⟨?_, ?_, ?_, hlink.sameEntries.held, ?_⟩
          · unfold TimeWheel.linkTask
            rw [hw]
            rfl
          · unfold TimeWheel.linkTask
            rw [hw]
            rfl
          · unfold TimeWheel.linkTask
            rw [hw]
            rfl
          · unfold TimeWheel.linkTask
            rw [hw]
            refine ⟨rfl, fun hcache => ?_⟩
            show Option.map _ w₁.taskCache = none
            rw [show w₁.taskCache = none from hcache]
            rfl

/-- The checks keep the ID. They may raise the interval or fill in the mode, but
the ID is what the caller gave. -/
theorem Checked.id_eq {t t' : Task} (h : Checked t t') : t'.id = t.id := by
  cases h with
  | repeated _ _ => rfl
  | once _ => split_ifs <;> rfl
  | fixedTimes _ _ _ => rfl
  | other _ _ => rfl

/-- **`AddTask` on the registry**: it enters the task as the checks leave it,
paused if the pool hands out a paused node. Where a call is refused, the
registry stays as it is, though the pool may have a different node on top. -/
inductive AddEffect (cfg : Config) (w : TimeWheel) (task : Option Task) (env : AddEnv) :
    Option Err × TimeWheel → Prop where
  | rejected {err : Err} (reason : AddRejects w task err) :
      AddEffect cfg w task env (some err, w)
  | duplicate {t t' : Task} {w' : TimeWheel} (task_eq : task = some t)
      (check : checkTask t = .ok t') (taken : w.registry cfg t.id ≠ none)
      (entries : Entries cfg w') (up : SameUp w w') (registry : w'.registry cfg = w.registry cfg) :
      AddEffect cfg w task env (some .taskAlreadyExists, w')
  | added {t t' : Task} {w' : TimeWheel} (task_eq : task = some t)
      (check : checkTask t = .ok t') (new : w.registry cfg t.id = none)
      (entries : Entries cfg w') (up : SameUp w w')
      (registry : w'.registry cfg
        = Function.update (w.registry cfg) t.id (some ⟨t', w.handsOutPaused env.node⟩)) :
      AddEffect cfg w task env (none, w')

/-- This is what `AddTask` does. Where it draws a node, that node is under no
ID, so only the ID of the task is concerned. -/
theorem addTask_effect (h : Entries cfg w) (task : Option Task) (env : AddEnv) :
    AddEffect cfg w task env (w.addTask cfg task env) := by
  have hstep := addTask_step cfg w task env
  generalize w.addTask cfg task env = r at hstep ⊢
  cases hstep with
  | rejected reason => exact .rejected reason
  | @duplicate t t' n w₁ task_eq check taken got =>
    obtain ⟨-, -, hchecked⟩ := checkTask_ok check
    obtain ⟨hentries, hreg⟩ := got.poolPut h
    refine .duplicate task_eq check ?_ hentries
      ⟨got.up.running, got.up.taskCache⟩ hreg
    rw [Ne, h.registry_eq_none, ← hchecked.id_eq]
    exact taken
  | @added t t' n w₁ w' task_eq check new got linked =>
    obtain ⟨hid, -, hchecked⟩ := checkTask_ok check
    rw [← hchecked.id_eq] at hid
    obtain ⟨hentries, hreg⟩ := got.insertEntry h hid
    refine .added task_eq check ?_ (linked.entries hentries)
      (got.up.trans ⟨linked.up.running, linked.up.taskCache⟩) ?_
    · rw [h.registry_eq_none, ← hchecked.id_eq]
      exact new
    · rw [linked.registry, hreg, hchecked.id_eq]

/-! ## The calls that take an ID -/

/-- The error of a call for an ID that is not registered. The empty ID has an
error of its own. -/
def missingErr (id : String) : Err := if id = "" then .invalidParam else .taskNotFound

/-- **A call for one ID on the registry**: it applies `f` to what is held under
the ID, and fails if nothing is. The three calls that take an ID are instances
of it, with a function each. -/
inductive ByID (cfg : Config) (w : TimeWheel) (id : String)
    (f : Registration → Option Registration) : Option Err × TimeWheel → Prop where
  | missing (h : w.registry cfg id = none) : ByID cfg w id f (some (missingErr id), w)
  | done {r : Registration} {w' : TimeWheel} (held : w.registry cfg id = some r)
      (entries : Entries cfg w') (up : SameUp w w')
      (registry : w'.registry cfg = Function.update (w.registry cfg) id (f r)) :
      ByID cfg w id f (none, w')

/-- How a call looks for its node: `g` is what it does with it. It is the
beginning of all three. -/
def withEntry (cfg : Config) (w : TimeWheel) (id : String)
    (g : NodeRef → Option Err × TimeWheel) : Option Err × TimeWheel :=
  if id = "" then (some .invalidParam, w)
  else
    match w.lookup cfg id with
    | none => (some .taskNotFound, w)
    | some n => g n

/-- The two ways not to find it. Nothing is changed by either. -/
theorem withEntry_missing {g : NodeRef → Option Err × TimeWheel}
    (h : id = "" ∨ w.lookup cfg id = none) : withEntry cfg w id g = (some (missingErr id), w) := by
  unfold withEntry missingErr
  split_ifs with hid
  · rfl
  · rw [h.resolve_left hid]

/-- Otherwise the node is at hand. -/
theorem withEntry_found {g : NodeRef → Option Err × TimeWheel} (hid : id ≠ "")
    (hn : w.lookup cfg id = some n) : withEntry cfg w id g = g n := by
  unfold withEntry
  rw [if_neg hid, hn]

/-- So it is enough to say what is done with the node, which carries a task
since the entries are in order. -/
theorem ByID.of_lookup (h : Entries cfg w) {f : Registration → Option Registration}
    {g : NodeRef → Option Err × TimeWheel}
    (hdone : ∀ n t, w.lookup cfg id = some n → (w.heap n).task = some t →
      ByID cfg w id f (g n)) : ByID cfg w id f (withEntry cfg w id g) := by
  cases hn : w.lookup cfg id with
  | none =>
    rw [withEntry_missing (Or.inr hn)]
    exact .missing ((h.registry_eq_none id).mpr hn)
  | some n =>
    obtain ⟨t, ht, -⟩ := h.task id n hn
    rw [withEntry_found (h.id_ne id n hn) hn]
    exact hdone n t hn ht

/-- Unlinking and clearing the node of `id`, and putting it into the pool. The
three operations that release a node do this, and differ in what else they
write. -/
theorem nodeReleased_of_frame {heap : NodeRef → TaskSlot} {slots : ℕ → Option NodeRef}
    {slot : ℕ} (hunlink : w.unlink n slot = { w with heap := heap, slots := slots })
    (node : TaskSlot) (hnode : node.paused = (heap n).paused)
    (hheap : w'.heap = Function.update heap n node)
    (hshards : w'.shards = (w.deleteEntry cfg id).shards)
    (hpool : w'.taskPool = n :: w.taskPool) (hnext : w'.nextNode = w.nextNode)
    (hup : SameUp w w') : NodeReleased cfg w id n w' := by
  have hrel := (w.unlink_spec n slot).1
  rw [hunlink] at hrel
  have hheld : ∀ m, (heap m).held = (w.heap m).held :=
    fun m => TaskSlot.held_of_payload (hrel.payload m)
  refine ⟨hshards, hpool, hnext, fun m hm => ?_, ?_, hup⟩
  · rw [hheap, Function.update_of_ne hm]
    exact hheld m
  · rw [hheap, Function.update_self, hnode]
    exact congrArg Prod.snd (hheld n)

/-- `RemoveTask` releases the node it finds. The store may fail to delete its
row, and nothing depends on it. -/
theorem removeTask_eq (cfg : Config) (w : TimeWheel) (id : String) (deleteOk : Bool) :
    ∃ g, w.removeTask cfg id deleteOk = withEntry cfg w id g
      ∧ ∀ n, (g n).1 = none ∧ NodeReleased cfg w id n (g n).2 := by
  refine ⟨_, rfl, fun n => ⟨rfl, ?_⟩⟩
  obtain ⟨heap, slots, hw⟩ := (w.unlink_spec n (w.heap n).slotIndex).1.frame
  dsimp only
  rw [hw]
  refine nodeReleased_of_frame hw (clearNode (heap n)) rfl rfl rfl rfl rfl
    ⟨rfl, fun hcache => ?_⟩
  show Option.map _ w.taskCache = none
  rw [hcache]
  rfl

/-- **`RemoveTask`** takes what is held under the ID out of the registry. -/
theorem removeTask_effect (h : Entries cfg w) (id : String) (deleteOk : Bool) :
    ByID cfg w id (fun _ => none) (w.removeTask cfg id deleteOk) := by
  obtain ⟨g, hg, hrel⟩ := removeTask_eq cfg w id deleteOk
  rw [hg]
  refine ByID.of_lookup h (fun n t hn ht => ?_)
  obtain ⟨hnone, hrel⟩ := hrel n
  rw [show g n = (none, (g n).2) from Prod.ext hnone rfl]
  exact .done (registry_of_lookup hn ht) (hrel.entries h hn) hrel.up (hrel.registry h hn)

/-- Writing the flag changes no entry. Nor does it start or stop the wheel. -/
structure SameShards (w w' : TimeWheel) : Prop where
  shards : w'.shards = w.shards
  up : SameUp w w'

/-- `PauseTask` writes the flag of the node it finds. -/
theorem pauseTask_eq (cfg : Config) (w : TimeWheel) (id : String) :
    ∃ g, w.pauseTask cfg id = withEntry cfg w id g
      ∧ ∀ n, (g n).1 = none ∧ SameShards w (g n).2 := by
  refine ⟨_, rfl, fun n => ?_⟩
  dsimp only
  split_ifs
  · exact ⟨rfl, rfl, .refl w⟩
  · exact ⟨rfl, rfl, ⟨rfl, fun hcache => hcache⟩⟩

/-- `ResumeTask` writes the flag of the node it finds. -/
theorem resumeTask_eq (cfg : Config) (w : TimeWheel) (id : String) (now : Time) :
    ∃ g, w.resumeTask cfg id now = withEntry cfg w id g
      ∧ ∀ n, (g n).1 = none ∧ SameShards w (g n).2 := by
  refine ⟨_, rfl, fun n => ?_⟩
  dsimp only
  split_ifs
  · exact ⟨rfl, rfl, .refl w⟩
  · exact ⟨rfl, rfl, ⟨rfl, fun hcache => hcache⟩⟩

/-- Writing the paused flag of the node of an ID. The registry shows the flag of
the node, and no other entry leads to this node. -/
theorem setPaused_effect (h : Entries cfg w) (hn : w.lookup cfg id = some n)
    (ht : (w.heap n).task = some t) {node : TaskSlot} (htask : node.task = some t) :
    Entries cfg (w.setNode n node)
      ∧ (w.setNode n node).registry cfg
        = Function.update (w.registry cfg) id (some ⟨t, node.paused⟩) := by
  have hheap : ∀ m, ((w.setNode n node).heap m).task = (w.heap m).task := by
    intro m
    by_cases hm : m = n
    · subst hm
      rw [heap_setNode_self, htask, ht]
    · rw [heap_setNode_of_ne hm]
  refine ⟨⟨fun id' m hm => ?_, h.id_ne, h.allocated, h.not_pooled, h.pool_nodup, h.pool_lt⟩, ?_⟩
  · rw [hheap]
    exact h.task id' m hm
  · funext id'
    by_cases heq : id' = id
    · subst heq
      have hentry : (w.setNode n node).lookup cfg id' = some n := hn
      rw [Function.update_self, registry_of_lookup hentry (by rw [hheap, ht]),
        heap_setNode_self]
    · rw [Function.update_of_ne heq]
      refine registry_congr rfl (fun m hm => ?_)
      rw [heap_setNode_of_ne]
      rintro rfl
      exact heq (h.injective hm hn)

/-- The flag is written unless it is as wanted already. `PauseTask` and
`ResumeTask` return nil in either case. -/
theorem ByID.of_paused (h : Entries cfg w) (hn : w.lookup cfg id = some n)
    (ht : (w.heap n).task = some t) {b : Bool} {node : TaskSlot} (htask : node.task = some t)
    (hnode : node.paused = b) {p : Prop} [Decidable p] (hp : p ↔ (w.heap n).paused = b) :
    ByID cfg w id (fun r => some { r with paused := b })
      (if p then (none, w) else (none, w.setNode n node)) := by
  have hreg := registry_of_lookup hn ht
  by_cases hb : p
  · rw [if_pos hb]
    refine .done hreg h (.refl w) ?_
    rw [← hp.mp hb, ← hreg, Function.update_eq_self]
  · rw [if_neg hb]
    obtain ⟨hentries, hreg'⟩ := setPaused_effect h hn ht htask
    refine .done hreg hentries (⟨rfl, fun hcache => hcache⟩) ?_
    rw [hreg', hnode]

/-- **`PauseTask`** flags what is held under the ID, -/
theorem pauseTask_effect (h : Entries cfg w) (id : String) :
    ByID cfg w id (fun r => some { r with paused := true }) (w.pauseTask cfg id) := by
  refine ByID.of_lookup h (fun n t hn ht => ?_)
  exact ByID.of_paused h hn ht (show { w.heap n with paused := true }.task = some t from ht) rfl
    Iff.rfl

/-- and **`ResumeTask`** takes the flag away. -/
theorem resumeTask_effect (h : Entries cfg w) (id : String) (now : Time) :
    ByID cfg w id (fun r => some { r with paused := false }) (w.resumeTask cfg id now) := by
  refine ByID.of_lookup h (fun n t hn ht => ?_)
  dsimp only
  exact ByID.of_paused h hn ht (show ({ w.heap n with paused := false, runAt := _ } : TaskSlot).task
    = some t from ht) rfl Iff.rfl

/-! ## Clearing -/

/-- There is nothing to clear under an ID that has no entry. -/
theorem clearTask_of_lookup_none (hn : w.lookup cfg id = none) : w.clearTask cfg id = w := by
  unfold clearTask
  rw [hn]

/-- **What `clearTask` writes**, whichever way the node of the ID is unlinked.
It cancels the context, clears the node, puts it into the pool, and deletes the
entry. -/
theorem clearTask_frame (hn : w.lookup cfg id = some n) : ∃ w₁, Relinked w w₁
    ∧ w.clearTask cfg id = (((w₁.cancelCtx (w₁.heap n).cancel).setNode n
      (clearAlert (clearNode ((w₁.cancelCtx (w₁.heap n).cancel).heap n)))).poolPut n).deleteEntry
        cfg id := by
  unfold clearTask
  rw [hn]
  dsimp only
  split_ifs
  · cases (w.heap n).next with
    | none => exact ⟨w, .refl w, rfl⟩
    | some m => exact ⟨w.setPrev m none, relinked_setPrev w m none, rfl⟩
  · exact ⟨_, (w.unlink_spec n _).1, rfl⟩

/-- `clearTask` releases the node of the ID. So it does what `RemoveTask` does,
as far as the map and the pool are concerned. -/
theorem clearTask_released (hn : w.lookup cfg id = some n) :
    NodeReleased cfg w id n (w.clearTask cfg id) := by
  obtain ⟨w₁, hrel, hclear⟩ := clearTask_frame hn
  obtain ⟨heap, slots, rfl⟩ := hrel.frame
  have hheld : ∀ m, (heap m).held = (w.heap m).held :=
    fun m => TaskSlot.held_of_payload (hrel.payload m)
  rw [hclear]
  refine ⟨rfl, rfl, rfl, fun m hm => ?_, ?_, ⟨rfl, fun hcache => hcache⟩⟩
  · show (Function.update heap n _ m).held = _
    rw [Function.update_of_ne hm]
    exact hheld m
  · show (Function.update heap n (clearAlert (clearNode (heap n))) n).paused = _
    rw [Function.update_self]
    exact congrArg Prod.snd (hheld n)

/-- **`ClearAllTasks`** releases nodes. Entries may go, whatever the order of
the map, and none is added. -/
theorem clearAllTasks_lookup (cfg : Config) (w : TimeWheel) (order : List String) (now : Time) :
    SameUp w (w.clearAllTasks cfg order now).2
      ∧ ∀ id, (w.clearAllTasks cfg order now).2.lookup cfg id ≠ none →
        w.lookup cfg id ≠ none := by
  refine clearAllTasks_wheel (fun w' => SameUp w w' ∧ ∀ id, w'.lookup cfg id ≠ none →
    w.lookup cfg id ≠ none) w order now ⟨.refl w, fun _ h => h⟩ (fun w' id h => ?_)
    (fun w' f h => ⟨⟨h.1.running, fun hcache => ?_⟩, h.2⟩)
  · obtain ⟨hup, hl⟩ := h
    cases hn : w'.lookup cfg id with
    | none => exact (clearTask_of_lookup_none hn).symm ▸ ⟨hup, hl⟩
    | some n =>
      have hrel := clearTask_released hn
      refine ⟨hup.trans hrel.up, fun id' h => hl id' ?_⟩
      rw [hrel.lookup] at h
      split_ifs at h with heq
      · exact absurd rfl h
      · exact h
  · show Option.map f w'.taskCache = none
    rw [h.1.taskCache hcache]
    rfl

/-! ## Any call -/

/-- `AddTask` neither starts nor stops the wheel, -/
theorem addTask_sameUp (w : TimeWheel) (task : Option Task) (env : AddEnv) :
    SameUp w (w.addTask cfg task env).2 := by
  have hadd := addTask_step cfg w task env
  generalize w.addTask cfg task env = r at hadd ⊢
  cases hadd with
  | rejected _ => exact .refl w
  | duplicate _ _ _ got => exact ⟨got.up.running, got.up.taskCache⟩
  | added _ _ _ got linked => exact got.up.trans ⟨linked.up.running, linked.up.taskCache⟩

/-- nor do the calls that take an ID. -/
theorem withEntry_sameUp {g : NodeRef → Option Err × TimeWheel}
    (hg : ∀ n, SameUp w (g n).2) : SameUp w (withEntry cfg w id g).2 := by
  unfold withEntry
  split_ifs
  · exact .refl w
  · cases w.lookup cfg id with
    | none => exact .refl w
    | some n => exact hg n

/-- No call starts or stops the wheel. So a wheel that has been started runs
along every run of calls. -/
theorem call_sameUp {s s' : Scheduler} {a : Action} (ha : a.isCall = true)
    (hstep : Scheduler.step cfg s a = some s') : SameUp s.wheel s'.wheel := by
  refine wheel_of_call (SameUp s.wheel) ha hstep (.refl _)
    (fun w task env h => h.trans (addTask_sameUp w task env)) (fun w id deleteOk h => h.trans ?_)
    (fun _ _ h => ⟨h.running, h.taskCache⟩) (fun _ _ _ h => ⟨h.running, h.taskCache⟩)
    (fun w id h => h.trans ?_) (fun w f h => ⟨h.running, fun hcache => ?_⟩)
  · obtain ⟨g, hg, hrel⟩ := removeTask_eq cfg w id deleteOk
    rw [hg]
    exact withEntry_sameUp (fun n => (hrel n).2.up)
  · cases hn : w.lookup cfg id with
    | none => exact (clearTask_of_lookup_none hn).symm ▸ .refl w
    | some n => exact (clearTask_released hn).up
  · show Option.map f w.taskCache = none
    rw [h.taskCache hcache]
    rfl

/-! ## Executions -/

/-- Noting a result changes no entry, -/
theorem updateTaskResult_same (w : TimeWheel) (n : NodeRef) (result : AlarmResult)
    (err : Option Err) : SameEntries w (w.updateTaskResult n result err) := by
  have hset : SameEntries w (w.setNode n
      { w.heap n with executed := (w.heap n).executed + 1, lastResult := result }) :=
    sameEntries_setNode rfl
  exact hset.trans ⟨rfl, rfl, rfl, fun _ => rfl, ⟨rfl, fun hcache => hcache⟩⟩

/-- and evaluating the alert does not. -/
theorem applyAlert_same (w : TimeWheel) (n : NodeRef) (info : TaskInfo) (result : AlarmResult)
    (now : Time) : SameEntries w (w.applyAlert cfg n info result now) := by
  have hheld : (handleAlertStateLocked cfg.sinks (w.heap n) info result now).node.held
      = (w.heap n).held := by
    obtain ⟨s, p, l, h⟩ := handleAlertStateLocked_frame cfg.sinks (w.heap n) info result now
    rw [h]
    rfl
  exact (sameEntries_setNode hheld).trans
    ⟨rfl, rfl, rfl, fun _ => rfl, ⟨rfl, fun hcache => hcache⟩⟩

/-- Rescheduling moves a node, from whichever list. So even a node that is
unlinked from a list it is not in stays under its ID. -/
theorem rescheduleTask_same (w : TimeWheel) (n : NodeRef) (info : TaskInfo) (now : Time)
    (slot : ℕ) : SameEntries w (w.rescheduleTask cfg n info now slot) := by
  have hrun : SameEntries w (w.setNode n { w.heap n with runAt := now.add info.interval }) :=
    sameEntries_setNode rfl
  unfold rescheduleTask
  dsimp only
  split_ifs
  · refine hrun.trans (SameEntries.trans ?_ (sameEntries_setNode rfl))
    exact ((unlink_spec _ n slot).1.trans (pushFront_spec _ n _).1).sameEntries
  · exact hrun

/-- The internal `removeTask` releases the node, and deletes the ID of the
snapshot. If the node has meanwhile been handed out again for another ID, these
two are not the same; the runs in which that matters are treated elsewhere. -/
theorem removeTaskInternal_released (w : TimeWheel) (n : NodeRef) (info : TaskInfo)
    (slot : ℕ) : NodeReleased cfg w info.id n (w.removeTaskInternal cfg n info slot) := by
  obtain ⟨heap, slots, hw⟩ := (w.unlink_spec n slot).1.frame
  unfold removeTaskInternal
  rw [hw]
  refine nodeReleased_of_frame hw (clearAlert (clearNode (heap n))) rfl rfl rfl rfl rfl
    ⟨rfl, fun hcache => ?_⟩
  show Option.map _ w.taskCache = none
  rw [hcache]
  rfl

/-- The locked section of an execution ends the task: it removes the node. Both
what it finds at the node and whether that is to run again are read after the
evaluation. -/
def TimeWheel.endsTask (cfg : Config) (w : TimeWheel) (n : NodeRef) (info : TaskInfo)
    (result : AlarmResult) (now : Time) : Bool :=
  ((w.applyAlert cfg n info result now).heap n).task.isSome
    && !shouldRescheduleTask ((w.applyAlert cfg n info result now).heap n) info

/-- As long as it does not, no entry changes, -/
theorem lockedSection_same {info : TaskInfo} {result : AlarmResult} {now : Time}
    (h : w.endsTask cfg n info result now = false) (slot : ℕ) :
    SameEntries w (w.lockedSection cfg n info result now slot) := by
  have halert : SameEntries w (w.applyAlert cfg n info result now) :=
    applyAlert_same w n info result now
  unfold lockedSection handleTaskSchedulingLocked
  unfold endsTask at h
  split_ifs with htask hrun
  · exact halert
  · exact halert.trans (rescheduleTask_same _ n info now slot)
  · rw [Option.isSome_iff_ne_none.mpr htask, Bool.true_and, Bool.not_eq_false'] at h
    exact absurd h hrun

/-- and if it does, the node is released after the evaluation. -/
theorem lockedSection_released {info : TaskInfo} {result : AlarmResult} {now : Time}
    (h : w.endsTask cfg n info result now = true) (slot : ℕ) :
    NodeReleased cfg (w.applyAlert cfg n info result now) info.id n
      (w.lockedSection cfg n info result now slot) := by
  unfold endsTask at h
  obtain ⟨htask, hrun⟩ := Bool.and_eq_true_iff.mp h
  unfold lockedSection handleTaskSchedulingLocked
  rw [if_neg (Option.isSome_iff_ne_none.mp htask), if_neg (by simpa using hrun)]
  exact removeTaskInternal_released _ n info slot

/-- For a node in use, the task ends when it does not run again. The evaluation
does not touch the counter, so the node as it was will tell. -/
theorem Used.endsTask_eq {lists : ℕ → List NodeRef} {i : ℕ} {c : CtxRef}
    (hu : Used cfg w lists n i c t) (h : Inv cfg w lists) (result : AlarmResult) (now : Time) :
    w.endsTask cfg n t.copyTaskInfo result now
      = !shouldRescheduleTask (w.heap n) t.copyTaskInfo := by
  obtain ⟨-, hu₁, -, -, hresched⟩ := applyAlert_spec h hu result now
  unfold TimeWheel.endsTask
  rw [hu₁.task_eq, hresched]
  rfl

/-- A step of an execution that ends its task. Only the end of an execution can. -/
def Scheduler.endsTask (cfg : Config) (s : Scheduler) : Action → Bool
  | .complete i =>
    match s.execs[i]? with
    | some ⟨n, _, now, _, .finished info result⟩ => s.wheel.endsTask cfg n info result now
    | _ => false
  | _ => false

/-- It depends on the wheel, and on what the execution has with it. -/
theorem endsTask_complete {s : Scheduler} {i : ℕ} {r : Option CtxRef} {now : Time} {slot : ℕ}
    {info : TaskInfo} {result : AlarmResult}
    (he : s.execs[i]? = some ⟨n, r, now, slot, .finished info result⟩) :
    s.endsTask cfg (.complete i) = s.wheel.endsTask cfg n info result now := by
  show (match s.execs[i]? with
    | some ⟨n, _, now, _, .finished info result⟩ => s.wheel.endsTask cfg n info result now
    | _ => false) = _
  rw [he]

/-- **The steps of executions**: they change no entry, unless they end a task.
So the registry is the calls' own, as long as no task comes to its end. -/
theorem background_same {s s' : Scheduler} {a : Action} (ha : a.isCall = false)
    (hstep : Scheduler.step cfg s a = some s') (hends : s.endsTask cfg a = false) :
    SameEntries s.wheel s'.wheel := by
  have hstepped := stepped_of_step hstep
  cases hstepped with
  | call h _ => exact absurd (h.symm.trans ha) Bool.noConfusion
  | tick now => exact ⟨rfl, rfl, rfl, fun _ => rfl, ⟨rfl, fun hcache => hcache⟩⟩
  | reject _ _ => exact .refl _
  | @start i e _ _ =>
    unfold Scheduler.start
    cases s.wheel.checkTaskState e.node with
    | none => exact .refl _
    | some task =>
      dsimp only
      cases s.wheel.runTaskCheck e.node task.copyTaskInfo with
      | none => exact .refl _
      | some err => exact updateTaskResult_same _ _ _ _
  | @finish i e info _ _ result =>
    unfold Scheduler.finish
    dsimp only
    split_ifs
    · exact updateTaskResult_same _ _ _ _
    · exact updateTaskResult_same _ _ _ _
  | panic _ _ => exact .refl _
  | @complete i e info result he hs =>
    obtain ⟨n, r, now, slot, stage⟩ := e
    obtain rfl : stage = .finished info result := hs
    exact lockedSection_same ((endsTask_complete he).symm.trans hends) slot

/-- In any case the entries afterwards are entries from before. An execution
never enters a node under an ID. -/
theorem background_entry {s s' : Scheduler} {a : Action} (ha : a.isCall = false)
    (hstep : Scheduler.step cfg s a = some s') :
    SameUp s.wheel s'.wheel
      ∧ ∀ id n, s'.wheel.lookup cfg id = some n → s.wheel.lookup cfg id = some n := by
  cases hends : s.endsTask cfg a with
  | false =>
    have hsame := background_same ha hstep hends
    exact ⟨hsame.up, fun id n h => hsame.lookup id ▸ h⟩
  | true =>
    have hstepped := stepped_of_step hstep
    cases hstepped with
    | @complete i e info result he hs =>
      obtain ⟨n, r, now, slot, stage⟩ := e
      obtain rfl : stage = .finished info result := hs
      rw [endsTask_complete he] at hends
      have halert : SameEntries s.wheel (s.wheel.applyAlert cfg n info result now) :=
        applyAlert_same _ n info result now
      have hrel := lockedSection_released hends slot
      refine ⟨halert.up.trans hrel.up, fun id m h => ?_⟩
      rw [show (s.complete cfg i ⟨n, r, now, slot, .finished info result⟩ info result).wheel
        = s.wheel.lockedSection cfg n info result now slot from rfl, hrel.lookup] at h
      split_ifs at h with heq
      exact halert.lookup id ▸ h
    | call h _ => exact absurd (h.symm.trans ha) Bool.noConfusion
    | _ => exact absurd hends Bool.noConfusion

/-- They lose entries at most. That is all it takes to see that an ID that is
free stays free. -/
theorem background_lookup {s s' : Scheduler} {a : Action} (ha : a.isCall = false)
    (hstep : Scheduler.step cfg s a = some s') :
    SameUp s.wheel s'.wheel
      ∧ ∀ id, s'.wheel.lookup cfg id ≠ none → s.wheel.lookup cfg id ≠ none := by
  obtain ⟨hup, hentry⟩ := background_entry ha hstep
  refine ⟨hup, fun id h => ?_⟩
  obtain ⟨n, hn⟩ := Option.ne_none_iff_exists'.mp h
  exact ne_of_eq_of_ne (hentry id n hn) (Option.some_ne_none n)

end Timewheel
