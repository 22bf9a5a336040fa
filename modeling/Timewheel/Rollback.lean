import Timewheel.Isolation
import Timewheel.MultiLevel

/-!
# A rejected update

`UpdateTask` removes the task, adds the new one, and when that fails adds a
copy of the old one. The copy has the definition and nothing else: the count
of its runs, its alert and its flag are those of a task that has just been
added.

`updateTask_atomic_iff` says when nobody sees the difference. Nothing is
assumed of the wheel, so the condition also has to say that no other ID holds
the nodes that are released and handed out on the way;
`Inv.rollsBack_iff` leaves what matters of it in a wheel that is in order.

The proof follows the three calls inside `UpdateTask` through their effects on
the records: the removal clears the task of the node and puts it into the
pool, a rejected addition does nothing, and the second addition starts the old
task afresh on the node the pool hands out. In an arbitrary wheel these nodes
may be shared with other IDs, and that is where the length of the condition
comes from.
-/

namespace Timewheel

open TimeWheel Scheduler DList

variable {cfg : Config} {w w' : TimeWheel} {lists : ℕ → List NodeRef} {n m : NodeRef}
  {id : String} {t t' : Task}

/-! ## What is held of a task -/

/-- The definition of a task, its flag and the state of its runs. The pending
and firing times belong to the alert; the slot and the due time are left out,
since they are meant to change. -/
structure TaskRecord where
  task : Option Task
  paused : Bool
  executed : ℕ
  alertState : AlertState
  pendingSince : Time
  lastFiredAt : Time
  deriving DecidableEq

/-- What the node holds of it. -/
def TaskSlot.record (node : TaskSlot) : TaskRecord where
  task := node.task
  paused := node.paused
  executed := node.executed
  alertState := node.alertState
  pendingSince := node.pendingSince
  lastFiredAt := node.lastFiredAt

/-- What is held under an ID, if it is registered. This is what an observer
compares before and after. -/
def TimeWheel.record (cfg : Config) (w : TimeWheel) (id : String) : Option TaskRecord :=
  (w.lookup cfg id).map (fun n => (w.heap n).record)

/-- What `AddTask` leaves of a task. Only the flag is not its own doing. -/
def TaskRecord.added (task : Task) (paused : Bool) : TaskRecord where
  task := some task
  paused := paused
  executed := 0
  alertState := .pending
  pendingSince := Time.zero
  lastFiredAt := Time.zero

/-- Relinking a node does not change what it holds. -/
theorem TaskSlot.record_of_payload {a b : TaskSlot} (h : a.payload = b.payload) :
    a.record = b.record := by
  show a.payload.record = b.payload.record
  rw [h]

/-! ## The condition -/

/-- The checks of `AddTask` reject the task. An interval that is not positive,
say. -/
def rejects (task : Task) : Bool :=
  match checkTask task with
  | .ok _ => false
  | .error _ => true

/-- **The update is rejected late**: it gets as far as removing the task, and
then the new one does not pass the checks. `UpdateTask` itself only checks the
first three. -/
def RejectedLate (cfg : Config) (w : TimeWheel) (task : Task) : Prop :=
  task.id ≠ "" ∧ task.run ≠ none ∧ w.running = true ∧ w.lookup cfg task.id ≠ none
    ∧ rejects task = true

instance (cfg : Config) (w : TimeWheel) (task : Task) : Decidable (RejectedLate cfg w task) :=
  inferInstanceAs (Decidable (_ ∧ _))

/-- **The removed task comes back as it was**: what is held of it is what
`AddTask` makes of it, on the node the pool hands out once the old one is back,
and no other ID holds one of the two nodes, or none that anyone could tell
apart. The old task has to pass the checks as it is, or it comes back changed. -/
def RollsBack (cfg : Config) (w : TimeWheel) (id : String) (choice : Option NodeRef) : Prop :=
  ∃ n old, w.lookup cfg id = some n ∧ old.id = id ∧ checkTask old = .ok old
    ∧ (w.heap n).record = .added old ((w.poolPut n).handsOutPaused choice)
    ∧ ∀ id' m, id' ≠ id → w.lookup cfg id' = some m →
      m = n ∨ m = ((w.poolPut n).poolGet choice).1 →
      m = ((w.poolPut n).poolGet choice).1 ∧ (w.heap m).record = (w.heap n).record

/-! ## The two calls -/

/-- What is held under an ID is what its node holds. -/
theorem record_of_lookup (hn : w.lookup cfg id = some n) :
    w.record cfg id = some (w.heap n).record := by
  unfold TimeWheel.record
  rw [hn]
  rfl

/-- `RemoveTask` takes the entry out and clears the task of its node. The other
fields of the node stay as they are until it is handed out again. -/
theorem removeTask_records (hid : id ≠ "") (hn : w.lookup cfg id = some n) (deleteOk : Bool) :
    ∃ w', w.removeTask cfg id deleteOk = (none, w') ∧ w'.running = w.running
      ∧ (∀ id', w'.lookup cfg id' = if id' = id then none else w.lookup cfg id')
      ∧ w'.taskPool = n :: w.taskPool ∧ w'.nextNode = w.nextNode
      ∧ (∀ m, m ≠ n → (w'.heap m).record = (w.heap m).record)
      ∧ (w'.heap n).task = none ∧ (∀ m, (w'.heap m).paused = (w.heap m).paused) := by
  have hrel := (w.unlink_spec n (w.heap n).slotIndex).1
  unfold removeTask
  rw [if_neg hid, hn]
  obtain ⟨heap, slots, hw⟩ := hrel.frame
  have hpay : ∀ m, (heap m).payload = (w.heap m).payload := fun m => by
    have h := hrel.payload m
    rw [hw] at h
    exact h
  have hrecord : ∀ m, (heap m).record = (w.heap m).record :=
    fun m => TaskSlot.record_of_payload (hpay m)
  dsimp only
  rw [hw]
  refine ⟨_, rfl, rfl, fun id' => ?_, rfl, rfl, fun m hm => ?_, ?_, fun m => ?_⟩
  · exact deleteEntry_lookup w id id'
  · show (Function.update heap n _ m).record = _
    rw [Function.update_of_ne hm]
    exact hrecord m
  · show (Function.update heap n (clearNode (heap n)) n).task = none
    rw [Function.update_self]
    rfl
  · show (Function.update heap n (clearNode (heap n)) m).paused = _
    have hpaused : (heap m).paused = (w.heap m).paused :=
      congrArg TaskRecord.paused (hrecord m)
    by_cases hm : m = n
    · subst hm
      rw [Function.update_self]
      exact hpaused
    · rw [Function.update_of_ne hm]
      exact hpaused

/-- The node the pool hands out. Its flag is the one it was put back with. -/
theorem poolGet_records (w : TimeWheel) (choice : Option NodeRef) :
    (w.poolGet choice).2.shards = w.shards
      ∧ ((w.poolGet choice).2.heap (w.poolGet choice).1).paused = w.handsOutPaused choice
      ∧ ∀ m, m ≠ (w.poolGet choice).1 → (w.poolGet choice).2.heap m = w.heap m := by
  have hdrawn := poolGet_drawn w choice
  refine ⟨hdrawn.shards, hdrawn.paused, fun m hm => ?_⟩
  have hnew : ∀ m, m ≠ w.nextNode →
      ({ w.setNode w.nextNode TaskSlot.zero with nextNode := w.nextNode + 1 } : TimeWheel).heap m
        = w.heap m := fun m hm => heap_setNode_of_ne hm TaskSlot.zero
  cases choice with
  | none => exact hnew m hm
  | some k =>
    unfold poolGet at hm ⊢
    dsimp only at hm ⊢
    by_cases hk : k ∈ w.taskPool
    · rw [if_pos hk]
    · rw [if_neg hk] at hm ⊢
      exact hnew m hm

/-- Preparing it writes what `initNode` writes. No other node is written. -/
theorem prepareNode_heap (cfg : Config) (w : TimeWheel) (t : Task) (env : AddEnv) :
    (w.prepareNode cfg t env).1 = (w.poolGet env.node).1
      ∧ (w.prepareNode cfg t env).2.shards = w.shards
      ∧ (w.prepareNode cfg t env).2.heap (w.poolGet env.node).1
        = initNode ((w.poolGet env.node).2.heap (w.poolGet env.node).1) t
            (w.poolGet env.node).2.nextCtx
            (slotIndexFor cfg.interval cfg.slotNum env.now t.interval) env.now
      ∧ ∀ m, m ≠ (w.poolGet env.node).1 → (w.prepareNode cfg t env).2.heap m = w.heap m := by
  obtain ⟨hshards, -, hother⟩ := poolGet_records w env.node
  unfold prepareNode
  generalize w.poolGet env.node = g at hshards hother ⊢
  obtain ⟨k, w₁⟩ := g
  dsimp only [withCancel] at hshards hother ⊢
  refine ⟨rfl, hshards, heap_setNode_self _ _ _, fun m hm => ?_⟩
  rw [heap_setNode_of_ne hm]
  exact hother m hm

/-- `AddTask` enters the task on the prepared node. What is linked besides are
the pointers of its neighbours. -/
theorem addTask_payload (hcheck : checkTask t = .ok t') (hrun : w.running = true)
    (hnew : w.lookup cfg t'.id = none) (env : AddEnv) :
    ∃ w', w.addTask cfg (some t) env = (none, w')
      ∧ (∀ id, w'.lookup cfg id
        = if id = t'.id then some (w.poolGet env.node).1 else w.lookup cfg id)
      ∧ (w'.heap (w.poolGet env.node).1).payload
        = initNode ((w.poolGet env.node).2.heap (w.poolGet env.node).1) t'
            (w.poolGet env.node).2.nextCtx
            (slotIndexFor cfg.interval cfg.slotNum env.now t'.interval) env.now
      ∧ ∀ m, m ≠ (w.poolGet env.node).1 → (w'.heap m).payload = (w.heap m).payload := by
  obtain ⟨hnode, hshards, hself, hother⟩ := prepareNode_heap cfg w t' env
  unfold addTask
  dsimp only
  rw [hcheck]
  dsimp only
  rw [hrun, if_neg (by exact Bool.noConfusion)]
  generalize w.prepareNode cfg t' env = g at hnode hshards hself hother ⊢
  obtain ⟨k, w₁⟩ := g
  obtain rfl : k = (w.poolGet env.node).1 := hnode
  dsimp only at hshards hself hother ⊢
  rw [lookup_congr hshards, hnew]
  have hrel := relinked_insertOrdered w₁ (w.poolGet env.node).1 t'.priority
    (w₁.heap (w.poolGet env.node).1).slotIndex
  have hlink : ∀ m, ((w₁.linkTask cfg (w.poolGet env.node).1 t' env).heap m).payload
      = (w₁.heap m).payload := hrel.payload
  refine ⟨_, rfl, fun id => ?_, (hlink _).trans ?_, fun m hm => ?_⟩
  · have hentry := @insertEntry_lookup cfg
      (w₁.insertOrdered (w.poolGet env.node).1 t'.priority
        (w₁.heap (w.poolGet env.node).1).slotIndex) t'.id (w.poolGet env.node).1 id
    rw [lookup_congr (hrel.shards.trans hshards)] at hentry
    exact hentry
  · rw [hself]
    rfl
  · rw [hlink, hother m hm]

/-- `AddTask` enters the task and starts it afresh. The counter is zero, and the
alert pending. -/
theorem addTask_records (hcheck : checkTask t = .ok t') (hrun : w.running = true)
    (hnew : w.lookup cfg t'.id = none) (env : AddEnv) :
    ∃ w', w.addTask cfg (some t) env = (none, w')
      ∧ (∀ id, w'.lookup cfg id
        = if id = t'.id then some (w.poolGet env.node).1 else w.lookup cfg id)
      ∧ (w'.heap (w.poolGet env.node).1).record = .added t' (w.handsOutPaused env.node)
      ∧ ∀ m, m ≠ (w.poolGet env.node).1 → (w'.heap m).record = (w.heap m).record := by
  obtain ⟨w', hadd, hlookup, hself, hother⟩ := addTask_payload hcheck hrun hnew env
  refine ⟨w', hadd, hlookup, ?_, fun m hm => TaskSlot.record_of_payload (hother m hm)⟩
  show (w'.heap _).payload.record = _
  rw [hself, ← (poolGet_records w env.node).2.1]
  rfl

/-- What the checks reject never gets to a node. The checks come first. -/
theorem addTask_of_rejects (h : rejects t = true) (env : AddEnv) :
    ∃ err, w.addTask cfg (some t) env = (some err, w) := by
  unfold addTask
  dsimp only
  unfold rejects at h
  cases hcheck : checkTask t with
  | error err => exact ⟨err, rfl⟩
  | ok t' =>
    rw [hcheck] at h
    cases h

/-- **A late rejection** leaves what putting the old task back leaves. If the
node has no task there is nothing to put back. -/
theorem updateTask_of_late (h : RejectedLate cfg w t) (hn : w.lookup cfg t.id = some n)
    (env : UpdateEnv) :
    (w.updateTask cfg (some t) env).1 ≠ none ∧ (w.updateTask cfg (some t) env).2
      = match (w.heap n).task with
        | none => (w.removeTask cfg t.id env.deleteOk).2
        | some old =>
          ((w.removeTask cfg t.id env.deleteOk).2.addTask cfg (some old) env.rollback).2 := by
  obtain ⟨hid, hfn, hrun, -, hrejects⟩ := h
  obtain ⟨w₁, hremove, -⟩ := removeTask_records hid hn env.deleteOk
  obtain ⟨err, hadd⟩ := @addTask_of_rejects cfg w₁ t hrejects env.add
  unfold updateTask
  dsimp only
  rw [if_neg hid, if_neg hfn, hrun, if_neg (by exact Bool.noConfusion), hn]
  dsimp only
  rw [hremove]
  dsimp only
  rw [hadd]
  dsimp only
  cases (w.heap n).task with
  | none => exact ⟨Option.some_ne_none _, rfl⟩
  | some old =>
    dsimp only
    generalize w₁.addTask cfg (some old) env.rollback = r
    obtain ⟨err', w₂⟩ := r
    cases err' with
    | none => exact ⟨Option.some_ne_none _, rfl⟩
    | some _ => exact ⟨Option.some_ne_none _, rfl⟩

/-- Any other rejection comes before anything is touched. `UpdateTask` returns
from one of its own checks, or the addition cannot fail. -/
theorem updateTask_of_not_late (h : ¬ RejectedLate cfg w t) (env : UpdateEnv)
    (herr : (w.updateTask cfg (some t) env).1 ≠ none) : (w.updateTask cfg (some t) env).2 = w := by
  unfold updateTask at herr ⊢
  dsimp only at herr ⊢
  by_cases hid : t.id = ""
  · rw [if_pos hid]
  by_cases hfn : t.run = none
  · rw [if_neg hid, if_pos hfn]
  cases hrun : w.running with
  | false => rw [if_neg hid, if_neg hfn, if_pos rfl]
  | true =>
    rw [hrun, if_neg hid, if_neg hfn, if_neg (by exact Bool.noConfusion)] at herr
    rw [if_neg hid, if_neg hfn, if_neg (by exact Bool.noConfusion)]
    cases hn : w.lookup cfg t.id with
    | none => rfl
    | some n =>
      obtain ⟨w₁, hremove, hrun₁, hlookup, -⟩ := removeTask_records hid hn env.deleteOk
      cases hcheck : checkTask t with
      | error err =>
        refine absurd ⟨hid, hfn, hrun, hn ▸ Option.some_ne_none n, ?_⟩ h
        unfold rejects
        rw [hcheck]
      | ok t' =>
        -- the new task passes, so the update succeeds
        have hid' : t'.id = t.id := (checkTask_ok hcheck).2.2.id_eq
        obtain ⟨w₂, hadd, -⟩ := @addTask_records cfg w₁ t t' hcheck (hrun₁.trans hrun)
          (by rw [hlookup, if_pos hid']) env.add
        rw [hn] at herr
        dsimp only at herr
        rw [hremove] at herr
        dsimp only at herr
        rw [hadd] at herr
        exact absurd rfl herr

/-- `AddTask` enters no ID but that of its task. So an ID that is back has been
put back. -/
theorem added_of_lookup_ne_none (env : AddEnv) (hid : w.lookup cfg id = none)
    (h : (w.addTask cfg (some t) env).2.lookup cfg id ≠ none) :
    t.id = id ∧ ∃ t', checkTask t = .ok t' := by
  have hstep := addTask_step cfg w (some t) env
  generalize w.addTask cfg (some t) env = r at hstep h
  cases hstep with
  | rejected reason => exact absurd hid h
  | duplicate task_eq check taken got =>
    exact absurd ((lookup_congr got.shards id).trans hid) h
  | @added s t' k w₁ w₂ task_eq check new got linked =>
    obtain rfl := Option.some.inj task_eq
    rw [linked.lookup, insertEntry_lookup] at h
    by_cases heq : id = t'.id
    · exact ⟨(checkTask_ok check).2.2.id_eq.symm.trans heq.symm, t', check⟩
    · rw [if_neg heq] at h
      exact absurd ((lookup_congr got.shards id).trans hid) h

/-- **Putting the old task back**, when it passes the checks. The node it gets
may be the one it had, or another one; in the second case the first one is left
without a task. -/
theorem rollback_records {old old' : Task} (hid : id ≠ "") (hn : w.lookup cfg id = some n)
    (hrun : w.running = true) (heq : old.id = id) (hcheck : checkTask old = .ok old')
    (deleteOk : Bool) (env : AddEnv) :
    ∃ w', ((w.removeTask cfg id deleteOk).2.addTask cfg (some old) env).2 = w'
      ∧ (∀ id', w'.lookup cfg id'
        = if id' = id then some ((w.poolPut n).poolGet env.node).1 else w.lookup cfg id')
      ∧ (w'.heap ((w.poolPut n).poolGet env.node).1).record
        = .added old' ((w.poolPut n).handsOutPaused env.node)
      ∧ (n ≠ ((w.poolPut n).poolGet env.node).1 → (w'.heap n).task = none)
      ∧ ∀ m, m ≠ ((w.poolPut n).poolGet env.node).1 → m ≠ n →
        (w'.heap m).record = (w.heap m).record := by
  obtain ⟨w₁, hremove, hrun₁, hlookup, hpool, hnext, hrecord, htask, hpaused⟩ :=
    removeTask_records hid hn deleteOk
  have hid' : old'.id = id := (checkTask_ok hcheck).2.2.id_eq.trans heq
  obtain ⟨w₂, hadd, hlookup₂, hself, hother⟩ := @addTask_records cfg w₁ old old' hcheck
    (hrun₁.trans hrun) (by rw [hlookup, if_pos hid']) env
  -- after the removal the pool is as if only the node had been put back
  have hpaused₁ : w₁.handsOutPaused env.node = (w.poolPut n).handsOutPaused env.node := by
    unfold handsOutPaused
    rw [hpool]
    simp only [hpaused]
    rfl
  have hdrawn : (w₁.poolGet env.node).1 = ((w.poolPut n).poolGet env.node).1 := by
    unfold poolGet
    cases env.node with
    | none => exact hnext
    | some k =>
      dsimp only
      rw [hpool, hnext]
      show (if k ∈ n :: w.taskPool then _ else _ : NodeRef × TimeWheel).1
        = (if k ∈ n :: w.taskPool then _ else _ : NodeRef × TimeWheel).1
      split_ifs
      · rfl
      · rfl
  rw [hdrawn] at hlookup₂ hself hother
  rw [hpaused₁] at hself
  refine ⟨w₂, by rw [hremove, hadd], fun id' => ?_, hself, fun hk => ?_, fun m hk hmn => ?_⟩
  · rw [hlookup₂, hid', hlookup]
    split_ifs
    · rfl
    · rfl
  · exact (congrArg TaskRecord.task (hother n hk)).trans htask
  · rw [hother m hk, hrecord m hmn]

/-- The task does come back as it was, and no other ID notices the nodes that
have changed. -/
theorem RollsBack.record_eq (hlate : RejectedLate cfg w t) (env : UpdateEnv)
    (h : RollsBack cfg w t.id env.rollback.node) (id : String) :
    (w.updateTask cfg (some t) env).2.record cfg id = w.record cfg id := by
  obtain ⟨n, old, hn, heq, hcheck, hrecord, hnodes⟩ := h
  obtain ⟨-, hstate⟩ := updateTask_of_late hlate hn env
  have hold : (w.heap n).task = some old := congrArg TaskRecord.task hrecord
  rw [hold] at hstate
  obtain ⟨w', hw', hlookup, hself, -, hother⟩ := rollback_records hlate.1 hn hlate.2.2.1 heq
    hcheck env.deleteOk env.rollback
  rw [hstate]
  dsimp only
  rw [hw']
  by_cases hid : id = t.id
  · subst hid
    rw [record_of_lookup ((hlookup t.id).trans (if_pos rfl)), hself, record_of_lookup hn, hrecord]
  · unfold TimeWheel.record
    rw [hlookup, if_neg hid]
    cases hm : w.lookup cfg id with
    | none => rfl
    | some m =>
      refine congrArg some ?_
      show (w'.heap m).record = (w.heap m).record
      by_cases hk : m = ((w.poolPut n).poolGet env.rollback.node).1
      · rw [(hnodes id m hid hm (Or.inr hk)).2, hrecord, ← hself, ← hk]
      · exact hother m hk (fun hmn => hk (hnodes id m hid hm (Or.inl hmn)).1)

/-- Only then are the records those from before. If nobody can tell, the old
task has been put back, it was as good as new, and whoever shares a node with it
was too. -/
theorem rollsBack_of_record_eq (hlate : RejectedLate cfg w t) (env : UpdateEnv)
    (h : ∀ id, (w.updateTask cfg (some t) env).2.record cfg id = w.record cfg id) :
    RollsBack cfg w t.id env.rollback.node := by
  obtain ⟨n, hn⟩ := Option.ne_none_iff_exists'.mp hlate.2.2.2.1
  rw [(updateTask_of_late hlate hn env).2] at h
  obtain ⟨w₁, hremove, -, hlookup, -⟩ := removeTask_records hlate.1 hn env.deleteOk
  have hgone : w₁.lookup cfg t.id = none := (hlookup t.id).trans (if_pos rfl)
  -- the removed ID has to be back
  have hback : ∀ w' : TimeWheel, (∀ id, w'.record cfg id = w.record cfg id) →
      w'.lookup cfg t.id ≠ none := by
    intro w' hw' hnone
    have hrecord := hw' t.id
    rw [record_of_lookup hn] at hrecord
    unfold TimeWheel.record at hrecord
    rw [hnone] at hrecord
    cases hrecord
  cases hold : (w.heap n).task with
  | none =>
    rw [hold] at h
    dsimp only at h
    rw [hremove] at h
    exact absurd hgone (hback w₁ h)
  | some old =>
    rw [hold] at h
    dsimp only at h
    obtain ⟨heq, old', hcheck⟩ : old.id = t.id ∧ ∃ old', checkTask old = .ok old' := by
      refine added_of_lookup_ne_none env.rollback ?_ (hback _ h)
      rw [hremove]
      exact hgone
    obtain ⟨w', hw', hlookup', hself, hcleared, -⟩ := rollback_records hlate.1 hn
      hlate.2.2.1 heq hcheck env.deleteOk env.rollback
    rw [hw'] at h
    have hrecord := h t.id
    rw [record_of_lookup ((hlookup' t.id).trans (if_pos rfl)), hself, record_of_lookup hn]
      at hrecord
    have hrecord := Option.some.inj hrecord
    obtain rfl : old' = old := by
      have htask : some old' = (w.heap n).task := congrArg TaskRecord.task hrecord
      exact Option.some.inj (htask.trans hold)
    refine ⟨n, old', hn, heq, hcheck, hrecord.symm, fun id m hid hm hnode => ?_⟩
    have hr := h id
    rw [record_of_lookup ((hlookup' id).trans ((if_neg hid).trans hm)), record_of_lookup hm]
      at hr
    have hr := Option.some.inj hr
    by_cases hk : m = ((w.poolPut n).poolGet env.rollback.node).1
    · rw [← hk] at hself
      exact ⟨hk, hr.symm.trans (hself.trans hrecord)⟩
    · -- a node that is not handed out again has lost its task
      obtain rfl := hnode.resolve_right hk
      have htask : (w'.heap m).task = (w.heap m).task := congrArg TaskRecord.task hr
      rw [hcleared hk, hold] at htask
      cases htask

/-- **An update is atomic exactly if it is not rejected late, or the task comes
back as it was.** Nothing is assumed of the wheel or of the task: every other
error leaves the wheel exactly as it was. -/
theorem updateTask_atomic_iff (cfg : Config) (w : TimeWheel) (task : Option Task)
    (env : UpdateEnv) :
    ((w.updateTask cfg task env).1 ≠ none →
      ∀ id, (w.updateTask cfg task env).2.record cfg id = w.record cfg id)
      ↔ ∀ t, task = some t → RejectedLate cfg w t → RollsBack cfg w t.id env.rollback.node := by
  constructor
  · rintro h t rfl hlate
    obtain ⟨n, hn⟩ := Option.ne_none_iff_exists'.mp hlate.2.2.2.1
    exact rollsBack_of_record_eq hlate env (h (updateTask_of_late hlate hn env).1)
  · intro h herr id
    cases task with
    | none => rfl
    | some t =>
      by_cases hlate : RejectedLate cfg w t
      · exact (h t rfl hlate).record_eq hlate env id
      · rw [updateTask_of_not_late hlate env herr]

/-- An update of the task "a" that is rejected for its interval. The pools hand
out new nodes. -/
def rejectedUpdate (w : TimeWheel) : Option Err × TimeWheel :=
  w.updateTask fourSlots (some (Task.plain "a" .repeated 0)) ⟨true, newNodeEnv, newNodeEnv⟩

/-- A task with two runs has had one of them, and a rejected update gives it two
again. It has lost the count of the run it has had. -/
theorem not_atomic_of_executed :
    ¬ ∀ as s, Machine.run (step fourSlots) (ofWheel fourSlotWheel) as = some s →
      s.wheel.running = true → ∀ task env, (s.wheel.updateTask fourSlots task env).1 ≠ none →
        ∀ id, (s.wheel.updateTask fourSlots task env).2.record fourSlots id
          = s.wheel.record fourSlots id := by
  intro h
  have hrun : (Machine.run (step fourSlots) (ofWheel fourSlotWheel)
      ([.addTask (some { Task.plain "a" .fixedTimes (Duration.ofMilli 10) with times := 2 })
        newNodeEnv] ++ ticksAt [10] ++ [.start 0, .finish 0 .zero, .complete 0])).map (fun s =>
      (s.wheel.running, (s.wheel.record fourSlots "a").map TaskRecord.executed,
        (rejectedUpdate s.wheel).1.isSome,
        ((rejectedUpdate s.wheel).2.record fourSlots "a").map TaskRecord.executed))
      = some (true, some 1, true, some 0) := by
    decide +kernel
  obtain ⟨s, hs, hafter⟩ := Option.map_eq_some_iff.mp hrun
  obtain ⟨hrunning, hafter⟩ := Prod.mk.inj hafter
  obtain ⟨hbefore, hafter⟩ := Prod.mk.inj hafter
  obtain ⟨herr, hafter⟩ := Prod.mk.inj hafter
  have hsame : (rejectedUpdate s.wheel).2.record fourSlots "a" = s.wheel.record fourSlots "a" :=
    h _ s hs hrunning _ _ (Option.isSome_iff_ne_none.mp herr) "a"
  rw [hsame, hbefore] at hafter
  cases hafter

/-! ## In a wheel that is in order -/

/-- **What matters of the condition**: the task has had no run since it was
added, and its flag is that of the node the pool hands out. No two IDs share a
node then, so the rest of the condition holds by itself. -/
theorem Inv.rollsBack_iff {i : ℕ} {c : CtxRef} (h : Inv cfg w lists)
    (hu : Used cfg w lists n i c t) (hcheck : checkTask t = .ok t) (choice : Option NodeRef) :
    RollsBack cfg w t.id choice
      ↔ (w.heap n).record = .added t ((w.poolPut n).handsOutPaused choice) := by
  constructor
  · rintro ⟨m, old, hm, -, -, hrecord, -⟩
    obtain rfl := Option.some.inj (hu.lookup.symm.trans hm)
    have htask : (w.heap n).task = some old := congrArg TaskRecord.task hrecord
    obtain rfl := Option.some.inj (hu.task_eq.symm.trans htask)
    exact hrecord
  · intro hrecord
    refine ⟨n, t, hu.lookup, rfl, hcheck, hrecord, fun id m hid hm hnode => ?_⟩
    obtain ⟨j, d, s, hu', heq⟩ := h.used_of_lookup hm
    -- no other task is on the node, and none is on a node of the pool
    have hne : m ≠ n := by
      rintro rfl
      obtain ⟨-, -, rfl⟩ := hu.unique hu'
      exact hid heq.symm
    refine absurd (hnode.resolve_left hne) ?_
    unfold poolGet
    cases choice with
    | none => exact hu'.allocated.ne
    | some k =>
      dsimp only
      by_cases hk : k ∈ n :: w.taskPool
      · rw [if_pos (show k ∈ (w.poolPut n).taskPool from hk)]
        rintro rfl
        exact hu'.not_pooled ((List.mem_cons.mp hk).resolve_left hne)
      · rw [if_neg (show k ∉ (w.poolPut n).taskPool from hk)]
        exact hu'.allocated.ne

end Timewheel
