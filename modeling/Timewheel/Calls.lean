import Timewheel.Operations

/-!
# What the calls do to the wheel

`AddTask` either rejects the task and changes nothing, or takes a node from
the pool; the node is put back when the ID is in the map already, and linked
and entered otherwise (`AddResult`). `RemoveTask` releases the node of the ID
(`RemoveResult`). Pausing and resuming write fields, clearing removes one node
after the other, and updating removes and adds.

Every call keeps the invariant, and a node that a call does not hand out stays
in use for the registration it serves or is released (`Evolves`).

The two layers serve different readers. `AddResult`, `RemoveResult` and the
lemmas on the other calls say what has happened, case by case, with the node
concerned and the lists afterwards. `Evolves` forgets all of it except what an
execution has to know that holds a node while calls go on. Runs are put
together from the second, and the registry, the contexts and the counters from
the first.
-/

namespace Timewheel

open DList TimeWheel

variable {cfg : Config} {w w' w'' : TimeWheel} {lists lists' lists'' : ℕ → List NodeRef}
  {n : NodeRef} {i : ℕ} {c : CtxRef} {t : Task}

/-! ## Taking a node -/

/-- `n` is a node the pool can hand out: a new one, or the one it was asked for.
Which of the pooled nodes `sync.Pool` hands out is not determined, so `choice`
says it. -/
structure HandedOut (w : TimeWheel) (lists : ℕ → List NodeRef) (choice : Option NodeRef)
    (n : NodeRef) : Prop where
  free : Free w lists n
  source : n = w.nextNode ∨ (choice = some n ∧ n ∈ w.taskPool)

/-- A node not yet allocated is not in use. Nothing refers to it yet. -/
theorem Inv.free_nextNode (h : Inv cfg w lists) : Free w lists w.nextNode := by
  rcases h.node w.nextNode with ⟨i, c, t, hu⟩ | hf
  · exact absurd hu.allocated (lt_irrefl _)
  · exact hf

/-- What `poolGet` guarantees of the node and of the wheel it leaves. The last
field is the only thing that shows where the node comes from: a new node is not
paused, and a pooled one is if it was released so. -/
structure PoolGot (cfg : Config) (w : TimeWheel) (lists : ℕ → List NodeRef)
    (choice : Option NodeRef) (n : NodeRef) (w' : TimeWheel) : Prop where
  inv : Inv cfg w' lists
  changes : ChangesOnly n w w' lists lists
  handedOut : HandedOut w lists choice n
  free : Free w' lists n
  allocated : n < w'.nextNode
  not_pooled : n ∉ w'.taskPool
  nextCtx : w'.nextCtx = w.nextCtx
  shards : w'.shards = w.shards
  paused : (w'.heap n).paused = true → n ∈ w.taskPool ∧ (w.heap n).paused = true

/-- A new node. It is zero in all its fields. -/
theorem poolGot_new (h : Inv cfg w lists) (choice : Option NodeRef) :
    PoolGot cfg w lists choice w.nextNode
      { w.setNode w.nextNode TaskSlot.zero with nextNode := w.nextNode + 1 } := by
  have hf := h.free_nextNode
  have h₁ : Inv cfg (w.setNode w.nextNode TaskSlot.zero) lists := h.setNode_free hf _
  have hc : ChangesOnly w.nextNode w
      { w.setNode w.nextNode TaskSlot.zero with nextNode := w.nextNode + 1 } lists lists := by
    have hset := changesOnly_setNode w w.nextNode TaskSlot.zero lists
    exact ⟨hset.payload, hset.order, hset.entry, hset.pool, Nat.le_succ _, hset.nextCtx, rfl⟩
  have hpool : w.nextNode ∉ w.taskPool := fun hp => lt_irrefl _ (h.pool_lt _ hp)
  exact {
    inv := hc.inv h h₁.family h.pool_nodup (fun hp => absurd hp hpool)
      (Or.inr ⟨hf.not_mem, hf.no_entry⟩)
    changes := hc
    handedOut := ⟨hf, Or.inl rfl⟩
    free := ⟨hf.not_mem, hf.no_entry⟩
    allocated := Nat.lt_succ_self _
    not_pooled := hpool
    nextCtx := rfl
    shards := rfl
    paused := fun hp => by
      have hzero : ((w.setNode w.nextNode TaskSlot.zero).heap w.nextNode).paused = false := by
        rw [heap_setNode_self]
        rfl
      exact absurd (hzero.symm.trans hp) Bool.false_ne_true }

/-- **The pool** hands out a free node, and takes it out if it was in. Nothing is
written to it, so it is as it was put back. -/
theorem poolGet_spec (h : Inv cfg w lists) (choice : Option NodeRef) :
    PoolGot cfg w lists choice (w.poolGet choice).1 (w.poolGet choice).2 := by
  unfold poolGet
  cases choice with
  | none => exact poolGot_new h none
  | some n =>
    by_cases hn : n ∈ w.taskPool
    · have hf := h.free_of_pool hn
      dsimp only
      rw [if_pos hn]
      have hc : ChangesOnly n w { w with taskPool := w.taskPool.erase n } lists lists :=
        ⟨fun _ _ => rfl, fun _ => rfl, fun _ _ _ _ => Iff.rfl,
          fun _ _ hm => List.mem_of_mem_erase hm, le_refl _, le_refl _, rfl⟩
      have hnot : n ∉ w.taskPool.erase n := h.pool_nodup.not_mem_erase
      exact {
        inv := hc.inv h h.family (h.pool_nodup.erase n) (fun hp => absurd hp hnot)
          (Or.inr ⟨hf.not_mem, hf.no_entry⟩)
        changes := hc
        handedOut := ⟨hf, Or.inr ⟨rfl, hn⟩⟩
        free := ⟨hf.not_mem, hf.no_entry⟩
        allocated := h.pool_lt n hn
        not_pooled := hnot
        nextCtx := rfl
        shards := rfl
        paused := fun hp => ⟨hn, hp⟩ }
    · dsimp only
      rw [if_neg hn]
      exact poolGot_new h (some n)

/-- The node `n` of `w'` carries the task `t` afresh, under a new context. The
paused flag is the one the node came with from the pool. The context is the next
one, so no other node has it. -/
structure Installed (w w' : TimeWheel) (n : NodeRef) (t : Task) : Prop where
  task : (w'.heap n).task = some t
  ctx : (w'.heap n).ctx = some w.nextCtx
  executed : (w'.heap n).executed = 0
  nextCtx : w.nextCtx < w'.nextCtx
  paused : (w'.heap n).paused = true → n ∈ w.taskPool ∧ (w.heap n).paused = true

/-- Only the pointers of the node change after it has been prepared. Linking it
is such a change. -/
theorem Installed.congr (h : Installed w w' n t)
    (hpay : (w''.heap n).payload = (w'.heap n).payload) (hctx : w''.nextCtx = w'.nextCtx) :
    Installed w w'' n t where
  task := by
    show (w''.heap n).payload.task = some t
    rw [hpay]
    exact h.task
  ctx := by
    show (w''.heap n).payload.ctx = some w.nextCtx
    rw [hpay]
    exact h.ctx
  executed := by
    show (w''.heap n).payload.executed = 0
    rw [hpay]
    exact h.executed
  nextCtx := hctx ▸ h.nextCtx
  paused := by
    show (w''.heap n).payload.paused = true → _
    rw [hpay]
    exact h.paused

/-- What `prepareNode` guarantees. The lists have not changed, and the node is
ready to be attached. -/
structure NodePrepared (cfg : Config) (w : TimeWheel) (lists : ℕ → List NodeRef) (t : Task)
    (choice : Option NodeRef) (n : NodeRef) (w' : TimeWheel) : Prop where
  inv : Inv cfg w' lists
  changes : ChangesOnly n w w' lists lists
  handedOut : HandedOut w lists choice n
  free : Free w' lists n
  prepared : ∃ i < cfg.slotNum, Prepared w' n i w.nextCtx t
  shards : w'.shards = w.shards
  installed : Installed w w' n t

/-- **Preparing a node for a task**: every field of the node is written but its
`paused` flag, and the slot is computed from the interval of the task. -/
theorem prepareNode_spec (h : Inv cfg w lists) (t : Task) (env : AddEnv) :
    NodePrepared cfg w lists t env.node (w.prepareNode cfg t env).1
      (w.prepareNode cfg t env).2 := by
  have hpool := poolGet_spec h env.node
  unfold prepareNode
  generalize hg : w.poolGet env.node = g at hpool ⊢
  obtain ⟨n, w₁⟩ := g
  dsimp only [withCancel] at hpool ⊢
  have hctx := hpool.nextCtx
  -- the wheel with the new context
  let w₂ : TimeWheel := { w₁ with
    ctxs := Function.update w₁.ctxs w₁.nextCtx ⟨some w₁.ctx, false⟩
    nextCtx := w₁.nextCtx + 1 }
  have hc₂ : ∀ m, ChangesOnly m w₁ w₂ lists lists := fun m =>
    ⟨fun _ _ => rfl, fun _ => rfl, fun _ _ _ _ => Iff.rfl, fun _ _ hm => hm, le_refl _,
      Nat.le_succ _, rfl⟩
  have hf₂ : Free w₂ lists n := ⟨hpool.free.not_mem, hpool.free.no_entry⟩
  have h₂ : Inv cfg w₂ lists := (hc₂ n).inv hpool.inv hpool.inv.family hpool.inv.pool_nodup
    (fun _ => hpool.allocated) (Or.inr hf₂)
  exact {
    inv := h₂.setNode_free hf₂ _
    changes := (hpool.changes.trans (hc₂ n)).trans (changesOnly_setNode w₂ n _ lists)
    handedOut := hpool.handedOut
    free := hf₂.setNode _
    prepared := by
      refine ⟨_, slotIndexFor_lt cfg.interval cfg.slotNum_pos env.now t.interval, ?_, ?_, ?_,
        hpool.allocated, ?_, hpool.not_pooled⟩
      · rw [heap_setNode_self, ← hctx]
        rfl
      · rw [heap_setNode_self]
        rfl
      · rw [heap_setNode_self]
        rfl
      · rw [← hctx]
        exact Nat.lt_succ_self _
    shards := hpool.shards
    installed := by
      refine ⟨?_, ?_, ?_, ?_, fun hp => ?_⟩
      · rw [heap_setNode_self]
        rfl
      · rw [heap_setNode_self, ← hctx]
        rfl
      · rw [heap_setNode_self]
        rfl
      · rw [← hctx]
        exact Nat.lt_succ_self _
      · rw [heap_setNode_self] at hp
        exact hpool.paused hp }

/-! ## AddTask -/

/-- **The tasks `AddTask` accepts**, and what it makes of them. A repeated task
or one with a number of times needs a positive interval; one to run once gets a
millisecond instead of nothing, and an unknown mode becomes a repeated one. -/
inductive Checked (t : Task) : Task → Prop where
  | repeated (hmode : t.mode = .repeated) (hinterval : 0 < t.interval) : Checked t t
  | once (hmode : t.mode = .once) :
      Checked t (if t.interval ≤ 0 then { t with interval := Duration.millisecond } else t)
  | fixedTimes (hmode : t.mode = .fixedTimes) (htimes : 0 < t.times)
      (hinterval : 0 < t.interval) : Checked t t
  | other {n : ℤ} (hmode : t.mode = .other n) (hinterval : 0 < t.interval) :
      Checked t { t with mode := .repeated }

/-- What the checks of `AddTask` let pass. Each of the checks is a branch of its
own, and the last ones are by mode. -/
theorem checkTask_ok {t t' : Task} (h : checkTask t = .ok t') :
    t.id ≠ "" ∧ t.run ≠ none ∧ Checked t t' := by
  unfold checkTask at h
  by_cases hid : t.id = ""
  · rw [if_pos hid] at h
    cases h
  by_cases hrun : t.run = none
  · rw [if_neg hid, if_pos hrun] at h
    cases h
  rw [if_neg hid, if_neg hrun] at h
  refine ⟨hid, hrun, ?_⟩
  cases hmode : t.mode with
  | repeated =>
    rw [hmode] at h
    dsimp only at h
    by_cases hi : t.interval ≤ 0
    · rw [if_pos hi] at h
      cases h
    · rw [if_neg hi] at h
      exact Except.ok.inj h ▸ .repeated hmode (not_le.mp hi)
  | once =>
    rw [hmode] at h
    obtain rfl := Except.ok.inj h
    rw [← hmode]
    exact .once hmode
  | fixedTimes =>
    rw [hmode] at h
    dsimp only at h
    by_cases htimes : t.times ≤ 0
    · rw [if_pos htimes] at h
      cases h
    · by_cases hi : t.interval ≤ 0
      · rw [if_neg htimes, if_pos hi] at h
        cases h
      · rw [if_neg htimes, if_neg hi] at h
        exact Except.ok.inj h ▸ .fixedTimes hmode (not_le.mp htimes) (not_le.mp hi)
  | other n =>
    rw [hmode] at h
    dsimp only at h
    by_cases hi : t.interval ≤ 0
    · rw [if_pos hi] at h
      cases h
    · rw [if_neg hi] at h
      exact Except.ok.inj h ▸ .other hmode (not_le.mp hi)

/-- Why `AddTask` rejects a task at once. No node has been taken then. -/
inductive AddRejects (w : TimeWheel) : Option Task → Err → Prop where
  | isNil : AddRejects w none .invalidParam
  | check {t : Task} {err : Err} (h : checkTask t = .error err) : AddRejects w (some t) err
  | notRunning {t t' : Task} (h : checkTask t = .ok t') (hr : w.running = false) :
      AddRejects w (some t) .wheelNotRunning

/-- **What `AddTask` can do.** The second case is the reason for a case of its
own: the wheel has changed, and only its pool and counters have. -/
inductive AddResult (cfg : Config) (w : TimeWheel) (lists : ℕ → List NodeRef)
    (env : AddEnv) (task : Option Task) : Option Err × TimeWheel → Prop where
  /-- The task is rejected. -/
  | rejected {err : Err} (reason : AddRejects w task err) :
      AddResult cfg w lists env task (some err, w)
  /-- The ID is taken: a node was prepared and put back. -/
  | duplicate {t t' : Task} {n : NodeRef} {w' : TimeWheel} (task_eq : task = some t)
      (check : checkTask t = .ok t') (running : w.running = true)
      (taken : w.lookup cfg t'.id ≠ none) (inv : Inv cfg w' lists)
      (changes : ChangesOnly n w w' lists lists) (handedOut : HandedOut w lists env.node n)
      (free : Free w' lists n) (installed : Installed w w' n t') :
      AddResult cfg w lists env task (some .taskAlreadyExists, w')
  /-- The task is added, under a new context. -/
  | added {t t' : Task} {n : NodeRef} {w' : TimeWheel} {lists' : ℕ → List NodeRef} {i : ℕ}
      (task_eq : task = some t) (check : checkTask t = .ok t') (running : w.running = true)
      (new : w.lookup cfg t'.id = none) (inv : Inv cfg w' lists')
      (changes : ChangesOnly n w w' lists lists') (handedOut : HandedOut w lists env.node n)
      (used : Used cfg w' lists' n i w.nextCtx t') (installed : Installed w w' n t') :
      AddResult cfg w lists env task (none, w')

/-- Putting a free node into the pool. It must not be in there already: a node
that is put twice would be handed out twice. -/
theorem Inv.poolPut (h : Inv cfg w lists) (hf : Free w lists n) (hn : n < w.nextNode)
    (hp : n ∉ w.taskPool) :
    Inv cfg (w.poolPut n) lists ∧ ChangesOnly n w (w.poolPut n) lists lists
      ∧ Free (w.poolPut n) lists n := by
  have hc : ChangesOnly n w (w.poolPut n) lists lists :=
    ⟨fun _ _ => rfl, fun _ => rfl, fun _ _ _ _ => Iff.rfl,
      fun m hm hmem => (List.mem_cons.mp hmem).resolve_left hm, le_refl _, le_refl _, rfl⟩
  have hf' : Free (w.poolPut n) lists n := ⟨hf.not_mem, hf.no_entry⟩
  exact ⟨hc.inv h h.family (List.nodup_cons.mpr ⟨hp, h.pool_nodup⟩) (fun _ => hn) (Or.inr hf'),
    hc, hf'⟩

/-- **Linking and entering a prepared node.** It is linked in its slot, entered
in the map, put into the cache if there is one, and counted. -/
theorem Inv.linkTask (h : Inv cfg w lists) (hf : Free w lists n) (hp : Prepared w n i c t)
    (hi : i < cfg.slotNum) (hfresh : ∀ m j s, ¬ Used cfg w lists m j c s)
    (hid : w.lookup cfg t.id = none) (env : AddEnv) :
    let lists' := Function.update lists i (w.insertedList n t.priority (lists i))
    Inv cfg (w.linkTask cfg n t env) lists'
      ∧ ChangesOnly n w (w.linkTask cfg n t env) lists lists'
      ∧ Used cfg (w.linkTask cfg n t env) lists' n i c t
      ∧ ((w.linkTask cfg n t env).heap n).payload = (w.heap n).payload
      ∧ (w.linkTask cfg n t env).nextCtx = w.nextCtx := by
  have hslot : (w.heap n).slotIndex = i := congrArg (fun t => t.2.2) hp.tag
  obtain ⟨hrel, -⟩ := insertOrdered_spec h.family hf.not_mem hp.next hp.prev t.priority i
    (h.length_le i)
  obtain ⟨heap, slots, hw⟩ := hrel.frame
  have hheap : (w.linkTask cfg n t env).heap = (w.insertOrdered n t.priority i).heap := by
    unfold TimeWheel.linkTask
    rw [hslot]
    rfl
  obtain ⟨hinv, hc, hused⟩ := h.attach hf hp hi hfresh hid (w.linkTask cfg n t env) hheap
    (by unfold TimeWheel.linkTask; rw [hslot]; rfl)
    (by unfold TimeWheel.linkTask; rw [hslot, hw]; rfl)
    (by unfold TimeWheel.linkTask; rw [hslot, hw]; rfl)
    (by unfold TimeWheel.linkTask; rw [hslot, hw]; rfl)
    (by unfold TimeWheel.linkTask; rw [hslot, hw]; rfl)
    (by unfold TimeWheel.linkTask; rw [hslot, hw]; rfl)
  refine ⟨hinv, hc, hused, ?_, ?_⟩
  · rw [hheap]
    exact hrel.payload n
  · unfold TimeWheel.linkTask
    rw [hslot, hw]
    rfl

/-- **`AddTask` does one of the three.** The order of the code matters: the node
is taken before the map is looked at. -/
theorem addTask_cases (h : Inv cfg w lists) (task : Option Task) (env : AddEnv) :
    AddResult cfg w lists env task (w.addTask cfg task env) := by
  unfold addTask
  cases task with
  | none => exact .rejected .isNil
  | some t =>
    dsimp only
    cases hcheck : checkTask t with
    | error err => exact .rejected (.check hcheck)
    | ok t' =>
      dsimp only
      by_cases hrun : w.running = false
      · rw [if_pos hrun]
        exact .rejected (.notRunning hcheck hrun)
      · rw [if_neg hrun]
        have hp := prepareNode_spec h t' env
        generalize w.prepareNode cfg t' env = g at hp ⊢
        obtain ⟨n, w₁⟩ := g
        dsimp only at hp ⊢
        have hlookup : w₁.lookup cfg t'.id = w.lookup cfg t'.id := by
          unfold TimeWheel.lookup
          rw [hp.shards]
        obtain ⟨i, hi, hprep⟩ := hp.prepared
        cases hid : w₁.lookup cfg t'.id with
        | some m =>
          obtain ⟨hinv, hc, hf⟩ := hp.inv.poolPut hp.free hprep.allocated hprep.not_pooled
          refine .duplicate rfl hcheck (by simpa using hrun) ?_ hinv (hp.changes.trans hc)
            hp.handedOut hf (hp.installed.congr rfl rfl)
          rw [← hlookup, hid]
          exact Option.some_ne_none m
        | none =>
          have hfresh : ∀ m j s, ¬ Used cfg w₁ lists m j w.nextCtx s := by
            intro m j s hu
            by_cases hm : m = n
            · subst hm
              exact hp.free.not_used hu
            · exact lt_irrefl _ (hp.changes.used_before h hm hu).ctx_lt
          obtain ⟨hinv, hc, hused, hpay, hctx⟩ :=
            hp.inv.linkTask hp.free hprep hi hfresh hid env
          exact .added rfl hcheck (by simpa using hrun) (hlookup ▸ hid) hinv
            (hp.changes.trans hc) hp.handedOut hused (hp.installed.congr hpay hctx)

/-! ## Removing -/

/-- **What `RemoveTask` can do.** The store may fail to delete its row; the call
does not fail by that. -/
inductive RemoveResult (cfg : Config) (w : TimeWheel) (lists : ℕ → List NodeRef)
    (taskID : String) : Option Err × TimeWheel → Prop where
  | emptyID (h : taskID = "") : RemoveResult cfg w lists taskID (some .invalidParam, w)
  | notFound (h : taskID ≠ "") (hid : w.lookup cfg taskID = none) :
      RemoveResult cfg w lists taskID (some .taskNotFound, w)
  /-- The node of the ID is released. -/
  | removed {n : NodeRef} {i : ℕ} {c : CtxRef} {t : Task} {w' : TimeWheel}
      {lists' : ℕ → List NodeRef} (hid : taskID ≠ "") (used : Used cfg w lists n i c t)
      (id_eq : t.id = taskID) (inv : Inv cfg w' lists')
      (changes : ChangesOnly n w w' lists lists') (released : Released w' lists' n) :
      RemoveResult cfg w lists taskID (none, w')

/-- **`RemoveTask` does one of the three.** It unlinks the node from the slot
the node itself names, which is the right one. -/
theorem removeTask_cases (h : Inv cfg w lists) (taskID : String) (deleteOk : Bool) :
    RemoveResult cfg w lists taskID (w.removeTask cfg taskID deleteOk) := by
  unfold removeTask
  by_cases hempty : taskID = ""
  · rw [if_pos hempty]
    exact .emptyID hempty
  · rw [if_neg hempty]
    cases hid : w.lookup cfg taskID with
    | none => exact .notFound hempty hid
    | some n =>
      dsimp only
      obtain ⟨i, c, t, hu, rfl⟩ := h.used_of_lookup hid
      rw [hu.slotIndex_eq]
      have key : ∀ w' : TimeWheel,
          w'.heap = Function.update (w.unlink n i).heap n (clearNode ((w.unlink n i).heap n)) →
          w'.slots = (w.unlink n i).slots → w'.shards = (w.deleteEntry cfg t.id).shards →
          w'.taskPool = n :: w.taskPool → w'.nextNode = w.nextNode → w'.nextCtx = w.nextCtx →
          w'.running = w.running → RemoveResult cfg w lists t.id (none, w') := by
        intro w' hheap h₁ h₂ h₃ h₄ h₅ h₆
        obtain ⟨hinv, hc, hf⟩ := h.detach hu (Or.inr rfl) w' _ hheap h₁ h₂ h₃ h₄ h₅ h₆
        refine .removed hempty hu rfl hinv hc ⟨hf, ?_⟩
        rw [hheap, Function.update_self]
        rfl
      obtain ⟨heap, slots, hw⟩ := (w.unlink_spec n i).1.frame
      rw [hw] at key ⊢
      exact key _ rfl rfl rfl rfl rfl rfl rfl

/-- `clearTask` releases the node of the ID, if there is one. It deletes the
entry whether the node was found in a list or not, and in a well-formed wheel it
was. -/
theorem clearTask_cases (h : Inv cfg w lists) (taskID : String) :
    (w.lookup cfg taskID = none ∧ w.clearTask cfg taskID = w)
      ∨ ∃ n i c t lists', Used cfg w lists n i c t ∧ t.id = taskID
        ∧ Inv cfg (w.clearTask cfg taskID) lists'
        ∧ ChangesOnly n w (w.clearTask cfg taskID) lists lists'
        ∧ Released (w.clearTask cfg taskID) lists' n := by
  cases hid : w.lookup cfg taskID with
  | none =>
    refine Or.inl ⟨rfl, ?_⟩
    unfold clearTask
    rw [hid]
  | some n =>
    obtain ⟨i, c, t, hu, rfl⟩ := h.used_of_lookup hid
    obtain ⟨heap, slots, hw⟩ := (w.unlink_spec n i).1.frame
    -- a node in use is in a slot of the wheel
    have hslot : ¬ ((w.heap n).prev = none ∧ cfg.slotNum ≤ (w.heap n).slotIndex) := by
      rw [hu.slotIndex_eq]
      exact fun hs => absurd hs.2 (not_le.mpr hu.slot_lt)
    have hclear : w.clearTask cfg t.id
        = { w with
            heap := Function.update heap n (clearAlert (clearNode (heap n)))
            slots := slots
            shards := (w.deleteEntry cfg t.id).shards
            ctxs := (w.cancelCtx (heap n).cancel).ctxs
            taskPool := n :: w.taskPool } := by
      unfold clearTask
      rw [hid]
      dsimp only
      rw [if_neg hslot, hu.slotIndex_eq, hw]
      rfl
    rw [hclear]
    obtain ⟨hinv, hc, hf⟩ := h.detach hu (Or.inr rfl : w.prev n ≠ none ∨ i = i)
      { w with
        heap := Function.update heap n (clearAlert (clearNode (heap n)))
        slots := slots
        shards := (w.deleteEntry cfg t.id).shards
        ctxs := (w.cancelCtx (heap n).cancel).ctxs
        taskPool := n :: w.taskPool }
      (clearAlert (clearNode (heap n))) (by rw [hw]) (by rw [hw]) rfl rfl rfl rfl rfl
    refine Or.inr ⟨n, i, c, t, _, hu, rfl, hinv, hc, hf, ?_⟩
    show (Function.update heap n (clearAlert (clearNode (heap n))) n).task = none
    rw [Function.update_self]
    rfl

/-! ## Runs of calls -/

/-- The node `m` stays in use for the registration it serves, if perhaps in
another slot, or is released; and a released node stays so. This is what an
execution relies on that was collected before. -/
structure Keeps (cfg : Config) (w w' : TimeWheel) (lists lists' : ℕ → List NodeRef)
    (m : NodeRef) : Prop where
  used : ∀ i c t, Used cfg w lists m i c t →
    (∃ j, Used cfg w' lists' m j c t) ∨ Released w' lists' m
  released : Released w lists m → Released w' lists' m

/-- A change at another node keeps it, -/
theorem ChangesOnly.keeps {m : NodeRef} (h : ChangesOnly n w w' lists lists') (hm : m ≠ n) :
    Keeps cfg w w' lists lists' m :=
  ⟨fun i _ _ hu => Or.inl ⟨i, h.used hm hu⟩, h.released hm⟩

/-- and so does a change that releases the node. -/
theorem ChangesOnly.keeps_of_released {m : NodeRef} (h : ChangesOnly n w w' lists lists')
    (hr : Released w' lists' n) : Keeps cfg w w' lists lists' m := by
  by_cases hm : m = n
  · subst hm
    exact ⟨fun _ _ _ _ => Or.inr hr, fun _ => hr⟩
  · exact h.keeps hm

/-- **A call**: the invariant holds afterwards, and a node allocated before that
is not one of the nodes `given` is kept. A node that is not allocated yet may be
handed out without being named, as it is a new one. -/
structure Evolves (cfg : Config) (given : Set NodeRef) (w w' : TimeWheel)
    (lists lists' : ℕ → List NodeRef) : Prop where
  inv : Inv cfg w' lists'
  nextNode : w.nextNode ≤ w'.nextNode
  nextCtx : w.nextCtx ≤ w'.nextCtx
  running : w'.running = w.running
  keeps : ∀ m < w.nextNode, m ∉ given → Keeps cfg w w' lists lists' m

namespace Evolves

variable {given : Set NodeRef}

/-- A call that does nothing. -/
theorem refl (h : Inv cfg w lists) : Evolves cfg given w w lists lists :=
  ⟨h, le_refl _, le_refl _, rfl, fun _ _ _ => ⟨fun i _ _ hu => Or.inl ⟨i, hu⟩, id⟩⟩

/-- One after the other: what the second hands out has been given as well. -/
theorem trans (h : Evolves cfg given w w' lists lists')
    (h' : Evolves cfg given w' w'' lists' lists'') : Evolves cfg given w w'' lists lists'' where
  inv := h'.inv
  nextNode := h.nextNode.trans h'.nextNode
  nextCtx := h.nextCtx.trans h'.nextCtx
  running := h'.running.trans h.running
  keeps := fun m hm hg => by
    have h₁ := h.keeps m hm hg
    have h₂ := h'.keeps m (lt_of_lt_of_le hm h.nextNode) hg
    exact ⟨fun i c t hu => (h₁.used i c t hu).elim (fun ⟨j, hu⟩ => h₂.used j c t hu)
      (fun hr => Or.inr (h₂.released hr)), fun hr => h₂.released (h₁.released hr)⟩

/-- More nodes may be given. -/
theorem mono {given' : Set NodeRef} (h : Evolves cfg given w w' lists lists')
    (hg : given ⊆ given') : Evolves cfg given' w w' lists lists' :=
  ⟨h.inv, h.nextNode, h.nextCtx, h.running, fun m hm hn => h.keeps m hm (fun hm' => hn (hg hm'))⟩

/-- A change that releases its node. No node is handed out. -/
theorem of_released (hinv : Inv cfg w' lists') (hc : ChangesOnly n w w' lists lists')
    (hr : Released w' lists' n) : Evolves cfg given w w' lists lists' :=
  ⟨hinv, hc.nextNode, hc.nextCtx, hc.running, fun _ _ _ => hc.keeps_of_released hr⟩

/-- A change at a node that was handed out. The node was free before, so nobody
has had it for anything. -/
theorem of_handedOut {choice : Option NodeRef} (hinv : Inv cfg w' lists')
    (hc : ChangesOnly n w w' lists lists') (hn : HandedOut w lists choice n) :
    Evolves cfg {m | choice = some m} w w' lists lists' := by
  refine ⟨hinv, hc.nextNode, hc.nextCtx, hc.running, fun m hm hg => hc.keeps ?_⟩
  rintro rfl
  exact hn.source.elim (fun h => lt_irrefl _ (h ▸ hm)) (fun h => hg h.1)

/-- Writing fields that the invariant does not read. The flags and the due time
are such fields. -/
theorem of_setNode (h : Inv cfg w lists) {node : TaskSlot}
    (hnext : node.next = (w.heap n).next) (hprev : node.prev = (w.heap n).prev)
    (htag : node.tag = (w.heap n).tag) :
    Evolves cfg given w (w.setNode n node) lists lists := by
  refine ⟨h.setNode hnext hprev htag, le_refl _, le_refl _, rfl, fun m _ _ => ?_⟩
  by_cases hm : m = n
  · subst hm
    refine ⟨fun i c t hu => Or.inl ⟨i, hu.setNode htag⟩,
      fun hr => ⟨hr.toFree.setNode node, ?_⟩⟩
    rw [heap_setNode_self]
    exact (congrArg Prod.fst htag).trans hr.task
  · exact (changesOnly_setNode w n node lists).keeps hm

/-- Writing other parts of the wheel. The cache and the contexts are. -/
theorem of_sameCore (h : Inv cfg w lists) (hcore : SameCore w w') :
    Evolves cfg given w w' lists lists :=
  ⟨hcore.inv h, hcore.nextNode.ge, hcore.nextCtx.ge, hcore.running, fun _ _ _ =>
    ⟨fun i _ _ hu => Or.inl ⟨i, hcore.used hu⟩,
      fun hr => ⟨hcore.free hr.toFree, hcore.heap ▸ hr.task⟩⟩⟩

/-- A change that leaves its node in use for the same registration, or releases
it. An execution that ends does one of the two. -/
theorem of_kept (hinv : Inv cfg w' lists') (hc : ChangesOnly n w w' lists lists')
    (hu : Used cfg w lists n i c t)
    (hkept : (∃ j, Used cfg w' lists' n j c t) ∨ Released w' lists' n) :
    Evolves cfg given w w' lists lists' := by
  refine ⟨hinv, hc.nextNode, hc.nextCtx, hc.running, fun m _ _ => ?_⟩
  by_cases hm : m = n
  · subst hm
    refine ⟨fun k d s hu' => ?_, fun hr => absurd hu hr.toFree.not_used⟩
    obtain ⟨rfl, rfl, rfl⟩ := hu.unique hu'
    exact hkept
  · exact hc.keeps hm

end Evolves

/-- `AddTask` hands out one node, -/
theorem addTask_evolves (h : Inv cfg w lists) (task : Option Task) (env : AddEnv) :
    ∃ lists', Evolves cfg {m | env.node = some m} w (w.addTask cfg task env).2 lists lists' := by
  have hadd := addTask_cases h task env
  generalize w.addTask cfg task env = r at hadd ⊢
  cases hadd with
  | rejected reason => exact ⟨lists, .refl h⟩
  | duplicate task_eq check running taken inv changes handedOut free installed =>
    exact ⟨lists, .of_handedOut inv changes handedOut⟩
  | added task_eq check running new inv changes handedOut used installed =>
    exact ⟨_, .of_handedOut inv changes handedOut⟩

/-- `RemoveTask` none. -/
theorem removeTask_evolves (h : Inv cfg w lists) (taskID : String) (deleteOk : Bool) :
    ∃ lists', Evolves cfg ∅ w (w.removeTask cfg taskID deleteOk).2 lists lists' := by
  have hremove := removeTask_cases h taskID deleteOk
  generalize w.removeTask cfg taskID deleteOk = r at hremove ⊢
  cases hremove with
  | emptyID hid => exact ⟨lists, .refl h⟩
  | notFound hne hid => exact ⟨lists, .refl h⟩
  | removed hid used id_eq inv changes released => exact ⟨_, .of_released inv changes released⟩

/-- **The phases of `UpdateTask`**: it leaves the wheel it was called on, or the
one after its removal, the addition of its task after that, or, when that is
refused, the addition of the task of the node it has removed. `Q` holds while
the ID is free. So an invariant of the wheel is shown of `UpdateTask` without
looking at it again. -/
theorem updateTask_phases (P Q : TimeWheel → Prop) (w : TimeWheel) (task : Option Task)
    (env : UpdateEnv) (hw : P w) (hfree : ∀ w', Q w' → P w')
    (hremove : ∀ t n, task = some t → t.id ≠ "" → w.lookup cfg t.id = some n →
      Q (w.removeTask cfg t.id env.deleteOk).2)
    (hadd : ∀ w' t, task = some t → Q w' → P (w'.addTask cfg (some t) env.add).2
      ∧ ((w'.addTask cfg (some t) env.add).1 ≠ none → Q (w'.addTask cfg (some t) env.add).2))
    (hback : ∀ w' t n old, task = some t → w.lookup cfg t.id = some n →
      (w.heap n).task = some old → Q w' → P (w'.addTask cfg (some old) env.rollback).2) :
    P (w.updateTask cfg task env).2 := by
  unfold updateTask
  cases task with
  | none => exact hw
  | some t =>
    dsimp only
    split_ifs with hid
    · exact hw
    · exact hw
    · exact hw
    · cases hn : w.lookup cfg t.id with
      | none => exact hw
      | some n =>
        have h₁ := hremove t n rfl hid hn
        dsimp only
        generalize w.removeTask cfg t.id env.deleteOk = r₁ at h₁ ⊢
        obtain ⟨_ | err, w₁⟩ := r₁
        · have h₂ := hadd w₁ t rfl h₁
          dsimp only
          generalize w₁.addTask cfg (some t) env.add = r₂ at h₂ ⊢
          obtain ⟨_ | err, w₂⟩ := r₂
          · exact h₂.1
          · cases hold : (w.heap n).task with
            | none => exact h₂.1
            | some old =>
              have h₃ := hback w₂ t n old rfl hn hold (h₂.2 (Option.some_ne_none err))
              dsimp only
              generalize w₂.addTask cfg (some old) env.rollback = r₃ at h₃ ⊢
              obtain ⟨_ | err', w₃⟩ := r₃
              · exact h₃
              · exact h₃
        · exact hfree w₁ h₁

/-- **The wheel `UpdateTask` leaves** has what a removal keeps, and the addition
of its task and of a task of the map. For most properties this weaker form is
enough. -/
theorem updateTask_wheel (P : TimeWheel → Prop) (w : TimeWheel) (task : Option Task)
    (env : UpdateEnv) (hw : P w)
    (hremove : ∀ id, P (w.removeTask cfg id env.deleteOk).2)
    (hadd : ∀ w' t, task = some t → P w' → P (w'.addTask cfg (some t) env.add).2)
    (hback : ∀ w' id n t, w.lookup cfg id = some n → (w.heap n).task = some t → P w' →
      P (w'.addTask cfg (some t) env.rollback).2) :
    P (w.updateTask cfg task env).2 :=
  updateTask_phases P P w task env hw (fun _ h => h) (fun t _ _ _ _ => hremove t.id)
    (fun w' t ht h => ⟨hadd w' t ht h, fun _ => hadd w' t ht h⟩)
    (fun w' t n old _ hn hold h => hback w' t.id n old hn hold h)

/-- `UpdateTask` hands out two nodes at most: one for the new task, and one for
the old task when the new one is refused. -/
theorem updateTask_evolves (h : Inv cfg w lists) (task : Option Task) (env : UpdateEnv) :
    ∃ lists', Evolves cfg {m | env.add.node = some m ∨ env.rollback.node = some m} w
      (w.updateTask cfg task env).2 lists lists' := by
  let given : Set NodeRef := {m | env.add.node = some m ∨ env.rollback.node = some m}
  refine updateTask_wheel (fun w' => ∃ lists', Evolves cfg given w w' lists lists') w task env
    ⟨lists, .refl h⟩ (fun id => ?_) (fun w' t _ h' => ?_) (fun w' _ _ t _ _ h' => ?_)
  · obtain ⟨lists₁, h₁⟩ := removeTask_evolves h id env.deleteOk
    exact ⟨lists₁, h₁.mono (Set.empty_subset _)⟩
  · obtain ⟨lists₁, h₁⟩ := h'
    obtain ⟨lists₂, h₂⟩ := addTask_evolves h₁.inv (some t) env.add
    exact ⟨lists₂, h₁.trans (h₂.mono (fun m hm => Or.inl hm))⟩
  · obtain ⟨lists₁, h₁⟩ := h'
    obtain ⟨lists₂, h₂⟩ := addTask_evolves h₁.inv (some t) env.rollback
    exact ⟨lists₂, h₁.trans (h₂.mono (fun m hm => Or.inr hm))⟩

/-- The wheel `PauseTask` leaves is the one it was called on, or the one with a
node paused. Whatever both wheels have, `PauseTask` keeps. -/
theorem pauseTask_wheel (P : TimeWheel → Prop) (w : TimeWheel) (taskID : String) (hw : P w)
    (hset : ∀ n, P (w.setNode n { w.heap n with paused := true })) :
    P (w.pauseTask cfg taskID).2 := by
  unfold pauseTask
  split_ifs
  · exact hw
  · cases w.lookup cfg taskID with
    | none => exact hw
    | some n =>
      dsimp only
      split_ifs
      · exact hw
      · exact hset n

/-- The wheel `ResumeTask` leaves is the one it was called on, or the one with a
node resumed. The due time is written with the flag, and the slot is not. -/
theorem resumeTask_wheel (P : TimeWheel → Prop) (w : TimeWheel) (taskID : String) (now : Time)
    (hw : P w)
    (hset : ∀ n runAt, P (w.setNode n { w.heap n with paused := false, runAt := runAt })) :
    P (w.resumeTask cfg taskID now).2 := by
  unfold resumeTask
  split_ifs
  · exact hw
  · cases w.lookup cfg taskID with
    | none => exact hw
    | some n =>
      dsimp only
      split_ifs
      · exact hw
      · exact hset n _

/-- `PauseTask` hands out no node, -/
theorem pauseTask_evolves (h : Inv cfg w lists) (taskID : String) :
    Evolves cfg ∅ w (w.pauseTask cfg taskID).2 lists lists :=
  pauseTask_wheel (fun w' => Evolves cfg ∅ w w' lists lists) w taskID (.refl h)
    (fun _ => .of_setNode h rfl rfl rfl)

/-- `ResumeTask` none, -/
theorem resumeTask_evolves (h : Inv cfg w lists) (taskID : String) (now : Time) :
    Evolves cfg ∅ w (w.resumeTask cfg taskID now).2 lists lists :=
  resumeTask_wheel (fun w' => Evolves cfg ∅ w w' lists lists) w taskID now (.refl h)
    (fun _ _ => .of_setNode h rfl rfl rfl)

/-- and `clearTask` releases one. -/
theorem clearTask_evolves (h : Inv cfg w lists) (taskID : String) :
    ∃ lists', Evolves cfg ∅ w (w.clearTask cfg taskID) lists lists' := by
  rcases clearTask_cases h taskID with ⟨-, heq⟩ | ⟨n, i, c, t, lists', -, -, hinv, hc, hr⟩
  · rw [heq]
    exact ⟨lists, .refl h⟩
  · exact ⟨lists', .of_released hinv hc hr⟩

/-- **The wheel `ClearAllTasks` leaves** is reached by clearing one entry after
the other, and replacing the cache. The order of the entries is that of a Go
map, and so any. -/
theorem clearAllTasks_wheel (P : TimeWheel → Prop) (w : TimeWheel) (order : List String)
    (now : Time) (hw : P w) (hclear : ∀ w' id, P w' → P (w'.clearTask cfg id))
    (hcache : ∀ w' f, P w' → P { w' with taskCache := w'.taskCache.map f }) :
    P (w.clearAllTasks cfg order now).2 := by
  have hfold : ∀ ids : List String, ∀ w', P w' →
      P (ids.foldl (fun w id => w.clearTask cfg id) w') := by
    intro ids
    induction ids with
    | nil => exact fun w' h' => h'
    | cons id ids ih => exact fun w' h' => ih _ (hclear w' id h')
  exact hcache _ _ (hfold (order ++ w.allIDs cfg) w hw)

/-- `ClearAllTasks` releases all there are. -/
theorem clearAllTasks_evolves (h : Inv cfg w lists) (order : List String) (now : Time) :
    ∃ lists', Evolves cfg ∅ w (w.clearAllTasks cfg order now).2 lists lists' := by
  refine clearAllTasks_wheel (fun w' => ∃ lists', Evolves cfg ∅ w w' lists lists') w order now
    ⟨lists, .refl h⟩ (fun w' id h' => ?_) (fun w' f h' => ?_)
  · obtain ⟨lists₁, h₁⟩ := h'
    obtain ⟨lists₂, h₂⟩ := clearTask_evolves h₁.inv id
    exact ⟨lists₂, h₁.trans h₂⟩
  · obtain ⟨lists₁, h₁⟩ := h'
    exact ⟨lists₁, h₁.trans (.of_sameCore h₁.inv ⟨rfl, rfl, rfl, rfl, rfl, rfl, rfl⟩)⟩

/-! ## Executions -/

/-- An execution notes its result on the node it holds, -/
theorem updateTaskResult_evolves (h : Inv cfg w lists) (n : NodeRef) (result : AlarmResult)
    (err : Option Err) : Evolves cfg ∅ w (w.updateTaskResult n result err) lists lists :=
  let node : TaskSlot :=
    { w.heap n with executed := (w.heap n).executed + 1, lastResult := result }
  have hset : Evolves cfg ∅ w (w.setNode n node) lists lists := .of_setNode h rfl rfl rfl
  hset.trans (.of_sameCore hset.inv (updateTaskResult_core w n result err))

/-- and its end leaves that node in use, or released, if it is unlinked from its
own list. -/
theorem lockedSection_evolves (h : Inv cfg w lists) (hu : Used cfg w lists n i c t)
    (result : AlarmResult) (now : Time) {slot : ℕ}
    (hown : UnlinksOwnList cfg w n t.copyTaskInfo now slot) :
    ∃ lists', Evolves cfg ∅ w (w.lockedSection cfg n t.copyTaskInfo result now slot)
        lists lists'
      ∧ ChangesOnly n w (w.lockedSection cfg n t.copyTaskInfo result now slot)
        lists lists' := by
  obtain ⟨lists', hinv, hc, hkept⟩ := h.lockedSection hu result now hown
  exact ⟨lists', .of_kept hinv hc hu hkept, hc⟩

end Timewheel
