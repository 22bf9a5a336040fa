import Timewheel.Effects
import Timewheel.Mirror

/-!
# Starting and stopping

`Stop` cancels the context of the wheel, waits for the executions, and puts a
new context in its place; the tasks stay registered. But the context of a task
is made from the wheel's when the task is added, and a child of a cancelled
context stays cancelled: after the next `Start` such a task is registered and
due like any other, and its context is done.

`runnable_iff` says that this is all that can go wrong: in serial use the
tasks of a running wheel have contexts that are not done, exactly if no stopped
wheel that still holds a task is started again.

The invariant has two halves, one for a running wheel and one for a stopped
wheel. While the wheel runs, the context of every task is a child of the
wheel's own, and neither is cancelled. While it is stopped, the context of
every task is a child of one that has been cancelled. `Stop` turns the first
into the second; nothing turns the second into the first, so a wheel that is
started again has to be empty.
-/

namespace Timewheel

open DList TimeWheel Scheduler

variable {cfg : Config} {s s' : Scheduler} {w w' : TimeWheel}
  {lists lists' : ℕ → List NodeRef} {n : NodeRef} {c : CtxRef} {id : String}

/-! ## The system -/

/-- `Stop`, once the executions have ended, as far as the wheel itself is
concerned: its pools are another matter. The tasks are left where they are. -/
def TimeWheel.stop (w : TimeWheel) : TimeWheel :=
  if w.running then
    { w with
      running := false
      ctx := w.nextCtx
      ctxs := Function.update
        (Function.update w.ctxs w.ctx { w.ctxs w.ctx with cancelled := true })
        w.nextCtx ⟨none, false⟩
      nextCtx := w.nextCtx + 1 }
  else w

/-- A step of the wheel and its executions, or of their lifecycle. `Stop` and
`Start` may come in any order, also twice in a row. -/
inductive LifecycleAction where
  | start (now : Time)
  | stop
  | act (a : Action)

/-- **The step function.** `Stop` waits until every execution has ended; no
loop ticks while the wheel is stopped. -/
def lifecycleStep (cfg : Config) (s : Scheduler) : LifecycleAction → Option Scheduler
  | .start now => (s.wheel.start cfg now).map (fun w => { s with wheel := w })
  | .stop => if s.execs = [] then some { s with wheel := s.wheel.stop } else none
  | .act a => if a.isTick && !s.wheel.running then none else step cfg s a

/-- A serial step: a call or a tick finds no execution under way. `Stop` needs
no condition, since it waits. -/
def SerialLifecycle (s : Scheduler) : LifecycleAction → Prop
  | .start _ => s.execs = []
  | .stop => True
  | .act a => Serial s a

instance (s : Scheduler) (a : LifecycleAction) : Decidable (SerialLifecycle s a) :=
  match a with
  | .start _ => inferInstanceAs (Decidable (s.execs = []))
  | .stop => isTrue trivial
  | .act a => inferInstanceAs (Decidable (Serial s a))

/-- **The tasks of a running wheel can run**: their contexts are not done. Of a
stopped wheel nothing is asked: it executes nothing. -/
def TimeWheel.Runnable (cfg : Config) (w : TimeWheel) : Prop :=
  w.running = true → ∀ id n, w.lookup cfg id = some n →
    ∃ c, (w.heap n).ctx = some c ∧ w.ctxDone c = false

/-- **A stopped wheel is started again only when it is empty.** A second `Start`
of a running wheel is harmless. -/
def StartsEmpty (cfg : Config) (s : Scheduler) : LifecycleAction → Prop
  | .start _ => s.wheel.running = false → s.wheel.allIDs cfg = []
  | _ => True

instance (cfg : Config) (s : Scheduler) (a : LifecycleAction) : Decidable (StartsEmpty cfg s a) :=
  match a with
  | .start _ => inferInstanceAs (Decidable (_ → _))
  | .stop => isTrue trivial
  | .act _ => isTrue trivial

/-- `runTask` invokes the function of a task that can run. So the property is
about what the user sees: a task that is registered and due is called. -/
theorem runTaskCheck_of_runnable (h : w.Runnable cfg) (hrun : w.running = true) {id : String}
    (hid : w.lookup cfg id = some n) (info : TaskInfo) : w.runTaskCheck n info = none := by
  obtain ⟨c, hc, hdone⟩ := h hrun id n hid
  unfold runTaskCheck
  rw [hc]
  dsimp only
  rw [if_neg (fun hd => Bool.false_ne_true (hdone.symm.trans hd.2))]

/-! ## Contexts -/

/-- The cancel function of a node is that of its context. `prepareNode` writes
the two together, and releasing a node clears both. -/
def CtxLinked (w : TimeWheel) : Prop := ∀ n, (w.heap n).cancel = (w.heap n).ctx

/-- A node that is written keeps the two together if what is written does. -/
theorem CtxLinked.setNode (h : CtxLinked w) {node : TaskSlot} (hnode : node.cancel = node.ctx) :
    CtxLinked (w.setNode n node) := by
  intro m
  by_cases hm : m = n
  · subst hm
    rw [heap_setNode_self]
    exact hnode
  · rw [heap_setNode_of_ne hm]
    exact h m

/-- Pointers do not matter, -/
theorem CtxLinked.relinked (h : CtxLinked w) (hrel : Relinked w w') : CtxLinked w' := by
  intro n
  have hpay := hrel.payload n
  show (w'.heap n).payload.cancel = (w'.heap n).payload.ctx
  rw [hpay]
  exact h n

/-- and other parts of the wheel do not. -/
theorem CtxLinked.congr (h : CtxLinked w) (hheap : w'.heap = w.heap) : CtxLinked w' := by
  intro n
  rw [hheap]
  exact h n

/-- **The context of a registered task**: a child of the wheel's while the wheel
is running, and a child of a cancelled one while it is not. `ne` keeps it apart
from the context of the wheel itself, which `Stop` cancels. -/
structure CtxEntry (w : TimeWheel) (c : CtxRef) : Prop where
  ne : c ≠ w.ctx
  running : w.running = true → w.ctxs c = ⟨some w.ctx, false⟩
  stopped : w.running = false →
    ∃ p, (w.ctxs c).parent = some p ∧ (w.ctxs p).cancelled = true

/-- The invariant of the contexts. The context of the wheel is never cancelled
as long as it is its context: `Stop` puts a new one in its place at once. -/
structure CtxSound (cfg : Config) (w : TimeWheel) (lists : ℕ → List NodeRef) : Prop where
  inv : Inv cfg w lists
  linked : CtxLinked w
  root_lt : w.ctx < w.nextCtx
  root : w.ctxs w.ctx = ⟨none, false⟩
  entry : ∀ n i c t, Used cfg w lists n i c t → CtxEntry w c

/-- The invariant is about runs of a stopped wheel too, but what is claimed is
about the running one. A context is done if it, or its parent, has been
cancelled. -/
theorem CtxSound.runnable (h : CtxSound cfg w lists) : w.Runnable cfg := by
  intro hrun id n hid
  obtain ⟨i, c, t, hu, -⟩ := h.inv.used_of_lookup hid
  refine ⟨c, hu.ctx_eq, ?_⟩
  unfold ctxDone
  rw [(h.entry n i c t hu).running hrun]
  show (false || (w.ctxs w.ctx).cancelled) = false
  rw [h.root]
  rfl

/-- **A change at one node.** The contexts of the other nodes have to stay as
they are, and so does that of the wheel. This is what each operation is reduced
to. -/
theorem CtxSound.of_changesOnly (h : CtxSound cfg w lists) (hinv : Inv cfg w' lists')
    (hc : ChangesOnly n w w' lists lists') (hlinked : CtxLinked w') (hctx : w'.ctx = w.ctx)
    (hroot : w'.ctxs w.ctx = w.ctxs w.ctx)
    (hother : ∀ m i c t, m ≠ n → Used cfg w lists m i c t → CtxEntry w' c)
    (hself : ∀ i c t, Used cfg w' lists' n i c t → CtxEntry w' c) : CtxSound cfg w' lists' where
  inv := hinv
  linked := hlinked
  root_lt := hctx ▸ lt_of_lt_of_le h.root_lt hc.nextCtx
  root := by rw [hctx, hroot, h.root]
  entry := fun m i c t hu => by
    by_cases hm : m = n
    · subst hm
      exact hself i c t hu
    · exact hother m i c t hm (hc.used_before h.inv hm hu)

/-- Nothing else of the wheel is looked at. -/
theorem CtxEntry.congr (h : CtxEntry w c) (hctx : w'.ctx = w.ctx) (hctxs : w'.ctxs = w.ctxs)
    (hrun : w'.running = w.running) : CtxEntry w' c := by
  obtain ⟨hne, hrunning, hstopped⟩ := h
  refine ⟨hctx ▸ hne, fun hr => ?_, fun hr => ?_⟩
  · rw [hctxs, hctx]
    exact hrunning (hrun.symm.trans hr)
  · rw [hctxs]
    exact hstopped (hrun.symm.trans hr)

/-- A change that does not reach the contexts. Pausing, resuming, noting a
result and rescheduling are such changes. -/
theorem CtxSound.of_sameCtxs (h : CtxSound cfg w lists) (hinv : Inv cfg w' lists')
    (hc : ChangesOnly n w w' lists lists') (hlinked : CtxLinked w') (hctx : w'.ctx = w.ctx)
    (hctxs : w'.ctxs = w.ctxs)
    (hself : ∀ i c t, Used cfg w' lists' n i c t → ∃ j s, Used cfg w lists n j c s) :
    CtxSound cfg w' lists' :=
  h.of_changesOnly hinv hc hlinked hctx (by rw [hctxs])
    (fun m i c t _ hu => (h.entry m i c t hu).congr hctx hctxs hc.running)
    (fun i c t hu => by
      obtain ⟨j, s, hu⟩ := hself i c t hu
      exact (h.entry n j c s hu).congr hctx hctxs hc.running)

/-- Cancelling a context leaves the entries of others. No two tasks have the
same context, so cancelling one leaves the others as they are. -/
theorem CtxEntry.cancelCtx {d : CtxRef} (h : CtxEntry w c) (hne : c ≠ d)
    (hctx : w'.ctx = w.ctx) (hrun : w'.running = w.running)
    (hctxs : w'.ctxs = (w.cancelCtx (some d)).ctxs) : CtxEntry w' c := by
  have hself : w'.ctxs c = w.ctxs c := by
    rw [hctxs]
    exact Function.update_of_ne hne _ _
  obtain ⟨hroot, hrunning, hstopped⟩ := h
  refine ⟨hctx ▸ hroot, fun hr => ?_, fun hr => ?_⟩
  · rw [hself, hctx]
    exact hrunning (hrun.symm.trans hr)
  · obtain ⟨p, hp, hcancelled⟩ := hstopped (hrun.symm.trans hr)
    refine ⟨p, hself ▸ hp, ?_⟩
    rw [hctxs]
    show (Function.update w.ctxs d { w.ctxs d with cancelled := true } p).cancelled = true
    by_cases hpd : p = d
    · subst hpd
      rw [Function.update_self]
    · rw [Function.update_of_ne hpd]
      exact hcancelled

/-- **Releasing a node** cancels its context. The node is not in use any more,
so nothing is asked of its context. -/
theorem CtxSound.of_released {i : ℕ} {t : Task} (h : CtxSound cfg w lists)
    (hu : Used cfg w lists n i c t) (hinv : Inv cfg w' lists')
    (hc : ChangesOnly n w w' lists lists') (hrel : Released w' lists' n) (hlinked : CtxLinked w')
    (hctx : w'.ctx = w.ctx) (hctxs : w'.ctxs = (w.cancelCtx (w.heap n).cancel).ctxs) :
    CtxSound cfg w' lists' := by
  rw [h.linked n, hu.ctx_eq] at hctxs
  refine h.of_changesOnly hinv hc hlinked hctx ?_ (fun m j d s hm hu' => ?_)
    (fun j d s hu' => absurd hu' hrel.toFree.not_used)
  · rw [hctxs]
    exact Function.update_of_ne (h.entry n i c t hu).ne.symm _ _
  · refine (h.entry m j d s hu').cancelCtx ?_ hctx hc.running hctxs
    rintro rfl
    exact hm (h.inv.ctx_inj hu' hu)

/-! ## The calls -/

/-- What preparing a node does to the contexts. A child of the wheel's context
is made, under the next number. -/
theorem prepareNode_ctxs (w : TimeWheel) (t : Task) (env : AddEnv) :
    (w.prepareNode cfg t env).2.ctxs = Function.update w.ctxs w.nextCtx ⟨some w.ctx, false⟩
      ∧ (w.prepareNode cfg t env).2.ctx = w.ctx := by
  unfold prepareNode poolGet
  cases env.node with
  | none => exact ⟨rfl, rfl⟩
  | some n =>
    dsimp only
    split_ifs
    · exact ⟨rfl, rfl⟩
    · exact ⟨rfl, rfl⟩

/-- A node from the pool has no context, or that of a task that was refused, with its
cancel function. -/
theorem poolGet_linked (h : CtxLinked w) (choice : Option NodeRef) :
    CtxLinked (w.poolGet choice).2 := by
  unfold poolGet
  cases choice with
  | none => exact (h.setNode rfl).congr rfl
  | some n =>
    dsimp only
    split_ifs
    · exact h.congr rfl
    · exact (h.setNode rfl).congr rfl

/-- What is written is the new context with its cancel function. -/
theorem prepareNode_linked (h : CtxLinked w) (t : Task) (env : AddEnv) :
    CtxLinked (w.prepareNode cfg t env).2 := by
  have hpool := poolGet_linked h env.node
  unfold prepareNode
  generalize w.poolGet env.node = g at hpool ⊢
  obtain ⟨n, w₁⟩ := g
  exact (hpool.congr (show (w₁.withCancel).2.heap = w₁.heap from rfl)).setNode rfl

/-- What `AddTask` does to the contexts. An `AddTask` that finds its ID taken
has made a context all the same, which nobody cancels. -/
theorem addTask_ctxs (h : CtxLinked w) (task : Option Task) (env : AddEnv) :
    CtxLinked (w.addTask cfg task env).2 ∧ (w.addTask cfg task env).2.ctx = w.ctx
      ∧ ((w.addTask cfg task env).2 = w ∨ (w.addTask cfg task env).2.ctxs
        = Function.update w.ctxs w.nextCtx ⟨some w.ctx, false⟩) := by
  unfold addTask
  cases task with
  | none => exact ⟨h, rfl, Or.inl rfl⟩
  | some t =>
    dsimp only
    cases checkTask t with
    | error err => exact ⟨h, rfl, Or.inl rfl⟩
    | ok t' =>
      dsimp only
      split_ifs
      · exact ⟨h, rfl, Or.inl rfl⟩
      · have hlinked := @prepareNode_linked cfg w h t' env
        have hctxs := @prepareNode_ctxs cfg w t' env
        generalize w.prepareNode cfg t' env = g at hlinked hctxs ⊢
        obtain ⟨n, w₁⟩ := g
        dsimp only at hlinked hctxs ⊢
        cases w₁.lookup cfg t'.id with
        | some m => exact ⟨hlinked.congr rfl, hctxs.2, Or.inr hctxs.1⟩
        | none =>
          have hrel := relinked_insertOrdered w₁ n t'.priority (w₁.heap n).slotIndex
          have hheap : (w₁.linkTask cfg n t' env).heap
              = (w₁.insertOrdered n t'.priority (w₁.heap n).slotIndex).heap := rfl
          refine ⟨(hlinked.relinked hrel).congr hheap, ?_, Or.inr ?_⟩
          · obtain ⟨heap, slots, hw⟩ := hrel.frame
            unfold linkTask
            rw [hw, ← hctxs.2]
            rfl
          · obtain ⟨heap, slots, hw⟩ := hrel.frame
            unfold linkTask
            rw [hw, ← hctxs.1]
            rfl

/-- The context of a task that has just been added to a running wheel. It is as
it should be. -/
theorem ctxEntry_of_running (hrun : w.running = true) (hne : c ≠ w.ctx)
    (hc : w.ctxs c = ⟨some w.ctx, false⟩) : CtxEntry w c :=
  ⟨hne, fun _ => hc, fun hr => (nomatch hrun.symm.trans hr)⟩

/-- `AddTask` of a wheel that is not running is refused, so a fresh context
always belongs to a running wheel. -/
theorem CtxSound.addTask (h : CtxSound cfg w lists) (task : Option Task) (env : AddEnv) :
    ∃ lists', CtxSound cfg (w.addTask cfg task env).2 lists' := by
  have hadd := addTask_cases h.inv task env
  obtain ⟨hlinked, hctx, hctxs⟩ := @addTask_ctxs cfg w h.linked task env
  generalize w.addTask cfg task env = r at hadd hlinked hctx hctxs
  -- in a running wheel only the new context is written
  have key : ∀ {w' : TimeWheel}, w'.ctx = w.ctx → w.running = true → w'.running = w.running →
      w'.ctxs = Function.update w.ctxs w.nextCtx ⟨some w.ctx, false⟩ →
      w'.ctxs w.ctx = w.ctxs w.ctx
        ∧ (∀ m i c t, Used cfg w lists m i c t → CtxEntry w' c) ∧ CtxEntry w' w.nextCtx := by
    intro w' hctx hrun hrun' hctxs
    have hself : w'.ctxs w.nextCtx = ⟨some w.ctx, false⟩ := by
      rw [hctxs, Function.update_self]
    have hold : ∀ d, d ≠ w.nextCtx → w'.ctxs d = w.ctxs d := fun d hd => by
      rw [hctxs, Function.update_of_ne hd]
    refine ⟨hold _ h.root_lt.ne, fun m i c t hu => ?_, ?_⟩
    · refine ctxEntry_of_running (hrun'.trans hrun) (hctx ▸ (h.entry m i c t hu).ne) ?_
      rw [hold c hu.ctx_lt.ne, hctx]
      exact (h.entry m i c t hu).running hrun
    · exact ctxEntry_of_running (hrun'.trans hrun) (hctx ▸ h.root_lt.ne') (by rw [hself, hctx])
  cases hadd with
  | rejected reason => exact ⟨lists, h⟩
  | duplicate task_eq check running taken inv changes handedOut free installed =>
    obtain hsame | hctxs := hctxs
    · exact absurd installed.nextCtx (hsame ▸ lt_irrefl _)
    obtain ⟨hroot, hother, -⟩ := key hctx running changes.running hctxs
    exact ⟨lists, h.of_changesOnly inv changes hlinked hctx hroot
      (fun m i c t _ hu => hother m i c t hu) (fun i c t hu => absurd hu free.not_used)⟩
  | @added t t' n w' lists' i task_eq check running new inv changes handedOut used installed =>
    obtain hsame | hctxs := hctxs
    · exact absurd installed.nextCtx (hsame ▸ lt_irrefl _)
    obtain ⟨hroot, hother, hnew⟩ := key hctx running changes.running hctxs
    refine ⟨lists', h.of_changesOnly inv changes hlinked hctx hroot
      (fun m i c t _ hu => hother m i c t hu) (fun j c s hu => ?_)⟩
    obtain ⟨-, rfl, -⟩ := used.unique hu
    exact hnew

/-- What `RemoveTask` does to the contexts. It cancels that of the node, if the
ID is found. -/
theorem removeTask_ctxs (h : CtxLinked w) (id : String) (deleteOk : Bool) :
    CtxLinked (w.removeTask cfg id deleteOk).2 ∧ (w.removeTask cfg id deleteOk).2.ctx = w.ctx
      ∧ ∀ n, id ≠ "" → w.lookup cfg id = some n → (w.removeTask cfg id deleteOk).2.ctxs
        = (w.cancelCtx (w.heap n).cancel).ctxs := by
  unfold removeTask
  by_cases hid : id = ""
  · rw [if_pos hid]
    exact ⟨h, rfl, fun _ hne => absurd hid hne⟩
  · rw [if_neg hid]
    cases hn : w.lookup cfg id with
    | none => exact ⟨h, rfl, fun _ _ hn' => (nomatch hn')⟩
    | some n =>
      have hrel := (w.unlink_spec n (w.heap n).slotIndex).1
      have hlinked := h.relinked hrel
      have hcancel : ((w.unlink n (w.heap n).slotIndex).heap n).cancel = (w.heap n).cancel := by
        show ((w.unlink n (w.heap n).slotIndex).heap n).payload.cancel = _
        rw [hrel.payload n]
        rfl
      obtain ⟨heap, slots, hw⟩ := hrel.frame
      dsimp only
      rw [hw] at hlinked hcancel ⊢
      have hclear : CtxLinked (setNode { w with heap := heap, slots := slots } n
          (clearNode (heap n))) := hlinked.setNode rfl
      refine ⟨hclear.congr rfl, rfl, fun m _ hm => ?_⟩
      obtain rfl := Option.some.inj hm
      rw [← hcancel]
      rfl

/-- So the others stay in order. -/
theorem CtxSound.removeTask (h : CtxSound cfg w lists) (id : String) (deleteOk : Bool) :
    ∃ lists', CtxSound cfg (w.removeTask cfg id deleteOk).2 lists' := by
  have hremove := removeTask_cases h.inv id deleteOk
  obtain ⟨hlinked, hctx, hctxs⟩ := @removeTask_ctxs cfg w h.linked id deleteOk
  generalize w.removeTask cfg id deleteOk = r at hremove hlinked hctx hctxs ⊢
  cases hremove with
  | emptyID hid => exact ⟨lists, h⟩
  | notFound hne hid => exact ⟨lists, h⟩
  | removed hid used id_eq inv changes released =>
    exact ⟨_, h.of_released used inv changes released hlinked hctx
      (hctxs _ hid (id_eq ▸ used.lookup))⟩

/-- Writing fields other than the contexts. The lists stay as they are. -/
theorem CtxSound.setNode (h : CtxSound cfg w lists) {node : TaskSlot}
    (hnext : node.next = (w.heap n).next) (hprev : node.prev = (w.heap n).prev)
    (htag : node.tag = (w.heap n).tag) (hcancel : node.cancel = node.ctx) :
    CtxSound cfg (w.setNode n node) lists := by
  refine h.of_sameCtxs (h.inv.setNode hnext hprev htag) (changesOnly_setNode w n node lists)
    (h.linked.setNode hcancel) rfl rfl (fun i c t hu => ?_)
  rcases h.inv.node n with ⟨j, d, s, hu'⟩ | hf
  · obtain ⟨-, rfl, -⟩ := (hu'.setNode htag).unique hu
    exact ⟨j, s, hu'⟩
  · exact absurd hu (hf.setNode node).not_used

/-- Writing other parts of the wheel. The cache and the metrics are such parts. -/
theorem CtxSound.congr (h : CtxSound cfg w lists) (hcore : SameCore w w') (hctx : w'.ctx = w.ctx)
    (hctxs : w'.ctxs = w.ctxs) : CtxSound cfg w' lists where
  inv := hcore.inv h.inv
  linked := h.linked.congr hcore.heap
  root_lt := hctx ▸ hcore.nextCtx ▸ h.root_lt
  root := by rw [hctx, hctxs, h.root]
  entry := fun n i c t hu => by
    have hback : SameCore w' w := ⟨hcore.heap.symm, hcore.slots.symm, hcore.shards.symm,
      hcore.taskPool.symm, hcore.nextNode.symm, hcore.nextCtx.symm, hcore.running.symm⟩
    exact (h.entry n i c t (hback.used hu)).congr hctx hctxs hcore.running

/-- What `clearTask` does to the contexts. The same as `RemoveTask`. -/
theorem clearTask_ctxs (h : CtxLinked w) (hn : w.lookup cfg id = some n) :
    CtxLinked (w.clearTask cfg id) ∧ (w.clearTask cfg id).ctx = w.ctx
      ∧ (w.clearTask cfg id).ctxs = (w.cancelCtx (w.heap n).cancel).ctxs := by
  obtain ⟨w₁, hrel, hclear⟩ := clearTask_frame hn
  have hcancel : (w₁.heap n).cancel = (w.heap n).cancel := by
    show (w₁.heap n).payload.cancel = _
    rw [hrel.payload n]
    rfl
  have hlinked : CtxLinked ((w₁.cancelCtx (w₁.heap n).cancel).setNode n
      (clearAlert (clearNode ((w₁.cancelCtx (w₁.heap n).cancel).heap n)))) :=
    CtxLinked.setNode ((h.relinked hrel).congr rfl) rfl
  rw [hclear]
  refine ⟨hlinked.congr rfl, ?_⟩
  show w₁.ctx = w.ctx ∧ (w₁.cancelCtx (w₁.heap n).cancel).ctxs = _
  rw [hcancel]
  obtain ⟨heap, slots, rfl⟩ := hrel.frame
  exact ⟨rfl, rfl⟩

/-- So clearing keeps them in order, one entry at a time. -/
theorem CtxSound.clearTask (h : CtxSound cfg w lists) (id : String) :
    ∃ lists', CtxSound cfg (w.clearTask cfg id) lists' := by
  rcases clearTask_cases h.inv id with ⟨-, heq⟩ | ⟨n, i, c, t, lists', hu, hid, hinv, hc, hrel⟩
  · exact ⟨lists, heq.symm ▸ h⟩
  · obtain ⟨hlinked, hctx, hctxs⟩ := clearTask_ctxs h.linked (hid ▸ hu.lookup)
    exact ⟨lists', h.of_released hu hinv hc hrel hlinked hctx hctxs⟩

/-- **The calls keep the contexts in order.** One case for each call, from the
lemmas above. -/
theorem CtxSound.call {a : Action} (h : CtxSound cfg s.wheel lists) (hcall : a.isCall = true)
    (hstep : step cfg s a = some s') : ∃ lists', CtxSound cfg s'.wheel lists' := by
  refine wheel_of_call (fun w => ∃ lists, CtxSound cfg w lists) hcall hstep ⟨lists, h⟩
    (fun _ task env ⟨_, h⟩ => h.addTask task env)
    (fun _ id deleteOk ⟨_, h⟩ => h.removeTask id deleteOk) (fun w n ⟨lists, h⟩ => ?_)
    (fun w n runAt ⟨lists, h⟩ => ?_) (fun _ id ⟨_, h⟩ => h.clearTask id)
    (fun _ _ ⟨lists, h⟩ => ⟨lists, h.congr ⟨rfl, rfl, rfl, rfl, rfl, rfl, rfl⟩ rfl rfl⟩)
  · exact ⟨lists, h.setNode rfl rfl rfl (h.linked n)⟩
  · exact ⟨lists, h.setNode rfl rfl rfl (h.linked n)⟩

/-! ## Executions -/

/-- Noting a result writes no context, -/
theorem CtxSound.updateTaskResult (h : CtxSound cfg w lists) (n : NodeRef) (result : AlarmResult)
    (err : Option Err) : CtxSound cfg (w.updateTaskResult n result err) lists := by
  have hset : CtxSound cfg (w.setNode n
      { w.heap n with executed := (w.heap n).executed + 1, lastResult := result }) lists :=
    h.setNode rfl rfl rfl (h.linked n)
  exact hset.congr (updateTaskResult_core w n result err) rfl rfl

/-- and evaluating the alert does not. -/
theorem CtxSound.applyAlert (h : CtxSound cfg w lists) (n : NodeRef) (info : TaskInfo)
    (result : AlarmResult) (now : Time) :
    CtxSound cfg (w.applyAlert cfg n info result now) lists := by
  obtain ⟨hnext, hprev, htag⟩ := applyAlert_node cfg.sinks (w.heap n) info result now
  have hcancel : (handleAlertStateLocked cfg.sinks (w.heap n) info result now).node.cancel
      = (handleAlertStateLocked cfg.sinks (w.heap n) info result now).node.ctx := by
    obtain ⟨s, p, l, hframe⟩ := handleAlertStateLocked_frame cfg.sinks (w.heap n) info result now
    rw [hframe]
    exact h.linked n
  exact (h.setNode hnext hprev htag hcancel).congr (applyAlert_core w n info result now) rfl rfl

/-- What rescheduling does to the contexts: nothing. The context of a task lasts
as long as its registration. -/
theorem rescheduleTask_ctxs (h : CtxLinked w) (n : NodeRef) (info : TaskInfo) (now : Time)
    (slot : ℕ) : CtxLinked (w.rescheduleTask cfg n info now slot)
      ∧ (w.rescheduleTask cfg n info now slot).ctx = w.ctx
      ∧ (w.rescheduleTask cfg n info now slot).ctxs = w.ctxs := by
  obtain ⟨heap, slots, hw, hother, r, i, hself⟩ := rescheduleTask_frame w n info now slot
  rw [hw]
  refine ⟨fun m => ?_, rfl, rfl⟩
  show (heap m).payload.cancel = (heap m).payload.ctx
  by_cases hm : m = n
  · subst hm
    rw [hself]
    exact h m
  · rw [hother m hm]
    exact h m

/-- What the internal `removeTask` does to the contexts. It cancels that of the
node. -/
theorem removeTaskInternal_ctxs (h : CtxLinked w) (n : NodeRef) (info : TaskInfo) (slot : ℕ) :
    CtxLinked (w.removeTaskInternal cfg n info slot)
      ∧ (w.removeTaskInternal cfg n info slot).ctx = w.ctx
      ∧ (w.removeTaskInternal cfg n info slot).ctxs = (w.cancelCtx (w.heap n).cancel).ctxs := by
  obtain ⟨heap, slots, hw, hother, hself⟩ := removeTaskInternal_frame w n info slot
  rw [hw]
  refine ⟨fun m => ?_, rfl, rfl⟩
  show (heap m).payload.cancel = (heap m).payload.ctx
  by_cases hm : m = n
  · subst hm
    rw [hself]
    rfl
  · rw [hother m hm]
    exact h m

/-- **What the locked section does to the contexts**: it cancels that of a task
that ends. Otherwise nothing happens to them. -/
theorem lockedSection_ctxs {i : ℕ} {t : Task} (h : CtxSound cfg w lists)
    (hu : Used cfg w lists n i c t) (result : AlarmResult) (now : Time) (slot : ℕ) :
    let w' := w.lockedSection cfg n t.copyTaskInfo result now slot
    CtxLinked w' ∧ w'.ctx = w.ctx
      ∧ w'.ctxs = if shouldRescheduleTask (w.heap n) t.copyTaskInfo then w.ctxs
        else (w.cancelCtx (w.heap n).cancel).ctxs := by
  have halert := h.applyAlert n t.copyTaskInfo result now
  obtain ⟨-, hu₁, -, -, hresched⟩ := applyAlert_spec h.inv hu result now
  have hcancel : ((w.applyAlert cfg n t.copyTaskInfo result now).heap n).cancel
      = (w.heap n).cancel := by
    rw [halert.linked n, h.linked n, hu₁.ctx_eq, hu.ctx_eq]
  unfold TimeWheel.lockedSection handleTaskSchedulingLocked
  dsimp only
  rw [if_neg (by rw [hu₁.task_eq]; exact Option.some_ne_none t), hresched]
  split_ifs
  · exact rescheduleTask_ctxs halert.linked n _ now slot
  · rw [← hcancel]
    exact removeTaskInternal_ctxs halert.linked n _ slot

/-- So the end of an execution keeps them in order, when it unlinks its node
from its own list. -/
theorem CtxSound.lockedSection {i slot : ℕ} {t : Task} (h : CtxSound cfg w lists)
    (hu : Used cfg w lists n i c t) (result : AlarmResult) (now : Time)
    (hown : UnlinksOwnList cfg w n t.copyTaskInfo now slot) :
    ∃ lists', CtxSound cfg (w.lockedSection cfg n t.copyTaskInfo result now slot) lists' := by
  obtain ⟨hlinked, hctx, hctxs⟩ := lockedSection_ctxs h hu result now slot
  by_cases hr : shouldRescheduleTask (w.heap n) t.copyTaskInfo = true
  · obtain ⟨hinv, hc, hu'⟩ := h.inv.lockedSection_reschedule hu result now hown hr
    rw [if_pos hr] at hctxs
    refine ⟨_, h.of_sameCtxs hinv hc hlinked hctx hctxs (fun j d s hd => ?_)⟩
    obtain ⟨-, rfl, -⟩ := hu'.unique hd
    exact ⟨i, t, hu⟩
  · obtain ⟨lists', hinv, hc, hrel⟩ := h.inv.lockedSection_remove hu result now hown hr
    rw [if_neg hr] at hctxs
    exact ⟨lists', h.of_released hu hinv hc hrel hlinked hctx hctxs⟩

/-! ## Runs -/

/-- The steps of executions keep the contexts in order. In serial use that is
so. -/
theorem CtxSound.background {a : Action} (hctx : CtxSound cfg s.wheel lists)
    (h : SerialSound cfg s lists) (ha : a.isCall = false) (hserial : Serial s a)
    (hstep : step cfg s a = some s') : ∃ lists', CtxSound cfg s'.wheel lists' := by
  cases stepped_of_step hstep with
  | call hcall _ => exact absurd (hcall.symm.trans ha) Bool.noConfusion
  | tick now => exact ⟨lists, hctx.congr (tick_core cfg s.wheel now) rfl rfl⟩
  | reject _ _ => exact ⟨lists, hctx⟩
  | panic _ _ => exact ⟨lists, hctx⟩
  | @start i e _ _ =>
    unfold Scheduler.start
    cases s.wheel.checkTaskState e.node with
    | none => exact ⟨lists, hctx⟩
    | some task =>
      dsimp only
      cases s.wheel.runTaskCheck e.node task.copyTaskInfo with
      | none => exact ⟨lists, hctx⟩
      | some err => exact ⟨lists, hctx.updateTaskResult _ _ _⟩
  | @finish i e info _ _ result =>
    unfold Scheduler.finish
    dsimp only
    split_ifs
    · exact ⟨lists, hctx.updateTaskResult _ _ _⟩
    · exact ⟨lists, hctx.updateTaskResult _ _ _⟩
  | @complete i e info result he hs =>
    have hown := (h.careful hserial).own i e rfl he
    rcases h.completed he hs hown with hw | ⟨k, c, t, -, hu, hunlinks, hw⟩
    · rw [hw]
      exact ⟨lists, hctx⟩
    · rw [hw]
      exact hctx.lockedSection hu result e.now hunlinks

/-- `w'` differs from `w` in the lifecycle only. The context of the wheel may be
a new one. -/
structure SameTasks (w w' : TimeWheel) : Prop where
  heap : w'.heap = w.heap
  slots : w'.slots = w.slots
  shards : w'.shards = w.shards
  taskPool : w'.taskPool = w.taskPool
  nextNode : w'.nextNode = w.nextNode
  nextCtx : w.nextCtx ≤ w'.nextCtx

/-- The invariant of the wheel does not look at the lifecycle. Contexts only
have to be smaller than the next number. -/
theorem SameTasks.inv (h : SameTasks w w') (hw : Inv cfg w lists) : Inv cfg w' lists := by
  have used : ∀ {n i c t}, Used cfg w lists n i c t → Used cfg w' lists n i c t := fun hu =>
    ⟨hu.mem, hu.slot_lt, h.heap ▸ hu.tag, h.shards ▸ hu.entry, h.nextNode ▸ hu.allocated,
      lt_of_lt_of_le hu.ctx_lt h.nextCtx, h.taskPool ▸ hu.not_pooled⟩
  have back : ∀ {n i c t}, Used cfg w' lists n i c t → Used cfg w lists n i c t := by
    intro n i c t hu
    have htag := hu.tag
    rw [h.heap] at htag
    obtain ⟨d, s, hu'⟩ := hw.used_of_mem hu.mem
    obtain ⟨-, rfl, rfl⟩ := (used hu').unique hu
    exact hu'
  have hnext : w'.next = w.next := by
    unfold TimeWheel.next
    rw [h.heap]
  have hprev : w'.prev = w.prev := by
    unfold TimeWheel.prev
    rw [h.heap]
  exact {
    family := by
      rw [h.slots, hnext, hprev]
      exact hw.family
    node := fun n => (hw.node n).imp (fun ⟨i, c, t, hu⟩ => ⟨i, c, t, used hu⟩)
      (fun hf => ⟨hf.not_mem, h.shards ▸ hf.no_entry⟩)
    ctx_inj := fun ha hb => hw.ctx_inj (back ha) (back hb)
    pool_nodup := h.taskPool ▸ hw.pool_nodup
    pool_lt := fun n hn => h.nextNode ▸ hw.pool_lt n (h.taskPool ▸ hn) }

/-- A node in use after such a change was in use before. Nothing has been added
or removed. -/
theorem SameTasks.used_before {i : ℕ} {t : Task} (h : SameTasks w w') (hw : Inv cfg w lists)
    (hu : Used cfg w' lists n i c t) : Used cfg w lists n i c t := by
  obtain ⟨d, s, hu'⟩ := hw.used_of_mem hu.mem
  have htag := hu.tag
  rw [h.heap, hu'.tag] at htag
  obtain ⟨rfl, rfl, -⟩ : s = t ∧ d = c ∧ i = i := by simpa using htag
  exact hu'

/-- `Start` sets the cursor and the flag, -/
theorem sameTasks_start {now : Time} (h : w.start cfg now = some w') : SameTasks w w' := by
  unfold TimeWheel.start at h
  split_ifs at h
  · obtain rfl := Option.some.inj h
    exact ⟨rfl, rfl, rfl, rfl, rfl, le_refl _⟩
  · obtain ⟨slot, -, rfl⟩ := Option.map_eq_some_iff.mp h
    exact ⟨rfl, rfl, rfl, rfl, rfl, le_refl _⟩

/-- and `Stop` the flag and the context. -/
theorem sameTasks_stop (w : TimeWheel) : SameTasks w w.stop := by
  unfold TimeWheel.stop
  split_ifs
  · exact ⟨rfl, rfl, rfl, rfl, rfl, Nat.le_succ _⟩
  · exact ⟨rfl, rfl, rfl, rfl, rfl, le_refl _⟩

/-- **Stopping** makes the registered contexts children of a cancelled one. They
were children of the wheel's context, and that is the one `Stop` cancels. -/
theorem CtxSound.stop (h : CtxSound cfg w lists) : CtxSound cfg w.stop lists := by
  have hsame := sameTasks_stop w
  have hinv := hsame.inv h.inv
  cases hrun : w.running with
  | false =>
    rw [show w.stop = w by unfold TimeWheel.stop; rw [hrun]; rfl]
    exact h
  | true =>
    have hstop : w.stop = { w with
        running := false
        ctx := w.nextCtx
        ctxs := Function.update
          (Function.update w.ctxs w.ctx { w.ctxs w.ctx with cancelled := true })
          w.nextCtx ⟨none, false⟩
        nextCtx := w.nextCtx + 1 } := by
      unfold TimeWheel.stop
      rw [hrun]
      rfl
    refine ⟨hinv, h.linked.congr hsame.heap, ?_, ?_, fun n i c t hu => ?_⟩
    · rw [hstop]
      exact Nat.lt_succ_self _
    · rw [hstop]
      exact Function.update_self _ _ _
    · have hu₀ := hsame.used_before h.inv hu
      have hentry := h.entry n i c t hu₀
      rw [hstop]
      refine ⟨hu₀.ctx_lt.ne, fun hr => (nomatch hr), fun _ => ⟨w.ctx, ?_, ?_⟩⟩
      · show (Function.update (Function.update w.ctxs w.ctx _) w.nextCtx _ c).parent = _
        rw [Function.update_of_ne hu₀.ctx_lt.ne, Function.update_of_ne hentry.ne,
          hentry.running hrun]
      · show (Function.update (Function.update w.ctxs w.ctx _) w.nextCtx _ w.ctx).cancelled = _
        rw [Function.update_of_ne h.root_lt.ne, Function.update_self]

/-- **Starting** an empty wheel, or a running one. In an empty wheel no task has
a context. -/
theorem CtxSound.start {now : Time} (h : CtxSound cfg w lists)
    (hempty : w.running = false → w.allIDs cfg = []) (hstart : w.start cfg now = some w') :
    CtxSound cfg w' lists := by
  have hsame := sameTasks_start hstart
  have hinv := hsame.inv h.inv
  unfold TimeWheel.start at hstart
  cases hrun : w.running with
  | true =>
    rw [hrun, if_pos rfl] at hstart
    exact Option.some.inj hstart ▸ h
  | false =>
    rw [hrun, if_neg Bool.false_ne_true] at hstart
    obtain ⟨slot, -, rfl⟩ := Option.map_eq_some_iff.mp hstart
    refine ⟨hinv, h.linked.congr rfl, h.root_lt, h.root, fun n i c t hu => ?_⟩
    have hmem := mem_allIDs w t.id
      (ne_of_eq_of_ne (hsame.used_before h.inv hu).lookup (Option.some_ne_none n))
    rw [hempty hrun] at hmem
    exact absurd hmem List.not_mem_nil

/-- A stopped wheel that is started with a task in it. Its context is a child of
a cancelled one, so it is done; this is the converse of the equivalence. -/
theorem CtxSound.startsEmpty {now : Time} (h : CtxSound cfg w lists)
    (hstart : w.start cfg now = some w') (hrunnable : w'.Runnable cfg) (hrun : w.running = false) :
    w.allIDs cfg = [] := by
  refine List.eq_nil_iff_forall_not_mem.mpr (fun id hmem => ?_)
  obtain ⟨n, hn⟩ := Option.ne_none_iff_exists'.mp (h.inv.lookup_of_mem_allIDs hmem)
  obtain ⟨i, c, t, hu, -⟩ := h.inv.used_of_lookup hn
  unfold TimeWheel.start at hstart
  rw [hrun, if_neg Bool.false_ne_true] at hstart
  obtain ⟨slot, -, rfl⟩ := Option.map_eq_some_iff.mp hstart
  obtain ⟨d, hd, hdone⟩ := hrunnable rfl id n hn
  obtain rfl : c = d := Option.some.inj (hu.ctx_eq.symm.trans hd)
  obtain ⟨p, hp, hcancelled⟩ := (h.entry n i c t hu).stopped hrun
  have hdone' : w.ctxDone c = false := hdone
  unfold ctxDone at hdone'
  rw [hp] at hdone'
  simp [hcancelled] at hdone'

/-- The invariant of serial runs. It is the serial invariant with that of the
contexts. -/
structure LifecycleSound (cfg : Config) (s : Scheduler) (lists : ℕ → List NodeRef) : Prop
    extends SerialSound cfg s lists where
  ctxs : CtxSound cfg s.wheel lists

/-- The lists of a wheel are what its slots say. So the lists of two invariants
are the same. -/
theorem Inv.lists_eq (h : Inv cfg w lists) (h' : Inv cfg w lists') : lists = lists' :=
  funext (fun i => (h.slotNodes_eq i).symm.trans (h'.slotNodes_eq i))

/-- An idle system. Nothing has to be said of executions. -/
theorem lifecycleSound_of_idle (hidle : s.execs = []) (h : CtxSound cfg s.wheel lists) :
    LifecycleSound cfg s lists :=
  ⟨serialSound_of_idle hidle h.inv, h⟩

/-- **A serial step of the wheel** keeps the invariant. Calls and executions
each keep both parts. -/
theorem LifecycleSound.of_act {a : Action} (h : LifecycleSound cfg s lists) (hserial : Serial s a)
    (hstep : step cfg s a = some s') : ∃ lists', LifecycleSound cfg s' lists' := by
  obtain ⟨lists₁, h₁⟩ := h.toSerialSound.of_step hserial hstep
  have hctx : ∃ lists₂, CtxSound cfg s'.wheel lists₂ := by
    cases hcall : a.isCall with
    | true => exact h.ctxs.call hcall hstep
    | false => exact h.ctxs.background h.toSerialSound hcall hserial hstep
  obtain ⟨lists₂, h₂⟩ := hctx
  obtain rfl := h₁.inv.lists_eq h₂.inv
  exact ⟨lists₁, h₁, h₂⟩

/-- **A serial step keeps the invariant**, unless it starts a stopped wheel that
holds a task. `Stop` comes when no execution is under way, and `Start` of a
wheel that runs already changes nothing. -/
theorem LifecycleSound.of_step {a : LifecycleAction} (h : LifecycleSound cfg s lists)
    (hserial : SerialLifecycle s a) (hempty : StartsEmpty cfg s a)
    (hstep : lifecycleStep cfg s a = some s') : ∃ lists', LifecycleSound cfg s' lists' := by
  cases a with
  | start now =>
    obtain ⟨w, hw, rfl⟩ := Option.map_eq_some_iff.mp hstep
    exact ⟨lists, lifecycleSound_of_idle hserial (h.ctxs.start hempty hw)⟩
  | stop =>
    unfold lifecycleStep at hstep
    split_ifs at hstep with hidle
    obtain rfl := Option.some.inj hstep
    exact ⟨lists, lifecycleSound_of_idle hidle h.ctxs.stop⟩
  | act a =>
    unfold lifecycleStep at hstep
    dsimp only at hstep
    split_ifs at hstep
    exact h.of_act hserial hstep

/-- A wheel that has been constructed. It has not been started, and holds
nothing. -/
theorem lifecycleSound_new (cfg : Config) (cacheEnabled : Bool)
    (store : Option (AList (fun _ : String => Task))) (now : Time) :
    LifecycleSound cfg (ofWheel (TimeWheel.new cacheEnabled store now)) (fun _ => []) := by
  have hinv : Inv cfg (ofWheel (TimeWheel.new cacheEnabled store now)).wheel (fun _ => []) :=
    inv_empty (fun _ => rfl) (fun _ id => AList.lookup_empty id) rfl
  exact lifecycleSound_of_idle rfl ⟨hinv, fun _ => rfl, Nat.zero_lt_one, rfl,
    fun n i c t hu => absurd hu.mem List.not_mem_nil⟩

/-- **Exactly the serial runs in which registered tasks stay runnable.** For
every configuration and every serial run of calls, ticks and executions with
`Start` and `Stop` anywhere among them: the tasks of the running wheel can run
in every state reached, if and only if no stopped wheel that holds a task is
started again. -/
theorem runnable_iff (cfg : Config) (cacheEnabled : Bool)
    (store : Option (AList (fun _ : String => Task))) (now : Time) {as : List LifecycleAction}
    (hserial : Machine.Each (lifecycleStep cfg) (fun s a _ => SerialLifecycle s a)
      (ofWheel (TimeWheel.new cacheEnabled store now)) as) :
    Machine.Each (lifecycleStep cfg) (fun _ _ s' => s'.wheel.Runnable cfg)
        (ofWheel (TimeWheel.new cacheEnabled store now)) as
      ↔ Machine.Each (lifecycleStep cfg) (fun s a _ => StartsEmpty cfg s a)
        (ofWheel (TimeWheel.new cacheEnabled store now)) as := by
  have hkeep : ∀ s a s', SerialLifecycle s a → (∃ lists, LifecycleSound cfg s lists) →
      lifecycleStep cfg s a = some s' → StartsEmpty cfg s a →
      (∃ lists, LifecycleSound cfg s' lists) ∧ s'.wheel.Runnable cfg := by
    rintro s a s' hserial ⟨lists, hs⟩ hstep hempty
    obtain ⟨lists', hs'⟩ := hs.of_step hserial hempty hstep
    exact ⟨⟨lists', hs'⟩, hs'.ctxs.runnable⟩
  have hneed : ∀ s a s', SerialLifecycle s a → (∃ lists, LifecycleSound cfg s lists) →
      lifecycleStep cfg s a = some s' → s'.wheel.Runnable cfg → StartsEmpty cfg s a := by
    rintro s a s' - ⟨lists, hs⟩ hstep hrunnable
    cases a with
    | start now =>
      obtain ⟨w, hw, rfl⟩ := Option.map_eq_some_iff.mp hstep
      exact hs.ctxs.startsEmpty hw hrunnable
    | stop => trivial
    | act a => trivial
  exact Machine.each_iff_along hkeep hneed hserial
    ⟨_, lifecycleSound_new cfg cacheEnabled store now⟩

/-- The calls of a run, as actions of the lifecycle. -/
def acts (as : List Action) : List LifecycleAction := as.map .act

/-- A wheel that is emptied before it is stopped, and filled again after the
next start. -/
theorem runnable_of_emptied :
    Machine.Each (lifecycleStep fourSlots) (fun _ _ s' => s'.wheel.Runnable fourSlots)
      (ofWheel (TimeWheel.new false none Time.zero))
      ([.start (Time.ofMilli 0)] ++ acts ([addAt 0 "a" .repeated 10 none] ++ ticksAt [10]
          ++ [.start 0, .finish 0 .zero, .complete 0, .removeTask "a" true])
        ++ [.stop, .start (Time.ofMilli 20)]
        ++ acts ([addAt 20 "a" .repeated 10 (some 0)] ++ ticksAt [30] ++ [.start 0])) :=
  (runnable_iff fourSlots false none Time.zero (by decide +kernel)).mpr (by decide +kernel)

/-- **A task that outlives a restart**: after it the wheel is running, the task
is registered, and its context is done. -/
theorem not_runnable_of_restart :
    ¬ Machine.Each (lifecycleStep fourSlots) (fun _ _ s' => s'.wheel.Runnable fourSlots)
      (ofWheel (TimeWheel.new false none Time.zero))
      ([.start (Time.ofMilli 0)] ++ acts [addAt 0 "a" .repeated 10 none]
        ++ [.stop, .start (Time.ofMilli 20)]) := by
  intro h
  have hrun : (Machine.run (lifecycleStep fourSlots) (ofWheel (TimeWheel.new false none Time.zero))
      ([.start (Time.ofMilli 0)] ++ acts [addAt 0 "a" .repeated 10 none]
        ++ [.stop, .start (Time.ofMilli 20)])).map (fun s =>
          (s.wheel.running, s.wheel.lookup fourSlots "a", (s.wheel.heap 0).ctx, s.wheel.ctxDone 1))
      = some (true, some 0, some 1, true) := by decide +kernel
  obtain ⟨t, ht, hctx⟩ := Option.map_eq_some_iff.mp hrun
  have hrunnable := Machine.state_of_each (P := fun s => s.wheel.Runnable fourSlots)
    (fun hr => (nomatch hr)) h ht
  simp only [Prod.mk.injEq] at hctx
  obtain ⟨hrunning, hlookup, hctx, hdone⟩ := hctx
  obtain ⟨c, hc, hnot⟩ := hrunnable hrunning "a" 0 hlookup
  obtain rfl : c = 1 := Option.some.inj (hc.symm.trans hctx)
  exact Bool.false_ne_true (hnot.symm.trans hdone)

end Timewheel
