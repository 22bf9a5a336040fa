import Timewheel.Restart
import Timewheel.Rollback

/-!
# The contexts of the tasks

`AddTask` makes a context for its task before it knows whether the task is
going to be registered. Every way out of the registry cancels the context of
its task; a context that neither belongs to a registered task nor has been
cancelled is leaked, since the wheel's own context keeps it until it ends.

The one exit that forgets the context is that of `AddTask` itself when the ID is
taken: the node goes back to the pool with its context, and the next task that
is given the node overwrites it. `UpdateTask` does not get there, as it frees
the ID first. `noneLeaked_iff` says that in serial use this is all.

A context is numbered when it is made, and the nodes in use have different
ones. So the open contexts and the registered nodes can be matched one to one,
and each call only has to be looked at where it changes this matching: at one
node (`NoneLeaked.of_changesOnly`).
-/

namespace Timewheel

open TimeWheel Scheduler

variable {cfg : Config} {s s' : Scheduler} {w w' : TimeWheel} {lists lists' : ℕ → List NodeRef}
  {n : NodeRef} {i : ℕ} {c : CtxRef} {t : Task} {id : String}

/-! ## What is expected -/

/-- A child of the wheel's context that has not been cancelled. Nothing but
`AddTask` makes children of it. Its parent keeps a reference to it. -/
def TimeWheel.OpenCtx (w : TimeWheel) (c : CtxRef) : Prop := w.ctxs c = ⟨some w.ctx, false⟩

/-- **No context is leaked**: the open ones are those of the registered nodes.
Each registered node has one, and there are no others. -/
def TimeWheel.NoneLeaked (cfg : Config) (w : TimeWheel) : Prop :=
  ∀ c, w.OpenCtx c ↔ ∃ id n, w.lookup cfg id = some n ∧ (w.heap n).ctx = some c

/-- **The step does not add a task under a taken ID.** A task that the checks
reject is not given a context. So this is about `AddTask` alone. -/
def AddsNew (cfg : Config) (s : Scheduler) : Action → Prop
  | .addTask task _ => ∀ t ∈ task, rejects t = false → s.wheel.lookup cfg t.id = none
  | _ => True

instance (cfg : Config) (s : Scheduler) : ∀ a, Decidable (AddsNew cfg s a)
  | .addTask task _ =>
    inferInstanceAs (Decidable (∀ t ∈ task, rejects t = false → s.wheel.lookup cfg t.id = none))
  | .removeTask _ _ => isTrue trivial
  | .updateTask _ _ => isTrue trivial
  | .pauseTask _ => isTrue trivial
  | .resumeTask _ _ => isTrue trivial
  | .clearAllTasks _ _ => isTrue trivial
  | .tick _ => isTrue trivial
  | .reject _ => isTrue trivial
  | .start _ => isTrue trivial
  | .finish _ _ => isTrue trivial
  | .panic _ => isTrue trivial
  | .complete _ => isTrue trivial

/-! ## The contexts in use -/

/-- The contexts of the registered nodes are those of the nodes in use. The map
holds just these. -/
theorem registeredCtx_iff (h : Inv cfg w lists) (c : CtxRef) :
    (∃ id n, w.lookup cfg id = some n ∧ (w.heap n).ctx = some c)
      ↔ ∃ n i t, Used cfg w lists n i c t := by
  constructor
  · rintro ⟨id, n, hid, hctx⟩
    obtain ⟨i, d, t, hu, -⟩ := h.used_of_lookup hid
    obtain rfl := Option.some.inj (hu.ctx_eq.symm.trans hctx)
    exact ⟨n, i, t, hu⟩
  · rintro ⟨n, i, t, hu⟩
    exact ⟨t.id, n, hu.lookup, hu.ctx_eq⟩

/-- The same property, in the words of the invariant. -/
theorem noneLeaked_iff_used (h : Inv cfg w lists) :
    w.NoneLeaked cfg ↔ ∀ c, w.OpenCtx c ↔ ∃ n i t, Used cfg w lists n i c t :=
  forall_congr' fun c => iff_congr Iff.rfl (registeredCtx_iff h c)

/-- **A change at one node** leaks nothing when it leaves the contexts alone
that the node has nothing to do with, and those it has to do with are open
exactly if it has them afterwards. In most cases the node has one context before
or after, and one of the two directions is immediate. -/
theorem TimeWheel.NoneLeaked.of_changesOnly (hw : w.NoneLeaked cfg) (h : Inv cfg w lists)
    (h' : Inv cfg w' lists') (hc : ChangesOnly n w w' lists lists') (hctx : w'.ctx = w.ctx)
    (hother : ∀ c, (∀ i t, ¬ Used cfg w lists n i c t) → (∀ i t, ¬ Used cfg w' lists' n i c t) →
      w'.ctxs c = w.ctxs c)
    (hself : ∀ c, ((∃ i t, Used cfg w lists n i c t) ∨ ∃ i t, Used cfg w' lists' n i c t) →
      (w'.OpenCtx c ↔ ∃ i t, Used cfg w' lists' n i c t)) : w'.NoneLeaked cfg := by
  rw [noneLeaked_iff_used h] at hw
  rw [noneLeaked_iff_used h']
  intro c
  by_cases hn : (∃ i t, Used cfg w lists n i c t) ∨ ∃ i t, Used cfg w' lists' n i c t
  · rw [hself c hn]
    refine ⟨fun ⟨i, t, hu⟩ => ⟨n, i, t, hu⟩, fun ⟨m, j, s, hm⟩ => ?_⟩
    by_cases hmn : m = n
    · exact ⟨j, s, hmn ▸ hm⟩
    · -- a node has its context for itself
      have hbefore := hc.used_before h hmn hm
      rcases hn with ⟨i, t, hu⟩ | ⟨i, t, hu⟩
      · exact absurd (h.ctx_inj hbefore hu) hmn
      · exact absurd (h'.ctx_inj hm hu) hmn
  · push Not at hn
    have hopen : w'.OpenCtx c ↔ w.OpenCtx c := by
      unfold OpenCtx
      rw [hother c hn.1 hn.2, hctx]
    rw [hopen, hw c]
    constructor
    · rintro ⟨m, j, s, hm⟩
      have hmn : m ≠ n := fun hmn => hn.1 j s (hmn ▸ hm)
      exact ⟨m, j, s, hc.used hmn hm⟩
    · rintro ⟨m, j, s, hm⟩
      have hmn : m ≠ n := fun hmn => hn.2 j s (hmn ▸ hm)
      exact ⟨m, j, s, hc.used_before h hmn hm⟩

/-- What does not reach the map or the contexts. Times and flags of nodes are
not looked at. -/
theorem TimeWheel.NoneLeaked.congr (hw : w.NoneLeaked cfg) (hctx : w'.ctx = w.ctx)
    (hctxs : w'.ctxs = w.ctxs) (hshards : w'.shards = w.shards)
    (hheap : ∀ n, (w'.heap n).ctx = (w.heap n).ctx) : w'.NoneLeaked cfg := by
  intro c
  unfold OpenCtx
  rw [hctx, hctxs]
  refine (hw c).trans ?_
  simp only [lookup_congr hshards, hheap]

/-! ## The calls -/

/-- What is true of a running wheel between the steps. The invariant knows which
contexts are in use. -/
structure LeakFree (cfg : Config) (w : TimeWheel) : Prop where
  sound : ∃ lists, CtxSound cfg w lists
  running : w.running = true
  noneLeaked : w.NoneLeaked cfg

/-- **Releasing a node** cancels its context. It is the one context that was
open for the node. -/
theorem LeakFree.of_released (hw : w.NoneLeaked cfg) (h : CtxSound cfg w lists)
    (hrun : w.running = true) (hu : Used cfg w lists n i c t) (h' : CtxSound cfg w' lists')
    (hc : ChangesOnly n w w' lists lists') (hrel : Released w' lists' n) (hctx : w'.ctx = w.ctx)
    (hctxs : w'.ctxs = (w.cancelCtx (w.heap n).cancel).ctxs) : LeakFree cfg w' := by
  rw [h.linked n, hu.ctx_eq] at hctxs
  refine ⟨⟨lists', h'⟩, hc.running.trans hrun, hw.of_changesOnly h.inv h'.inv hc hctx
    (fun d hd _ => ?_) (fun d hd => ?_)⟩
  · have hne : d ≠ c := fun hdc => hd i t (hdc ▸ hu)
    rw [hctxs]
    exact Function.update_of_ne hne _ _
  · obtain ⟨j, s, hd⟩ := hd.resolve_right (fun ⟨_, _, hd⟩ => hrel.toFree.not_used hd)
    obtain ⟨-, rfl, -⟩ := hu.unique hd
    refine iff_of_false (fun hopen => ?_) (fun ⟨_, _, hd⟩ => hrel.toFree.not_used hd)
    have hcancelled : (w'.ctxs c).cancelled = true := by
      rw [hctxs]
      show (Function.update w.ctxs c { w.ctxs c with cancelled := true } c).cancelled = true
      rw [Function.update_self]
    rw [show w'.ctxs c = _ from hopen] at hcancelled
    exact Bool.false_ne_true hcancelled

/-- **`AddTask`** leaks the context of a task that it does not register, unless
the task is rejected before. The context is made before the ID is looked up. -/
theorem noneLeaked_addTask_iff (h : LeakFree cfg w) (task : Option Task) (env : AddEnv) :
    (w.addTask cfg task env).2.NoneLeaked cfg
      ↔ ∀ t ∈ task, rejects t = false → w.lookup cfg t.id = none := by
  obtain ⟨⟨lists, hsound⟩, hrun, hw⟩ := h
  have hadd := addTask_cases hsound.inv task env
  obtain ⟨-, hctx, hctxs⟩ := @addTask_ctxs cfg w hsound.linked task env
  generalize w.addTask cfg task env = r at hadd hctx hctxs ⊢
  cases hadd with
  | rejected reason =>
    refine iff_of_true hw (fun t ht hpass => ?_)
    cases reason with
    | isNil => exact nomatch ht
    | @check s err hcheck =>
      obtain rfl := Option.some.inj ht
      unfold rejects at hpass
      rw [hcheck] at hpass
      exact Bool.noConfusion hpass
    | notRunning _ hstopped => exact nomatch hrun.symm.trans hstopped
  | @duplicate t t' n w' task_eq check running taken inv changes handedOut free installed =>
    obtain hsame | hctxs := hctxs
    · exact absurd installed.nextCtx (hsame ▸ lt_irrefl _)
    obtain rfl := task_eq
    have hpass : rejects t = false := by
      unfold rejects
      rw [check]
    have htaken : w.lookup cfg t.id ≠ none := (checkTask_ok check).2.2.id_eq ▸ taken
    refine iff_of_false (fun hw' => ?_) (fun hnew => htaken (hnew t rfl hpass))
    -- the new context is open, and no node has it
    have hopen : w'.OpenCtx w.nextCtx := by
      unfold OpenCtx
      rw [hctxs, Function.update_self, hctx]
    obtain ⟨m, j, s, hu⟩ := (noneLeaked_iff_used inv).mp hw' w.nextCtx |>.mp hopen
    have hne : m ≠ n := fun hmn => free.not_used (hmn ▸ hu)
    exact lt_irrefl _ (changes.used_before hsound.inv hne hu).ctx_lt
  | @added t t' n w' lists' i task_eq check running new inv changes handedOut used installed =>
    obtain hsame | hctxs := hctxs
    · exact absurd installed.nextCtx (hsame ▸ lt_irrefl _)
    obtain rfl := task_eq
    have hnew : ∀ t₁ ∈ some t, rejects t₁ = false → w.lookup cfg t₁.id = none := by
      rintro _ ⟨rfl⟩ -
      exact (checkTask_ok check).2.2.id_eq ▸ new
    refine iff_of_true (hw.of_changesOnly hsound.inv inv changes hctx (fun d _ hd => ?_)
      (fun d hd => ?_)) hnew
    · have hne : d ≠ w.nextCtx := fun hdc => hd i t' (hdc ▸ used)
      rw [hctxs, Function.update_of_ne hne]
    · obtain ⟨j, s, hd⟩ := hd.resolve_left (fun ⟨_, _, hd⟩ => handedOut.free.not_used hd)
      obtain ⟨-, rfl, -⟩ := used.unique hd
      refine iff_of_true ?_ ⟨i, t', used⟩
      unfold OpenCtx
      rw [hctxs, Function.update_self, hctx]

/-- **A task under a new ID** is registered together with its context, -/
theorem LeakFree.addTask (h : LeakFree cfg w) (task : Option Task) (env : AddEnv)
    (hnew : ∀ t ∈ task, rejects t = false → w.lookup cfg t.id = none) :
    LeakFree cfg (w.addTask cfg task env).2 where
  sound := h.sound.elim fun _ hsound => hsound.addTask task env
  running := (addTask_sameUp w task env).running.trans h.running
  noneLeaked := (noneLeaked_addTask_iff h task env).mpr hnew

/-- a task that is removed takes its context with it, -/
theorem LeakFree.removeTask (h : LeakFree cfg w) (id : String) (deleteOk : Bool) :
    LeakFree cfg (w.removeTask cfg id deleteOk).2 := by
  obtain ⟨⟨lists, hsound⟩, hrun, hw⟩ := h
  have hremove := removeTask_cases hsound.inv id deleteOk
  obtain ⟨hlinked, hctx, hctxs⟩ := @removeTask_ctxs cfg w hsound.linked id deleteOk
  generalize w.removeTask cfg id deleteOk = r at hremove hlinked hctx hctxs ⊢
  cases hremove with
  | emptyID _ => exact ⟨⟨lists, hsound⟩, hrun, hw⟩
  | notFound _ _ => exact ⟨⟨lists, hsound⟩, hrun, hw⟩
  | removed hid used id_eq inv changes released =>
    have hctxs := hctxs _ hid (id_eq ▸ used.lookup)
    exact .of_released hw hsound hrun used
      (hsound.of_released used inv changes released hlinked hctx hctxs) changes released hctx hctxs

/-- and so does one that is cleared. -/
theorem LeakFree.clearTask (h : LeakFree cfg w) (id : String) :
    LeakFree cfg (w.clearTask cfg id) := by
  obtain ⟨⟨lists, hsound⟩, hrun, hw⟩ := h
  rcases clearTask_cases hsound.inv id with ⟨-, heq⟩ | ⟨n, i, c, t, lists', hu, hid, hinv, hc, hrel⟩
  · exact heq.symm ▸ ⟨⟨lists, hsound⟩, hrun, hw⟩
  · obtain ⟨hlinked, hctx, hctxs⟩ := clearTask_ctxs hsound.linked (hid ▸ hu.lookup)
    exact .of_released hw hsound hrun hu
      (hsound.of_released hu hinv hc hrel hlinked hctx hctxs) hc hrel hctx hctxs

/-- The old task that `UpdateTask` puts back has the ID of the new one. So it is
added under an ID that has just been freed. -/
theorem CtxSound.id_of_lookup {old : Task} (h : CtxSound cfg w lists)
    (hn : w.lookup cfg id = some n) (hold : (w.heap n).task = some old) : old.id = id := by
  obtain ⟨i, c, t, hu, rfl⟩ := h.inv.used_of_lookup hn
  rw [Option.some.inj (hold.symm.trans hu.task_eq)]

/-- A task that is not added under a free ID has been rejected. Nothing else can
go wrong then. -/
theorem addTask_eq_self_of_free (hid : w.lookup cfg t.id = none) {env : AddEnv}
    (herr : (w.addTask cfg (some t) env).1 ≠ none) : (w.addTask cfg (some t) env).2 = w := by
  have hstep := addTask_step cfg w (some t) env
  generalize w.addTask cfg (some t) env = r at hstep herr ⊢
  cases hstep with
  | rejected _ => rfl
  | duplicate task_eq check taken _ =>
    obtain rfl := Option.some.inj task_eq
    exact absurd ((checkTask_ok check).2.2.id_eq ▸ hid) taken
  | added _ _ _ _ _ => exact absurd rfl herr

/-- **`UpdateTask`** frees the ID before it adds under it. Also if the new task
is rejected and the old one put back. -/
theorem LeakFree.updateTask (h : LeakFree cfg w) (task : Option Task) (env : UpdateEnv) :
    LeakFree cfg (w.updateTask cfg task env).2 := by
  obtain ⟨lists, hsound⟩ := h.sound
  have hsame : ∀ {s t : Task}, task = some t → s ∈ task → s = t := fun ht hs =>
    Option.some.inj (hs.symm.trans ht)
  refine updateTask_phases (LeakFree cfg)
    (fun w' => LeakFree cfg w' ∧ ∀ t ∈ task, w'.lookup cfg t.id = none) w task env h
    (fun _ hw' => hw'.1) (fun t n ht hid hn => ⟨h.removeTask t.id env.deleteOk, fun s hs => ?_⟩)
    (fun w' t ht hw' => ⟨hw'.1.addTask (some t) _ ?_, fun herr => ?_⟩)
    (fun w' t n old ht hn hold hw' => hw'.1.addTask (some old) _ ?_)
  · obtain ⟨w', hremove, -, hlookup, -⟩ := removeTask_records hid hn env.deleteOk
    rw [hremove, hsame ht hs, hlookup, if_pos rfl]
  · rintro _ ⟨rfl⟩ -
    exact hw'.2 t ht
  · rw [addTask_eq_self_of_free (hw'.2 t ht) herr]
    exact hw'
  · rintro _ ⟨rfl⟩ -
    rw [hsound.id_of_lookup hn hold]
    exact hw'.2 t ht

/-- **The calls leak nothing**, unless they add under a taken ID. Only `AddTask`
needs the condition. -/
theorem leakFree_call_iff {a : Action} (h : LeakFree cfg s.wheel) (hcall : a.isCall = true)
    (hstep : step cfg s a = some s') : s'.wheel.NoneLeaked cfg ↔ AddsNew cfg s a := by
  have hset : ∀ {w : TimeWheel} {n node}, LeakFree cfg w → node.ctx = (w.heap n).ctx →
      (w.setNode n node).NoneLeaked cfg := by
    intro w n node h hnode
    refine h.noneLeaked.congr rfl rfl rfl (fun m => ?_)
    by_cases hm : m = n
    · rw [hm, heap_setNode_self, hnode]
    · rw [heap_setNode_of_ne hm]
  have hcalled := called_of_step hcall hstep
  generalize s'.wheel = w' at hcalled ⊢
  cases hcalled with
  | addTask task env =>
    exact noneLeaked_addTask_iff h task env
  | removeTask id deleteOk =>
    exact iff_of_true (h.removeTask id deleteOk).noneLeaked trivial
  | updateTask task env =>
    exact iff_of_true (h.updateTask task env).noneLeaked trivial
  | pauseTask id =>
    exact iff_of_true (pauseTask_wheel (fun w => w.NoneLeaked cfg) s.wheel id h.noneLeaked
      (fun _ => hset h rfl)) trivial
  | resumeTask id now =>
    exact iff_of_true (resumeTask_wheel (fun w => w.NoneLeaked cfg) s.wheel id now h.noneLeaked
      (fun _ _ => hset h rfl)) trivial
  | clearAllTasks order now =>
    refine iff_of_true (clearAllTasks_wheel (LeakFree cfg) s.wheel order now h
      (fun _ id hw => hw.clearTask id) (fun w f hw => ?_)).noneLeaked trivial
    obtain ⟨⟨lists, hsound⟩, hrun, hnone⟩ := hw
    exact ⟨⟨lists, hsound.congr ⟨rfl, rfl, rfl, rfl, rfl, rfl, rfl⟩ rfl rfl⟩, hrun,
      hnone.congr rfl rfl rfl (fun _ => rfl)⟩

/-! ## Executions -/

/-- **The locked section** cancels the context of a task that ends. A task that
is rescheduled keeps its own. -/
theorem TimeWheel.NoneLeaked.lockedSection {slot : ℕ} (hw : w.NoneLeaked cfg)
    (h : CtxSound cfg w lists) (hrun : w.running = true) (hu : Used cfg w lists n i c t)
    (result : AlarmResult) (now : Time) (hown : UnlinksOwnList cfg w n t.copyTaskInfo now slot) :
    (w.lockedSection cfg n t.copyTaskInfo result now slot).NoneLeaked cfg := by
  obtain ⟨hlinked, hctx, hctxs⟩ := lockedSection_ctxs h hu result now slot
  by_cases hr : shouldRescheduleTask (w.heap n) t.copyTaskInfo = true
  · obtain ⟨hinv, hc, hu'⟩ := h.inv.lockedSection_reschedule hu result now hown hr
    rw [if_pos hr] at hctxs
    refine hw.of_changesOnly h.inv hinv hc hctx (fun d _ _ => by rw [hctxs]) (fun d hd => ?_)
    -- the node has its context before and afterwards, and it is open
    obtain rfl : c = d := by
      rcases hd with ⟨j, s, hd⟩ | ⟨j, s, hd⟩
      · exact (hu.unique hd).2.1
      · exact (hu'.unique hd).2.1
    refine iff_of_true ?_ ⟨_, t, hu'⟩
    unfold OpenCtx
    rw [hctxs, hctx]
    exact (h.entry n i c t hu).running hrun
  · obtain ⟨lists', hinv, hc, hrel⟩ := h.inv.lockedSection_remove hu result now hown hr
    rw [if_neg hr] at hctxs
    exact (LeakFree.of_released hw h hrun hu (h.of_released hu hinv hc hrel hlinked hctx hctxs) hc
      hrel hctx hctxs).noneLeaked

/-- Writing the result of an execution. This writes fields that have nothing to
do with contexts. -/
theorem TimeWheel.NoneLeaked.updateTaskResult (hw : w.NoneLeaked cfg) (n : NodeRef)
    (result : AlarmResult) (err : Option Err) :
    (w.updateTaskResult n result err).NoneLeaked cfg := by
  refine hw.congr rfl rfl rfl (fun m => ?_)
  rw [(updateTaskResult_core w n result err).heap]
  by_cases hm : m = n
  · rw [hm, heap_setNode_self]
  · rw [heap_setNode_of_ne hm]

/-- **Ticks and executions** leak nothing: only the locked section comes near a
context. -/
theorem noneLeaked_background {a : Action} (h : LifecycleSound cfg s lists)
    (hrun : s.wheel.running = true) (hw : s.wheel.NoneLeaked cfg) (ha : a.isCall = false)
    (hserial : Serial s a) (hstep : step cfg s a = some s') : s'.wheel.NoneLeaked cfg := by
  cases stepped_of_step hstep with
  | call hcall _ => exact absurd (hcall.symm.trans ha) Bool.noConfusion
  | tick now => exact hw.congr rfl rfl rfl (fun _ => rfl)
  | reject _ _ => exact hw
  | panic _ _ => exact hw
  | @start i e _ _ =>
    unfold Scheduler.start
    cases s.wheel.checkTaskState e.node with
    | none => exact hw
    | some task =>
      dsimp only
      cases s.wheel.runTaskCheck e.node task.copyTaskInfo with
      | none => exact hw
      | some err => exact hw.updateTaskResult _ _ _
  | @finish i e info _ _ result =>
    unfold Scheduler.finish
    dsimp only
    split_ifs
    · exact hw.updateTaskResult _ _ _
    · exact hw.updateTaskResult _ _ _
  | @complete i e info result he hs =>
    have hown := (h.careful hserial).own i e rfl he
    rcases h.completed he hs hown with hsame | ⟨k, c, t, -, hu, hunlinks, hlocked⟩
    · rw [hsame]
      exact hw
    · rw [hlocked]
      exact hw.lockedSection h.ctxs hrun hu result e.now hunlinks

/-! ## Serial runs -/

/-- The invariant of serial runs of a running wheel. While the wheel runs the
contexts in use are open; it is `Stop` that would close them. -/
structure RunningSound (cfg : Config) (s : Scheduler) : Prop where
  sound : ∃ lists, LifecycleSound cfg s lists
  running : s.wheel.running = true

/-- No step stops the wheel, -/
theorem RunningSound.of_step {a : Action} (h : RunningSound cfg s) (hserial : Serial s a)
    (hstep : step cfg s a = some s') : RunningSound cfg s' := by
  obtain ⟨⟨lists, hs⟩, hrun⟩ := h
  refine ⟨hs.of_act hserial hstep, ?_⟩
  cases hcall : a.isCall with
  | true => exact (call_sameUp hcall hstep).running.trans hrun
  | false => exact (background_entry hcall hstep).1.running.trans hrun

/-- which has been started. -/
theorem runningSound_of_started (h : Started cfg w) : RunningSound cfg (ofWheel w) := by
  have hrunning : w.running = true := by
    obtain ⟨_, _, _, _, rfl⟩ := h.eq_new
    rfl
  obtain ⟨cacheEnabled, store, now₀, now, h⟩ := h
  have hempty : (TimeWheel.new cacheEnabled store now₀).running = false →
      (TimeWheel.new cacheEnabled store now₀).allIDs cfg = [] :=
    fun _ => List.flatMap_eq_nil_iff.mpr (fun _ _ => rfl)
  have hctxs := (lifecycleSound_new cfg cacheEnabled store now₀).ctxs.start hempty h
  exact ⟨⟨_, lifecycleSound_of_idle rfl hctxs⟩, hrunning⟩

/-- **A serial step leaks nothing exactly if it adds under no taken ID.** Calls
by the one lemma, the background by the other. -/
theorem noneLeaked_step_iff {a : Action} (h : RunningSound cfg s) (hw : s.wheel.NoneLeaked cfg)
    (hserial : Serial s a) (hstep : step cfg s a = some s') :
    s'.wheel.NoneLeaked cfg ↔ AddsNew cfg s a := by
  obtain ⟨⟨lists, hs⟩, hrun⟩ := h
  cases hcall : a.isCall with
  | true => exact leakFree_call_iff ⟨⟨lists, hs.ctxs⟩, hrun, hw⟩ hcall hstep
  | false =>
    refine iff_of_true (noneLeaked_background hs hrun hw hcall hserial hstep) ?_
    cases a with
    | addTask _ _ => exact Bool.noConfusion hcall
    | _ => trivial

/-- No context has been made in a wheel that has just been started. -/
theorem noneLeaked_of_started (h : Started cfg w) : w.NoneLeaked cfg := by
  intro c
  rw [registeredCtx_iff (inv_of_started h)]
  obtain ⟨cacheEnabled, store, now₀, slot, rfl⟩ := h.eq_new
  refine iff_of_false (fun hopen => ?_) (fun ⟨n, i, t, hu⟩ => List.not_mem_nil hu.mem)
  exact nomatch (congrArg Ctx.parent hopen)

/-- **Exactly the serial runs in which no context is leaked.** The condition is
on the calls of `AddTask`: whatever they are given, it is not under an ID that
is registered at that time. A refused call is enough to leak. -/
theorem noneLeaked_iff (h : Started cfg w) {as : List Action}
    (hserial : Machine.Each (step cfg) (fun s a _ => Serial s a) (ofWheel w) as) :
    Machine.Each (step cfg) (fun _ _ s' => s'.wheel.NoneLeaked cfg) (ofWheel w) as
      ↔ Machine.Each (step cfg) (fun s a _ => AddsNew cfg s a) (ofWheel w) as := by
  have hinv : ∀ s a s', Serial s a → RunningSound cfg s → step cfg s a = some s' →
      RunningSound cfg s' :=
    fun s a s' hser hs hstep => hs.of_step hser hstep
  have hleaks : ∀ s a s', Serial s a → RunningSound cfg s → s.wheel.NoneLeaked cfg →
      step cfg s a = some s' → (s'.wheel.NoneLeaked cfg ↔ AddsNew cfg s a) :=
    fun s a s' hser hs hw hstep => noneLeaked_step_iff hs hw hser hstep
  exact Machine.each_state_iff hinv hleaks hserial (runningSound_of_started h)
    (noneLeaked_of_started h)

/-- A task is added, refused without an interval, updated, executed for the last
time and added again; then the wheel is cleared. -/
theorem noneLeaked_of_careful :
    Machine.Each (step fourSlots) (fun _ _ s' => s'.wheel.NoneLeaked fourSlots)
      (ofWheel fourSlotWheel)
      ([addAt 0 "a" .repeated 20 none, addAt 0 "a" .repeated 0 none,
        .updateTask (some (Task.plain "a" .once (Duration.ofMilli 10)))
          ⟨true, ⟨Time.ofMilli 0, some 0, ⟨Time.zero, [], []⟩, true⟩,
            ⟨Time.ofMilli 0, none, ⟨Time.zero, [], []⟩, true⟩⟩] ++ ticksAt [10]
        ++ [.start 0, .finish 0 .zero, .complete 0, addAt 10 "a" .repeated 10 (some 0),
          .clearAllTasks [] Time.zero]) :=
  (noneLeaked_iff started_fourSlotWheel (by decide +kernel)).mpr (by decide +kernel)

/-- A task, and another one under its ID. -/
def duplicateRun : List Action := [addAt 0 "a" .repeated 10 none, addAt 5 "a" .repeated 10 none]

/-- **A task under a taken ID leaks a context.** -/
theorem not_noneLeaked_of_duplicate :
    Machine.Each (step fourSlots) (fun s a _ => Serial s a) (ofWheel fourSlotWheel) duplicateRun
      ∧ ¬ Machine.Each (step fourSlots) (fun _ _ s' => s'.wheel.NoneLeaked fourSlots)
        (ofWheel fourSlotWheel) duplicateRun := by
  refine ⟨by decide +kernel, fun h => ?_⟩
  obtain ⟨s₁, h₁⟩ : ∃ s₁, step fourSlots (ofWheel fourSlotWheel)
    (addAt 0 "a" .repeated 10 none) = some s₁ := ⟨_, rfl⟩
  obtain ⟨s₂, h₂⟩ : ∃ s₂, step fourSlots s₁ (addAt 5 "a" .repeated 10 none) = some s₂ := ⟨_, rfl⟩
  have hidle : s₁.execs = [] := by
    obtain rfl := Option.some.inj h₁
    rfl
  obtain ⟨hw₁, hrest⟩ := h s₁ h₁
  have hsound := (runningSound_of_started started_fourSlotWheel).of_step (fun _ => rfl) h₁
  have hnew := (noneLeaked_step_iff hsound hw₁ (fun _ => hidle) h₂).mp (hrest s₂ h₂).1
  have htaken : (step fourSlots (ofWheel fourSlotWheel) (addAt 0 "a" .repeated 10 none)).map
      (fun s => s.wheel.lookup fourSlots "a") = some (some 0) := by decide +kernel
  rw [h₁] at htaken
  have hnone := hnew _ rfl (by decide)
  exact nomatch hnone.symm.trans (Option.some.inj htaken)

end Timewheel
