import Timewheel.Restart
import Timewheel.Rollback
import Timewheel.Mirror
import Timewheel.Timetable

/-!
# The wheel implements the timetable

A node that is in use stands for a timer, with its context as the number of
the registration; a node that is not stands for none. `Reflects` relates a wheel
to a table that holds exactly these timers, and `Represents` a wheel with its
executions to a table with its jobs.

An operation changes the wheel at one node, so it changes the table under one
ID (`timer_of_changesOnly`), and no registration comes back once it is gone
(`Advances`), which is why an execution of a timer that is gone finds nothing,
even when the ID is registered again. `refines_of_careful` concludes that what
is observed of a wheel – the requests, and what the calls return – is a trace of
the timetable.

The order is that of the model. First comes what a change at one node does to
the timers, then that registrations do not come back, then one lemma for each
call of the interface, and last one for each part of an execution. Each of
these lemmas gives three things: the step of the table, the relation to the
new table, and that the registrations have advanced; the runs need no more
than these three, and nothing after this module looks at a list or a map of a
wheel again.

A timer carries only what the code reads of a node. The links of the node, its
cancel function and the place of the node in the pool have no counterpart in
the table, which is the point: whatever nodes the pool hands out, and in
whatever order the slots list them, the table is the same.
-/

namespace Timewheel

open DList TimeWheel Scheduler

variable {cfg : Config} {w w' w'' : TimeWheel} {lists lists' lists'' : ℕ → List NodeRef}
  {n m : NodeRef} {i : ℕ} {c : CtxRef} {t : Task} {id : String} {tt : Timetable}

/-! ## The timers of a wheel -/

/-- A node as the timer of the registration `c` of the task `t`. All fields of
the node are taken over that a call or an execution reads; the links, the tag
and the cancel function are not. -/
def TaskSlot.asTimer (node : TaskSlot) (c : CtxRef) (t : Task) : Timer where
  registration := c
  task := t
  slot := node.slotIndex
  addedAt := node.addedAt
  runAt := node.runAt
  executed := node.executed
  alertState := node.alertState
  pendingSince := node.pendingSince
  lastFiredAt := node.lastFiredAt
  lastResult := node.lastResult
  paused := node.paused

/-- The timer a node stands for. A node without a task or without a context is
not in use, and stands for none. -/
def TaskSlot.timer (node : TaskSlot) : Option Timer :=
  node.task.bind (fun t => node.ctx.map (fun c => node.asTimer c t))

/-- The timer under an ID, as the maps of the shards find it. The slot lists are
not asked: that they list the same nodes is part of the invariant of the wheel,
not of this definition. -/
def TimeWheel.timer (cfg : Config) (w : TimeWheel) (id : String) : Option Timer :=
  (w.lookup cfg id).bind (fun n => (w.heap n).timer)

/-- A timer does not depend on the links of its node, so relinking a node, or
unlinking a neighbour of it, changes none. -/
theorem TaskSlot.timer_of_payload {a b : TaskSlot} (h : a.payload = b.payload) :
    a.timer = b.timer := by
  show a.payload.timer = b.payload.timer
  rw [h]

/-- A node in use stands for the timer of its task and its context. -/
theorem Used.timer_heap (hu : Used cfg w lists n i c t) :
    (w.heap n).timer = some ((w.heap n).asTimer c t) := by
  unfold TaskSlot.timer
  rw [hu.task_eq, hu.ctx_eq]
  rfl

/-- And the ID of its task leads to it, so this is the timer under the ID. -/
theorem Used.timer_eq (hu : Used cfg w lists n i c t) :
    w.timer cfg t.id = some ((w.heap n).asTimer c t) := by
  unfold TimeWheel.timer
  rw [hu.lookup]
  exact hu.timer_heap

/-- **A timer is a node in use.** So a property of all timers is one of all
nodes in use, and the other way round; this is how the invariant of the wheel
reaches the table. -/
theorem Inv.timer_eq_some_iff (h : Inv cfg w lists) {x : Timer} :
    w.timer cfg id = some x
      ↔ ∃ n i c t, Used cfg w lists n i c t ∧ t.id = id ∧ x = (w.heap n).asTimer c t := by
  constructor
  · intro hx
    obtain ⟨n, hn, hx⟩ := Option.bind_eq_some_iff.mp hx
    obtain ⟨i, c, t, hu, hid⟩ := h.used_of_lookup hn
    exact ⟨n, i, c, t, hu, hid, Option.some.inj (hx.symm.trans hu.timer_heap)⟩
  · rintro ⟨n, i, c, t, hu, rfl, rfl⟩
    exact hu.timer_eq

/-- There is no timer under an ID exactly if the maps have no entry for it: an
entry never leads to a node that is not in use. -/
theorem Inv.timer_eq_none_iff (h : Inv cfg w lists) :
    w.timer cfg id = none ↔ w.lookup cfg id = none := by
  constructor
  · intro hnone
    cases hn : w.lookup cfg id with
    | none => rfl
    | some n =>
      obtain ⟨i, c, t, hu, rfl⟩ := h.used_of_lookup hn
      exact absurd (hnone.symm.trans hu.timer_eq) (Option.some_ne_none _).symm
  · intro hn
    unfold TimeWheel.timer
    rw [hn]
    rfl

/-! ### Changes at one node -/

/-- **The frame of all operations.** An ID whose entry is not the node that
changes, neither before nor afterwards, keeps its timer. Entries of other nodes
stay, and so do the nodes themselves. -/
theorem timer_of_changesOnly (hc : ChangesOnly n w w' lists lists')
    (hn : w.lookup cfg id ≠ some n) (hn' : w'.lookup cfg id ≠ some n) :
    w'.timer cfg id = w.timer cfg id := by
  have hlookup : w'.lookup cfg id = w.lookup cfg id := by
    refine Option.ext (fun m => ?_)
    by_cases hm : m = n
    · subst hm
      exact ⟨fun h => absurd h hn', fun h => absurd h hn⟩
    · exact hc.entry _ id m hm
  unfold TimeWheel.timer
  rw [hlookup]
  cases hm : w.lookup cfg id with
  | none => rfl
  | some m =>
    have hne : m ≠ n := fun h => hn (h ▸ hm)
    exact TaskSlot.timer_of_payload (hc.payload m hne)

/-- The ID of a node in use is the only one it is entered under. -/
theorem Used.lookup_ne (hu : Used cfg w lists n i c t) (hid : id ≠ t.id) :
    w.lookup cfg id ≠ some n :=
  fun h => hid ((hu.entry _ _).mp h).2

/-- A node that is not in use before or afterwards changes no timer. This is
what happens to the node of an `AddTask` that finds its ID taken. -/
theorem timer_of_free (hc : ChangesOnly n w w' lists lists') (hf : Free w lists n)
    (hf' : Free w' lists' n) : w'.timer cfg = w.timer cfg :=
  funext (fun id => timer_of_changesOnly hc (hf.no_entry _ id) (hf'.no_entry _ id))

/-- A node that is released drops its timer. The ID is that of the task the node
had before. -/
theorem timer_of_freed (hc : ChangesOnly n w w' lists lists') (hu : Used cfg w lists n i c t)
    (hf' : Free w' lists' n) : w'.timer cfg = Function.update (w.timer cfg) t.id none := by
  funext id
  by_cases hid : id = t.id
  · subst hid
    rw [Function.update_self]
    unfold TimeWheel.timer
    have hnone : w'.lookup cfg t.id = none := by
      refine Option.eq_none_iff_forall_not_mem.mpr (fun m hm => ?_)
      by_cases hmn : m = n
      · exact hf'.no_entry _ _ (hmn ▸ hm)
      · have hm' := (hc.entry _ t.id m hmn).mp hm
        exact hmn (Option.some.inj (hm'.symm.trans hu.lookup))
    rw [hnone]
    rfl
  · rw [Function.update_of_ne hid]
    exact timer_of_changesOnly hc (hu.lookup_ne hid) (hf'.no_entry _ _)

/-- A node that is in use afterwards sets the timer of its task, provided it was
entered under no other ID before. The proviso holds of a node that comes from
the pool, which has no entry, and of one whose task stays the same. -/
theorem timer_of_used (hc : ChangesOnly n w w' lists lists')
    (hbefore : ∀ id, id ≠ t.id → w.lookup cfg id ≠ some n)
    (hu' : Used cfg w' lists' n i c t) :
    w'.timer cfg = Function.update (w.timer cfg) t.id (some ((w'.heap n).asTimer c t)) := by
  funext id
  by_cases hid : id = t.id
  · subst hid
    rw [Function.update_self]
    exact hu'.timer_eq
  · rw [Function.update_of_ne hid]
    exact timer_of_changesOnly hc (hbefore id hid) (hu'.lookup_ne hid)

/-! ## Registrations do not come back -/

/-- What is in use afterwards was in use before, or is a new registration.
Contexts are counted up and never given out twice; so an execution that
remembers the context it was collected for, and finds another one or none at its
node, knows that its registration is over for good. -/
structure Advances (cfg : Config) (w w' : TimeWheel) (lists lists' : ℕ → List NodeRef) :
    Prop where
  nextCtx : w.nextCtx ≤ w'.nextCtx
  back : ∀ m i c t, Used cfg w' lists' m i c t → c < w.nextCtx → ∃ j, Used cfg w lists m j c t

namespace Advances

/-- An operation that fails changes nothing, and nothing has to come back. -/
theorem refl (w : TimeWheel) (lists : ℕ → List NodeRef) : Advances cfg w w lists lists :=
  ⟨le_refl _, fun _ i _ _ hu _ => ⟨i, hu⟩⟩

/-- Two operations after each other; a registration that is old for the first
one is old for the second. -/
theorem trans (h : Advances cfg w w' lists lists') (h' : Advances cfg w' w'' lists' lists'') :
    Advances cfg w w'' lists lists'' where
  nextCtx := h.nextCtx.trans h'.nextCtx
  back := fun m i c t hu hlt => by
    obtain ⟨j, hu'⟩ := h'.back m i c t hu (lt_of_lt_of_le hlt h.nextCtx)
    exact h.back m j c t hu' hlt

/-- A change at one node, which is all there is to look at. All other nodes are
in use afterwards as they were before. -/
theorem of_changesOnly (hinv : Inv cfg w lists) (hc : ChangesOnly n w w' lists lists')
    (hn : ∀ i c t, Used cfg w' lists' n i c t → c < w.nextCtx → ∃ j, Used cfg w lists n j c t) :
    Advances cfg w w' lists lists' where
  nextCtx := hc.nextCtx
  back := fun m i c t hu hlt => by
    by_cases hm : m = n
    · subst hm
      exact hn i c t hu hlt
    · exact ⟨i, hc.used_before hinv hm hu⟩

/-- A change that frees its node cannot bring a registration back. -/
theorem of_free (hinv : Inv cfg w lists) (hc : ChangesOnly n w w' lists lists')
    (hf : Free w' lists' n) : Advances cfg w w' lists lists' :=
  of_changesOnly hinv hc (fun _ _ _ hu _ => absurd hu hf.not_used)

/-- A change that keeps its node in use, with the task and the context it had.
It may have moved to another slot. -/
theorem of_kept {j : ℕ} (hinv : Inv cfg w lists) (hc : ChangesOnly n w w' lists lists')
    (hu : Used cfg w lists n i c t) (hu' : Used cfg w' lists' n j c t) :
    Advances cfg w w' lists lists' := by
  refine of_changesOnly hinv hc (fun k d s hd _ => ?_)
  obtain ⟨-, rfl, rfl⟩ := hu'.unique hd
  exact ⟨i, hu⟩

end Advances

/-- What two wheels have in common does not depend on which of them comes first. -/
theorem SameCore.symm (h : SameCore w w') : SameCore w' w :=
  ⟨h.heap.symm, h.slots.symm, h.shards.symm, h.taskPool.symm, h.nextNode.symm, h.nextCtx.symm,
    h.running.symm⟩

/-! ## The table of a wheel -/

/-- **The table holds the timers of the wheel.** The first three fields are the
invariant of a wheel that runs: its contexts are sound, and every task in it has
passed the checks of `AddTask`. The others say that the table shows it: the same
timers, the same cursor, the same calls to the alert sinks. Two things are only
bounded. The table may count registrations more slowly than the wheel, which
uses a context for an `AddTask` that fails as well; and a pooled node that is
paused makes the table `stale`, so that a new timer of the table may come out
paused when the wheel hands this node out. -/
structure Reflects (cfg : Config) (w : TimeWheel) (lists : ℕ → List NodeRef) (tt : Timetable) :
    Prop where
  ctxs : CtxSound cfg w lists
  running : w.running = true
  checked : ∀ n i c t, Used cfg w lists n i c t → checkTask t = .ok t
  timers : tt.timers = w.timer cfg
  next : tt.next ≤ w.nextCtx
  cursor : tt.cursor = w.currentSlot
  stale : ∀ n ∈ w.taskPool, (w.heap n).paused = true → tt.stale
  events : tt.events = w.alertEvents

namespace Reflects

/-- The contexts of a wheel are only sound if its lists are. -/
theorem inv (h : Reflects cfg w lists tt) : Inv cfg w lists := h.ctxs.inv

/-- A timer of the table is that of a node. -/
theorem used (h : Reflects cfg w lists tt) {x : Timer} (hx : tt.timers id = some x) :
    ∃ n i, Used cfg w lists n i x.registration x.task ∧ x.task.id = id
      ∧ x = (w.heap n).asTimer x.registration x.task := by
  rw [h.timers] at hx
  obtain ⟨n, i, c, t, hu, hid, rfl⟩ := h.inv.timer_eq_some_iff.mp hx
  exact ⟨n, i, hu, hid, rfl⟩

/-- What the table does not hold, the wheel does not find, -/
theorem lookup_eq_none (h : Reflects cfg w lists tt) (hx : tt.timers id = none) :
    w.lookup cfg id = none := by
  rw [h.timers] at hx
  exact h.inv.timer_eq_none_iff.mp hx

/-- and the other way round. -/
theorem timer_eq_none (h : Reflects cfg w lists tt) (hn : w.lookup cfg id = none) :
    tt.timers id = none := by
  rw [h.timers]
  exact h.inv.timer_eq_none_iff.mpr hn

/-- The tasks of a table have been checked, which is why the second `AddTask` of
a rollback cannot fail. -/
theorem check (h : Reflects cfg w lists tt) {x : Timer} (hx : tt.timers id = some x) :
    checkTask x.task = .ok x.task := by
  obtain ⟨n, i, hu, -, -⟩ := h.used hx
  exact h.checked n i _ _ hu

/-- No task is registered under the empty ID, since `AddTask` refuses it. -/
theorem id_ne (h : Reflects cfg w lists tt) {x : Timer} (hx : tt.timers id = some x) :
    id ≠ "" := by
  obtain ⟨n, i, hu, rfl, -⟩ := h.used hx
  exact (checkTask_ok (h.checked n i _ _ hu)).1

end Reflects

/-- Nodes put into the pool, or left there, that are paused: only the node that
changes may be a new one among them. -/
theorem stale_of_changesOnly {P : Prop} (hc : ChangesOnly n w w' lists lists')
    (h : ∀ m ∈ w.taskPool, (w.heap m).paused = true → P)
    (hn : n ∈ w'.taskPool → (w'.heap n).paused = true → P) :
    ∀ m ∈ w'.taskPool, (w'.heap m).paused = true → P := by
  intro m hm hp
  by_cases hmn : m = n
  · subst hmn
    exact hn hm hp
  · refine h m (hc.pool m hmn hm) ?_
    show (w.heap m).payload.paused = true
    rw [← hc.payload m hmn]
    exact hp

/-- The shortest interval the checks allow is positive, -/
theorem millisecond_pos : 0 < Duration.millisecond := by decide

/-- A checked task passes the checks unchanged. They fill in defaults and raise
what is too small, and what they have filled in is large enough. -/
theorem checkTask_idem {t' : Task} (h : checkTask t = .ok t') : checkTask t' = .ok t' := by
  obtain ⟨hid, hrun, hchecked⟩ := checkTask_ok h
  cases hchecked with
  | repeated hmode hinterval =>
    unfold checkTask
    rw [if_neg hid, if_neg hrun, hmode]
    exact if_neg (not_le.mpr hinterval)
  | once hmode =>
    have hpos : ∀ s : Task, s.mode = .once → s.id ≠ "" → s.run ≠ none → 0 < s.interval →
        checkTask s = .ok s := by
      intro s hs hsid hsrun hinterval
      unfold checkTask
      rw [if_neg hsid, if_neg hsrun, hs]
      exact congrArg Except.ok (if_neg (not_le.mpr hinterval))
    split_ifs with hi
    · exact hpos _ hmode hid hrun millisecond_pos
    · exact hpos _ hmode hid hrun (not_le.mp hi)
  | fixedTimes hmode htimes hinterval =>
    unfold checkTask
    rw [if_neg hid, if_neg hrun, hmode]
    exact (if_neg (not_le.mpr htimes)).trans (if_neg (not_le.mpr hinterval))
  | other hmode hinterval =>
    unfold checkTask
    rw [if_neg hid, if_neg hrun]
    exact if_neg (not_le.mpr hinterval)

/-- so a task that passes them has a positive interval. `ResumeTask` relies on
it. -/
theorem interval_pos_of_check {t' : Task} (h : checkTask t = .ok t') : 0 < t'.interval := by
  cases (checkTask_ok h).2.2 with
  | repeated hmode hinterval => exact hinterval
  | once hmode =>
    split_ifs with hi
    · exact millisecond_pos
    · exact not_le.mp hi
  | fixedTimes hmode htimes hinterval => exact hinterval
  | other hmode hinterval => exact hinterval

/-! ### What the calls leave alone -/

/-- The cursor and the calls to the sinks, which no call of the interface
touches: only a tick moves the cursor, and only the end of an execution tells a
sink. -/
structure SameRest (w w' : TimeWheel) : Prop where
  currentSlot : w'.currentSlot = w.currentSlot
  alertEvents : w'.alertEvents = w.alertEvents

/-- Relinking nodes leaves them alone, -/
theorem SameRest.of_relinked (h : Relinked w w') : SameRest w w' := by
  obtain ⟨heap, slots, rfl⟩ := h.frame
  exact ⟨rfl, rfl⟩

/-- and so do two operations that each do. -/
theorem SameRest.trans (h : SameRest w w') (h' : SameRest w' w'') : SameRest w w'' :=
  ⟨h'.currentSlot.trans h.currentSlot, h'.alertEvents.trans h.alertEvents⟩

/-- Taking a node from the pool, or making a new one, -/
theorem poolGet_rest (w : TimeWheel) (choice : Option NodeRef) :
    SameRest w (w.poolGet choice).2 := by
  unfold poolGet
  cases choice with
  | none => exact ⟨rfl, rfl⟩
  | some n =>
    dsimp only
    split_ifs
    · exact ⟨rfl, rfl⟩
    · exact ⟨rfl, rfl⟩

/-- filling it in, -/
theorem prepareNode_rest (w : TimeWheel) (t : Task) (env : AddEnv) :
    SameRest w (w.prepareNode cfg t env).2 := by
  have hpool := poolGet_rest w env.node
  unfold prepareNode
  generalize w.poolGet env.node = g at hpool ⊢
  exact ⟨hpool.currentSlot, hpool.alertEvents⟩

/-- and linking it into its slot: the three parts of `AddTask`. -/
theorem linkTask_rest (w : TimeWheel) (n : NodeRef) (t : Task) (env : AddEnv) :
    SameRest w (w.linkTask cfg n t env) := by
  have hrel := SameRest.of_relinked
    (relinked_insertOrdered w n t.priority (w.heap n).slotIndex)
  exact ⟨hrel.currentSlot, hrel.alertEvents⟩

/-- `AddTask` as a whole, whether it succeeds or is refused. -/
theorem addTask_rest (w : TimeWheel) (task : Option Task) (env : AddEnv) :
    SameRest w (w.addTask cfg task env).2 := by
  unfold addTask
  cases task with
  | none => exact ⟨rfl, rfl⟩
  | some t =>
    dsimp only
    cases checkTask t with
    | error err => exact ⟨rfl, rfl⟩
    | ok t' =>
      dsimp only
      split_ifs
      · exact ⟨rfl, rfl⟩
      · have hprep := @prepareNode_rest cfg w t' env
        generalize w.prepareNode cfg t' env = g at hprep ⊢
        obtain ⟨n, w₁⟩ := g
        dsimp only at hprep ⊢
        split
        · exact ⟨hprep.currentSlot, hprep.alertEvents⟩
        · exact hprep.trans (linkTask_rest w₁ n t' env)

/-- `RemoveTask`, whether the store deletes its row or not. -/
theorem removeTask_rest (w : TimeWheel) (id : String) (deleteOk : Bool) :
    SameRest w (w.removeTask cfg id deleteOk).2 := by
  unfold removeTask
  by_cases hid : id = ""
  · rw [if_pos hid]
    exact ⟨rfl, rfl⟩
  · rw [if_neg hid]
    cases w.lookup cfg id with
    | none => exact ⟨rfl, rfl⟩
    | some n =>
      have hrel := SameRest.of_relinked (w.unlink_spec n (w.heap n).slotIndex).1
      exact ⟨hrel.currentSlot, hrel.alertEvents⟩

/-- One round of `ClearAllTasks`. -/
theorem clearTask_rest (w : TimeWheel) (id : String) : SameRest w (w.clearTask cfg id) := by
  cases hn : w.lookup cfg id with
  | none =>
    rw [clearTask_of_lookup_none hn]
    exact ⟨rfl, rfl⟩
  | some n =>
    obtain ⟨w₁, hrel, hclear⟩ := clearTask_frame hn
    rw [hclear]
    have hrest := SameRest.of_relinked hrel
    exact ⟨hrest.currentSlot, hrest.alertEvents⟩

/-! ## The calls -/

/-- What the pool hands out paused was released paused: `AddTask` sets every
field of a node but this one. -/
theorem mem_of_handsOutPaused {choice : Option NodeRef} (h : w.handsOutPaused choice = true) :
    ∃ n ∈ w.taskPool, (w.heap n).paused = true := by
  cases choice with
  | none => exact absurd h Bool.false_ne_true
  | some n =>
    have hn : (decide (n ∈ w.taskPool) && (w.heap n).paused) = true := h
    rw [Bool.and_eq_true, decide_eq_true_iff] at hn
    exact ⟨n, hn⟩

/-- The timer `AddTask` sets, read off the node it has filled in. It is the one
the table would set, with the next context as its registration, and paused only
if the node came out of the pool so. -/
theorem addTask_timer {t' : Task} (hcheck : checkTask t = .ok t') (hrun : w.running = true)
    (hnew : w.lookup cfg t'.id = none) (env : AddEnv)
    (hn : (w.addTask cfg (some t) env).2.lookup cfg t'.id = some n) :
    ((w.addTask cfg (some t) env).2.heap n).asTimer w.nextCtx t'
      = .set cfg w.nextCtx t' env.now (w.handsOutPaused env.node) := by
  obtain ⟨w', hadd, hlookup, hself, -⟩ := addTask_payload hcheck hrun hnew env
  rw [hadd] at hn ⊢
  have hnode : (w.poolGet env.node).1 = n := by
    have h := hlookup t'.id
    rw [if_pos rfl] at h
    exact Option.some.inj (h.symm.trans hn)
  show (w'.heap n).payload.asTimer w.nextCtx t' = _
  rw [← hnode, hself, ← (poolGet_records w env.node).2.1]
  rfl

namespace Reflects

/-- **`AddTask`** adds to the table. There are three cases, those of
`addTask_cases`. A call that is refused before it takes a node leaves the wheel
as it is. One that finds its ID taken has taken a node and puts it back, so no
timer changes, and the table stays although the wheel has moved. And one that
succeeds sets the timer of its ID, which had none. -/
theorem addTask (h : Reflects cfg w lists tt) (task : Option Task) (env : AddEnv) :
    ∃ lists' tt', Timetable.Adds cfg tt env.now task (w.addTask cfg task env).1 tt'
      ∧ Reflects cfg (w.addTask cfg task env).2 lists' tt'
      ∧ Advances cfg w (w.addTask cfg task env).2 lists lists' := by
  have hadd := addTask_cases h.inv task env
  obtain ⟨lists₁, hctxs⟩ := h.ctxs.addTask task env
  have hrest := @addTask_rest cfg w task env
  have htimer : ∀ t t' n, task = some t → checkTask t = .ok t' → w.lookup cfg t'.id = none →
      (w.addTask cfg task env).2.lookup cfg t'.id = some n →
      ((w.addTask cfg task env).2.heap n).asTimer w.nextCtx t'
        = .set cfg w.nextCtx t' env.now (w.handsOutPaused env.node) := by
    rintro t t' n rfl hcheck hnew hn
    exact addTask_timer hcheck h.running hnew env hn
  generalize w.addTask cfg task env = r at hadd hctxs hrest htimer ⊢
  cases hadd with
  | rejected reason =>
    cases reason with
    | isNil => exact ⟨lists, tt, .isNil, h, .refl w lists⟩
    | check hcheck => exact ⟨lists, tt, .unfit hcheck, h, .refl w lists⟩
    | notRunning hcheck hr => exact absurd (hr.symm.trans h.running) Bool.false_ne_true
  | @duplicate t t' n w' task_eq check running taken inv changes handedOut free installed =>
    subst task_eq
    -- two descriptions of the lists after the same call agree
    obtain rfl := inv.lists_eq hctxs.inv
    refine ⟨lists, tt, .taken check ?_, ?_, .of_free h.inv changes free⟩
    · exact fun hnone => taken (h.lookup_eq_none hnone)
    · exact {
        ctxs := hctxs
        running := changes.running.trans h.running
        checked := fun m i c s hu => h.checked m i c s (changes.used_before h.inv
          (fun hm => free.not_used (hm ▸ hu)) hu)
        timers := h.timers.trans (timer_of_free changes handedOut.free free).symm
        next := h.next.trans changes.nextCtx
        cursor := h.cursor.trans hrest.currentSlot.symm
        stale := stale_of_changesOnly changes h.stale
          (fun _ hp => h.stale n (installed.paused hp).1 (installed.paused hp).2)
        events := h.events.trans hrest.alertEvents.symm }
  | @added t t' n w' lists' i task_eq check running new inv changes handedOut used installed =>
    subst task_eq
    obtain rfl := hctxs.inv.lists_eq inv
    have hset := htimer t t' n rfl check new used.lookup
    have hstale : w.handsOutPaused env.node = true → tt.stale := fun hp => by
      obtain ⟨m, hm, hpm⟩ := mem_of_handsOutPaused hp
      exact h.stale m hm hpm
    refine ⟨lists₁, _, .added check (h.timer_eq_none new) h.next hstale, ?_,
      .of_changesOnly h.inv changes (fun j c s hu hlt => ?_)⟩
    · exact {
        ctxs := hctxs
        running := changes.running.trans h.running
        checked := fun m j c s hu => by
          by_cases hm : m = n
          · subst hm
            obtain ⟨-, -, rfl⟩ := used.unique hu
            exact checkTask_idem check
          · exact h.checked m j c s (changes.used_before h.inv hm hu)
        timers := by
          show Function.update tt.timers t'.id _ = _
          rw [timer_of_used changes (fun id _ => handedOut.free.no_entry _ id) used, hset,
            h.timers]
        next := installed.nextCtx
        cursor := h.cursor.trans hrest.currentSlot.symm
        stale := stale_of_changesOnly changes h.stale
          (fun hm _ => absurd hm used.not_pooled)
        events := h.events.trans hrest.alertEvents.symm }
    · -- the new registration is not an old one
      obtain ⟨-, rfl, -⟩ := used.unique hu
      exact absurd hlt (lt_irrefl _)

/-- **Releasing a node drops its timer.** A wheel whose node has been released
reflects the table without it. The node goes back to the pool with its `paused`
flag, and the table without the timer is stale if the timer was paused; so the
two agree again on what the pool may hand out. -/
theorem of_released (h : Reflects cfg w lists tt) (hu : Used cfg w lists n i c t)
    (hctxs : CtxSound cfg w' lists') (hc : ChangesOnly n w w' lists lists')
    (hr : Released w' lists' n) (hrest : SameRest w w')
    (hpaused : (w'.heap n).paused = (w.heap n).paused) :
    Reflects cfg w' lists' (tt.drop t.id) ∧ Advances cfg w w' lists lists' := by
  refine ⟨?_, .of_free h.inv hc hr.toFree⟩
  exact {
    ctxs := hctxs
    running := hc.running.trans h.running
    checked := fun m i c s hu => h.checked m i c s (hc.used_before h.inv
      (fun hm => hr.toFree.not_used (hm ▸ hu)) hu)
    timers := by
      rw [timer_of_freed hc hu hr.toFree, ← h.timers]
      rfl
    next := h.next.trans hc.nextCtx
    cursor := h.cursor.trans hrest.currentSlot.symm
    stale := stale_of_changesOnly hc (fun m hm hp => Or.inl (h.stale m hm hp))
      (fun _ hp => Or.inr ⟨_, h.timers ▸ hu.timer_eq, hpaused.symm.trans hp⟩)
    events := h.events.trans hrest.alertEvents.symm }

/-- **`RemoveTask`** of an ID that is not registered fails and changes nothing. -/
theorem removeTask_missing (h : Reflects cfg w lists tt) (hfree : tt.timers id = none)
    (deleteOk : Bool) : w.removeTask cfg id deleteOk = (some (missingErr id), w) := by
  obtain ⟨g, hg, -⟩ := removeTask_eq cfg w id deleteOk
  rw [hg]
  exact withEntry_missing (Or.inr (h.lookup_eq_none hfree))

/-- **`RemoveTask`** drops the timer, also when the store fails to delete its
row: the error of the store is only logged. -/
theorem removeTask (h : Reflects cfg w lists tt) {x : Timer} (hx : tt.timers id = some x)
    (deleteOk : Bool) :
    (w.removeTask cfg id deleteOk).1 = none
      ∧ ∃ lists', Reflects cfg (w.removeTask cfg id deleteOk).2 lists' (tt.drop id)
        ∧ Advances cfg w (w.removeTask cfg id deleteOk).2 lists lists' := by
  obtain ⟨n, i, hu, hid, -⟩ := h.used hx
  have hne := h.id_ne hx
  have hlookup : w.lookup cfg id = some n := hid ▸ hu.lookup
  obtain ⟨w₁, hremove, -, -, -, -, -, -, hpaused⟩ := removeTask_records hne hlookup deleteOk
  have hcases := removeTask_cases h.inv id deleteOk
  obtain ⟨lists₁, hctxs⟩ := h.ctxs.removeTask id deleteOk
  have hrest := @removeTask_rest cfg w id deleteOk
  rw [hremove] at hcases hctxs hrest ⊢
  refine ⟨rfl, ?_⟩
  cases hcases with
  | @removed m j d s _ lists' _ used id_eq inv changes released =>
    obtain rfl := hctxs.inv.lists_eq inv
    subst id_eq
    obtain rfl : m = n := Option.some.inj (used.lookup.symm.trans hlookup)
    exact ⟨lists₁, h.of_released used hctxs changes released hrest (hpaused m)⟩

/-- **`UpdateTask`** replaces the timer, and never fails to put the old task
back. The call is a `RemoveTask` followed by an `AddTask`, and by a second one
when the first is refused; so the proof follows these with the lemmas above. The
rollback cannot fail: the old task has passed the checks once, and its ID is
free since the call itself has removed it. What it leaves is a timer of a new
registration, with the counter and the alert state at their beginning. -/
theorem updateTask (h : Reflects cfg w lists tt) (task : Option Task) (env : UpdateEnv) :
    ∃ lists' tt', Timetable.Updates cfg tt env.add.now env.rollback.now task
        (w.updateTask cfg task env).1 tt'
      ∧ Reflects cfg (w.updateTask cfg task env).2 lists' tt'
      ∧ Advances cfg w (w.updateTask cfg task env).2 lists lists' := by
  unfold TimeWheel.updateTask
  cases task with
  | none => exact ⟨lists, tt, .isNil, h, .refl w lists⟩
  | some t =>
    dsimp only
    by_cases hid : t.id = ""
    · rw [if_pos hid]
      exact ⟨lists, tt, .invalid (Or.inl hid), h, .refl w lists⟩
    by_cases hrun : t.run = none
    · rw [if_neg hid, if_pos hrun]
      exact ⟨lists, tt, .invalid (Or.inr hrun), h, .refl w lists⟩
    rw [if_neg hid, if_neg hrun, if_neg (by rw [h.running]; exact Bool.noConfusion)]
    cases hx : tt.timers t.id with
    | none =>
      rw [h.lookup_eq_none hx]
      exact ⟨lists, tt, .missing hid hrun hx, h, .refl w lists⟩
    | some x =>
      obtain ⟨n, i, hu, hidx, -⟩ := h.used hx
      have hlookup : w.lookup cfg t.id = some n := hidx ▸ hu.lookup
      obtain ⟨hnone, lists₁, h₁, hadv₁⟩ := h.removeTask hx env.deleteOk
      rw [hlookup]
      dsimp only
      rw [hu.task_eq]
      generalize w.removeTask cfg t.id env.deleteOk = r₁ at hnone h₁ hadv₁ ⊢
      obtain ⟨err₁, w₁⟩ := r₁
      obtain rfl : err₁ = none := hnone
      obtain ⟨lists₂, tt₂, hadd, h₂, hadv₂⟩ := h₁.addTask (some t) env.add
      dsimp only at h₁ hadv₁ ⊢
      generalize w₁.addTask cfg (some t) env.add = r₂ at hadd h₂ hadv₂ ⊢
      obtain ⟨_ | err, w₂⟩ := r₂
      · exact ⟨lists₂, tt₂, .updated hx hadd, h₂, hadv₁.trans hadv₂⟩
      · dsimp only at hadd h₂ hadv₂ ⊢
        have hgone : (tt.drop t.id).timers t.id = none := Function.update_self _ _ _
        -- the ID is free now, so only the checks can have refused the new task
        obtain ⟨hunfit, rfl⟩ : checkTask t = .error err ∧ tt₂ = tt.drop t.id := by
          cases hadd with
          | unfit hcheck => exact ⟨hcheck, rfl⟩
          | taken hcheck held =>
            have hid' := (checkTask_ok hcheck).2.2.id_eq
            exact absurd (hid' ▸ hgone) held
        obtain ⟨lists₃, tt₃, hback, h₃, hadv₃⟩ := h₂.addTask (some x.task) env.rollback
        generalize w₂.addTask cfg (some x.task) env.rollback = r₃ at hback h₃ hadv₃ ⊢
        obtain ⟨_ | err₃, w₃⟩ := r₃
        · exact ⟨lists₃, tt₃, .rolledBack hx hrun hunfit hback, h₃,
            (hadv₁.trans hadv₂).trans hadv₃⟩
        · -- the old task has passed the checks, and its ID is free
          cases hback with
          | unfit hcheck =>
            have hne := (h.check hx).symm.trans hcheck
            cases hne
          | taken hcheck held =>
            have hid' := (checkTask_ok hcheck).2.2.id_eq
            exact absurd ((hid'.trans hidx) ▸ hgone) held

/-- The node of a timer is written, its task, context and slot apart. Whatever
else is written shows in the table, as the timer that is put in place of the old
one. -/
theorem setNode (h : Reflects cfg w lists tt) (hu : Used cfg w lists n i c t) {node : TaskSlot}
    (hnext : node.next = (w.heap n).next) (hprev : node.prev = (w.heap n).prev)
    (htag : node.tag = (w.heap n).tag) (hcancel : node.cancel = (w.heap n).cancel) :
    Reflects cfg (w.setNode n node) lists (tt.put t.id (node.asTimer c t))
      ∧ Advances cfg w (w.setNode n node) lists lists := by
  have hc := changesOnly_setNode w n node lists
  have hu' : Used cfg (w.setNode n node) lists n i c t := hu.setNode htag
  have hctx : node.ctx = (w.heap n).ctx := congrArg (fun g => g.2.1) htag
  refine ⟨?_, .of_kept h.inv hc hu hu'⟩
  exact {
    ctxs := h.ctxs.setNode hnext hprev htag (hcancel.trans ((h.ctxs.linked n).trans hctx.symm))
    running := h.running
    checked := fun m j d s hs => by
      by_cases hm : m = n
      · subst hm
        obtain ⟨-, -, rfl⟩ := hu'.unique hs
        exact h.checked m i c t hu
      · exact h.checked m j d s (hc.used_before h.inv hm hs)
    timers := by
      rw [timer_of_used hc (fun id hid => hu.lookup_ne hid) hu', heap_setNode_self, ← h.timers]
      rfl
    next := h.next
    cursor := h.cursor
    stale := stale_of_changesOnly hc h.stale (fun hm _ => absurd hm hu.not_pooled)
    events := h.events }

/-- Tables that show the same. The registrations may be counted differently, and
a stale table stays so. -/
theorem retable {tt' : Timetable} (h : Reflects cfg w lists tt) (timers : tt'.timers = tt.timers)
    (next : tt'.next = tt.next) (cursor : tt'.cursor = tt.cursor) (stale : tt.stale → tt'.stale)
    (events : tt'.events = tt.events) : Reflects cfg w lists tt' where
  ctxs := h.ctxs
  running := h.running
  checked := h.checked
  timers := timers.trans h.timers
  next := next.trans_le h.next
  cursor := cursor.trans h.cursor
  stale := fun m hm hp => stale (h.stale m hm hp)
  events := events.trans h.events

/-- A timer put in its own place. This is what `ResumeTask` does with a task
that is not paused. -/
theorem put_self (h : Reflects cfg w lists tt) {x : Timer} (hx : tt.timers id = some x) :
    Reflects cfg w lists (tt.put id x) := by
  refine h.retable ?_ rfl rfl (fun hs => hs) rfl
  show Function.update tt.timers id (some x) = tt.timers
  rw [← hx, Function.update_eq_self]

/-- **`PauseTask`** of an ID that is not registered, -/
theorem pauseTask_missing (h : Reflects cfg w lists tt) (hfree : tt.timers id = none) :
    w.pauseTask cfg id = (some (missingErr id), w) := by
  obtain ⟨g, hg, -⟩ := pauseTask_eq cfg w id
  rw [hg]
  exact withEntry_missing (Or.inr (h.lookup_eq_none hfree))

/-- and **`ResumeTask`**: both fail and change nothing. -/
theorem resumeTask_missing (h : Reflects cfg w lists tt) (hfree : tt.timers id = none)
    (now : Time) : w.resumeTask cfg id now = (some (missingErr id), w) := by
  obtain ⟨g, hg, -⟩ := resumeTask_eq cfg w id now
  rw [hg]
  exact withEntry_missing (Or.inr (h.lookup_eq_none hfree))

/-- **`PauseTask`** sets the flag of the timer and nothing else: the node stays
in its slot with its due time, and ticks pass it by. -/
theorem pauseTask (h : Reflects cfg w lists tt) {x : Timer} (hx : tt.timers id = some x) :
    (w.pauseTask cfg id).1 = none
      ∧ Reflects cfg (w.pauseTask cfg id).2 lists (tt.put id { x with paused := true })
      ∧ Advances cfg w (w.pauseTask cfg id).2 lists lists := by
  obtain ⟨n, i, hu, rfl, hself⟩ := h.used hx
  unfold TimeWheel.pauseTask
  rw [if_neg (h.id_ne hx), hu.lookup]
  dsimp only
  split_ifs with hp
  · have hsame : { x with paused := true } = x := by
      have hxp : x.paused = true := by
        rw [hself]
        exact hp
      rw [← hxp]
    rw [hsame]
    exact ⟨rfl, h.put_self hx, .refl w lists⟩
  · obtain ⟨hset, hadv⟩ := h.setNode hu
      (show ({ w.heap n with paused := true } : TaskSlot).next = (w.heap n).next from rfl)
      rfl rfl rfl
    refine ⟨rfl, ?_, hadv⟩
    have hnode : ({ w.heap n with paused := true } : TaskSlot).asTimer x.registration x.task
        = { x with paused := true } := by
      conv_rhs => rw [hself]
      rfl
    rw [← hnode]
    exact hset

/-- **`ResumeTask`** lets a paused timer count from now. The due time is set,
but the node stays in the slot it is in, and `Timer.resume` keeps the slot
accordingly. A timer that is not paused is left as it is. -/
theorem resumeTask (h : Reflects cfg w lists tt) {x : Timer} (hx : tt.timers id = some x)
    (now : Time) :
    (w.resumeTask cfg id now).1 = none
      ∧ Reflects cfg (w.resumeTask cfg id now).2 lists (tt.put id (x.resume now))
      ∧ Advances cfg w (w.resumeTask cfg id now).2 lists lists := by
  have hpos := interval_pos_of_check (h.check hx)
  obtain ⟨n, i, hu, rfl, hself⟩ := h.used hx
  have hpaused : x.paused = (w.heap n).paused := by
    rw [hself]
    rfl
  unfold TimeWheel.resumeTask Timer.resume
  rw [if_neg (h.id_ne hx), hu.lookup]
  dsimp only
  rw [hpaused]
  cases hp : (w.heap n).paused with
  | false =>
    rw [if_pos rfl, if_neg Bool.false_ne_true]
    exact ⟨rfl, h.put_self hx, .refl w lists⟩
  | true =>
    rw [if_neg Bool.noConfusion, if_pos rfl, hu.task_eq]
    dsimp only
    rw [if_pos hpos, ← hu.task_eq]
    obtain ⟨hset, hadv⟩ := h.setNode hu
      (show ({ w.heap n with paused := false, runAt := now.add x.task.interval } : TaskSlot).next
        = (w.heap n).next from rfl) rfl rfl rfl
    refine ⟨rfl, ?_, hadv⟩
    have hnode : ({ w.heap n with paused := false, runAt := now.add x.task.interval }
        : TaskSlot).asTimer x.registration x.task
        = { x with paused := false, runAt := now.add x.task.interval } := by
      conv_rhs => rw [hself]
      rfl
    rw [← hnode]
    exact hset

/-- A change to what the table does not show: metrics, the history, nodes of the
pool apart from their `paused` flag. -/
theorem congr (h : Reflects cfg w lists tt) (hcore : SameCore w w') (hctx : w'.ctx = w.ctx)
    (hctxs : w'.ctxs = w.ctxs) (hrest : SameRest w w') :
    Reflects cfg w' lists tt ∧ Advances cfg w w' lists lists := by
  have hback : ∀ n i c t, Used cfg w' lists n i c t → Used cfg w lists n i c t :=
    fun _ _ _ _ hu => hcore.symm.used hu
  refine ⟨?_, hcore.nextCtx.ge, fun m i c t hu _ => ⟨i, hback m i c t hu⟩⟩
  exact {
    ctxs := h.ctxs.congr hcore hctx hctxs
    running := hcore.running.trans h.running
    checked := fun n i c t hu => h.checked n i c t (hback n i c t hu)
    timers := by
      refine h.timers.trans (funext (fun id => ?_))
      unfold TimeWheel.timer
      rw [hcore.lookup, hcore.heap]
    next := h.next.trans hcore.nextCtx.ge
    cursor := h.cursor.trans hrest.currentSlot.symm
    stale := fun n hn hp => h.stale n (hcore.taskPool ▸ hn) (by rwa [hcore.heap] at hp)
    events := h.events.trans hrest.alertEvents.symm }

/-! ### Clearing -/

/-- Clearing one entry drops its timer, if there is one. This is the body of the
loop of `ClearAllTasks`. -/
theorem clearTask (h : Reflects cfg w lists tt) (id : String) :
    ∃ lists', Reflects cfg (w.clearTask cfg id) lists' (tt.drop id)
      ∧ Advances cfg w (w.clearTask cfg id) lists lists' := by
  rcases clearTask_cases h.inv id with ⟨hn, heq⟩ | ⟨n, i, c, t, lists', hu, rfl, hinv, hc, hr⟩
  · rw [heq]
    refine ⟨lists, h.retable ?_ rfl rfl Or.inl rfl, .refl w lists⟩
    show Function.update tt.timers id none = tt.timers
    rw [← h.timer_eq_none hn, Function.update_eq_self]
  · obtain ⟨hlinked, hctx, hctxs⟩ := clearTask_ctxs h.ctxs.linked hu.lookup
    have hsound := h.ctxs.of_released hu hinv hc hr hlinked hctx hctxs
    exact ⟨lists', h.of_released hu hsound hc hr (clearTask_rest w t.id)
      (clearTask_released hu.lookup).paused⟩

/-- Clearing one entry after the other, whatever their order: the loop goes
through a snapshot of the IDs, and in a run no call comes in between. -/
theorem clearTasks (h : Reflects cfg w lists tt) (ids : List String) :
    ∃ lists', Reflects cfg (ids.foldl (fun w id => w.clearTask cfg id) w) lists'
        (ids.foldl Timetable.drop tt)
      ∧ Advances cfg w (ids.foldl (fun w id => w.clearTask cfg id) w) lists lists' := by
  induction ids generalizing w lists tt with
  | nil => exact ⟨lists, h, .refl w lists⟩
  | cons id ids ih =>
    obtain ⟨lists₁, h₁, hadv₁⟩ := h.clearTask id
    obtain ⟨lists₂, h₂, hadv₂⟩ := ih h₁
    exact ⟨lists₂, h₂, hadv₁.trans hadv₂⟩

end Reflects

/-- Dropping one timer after the other only changes the timers, and what may be
stale. The timers that are left are those whose ID is not in the list. -/
theorem foldl_drop (ids : List String) (tt : Timetable) : ∃ timers stale,
    ids.foldl Timetable.drop tt = { tt with timers := timers, stale := stale }
      ∧ (∀ id, timers id = if id ∈ ids then none else tt.timers id)
      ∧ (stale → tt.clear.stale) := by
  induction ids generalizing tt with
  | nil => exact ⟨tt.timers, tt.stale, rfl, fun _ => rfl, Or.inl⟩
  | cons id ids ih =>
    obtain ⟨timers, stale, heq, htimers, hstale⟩ := ih (tt.drop id)
    refine ⟨timers, stale, heq, fun id' => ?_, fun hs => ?_⟩
    · rw [htimers]
      by_cases hid : id' = id
      · subst hid
        rw [if_pos List.mem_cons_self]
        show (if id' ∈ ids then none else Function.update tt.timers id' none id') = none
        rw [Function.update_self, ite_self]
      · show (if id' ∈ ids then none else Function.update tt.timers id none id') = _
        rw [Function.update_of_ne hid]
        simp [hid]
    · rcases hstale hs with hs | ⟨id', x, hx, hp⟩
      · exact hs.imp_right (fun ⟨x, hx⟩ => ⟨id, x, hx⟩)
      · by_cases hid : id' = id
        · subst hid
          have hx : Function.update tt.timers id' none id' = some x := hx
          rw [Function.update_self] at hx
          exact absurd hx (Option.some_ne_none x).symm
        · have hx : Function.update tt.timers id none id' = some x := hx
          rw [Function.update_of_ne hid] at hx
          exact Or.inr ⟨id', x, hx, hp⟩

/-- The map holds each ID once. A shard is chosen by the ID, so no two shards
have an ID in common. -/
theorem Inv.nodup_allIDs (h : Inv cfg w lists) : (w.allIDs cfg).Nodup := by
  refine List.nodup_flatMap.mpr ⟨fun j _ => (w.shards j).nodupKeys, ?_⟩
  refine List.nodup_range.imp (fun hne id hj hk => ?_)
  obtain ⟨m, hm⟩ := Option.isSome_iff_exists.mp (AList.lookup_isSome.mpr (AList.mem_keys.mpr hj))
  obtain ⟨n, hn⟩ := Option.isSome_iff_exists.mp (AList.lookup_isSome.mpr (AList.mem_keys.mpr hk))
  exact hne ((h.wellFormed.entry _ id m hm).1.trans (h.wellFormed.entry _ id n hn).1.symm)

/-- What `ClearAllTasks` counts, the IDs of its snapshot, is the number of
timers. -/
theorem Reflects.length_allIDs (h : Reflects cfg w lists tt) :
    (w.allIDs cfg).length = tt.ids.ncard := by
  have hset : tt.ids = ↑(w.allIDs cfg).toFinset := by
    ext id
    rw [List.coe_toFinset]
    constructor
    · intro hid
      refine mem_allIDs w id (fun hn => hid (h.timer_eq_none hn))
    · intro hid hnone
      exact h.inv.lookup_of_mem_allIDs hid (h.lookup_eq_none hnone)
  rw [hset, Set.ncard_coe_finset, List.toFinset_card_of_nodup h.inv.nodup_allIDs]

/-- **`ClearAllTasks`** drops all timers, and returns their number. The code
goes through the IDs in the order of its maps, which is any order; the table
without any timer is the same for all of them. -/
theorem Reflects.clearAllTasks (h : Reflects cfg w lists tt) (order : List String) (now : Time) :
    (w.clearAllTasks cfg order now).1 = tt.ids.ncard
      ∧ ∃ lists', Reflects cfg (w.clearAllTasks cfg order now).2 lists' tt.clear
        ∧ Advances cfg w (w.clearAllTasks cfg order now).2 lists lists' := by
  refine ⟨h.length_allIDs, ?_⟩
  obtain ⟨lists₁, h₁, hadv₁⟩ := h.clearTasks (order ++ w.allIDs cfg)
  obtain ⟨timers, stale, heq, htimers, hstale⟩ := foldl_drop (order ++ w.allIDs cfg) tt
  rw [heq] at h₁
  have hall : timers = fun _ => none := by
    funext id
    rw [htimers]
    by_cases hid : id ∈ order ++ w.allIDs cfg
    · rw [if_pos hid]
    · rw [if_neg hid]
      refine h.timer_eq_none (not_not.mp (fun hn => hid ?_))
      exact List.mem_append_right _ (mem_allIDs w id hn)
  have hcore : SameCore ((order ++ w.allIDs cfg).foldl (fun w id => w.clearTask cfg id) w)
      (w.clearAllTasks cfg order now).2 := ⟨rfl, rfl, rfl, rfl, rfl, rfl, rfl⟩
  obtain ⟨h₂, hadv₂⟩ := h₁.congr hcore rfl rfl ⟨rfl, rfl⟩
  exact ⟨lists₁, h₂.retable hall.symm rfl rfl hstale rfl, hadv₁.trans hadv₂⟩

/-! ## The steps of an execution -/

/-- The result of an execution is noted at its node: the counter goes up by one,
and the result is kept. -/
theorem Reflects.updateTaskResult (h : Reflects cfg w lists tt) (hu : Used cfg w lists n i c t)
    (result : AlarmResult) (err : Option Err) :
    Reflects cfg (w.updateTaskResult n result err) lists
        (tt.put t.id (((w.heap n).asTimer c t).note result))
      ∧ Advances cfg w (w.updateTaskResult n result err) lists lists := by
  obtain ⟨h₁, hadv₁⟩ := h.setNode hu
    (show ({ w.heap n with executed := (w.heap n).executed + 1, lastResult := result }
      : TaskSlot).next = (w.heap n).next from rfl) rfl rfl rfl
  obtain ⟨h₂, hadv₂⟩ := h₁.congr (updateTaskResult_core w n result err) rfl rfl ⟨rfl, rfl⟩
  exact ⟨h₂, hadv₁.trans hadv₂⟩

/-- An execution whose node has been released notes its result there all the
same. On a node that is not in use nobody looks at it, and the next `AddTask`
that gets the node overwrites it. -/
theorem Reflects.updateTaskResult_free (h : Reflects cfg w lists tt) (hf : Free w lists n)
    (result : AlarmResult) (err : Option Err) :
    Reflects cfg (w.updateTaskResult n result err) lists tt
      ∧ Advances cfg w (w.updateTaskResult n result err) lists lists := by
  let node : TaskSlot :=
    { w.heap n with executed := (w.heap n).executed + 1, lastResult := result }
  have hc := changesOnly_setNode w n node lists
  have hf' : Free (w.setNode n node) lists n := hf.setNode node
  have hset : Reflects cfg (w.setNode n node) lists tt := {
    ctxs := h.ctxs.setNode rfl rfl rfl (h.ctxs.linked n)
    running := h.running
    checked := fun m j d s hs => h.checked m j d s (hc.used_before h.inv
      (fun hm => hf'.not_used (hm ▸ hs)) hs)
    timers := h.timers.trans (timer_of_free hc hf hf').symm
    next := h.next
    cursor := h.cursor
    stale := stale_of_changesOnly hc h.stale (fun hm hp => h.stale n hm (by
      rw [heap_setNode_self] at hp
      exact hp))
    events := h.events }
  obtain ⟨h₂, hadv₂⟩ := hset.congr (updateTaskResult_core w n result err) rfl rfl ⟨rfl, rfl⟩
  exact ⟨h₂, (Advances.of_free h.inv hc hf').trans hadv₂⟩

/-- The state of an alert is computed from three fields of its node and nothing
else, -/
theorem computeAlertState_congr {a b : TaskSlot} (hstate : a.alertState = b.alertState)
    (hsince : a.pendingSince = b.pendingSince) (hfired : a.lastFiredAt = b.lastFiredAt)
    (isFiring : Bool) (forDuration : Duration) (now : Time) :
    let x := a.computeAlertState isFiring forDuration now
    let y := b.computeAlertState isFiring forDuration now
    x.2 = y.2 ∧ x.1.pendingSince = y.1.pendingSince ∧ x.1.lastFiredAt = y.1.lastFiredAt := by
  unfold TaskSlot.computeAlertState
  rw [hstate, hsince]
  split_ifs
  all_goals simp [hsince, hfired]

/-- and so is what it does to the node and to the sinks, as long as the node has
a task. This is why a timer can be evaluated without its node. -/
theorem handleAlertStateLocked_congr (sinks : AlertSinks) {a b : TaskSlot} (ha : a.task ≠ none)
    (hb : b.task ≠ none) (hstate : a.alertState = b.alertState)
    (hsince : a.pendingSince = b.pendingSince) (hfired : a.lastFiredAt = b.lastFiredAt)
    (info : TaskInfo) (result : AlarmResult) (now : Time) :
    let x := handleAlertStateLocked sinks a info result now
    let y := handleAlertStateLocked sinks b info result now
    x.events = y.events ∧ x.node.alertState = y.node.alertState
      ∧ x.node.pendingSince = y.node.pendingSince ∧ x.node.lastFiredAt = y.node.lastFiredAt := by
  obtain ⟨hnew, hpending, hlast⟩ := computeAlertState_congr hstate hsince hfired
    result.isFiring info.forDuration now
  unfold handleAlertStateLocked
  rw [if_neg ha, if_neg hb, hstate]
  dsimp only
  rw [hnew, hlast]
  split_ifs
  all_goals exact ⟨rfl, rfl, hpending, rfl⟩

/-- **The evaluation** at the start of the locked section. The state machine of
the alert is the same function for a node and for its timer, since it reads only
fields that both have; what it tells the sinks is added to the events of both.
Three things are kept: the table with the evaluated timer, the registrations,
and the fact that the node now stands for this very timer, which the next part
of the section needs. -/
theorem Reflects.applyAlert (h : Reflects cfg w lists tt) (hu : Used cfg w lists n i c t)
    (result : AlarmResult) (now : Time) :
    let x := (w.heap n).asTimer c t
    let w₁ := w.applyAlert cfg n t.copyTaskInfo result now
    Reflects cfg w₁ lists
        { tt.put t.id (x.evaluate cfg.sinks result now).1 with
          events := tt.events ++ (x.evaluate cfg.sinks result now).2 }
      ∧ Advances cfg w w₁ lists lists
      ∧ (w₁.heap n).asTimer c t = (x.evaluate cfg.sinks result now).1 := by
  intro x w₁
  obtain ⟨hevents, hstate, hsince, hfired⟩ := handleAlertStateLocked_congr cfg.sinks
    (show (w.heap n).task ≠ none by rw [hu.task_eq]; exact Option.some_ne_none t)
    (show x.alertNode.task ≠ none from Option.some_ne_none t) rfl rfl rfl t.copyTaskInfo result now
  obtain ⟨hnext, hprev, htag⟩ := applyAlert_node cfg.sinks (w.heap n) t.copyTaskInfo result now
  obtain ⟨s, p, l, hnode⟩ :=
    handleAlertStateLocked_frame cfg.sinks (w.heap n) t.copyTaskInfo result now
  -- the frame lemma says what is written at the node, the congruence that it is
  -- the same for the timer
  have hself : (handleAlertStateLocked cfg.sinks (w.heap n) t.copyTaskInfo result now).node.asTimer
      c t = (x.evaluate cfg.sinks result now).1 := by
    obtain rfl := (congrArg TaskSlot.alertState hnode).symm.trans hstate
    obtain rfl := (congrArg TaskSlot.pendingSince hnode).symm.trans hsince
    obtain rfl := (congrArg TaskSlot.lastFiredAt hnode).symm.trans hfired
    rw [hnode]
    rfl
  obtain ⟨h₁, hadv₁⟩ := h.setNode hu hnext hprev htag (by rw [hnode])
  have hcore := @applyAlert_core cfg w n t.copyTaskInfo result now
  rw [hself] at h₁
  refine ⟨?_, ?_, ?_⟩
  · exact {
      ctxs := h₁.ctxs.congr hcore rfl rfl
      running := h₁.running
      checked := fun m j d s hs => h₁.checked m j d s (hcore.symm.used hs)
      timers := by
        refine h₁.timers.trans (funext (fun id => ?_))
        unfold TimeWheel.timer
        rw [hcore.lookup, hcore.heap]
      next := h₁.next
      cursor := h₁.cursor
      stale := fun m hm hp => h₁.stale m hm (by rwa [hcore.heap] at hp)
      events := by
        show tt.events ++ _ = w.alertEvents ++ _
        rw [h.events, hevents]
        rfl }
  · exact ⟨hadv₁.nextCtx, fun m j d s hs hlt => hadv₁.back m j d s (hcore.symm.used hs) hlt⟩
  · rw [hcore.heap, heap_setNode_self]
    exact hself

/-- **`rescheduleTask`** sets the timer for its next run. The node leaves the
list it is in and enters that of its new slot. It must be told which list it is
in: if it is the head of its list, the code unlinks it from the list of the slot
it is given, so this has to be the right one (`hslot`). -/
theorem Reflects.rescheduleTask (h : Reflects cfg w lists tt) (hu : Used cfg w lists n i c t)
    (now : Time) {slot : ℕ}
    (hslot : slotIndexFor cfg.interval cfg.slotNum now t.interval = i
      ∨ w.prev n ≠ none ∨ slot = i) :
    ∃ lists', Reflects cfg (w.rescheduleTask cfg n t.copyTaskInfo now slot) lists'
        (tt.put t.id (((w.heap n).asTimer c t).again cfg now))
      ∧ Advances cfg w (w.rescheduleTask cfg n t.copyTaskInfo now slot) lists lists' := by
  obtain ⟨hinv, hc, hu'⟩ := h.inv.rescheduleTask hu t.copyTaskInfo now hslot
  obtain ⟨hlinked, hctx, hctxs⟩ :=
    @rescheduleTask_ctxs cfg w h.ctxs.linked n t.copyTaskInfo now slot
  obtain ⟨heap, slots, hw, -, hself⟩ := @rescheduleTask_payload cfg w n t.copyTaskInfo now slot
  have hsound := h.ctxs.of_sameCtxs hinv hc hlinked hctx hctxs (fun j d s hd => by
    obtain ⟨-, rfl, -⟩ := hu'.unique hd
    exact ⟨i, t, hu⟩)
  refine ⟨_, ?_, .of_kept h.inv hc hu hu'⟩
  exact {
    ctxs := hsound
    running := hc.running.trans h.running
    checked := fun m j d s hs => by
      by_cases hm : m = n
      · subst hm
        obtain ⟨-, -, rfl⟩ := hu'.unique hs
        exact h.checked m i c t hu
      · exact h.checked m j d s (hc.used_before h.inv hm hs)
    timers := by
      rw [timer_of_used hc (fun id hid => hu.lookup_ne hid) hu', ← h.timers]
      show Function.update tt.timers t.id _ = _
      congr 2
      rw [hw]
      show _ = (heap n).payload.asTimer c t
      rw [hself]
      rfl
    next := h.next.trans hc.nextCtx
    cursor := h.cursor.trans (by rw [hw])
    stale := stale_of_changesOnly hc h.stale (fun hm _ => absurd hm hu'.not_pooled)
    events := h.events.trans (by rw [hw]) }

/-- **The internal `removeTask`** drops the timer. The slot has to be the right
one here as well. -/
theorem Reflects.removeTaskInternal (h : Reflects cfg w lists tt) (hu : Used cfg w lists n i c t)
    {slot : ℕ} (hslot : w.prev n ≠ none ∨ slot = i) :
    ∃ lists', Reflects cfg (w.removeTaskInternal cfg n t.copyTaskInfo slot) lists' (tt.drop t.id)
      ∧ Advances cfg w (w.removeTaskInternal cfg n t.copyTaskInfo slot) lists lists' := by
  have hid : t.copyTaskInfo.id = t.id := rfl
  obtain ⟨lists', hinv, hc, hr⟩ := h.inv.removeTaskInternal hu hid hslot
  obtain ⟨hlinked, hctx, hctxs⟩ :=
    @removeTaskInternal_ctxs cfg w h.ctxs.linked n t.copyTaskInfo slot
  obtain ⟨heap, slots, hw, -, hself⟩ := @removeTaskInternal_frame cfg w n t.copyTaskInfo slot
  have hsound := h.ctxs.of_released hu hinv hc hr hlinked hctx hctxs
  refine ⟨lists', h.of_released hu hsound hc hr ?_ ?_⟩
  · rw [hw]
    exact ⟨rfl, rfl⟩
  · rw [hw]
    show (heap n).paused = _
    rw [hself]
    rfl

/-- **The locked section** of an execution whose registration is still there:
the evaluation, and then the timer is set again or dropped, as the table does.
Whether it runs again is decided by the node as it was before the evaluation,
which does not write the counter. `UnlinksOwnList` says in the terms of the
wheel that the slot the execution remembers is right, and gives the two
operations the condition they need. -/
theorem Reflects.lockedSection (h : Reflects cfg w lists tt) (hu : Used cfg w lists n i c t)
    (result : AlarmResult) (now : Time) {slot : ℕ}
    (hown : UnlinksOwnList cfg w n t.copyTaskInfo now slot) :
    ∃ lists', Reflects cfg (w.lockedSection cfg n t.copyTaskInfo result now slot) lists'
        (tt.completed cfg ((w.heap n).asTimer c t) result now)
      ∧ Advances cfg w (w.lockedSection cfg n t.copyTaskInfo result now slot) lists lists' := by
  obtain ⟨-, hu₁, -, hprev, hresched⟩ := applyAlert_spec h.inv hu result now
  obtain ⟨h₁, hadv₁, hself⟩ := h.applyAlert hu result now
  have hown' := (hu.unlinksOwnList_iff now slot).mp hown
  rw [← hprev] at hown'
  have hagain : ((w.heap n).asTimer c t).runsAgain
      = shouldRescheduleTask (w.heap n) t.copyTaskInfo := rfl
  unfold TimeWheel.lockedSection handleTaskSchedulingLocked Timetable.completed
  rw [if_neg (by rw [hu₁.task_eq]; exact Option.some_ne_none t), hresched, hagain]
  dsimp only
  by_cases hr : shouldRescheduleTask (w.heap n) t.copyTaskInfo = true
  · rw [if_pos hr, if_pos hr]
    have hslot : slotIndexFor cfg.interval cfg.slotNum now t.interval = i
        ∨ (w.applyAlert cfg n t.copyTaskInfo result now).prev n ≠ none ∨ slot = i := by
      rcases hown' with hp | hs | ⟨-, hs⟩
      · exact Or.inr (Or.inl hp)
      · exact Or.inr (Or.inr hs)
      · exact Or.inl hs
    obtain ⟨lists', h₂, hadv₂⟩ := h₁.rescheduleTask hu₁ now hslot
    rw [hself] at h₂
    exact ⟨lists', h₂.retable (Function.update_idem _ _ _).symm rfl rfl (fun hs => hs) rfl,
      hadv₁.trans hadv₂⟩
  · rw [if_neg hr, if_neg hr]
    have hslot : (w.applyAlert cfg n t.copyTaskInfo result now).prev n ≠ none ∨ slot = i :=
      hown'.imp_right (fun hs => hs.resolve_right (fun hs => hr hs.1))
    obtain ⟨lists', h₂, hadv₂⟩ := h₁.removeTaskInternal hu₁ hslot
    refine ⟨lists', h₂.retable (Function.update_idem _ _ _).symm rfl rfl (fun hs => ?_) rfl,
      hadv₁.trans hadv₂⟩
    -- the evaluation does not pause the timer
    rcases hs with hs | ⟨y, hy, hp⟩
    · exact Or.inl hs
    · refine Or.inr ⟨_, h.timers ▸ hu.timer_eq, ?_⟩
      have hy : Function.update tt.timers t.id
          (some (((w.heap n).asTimer c t).evaluate cfg.sinks result now).1) t.id = some y := hy
      rw [Function.update_self] at hy
      rw [← Option.some.inj hy] at hp
      exact hp

end Timewheel
