import Timewheel.Isolation

/-!
# How often a task runs

A task run once is to be called at most once, and one run a fixed number of
times at most that often. The node counts its executions, but only when the
function returns, and it stays in its slot, due, until the locked section. So
an execution that starts while another one of the same node is under way is
not counted in time, and one that panics is never counted.

Without these two the count is exact enough: `Metered` relates the calls of a
registration to the counter of its node and to the executions that are under
way, and `invocationsBounded_of_startsAlone` is the bound for every run. No
list of the wheel is looked at, so the bound also holds when other, repeated
tasks overlap and spoil the lists.

The proof goes in two parts, since calls and executions do different things to
the counters. Calls install tasks whose counters are zero (`Unexecuted`), and
after them only ticks and executions follow. Along these the invariant is
`Metered`: which execution belongs to which registration, and for each limited
task a small account of calls, counter and executions under way (`Budget`)
that every step keeps.
-/

namespace Timewheel

open Scheduler

open TimeWheel (checkTask AddEnv)

/-! ## The bound -/

/-- How often the function of the task may be called, if there is a limit. A
mode the code does not know is rescheduled like a repeated one. -/
def Task.limit (t : Task) : Option ℕ :=
  match t.mode with
  | .once => some 1
  | .fixedTimes => some t.times.toNat
  | .repeated => none
  | .other _ => none

/-- How often the function of the registration has been called. The registration
is the context, which is never used twice, not the ID. -/
def Scheduler.calls (s : Scheduler) (c : CtxRef) : ℕ :=
  s.invoked.countP (fun inv => inv.registration = c)

/-- **The execution bound**: no function has been called more often than its
task allows. Calls that panicked count. It is said of the calls rather than of
the nodes, so that it also covers tasks that have been removed. -/
def InvocationsBounded (s : Scheduler) : Prop :=
  ∀ inv ∈ s.invoked, ∀ k, inv.task.limit = some k → s.calls inv.registration ≤ k

/-- **The condition**: when an execution of a limited task starts, no other
execution of the node is under way, and the function has not panicked before.
Executions that have been collected and have not started do not count: they will
look at the node when they start. -/
def StartsAlone (s : Scheduler) (a : Action) : Prop :=
  ∀ i e task, a = .start i → s.execs[i]? = some e →
    s.wheel.checkTaskState e.node = some task → task.limit ≠ none →
    (∀ e' ∈ s.execs, e'.node = e.node → e'.stage = .collected)
      ∧ ∀ c, (s.wheel.heap e.node).ctx = some c → c ∉ s.panicked

instance (s : Scheduler) : ∀ a, Decidable (StartsAlone s a)
  | .start i =>
    decidable_of_iff (∀ e ∈ s.execs[i]?, ∀ task ∈ s.wheel.checkTaskState e.node,
        task.limit ≠ none → (∀ e' ∈ s.execs, e'.node = e.node → e'.stage = .collected)
          ∧ ∀ c ∈ (s.wheel.heap e.node).ctx, c ∉ s.panicked)
      ⟨fun h _ e task hi he => h e (Action.start.inj hi ▸ he) task,
        fun h e he task => h i e task rfl he⟩
  | .addTask _ _ => isTrue (fun _ _ _ => Action.noConfusion)
  | .removeTask _ _ => isTrue (fun _ _ _ => Action.noConfusion)
  | .updateTask _ _ => isTrue (fun _ _ _ => Action.noConfusion)
  | .pauseTask _ => isTrue (fun _ _ _ => Action.noConfusion)
  | .resumeTask _ _ => isTrue (fun _ _ _ => Action.noConfusion)
  | .clearAllTasks _ _ => isTrue (fun _ _ _ => Action.noConfusion)
  | .tick _ => isTrue (fun _ _ _ => Action.noConfusion)
  | .reject _ => isTrue (fun _ _ _ => Action.noConfusion)
  | .finish _ _ => isTrue (fun _ _ _ => Action.noConfusion)
  | .panic _ => isTrue (fun _ _ _ => Action.noConfusion)
  | .complete _ => isTrue (fun _ _ _ => Action.noConfusion)

variable {cfg : Config} {s s' : Scheduler} {w w' : TimeWheel}
  {lists lists' : ℕ → List NodeRef} {n : NodeRef} {t : Task}

/-! ## After the calls -/

/-- A task that `AddTask` accepts allows one call at least. A fixed number of
times has to be positive. -/
theorem limit_pos_of_checkTask {t t' : Task} (h : checkTask t = .ok t') {k : ℕ}
    (hk : t'.limit = some k) : 0 < k := by
  obtain ⟨-, -, hchecked⟩ := checkTask_ok h
  unfold Task.limit at hk
  cases hchecked with
  | repeated hmode hinterval =>
    rw [hmode] at hk
    exact absurd hk (Option.some_ne_none k).symm
  | once hmode =>
    have honce : (if t.interval ≤ 0 then { t with interval := Duration.millisecond }
        else t).mode = .once := by
      split_ifs
      all_goals exact hmode
    rw [honce] at hk
    exact Option.some.inj hk ▸ Nat.one_pos
  | fixedTimes hmode htimes hinterval =>
    rw [hmode] at hk
    exact Option.some.inj hk ▸ Int.pos_iff_toNat_pos.mp htimes
  | other hmode hinterval => exact absurd hk (Option.some_ne_none k).symm

/-- The nodes after calls only: each node with a task has a context of its own,
has not been executed, and may be. The counter of a node is set to zero when it
is taken from the pool, and no call writes it otherwise. -/
structure Unexecuted (w : TimeWheel) : Prop where
  ctx : ∀ n t, (w.heap n).task = some t → ∃ c < w.nextCtx, (w.heap n).ctx = some c
  inj : ∀ m n c, (w.heap m).task ≠ none → (w.heap n).task ≠ none →
    (w.heap m).ctx = some c → (w.heap n).ctx = some c → m = n
  executed : ∀ n, (w.heap n).task ≠ none → (w.heap n).executed = 0
  limit : ∀ n t k, (w.heap n).task = some t → t.limit = some k → 0 < k

namespace Unexecuted

/-- Only the nodes and the next context matter. Calls that only set a flag, a
time or a pointer are of this kind. -/
theorem congr (h : Unexecuted w)
    (hheap : ∀ n, (w'.heap n).task = (w.heap n).task ∧ (w'.heap n).ctx = (w.heap n).ctx
      ∧ (w'.heap n).executed = (w.heap n).executed)
    (hctx : w'.nextCtx = w.nextCtx) : Unexecuted w' where
  ctx := fun n t ht => by
    rw [(hheap n).2.1, hctx]
    exact h.ctx n t ((hheap n).1 ▸ ht)
  inj := fun m n c hm hn hcm hcn => by
    rw [(hheap m).1] at hm
    rw [(hheap n).1] at hn
    rw [(hheap m).2.1] at hcm
    rw [(hheap n).2.1] at hcn
    exact h.inj m n c hm hn hcm hcn
  executed := fun n hn => by
    rw [(hheap n).2.2]
    exact h.executed n ((hheap n).1 ▸ hn)
  limit := fun n t k ht => h.limit n t k ((hheap n).1 ▸ ht)

/-- Relinking a node changes none of the three. -/
theorem of_payload {a b : TaskSlot} (h : a.payload = b.payload) :
    a.task = b.task ∧ a.ctx = b.ctx ∧ a.executed = b.executed := by
  refine ⟨?_, ?_, ?_⟩
  · show a.payload.task = b.payload.task
    rw [h]
  · show a.payload.ctx = b.payload.ctx
    rw [h]
  · show a.payload.executed = b.payload.executed
    rw [h]

/-- Releasing a node. A node without a task is under no condition. -/
theorem release (h : Unexecuted w) (hc : ChangesOnly n w w' lists lists')
    (hr : (w'.heap n).task = none) : Unexecuted w' := by
  have hother : ∀ m, (w'.heap m).task ≠ none → m ≠ n := by
    rintro m hm rfl
    exact hm hr
  have hsame : ∀ m, m ≠ n → _ := fun m hm => of_payload (hc.payload m hm)
  refine ⟨fun m t ht => ?_, fun m k c hm hk hcm hck => ?_, fun m hm => ?_, fun m t k ht => ?_⟩
  · have hm := hother m (by rw [ht]; exact Option.some_ne_none t)
    rw [(hsame m hm).1] at ht
    obtain ⟨c, hlt, hctx⟩ := h.ctx m t ht
    exact ⟨c, lt_of_lt_of_le hlt hc.nextCtx, (hsame m hm).2.1.trans hctx⟩
  · have hmn := hother m hm
    have hkn := hother k hk
    rw [(hsame m hmn).1] at hm
    rw [(hsame k hkn).1] at hk
    rw [(hsame m hmn).2.1] at hcm
    rw [(hsame k hkn).2.1] at hck
    exact h.inj m k c hm hk hcm hck
  · have hmn := hother m hm
    rw [(hsame m hmn).1] at hm
    exact (hsame m hmn).2.2.trans (h.executed m hm)
  · have hm := hother m (by rw [ht]; exact Option.some_ne_none t)
    rw [(hsame m hm).1] at ht
    exact h.limit m t k ht

/-- Installing a task on a node. Its context is the next one, which no other
node has. -/
theorem install (h : Unexecuted w) (hc : ChangesOnly n w w' lists lists')
    (hi : Installed w w' n t) (hlimit : ∀ k, t.limit = some k → 0 < k) : Unexecuted w' := by
  have hsame : ∀ m, m ≠ n → _ := fun m hm => of_payload (hc.payload m hm)
  -- the contexts of the other nodes are older than the new one
  have hold : ∀ m, m ≠ n → (w'.heap m).task ≠ none → (w'.heap m).ctx ≠ some w.nextCtx := by
    intro m hm ht hctx
    rw [(hsame m hm).1] at ht
    rw [(hsame m hm).2.1] at hctx
    obtain ⟨t, ht⟩ := Option.ne_none_iff_exists'.mp ht
    obtain ⟨c, hlt, hc'⟩ := h.ctx m t ht
    obtain rfl : c = w.nextCtx := Option.some.inj (hc'.symm.trans hctx)
    exact lt_irrefl _ hlt
  refine ⟨fun m s ht => ?_, fun m k c hm hk hcm hck => ?_, fun m hm => ?_, fun m s k ht => ?_⟩
  · by_cases hm : m = n
    · subst hm
      exact ⟨w.nextCtx, hi.nextCtx, hi.ctx⟩
    · rw [(hsame m hm).1] at ht
      obtain ⟨c, hlt, hctx⟩ := h.ctx m s ht
      exact ⟨c, lt_of_lt_of_le hlt hc.nextCtx, (hsame m hm).2.1.trans hctx⟩
  · by_cases hmn : m = n
    · by_cases hkn : k = n
      · exact hmn.trans hkn.symm
      · subst hmn
        rw [hi.ctx] at hcm
        exact absurd (hck.trans hcm.symm) (hold k hkn hk)
    · by_cases hkn : k = n
      · subst hkn
        rw [hi.ctx] at hck
        exact absurd (hcm.trans hck.symm) (hold m hmn hm)
      · rw [(hsame m hmn).1] at hm
        rw [(hsame k hkn).1] at hk
        rw [(hsame m hmn).2.1] at hcm
        rw [(hsame k hkn).2.1] at hck
        exact h.inj m k c hm hk hcm hck
  · by_cases hmn : m = n
    · subst hmn
      exact hi.executed
    · rw [(hsame m hmn).1] at hm
      exact (hsame m hmn).2.2.trans (h.executed m hm)
  · by_cases hmn : m = n
    · subst hmn
      obtain rfl : t = s := Option.some.inj (hi.task.symm.trans ht)
      exact hlimit k
    · rw [(hsame m hmn).1] at ht
      exact h.limit m s k ht

end Unexecuted

/-- A new wheel has no node with a task. So there is nothing to show. -/
theorem unexecuted_of_started (h : Started cfg w) : Unexecuted w := by
  obtain ⟨cacheEnabled, store, now₀, slot, rfl⟩ := h.eq_new
  exact {
    ctx := fun _ t ht => absurd ht (Option.some_ne_none t).symm
    inj := fun _ _ _ hm => absurd rfl hm
    executed := fun _ hn => absurd rfl hn
    limit := fun _ t _ ht => absurd ht (Option.some_ne_none t).symm }

/-- What calls keep. The invariant of the wheel tells which nodes a call may
change. -/
def CallState (cfg : Config) (w : TimeWheel) : Prop :=
  ∃ lists, Inv cfg w lists ∧ Unexecuted w

namespace CallState

/-- `AddTask` installs a task, or nothing; -/
theorem addTask (h : CallState cfg w) (task : Option Task) (env : AddEnv) :
    CallState cfg (w.addTask cfg task env).2 := by
  obtain ⟨lists, hinv, hu⟩ := h
  have hadd := addTask_cases hinv task env
  generalize w.addTask cfg task env = r at hadd ⊢
  cases hadd with
  | rejected reason => exact ⟨lists, hinv, hu⟩
  | duplicate task_eq check running taken inv changes handedOut free installed =>
    exact ⟨lists, inv, hu.install changes installed (fun k => limit_pos_of_checkTask check)⟩
  | added task_eq check running new inv changes handedOut used installed =>
    exact ⟨_, inv, hu.install changes installed (fun k => limit_pos_of_checkTask check)⟩

/-- `RemoveTask` and -/
theorem removeTask (h : CallState cfg w) (taskID : String) (deleteOk : Bool) :
    CallState cfg (w.removeTask cfg taskID deleteOk).2 := by
  obtain ⟨lists, hinv, hu⟩ := h
  have hremove := removeTask_cases hinv taskID deleteOk
  generalize w.removeTask cfg taskID deleteOk = r at hremove ⊢
  cases hremove with
  | emptyID hid => exact ⟨lists, hinv, hu⟩
  | notFound hne hid => exact ⟨lists, hinv, hu⟩
  | removed hid used id_eq inv changes released =>
    exact ⟨_, inv, hu.release changes released.task⟩

/-- `clearTask` release a node; -/
theorem clearTask (h : CallState cfg w) (taskID : String) :
    CallState cfg (w.clearTask cfg taskID) := by
  obtain ⟨lists, hinv, hu⟩ := h
  rcases clearTask_cases hinv taskID with ⟨-, heq⟩ | ⟨n, i, c, t, lists', -, -, hinv', hc, hr⟩
  · rw [heq]
    exact ⟨lists, hinv, hu⟩
  · exact ⟨lists', hinv', hu.release hc hr.task⟩

/-- `PauseTask` and `ResumeTask` write to one; -/
theorem setNode (h : CallState cfg w) (n : NodeRef) {node : TaskSlot}
    (hnext : node.next = (w.heap n).next) (hprev : node.prev = (w.heap n).prev)
    (htag : node.tag = (w.heap n).tag) (hexec : node.executed = (w.heap n).executed) :
    CallState cfg (w.setNode n node) := by
  obtain ⟨lists, hinv, hu⟩ := h
  refine ⟨lists, hinv.setNode hnext hprev htag, hu.congr (fun m => ?_) rfl⟩
  by_cases hm : m = n
  · subst hm
    rw [heap_setNode_self]
    exact ⟨congrArg Prod.fst htag, congrArg (fun t => t.2.1) htag, hexec⟩
  · rw [heap_setNode_of_ne hm]
    exact ⟨rfl, rfl, rfl⟩

/-- and what else calls write is not looked at. -/
theorem sameCore (hc : SameCore w w') (h : CallState cfg w) : CallState cfg w' := by
  obtain ⟨lists, hinv, hu⟩ := h
  refine ⟨lists, hc.inv hinv, hu.congr (fun m => ?_) hc.nextCtx⟩
  rw [hc.heap]
  exact ⟨rfl, rfl, rfl⟩

/-- **A call keeps what calls keep.** The general induction over calls does the
rest. -/
theorem step {a : Action} (h : CallState cfg s.wheel) (ha : a.isCall = true)
    (hstep : Scheduler.step cfg s a = some s') : CallState cfg s'.wheel :=
  wheel_of_call (CallState cfg) ha hstep h (fun _ task env h => h.addTask task env)
    (fun _ id deleteOk h => h.removeTask id deleteOk) (fun _ n h => h.setNode n rfl rfl rfl rfl)
    (fun _ n _ h => h.setNode n rfl rfl rfl rfl) (fun _ id h => h.clearTask id)
    (fun _ _ => sameCore ⟨rfl, rfl, rfl, rfl, rfl, rfl, rfl⟩)

end CallState

/-! ## Counting -/

section Counting

variable {α : Type*} {l : List α} {i : ℕ} {x : α}

/-- Replacing an element moves the count by the difference, -/
theorem countP_set_add (p : α → Bool) (h : l[i]? = some x) (y : α) :
    (l.set i y).countP p + (p x).toNat = l.countP p + (p y).toNat := by
  induction l generalizing i with
  | nil => simp at h
  | cons z zs ih =>
    cases i with
    | zero =>
      obtain rfl : z = x := by simpa using h
      rw [List.set_cons_zero, List.countP_cons, List.countP_cons]
      cases p y
      all_goals
        cases p z
        all_goals simp
    | succ i =>
      have := ih (by simpa using h)
      rw [List.set_cons_succ, List.countP_cons, List.countP_cons]
      omega

/-- and dropping one lowers it. -/
theorem countP_eraseIdx_add (p : α → Bool) (h : l[i]? = some x) :
    (l.eraseIdx i).countP p + (p x).toNat = l.countP p := by
  induction l generalizing i with
  | nil => simp at h
  | cons z zs ih =>
    cases i with
    | zero =>
      obtain rfl : z = x := by simpa using h
      rw [List.eraseIdx_cons_zero, List.countP_cons]
      cases p z
      all_goals simp
    | succ i =>
      have := ih (by simpa using h)
      rw [List.eraseIdx_cons_succ, List.countP_cons, List.countP_cons]
      omega

end Counting

/-- The function of the execution's task is running. It has been called, and has
not been counted yet. -/
def Stage.isRunning : Stage → Bool
  | .running _ => true
  | _ => false

/-- The function of the execution's task has returned. It has been counted, and
the locked section is still to come. -/
def Stage.isFinished : Stage → Bool
  | .finished _ _ => true
  | _ => false

/-- How many executions of the node are at such a stage. Each step moves one
execution, so these numbers move by one at most. -/
def stagesOn (p : Stage → Bool) (es : List Execution) (n : NodeRef) : ℕ :=
  es.countP (fun e => decide (e.node = n) && p e.stage)

section StagesOn

variable {p : Stage → Bool} {es : List Execution} {i : ℕ} {e : Execution}

/-- An execution that goes on moves the number on its own node, -/
theorem stagesOn_set (he : es[i]? = some e) (stage : Stage) :
    stagesOn p (es.set i { e with stage := stage }) e.node + (p e.stage).toNat
      = stagesOn p es e.node + (p stage).toNat := by
  have h := countP_set_add (fun e' => decide (e'.node = e.node) && p e'.stage) he
    { e with stage := stage }
  simpa [stagesOn] using h

/-- and on no other. -/
theorem stagesOn_set_of_ne (he : es[i]? = some e) (stage : Stage) (hn : n ≠ e.node) :
    stagesOn p (es.set i { e with stage := stage }) n = stagesOn p es n := by
  have h := countP_set_add (fun e' => decide (e'.node = n) && p e'.stage) he
    { e with stage := stage }
  simpa [stagesOn, Ne.symm hn] using h

/-- So does one that ends, -/
theorem stagesOn_eraseIdx (he : es[i]? = some e) :
    stagesOn p (es.eraseIdx i) e.node + (p e.stage).toNat = stagesOn p es e.node := by
  have h := countP_eraseIdx_add (fun e' => decide (e'.node = e.node) && p e'.stage) he
  simpa [stagesOn] using h

/-- there -/
theorem stagesOn_eraseIdx_of_ne (he : es[i]? = some e) (hn : n ≠ e.node) :
    stagesOn p (es.eraseIdx i) n = stagesOn p es n := by
  have h := countP_eraseIdx_add (fun e' => decide (e'.node = n) && p e'.stage) he
  simpa [stagesOn, Ne.symm hn] using h

/-- or, if it was at another stage, nowhere at all. -/
theorem stagesOn_eraseIdx_of_false (he : es[i]? = some e) (hp : p e.stage = false)
    (n : NodeRef) : stagesOn p (es.eraseIdx i) n = stagesOn p es n := by
  by_cases hn : n = e.node
  · subst hn
    have h := stagesOn_eraseIdx (p := p) he
    rwa [hp] at h
  · exact stagesOn_eraseIdx_of_ne he hn

/-- Executions at another stage do not count. -/
theorem stagesOn_eq_zero (h : ∀ e ∈ es, e.node = n → p e.stage = false) :
    stagesOn p es n = 0 := by
  refine List.countP_eq_zero.mpr (fun e he hp => ?_)
  rw [Bool.and_eq_true, decide_eq_true_iff] at hp
  rw [h e he hp.1] at hp
  exact Bool.false_ne_true hp.2

/-- A tick adds executions at the end. -/
theorem stagesOn_append (fs : List Execution) :
    stagesOn p (es ++ fs) n = stagesOn p es n + stagesOn p fs n := List.countP_append

end StagesOn

/-! ## What executions do to the nodes -/

/-- A node gains no task: it loses the one it has, or keeps it with its context.
This is all that ticks and executions do to registrations. -/
def OnlyReleases (w w' : TimeWheel) : Prop :=
  ∀ n, (w'.heap n).task = none
    ∨ ((w'.heap n).task = (w.heap n).task ∧ (w'.heap n).ctx = (w.heap n).ctx)

/-- What the scheduler counts on a node. The task says what the limit is, the
context which registration it is. -/
def TaskSlot.meter (node : TaskSlot) : Option Task × Option CtxRef × ℕ :=
  (node.task, node.ctx, node.executed)

/-- Relinking does not move it, -/
theorem meter_of_payload {a b : TaskSlot} (h : a.payload = b.payload) : a.meter = b.meter := by
  show a.payload.meter = b.payload.meter
  rw [h]

/-- rescheduling does not, -/
theorem meter_rescheduleTask (w : TimeWheel) (n : NodeRef) (info : TaskInfo) (now : Time)
    (slot : ℕ) (m : NodeRef) :
    ((w.rescheduleTask cfg n info now slot).heap m).meter = (w.heap m).meter := by
  obtain ⟨heap, slots, hw, hother, r, i, hself⟩ := rescheduleTask_frame w n info now slot
  rw [hw]
  by_cases hm : m = n
  · subst hm
    show (heap m).payload.meter = _
    rw [hself]
    rfl
  · exact meter_of_payload (hother m hm)

/-- and removing a node leaves the other nodes alone. -/
theorem meter_removeTaskInternal (w : TimeWheel) (n : NodeRef) (info : TaskInfo) (slot : ℕ)
    (m : NodeRef) :
    (m ≠ n → ((w.removeTaskInternal cfg n info slot).heap m).meter = (w.heap m).meter)
      ∧ ((w.removeTaskInternal cfg n info slot).heap n).task = none := by
  obtain ⟨heap, slots, hw, hother, hself⟩ := removeTaskInternal_frame w n info slot
  rw [hw]
  refine ⟨fun hm => meter_of_payload (hother m hm), ?_⟩
  show (heap n).task = none
  rw [hself]
  rfl

/-- **The locked section** counts nothing: the other nodes keep their meter, and
its own node keeps it when it is rescheduled and loses its task otherwise.
Whichever list the node is unlinked from, the pointers are all that goes wrong;
that is why the bound holds even where the lists do not. -/
theorem meter_lockedSection (cfg : Config) (w : TimeWheel) {n : NodeRef} (ht : (w.heap n).task ≠ none)
    (info : TaskInfo) (result : AlarmResult) (now : Time) (slot : ℕ) :
    (∀ m, m ≠ n → ((w.lockedSection cfg n info result now slot).heap m).meter
        = (w.heap m).meter)
      ∧ (TimeWheel.shouldRescheduleTask (w.heap n) info = true →
        ((w.lockedSection cfg n info result now slot).heap n).meter = (w.heap n).meter)
      ∧ (TimeWheel.shouldRescheduleTask (w.heap n) info = false →
        ((w.lockedSection cfg n info result now slot).heap n).task = none) := by
  obtain ⟨a, p, l, hnode⟩ := handleAlertStateLocked_frame cfg.sinks (w.heap n) info result now
  have hheap : (w.applyAlert cfg n info result now).heap n
      = { w.heap n with alertState := a, pendingSince := p, lastFiredAt := l } := by
    rw [(applyAlert_core w n info result now).heap, heap_setNode_self, hnode]
  have halert : ∀ m, ((w.applyAlert cfg n info result now).heap m).meter
      = (w.heap m).meter := by
    intro m
    by_cases hm : m = n
    · subst hm
      rw [hheap]
      rfl
    · rw [(applyAlert_core w n info result now).heap, heap_setNode_of_ne hm]
  have hresched : TimeWheel.shouldRescheduleTask ((w.applyAlert cfg n info result now).heap n)
      info = TimeWheel.shouldRescheduleTask (w.heap n) info := by
    rw [hheap]
    rfl
  unfold TimeWheel.lockedSection TimeWheel.handleTaskSchedulingLocked
  rw [if_neg (by rw [hheap]; exact ht), hresched]
  cases TimeWheel.shouldRescheduleTask (w.heap n) info with
  | true =>
    rw [if_pos rfl]
    refine ⟨fun m _ => ?_, fun _ => ?_, fun h => absurd h (by decide)⟩
    · rw [meter_rescheduleTask, halert]
    · rw [meter_rescheduleTask, halert]
  | false =>
    rw [if_neg Bool.false_ne_true]
    refine ⟨fun m hm => ?_, fun h => absurd h (by decide), fun _ => ?_⟩
    · rw [(meter_removeTaskInternal _ n info slot m).1 hm, halert]
    · exact (meter_removeTaskInternal _ n info slot n).2

/-- It releases its node at most. A node without a task is left as it is. -/
theorem onlyReleases_lockedSection (cfg : Config) (w : TimeWheel) (n : NodeRef) (info : TaskInfo)
    (result : AlarmResult) (now : Time) (slot : ℕ) :
    OnlyReleases w (w.lockedSection cfg n info result now slot) := by
  by_cases ht : (w.heap n).task = none
  · rw [lockedSection_of_task_none ht]
    exact fun _ => Or.inr ⟨rfl, rfl⟩
  obtain ⟨hothers, hkept, hremoved⟩ := meter_lockedSection cfg w ht info result now slot
  intro m
  by_cases hm : m = n
  · subst hm
    cases hr : TimeWheel.shouldRescheduleTask (w.heap m) info with
    | true => exact Or.inr ⟨congrArg Prod.fst (hkept hr), congrArg (fun x => x.2.1) (hkept hr)⟩
    | false => exact Or.inl (hremoved hr)
  · exact Or.inr ⟨congrArg Prod.fst (hothers m hm), congrArg (fun x => x.2.1) (hothers m hm)⟩

/-! ## The invariant -/

/-- Which registration is which: nodes with a task have contexts of their own,
executions and calls belong to the registration they say. An execution may have
outlived its registration, and then it says nothing of the node. -/
structure Identified (s : Scheduler) : Prop where
  ctx : ∀ n t, (s.wheel.heap n).task = some t → ∃ c, (s.wheel.heap n).ctx = some c
  inj : ∀ m n c, (s.wheel.heap m).task ≠ none → (s.wheel.heap n).task ≠ none →
    (s.wheel.heap m).ctx = some c → (s.wheel.heap n).ctx = some c → m = n
  own : ∀ e ∈ s.execs, ∀ t, (s.wheel.heap e.node).task = some t →
    e.registration = (s.wheel.heap e.node).ctx ∧ e.stage.InfoOf t
  called : ∀ inv ∈ s.invoked, ∀ n t, (s.wheel.heap n).task = some t →
    (s.wheel.heap n).ctx = some inv.registration → inv.task = t

/-- **What is left of the limit `k`**: the calls are within it; and unless the
function has panicked, at most one execution is under way, the counter and the
running function cover the calls, and with no execution under way the counter is
below the limit. The condition asks for both: without overlap the first line of
`calm` holds, and after a panic only the calls themselves are still bounded. -/
structure Budget (k calls executed running finished : ℕ) (panicked : Prop) : Prop where
  calls_le : calls ≤ k
  calm : ¬ panicked → running + finished ≤ 1 ∧ calls ≤ executed + running
    ∧ executed + running ≤ k ∧ (running + finished = 0 → executed < k)

/-- Every limited task on a node is within its budget. The numbers are read off
the node, the executions and the calls. -/
def Budgeted (s : Scheduler) : Prop :=
  ∀ n t c k, (s.wheel.heap n).task = some t → (s.wheel.heap n).ctx = some c →
    t.limit = some k →
    Budget k (s.calls c) (s.wheel.heap n).executed (stagesOn Stage.isRunning s.execs n)
      (stagesOn Stage.isFinished s.execs n) (c ∈ s.panicked)

/-- **The invariant of runs without calls.** The bound itself is part of it,
since a task that has been removed has no budget any more. -/
structure Metered (s : Scheduler) : Prop where
  identified : Identified s
  budgeted : Budgeted s
  bounded : InvocationsBounded s

/-- After calls only, nothing has been executed. All numbers are zero, and the
limits are positive. -/
theorem metered_of_unexecuted (h : Unexecuted s.wheel) (hexecs : s.execs = [])
    (hinvoked : s.invoked = []) : Metered s where
  identified := {
    ctx := fun n t ht => (h.ctx n t ht).imp (fun _ hc => hc.2)
    inj := h.inj
    own := fun e he => by
      rw [hexecs] at he
      exact absurd he List.not_mem_nil
    called := fun inv hinv => by
      rw [hinvoked] at hinv
      exact absurd hinv List.not_mem_nil }
  budgeted := fun n t c k ht _ hk => by
    have hpos := h.limit n t k ht hk
    rw [h.executed n (by rw [ht]; exact Option.some_ne_none t), hexecs, Scheduler.calls, hinvoked]
    exact ⟨hpos.le, fun _ => ⟨Nat.zero_le _, le_refl _, Nat.zero_le _, fun _ => hpos⟩⟩
  bounded := fun inv hinv => by
    rw [hinvoked] at hinv
    exact absurd hinv List.not_mem_nil

/-- **Identities are kept** by a step that releases nodes only, whose executions
and calls fit the wheel before it. It is the only place where the step functions
are looked at for this. -/
theorem Identified.evolve (h : Identified s) (hw : OnlyReleases s.wheel s'.wheel)
    (hexecs : ∀ e ∈ s'.execs, ∀ t, (s.wheel.heap e.node).task = some t →
      e.registration = (s.wheel.heap e.node).ctx ∧ e.stage.InfoOf t)
    (hinvoked : ∀ inv ∈ s'.invoked, inv ∈ s.invoked ∨ ∃ n,
      (s.wheel.heap n).task = some inv.task ∧ (s.wheel.heap n).ctx = some inv.registration) :
    Identified s' := by
  have hback : ∀ n, (s'.wheel.heap n).task ≠ none →
      (s'.wheel.heap n).task = (s.wheel.heap n).task
        ∧ (s'.wheel.heap n).ctx = (s.wheel.heap n).ctx := fun n hn =>
    (hw n).resolve_left hn
  have hsome : ∀ {n t}, (s'.wheel.heap n).task = some t → (s'.wheel.heap n).task ≠ none :=
    fun ht => by rw [ht]; exact Option.some_ne_none _
  refine ⟨fun n t ht => ?_, fun m n c hm hn hcm hcn => ?_, fun e he t ht => ?_,
    fun inv hinv n t ht hc => ?_⟩
  · obtain ⟨h₁, h₂⟩ := hback n (hsome ht)
    rw [h₂]
    exact h.ctx n t (h₁ ▸ ht)
  · obtain ⟨h₁, h₂⟩ := hback m hm
    obtain ⟨h₃, h₄⟩ := hback n hn
    exact h.inj m n c (h₁ ▸ hm) (h₃ ▸ hn) (h₂ ▸ hcm) (h₄ ▸ hcn)
  · obtain ⟨h₁, h₂⟩ := hback e.node (hsome ht)
    rw [h₂]
    exact hexecs e he t (h₁ ▸ ht)
  · obtain ⟨h₁, h₂⟩ := hback n (hsome ht)
    rw [h₁] at ht
    rw [h₂] at hc
    rcases hinvoked inv hinv with hinv | ⟨m, hmt, hmc⟩
    · exact h.called inv hinv n t ht hc
    · obtain rfl := h.inj m n _ (by rw [hmt]; exact Option.some_ne_none _)
        (by rw [ht]; exact Option.some_ne_none _) hmc hc
      exact Option.some.inj (hmt.symm.trans ht)

/-! ### The budget along a step -/

namespace Budget

variable {k calls executed running finished running' finished' : ℕ} {P P' : Prop}

/-- A call uses up one unit, which the running function covers. There is one
left, as no other execution is under way. -/
theorem start (h : Budget k calls executed 0 0 P) (hP : ¬ P) :
    Budget k (calls + 1) executed 1 0 P := by
  obtain ⟨-, hcalls, -, hlt⟩ := h.calm hP
  have hlt := hlt rfl
  exact ⟨by omega, fun _ => ⟨le_refl _, by omega, by omega, fun h => absurd h (by decide)⟩⟩

/-- An execution that ends before the call is counted all the same. `runTask`
turns down a task whose function is missing, say. -/
theorem skip (h : Budget k calls executed 0 0 P) (hP : ¬ P) :
    Budget k calls (executed + 1) 0 1 P := by
  obtain ⟨-, hcalls, -, hlt⟩ := h.calm hP
  have hlt := hlt rfl
  exact ⟨h.calls_le, fun _ => ⟨le_refl _, by omega, by omega, fun h => absurd h (by decide)⟩⟩

/-- When the function returns, the counter takes over. What the function was
covering is now in the counter. -/
theorem finish (h : Budget k calls executed running finished P) (hr : running' + 1 = running)
    (hf : finished' = finished + 1) : Budget k calls (executed + 1) running' finished' P := by
  refine ⟨h.calls_le, fun hP => ?_⟩
  obtain ⟨h₁, h₂, h₃, -⟩ := h.calm hP
  exact ⟨by omega, by omega, by omega, by omega⟩

/-- A rescheduled execution leaves room for another. It is only rescheduled
below the limit (`hlt`). -/
theorem complete (h : Budget k calls executed running finished P) (hr : running' = running)
    (hf : finished' + 1 = finished) (hlt : executed < k) :
    Budget k calls executed running' finished' P := by
  refine ⟨h.calls_le, fun hP => ?_⟩
  obtain ⟨h₁, h₂, h₃, -⟩ := h.calm hP
  exact ⟨by omega, by omega, by omega, fun _ => hlt⟩

/-- After a panic only the bound is left. The counter does not know of the call,
so the account is off from here on, and the condition says that nothing of it
starts again. -/
theorem panic (h : Budget k calls executed running finished P) (hP' : P') :
    Budget k calls executed running' finished' P' :=
  ⟨h.calls_le, fun hn => absurd hP' hn⟩

end Budget

/-- **Budgets are kept** by a step that releases nodes only, when each task is
either not concerned or within its budget afterwards. Each step concerns one
node. -/
theorem Budgeted.evolve (h : Budgeted s) (hw : OnlyReleases s.wheel s'.wheel)
    (hpanicked : ∀ c ∈ s.panicked, c ∈ s'.panicked)
    (hnode : ∀ m t c k, (s'.wheel.heap m).task = some t → (s'.wheel.heap m).ctx = some c →
      (s.wheel.heap m).task = some t → (s.wheel.heap m).ctx = some c → t.limit = some k →
      ((s'.wheel.heap m).executed = (s.wheel.heap m).executed
        ∧ stagesOn Stage.isRunning s'.execs m = stagesOn Stage.isRunning s.execs m
        ∧ stagesOn Stage.isFinished s'.execs m = stagesOn Stage.isFinished s.execs m
        ∧ s'.calls c = s.calls c)
      ∨ Budget k (s'.calls c) (s'.wheel.heap m).executed (stagesOn Stage.isRunning s'.execs m)
        (stagesOn Stage.isFinished s'.execs m) (c ∈ s'.panicked)) : Budgeted s' := by
  intro m t c k ht hc hk
  obtain ⟨h₁, h₂⟩ := (hw m).resolve_left (by rw [ht]; exact Option.some_ne_none t)
  rcases hnode m t c k ht hc (h₁ ▸ ht) (h₂ ▸ hc) hk with ⟨he, hr, hf, hcalls⟩ | hb
  · rw [he, hr, hf, hcalls]
    have hb := h m t c k (h₁ ▸ ht) (h₂ ▸ hc) hk
    exact ⟨hb.calls_le, fun hn => hb.calm (fun hp => hn (hpanicked c hp))⟩
  · exact hb

/-- The counters after a result has been recorded. One goes up, and that is all. -/
theorem meter_updateTaskResult (w : TimeWheel) (n : NodeRef) (result : AlarmResult)
    (err : Option Err) (m : NodeRef) :
    ((w.updateTaskResult n result err).heap m).meter
      = if m = n then ((w.heap n).task, (w.heap n).ctx, (w.heap n).executed + 1)
        else (w.heap m).meter := by
  rw [(updateTaskResult_core w n result err).heap]
  by_cases hm : m = n
  · subst hm
    rw [heap_setNode_self, if_pos rfl]
    rfl
  · rw [heap_setNode_of_ne hm, if_neg hm]

/-- It releases nothing, -/
theorem onlyReleases_updateTaskResult (w : TimeWheel) (n : NodeRef) (result : AlarmResult)
    (err : Option Err) : OnlyReleases w (w.updateTaskResult n result err) := by
  intro m
  have hm := meter_updateTaskResult w n result err m
  by_cases hmn : m = n
  · subst hmn
    rw [if_pos rfl] at hm
    exact Or.inr ⟨congrArg Prod.fst hm, congrArg (fun x => x.2.1) hm⟩
  · rw [if_neg hmn] at hm
    exact Or.inr ⟨congrArg Prod.fst hm, congrArg (fun x => x.2.1) hm⟩

/-- and counts one. -/
theorem executed_updateTaskResult (w : TimeWheel) (n : NodeRef) (result : AlarmResult)
    (err : Option Err) (m : NodeRef) :
    ((w.updateTaskResult n result err).heap m).executed
      = (w.heap m).executed + (if m = n then 1 else 0) := by
  have hm := congrArg (fun x => x.2.2) (meter_updateTaskResult w n result err m)
  by_cases hmn : m = n
  · subst hmn
    rw [if_pos rfl] at hm ⊢
    exact hm
  · rw [if_neg hmn] at hm ⊢
    exact hm

/-- Steps that do not touch the nodes release none. -/
theorem OnlyReleases.refl (w : TimeWheel) : OnlyReleases w w := fun _ => Or.inr ⟨rfl, rfl⟩

/-- The node of an execution that starts alone has no execution under way. This
is where the condition goes into the proof. -/
theorem stagesOn_eq_zero_of_collected {n : NodeRef}
    (h : ∀ e ∈ s.execs, e.node = n → e.stage = .collected) :
    stagesOn Stage.isRunning s.execs n = 0 ∧ stagesOn Stage.isFinished s.execs n = 0 := by
  refine ⟨stagesOn_eq_zero (fun e he hn => ?_), stagesOn_eq_zero (fun e he hn => ?_)⟩
  · rw [h e he hn]
    rfl
  · rw [h e he hn]
    rfl

/-! ## The steps -/

/-- **A collected execution is dropped**, refused by the pool or skipped. It was
not under way, so the numbers stay. -/
theorem Metered.drop {i : ℕ} {e : Execution} (h : Metered s) (he : s.execs[i]? = some e)
    (hs : e.stage = .collected) : Metered { s with execs := s.execs.eraseIdx i } where
  identified := h.identified.evolve (.refl _)
    (fun e' he' => h.identified.own e' (List.mem_of_mem_eraseIdx he'))
    (fun inv hinv => Or.inl hinv)
  budgeted := h.budgeted.evolve (.refl _) (fun c hc => hc) (fun m t c k _ _ _ _ _ =>
    Or.inl ⟨rfl, stagesOn_eraseIdx_of_false he (by rw [hs]; rfl) m,
      stagesOn_eraseIdx_of_false he (by rw [hs]; rfl) m, rfl⟩)
  bounded := h.bounded

/-- **A tick** adds executions that are not under way. They belong to the
registrations of their nodes. -/
theorem Metered.tick (h : Metered s) (now : Time) :
    Metered { s with
      wheel := (s.wheel.tick cfg now).2.2
      execs := s.execs ++ collect cfg s.wheel now } := by
  have hcollect : ∀ e ∈ collect cfg s.wheel now,
      e.registration = (s.wheel.heap e.node).ctx ∧ e.stage = .collected := by
    intro e he
    obtain ⟨n, -, rfl⟩ := List.mem_map.mp he
    exact ⟨rfl, rfl⟩
  have hzero : ∀ p : Stage → Bool, p .collected = false → ∀ m,
      stagesOn p (s.execs ++ collect cfg s.wheel now) m = stagesOn p s.execs m := by
    intro p hp m
    have hnew : stagesOn p (collect cfg s.wheel now) m = 0 :=
      stagesOn_eq_zero (fun e he _ => by rw [(hcollect e he).2, hp])
    rw [stagesOn_append, hnew, Nat.add_zero]
  refine ⟨h.identified.evolve (.refl _) (fun e he t ht => ?_) (fun inv hinv => Or.inl hinv),
    h.budgeted.evolve (.refl _) (fun c hc => hc) (fun m t c k _ _ _ _ _ =>
      Or.inl ⟨rfl, hzero _ rfl m, hzero _ rfl m, rfl⟩), h.bounded⟩
  rcases List.mem_append.mp he with he | he
  · exact h.identified.own e he t ht
  · refine ⟨(hcollect e he).1, ?_⟩
    rw [(hcollect e he).2]
    trivial

/-- **An execution that `runTask` turns down**: it is counted without a call.
The counter goes up and an execution becomes finished; so the task may end one
call early, but never late. -/
theorem Metered.skip {i : ℕ} {e : Execution} {task : Task} {err : Err} (h : Metered s)
    (he : s.execs[i]? = some e) (ht : (s.wheel.heap e.node).task = some task)
    (hg : task.limit ≠ none → (∀ e' ∈ s.execs, e'.node = e.node → e'.stage = .collected)
      ∧ ∀ c, (s.wheel.heap e.node).ctx = some c → c ∉ s.panicked) :
    Metered { s with
      wheel := s.wheel.updateTaskResult e.node AlarmResult.zero (some err)
      execs := s.execs.set i
        { e with stage := .finished task.copyTaskInfo AlarmResult.zero } } := by
  have hw := onlyReleases_updateTaskResult s.wheel e.node AlarmResult.zero (some err)
  refine ⟨h.identified.evolve hw (fun e' he' t ht' => ?_) (fun inv hinv => Or.inl hinv),
    h.budgeted.evolve hw (fun c hc => hc) (fun m t c k _ _ hmt hmc hk => ?_), h.bounded⟩
  · rcases List.mem_or_eq_of_mem_set he' with he' | rfl
    · exact h.identified.own e' he' t ht'
    · obtain rfl : task = t := Option.some.inj (ht.symm.trans ht')
      exact ⟨(h.identified.own e (List.mem_of_getElem? he) task ht).1, rfl⟩
  · by_cases hm : m = e.node
    · subst hm
      obtain rfl : task = t := Option.some.inj (ht.symm.trans hmt)
      obtain ⟨halone, hcalm⟩ := hg (by rw [hk]; exact Option.some_ne_none k)
      obtain ⟨hr, hf⟩ := stagesOn_eq_zero_of_collected halone
      have hb := h.budgeted e.node task c k hmt hmc hk
      rw [hr, hf] at hb
      have hstage := halone e (List.mem_of_getElem? he) rfl
      have hr' := stagesOn_set (p := Stage.isRunning) he
        (.finished task.copyTaskInfo AlarmResult.zero)
      have hf' := stagesOn_set (p := Stage.isFinished) he
        (.finished task.copyTaskInfo AlarmResult.zero)
      rw [hstage, hr] at hr'
      rw [hstage, hf] at hf'
      refine Or.inr ?_
      show Budget k (s.calls c) _ (stagesOn _ (s.execs.set i _) e.node)
        (stagesOn _ (s.execs.set i _) e.node) _
      rw [executed_updateTaskResult, if_pos rfl, show stagesOn _ (s.execs.set i _) e.node = 0
        from hr', show stagesOn _ (s.execs.set i _) e.node = 1 from hf']
      exact hb.skip (hcalm c hmc)
    · refine Or.inl ⟨?_, stagesOn_set_of_ne he _ hm, stagesOn_set_of_ne he _ hm, rfl⟩
      show ((s.wheel.updateTaskResult e.node AlarmResult.zero (some err)).heap m).executed = _
      rw [executed_updateTaskResult, if_neg hm, Nat.add_zero]

/-- **The call of a function.** There is a unit left for it, and the bound for
this registration follows from its budget after the call; for all others nothing
has changed. -/
theorem Metered.call {i : ℕ} {e : Execution} {task : Task} {c₀ : CtxRef} (h : Metered s)
    (he : s.execs[i]? = some e) (ht : (s.wheel.heap e.node).task = some task)
    (hc₀ : (s.wheel.heap e.node).ctx = some c₀)
    (hg : task.limit ≠ none → (∀ e' ∈ s.execs, e'.node = e.node → e'.stage = .collected)
      ∧ ∀ c, (s.wheel.heap e.node).ctx = some c → c ∉ s.panicked) :
    Metered { s with
      execs := s.execs.set i { e with stage := .running task.copyTaskInfo }
      invoked := s.invoked ++ [⟨e.registration, c₀, task⟩] } := by
  have hcalls : ∀ c, Scheduler.calls { s with
      execs := s.execs.set i { e with stage := .running task.copyTaskInfo }
      invoked := s.invoked ++ [⟨e.registration, c₀, task⟩] } c
      = s.calls c + (if c₀ = c then 1 else 0) := by
    intro c
    show List.countP _ (s.invoked ++ _) = _
    rw [List.countP_append, List.countP_singleton]
    simp only [decide_eq_true_eq]
    rfl
  -- the budget of the called task after the call
  have hbudget : ∀ k, task.limit = some k → Budget k (s.calls c₀ + 1)
      (s.wheel.heap e.node).executed
      (stagesOn Stage.isRunning
        (s.execs.set i { e with stage := .running task.copyTaskInfo }) e.node)
      (stagesOn Stage.isFinished
        (s.execs.set i { e with stage := .running task.copyTaskInfo }) e.node)
      (c₀ ∈ s.panicked) := by
    intro k hk
    obtain ⟨halone, hcalm⟩ := hg (by rw [hk]; exact Option.some_ne_none k)
    obtain ⟨hr, hf⟩ := stagesOn_eq_zero_of_collected halone
    have hb := h.budgeted e.node task c₀ k ht hc₀ hk
    rw [hr, hf] at hb
    have hstage := halone e (List.mem_of_getElem? he) rfl
    have hr' := stagesOn_set (p := Stage.isRunning) he (.running task.copyTaskInfo)
    have hf' := stagesOn_set (p := Stage.isFinished) he (.running task.copyTaskInfo)
    rw [hstage, hr] at hr'
    rw [hstage, hf] at hf'
    rw [show stagesOn _ (s.execs.set i _) e.node = 1 from hr',
      show stagesOn _ (s.execs.set i _) e.node = 0 from hf']
    exact hb.start (hcalm c₀ hc₀)
  refine ⟨h.identified.evolve (.refl _) (fun e' he' t ht' => ?_) (fun inv hinv => ?_),
    h.budgeted.evolve (.refl _) (fun c hc => hc) (fun m t c k _ _ hmt hmc hk => ?_),
    fun inv hinv k hk => ?_⟩
  · rcases List.mem_or_eq_of_mem_set he' with he' | rfl
    · exact h.identified.own e' he' t ht'
    · obtain rfl : task = t := Option.some.inj (ht.symm.trans ht')
      exact ⟨(h.identified.own e (List.mem_of_getElem? he) task ht).1, rfl⟩
  · rcases List.mem_append.mp hinv with hinv | hinv
    · exact Or.inl hinv
    · obtain rfl := List.mem_singleton.mp hinv
      exact Or.inr ⟨e.node, ht, hc₀⟩
  · rw [hcalls]
    by_cases hm : m = e.node
    · subst hm
      obtain rfl : task = t := Option.some.inj (ht.symm.trans hmt)
      obtain rfl : c₀ = c := Option.some.inj (hc₀.symm.trans hmc)
      rw [if_pos rfl]
      exact Or.inr (hbudget k hk)
    · have hne : c₀ ≠ c := by
        rintro rfl
        exact hm (h.identified.inj m e.node c₀ (by rw [hmt]; exact Option.some_ne_none t)
          (by rw [ht]; exact Option.some_ne_none task) hmc hc₀)
      rw [if_neg hne, Nat.add_zero]
      exact Or.inl ⟨rfl, stagesOn_set_of_ne he _ hm, stagesOn_set_of_ne he _ hm, rfl⟩
  · rw [hcalls]
    rcases List.mem_append.mp hinv with hinv | hinv
    · by_cases hc : c₀ = inv.registration
      · rw [h.identified.called inv hinv e.node task ht (hc ▸ hc₀)] at hk
        rw [if_pos hc, ← hc]
        exact (hbudget k hk).calls_le
      · rw [if_neg hc]
        exact h.bounded inv hinv k hk
    · obtain rfl := List.mem_singleton.mp hinv
      rw [if_pos rfl]
      exact (hbudget k hk).calls_le

/-- **An execution starts.** It is dropped if it is turned down by the state of
its node, skipped if there is nothing to call, and otherwise the function is
called. -/
theorem Metered.start {i : ℕ} {e : Execution} (h : Metered s) (he : s.execs[i]? = some e)
    (hs : e.stage = .collected) (hg : StartsAlone s (.start i)) : Metered (s.start i e) := by
  unfold Scheduler.start
  cases hcheck : s.wheel.checkTaskState e.node with
  | none => exact h.drop he hs
  | some task =>
    have ht : (s.wheel.heap e.node).task = some task := by
      unfold TimeWheel.checkTaskState at hcheck
      split_ifs at hcheck
      exact hcheck
    have hg := hg i e task rfl he hcheck
    obtain ⟨c, hc⟩ := h.identified.ctx e.node task ht
    dsimp only
    cases s.wheel.runTaskCheck e.node task.copyTaskInfo with
    | some err => exact h.skip he ht hg
    | none =>
      rw [hc]
      exact h.call he ht hc hg

/-- **The function returns.** The counter of the node goes up, if it is still
the same registration; if it is not, its numbers are not concerned. -/
theorem Metered.finish {i : ℕ} {e : Execution} {info : TaskInfo} (h : Metered s)
    (he : s.execs[i]? = some e) (hs : e.stage = .running info) (result : AlarmResult) :
    Metered (s.finish i e info result) := by
  have hw := onlyReleases_updateTaskResult s.wheel e.node result none
  have hother : ∀ m, m ≠ e.node →
      ((s.wheel.updateTaskResult e.node result none).heap m).executed
        = (s.wheel.heap m).executed := by
    intro m hm
    rw [executed_updateTaskResult, if_neg hm, Nat.add_zero]
  unfold Scheduler.finish
  dsimp only
  split_ifs with htask
  · refine ⟨h.identified.evolve hw
      (fun e' he' => h.identified.own e' (List.mem_of_mem_eraseIdx he'))
      (fun inv hinv => Or.inl hinv), h.budgeted.evolve hw (fun c hc => hc)
      (fun m t c k hmt' _ _ _ _ => ?_), h.bounded⟩
    have hm : m ≠ e.node := by
      rintro rfl
      exact absurd (htask.symm.trans hmt') (Option.some_ne_none t).symm
    exact Or.inl ⟨hother m hm, stagesOn_eraseIdx_of_ne he hm, stagesOn_eraseIdx_of_ne he hm, rfl⟩
  · refine ⟨h.identified.evolve hw (fun e' he' t ht' => ?_) (fun inv hinv => Or.inl hinv),
      h.budgeted.evolve hw (fun c hc => hc) (fun m t c k _ _ hmt hmc hk => ?_), h.bounded⟩
    · rcases List.mem_or_eq_of_mem_set he' with he' | rfl
      · exact h.identified.own e' he' t ht'
      · obtain ⟨hr, hinfo⟩ := h.identified.own e (List.mem_of_getElem? he) t ht'
        rw [hs] at hinfo
        exact ⟨hr, hinfo⟩
    · by_cases hm : m = e.node
      · subst hm
        have hr := stagesOn_set (p := Stage.isRunning) he (.finished info result)
        have hf := stagesOn_set (p := Stage.isFinished) he (.finished info result)
        rw [hs] at hr hf
        have hexec : ((s.wheel.updateTaskResult e.node result none).heap e.node).executed
            = (s.wheel.heap e.node).executed + 1 := by
          rw [executed_updateTaskResult, if_pos rfl]
        refine Or.inr ?_
        show Budget k (s.calls c)
          ((s.wheel.updateTaskResult e.node result none).heap e.node).executed _ _ _
        rw [hexec]
        exact (h.budgeted e.node t c k hmt hmc hk).finish hr hf
      · exact Or.inl ⟨hother m hm, stagesOn_set_of_ne he _ hm, stagesOn_set_of_ne he _ hm, rfl⟩

/-- **The function panics.** The execution is gone, and with it what covered the
call. -/
theorem Metered.panic {i : ℕ} {e : Execution} (h : Metered s) (he : s.execs[i]? = some e) :
    Metered { s with
      execs := s.execs.eraseIdx i
      panicked := e.registration.toList ++ s.panicked } := by
  refine ⟨h.identified.evolve (.refl _)
    (fun e' he' => h.identified.own e' (List.mem_of_mem_eraseIdx he'))
    (fun inv hinv => Or.inl hinv), h.budgeted.evolve (.refl _)
    (fun c hc => List.mem_append_right _ hc) (fun m t c k _ _ hmt hmc hk => ?_), h.bounded⟩
  by_cases hm : m = e.node
  · subst hm
    refine Or.inr ((h.budgeted e.node t c k hmt hmc hk).panic ?_)
    rw [(h.identified.own e (List.mem_of_getElem? he) t hmt).1, hmc]
    exact List.mem_cons_self
  · exact Or.inl ⟨rfl, stagesOn_eraseIdx_of_ne he hm, stagesOn_eraseIdx_of_ne he hm, rfl⟩

/-- A limited task is rescheduled only below its limit. `shouldRescheduleTask`
compares the counter with the limit. -/
theorem executed_lt_of_shouldReschedule {node : TaskSlot} {t : Task} {k : ℕ}
    (hk : t.limit = some k)
    (h : TimeWheel.shouldRescheduleTask node t.copyTaskInfo = true) : node.executed < k := by
  unfold Task.limit at hk
  unfold TimeWheel.shouldRescheduleTask at h
  rw [show t.copyTaskInfo.mode = t.mode from rfl] at h
  cases hmode : t.mode with
  | repeated =>
    rw [hmode] at hk
    exact absurd hk (Option.some_ne_none k).symm
  | once =>
    rw [hmode] at h
    exact absurd h Bool.false_ne_true
  | fixedTimes =>
    rw [hmode] at h hk
    obtain rfl := Option.some.inj hk
    have hlt : (node.executed : ℤ) < t.times := of_decide_eq_true h
    omega
  | other m =>
    rw [hmode] at hk
    exact absurd hk (Option.some_ne_none k).symm

/-- **The locked section.** Either the task is removed, or it is below its limit
and another execution may come. -/
theorem Metered.complete {i : ℕ} {e : Execution} {info : TaskInfo} {result : AlarmResult}
    (h : Metered s) (he : s.execs[i]? = some e) (hs : e.stage = .finished info result) :
    Metered (s.complete cfg i e info result) := by
  have hown : ∀ e' ∈ s.execs.eraseIdx i, _ := fun e' he' =>
    h.identified.own e' (List.mem_of_mem_eraseIdx he')
  unfold Scheduler.complete
  by_cases ht : (s.wheel.heap e.node).task = none
  · rw [lockedSection_of_task_none ht]
    refine ⟨h.identified.evolve (.refl _) hown (fun inv hinv => Or.inl hinv),
      h.budgeted.evolve (.refl _) (fun c hc => hc) (fun m t c k _ _ hmt _ _ => ?_), h.bounded⟩
    have hm : m ≠ e.node := by
      rintro rfl
      exact absurd (ht.symm.trans hmt) (Option.some_ne_none t).symm
    exact Or.inl ⟨rfl, stagesOn_eraseIdx_of_ne he hm, stagesOn_eraseIdx_of_ne he hm, rfl⟩
  · obtain ⟨hothers, hkept, hremoved⟩ := meter_lockedSection cfg s.wheel ht info result
      e.now e.currentSlot
    have hw := onlyReleases_lockedSection cfg s.wheel e.node info result e.now e.currentSlot
    refine ⟨h.identified.evolve hw hown (fun inv hinv => Or.inl hinv),
      h.budgeted.evolve hw (fun c hc => hc) (fun m t c k hmt' _ hmt hmc hk => ?_), h.bounded⟩
    by_cases hm : m = e.node
    · subst hm
      have hinfo := (h.identified.own e (List.mem_of_getElem? he) t hmt).2
      rw [hs] at hinfo
      obtain rfl : info = t.copyTaskInfo := hinfo
      have hr := stagesOn_eraseIdx (p := Stage.isRunning) he
      have hf := stagesOn_eraseIdx (p := Stage.isFinished) he
      rw [hs] at hr hf
      -- a task still on its node was rescheduled
      cases hresched : TimeWheel.shouldRescheduleTask (s.wheel.heap e.node) t.copyTaskInfo with
      | true =>
        have hexec : ((s.wheel.lockedSection cfg e.node t.copyTaskInfo result e.now
            e.currentSlot).heap e.node).executed = (s.wheel.heap e.node).executed :=
          congrArg (fun x => x.2.2) (hkept hresched)
        refine Or.inr ?_
        show Budget k (s.calls c) ((s.wheel.lockedSection cfg e.node t.copyTaskInfo result e.now
          e.currentSlot).heap e.node).executed _ _ _
        rw [hexec]
        exact (h.budgeted e.node t c k hmt hmc hk).complete hr hf
          (executed_lt_of_shouldReschedule hk hresched)
      | false => exact absurd ((hremoved hresched).symm.trans hmt') (Option.some_ne_none t).symm
    · exact Or.inl ⟨congrArg (fun x => x.2.2) (hothers m hm),
        stagesOn_eraseIdx_of_ne he hm, stagesOn_eraseIdx_of_ne he hm, rfl⟩

/-- **One step.** The condition is only needed when an execution starts. -/
theorem Metered.of_step {a : Action} (h : Metered s) (ha : a.isCall = false)
    (hg : StartsAlone s a) (hstep : step cfg s a = some s') : Metered s' := by
  cases stepped_of_step hstep with
  | call hcall hw => exact absurd (hcall.symm.trans ha) (by decide)
  | tick now => exact h.tick now
  | reject he hs => exact h.drop he hs
  | start he hs => exact h.start he hs hg
  | finish he hs result => exact h.finish he hs result
  | panic he hs => exact h.panic he
  | complete he hs => exact h.complete he hs

/-- **The execution bound.** Let calls lead to a state, and let only ticks and
executions follow. If executions of limited tasks start alone and after no
panic, no task is called more often than it allows. The bound holds after every
step, not only at the end, and it counts calls that are still running or have
panicked. -/
theorem invocationsBounded_of_startsAlone (h : Started cfg w) {setup : List Action}
    (hsetup : ∀ a ∈ setup, a.isCall = true)
    (hrun : Machine.run (step cfg) (ofWheel w) setup = some s) {as : List Action}
    (has : ∀ a ∈ as, a.isCall = false)
    (halone : Machine.Each (step cfg) (fun s a _ => StartsAlone s a) s as) :
    Machine.Each (step cfg) (fun _ _ s' => InvocationsBounded s') s as := by
  -- the calls leave a wheel on which nothing has been executed
  have hcalls : ∀ s a s', (CallState cfg s.wheel ∧ s.execs = [] ∧ s.invoked = []) →
      a.isCall = true → step cfg s a = some s' →
      CallState cfg s'.wheel ∧ s'.execs = [] ∧ s'.invoked = [] := by
    rintro s a s' ⟨hw, hexecs, hinvoked⟩ ha hstep
    refine ⟨hw.step ha hstep, ?_⟩
    cases stepped_of_step hstep with
    | call => exact ⟨hexecs, hinvoked⟩
    | tick now => exact Bool.noConfusion ha
    | reject => exact Bool.noConfusion ha
    | start => exact Bool.noConfusion ha
    | finish => exact Bool.noConfusion ha
    | panic => exact Bool.noConfusion ha
    | complete => exact Bool.noConfusion ha
  obtain ⟨⟨lists, -, hunexec⟩, hexecs, hinvoked⟩ := Machine.inv_of_run hcalls
    ⟨⟨_, inv_of_started h, unexecuted_of_started h⟩, rfl, rfl⟩
    (Machine.each_of_forall hsetup) hrun
  have hstep : ∀ s a s', Metered s → (a.isCall = false ∧ StartsAlone s a) →
      step cfg s a = some s' → Metered s' ∧ InvocationsBounded s' := by
    rintro s a s' hs ⟨ha, hg⟩ hstep
    have hs' := hs.of_step ha hg hstep
    exact ⟨hs', hs'.bounded⟩
  exact Machine.Each.of_invariant hstep (metered_of_unexecuted hunexec hexecs hinvoked)
    ((Machine.each_of_forall has).and halone)

/-- A task to run once, collected twice; the second execution finds it gone.
Here both the node's two collections are before the first start, and the bound
still holds: it is not the collections that count. -/
theorem invocationsBounded_of_second_collection :
    ∃ s, Machine.run (step fourSlots) (ofWheel fourSlotWheel) [addAt 0 "a" .once 10 none]
        = some s
      ∧ Machine.Each (step fourSlots) (fun _ _ s' => InvocationsBounded s') s
        (ticksAt [10, 20, 30, 40, 50] ++ [.start 0, .finish 0 .zero, .complete 0, .start 0]) := by
  obtain ⟨s, hs⟩ : ∃ s, Machine.run (step fourSlots) (ofWheel fourSlotWheel)
      [addAt 0 "a" .once 10 none] = some s :=
    Option.isSome_iff_exists.mp (by decide +kernel)
  have hall : Machine.Each (step fourSlots) (fun s a _ => StartsAlone s a)
      (ofWheel fourSlotWheel) ([addAt 0 "a" .once 10 none]
        ++ (ticksAt [10, 20, 30, 40, 50]
          ++ [.start 0, .finish 0 .zero, .complete 0, .start 0])) := by decide +kernel
  exact ⟨s, hs, invocationsBounded_of_startsAlone started_fourSlotWheel (by decide) hs
    (by decide) ((Machine.each_append.mp hall).2 s hs)⟩

/-- **A panic is not counted**: the task to run once panics at 10 ms, stays in
its slot, and is called again one revolution later. -/
theorem not_invocationsBounded_of_panic :
    ∃ s, Machine.run (step fourSlots) (ofWheel fourSlotWheel) [addAt 0 "a" .once 10 none]
        = some s
      ∧ ¬ Machine.Each (step fourSlots) (fun _ _ s' => InvocationsBounded s') s
        (ticksAt [10] ++ [.start 0, .panic 0] ++ ticksAt [20, 30, 40, 50] ++ [.start 0]) := by
  have hrun : (Machine.run (step fourSlots) (ofWheel fourSlotWheel)
      ([addAt 0 "a" .once 10 none] ++ (ticksAt [10] ++ [.start 0, .panic 0]
        ++ ticksAt [20, 30, 40, 50] ++ [.start 0]))).map invoked
      = some [⟨some 1, 1, Task.plain "a" .once (Duration.ofMilli 10)⟩,
        ⟨some 1, 1, Task.plain "a" .once (Duration.ofMilli 10)⟩] := by decide +kernel
  obtain ⟨t, ht, hinvoked⟩ := Option.map_eq_some_iff.mp hrun
  rw [Machine.run_append] at ht
  obtain ⟨s, hs, ht⟩ := Option.bind_eq_some_iff.mp ht
  refine ⟨s, hs, fun h => ?_⟩
  have hcalls : s.invoked = [] := by
    have hnone : (Machine.run (step fourSlots) (ofWheel fourSlotWheel)
        [addAt 0 "a" .once 10 none]).map invoked = some [] := by decide +kernel
    rw [hs] at hnone
    exact Option.some.inj hnone
  have hbound := Machine.state_of_each (P := InvocationsBounded)
    (fun inv hinv => absurd (hcalls ▸ hinv) List.not_mem_nil) h ht
  unfold InvocationsBounded Scheduler.calls at hbound
  rw [hinvoked] at hbound
  exact absurd (hbound _ List.mem_cons_self 1 rfl) (by decide)

end Timewheel
