import Timewheel.Bound
import Timewheel.Effects

/-!
# Counting while tasks come and go

`Metered` counts the calls of each registration, along runs in which no task is
added or removed. Here tasks are added and removed while executions are under
way. A new registration starts with nothing counted: its context is new, and
its node belongs to no execution, as long as the pool hands out none that an
execution still holds.

`Counted` is what holds throughout. Each of the lemmas below also says which
registrations the map holds afterwards, and what they have been called, so that
the registrations of one ID can be added up.

The difficulty is a node that is used again. Its context is replaced when a
new task is put on it, but an execution that still holds the node would then
count its call for the wrong registration. So a task is only put on a node
that no execution holds; with that, an execution and the registration it works
for always agree on the context, and contexts are never used twice because
they are numbered upwards.

The lemmas follow the steps of `Scheduler.step`: adding, removing, and the
steps of executions in the background. `Overlap` and `Lifetime` add up what is
counted here.
-/

namespace Timewheel

open Scheduler

open TimeWheel (AddEnv checkTask)

variable {cfg : Config} {s s' : Scheduler} {w w' : TimeWheel}
  {lists lists' : ℕ → List NodeRef} {n : NodeRef} {t t' : Task} {id : String} {c c' : CtxRef}

/-- `AddTask` keeps the limit. It fills in defaults of other fields only. -/
theorem limit_of_checkTask (h : checkTask t = .ok t') : t'.limit = t.limit := by
  cases (checkTask_ok h).2.2 with
  | repeated => rfl
  | once =>
    split_ifs
    · rfl
    · rfl
  | fixedTimes => rfl
  | other hmode =>
    unfold Task.limit
    rw [hmode]

/-! ## Registrations -/

/-- The map holds a registration of the task `t` under the ID. The context
stands for the registration: it is new for each. -/
def Scheduler.Holds (cfg : Config) (s : Scheduler) (id : String) (t : Task) (c : CtxRef) : Prop :=
  ∃ n, s.wheel.lookup cfg id = some n ∧ (s.wheel.heap n).task = some t
    ∧ (s.wheel.heap n).ctx = some c

/-- **The calls of each registration are counted**, and the contexts of calls
and nodes are old ones. The last two fields say that no context is handed out a
second time, so that a new registration starts at zero. -/
structure Scheduler.Counted (cfg : Config) (s : Scheduler) : Prop where
  sound : ∃ lists, Sound cfg s lists
  metered : Metered s
  ctx_lt : ∀ n t c, (s.wheel.heap n).task = some t → (s.wheel.heap n).ctx = some c →
    c < s.wheel.nextCtx
  called_lt : ∀ inv ∈ s.invoked, inv.registration < s.wheel.nextCtx

/-- There is one registration for an ID. The map is a function, and a node
carries one task with one context. -/
theorem Scheduler.Holds.unique (h : s.Holds cfg id t c) (h' : s.Holds cfg id t' c') :
    t = t' ∧ c = c' := by
  obtain ⟨n, hid, ht, hc⟩ := h
  obtain ⟨n', hid', ht', hc'⟩ := h'
  obtain rfl := Option.some.inj (hid.symm.trans hid')
  exact ⟨Option.some.inj (ht.symm.trans ht'), Option.some.inj (hc.symm.trans hc')⟩

namespace Scheduler.Counted

/-- The ID is the one of the task. This is part of the invariant of the map. -/
theorem id_eq (h : s.Counted cfg) (hs : s.Holds cfg id t c) : t.id = id := by
  obtain ⟨lists, hsound⟩ := h.sound
  obtain ⟨n, hid, ht, -⟩ := hs
  obtain ⟨i, d, t', hu, rfl⟩ := hsound.inv.used_of_lookup hid
  exact congrArg Task.id (Option.some.inj (ht.symm.trans hu.task_eq))

/-- A registration has one ID. Two nodes never share a context. -/
theorem id_unique {id' : String} (h : s.Counted cfg) (hs : s.Holds cfg id t c)
    (hs' : s.Holds cfg id' t' c) : id = id' := by
  have hid := h.id_eq hs
  have hid' := h.id_eq hs'
  obtain ⟨n, -, ht, hc⟩ := hs
  obtain ⟨n', -, ht', hc'⟩ := hs'
  obtain rfl := h.metered.identified.inj n n' c (by rw [ht]; exact Option.some_ne_none t)
    (by rw [ht']; exact Option.some_ne_none t') hc hc'
  rw [← hid, ← hid', Option.some.inj (ht.symm.trans ht')]

end Scheduler.Counted

/-- A registration on a node that has not been changed was there before. So a
step that changes one node adds registrations on that node at most. -/
theorem holds_of_changesOnly {m : NodeRef} (hc : ChangesOnly n s.wheel w' lists lists')
    (hm : m ≠ n) (hid : w'.lookup cfg id = some m) (ht : (w'.heap m).task = some t)
    (hctx : (w'.heap m).ctx = some c) : s.Holds cfg id t c := by
  obtain ⟨htask, hctx', -⟩ := Unexecuted.of_payload (hc.payload m hm)
  exact ⟨m, (hc.entry _ _ m hm).mp hid, htask ▸ ht, hctx' ▸ hctx⟩

/-! ## Adding and removing -/

/-- Releasing a node. The calls of its registration stay counted, and nobody is
registered on it any more. -/
theorem Metered.release (h : Metered s) (hc : ChangesOnly n s.wheel w' lists lists')
    (hr : (w'.heap n).task = none) : Metered { s with wheel := w' } := by
  have hsame : ∀ m, m ≠ n → _ := fun m hm => Unexecuted.of_payload (hc.payload m hm)
  have hw : OnlyReleases s.wheel w' := by
    intro m
    by_cases hm : m = n
    · exact Or.inl (hm ▸ hr)
    · exact Or.inr ⟨(hsame m hm).1, (hsame m hm).2.1⟩
  refine ⟨h.identified.evolve hw h.identified.own (fun inv hinv => Or.inl hinv),
    h.budgeted.evolve hw (fun c hc => hc) (fun m t c k ht _ _ _ _ => Or.inl ⟨?_, rfl, rfl, rfl⟩),
    h.bounded⟩
  have hm : m ≠ n := by
    rintro rfl
    exact (nomatch hr.symm.trans ht)
  exact (hsame m hm).2.2

/-- **Installing a task** on a node that no execution holds. Its context is new,
so nothing is counted for it yet, and no execution will count for it by mistake. -/
theorem Scheduler.Counted.install (h : s.Counted cfg) (hc : ChangesOnly n s.wheel w' lists lists')
    (hi : Installed s.wheel w' n t) (hidle : ∀ e ∈ s.execs, e.node ≠ n)
    (hlimit : ∀ k, t.limit = some k → 0 < k) : Metered { s with wheel := w' } := by
  have hm := h.metered
  have hsame : ∀ m, m ≠ n → _ := fun m hm => Unexecuted.of_payload (hc.payload m hm)
  -- the contexts of the other nodes and of the calls are older than the new one
  have hold : ∀ m, m ≠ n → (w'.heap m).task ≠ none → (w'.heap m).ctx ≠ some s.wheel.nextCtx := by
    intro m hmn ht hctx
    obtain ⟨t', ht⟩ := Option.ne_none_iff_exists'.mp ht
    rw [(hsame m hmn).1] at ht
    rw [(hsame m hmn).2.1] at hctx
    exact lt_irrefl _ (h.ctx_lt m t' _ ht hctx)
  have hcalls : s.calls s.wheel.nextCtx = 0 := by
    refine List.countP_eq_zero.mpr (fun inv hinv heq => ?_)
    exact (h.called_lt inv hinv).ne (of_decide_eq_true heq)
  refine ⟨⟨fun m t' ht => ?_, fun m k c hm' hk hcm hck => ?_, fun e he t' ht => ?_,
    fun inv hinv m t' ht hctx => ?_⟩, fun m t' c k ht hctx hk => ?_, hm.bounded⟩
  · by_cases hmn : m = n
    · subst hmn
      exact ⟨_, hi.ctx⟩
    · rw [(hsame m hmn).1] at ht
      rw [(hsame m hmn).2.1]
      exact hm.identified.ctx m t' ht
  · by_cases hmn : m = n
    · by_cases hkn : k = n
      · exact hmn.trans hkn.symm
      · subst hmn
        exact absurd (hck.trans (hcm.symm.trans hi.ctx)) (hold k hkn hk)
    · by_cases hkn : k = n
      · subst hkn
        exact absurd (hcm.trans (hck.symm.trans hi.ctx)) (hold m hmn hm')
      · rw [(hsame m hmn).1] at hm'
        rw [(hsame k hkn).1] at hk
        rw [(hsame m hmn).2.1] at hcm
        rw [(hsame k hkn).2.1] at hck
        exact hm.identified.inj m k c hm' hk hcm hck
  · have hen := hidle e he
    rw [(hsame e.node hen).1] at ht
    rw [(hsame e.node hen).2.1]
    exact hm.identified.own e he t' ht
  · by_cases hmn : m = n
    · subst hmn
      rw [hi.ctx] at hctx
      exact absurd (Option.some.inj hctx).symm (h.called_lt inv hinv).ne
    · rw [(hsame m hmn).1] at ht
      rw [(hsame m hmn).2.1] at hctx
      exact hm.identified.called inv hinv m t' ht hctx
  · by_cases hmn : m = n
    · subst hmn
      obtain rfl : t = t' := Option.some.inj (hi.task.symm.trans ht)
      obtain rfl : s.wheel.nextCtx = c := Option.some.inj (hi.ctx.symm.trans hctx)
      have hidle : ∀ p : Stage → Bool, stagesOn p s.execs m = 0 := fun p =>
        stagesOn_eq_zero (fun e he hen => absurd hen (hidle e he))
      show Budget k (s.calls s.wheel.nextCtx) (w'.heap m).executed _ _ _
      rw [hcalls, hi.executed, hidle, hidle]
      exact ⟨Nat.zero_le k, fun _ => ⟨Nat.zero_le 1, le_refl 0, Nat.zero_le k,
        fun _ => hlimit k hk⟩⟩
    · rw [(hsame m hmn).1] at ht
      rw [(hsame m hmn).2.1] at hctx
      have hb := hm.budgeted m t' c k ht hctx hk
      rwa [← (hsame m hmn).2.2] at hb

/-- The contexts stay old when all but one node are as before. Calls of the past
are not changed by it. -/
theorem Scheduler.Counted.of_changesOnly (h : s.Counted cfg)
    (hsound : ∃ lists, Sound cfg { s with wheel := w' } lists)
    (hmetered : Metered { s with wheel := w' }) (hc : ChangesOnly n s.wheel w' lists lists')
    (hn : ∀ t c, (w'.heap n).task = some t → (w'.heap n).ctx = some c → c < w'.nextCtx) :
    Scheduler.Counted cfg { s with wheel := w' } where
  sound := hsound
  metered := hmetered
  ctx_lt := fun m t c ht hctx => by
    by_cases hm : m = n
    · subst hm
      exact hn t c ht hctx
    · obtain ⟨htask, hctx', -⟩ := Unexecuted.of_payload (hc.payload m hm)
      exact lt_of_lt_of_le (h.ctx_lt m t c (htask ▸ ht) (hctx' ▸ hctx)) hc.nextCtx
  called_lt := fun inv hinv => lt_of_lt_of_le (h.called_lt inv hinv) hc.nextCtx

/-- A task is put on a node that no execution holds. The new context is the next
number. -/
theorem Scheduler.Counted.of_installed (h : s.Counted cfg)
    (hsound : ∃ lists, Sound cfg { s with wheel := w' } lists)
    (hc : ChangesOnly n s.wheel w' lists lists') (hi : Installed s.wheel w' n t)
    (hidle : ∀ e ∈ s.execs, e.node ≠ n) (hlimit : ∀ k, t.limit = some k → 0 < k) :
    Scheduler.Counted cfg { s with wheel := w' } := by
  refine h.of_changesOnly hsound (h.install hc hi hidle hlimit) hc (fun _ c _ hctx => ?_)
  obtain rfl := Option.some.inj (hi.ctx.symm.trans hctx)
  exact hi.nextCtx

/-- **`AddTask`**: there is a new registration at most, of that task, which has
not been called. The cases are those of the code: a rejected task, one whose ID
is taken, and one that is put on a node. -/
theorem Scheduler.Counted.addTask (h : s.Counted cfg) (task : Task) (env : AddEnv)
    (hidle : ∀ e ∈ s.execs, env.node ≠ some e.node) :
    Scheduler.Counted cfg { s with wheel := (s.wheel.addTask cfg (some task) env).2 }
      ∧ ∀ id t c, Scheduler.Holds cfg { s with wheel := (s.wheel.addTask cfg (some task) env).2 }
          id t c →
        s.Holds cfg id t c ∨ (id = task.id ∧ t.limit = task.limit ∧ s.calls c = 0) := by
  obtain ⟨lists, hs⟩ := h.sound
  have hcareful : Careful cfg s (.addTask (some task) env) := ⟨hidle, fun i e ha => (nomatch ha)⟩
  have hsound : ∃ lists', Sound cfg
      { s with wheel := (s.wheel.addTask cfg (some task) env).2 } lists' :=
    hs.of_step hcareful rfl
  have hadd := addTask_cases hs.inv (some task) env
  -- no execution holds the node that is handed out
  have hnode : ∀ n, HandedOut s.wheel lists env.node n → ∀ e ∈ s.execs, e.node ≠ n := by
    rintro n hn e he rfl
    rcases hn.source with heq | ⟨heq, -⟩
    · exact (hs.tracked e he).allocated.ne heq
    · exact hidle e he heq
  generalize s.wheel.addTask cfg (some task) env = r at hsound hadd ⊢
  cases hadd with
  | rejected reason => exact ⟨h, fun id t c hh => Or.inl hh⟩
  | @duplicate t t' n w' task_eq check running taken inv changes handedOut free installed =>
    refine ⟨h.of_installed hsound changes installed (hnode n handedOut)
      (fun k => limit_pos_of_checkTask check), ?_⟩
    rintro id t c ⟨m, hid, ht, hc⟩
    have hm : m ≠ n := by
      rintro rfl
      exact free.no_entry _ _ hid
    exact Or.inl (holds_of_changesOnly changes hm hid ht hc)
  | @added t t' n w' lists' i task_eq check running new inv changes handedOut used installed =>
    refine ⟨h.of_installed hsound changes installed (hnode n handedOut)
      (fun k => limit_pos_of_checkTask check), ?_⟩
    rintro id t'' c ⟨m, hid, ht, hc⟩
    by_cases hm : m = n
    · subst hm
      obtain rfl := Option.some.inj task_eq
      obtain rfl : t' = t'' := Option.some.inj (installed.task.symm.trans ht)
      obtain rfl : s.wheel.nextCtx = c := Option.some.inj (installed.ctx.symm.trans hc)
      refine Or.inr ⟨?_, limit_of_checkTask check, ?_⟩
      · rw [((used.entry _ id).mp hid).2, (checkTask_ok check).2.2.id_eq]
      · exact List.countP_eq_zero.mpr (fun inv hinv heq =>
          (h.called_lt inv hinv).ne (of_decide_eq_true heq))
    · exact Or.inl (holds_of_changesOnly changes hm hid ht hc)

/-- **`RemoveTask`** makes no registration. The node that is released keeps its
old context until it is used again. -/
theorem Scheduler.Counted.removeTask (h : s.Counted cfg) (taskID : String) (deleteOk : Bool) :
    Scheduler.Counted cfg { s with wheel := (s.wheel.removeTask cfg taskID deleteOk).2 }
      ∧ ∀ id t c, Scheduler.Holds cfg
          { s with wheel := (s.wheel.removeTask cfg taskID deleteOk).2 } id t c →
        s.Holds cfg id t c := by
  obtain ⟨lists, hs⟩ := h.sound
  have hcareful : Careful cfg s (.removeTask taskID deleteOk) :=
    ⟨fun _ _ => Set.notMem_empty _, fun i e ha => (nomatch ha)⟩
  have hsound : ∃ lists', Sound cfg
      { s with wheel := (s.wheel.removeTask cfg taskID deleteOk).2 } lists' :=
    hs.of_step hcareful rfl
  have hremove := removeTask_cases hs.inv taskID deleteOk
  generalize s.wheel.removeTask cfg taskID deleteOk = r at hsound hremove ⊢
  cases hremove with
  | emptyID hid => exact ⟨h, fun id t c hh => hh⟩
  | notFound hne hid => exact ⟨h, fun id t c hh => hh⟩
  | removed hid used id_eq inv changes released =>
    have hmetered := h.metered.release changes released.task
    refine ⟨h.of_changesOnly hsound hmetered changes (fun t c ht _ => ?_), ?_⟩
    · exact (nomatch released.task.symm.trans ht)
    · rintro id t c ⟨m, hid, ht, hc⟩
      refine holds_of_changesOnly changes ?_ hid ht hc
      rintro rfl
      exact (nomatch released.task.symm.trans ht)

/-! ## Executions -/

/-- The locked section makes no context. It may remove the task, or move the
node. -/
theorem nextCtx_lockedSection (w : TimeWheel) (n : NodeRef) (info : TaskInfo)
    (result : AlarmResult) (now : Time) (slot : ℕ) :
    (w.lockedSection cfg n info result now slot).nextCtx = w.nextCtx := by
  have hrelinked : ∀ {w₁ w₂ : TimeWheel}, TimeWheel.Relinked w₁ w₂ →
      w₂.nextCtx = w₁.nextCtx := by
    intro w₁ w₂ hr
    obtain ⟨heap, slots, rfl⟩ := hr.frame
    rfl
  have hunlink : ∀ w₁ : TimeWheel, (w₁.unlink n slot).nextCtx = w₁.nextCtx := fun w₁ =>
    hrelinked (w₁.unlink_spec n slot).1
  have halert : (w.applyAlert cfg n info result now).nextCtx = w.nextCtx :=
    (applyAlert_core w n info result now).nextCtx
  unfold TimeWheel.lockedSection TimeWheel.handleTaskSchedulingLocked
  split_ifs
  · exact halert
  · unfold TimeWheel.rescheduleTask
    dsimp only
    split_ifs
    · exact ((hrelinked (TimeWheel.pushFront_spec _ n _).1).trans (hunlink _)).trans halert
    · exact halert
  · exact (hunlink _).trans halert

section Background

variable {a : Action}

/-- A step of an execution releases nodes at most, makes no context, and calls
one function at most. This is all the counting needs to know of the background. -/
structure Executes (cfg : Config) (s s' : Scheduler) : Prop where
  releases : OnlyReleases s.wheel s'.wheel
  nextCtx : s'.wheel.nextCtx = s.wheel.nextCtx
  invoked : s'.invoked = s.invoked ∨ ∃ r c t, s.Holds cfg t.id t c
    ∧ s'.invoked = s.invoked ++ [⟨r, c, t⟩]

/-- **What a step of an execution does**, case by case: only `start` calls a
function, and only `finish` and `tick` release nodes. -/
theorem executes_of_step (h : Sound cfg s lists) (ha : a.isCall = false)
    (hstep : step cfg s a = some s') : Executes cfg s s' := by
  have hresult : ∀ n result err, OnlyReleases s.wheel (s.wheel.updateTaskResult n result err)
      ∧ (s.wheel.updateTaskResult n result err).nextCtx = s.wheel.nextCtx :=
    fun n result err => ⟨onlyReleases_updateTaskResult s.wheel n result err,
      (updateTaskResult_core s.wheel n result err).nextCtx⟩
  cases stepped_of_step hstep with
  | call hcall _ => exact absurd (hcall.symm.trans ha) Bool.noConfusion
  | tick now => exact ⟨.refl _, rfl, Or.inl rfl⟩
  | reject he hs => exact ⟨.refl _, rfl, Or.inl rfl⟩
  | panic he hs => exact ⟨.refl _, rfl, Or.inl rfl⟩
  | @start i e he hs =>
    unfold Scheduler.start
    cases hcheck : s.wheel.checkTaskState e.node with
    | none => exact ⟨.refl _, rfl, Or.inl rfl⟩
    | some task =>
      dsimp only
      cases s.wheel.runTaskCheck e.node task.copyTaskInfo with
      | some err => exact ⟨(hresult _ _ _).1, (hresult _ _ _).2, Or.inl rfl⟩
      | none =>
        obtain ⟨k, c, -, hu, -⟩ := checkTaskState_eq hcheck (h.tracked e (List.mem_of_getElem? he))
        refine ⟨.refl _, rfl, Or.inr ⟨e.registration, c, task, ⟨e.node, hu.lookup, hu.task_eq,
          hu.ctx_eq⟩, ?_⟩⟩
        dsimp only
        rw [hu.ctx_eq]
        rfl
  | @finish i e info he hs result =>
    unfold Scheduler.finish
    dsimp only
    split_ifs
    · exact ⟨(hresult _ _ _).1, (hresult _ _ _).2, Or.inl rfl⟩
    · exact ⟨(hresult _ _ _).1, (hresult _ _ _).2, Or.inl rfl⟩
  | @complete i e info result he hs =>
    exact ⟨onlyReleases_lockedSection cfg s.wheel e.node info result e.now e.currentSlot,
      nextCtx_lockedSection s.wheel e.node info result e.now e.currentSlot, Or.inl rfl⟩

/-- **A step of an execution** makes no registration, and the function it calls
is that of one. The call that `start` adds is counted for the registration whose
context the node carries. -/
theorem Scheduler.Counted.background (h : s.Counted cfg) (ha : a.isCall = false)
    (hcareful : Careful cfg s a) (halone : StartsAlone s a) (hstep : step cfg s a = some s') :
    s'.Counted cfg ∧ (∀ id t c, s'.Holds cfg id t c → s.Holds cfg id t c)
      ∧ (s'.invoked = s.invoked ∨ ∃ r c t, s.Holds cfg t.id t c
        ∧ s'.invoked = s.invoked ++ [⟨r, c, t⟩]) := by
  obtain ⟨lists, hs⟩ := h.sound
  obtain ⟨hreleases, hnext, hinvoked⟩ := executes_of_step hs ha hstep
  have hback : ∀ {n t c}, (s'.wheel.heap n).task = some t → (s'.wheel.heap n).ctx = some c →
      (s.wheel.heap n).task = some t ∧ (s.wheel.heap n).ctx = some c := by
    intro n t c ht hc
    obtain ⟨htask, hctx⟩ := (hreleases n).resolve_left (by rw [ht]; exact Option.some_ne_none t)
    exact ⟨htask ▸ ht, hctx ▸ hc⟩
  refine ⟨⟨hs.of_step hcareful hstep, h.metered.of_step ha halone hstep, fun n t c ht hc => ?_,
    fun inv hinv => ?_⟩, ?_, hinvoked⟩
  · obtain ⟨ht, hc⟩ := hback ht hc
    rw [hnext]
    exact h.ctx_lt n t c ht hc
  · rw [hnext]
    rcases hinvoked with heq | ⟨r, c, t, ⟨n, -, ht, hc⟩, heq⟩
    · exact h.called_lt inv (heq ▸ hinv)
    · rw [heq] at hinv
      rcases List.mem_append.mp hinv with hinv | hinv
      · exact h.called_lt inv hinv
      · obtain rfl := List.mem_singleton.mp hinv
        exact h.ctx_lt n t c ht hc
  · rintro id t c ⟨n, hid, ht, hc⟩
    exact ⟨n, (background_entry ha hstep).2 id n hid, hback ht hc⟩

end Background

/-- A wheel that has just been started holds nothing. So the sums start at zero. -/
theorem counted_of_started (h : Started cfg w) :
    (ofWheel w).Counted cfg ∧ ∀ id t c, ¬ (ofWheel w).Holds cfg id t c := by
  have hu := unexecuted_of_started h
  refine ⟨⟨⟨_, sound_of_started h⟩, metered_of_unexecuted hu rfl rfl, fun n t c ht hc => ?_,
    fun inv hinv => absurd hinv List.not_mem_nil⟩, ?_⟩
  · obtain ⟨c', hlt, hc'⟩ := hu.ctx n t ht
    exact Option.some.inj (hc'.symm.trans hc) ▸ hlt
  · rintro id t c ⟨n, hid, -, -⟩
    exact absurd (hid.symm.trans (lookup_of_started h id)) (Option.some_ne_none n)

end Timewheel
