import Timewheel.Halts

/-!
# The life of a deployment

Calls of both services, repairs, restarts and the executions of the three
wheels, in any order, each call and each repair a step of its own. A repair only
adds a task that no wheel lists, for a row that is live, enabled and not paused,
and so does a restart; an execution starts nothing by itself. So the invariant
of the calls is one of every run.

Hence an execution is only let through to its function while the row of its task
is live, enabled and not paused (`admitted_of_run`); and once a task has been
deleted, disabled or paused, none of its executions is let through until it is
enabled or resumed, and none ever again if it has been deleted
(`admitted_of_halted`). That is what a repair or a restart must not break: both
put tasks into the wheels again.

The function is called after the checks, when the row may say something else. So
a stopped task can still be called by the executions that had been let through
when it was stopped, and by no others (`notCalled_of_halted`).
-/

namespace Timewheel

open DList TimeWheel Scheduler Simulation
open MultiLevelTimeWheel

/-! ## What the wheels list -/

/-- The entries of a wheel with a table are in order. -/
theorem Reflects.entries {cfg : Config} {w : TimeWheel} {lists : ℕ → List NodeRef} {tt : Timetable}
    (h : Reflects cfg w lists tt) : Entries cfg w where
  task := fun id n hn => by
    obtain ⟨i, c, t, hu, rfl⟩ := h.inv.used_of_lookup hn
    exact ⟨t, hu.task_eq, rfl⟩
  id_ne := fun id n hn => by
    obtain ⟨i, c, t, hu, rfl⟩ := h.inv.used_of_lookup hn
    exact (checkTask_ok (h.checked n i c t hu)).1
  allocated := fun id n hn => by
    obtain ⟨i, c, t, hu, -⟩ := h.inv.used_of_lookup hn
    exact hu.allocated
  not_pooled := fun id n hn => by
    obtain ⟨i, c, t, hu, -⟩ := h.inv.used_of_lookup hn
    exact hu.not_pooled
  pool_nodup := h.inv.pool_nodup
  pool_lt := h.inv.pool_lt

namespace Levels

variable {s : Levels} {tts : Timetables} {id : String}

/-- All three wheels are in order. -/
theorem Represented.keyed (h : s.Represented tts) : s.timeWheel.Keyed := fun l =>
  (h l).elim (fun _ hl => hl.mirrors.entries)

/-- An ID that is not listed has no timer. -/
theorem Represented.free_of_not_listed (h : s.Represented tts)
    (hid : id ∉ s.timeWheel.listedIDs) : tts.Free id := by
  intro l
  have hnone : s.timeWheel.registry l id = none := reached_eq_none_of_not_listed h.keyed hid l
  rw [h.timers_eq_none, Registered, not_not]
  exact ((h.keyed l).registry_eq_none id).mp hnone

/-- What a wheel holds has a timer, paused or not as its node is. -/
theorem Represented.timer_of_held (h : s.Represented tts) {l : Level} {r : Registration}
    (hr : s.timeWheel.held id l = some r) : ∃ x, (tts l).timers id = some x ∧ x.paused = r.paused := by
  obtain ⟨lists, hl⟩ := h l
  have hr : (s.timeWheel.wheel l).registry l.config id = some r := hr
  obtain ⟨n, hn, hr⟩ := Option.bind_eq_some_iff.mp hr
  obtain ⟨t, -, rfl⟩ := Option.map_eq_some_iff.mp hr
  obtain ⟨i, c, t', hu, rfl⟩ := hl.mirrors.inv.used_of_lookup hn
  exact ⟨_, (congrFun hl.mirrors.timers t'.id).trans hu.timer_eq, rfl⟩

end Levels

namespace Server

variable {g : Gorm} {f : GormFind} {s s' : Server} {tts : Timetables} {id : String}
  {m : MultiLevelTimeWheel} {l : Level}

/-! ## Repairs and restarts -/

/-- **In order**, whatever the tables are. -/
def InOrder (s : Server) : Prop := ∃ tts, s.Governed tts

/-- The wheels change under one ID, and what they hold then is there for its
row. -/
theorem Governed.withWheel (h : s.Governed tts)
    (hl : s.toLevels.Leaves tts id m
      (fun tts' => Scheduled (s.service.tasks.live id) tts' id)) :
    ∃ tts', (s.withWheel m).Governed tts' ∧ tts.Frame id tts' := by
  obtain ⟨tts', hs, hframe, hid⟩ := hl
  exact ⟨tts', h.frame (TaskTable.writes_refl h.keyed id) hs hframe hid s.service.opLog, hframe⟩

/-- **The first loop of a repair**: rows that are enabled, and whose tasks the
wheels do not have, are added one by one. -/
theorem Governed.addMissing {twIDs : List String} {env : String → AddEnv} {rows : List TaskModel}
    (h : s.Governed tts) (hids : (rows.map TaskModel.id).Nodup)
    (hlive : ∀ row ∈ rows, s.service.tasks.live row.id = some row ∧ row.enabled = true)
    (hfree : ∀ row ∈ rows, row.paused = false → row.id ∉ twIDs → tts.Free row.id
      ∧ s.HandsOutIdle (levelOf row.priority) (env row.id)) :
    (s.withWheel (Timewheel.addMissing twIDs env rows s.service.timeWheel).2).InOrder := by
  induction rows generalizing s tts with
  | nil => exact ⟨tts, h⟩
  | cons row rows ih =>
    obtain ⟨hfresh, hids⟩ := List.nodup_cons.mp hids
    obtain ⟨⟨hrow, he⟩, hlive⟩ := List.forall_mem_cons.mp hlive
    obtain ⟨hadd, hfree⟩ := List.forall_mem_cons.mp hfree
    unfold Timewheel.addMissing
    by_cases hmissing : (!row.paused && !decide (row.id ∈ twIDs)) = true
    · obtain ⟨hp, hid⟩ : row.paused = false ∧ row.id ∉ twIDs := by simpa using hmissing
      rw [if_pos hmissing]
      obtain ⟨hfree₀, hidle⟩ := hadd hp hid
      obtain ⟨tts', h', hframe⟩ := h.withWheel ((h.stands.addRow rfl hfree₀ hidle).imp
        (fun _ hadded => scheduled_of_one hadded.1 hrow he hp))
      -- the rows after it have other IDs
      refine ih h' hids hlive (fun row' hrow' hp' hid' => ?_)
      have hne : row'.id ≠ row.id := fun heq => hfresh (heq ▸ List.mem_map_of_mem hrow')
      obtain ⟨hfree', hidle'⟩ := hfree row' hrow' hp' hid'
      exact ⟨fun l => (hframe row'.id hne l).trans (hfree' l), hidle'⟩
    · rw [if_neg hmissing]
      exact ih h hids hlive hfree

/-- A removal, while the table stays. -/
theorem InOrder.remove (h : s.InOrder) (id : String) :
    (s.withWheel (s.service.timeWheel.removeTask id).2).InOrder := by
  obtain ⟨tts, h⟩ := h
  exact (h.remove (TaskTable.writes_refl h.keyed id)).1

/-- The rows a repair may add come with idle nodes. -/
def RepairsIdle (f : GormFind) (s : Server) (env : RepairEnv) : Prop :=
  ∀ row ∈ s.service.enabledPage f env, row.paused = false →
    row.id ∉ s.service.timeWheel.listedIDs → s.HandsOutIdle (levelOf row.priority) (env.add row.id)

/-- **A repair.** -/
theorem Governed.repair (h : s.Governed tts) (hf : f.Documented s.service.tasks) {env : RepairEnv}
    (hidle : s.RepairsIdle f env) :
    InOrder { s with
      service := (AtomicTaskService.repairInconsistentState f s.service env).2.2 } := by
  have hids : ((s.service.enabledPage f env).map TaskModel.id).Nodup := nodup_enabledPage hf
  have hlive := fun row (hrow : row ∈ s.service.enabledPage f env) => mem_enabledPage hf hrow
  have hfree : ∀ row ∈ s.service.enabledPage f env, row.paused = false →
      row.id ∉ (env.order s.service.timeWheel.getAllTasks).map Task.id → tts.Free row.id
        ∧ s.HandsOutIdle (levelOf row.priority) (env.add row.id) := by
    intro row hrow hp hid
    have hlisted : row.id ∉ s.service.timeWheel.listedIDs := fun hmem =>
      hid (((env.order_perm _).map Task.id).mem_iff.mpr hmem)
    exact ⟨h.stands.represented.free_of_not_listed hlisted, hidle row hrow hp hlisted⟩
  unfold ServiceState.enabledPage at hids hlive hfree
  unfold AtomicTaskService.repairInconsistentState
  cases hlist : repoList f s.service.tasks repairQuery env.count env.find with
  | error err => exact ⟨tts, h⟩
  | ok r =>
    rw [hlist] at hids hlive hfree
    exact removeOrphans_keeps (P := fun m => (s.withWheel m).InOrder)
      (fun m id hm => hm.remove id) (h.addMissing hids hlive hfree)

/-- The wheels have just been started, and nothing goes on in them. -/
structure Booted (s : Server) : Prop where
  keyed : s.service.tasks.Keyed
  started : ∃ created now : Level → Time, (new created).start now = some s.service.timeWheel
  activity : ∀ l, s.activity l = ⟨[], [], []⟩

/-- A server that has just started holds nothing. -/
theorem Booted.governed (h : s.Booted) : s.Governed s.toLevels.startedTables := by
  have hstarted : s.toLevels.Started := 
    ⟨⟨h.started, fun l => congrArg Activity.execs (h.activity l)⟩, h.activity⟩
  exact ⟨⟨Levels.represented_of_started hstarted, fun l => Timetable.valid_empty _⟩, h.keyed,
    fun id => scheduled_of_free (fun l => rfl) _⟩

/-- **A restart.** -/
theorem Booted.restore (h : s.Booted) (hf : f.Documented s.service.tasks) (env : RestoreEnv) :
    (s.withWheel (restoreTasks f s.service.tasks env s.service.timeWheel).2.2).InOrder := by
  unfold restoreTasks
  cases hget : repoGetEnabled f s.service.tasks env.get with
  | error err => exact ⟨_, h.governed⟩
  | ok rows =>
    obtain ⟨hnodup, hrows⟩ := repoGetEnabled_ok hf hget
    dsimp only
    rw [restoreEach_eq]
    refine h.governed.addMissing (hnodup.map_on ?_) (fun row hrow => (hrows row).mp hrow)
      (fun row hrow hp hid => ⟨fun l => rfl, fun e he => ?_⟩)
    · intro row hrow row' hrow' heq
      have hlive := ((hrows row).mp hrow).1
      rw [heq] at hlive
      exact Option.some.inj (hlive.symm.trans ((hrows row').mp hrow').1)
    · rw [h.activity] at he
      exact absurd he List.not_mem_nil

/-! ## Executions -/

/-- What is held stays there for its row, as long as it was held before, and
paused if it was. -/
theorem scheduled_of_kept {row : Option TaskModel} {tts' : Timetables}
    (h : Scheduled row tts id) (hkept : ∀ l y, (tts' l).timers id = some y →
      ∃ x, (tts l).timers id = some x ∧ (x.paused = true → y.paused = true)) :
    Scheduled row tts' id where
  row := fun l y hy => by
    obtain ⟨x, hx, hpaused⟩ := hkept l y hy
    obtain ⟨r, hr, he, hp⟩ := h.row l x hx
    exact ⟨r, hr, he, fun hrp => hpaused (hp hrp)⟩
  one := fun l l' y y' hy hy' => by
    obtain ⟨x, hx, -⟩ := hkept l y hy
    obtain ⟨x', hx', -⟩ := hkept l' y' hy'
    exact h.one l l' x x' hx hx'

/-- Executions and ticks start nothing. -/
theorem not_starts_of_not_isCall {a : Action} (h : a.isCall = false) (id : String) :
    ¬ a.request.Starts id := by
  cases a <;> first | exact fun hs => hs | exact absurd h.symm Bool.false_ne_true

/-- **A step of the executions of one wheel** starts nothing, and calls no function
of an ID that stands still. -/
theorem Governed.background (h : s.Governed tts) {a : Action} (hcall : a.isCall = false)
    (hcareful : Careful l.config (s.scheduler l) a) {u : Scheduler}
    (hstep : (s.scheduler l).step l.config a = some u) :
    (s.setScheduler l u).InOrder
      ∧ ∀ id, (tts l).StandsStill id → (s.setScheduler l u).calls id = s.calls id := by
  obtain ⟨t', hnext, hs'⟩ := h.stands.represented.step (l := l) hcareful hstep
  have hvalid := h.stands.valid l
  constructor
  · refine ⟨_, ⟨hs', fun l' => ?_⟩, h.keyed, fun id => scheduled_of_kept (h.scheduled id) ?_⟩
    · by_cases hl : l' = l
      · subst hl
        rw [Function.update_self]
        exact hnext.valid hvalid
      · rw [Function.update_of_ne hl]
        exact h.stands.valid l'
    · intro l' y hy
      by_cases hl : l' = l
      · subst hl
        rw [Function.update_self] at hy
        exact hnext.timer_kept hvalid (not_starts_of_not_isCall hcall id) hy
      · rw [Function.update_of_ne hl] at hy
        exact ⟨y, hy, fun hp => hp⟩
  · intro id hstill
    obtain ⟨lists, hold⟩ := h.stands.represented l
    obtain ⟨lists', hnew⟩ := hs' l
    rw [Function.update_self, Levels.scheduler_setScheduler_self] at hnew
    have hsum := calls_setScheduler s l u id
    rw [hnew.countP_invoked id, hstill.calls hvalid hnext, ← hold.countP_invoked id] at hsum
    exact Nat.add_right_cancel hsum

end Server

/-! ## Runs -/

/-- A call of a service, a repair, a restart, or a step of the executions of one
wheel. -/
inductive DeploymentAction where
  | call (svc : Service) (op : AtomicTaskService.Operation) (env : ServiceEnv)
  | repair (env : RepairEnv)
  | restart (created started : Level → Time) (env : RestoreEnv)
  | background (l : Level) (a : Action)

/-- The call that starts a stopped task again. -/
def DeploymentAction.Lifts (id : String) (k : Halt) : DeploymentAction → Prop
  | .call _ (.call id' c) _ => id' = id ∧ k.Lifts c
  | _ => False

namespace Server

variable {g : Gorm} {f : GormFind} {s s₁ s₂ s' : Server} {tts : Timetables} {id : String}
  {l : Level} {k : Halt}

/-- **The step function.** -/
def advance (g : Gorm) (f : GormFind) (s : Server) : DeploymentAction → Option Server
  | .call svc op env => some { s with service := svc.execute g s.service op env }
  | .repair env => s.step g f (.repair env)
  | .restart created started env => s.step g f (.restart created started env)
  | .background l a => s.step g f (.background l a)

/-- **The condition**: executions complete in the list of their node, and lose no
node to a new task. -/
def Orderly (f : GormFind) (s : Server) : DeploymentAction → Prop
  | .call svc op env => ∀ row ∈ addedRow s.service.tasks svc op env,
      s.HandsOutIdle (levelOf row.priority) env.add
  | .repair env => s.RepairsIdle f env
  | .restart _ _ _ => True
  | .background l a => Careful l.config (s.scheduler l) a

instance (f : GormFind) (s : Server) : ∀ a, Decidable (s.Orderly f a)
  | .call svc op env => inferInstanceAs (Decidable (∀ row ∈ addedRow s.service.tasks svc op env,
      s.HandsOutIdle (levelOf row.priority) env.add))
  | .repair env => inferInstanceAs (Decidable (∀ row ∈ s.service.enabledPage f env,
      row.paused = false → row.id ∉ s.service.timeWheel.listedIDs →
        s.HandsOutIdle (levelOf row.priority) (env.add row.id)))
  | .restart _ _ _ => isTrue trivial
  | .background l a => inferInstanceAs (Decidable (Careful l.config (s.scheduler l) a))

/-- The row of the ID asks for executions. -/
def AsksFor (s : Server) (id : String) : Prop :=
  ∃ row, s.service.tasks.live id = some row ∧ row.enabled = true ∧ row.paused = false

/-- What does not stand still is asked for. -/
theorem Governed.asksFor (h : s.Governed tts) (hmoves : ¬ (tts l).StandsStill id) :
    s.AsksFor id := by
  unfold Timetable.StandsStill at hmoves
  push Not at hmoves
  obtain ⟨x, hx, hpaused⟩ := hmoves
  obtain ⟨row, hrow, he, hp⟩ := (h.scheduled id).row l x hx
  exact ⟨row, hrow, he, Bool.eq_false_iff.mpr (fun hrp => hpaused (hp hrp))⟩

/-- **One step** leaves the server in order, and calls a function only while its
row asks for it. -/
theorem InOrder.of_advance (hg : g.Documented) (h : s.InOrder) (hf : f.Documented s.service.tasks)
    {a : DeploymentAction} (horderly : s.Orderly f a) (hstep : s.advance g f a = some s') :
    s'.InOrder ∧ ∀ id, s'.calls id ≠ s.calls id → s.AsksFor id := by
  obtain ⟨tts, h⟩ := h
  cases a with
  | call svc op env =>
    obtain rfl := Option.some.inj hstep
    exact ⟨(h.call hg svc op horderly).1, fun id hne => absurd rfl hne⟩
  | repair env =>
    obtain rfl := Option.some.inj hstep
    exact ⟨h.repair hf horderly, fun id hne => absurd rfl hne⟩
  | restart created started env =>
    unfold advance step at hstep
    dsimp only at hstep
    obtain ⟨m, hstart, rfl⟩ := Option.map_eq_some_iff.mp hstep
    have hbooted : (s.restarted m).Booted := ⟨h.keyed, ⟨created, started, hstart⟩, fun _ => rfl⟩
    exact ⟨hbooted.restore hf env, fun id hne => absurd (calls_restarted s m id) hne⟩
  | background l a =>
    unfold advance step at hstep
    dsimp only at hstep
    split_ifs at hstep with hcall
    obtain ⟨u, hu, rfl⟩ := Option.map_eq_some_iff.mp hstep
    obtain ⟨horder, hcalls⟩ := h.background (Bool.eq_false_iff.mpr hcall) horderly hu
    exact ⟨horder, fun id hne => h.asksFor (fun hstill => hne (hcalls id hstill))⟩

/-- **The wheels hold what the table says**: each task in a wheel is that of a live
row that is enabled; it is in one wheel only; and if the row is paused, its node
is. -/
structure MatchesTable (s : Server) : Prop where
  row : ∀ id l, s.service.timeWheel.Registered l id →
    ∃ row, s.service.tasks.live id = some row ∧ row.enabled = true
  one : ∀ id l l', s.service.timeWheel.Registered l id → s.service.timeWheel.Registered l' id →
    l = l'
  paused : ∀ id row l r, s.service.tasks.live id = some row → row.paused = true →
    s.service.timeWheel.held id l = some r → r.paused = true

/-- What holds of the tables is what is seen in the wheels. -/
theorem InOrder.matchesTable (h : s.InOrder) : s.MatchesTable := by
  obtain ⟨tts, h⟩ := h
  have htimer : ∀ id l, s.service.timeWheel.Registered l id → ∃ x, (tts l).timers id = some x := by
    intro id l hreg
    refine Option.ne_none_iff_exists'.mp (fun hnone => ?_)
    exact (h.stands.represented.timers_eq_none l id).mp hnone hreg
  refine ⟨fun id l hreg => ?_, fun id l l' hreg hreg' => ?_, fun id row l r hrow hp hr => ?_⟩
  · obtain ⟨x, hx⟩ := htimer id l hreg
    obtain ⟨row, hrow, he, -⟩ := (h.scheduled id).row l x hx
    exact ⟨row, hrow, he⟩
  · obtain ⟨x, hx⟩ := htimer id l hreg
    obtain ⟨x', hx'⟩ := htimer id l' hreg'
    exact (h.scheduled id).one l l' x x' hx hx'
  · obtain ⟨x, hx, hxr⟩ := h.stands.represented.timer_of_held hr
    obtain ⟨row', hrow', -, hpaused⟩ := (h.scheduled id).row l x hx
    obtain rfl := Option.some.inj (hrow.symm.trans hrow')
    exact hxr.symm.trans (hpaused hp)

/-- **What an execution is let through for.** In every run of calls, repairs, restarts
and executions in which no execution loses its node, whatever fails in the
database: the wheels hold what the table says after each step, and a step lets an
execution of a task through to its function only while the row of the task is
live, enabled and not paused.

Each call of a service, each repair and each restart is one step here, and so are
the checks of one execution. The function is called after them, when the row may
have been paused. -/
theorem admitted_of_run (hg : g.Documented) (h : s.Booted) {as : List DeploymentAction}
    (hf : Machine.Each (advance g f) (fun s _ _ => f.Documented s.service.tasks) s as)
    (horderly : Machine.Each (advance g f) (fun s a _ => s.Orderly f a) s as) :
    Machine.Each (advance g f) (fun s _ s' => s'.MatchesTable
      ∧ ∀ id, s'.calls id ≠ s.calls id → s.AsksFor id) s as := by
  have hstep : ∀ (s : Server) (a : DeploymentAction) (s' : Server), s.InOrder →
      (f.Documented s.service.tasks ∧ s.Orderly f a) → s.advance g f a = some s' →
      s'.InOrder ∧ s'.MatchesTable ∧ ∀ id, s'.calls id ≠ s.calls id → s.AsksFor id := by
    rintro s a s' h ⟨hf, horderly⟩ hstep
    obtain ⟨h', hcalls⟩ := h.of_advance hg hf horderly hstep
    exact ⟨h', h'.matchesTable, hcalls⟩
  exact Machine.Each.of_invariant hstep ⟨_, h.governed⟩ (hf.and horderly)

/-! ## Stopped tasks -/

/-- A repair writes nothing to the table. -/
theorem tasks_of_repair (f : GormFind) (t : ServiceState) (env : RepairEnv) :
    (AtomicTaskService.repairInconsistentState f t env).2.2.tasks = t.tasks := by
  unfold AtomicTaskService.repairInconsistentState
  cases repoList f t.tasks repairQuery env.count env.find with
  | error _ => rfl
  | ok _ => rfl

/-- A stopped task is not asked for. -/
theorem not_asksFor_of_halted (h : s.service.tasks.Halted id k) : ¬ s.AsksFor id := by
  rintro ⟨row, hlive, he, hp⟩
  obtain ⟨hmarked, hk⟩ := h.of_live hlive
  cases k with
  | delete => exact hk rfl
  | disable => exact Bool.false_ne_true (hmarked.symm.trans he)
  | pause => exact Bool.false_ne_true (hp.symm.trans hmarked)

/-- **One step** leaves the rows of the IDs that are not called. -/
theorem frame_of_advance (hg : g.Documented) (h : s.InOrder) {a : DeploymentAction}
    (horderly : s.Orderly f a) (hstep : s.advance g f a = some s')
    (ha : ∀ svc op env, a = .call svc op env → idOf svc op env ≠ id) :
    s'.service.tasks id = s.service.tasks id := by
  cases a with
  | call svc op env =>
    obtain rfl := Option.some.inj hstep
    obtain ⟨tts, h⟩ := h
    exact (h.call hg svc op horderly).2.frame id (ha svc op env rfl).symm
  | repair env =>
    obtain rfl := Option.some.inj hstep
    exact congrFun (tasks_of_repair f s.service env) id
  | restart created started env =>
    unfold advance step at hstep
    dsimp only at hstep
    obtain ⟨m, -, rfl⟩ := Option.map_eq_some_iff.mp hstep
    rfl
  | background l a =>
    unfold advance step at hstep
    dsimp only at hstep
    split_ifs at hstep
    obtain ⟨u, -, rfl⟩ := Option.map_eq_some_iff.mp hstep
    rfl

/-- A call for a stopped task leaves it stopped, unless it starts it again. -/
theorem halted_of_execute (hg : g.Documented) (h : s.InOrder)
    (hhalted : s.service.tasks.Halted id k) {svc : Service} {op : AtomicTaskService.Operation}
    {env : ServiceEnv} (hid : idOf svc op env = id)
    (ha : ¬ (DeploymentAction.call svc op env).Lifts id k) :
    (svc.execute g s.service op env).tasks.Halted id k := by
  obtain ⟨tts, h⟩ := h
  cases op with
  | create req =>
    -- the row is in the way, deleted or not
    have hcreate := createEffect hg s.service req env svc
    generalize svc.execute g s.service (.create req) env = service at hcreate ⊢
    cases hcreate with
    | nothing htasks _ =>
      rw [htasks]
      exact hhalted
    | created hnew _ _ _ =>
      obtain ⟨row, hrow, -⟩ := hhalted
      have hid : (svc.requestOf req env).id = id := hid
      rw [hid] at hnew
      exact absurd (hrow.symm.trans hnew) (Option.some_ne_none row)
  | call id' c =>
    obtain rfl : id' = id := hid
    rw [← Service.call_snd]
    exact hhalted.call hg h.keyed svc (fun hlifts => ha ⟨rfl, hlifts⟩)

/-- **One step** leaves a stopped task stopped, unless it starts it again. -/
theorem halted_of_advance (hg : g.Documented) (h : s.InOrder) {a : DeploymentAction}
    (horderly : s.Orderly f a) (hhalted : s.service.tasks.Halted id k) (ha : ¬ a.Lifts id k)
    (hstep : s.advance g f a = some s') : s'.service.tasks.Halted id k := by
  by_cases hcall : ∃ svc op env, a = .call svc op env ∧ idOf svc op env = id
  · obtain ⟨svc, op, env, rfl, hid⟩ := hcall
    obtain rfl := Option.some.inj hstep
    exact halted_of_execute hg h hhalted hid ha
  · push Not at hcall
    obtain ⟨row, hrow, hmarked⟩ := hhalted
    exact ⟨row, (frame_of_advance hg h horderly hstep hcall).trans hrow, hmarked⟩

/-- **No execution of a stopped task is let through.** In a run of calls, repairs,
restarts and executions in which no execution loses its node, `Delete`, `Disable`
or `Pause` of either service succeeds for a task that has a row. Then none of its
executions is let through before `Enable` is called for it if it was disabled, or
`Resume` if it was paused; no repair and no restart starts it, and a deleted task
is never let through again. -/
theorem admitted_of_halted (hg : g.Documented) (h : s.Booted) {as bs : List DeploymentAction}
    {svc : Service} {env : ServiceEnv}
    (hf : Machine.Each (advance g f) (fun s _ _ => f.Documented s.service.tasks) s
      (as ++ .call svc (.call id k.call) env :: bs))
    (horderly : Machine.Each (advance g f) (fun s a _ => s.Orderly f a) s
      (as ++ .call svc (.call id k.call) env :: bs))
    (hrun : Machine.run (advance g f) s as = some s₁) (hrow : s₁.service.tasks id ≠ none)
    (hok : (svc.call g s₁.service (.call id k.call) env).1 = none)
    (hstep : s₁.advance g f (.call svc (.call id k.call) env) = some s₂)
    (hrun' : Machine.run (advance g f) s₂ bs = some s') (hbs : ∀ b ∈ bs, ¬ b.Lifts id k) :
    s'.calls id = s₁.calls id := by
  have hkeep : ∀ (s : Server) (a : DeploymentAction) (s' : Server), s.InOrder →
      (f.Documented s.service.tasks ∧ s.Orderly f a) → s.advance g f a = some s' → s'.InOrder :=
    fun s a s' h hguard hstep => (h.of_advance hg hguard.1 hguard.2 hstep).1
  obtain ⟨hbefore, hafter⟩ := Machine.each_append.mp (hf.and horderly)
  obtain ⟨⟨hf₁, horderly₁⟩, hafter⟩ := hafter s₁ hrun s₂ hstep
  have h₁ : s₁.InOrder := Machine.inv_of_run hkeep ⟨_, h.governed⟩ hbefore hrun
  have h₂ : s₂.InOrder := hkeep s₁ _ s₂ h₁ ⟨hf₁, horderly₁⟩ hstep
  obtain rfl := Option.some.inj hstep
  have hhalted := halted_of_call hg hrow svc hok
  rw [Service.call_snd] at hhalted
  -- what is kept from then on
  have hquiet : ∀ (s : Server) (a : DeploymentAction) (s' : Server),
      (s.InOrder ∧ s.service.tasks.Halted id k ∧ s.calls id = s₁.calls id) →
      ((f.Documented s.service.tasks ∧ s.Orderly f a) ∧ ¬ a.Lifts id k) →
      s.advance g f a = some s' →
      s'.InOrder ∧ s'.service.tasks.Halted id k ∧ s'.calls id = s₁.calls id := by
    rintro s a s' ⟨h, hhalted, hcalls⟩ ⟨⟨hf, horderly⟩, ha⟩ hstep
    obtain ⟨h', hcalled⟩ := h.of_advance hg hf horderly hstep
    refine ⟨h', halted_of_advance hg h horderly hhalted ha hstep, ?_⟩
    by_contra hne
    exact not_asksFor_of_halted hhalted (hcalled id (fun heq => hne (heq.trans hcalls)))
  exact (Machine.inv_of_run hquiet ⟨h₂, hhalted, rfl⟩
    (hafter.and (Machine.each_of_forall hbs)) hrun').2.2

/-! ## The calls -/

/-- Where nothing goes on, no execution is let through. -/
theorem letThrough_self (activity : Level → Activity) : letThrough activity activity = [] := by
  unfold letThrough
  simp

/-- **Each step counts the executions that it lets through.** -/
theorem calls_of_advance {a : DeploymentAction} (hstep : s.advance g f a = some s') (id : String) :
    s'.calls id
      = s.calls id + (letThrough s.activity s'.activity).countP (fun inv => inv.task.id = id) := by
  cases a with
  | call svc op env =>
    obtain rfl := Option.some.inj hstep
    rw [letThrough_self]
    rfl
  | repair env =>
    obtain rfl := Option.some.inj hstep
    rw [letThrough_self]
    rfl
  | restart created started env =>
    -- the new process has let nothing through yet
    unfold advance step at hstep
    dsimp only at hstep
    obtain ⟨m, -, rfl⟩ := Option.map_eq_some_iff.mp hstep
    have hnone : letThrough s.activity (s.restarted m).activity = [] := by
      unfold letThrough restarted
      simp
    rw [calls_withWheel, calls_restarted]
    show s.calls id = s.calls id + (letThrough s.activity (s.restarted m).activity).countP _
    rw [hnone]
    rfl
  | background l a =>
    unfold advance step at hstep
    dsimp only at hstep
    split_ifs at hstep
    obtain ⟨t, ht, rfl⟩ := Option.map_eq_some_iff.mp hstep
    -- one wheel lets executions through, and the others stay as they are
    have hprefix : ∀ l', (s.activity l').invoked
        <+: ((s.setScheduler l t).activity l').invoked := by
      intro l'
      by_cases hl : l' = l
      · subst hl
        have hactivity : ((s.setScheduler l' t).activity l').invoked = t.invoked := by
          simp [setScheduler]
        rw [hactivity]
        exact invoked_prefix_of_step ht
      · have hactivity : (s.setScheduler l t).activity l' = s.activity l' :=
          Function.update_of_ne hl _ _
        rw [hactivity]
    have hsum := countP_letThrough (fun inv => inv.task.id = id) hprefix
    unfold calls
    rw [hsum, ← Nat.add_assoc]
    rfl

/-- **The server, with the calls that come after the checks.** A restart ends the
process, and the calls that are due then are not made. -/
def program (g : Gorm) (f : GormFind) : Delayed.Program Server DeploymentAction Invocation where
  step := advance g f
  decides s _ s' := letThrough s.activity s'.activity
  ends
    | .restart _ _ _ => true
    | _ => false

/-- The calls of functions of tasks with the ID that have been made or are due. -/
def callsAndDue (d : Delayed.State Server Invocation) (id : String) : ℕ :=
  d.count (fun inv => inv.task.id = id)

/-- **A stopped task is not called**, except by executions that have been let through
before. In a run of calls, repairs, restarts and executions in which no execution
loses its node, and functions are called at any time after the checks, `Delete`,
`Disable` or `Pause` of either service succeeds for a task that has a row. From
then on, before `Enable` is called for it if it was disabled, or `Resume` if it
was paused, the calls of its function that are made and those that are still due
do not add up to more than they did when the call returned, however often the
server is repaired or started again; and for a deleted task they never do. -/
theorem notCalled_of_halted (hg : g.Documented) (h : s.Booted)
    {as bs : List (Delayed.Move DeploymentAction)} {svc : Service} {env : ServiceEnv}
    {d₁ d₂ d' : Delayed.State Server Invocation}
    (hf : Machine.Each (advance g f) (fun s _ _ => f.Documented s.service.tasks) s
      (Delayed.acts (as ++ .act (.call svc (.call id k.call) env) :: bs)))
    (horderly : Machine.Each (advance g f) (fun s a _ => s.Orderly f a) s
      (Delayed.acts (as ++ .act (.call svc (.call id k.call) env) :: bs)))
    (hrun : Machine.run (program g f).next (.idle s) as = some d₁)
    (hrow : d₁.base.service.tasks id ≠ none)
    (hok : (svc.call g d₁.base.service (.call id k.call) env).1 = none)
    (hstep : (program g f).next d₁ (.act (.call svc (.call id k.call) env)) = some d₂)
    (hrun' : Machine.run (program g f).next d₂ bs = some d')
    (hbs : ∀ b, .act b ∈ bs → ¬ b.Lifts id k) : callsAndDue d' id ≤ callsAndDue d₂ id := by
  rw [Delayed.acts_append] at hf horderly
  have hs₂ := Delayed.step_of_next hstep
  have hsettled := admitted_of_halted hg h hf horderly (Delayed.run_acts hrun) hrow hok hs₂
    (Delayed.run_acts hrun') (fun b hb => hbs b (Delayed.act_mem_of_mem_acts hb))
  -- the call itself lets nothing through
  have hcall : d₂.base.calls id = d₁.base.calls id := by
    rw [← Option.some.inj hs₂]
    rfl
  exact Delayed.count_of_settled (fun _ _ _ hstep => calls_of_advance hstep id) hrun'
    (hsettled.trans hcall.symm)

/-! ## A deployment -/

/-- Only rows with these keys are called. -/
def CallsIn (keys : List String) : DeploymentAction → Prop
  | .call svc op env => idOf svc op env ∈ keys
  | _ => True

/-- A table in memory is as documented throughout, if its keys are known. -/
theorem documented_of_orderly (hg : g.Documented) {keys : List String} (hkeys : keys.Nodup)
    (h : s.Booted) (hs : ∀ id, s.service.tasks id ≠ none → id ∈ keys)
    {as : List DeploymentAction} (has : ∀ a ∈ as, CallsIn keys a)
    (horderly : Machine.Each (advance g (tableFind keys))
      (fun s a _ => s.Orderly (tableFind keys) a) s as) :
    Machine.Each (advance g (tableFind keys))
      (fun s _ _ => (tableFind keys).Documented s.service.tasks) s as := by
  have hstep : ∀ (s : Server) (a : DeploymentAction) (s' : Server),
      (s.InOrder ∧ ∀ id, s.service.tasks id ≠ none → id ∈ keys) →
      (s.Orderly (tableFind keys) a ∧ CallsIn keys a) → s.advance g (tableFind keys) a = some s' →
      (s'.InOrder ∧ ∀ id, s'.service.tasks id ≠ none → id ∈ keys)
        ∧ (tableFind keys).Documented s.service.tasks := by
    rintro s a s' ⟨h, hall⟩ ⟨horderly, ha⟩ hstep
    have hf := documented_tableFind hkeys (h.elim (fun _ h => h.keyed)) hall
    refine ⟨⟨(h.of_advance hg hf horderly hstep).1, fun id hid => ?_⟩, hf⟩
    by_contra hkey
    rw [frame_of_advance hg h horderly hstep (fun svc op env ha' heq => ?_)] at hid
    · exact hkey (hall id hid)
    · subst ha'
      exact hkey (heq ▸ ha)
  exact Machine.Each.of_invariant hstep ⟨⟨_, h.governed⟩, hs⟩
    (horderly.and (Machine.each_of_forall has))

/-- This is a server that has just come up. -/
theorem booted_freshServer : freshServer.Booted :=
  ⟨TaskTable.keyed_empty, fresh_freshServer.service.started, fresh_freshServer.activity⟩

/-- A tick of the second wheel that executes one task. -/
def ranAt (t : ℕ) : List (Delayed.Move DeploymentAction) :=
  [.act (.background .normal (.tick (Time.ofMilli t))), .act (.background .normal (.start 0)),
    .carryOut 0, .act (.background .normal (.finish 0 .zero)),
    .act (.background .normal (.complete 0))]

/-- The server starts again, and is repaired. -/
def startedAgain : List (Delayed.Move DeploymentAction) :=
  [.act (.restart (fun _ => Time.ofMilli 0) (fun _ => Time.ofMilli 0)
      ⟨(calmEnv 0).get, fun _ => newNodeEnv⟩), .act (.repair calmRepairEnv)]

/-- A task is created, and executed; the server starts again, and an execution of the
task is let through. -/
def ranTwice : List (Delayed.Move DeploymentAction) :=
  [.act (.call .atomicTaskService (.create (onceRequest "a")) (calmEnv 0))] ++ ranAt 100
    ++ startedAgain ++ [.act (.background .normal (.tick (Time.ofMilli 100))),
      .act (.background .normal (.start 0))]

/-- Then the task is deleted. -/
def deleteA : DeploymentAction := .call .taskService (.call "a" .delete) (calmEnv 1)

/-- The function is called all the same; the server starts again, and the wheel
ticks. -/
def afterDeletion : List (Delayed.Move DeploymentAction) :=
  [.carryOut 0] ++ startedAgain ++ [.act (.background .normal (.tick (Time.ofMilli 100)))]

/-- The run keeps to what is asked of it: no execution loses its node, and
repairs come when nothing is under way. -/
theorem orderly_ranTwice : Machine.Each (advance tableGorm (tableFind ["a"]))
    (fun s a _ => s.Orderly (tableFind ["a"]) a) freshServer
    (Delayed.acts (ranTwice ++ .act deleteA :: afterDeletion)) := by decide +kernel

/-- The database answers as it is documented throughout, since only one ID is
used. -/
theorem documented_ranTwice : Machine.Each (advance tableGorm (tableFind ["a"]))
    (fun s _ _ => (tableFind ["a"]).Documented s.service.tasks) freshServer
    (Delayed.acts (ranTwice ++ .act deleteA :: afterDeletion)) := by
  refine documented_of_orderly documented_tableGorm (List.nodup_singleton "a") booted_freshServer
    (fun id hid => absurd rfl hid) ?_ orderly_ranTwice
  simp [ranTwice, ranAt, startedAgain, deleteA, afterDeletion, Delayed.acts, CallsIn, idOf,
    Service.requestOf, AtomicTaskService.requestOf, onceRequest, everySecondRequest]

/-- The wheels match the table after every step, and nothing is let through but
what the table asks for. -/
theorem admitted_of_ranTwice : Machine.Each (advance tableGorm (tableFind ["a"]))
    (fun s _ s' => s'.MatchesTable ∧ ∀ id, s'.calls id ≠ s.calls id → s.AsksFor id) freshServer
    (Delayed.acts (ranTwice ++ .act deleteA :: afterDeletion)) :=
  admitted_of_run documented_tableGorm booted_freshServer documented_ranTwice orderly_ranTwice

/-- One call before the deletion, and the one that was due after it. -/
theorem notCalled_of_deleteA : ∃ d₁ d₂ d',
    Machine.run (program tableGorm (tableFind ["a"])).next (.idle freshServer) ranTwice = some d₁
      ∧ (program tableGorm (tableFind ["a"])).next d₁ (.act deleteA) = some d₂
      ∧ Machine.run (program tableGorm (tableFind ["a"])).next d₂ afterDeletion = some d'
      ∧ d₂.done.length = 1 ∧ d'.done.length = 2 ∧ callsAndDue d' "a" ≤ callsAndDue d₂ "a" := by
  have hrun : (Machine.run (program tableGorm (tableFind ["a"])).next (.idle freshServer)
      ranTwice).bind (fun d₁ =>
        ((program tableGorm (tableFind ["a"])).next d₁ (.act deleteA)).bind (fun d₂ =>
          (Machine.run (program tableGorm (tableFind ["a"])).next d₂ afterDeletion).map (fun d' =>
            ((d₁.base.service.tasks "a").isSome, (Service.taskService.call tableGorm
              d₁.base.service (.call "a" .delete) (calmEnv 1)).1.isNone, d₂.done.length,
              d'.done.length)))) = some (true, true, 1, 2) := by decide +kernel
  obtain ⟨d₁, hd₁, hrun⟩ := Option.bind_eq_some_iff.mp hrun
  obtain ⟨d₂, hd₂, hrun⟩ := Option.bind_eq_some_iff.mp hrun
  obtain ⟨d', hd', heq⟩ := Option.map_eq_some_iff.mp hrun
  simp only [Prod.mk.injEq] at heq
  obtain ⟨hrow, hok, hbefore, hafter⟩ := heq
  refine ⟨d₁, d₂, d', hd₁, hd₂, hd', hbefore, hafter, ?_⟩
  refine @notCalled_of_halted tableGorm (tableFind ["a"]) freshServer "a" .delete
    documented_tableGorm booted_freshServer ranTwice afterDeletion .taskService (calmEnv 1) d₁ d₂
    d' documented_ranTwice orderly_ranTwice hd₁ (Option.isSome_iff_ne_none.mp hrow)
    (Option.isNone_iff_eq_none.mp hok) hd₂ hd' ?_
  simp [afterDeletion, startedAgain, DeploymentAction.Lifts]

end Server

end Timewheel
