import Timewheel.Rollback

/-!
# A new task on an old node

A node goes back to the pool at four places – `RemoveTask`, `ClearAllTasks`,
the internal `removeTask` and an `AddTask` that finds its ID taken – and each
clears a different part of it. It comes out at one place, and `AddTask`
overwrites what those places have left: everything but the paused flag.

So the node of a task that has just been added is a function of the task and
the time (`TaskSlot.StartsFresh`) exactly when the node the pool hands out was
not released while paused. This holds of every call of `AddTask`, those that
`UpdateTask` makes included, in whatever state the wheel is.
-/

namespace Timewheel

open TimeWheel Scheduler

variable {cfg : Config} {w : TimeWheel} {t t' : Task}

/-! ## What is expected of the node -/

/-- **The node of a task that was added at `now`.** The links are not mentioned,
as they depend on the neighbours. -/
structure TaskSlot.StartsFresh (cfg : Config) (node : TaskSlot) (t : Task) (now : Time) :
    Prop where
  task : node.task = some t
  slotIndex : node.slotIndex = slotIndexFor cfg.interval cfg.slotNum now t.interval
  addedAt : node.addedAt = now
  runAt : node.runAt = now.add t.interval
  executed : node.executed = 0
  alertState : node.alertState = .pending
  pendingSince : node.pendingSince = Time.zero
  lastFiredAt : node.lastFiredAt = Time.zero
  lastResult : node.lastResult = AlarmResult.zero
  paused : node.paused = false

/-- The node registered under the ID of the task is as expected. -/
def RegisteredFresh (cfg : Config) (w : TimeWheel) (task : Task) (now : Time) : Prop :=
  ∃ n, w.lookup cfg task.id = some n ∧ (w.heap n).StartsFresh cfg task now

/-- Whatever the node was, `initNode` leaves it as expected up to the flag. It
is the one field that the code forgets. -/
theorem startsFresh_initNode (cfg : Config) (node : TaskSlot) (task : Task) (c : CtxRef)
    (now : Time) :
    (initNode node task c (slotIndexFor cfg.interval cfg.slotNum now task.interval)
      now).StartsFresh cfg task now ↔ node.paused = false :=
  ⟨fun h => h.paused, fun h => ⟨rfl, rfl, rfl, rfl, rfl, rfl, rfl, rfl, rfl, h⟩⟩

/-- The pointers of the list do not matter. -/
theorem TaskSlot.startsFresh_payload {node : TaskSlot} {now : Time} :
    node.payload.StartsFresh cfg t now ↔ node.StartsFresh cfg t now :=
  ⟨fun h => ⟨h.1, h.2, h.3, h.4, h.5, h.6, h.7, h.8, h.9, h.10⟩,
    fun h => ⟨h.1, h.2, h.3, h.4, h.5, h.6, h.7, h.8, h.9, h.10⟩⟩

/-! ## One call of AddTask -/

/-- When `AddTask` succeeds. Together with the next lemma this is the success of
a call in terms of the state before. -/
theorem addTask_eq_none {env : AddEnv} (h : (w.addTask cfg (some t) env).1 = none) :
    ∃ t', checkTask t = .ok t' ∧ w.running = true ∧ w.lookup cfg t'.id = none := by
  unfold addTask at h
  dsimp only at h
  cases hcheck : checkTask t with
  | error err =>
    rw [hcheck] at h
    cases h
  | ok t' =>
    rw [hcheck] at h
    dsimp only at h
    cases hrun : w.running with
    | false =>
      rw [if_pos hrun] at h
      cases h
    | true =>
      rw [hrun, if_neg (by exact Bool.noConfusion)] at h
      refine ⟨t', rfl, rfl, ?_⟩
      have hshards := (prepareNode_heap cfg w t' env).2.1
      generalize w.prepareNode cfg t' env = g at h hshards
      obtain ⟨n, w₁⟩ := g
      dsimp only at h hshards
      cases hid : w₁.lookup cfg t'.id with
      | none => exact (lookup_congr hshards t'.id).symm.trans hid
      | some m =>
        rw [hid] at h
        cases h

/-- A call that meets these conditions succeeds. -/
theorem addTask_eq_none_iff {env : AddEnv} :
    (w.addTask cfg (some t) env).1 = none
      ↔ rejects t = false ∧ w.running = true ∧ w.lookup cfg t.id = none := by
  constructor
  · intro h
    obtain ⟨t', hcheck, hrun, hnew⟩ := addTask_eq_none h
    refine ⟨?_, hrun, (checkTask_ok hcheck).2.2.id_eq ▸ hnew⟩
    unfold rejects
    rw [hcheck]
  · rintro ⟨hpass, hrun, hnew⟩
    unfold rejects at hpass
    cases hcheck : checkTask t with
    | error err =>
      rw [hcheck] at hpass
      cases hpass
    | ok t' =>
      rw [← (checkTask_ok hcheck).2.2.id_eq] at hnew
      obtain ⟨w', hadd, -⟩ := addTask_payload hcheck hrun hnew env
      rw [hadd]

/-- **A task starts afresh exactly if the pool hands out a node that is not
paused.** The equivalence is about one call, in any state. -/
theorem addTask_fresh_iff {env : AddEnv} (h : (w.addTask cfg (some t) env).1 = none)
    (hcheck : checkTask t = .ok t') :
    RegisteredFresh cfg (w.addTask cfg (some t) env).2 t' env.now
      ↔ w.handsOutPaused env.node = false := by
  obtain ⟨s, hcheck', hrun, hnew⟩ := addTask_eq_none h
  obtain rfl := Except.ok.inj (hcheck.symm.trans hcheck')
  obtain ⟨w', hadd, hlookup, hself, -⟩ := addTask_payload hcheck hrun hnew env
  have hfound : w'.lookup cfg t'.id = some (w.poolGet env.node).1 :=
    (hlookup t'.id).trans (if_pos rfl)
  rw [hadd, ← (poolGet_records w env.node).2.1, ← startsFresh_initNode cfg _ t', ← hself,
    TaskSlot.startsFresh_payload]
  constructor
  · rintro ⟨n, hn, hfresh⟩
    obtain rfl := Option.some.inj (hn.symm.trans hfound)
    exact hfresh
  · exact fun hfresh => ⟨_, hfound, hfresh⟩

/-! ## The calls of a step -/

/-- A call of `AddTask`: the wheel it finds, its task, and what it leaves open.
It is enough to know these to judge the call. -/
structure AddCall where
  wheel : TimeWheel
  task : Task
  env : AddEnv

/-- The result of the call. -/
def AddCall.run (cfg : Config) (c : AddCall) : Option Err × TimeWheel :=
  c.wheel.addTask cfg (some c.task) c.env

/-- The calls of `AddTask` that `UpdateTask` makes: for the new task, and for
the old one when the new one is refused. There are none, one or two. -/
def updateCalls (cfg : Config) (w : TimeWheel) (task : Task) (env : UpdateEnv) : List AddCall :=
  if task.id = "" ∨ task.run = none ∨ w.running = false then []
  else
    match w.lookup cfg task.id with
    | none => []
    | some n =>
      let add : AddCall := ⟨(w.removeTask cfg task.id env.deleteOk).2, task, env.add⟩
      match add.run cfg with
      | (none, _) => [add]
      | (some _, w₁) =>
        match (w.heap n).task with
        | none => [add]
        | some old => [add, ⟨w₁, old, env.rollback⟩]

/-- The calls of `AddTask` in a step. -/
def addCalls (cfg : Config) (w : TimeWheel) : Action → List AddCall
  | .addTask (some task) env => [⟨w, task, env⟩]
  | .updateTask (some task) env => updateCalls cfg w task env
  | _ => []

/-- **These are the calls**: what `UpdateTask` leaves is what the last of them
leaves. So judging these calls is judging the step. -/
theorem updateTask_updateCalls (cfg : Config) (w : TimeWheel) (task : Task) (env : UpdateEnv) :
    (w.updateTask cfg (some task) env).2
      = (updateCalls cfg w task env).getLast?.elim w (fun c => (c.run cfg).2) := by
  unfold updateTask updateCalls
  dsimp only
  by_cases hid : task.id = ""
  · rw [if_pos hid, if_pos (Or.inl hid)]
    rfl
  by_cases hrun : task.run = none
  · rw [if_neg hid, if_pos hrun, if_pos (Or.inr (Or.inl hrun))]
    rfl
  by_cases hw : w.running = false
  · rw [if_neg hid, if_neg hrun, if_pos hw, if_pos (Or.inr (Or.inr hw))]
    rfl
  rw [if_neg hid, if_neg hrun, if_neg hw, if_neg (by simp [hid, hrun, hw])]
  cases hn : w.lookup cfg task.id with
  | none => rfl
  | some n =>
    obtain ⟨w₁, hremove, -⟩ := removeTask_records hid hn env.deleteOk
    dsimp only
    rw [hremove]
    unfold AddCall.run
    dsimp only
    cases hadd : w₁.addTask cfg (some task) env.add with
    | mk err w₂ =>
      cases err with
      | none => exact (congrArg Prod.snd hadd).symm
      | some err =>
        cases (w.heap n).task with
        | none => exact (congrArg Prod.snd hadd).symm
        | some old =>
          dsimp only
          cases hback : w₂.addTask cfg (some old) env.rollback with
          | mk err' w₃ =>
            have hlast : w₃ = (w₂.addTask cfg (some old) env.rollback).2 :=
              (congrArg Prod.snd hback).symm
            cases err' with
            | none => exact hlast
            | some _ => exact hlast

/-! ## Histories -/

/-- The call succeeds: the task passes the checks, the wheel is running, and
the ID is free. -/
def AddCall.Succeeds (cfg : Config) (c : AddCall) : Prop :=
  rejects c.task = false ∧ c.wheel.running = true ∧ c.wheel.lookup cfg c.task.id = none

instance (c : AddCall) : Decidable (c.Succeeds cfg) := inferInstanceAs (Decidable (_ ∧ _))

/-- Every task a step adds starts afresh. -/
def AddsFresh (cfg : Config) (s : Scheduler) (a : Action) (_ : Scheduler) : Prop :=
  ∀ c ∈ addCalls cfg s.wheel a, ∀ t, checkTask c.task = .ok t → (c.run cfg).1 = none →
    RegisteredFresh cfg (c.run cfg).2 t c.env.now

/-- **The condition**: no task that a step adds is given a node of the pool that
was released while paused. A call that does not succeed registers nothing. -/
def DrawsUnpaused (cfg : Config) (s : Scheduler) (a : Action) (_ : Scheduler) : Prop :=
  ∀ c ∈ addCalls cfg s.wheel a, c.Succeeds cfg → c.wheel.handsOutPaused c.env.node = false

/-- The two conditions agree call by call. -/
theorem addsFresh_iff_drawsUnpaused (s : Scheduler) (a : Action) (s' : Scheduler) :
    AddsFresh cfg s a s' ↔ DrawsUnpaused cfg s a s' := by
  constructor
  · intro h c hc hsucceeds
    have hnone : (c.run cfg).1 = none := addTask_eq_none_iff.mpr hsucceeds
    obtain ⟨t, hcheck, -⟩ := addTask_eq_none hnone
    exact (addTask_fresh_iff hnone hcheck).mp (h c hc t hcheck hnone)
  · intro h c hc t hcheck hnone
    exact (addTask_fresh_iff hnone hcheck).mpr (h c hc (addTask_eq_none_iff.mp hnone))

/-- **Along a history every added task starts afresh exactly if none is given
a node that was released while paused.** The history is any sequence of calls,
with ticks and executions in between, from any state. -/
theorem startsFresh_iff (cfg : Config) (s : Scheduler) (as : List Action) :
    Machine.Each (step cfg) (AddsFresh cfg) s as
      ↔ Machine.Each (step cfg) (DrawsUnpaused cfg) s as :=
  ⟨fun h => h.imp (fun s a s' => (addsFresh_iff_drawsUnpaused s a s').mp),
    fun h => h.imp (fun s a s' => (addsFresh_iff_drawsUnpaused s a s').mpr)⟩

/-- A task is paused and removed, and the next one is given its node. -/
theorem not_startsFresh_of_pausedNode :
    ¬ ∀ as, Machine.Each (step fourSlots) (AddsFresh fourSlots) (ofWheel fourSlotWheel) as := by
  intro h
  have hrun : (Machine.run (step fourSlots) (ofWheel fourSlotWheel)
      [.addTask (some (Task.plain "a" .repeated (Duration.ofMilli 10))) newNodeEnv,
        .pauseTask "a", .removeTask "a" true]).map (fun s =>
      (decide (AddCall.Succeeds fourSlots
          ⟨s.wheel, Task.plain "b" .repeated (Duration.ofMilli 10),
            { newNodeEnv with node := some 0 }⟩),
        s.wheel.handsOutPaused (some 0)))
      = some (true, true) := by
    decide +kernel
  obtain ⟨s, hs, hafter⟩ := Option.map_eq_some_iff.mp hrun
  obtain ⟨hsucceeds, hpaused⟩ := Prod.mk.inj hafter
  have hlast := (Machine.each_append.mp (h (_ ++
    [.addTask (some (Task.plain "b" .repeated (Duration.ofMilli 10)))
      { newNodeEnv with node := some 0 }]))).2 s hs
  have hfresh := (addsFresh_iff_drawsUnpaused _ _ _).mp (hlast _ rfl).1
  have hunpaused := hfresh _ List.mem_cons_self (of_decide_eq_true hsucceeds)
  exact Bool.noConfusion (hpaused.symm.trans hunpaused)

end Timewheel
