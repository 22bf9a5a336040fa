import Timewheel.Refinement

/-!
# What is observed of a wheel

The executions of a wheel are the jobs of its table: an execution holds a node,
a job the registration the node was in use for. As long as no call hands out a
node that an execution holds, and completions take nodes out of their own lists
(`Careful`), a job finds its timer exactly when the node of its execution still
carries the task (`Follows.find`), and each step of the wheel is a step of the
timetable with the same request and the same answer
(`represents_of_step`).

The three parts of the relation say of the wheel what the table shows: the
timers (`Reflects`), the jobs (`Follows`, side by side with the executions),
and the calls and panics, which are the same lists. A step keeps the first by
the lemmas about the calls and the locked section, and the second because
registrations do not come back. What is new here is the tick: the nodes it
collects are the timers that are due in its slot, in the order of their
priorities.
-/

namespace Timewheel

open DList TimeWheel Scheduler Simulation

variable {cfg : Config} {s s' : Scheduler} {w w' : TimeWheel}
  {lists lists' : ℕ → List NodeRef} {n : NodeRef} {i : ℕ} {c : CtxRef} {t : Task}
  {tt tt' : Timetable} {e : Execution} {job : TimerJob}

/-! ## Requests and answers -/

/-- What is asked of the wheel, without what it leaves open. Left open are the
node a pool hands out, the order of a Go map, and whether the store does what it
is asked. -/
def Action.request : Action → Request
  | .addTask task env => .addTask task env.now
  | .removeTask taskID _ => .removeTask taskID
  | .updateTask task env => .updateTask task env.add.now env.rollback.now
  | .pauseTask taskID => .pauseTask taskID
  | .resumeTask taskID now => .resumeTask taskID now
  | .clearAllTasks _ _ => .clearAllTasks
  | .tick now => .tick now
  | .reject i => .reject i
  | .start i => .start i
  | .finish i result => .finish i result
  | .panic i => .panic i
  | .complete i => .complete i

/-- What the calls return. Ticks and executions answer nobody. -/
def Scheduler.response (cfg : Config) (s : Scheduler) : Action → Response
  | .addTask task env => .returned (s.wheel.addTask cfg task env).1
  | .removeTask taskID deleteOk => .returned (s.wheel.removeTask cfg taskID deleteOk).1
  | .updateTask task env => .returned (s.wheel.updateTask cfg task env).1
  | .pauseTask taskID => .returned (s.wheel.pauseTask cfg taskID).1
  | .resumeTask taskID now => .returned (s.wheel.resumeTask cfg taskID now).1
  | .clearAllTasks order now => .cleared (s.wheel.clearAllTasks cfg order now).1
  | _ => .silent

/-- What is observed of a step. The answer depends on the state before the step. -/
def observed (cfg : Config) (s : Scheduler) (a : Action) : Request × Response :=
  (a.request, s.response cfg a)

/-! ## Executions and jobs -/

/-- The stage of a job. A job does not need the snapshot an execution takes of
its task: it is that of its registration. -/
def Stage.jobStage : Stage → JobStage
  | .collected => .collected
  | .running _ => .running
  | .finished _ result => .finished result

/-- **The job of an execution**: its registration is one that only its node has
served, under its ID. The last field is what makes a job safe: the number of its
registration never belongs to another node or another ID. -/
structure Follows (cfg : Config) (w : TimeWheel) (lists : ℕ → List NodeRef) (e : Execution)
    (job : TimerJob) : Prop where
  registration : e.registration = some job.registration
  now : e.now = job.now
  stage : e.stage.jobStage = job.stage
  old : job.registration < w.nextCtx
  only : ∀ m i t, Used cfg w lists m i job.registration t → m = e.node ∧ t.id = job.id

/-- Registrations that do not come back are not mistaken. They were old before
the step, and so they belong to what they belonged to. -/
theorem Follows.advances (h : Follows cfg w lists e job) (hadv : Advances cfg w w' lists lists') :
    Follows cfg w' lists' e job where
  registration := h.registration
  now := h.now
  stage := h.stage
  old := lt_of_lt_of_le h.old hadv.nextCtx
  only := fun m i t hu => by
    obtain ⟨j, hu'⟩ := hadv.back m i job.registration t hu h.old
    exact h.only m j t hu'

/-- An execution that moves on, and its job with it. Nothing else of it changes. -/
theorem Follows.setStage (h : Follows cfg w lists e job) (stage : Stage) :
    Follows cfg w lists { e with stage := stage } { job with stage := stage.jobStage } :=
  ⟨h.registration, h.now, rfl, h.old, h.only⟩

/-- A job looks under its ID, and compares the registration. -/
theorem find_eq_some_iff {x : Timer} :
    tt.find job = some x ↔ tt.timers job.id = some x ∧ x.registration = job.registration := by
  unfold Timetable.find
  rw [Option.filter_eq_some_iff, decide_eq_true_iff]

/-- **What a job finds**: the timer of the node of its execution, as long as the
node is in use, and nothing when it is released. The execution looks at its
node, the job at the table, and both see the same. The second case is that of a
task that has been removed, or removed and added again. -/
theorem Follows.find (h : Follows cfg w lists e job) (hmirrors : Reflects cfg w lists tt)
    (htracked : Tracked cfg w lists e) :
    (∃ i t, Used cfg w lists e.node i job.registration t ∧ e.stage.InfoOf t ∧ job.id = t.id
        ∧ tt.find job = some ((w.heap e.node).asTimer job.registration t))
      ∨ Released w lists e.node ∧ tt.find job = none := by
  rcases htracked.status with ⟨i, c, t, hr, hu, hinfo⟩ | hr
  · obtain rfl := Option.some.inj (h.registration.symm.trans hr)
    have hid := (h.only e.node i t hu).2
    refine Or.inl ⟨i, t, hu, hinfo, hid.symm, find_eq_some_iff.mpr ⟨?_, rfl⟩⟩
    rw [hmirrors.timers, ← hid]
    exact hu.timer_eq
  · refine Or.inr ⟨hr, Option.eq_none_iff_forall_ne_some.mpr (fun x hx => ?_)⟩
    obtain ⟨hx, hreg⟩ := find_eq_some_iff.mp hx
    obtain ⟨m, i, hu, -, -⟩ := hmirrors.used hx
    rw [hreg] at hu
    obtain ⟨rfl, -⟩ := h.only m i x.task hu
    exact hr.toFree.not_used hu

/-- The table stands for the wheel with its executions. `tracked` says of each
execution that its node is still that of its registration or has been released,
which is what careful calls see to. -/
structure Represents (cfg : Config) (s : Scheduler) (lists : ℕ → List NodeRef) (tt : Timetable) :
    Prop where
  tracked : ∀ e ∈ s.execs, Tracked cfg s.wheel lists e
  mirrors : Reflects cfg s.wheel lists tt
  jobs : List.Forall₂ (Follows cfg s.wheel lists) s.execs tt.jobs
  calls : s.invoked = tt.calls.map (fun call => ⟨some call.1, call.1, call.2⟩)
  panicked : s.panicked = tt.panicked

/-- So the wheel and its executions are in order. -/
theorem Represents.sound (h : Represents cfg s lists tt) : Sound cfg s lists :=
  ⟨h.mirrors.inv, h.tracked⟩

/-! ### Lists side by side -/

section Lists

variable {α β : Type*} {R : α → β → Prop} {xs : List α} {ys : List β} {x : α} {y : β}

/-- What stands at a place on one side has a partner on the other, -/
theorem forall₂_getElem? (h : List.Forall₂ R xs ys) {i : ℕ} (hx : xs[i]? = some x) :
    ∃ y, ys[i]? = some y ∧ R x y := by
  induction h generalizing i with
  | nil => exact absurd hx (by simp)
  | @cons a b as bs hab htail ih =>
    cases i with
    | zero =>
      obtain rfl : a = x := by simpa using hx
      exact ⟨b, rfl, hab⟩
    | succ i => exact ih (by simpa using hx)

/-- partners are dropped together, -/
theorem forall₂_eraseIdx (h : List.Forall₂ R xs ys) (i : ℕ) :
    List.Forall₂ R (xs.eraseIdx i) (ys.eraseIdx i) := by
  induction h generalizing i with
  | nil => exact .nil
  | cons hab htail ih =>
    cases i with
    | zero => exact htail
    | succ i => exact .cons hab (ih i)

/-- and replaced together. -/
theorem forall₂_set (h : List.Forall₂ R xs ys) (i : ℕ) (hxy : R x y) :
    List.Forall₂ R (xs.set i x) (ys.set i y) := by
  induction h generalizing i with
  | nil => exact .nil
  | cons hab htail ih =>
    cases i with
    | zero => exact .cons hxy htail
    | succ i => exact .cons hab (ih i)

end Lists

/-! ## The tick -/

/-- The place of a node among the nodes of a tick: nodes without a task come
last. This is the order `sort.Slice` is given, as a number. -/
def TimeWheel.rank (w : TimeWheel) (n : NodeRef) : WithTop ℤ :=
  (w.heap n).task.elim ⊤ (fun task => (task.priority : WithTop ℤ))

/-- The comparison of the code is the one of these numbers. -/
theorem runsBefore_eq_false_iff (a b : NodeRef) :
    w.runsBefore b a = false ↔ w.rank a ≤ w.rank b := by
  unfold runsBefore rank
  cases ha : (w.heap a).task with
  | none =>
    cases hb : (w.heap b).task with
    | none => simp
    | some t => simp
  | some s =>
    cases hb : (w.heap b).task with
    | none => simp
    | some t => simp

/-- The nodes a tick collects are in the order of their priorities. The sort is
stable, so nodes of one priority stay in the order of their slot. -/
theorem tick_sorted (cfg : Config) (w : TimeWheel) (now : Time) :
    (w.tick cfg now).2.1.Pairwise (fun a b => w.rank a ≤ w.rank b) := by
  have htotal : Std.Total (fun a b => w.runsBefore b a = false) := ⟨fun a b => by
    rw [runsBefore_eq_false_iff, runsBefore_eq_false_iff]
    exact le_total _ _⟩
  have htrans : IsTrans NodeRef (fun a b => w.runsBefore b a = false) := ⟨fun a b c hab hbc => by
    rw [runsBefore_eq_false_iff] at hab hbc ⊢
    exact hab.trans hbc⟩
  refine (List.pairwise_insertionSort (fun a b => w.runsBefore b a = false) _).imp ?_
  exact fun h => (runsBefore_eq_false_iff _ _).mp h

/-- The nodes a tick collects: those of its slot that are due. Paused nodes are
among them. -/
theorem mem_tick (h : Inv cfg w lists) (now : Time) :
    n ∈ (w.tick cfg now).2.1
      ↔ n ∈ lists (tickSlot cfg.slotNum w.currentSlot) ∧ (w.heap n).runAt ≤ now := by
  unfold tick
  dsimp only
  rw [List.mem_insertionSort, List.mem_filter, h.slotNodes_eq, isDue_iff]

/-- A node is in its slot once, so it is collected once. -/
theorem nodup_tick (h : Inv cfg w lists) (now : Time) : (w.tick cfg now).2.1.Nodup := by
  unfold tick
  dsimp only
  rw [(List.perm_insertionSort _ _).nodup_iff, h.slotNodes_eq]
  exact (h.family.chain _).nodup.filter _

/-- The timer of a node in use; of the others nothing is asked. It only serves
to name the timers of a list of nodes. -/
def TimeWheel.timerAt (w : TimeWheel) (n : NodeRef) : Timer :=
  (w.heap n).timer.getD ((w.heap n).asTimer 0 (Task.plain "" .once 0))

/-- The nodes of a slot are in use, and so they are their timers. -/
theorem Used.timerAt_eq (hu : Used cfg w lists n i c t) :
    w.timerAt n = (w.heap n).asTimer c t := by
  unfold timerAt
  rw [hu.timer_heap]
  rfl

/-- **The timers a tick picks** are those of the nodes it collects. The table
asks for the timers of the slot that are due, each once, in the order of their
priorities; which of two timers of one priority comes first it leaves open. -/
theorem Reflects.picked (h : Reflects cfg w lists tt) (now : Time) :
    tt.Picked cfg now ((w.tick cfg now).2.1.map w.timerAt) := by
  have hused : ∀ n ∈ (w.tick cfg now).2.1, ∃ c t,
      Used cfg w lists n (tickSlot cfg.slotNum w.currentSlot) c t
        ∧ w.timerAt n = (w.heap n).asTimer c t ∧ (w.heap n).runAt ≤ now := by
    intro n hn
    obtain ⟨hmem, hdue⟩ := (mem_tick h.inv now).mp hn
    obtain ⟨c, t, hu⟩ := h.inv.used_of_mem hmem
    exact ⟨c, t, hu, hu.timerAt_eq, hdue⟩
  -- each once; exactly those of the slot that are due; and by priority
  refine ⟨?_, fun x => ?_, ?_⟩
  · rw [List.map_map]
    refine List.Nodup.map_on (fun a ha b hb heq => ?_) (nodup_tick h.inv now)
    obtain ⟨c, t, hua, hta, -⟩ := hused a ha
    obtain ⟨d, u, hub, htb, -⟩ := hused b hb
    have hcd : (w.timerAt a).registration = (w.timerAt b).registration := heq
    rw [hta, htb] at hcd
    obtain rfl : c = d := hcd
    exact h.inv.ctx_inj hua hub
  · rw [List.mem_map, h.cursor]
    constructor
    · rintro ⟨n, hn, rfl⟩
      obtain ⟨c, t, hu, ht, hdue⟩ := hused n hn
      rw [ht]
      exact ⟨h.timers ▸ hu.timer_eq, hu.slotIndex_eq, hdue⟩
    · rintro ⟨hx, hslot, hdue⟩
      obtain ⟨n, i, hu, -, hself⟩ := h.used hx
      refine ⟨n, (mem_tick h.inv now).mpr ⟨?_, ?_⟩, hu.timerAt_eq.trans hself.symm⟩
      · rw [← hslot, hself]
        show n ∈ lists (w.heap n).slotIndex
        rw [hu.slotIndex_eq]
        exact hu.mem
      · rw [hself] at hdue
        exact hdue
  · refine List.pairwise_map.mpr ((tick_sorted cfg w now).imp_of_mem (fun ha hb hab => ?_))
    obtain ⟨c, t, hua, hta, -⟩ := hused _ ha
    obtain ⟨d, u, hub, htb, -⟩ := hused _ hb
    unfold rank at hab
    rw [hua.task_eq, hub.task_eq] at hab
    rw [hta, htb]
    exact WithTop.coe_le_coe.mp hab

/-- The executions a tick submits are the jobs of the timers it picks. Each
remembers the time of the tick. -/
theorem Reflects.follows_collect (h : Reflects cfg w lists tt) (now : Time) :
    List.Forall₂ (Follows cfg w lists) (collect cfg w now)
      (((w.tick cfg now).2.1.map w.timerAt).map
        (fun x => ⟨x.task.id, x.registration, now, .collected⟩)) := by
  unfold collect
  rw [List.map_map]
  refine List.forall₂_map_left_iff.mpr (List.forall₂_map_right_iff.mpr
    (List.forall₂_same.mpr (fun n hn => ?_)))
  obtain ⟨hmem, -⟩ := (mem_tick h.inv now).mp hn
  obtain ⟨c, t, hu⟩ := h.inv.used_of_mem hmem
  show Follows cfg w lists _ ⟨(w.timerAt n).task.id, (w.timerAt n).registration, now, _⟩
  rw [hu.timerAt_eq]
  refine ⟨hu.ctx_eq, rfl, rfl, hu.ctx_lt, fun m j s hs => ?_⟩
  obtain rfl := h.inv.ctx_inj hs hu
  exact ⟨rfl, congrArg Task.id (hs.unique hu).2.2⟩

/-! ## One step -/

/-- The table after a step, from its parts. The parts are shown one by one
below. -/
theorem represents_of_parts (hsound : ∃ l, Sound cfg s' l)
    (hmirrors : Reflects cfg s'.wheel lists' tt')
    (hjobs : List.Forall₂ (Follows cfg s'.wheel lists') s'.execs tt'.jobs)
    (hcalls : s'.invoked = tt'.calls.map (fun call => ⟨some call.1, call.1, call.2⟩))
    (hpanicked : s'.panicked = tt'.panicked) : Represents cfg s' lists' tt' := by
  obtain ⟨l, hl⟩ := hsound
  obtain rfl := hl.inv.lists_eq hmirrors.inv
  exact ⟨hl.tracked, hmirrors, hjobs, hcalls, hpanicked⟩

/-- Jobs stay with their executions. Whatever the step has done to the nodes. -/
theorem Represents.jobs_advance (h : Represents cfg s lists tt)
    (hadv : Advances cfg s.wheel w' lists lists') :
    List.Forall₂ (Follows cfg w' lists') s.execs tt.jobs :=
  h.jobs.imp (fun _ _ hf => hf.advances hadv)

/-- **A call.** The table takes the step of the same call with the same answer,
and its jobs and calls stay. This is put together from one lemma for each call. -/
theorem Represents.call (h : Represents cfg s lists tt) {a : Action} (hcall : a.isCall = true)
    (hstep : step cfg s a = some s') :
    ∃ lists' tt', Timetable.Next cfg tt (observed cfg s a) tt' ∧ Timetable.SameRun tt tt'
      ∧ Reflects cfg s'.wheel lists' tt' ∧ Advances cfg s.wheel s'.wheel lists lists' := by
  have hm := h.mirrors
  cases a with
  | addTask task env =>
    obtain rfl := Option.some.inj hstep
    obtain ⟨lists', tt', hadd, h', hadv⟩ := hm.addTask task env
    exact ⟨lists', tt', .addTask hadd, hadd.sameRun, h', hadv⟩
  | updateTask task env =>
    obtain rfl := Option.some.inj hstep
    obtain ⟨lists', tt', hupdate, h', hadv⟩ := hm.updateTask task env
    exact ⟨lists', tt', .updateTask hupdate, hupdate.sameRun, h', hadv⟩
  | removeTask id deleteOk =>
    obtain rfl := Option.some.inj hstep
    show ∃ lists' tt',
      Timetable.Next cfg tt (.removeTask id, .returned (s.wheel.removeTask cfg id deleteOk).1) tt'
      ∧ Timetable.SameRun tt tt' ∧ Reflects cfg (s.wheel.removeTask cfg id deleteOk).2 lists' tt'
      ∧ Advances cfg s.wheel (s.wheel.removeTask cfg id deleteOk).2 lists lists'
    cases hx : tt.timers id with
    | none =>
      -- no timer, so nothing is registered, and both answer that it is not found
      rw [hm.removeTask_missing hx deleteOk]
      exact ⟨lists, tt, .removeMissing hx, ⟨rfl, rfl, rfl⟩, hm, .refl _ _⟩
    | some x =>
      obtain ⟨hnone, lists', h', hadv⟩ := hm.removeTask hx deleteOk
      rw [hnone]
      exact ⟨lists', _, .removeTask hx, ⟨rfl, rfl, rfl⟩, h', hadv⟩
  | pauseTask id =>
    obtain rfl := Option.some.inj hstep
    show ∃ lists' tt',
      Timetable.Next cfg tt (.pauseTask id, .returned (s.wheel.pauseTask cfg id).1) tt'
      ∧ Timetable.SameRun tt tt' ∧ Reflects cfg (s.wheel.pauseTask cfg id).2 lists' tt'
      ∧ Advances cfg s.wheel (s.wheel.pauseTask cfg id).2 lists lists'
    cases hx : tt.timers id with
    | none =>
      rw [hm.pauseTask_missing hx]
      exact ⟨lists, tt, .pauseMissing hx, ⟨rfl, rfl, rfl⟩, hm, .refl _ _⟩
    | some x =>
      obtain ⟨hnone, h', hadv⟩ := hm.pauseTask hx
      rw [hnone]
      exact ⟨lists, _, .pauseTask hx, ⟨rfl, rfl, rfl⟩, h', hadv⟩
  | resumeTask id now =>
    obtain rfl := Option.some.inj hstep
    show ∃ lists' tt',
      Timetable.Next cfg tt (.resumeTask id now, .returned (s.wheel.resumeTask cfg id now).1) tt'
      ∧ Timetable.SameRun tt tt' ∧ Reflects cfg (s.wheel.resumeTask cfg id now).2 lists' tt'
      ∧ Advances cfg s.wheel (s.wheel.resumeTask cfg id now).2 lists lists'
    cases hx : tt.timers id with
    | none =>
      rw [hm.resumeTask_missing hx now]
      exact ⟨lists, tt, .resumeMissing hx, ⟨rfl, rfl, rfl⟩, hm, .refl _ _⟩
    | some x =>
      obtain ⟨hnone, h', hadv⟩ := hm.resumeTask hx now
      rw [hnone]
      exact ⟨lists, _, .resumeTask hx, ⟨rfl, rfl, rfl⟩, h', hadv⟩
  | clearAllTasks order now =>
    obtain rfl := Option.some.inj hstep
    obtain ⟨hcount, lists', h', hadv⟩ := hm.clearAllTasks order now
    have hnext : Timetable.Next cfg tt
        (.clearAllTasks, .cleared (s.wheel.clearAllTasks cfg order now).1) tt.clear := by
      rw [hcount]
      exact .clearAllTasks
    exact ⟨lists', _, hnext, ⟨rfl, rfl, rfl⟩, h', hadv⟩
  | _ => exact absurd hcall Bool.false_ne_true

/-- The end of an execution leaves the other jobs alone. -/
theorem Timetable.completed_run (tt : Timetable) (x : Timer) (result : AlarmResult) (now : Time) :
    Timetable.SameRun tt (tt.completed cfg x result now) := by
  unfold Timetable.completed
  dsimp only
  split_ifs
  · exact ⟨rfl, rfl, rfl⟩
  · exact ⟨rfl, rfl, rfl⟩

/-- The run of a table whose timers have not changed. The jobs, the calls and
the panics are no part of that relation. -/
theorem Reflects.run {w : TimeWheel} (h : Reflects cfg w lists tt) (jobs : List TimerJob)
    (calls : List (ℕ × Task)) (panicked : List ℕ) :
    Reflects cfg w lists { tt with jobs := jobs, calls := calls, panicked := panicked } :=
  h.retable rfl rfl rfl (fun hs => hs) rfl

/-- The start of an execution. The state of its node is checked, and then that
of its timer: if the node has been released or is paused, the job is dropped
with the execution; if there is nothing to call, an empty result is noted on
both sides; otherwise both are running, and the call is on both lists. -/
theorem Represents.start (h : Represents cfg s lists tt) (he : s.execs[i]? = some e)
    (hs : e.stage = .collected) (hsound : ∃ l, Sound cfg (s.start i e) l) :
    ∃ tt', Timetable.Next cfg tt (.start i, .silent) tt'
      ∧ Represents cfg (s.start i e) lists tt' := by
  obtain ⟨job, hjob, hf⟩ := forall₂_getElem? h.jobs he
  have hstage : job.stage = .collected := by rw [← hf.stage, hs]; rfl
  have herase := forall₂_eraseIdx h.jobs i
  unfold Scheduler.start at hsound ⊢
  rcases hf.find h.mirrors (h.tracked e (List.mem_of_getElem? he)) with
    ⟨k, t, hu, -, hid, hfind⟩ | ⟨hr, hfind⟩
  · cases hp : (s.wheel.heap e.node).paused with
    | true =>
      have hcheck : s.wheel.checkTaskState e.node = none := if_pos hp
      rw [hcheck] at hsound ⊢
      refine ⟨_, .skip hjob hstage (fun x hx => ?_), represents_of_parts hsound
        (h.mirrors.run _ tt.calls tt.panicked) herase h.calls h.panicked⟩
      obtain rfl := Option.some.inj (hfind.symm.trans hx)
      exact hp
    | false =>
      have hcheck : s.wheel.checkTaskState e.node = some t := by
        unfold TimeWheel.checkTaskState
        rw [if_neg (by rw [hp]; exact Bool.false_ne_true), hu.task_eq]
      have hrun := runTaskCheck_of_runnable h.mirrors.ctxs.runnable h.mirrors.running hu.lookup
        t.copyTaskInfo
      rw [hcheck] at hsound ⊢
      dsimp only at hsound ⊢
      rw [hrun] at hsound ⊢
      dsimp only at hsound ⊢
      refine ⟨_, .start hjob hstage hfind hp, represents_of_parts hsound
        (h.mirrors.run _ _ tt.panicked)
        (forall₂_set h.jobs i (hf.setStage (.running t.copyTaskInfo))) ?_ h.panicked⟩
      rw [hu.ctx_eq, hf.registration, h.calls, List.map_append]
      rfl
  -- the node has been released, and the timer is no longer the same one
  · have hcheck : s.wheel.checkTaskState e.node = none := by
      unfold TimeWheel.checkTaskState
      rw [hr.task, ite_self]
    rw [hcheck] at hsound ⊢
    refine ⟨_, .skip hjob hstage (fun x hx => ?_), represents_of_parts hsound
      (h.mirrors.run _ tt.calls tt.panicked) herase h.calls h.panicked⟩
    exact absurd (hfind.symm.trans hx) (Option.some_ne_none x).symm

/-- The return of the function of a task. The counter of the node goes up, and
that of the timer, if it is still the same one. -/
theorem Represents.finish (h : Represents cfg s lists tt) {info : TaskInfo}
    (he : s.execs[i]? = some e) (hs : e.stage = .running info) (result : AlarmResult)
    (hsound : ∃ l, Sound cfg (s.finish i e info result) l) :
    ∃ tt', Timetable.Next cfg tt (.finish i result, .silent) tt'
      ∧ Represents cfg (s.finish i e info result) lists tt' := by
  obtain ⟨job, hjob, hf⟩ := forall₂_getElem? h.jobs he
  have hstage : job.stage = .running := by rw [← hf.stage, hs]; rfl
  have htask : ((s.wheel.updateTaskResult e.node result none).heap e.node).task
      = (s.wheel.heap e.node).task := by
    rw [(updateTaskResult_core s.wheel e.node result none).heap, heap_setNode_self]
  unfold Scheduler.finish at hsound ⊢
  dsimp only at hsound ⊢
  rw [htask] at hsound ⊢
  rcases hf.find h.mirrors (h.tracked e (List.mem_of_getElem? he)) with
    ⟨k, t, hu, -, hid, hfind⟩ | ⟨hr, hfind⟩
  · obtain ⟨hm, hadv⟩ := h.mirrors.updateTaskResult hu result none
    rw [hu.task_eq, if_neg (Option.some_ne_none t)] at hsound ⊢
    rw [← hid] at hm
    exact ⟨_, .finish hjob hstage hfind, represents_of_parts hsound (hm.run _ tt.calls tt.panicked)
      (forall₂_set (h.jobs_advance hadv) i ((hf.advances hadv).setStage (.finished info result)))
      h.calls h.panicked⟩
  · obtain ⟨hm, hadv⟩ := h.mirrors.updateTaskResult_free hr.toFree result none
    rw [hr.task, if_pos rfl] at hsound ⊢
    exact ⟨_, .finishGone hjob hstage hfind, represents_of_parts hsound
      (hm.run _ tt.calls tt.panicked) (forall₂_eraseIdx (h.jobs_advance hadv) i) h.calls h.panicked⟩

/-- The end of an execution. If the node has been released there is nothing to
be done, for the job neither. -/
theorem Represents.complete (h : Represents cfg s lists tt) {info : TaskInfo}
    {result : AlarmResult} (he : s.execs[i]? = some e) (hs : e.stage = .finished info result)
    (hown : e.OnOwnList cfg s.wheel) (hsound : ∃ l, Sound cfg (s.complete cfg i e info result) l) :
    ∃ lists' tt', Timetable.Next cfg tt (.complete i, .silent) tt'
      ∧ Represents cfg (s.complete cfg i e info result) lists' tt' := by
  obtain ⟨job, hjob, hf⟩ := forall₂_getElem? h.jobs he
  have hstage : job.stage = .finished result := by rw [← hf.stage, hs]; rfl
  unfold Execution.OnOwnList at hown
  rw [hs] at hown
  unfold Scheduler.complete at hsound ⊢
  rcases hf.find h.mirrors (h.tracked e (List.mem_of_getElem? he)) with
    ⟨k, t, hu, hinfo, hid, hfind⟩ | ⟨hr, hfind⟩
  · rw [hs] at hinfo
    obtain rfl : info = t.copyTaskInfo := hinfo
    obtain ⟨lists', hm, hadv⟩ := h.mirrors.lockedSection hu result e.now hown
    have hrun := @Timetable.completed_run cfg tt
      ((s.wheel.heap e.node).asTimer job.registration t) result job.now
    rw [hf.now] at hm hadv hsound ⊢
    refine ⟨lists', _, .complete hjob hstage hfind, represents_of_parts hsound
      (hm.retable rfl rfl rfl (fun hs => hs) rfl) (forall₂_eraseIdx (h.jobs_advance hadv) i) ?_ ?_⟩
    · exact h.calls.trans (by rw [← hrun.calls])
    · exact h.panicked.trans hrun.panicked.symm
  · have hsame : s.wheel.lockedSection cfg e.node info result e.now e.currentSlot = s.wheel :=
      lockedSection_of_task_none hr.task info result e.now e.currentSlot
    rw [hsame] at hsound ⊢
    exact ⟨lists, _, .completeGone hjob hstage hfind, represents_of_parts hsound
      (h.mirrors.run _ tt.calls tt.panicked) (forall₂_eraseIdx h.jobs i) h.calls h.panicked⟩

/-- **Each step of the wheel is a step of the timetable**, as long as it is
careful. This is the simulation; the care is needed to keep executions and jobs
together when nodes are handed out again. -/
theorem represents_of_step {a : Action} (h : Represents cfg s lists tt)
    (hcareful : Careful cfg s a) (hstep : step cfg s a = some s') :
    ∃ lists' tt', Timetable.Next cfg tt (observed cfg s a) tt'
      ∧ Represents cfg s' lists' tt' := by
  have hsound := h.sound.of_step hcareful hstep
  cases stepped_of_step hstep with
  | @call a w hcall hw =>
    obtain ⟨lists', tt', hnext, hrun, hm, hadv⟩ := h.call hcall hstep
    refine ⟨lists', tt', hnext, represents_of_parts hsound hm ?_ ?_ ?_⟩
    · rw [hrun.jobs]
      exact h.jobs_advance hadv
    · rw [hrun.calls]
      exact h.calls
    · rw [hrun.panicked]
      exact h.panicked
  | tick now =>
    -- the tick moves the cursors; what it collects are the jobs it picks
    have hm : Reflects cfg s.wheel lists tt := h.mirrors
    obtain ⟨hm', hadv⟩ : Reflects cfg (s.wheel.tick cfg now).2.2 lists
          { tt with cursor := tt.cursor + 1 }
        ∧ Advances cfg s.wheel (s.wheel.tick cfg now).2.2 lists lists := by
      have hcore := tick_core cfg s.wheel now
      refine ⟨⟨hm.ctxs.congr hcore rfl rfl, hm.running, fun n i c t hu =>
        hm.checked n i c t (hcore.symm.used hu), hm.timers, hm.next, congrArg (· + 1) hm.cursor,
        hm.stale, hm.events⟩, le_refl _, fun m i c t hu _ => ⟨i, hcore.symm.used hu⟩⟩
    refine ⟨lists, _, .tick (hm.picked now), represents_of_parts hsound
      (hm'.run _ tt.calls tt.panicked) ?_ h.calls h.panicked⟩
    exact List.rel_append (h.jobs_advance hadv)
      ((hm.follows_collect now).imp (fun _ _ hf => hf.advances hadv))
  | @reject i e he hs =>
    obtain ⟨job, hjob, hf⟩ := forall₂_getElem? h.jobs he
    exact ⟨lists, _, .reject hjob (by rw [← hf.stage, hs]; rfl), represents_of_parts hsound
      (h.mirrors.run _ tt.calls tt.panicked) (forall₂_eraseIdx h.jobs i) h.calls h.panicked⟩
  | @start i e he hs =>
    exact ⟨lists, h.start he hs hsound⟩
  | @finish i e info he hs result =>
    exact ⟨lists, h.finish he hs result hsound⟩
  | @panic i e info he hs =>
    obtain ⟨job, hjob, hf⟩ := forall₂_getElem? h.jobs he
    refine ⟨lists, _, .panic hjob (by rw [← hf.stage, hs]; rfl), represents_of_parts hsound
      (h.mirrors.run _ tt.calls _) (forall₂_eraseIdx h.jobs i) h.calls ?_⟩
    rw [hf.registration, h.panicked]
    rfl
  | @complete i e info result he hs =>
    exact h.complete he hs (hcareful.own i e rfl he) hsound

/-! ## Runs -/

/-- A wheel that has just been started. Both are empty, with the same cursor. -/
theorem represents_of_started (h : Started cfg w) :
    Represents cfg (ofWheel w) (fun _ => []) (.empty w.currentSlot) := by
  have hinv := inv_of_started h
  obtain ⟨cacheEnabled, store, now₀, now, hstart⟩ := h
  have hctxs := (lifecycleSound_new cfg cacheEnabled store now₀).ctxs.start
    (fun _ => by
      refine List.eq_nil_iff_forall_not_mem.mpr (fun id hid => ?_)
      obtain ⟨j, -, hj⟩ := List.mem_flatMap.mp hid
      exact absurd hj List.not_mem_nil) hstart
  obtain ⟨cacheEnabled, store, now₀, slot, rfl⟩ :=
    Started.eq_new (show Started cfg w from ⟨cacheEnabled, store, now₀, now, hstart⟩)
  refine ⟨fun e he => absurd he List.not_mem_nil, ?_, .nil, rfl, rfl⟩
  exact {
    ctxs := hctxs
    running := rfl
    checked := fun n i c t hu => absurd hu.mem List.not_mem_nil
    timers := rfl
    next := Nat.zero_le _
    cursor := rfl
    stale := fun n hn => absurd hn List.not_mem_nil
    events := rfl }

/-- Careful steps are simulated by the timetable. In the form the rule for runs
asks for. -/
theorem simulates_of_careful (cfg : Config) :
    Simulates (step cfg) (observed cfg) (fun s a _ => Careful cfg s a) (Timetable.Next cfg)
      (fun s tt => ∃ lists, Represents cfg s lists tt) := by
  rintro s a s' tt ⟨lists, h⟩ hcareful hstep
  obtain ⟨lists', tt', hnext, h'⟩ := represents_of_step h hcareful hstep
  exact ⟨tt', hnext, lists', h'⟩

/-- A careful run of a started wheel is represented by a table, which its trace
has led to. Everything that is proved of all traces of the timetable is a
property of such runs by this. -/
theorem represented_of_careful (h : Started cfg w) {as : List Action}
    (hcareful : Machine.Each (step cfg) (fun s a _ => Careful cfg s a) (ofWheel w) as)
    (hrun : Machine.run (step cfg) (ofWheel w) as = some s) :
    ∃ lists tt, Trace (Timetable.Next cfg) (.empty w.currentSlot)
        (labels (step cfg) (observed cfg) (ofWheel w) as) tt
      ∧ Represents cfg s lists tt := by
  obtain ⟨tt, htrace, lists, hs⟩ :=
    (simulates_of_careful cfg).trace ⟨_, represents_of_started h⟩ hcareful hrun
  exact ⟨lists, tt, htrace, hs⟩

/-- **What a table shows of a wheel**: the timers with all their fields, the
cursor, the executions with their registrations, times and stages, the calls of
task functions, and the calls to the sinks. Whether the table is `stale`, and
how far it has counted registrations, is not shown. -/
structure Shows (cfg : Config) (s : Scheduler) (tt : Timetable) : Prop where
  timers : tt.timers = s.wheel.timer cfg
  cursor : tt.cursor = s.wheel.currentSlot
  jobs : tt.jobs.map (fun job => (some job.registration, job.now, job.stage))
    = s.execs.map (fun e => (e.registration, e.now, e.stage.jobStage))
  calls : tt.calls.map (fun call => ⟨some call.1, call.1, call.2⟩) = s.invoked
  panicked : tt.panicked = s.panicked
  events : tt.events = s.wheel.alertEvents

/-- The relation says more than what is shown. -/
theorem Represents.shows (h : Represents cfg s lists tt) : Shows cfg s tt where
  timers := h.mirrors.timers
  cursor := h.mirrors.cursor
  jobs := by
    have hall : List.Forall₂ (fun job e => (some job.registration, job.now, job.stage)
        = (e.registration, e.now, e.stage.jobStage)) tt.jobs s.execs :=
      h.jobs.flip.imp (fun job e hf => by
        obtain ⟨hreg, hnow, hstage, -, -⟩ : Follows cfg s.wheel lists e job := hf
        rw [hreg, hnow, hstage])
    rw [← List.forall₂_eq_eq_eq]
    exact List.forall₂_map_left_iff.mpr (List.forall₂_map_right_iff.mpr hall)
  calls := h.calls.symm
  panicked := h.panicked.symm
  events := h.mirrors.events

/-- **The wheel implements the timetable.** In every run of a started wheel in
which no call hands out a node that an execution still holds, and completions
take nodes out of their own lists, what is asked and answered is a trace of the
timetable, and the table it leads to shows the wheel. Calls come one after
another, and so do the parts of executions, in any order; the two conditions are
those under which a node stays with its registration. -/
theorem refines_of_careful (h : Started cfg w) {as : List Action}
    (hcareful : Machine.Each (step cfg) (fun s a _ => Careful cfg s a) (ofWheel w) as)
    (hrun : Machine.run (step cfg) (ofWheel w) as = some s) :
    ∃ tt, Trace (Timetable.Next cfg) (.empty w.currentSlot)
        (labels (step cfg) (observed cfg) (ofWheel w) as) tt
      ∧ Shows cfg s tt := by
  obtain ⟨lists, tt, htrace, hs⟩ := represented_of_careful h hcareful hrun
  exact ⟨tt, htrace, hs.shows⟩

/-- A task is removed and registered again while its function runs. -/
def readdedRun : List Action :=
  [addAt 0 "a" .repeated 10 none] ++ ticksAt [10]
    ++ [.start 0, .removeTask "a" true, addAt 15 "a" .once 5 none] ++ ticksAt [20]
    ++ [.start 1, .finish 0 .zero, .finish 0 .zero, .pauseTask "a", .complete 0,
      .removeTask "a" true]

/-- The first execution returns when its registration is gone, and the table
shows the second one, ended by its own execution. -/
theorem refines_of_readded : ∃ s tt,
    Machine.run (step fourSlots) (ofWheel fourSlotWheel) readdedRun = some s
      ∧ Trace (Timetable.Next fourSlots) (.empty 0)
        (labels (step fourSlots) (observed fourSlots) (ofWheel fourSlotWheel) readdedRun) tt
      ∧ Shows fourSlots s tt := by
  obtain ⟨s, hs⟩ : ∃ s, Machine.run (step fourSlots) (ofWheel fourSlotWheel) readdedRun = some s :=
    Option.isSome_iff_exists.mp (by decide +kernel)
  obtain ⟨tt, htrace, hshows⟩ :=
    refines_of_careful started_fourSlotWheel (by decide +kernel) hs
  exact ⟨s, tt, hs, htrace, hshows⟩

end Timewheel
