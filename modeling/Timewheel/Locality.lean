import Timewheel.Silence

/-!
# One task at a time

What becomes of a task is its own affair. A step concerns the task it names, or
the task whose execution moves on; the timers of all the others keep every field
(`timer_of_not_concerned`). And what the history store has been told about a task
reads as a path through the alert states, however the executions of the tasks
interleave: each change begins where the last one ended, or with a task that has
been set anew (`path_of_careful`).

The first result is about one step, and it is proved on the table, where a
timer is one entry: each rule of the specification changes the entry of the
task it names, or of the job it moves on. The second is about runs. The
history of a task is a list of entries, and the invariant (`Follows`) says
that it is a path which ends in the state that the timer has now.
-/

namespace Timewheel

open TimeWheel Scheduler Simulation

/-! ## Which tasks a step concerns -/

/-- The timer under `id` is the one the `i`-th job was picked for. A job whose
timer is gone concerns no task. -/
def Timetable.JobOf (t : Timetable) (i : ℕ) (id : String) : Prop :=
  ∃ job x, t.jobs[i]? = some job ∧ t.timers id = some x ∧ x.registration = job.registration

/-- The tasks a request concerns. Clearing the wheel concerns all of them. -/
def Timetable.Concerns (t : Timetable) (id : String) : Request → Prop
  | .addTask task _ => task.map Task.id = some id
  | .removeTask taskID => taskID = id
  | .updateTask task _ _ => task.map Task.id = some id
  | .pauseTask taskID => taskID = id
  | .resumeTask taskID _ => taskID = id
  | .clearAllTasks => True
  | .finish i _ => t.JobOf i id
  | .complete i => t.JobOf i id
  | _ => False

namespace Timetable

variable {cfg : Config} {t t' : Timetable} {id : String} {task : Option Task} {err : Option Err}
  {now backAt : Time} {l : Request × Response}

/-- An addition changes the timer of its own ID, -/
theorem Adds.timers_of_ne (h : Adds cfg t now task err t') (hid : task.map Task.id ≠ some id) :
    t'.timers id = t.timers id := by
  cases h with
  | isNil => rfl
  | unfit check => rfl
  | taken check held => rfl
  | added check free fresh clean =>
    refine timers_put_of_ne t _ _ (fun heq => hid ?_)
    rw [heq, (checkTask_ok check).2.2.id_eq]
    rfl

/-- and so does an update, with its removal and its rollback. -/
theorem Updates.timers_of_ne (h : Updates cfg t now backAt task err t') (ht : Valid t)
    (hid : task.map Task.id ≠ some id) : t'.timers id = t.timers id := by
  cases h with
  | isNil => rfl
  | invalid h => rfl
  | missing id_ne run_ne free => rfl
  | updated held add =>
    exact (add.timers_of_ne hid).trans (timers_drop_of_ne t _ (fun heq => hid (heq ▸ rfl)))
  | rolledBack held run_ne unfit add =>
    have hold := (ht.task _ _ held).1
    refine (add.timers_of_ne (fun heq => hid ?_)).trans
      (timers_drop_of_ne t _ (fun heq => hid (heq ▸ rfl)))
    rw [← heq, Option.map_some, Option.map_some, hold]

/-- **A step leaves the timers it does not concern as they are.** By the rules
of the specification, one by one. -/
theorem Next.timers_of_not_concerns (h : Next cfg t l t') (ht : Valid t)
    (hid : ¬ t.Concerns id l.1) : t'.timers id = t.timers id := by
  have hjob : ∀ {i : ℕ} {job : TimerJob} {x : Timer}, t.jobs[i]? = some job →
      t.find job = some x → ¬ t.JobOf i id → id ≠ job.id := by
    rintro i job x here held hnot rfl
    obtain ⟨hx, hreg⟩ := find_spec held
    exact hnot ⟨job, x, here, hx, hreg⟩
  cases h with
  | addTask add => exact add.timers_of_ne hid
  | updateTask update => exact update.timers_of_ne ht hid
  | removeTask held => exact timers_drop_of_ne t _ (Ne.symm hid)
  | pauseTask held => exact timers_put_of_ne t _ _ (Ne.symm hid)
  | resumeTask held => exact timers_put_of_ne t _ _ (Ne.symm hid)
  | clearAllTasks => exact absurd trivial hid
  | @finish i job x result here stage held => exact timers_put_of_ne t _ _ (hjob here held hid)
  | @complete i job x result here stage held =>
    have hne := hjob here held hid
    have hxid := (ht.task job.id x (find_spec held).1).1
    show (t.completed cfg x result job.now).timers id = t.timers id
    unfold Timetable.completed
    dsimp only
    rw [hxid]
    split_ifs
    · exact timers_put_of_ne t _ _ hne
    · exact timers_drop_of_ne t _ hne
  | _ => rfl

end Timetable

/-- The timer under `id` is the one the `i`-th execution was collected for.
Another registration may have taken its place. -/
def Scheduler.ExecutionOf (cfg : Config) (s : Scheduler) (i : ℕ) (id : String) : Prop :=
  ∃ e x, s.execs[i]? = some e ∧ s.wheel.timer cfg id = some x
    ∧ e.registration = some x.registration

/-- The tasks a step concerns. This can be told from the state before the step. -/
def Scheduler.Concerns (cfg : Config) (s : Scheduler) (id : String) : Action → Prop
  | .addTask task _ => task.map Task.id = some id
  | .removeTask taskID _ => taskID = id
  | .updateTask task _ => task.map Task.id = some id
  | .pauseTask taskID => taskID = id
  | .resumeTask taskID _ => taskID = id
  | .clearAllTasks _ _ => True
  | .finish i _ => s.ExecutionOf cfg i id
  | .complete i => s.ExecutionOf cfg i id
  | _ => False

variable {cfg : Config} {s s' : Scheduler} {w : TimeWheel} {lists : ℕ → List NodeRef}
  {t t' tt : Timetable} {l : Request × Response} {id : String} {a : Action} {i : ℕ}

/-- Jobs stand for executions, -/
theorem Represents.executionOf (h : Represents cfg s lists tt) (hjob : tt.JobOf i id) :
    s.ExecutionOf cfg i id := by
  obtain ⟨job, x, hjob, hx, hreg⟩ := hjob
  obtain ⟨e, he, hf⟩ := forall₂_getElem? h.jobs.flip hjob
  refine ⟨e, x, he, h.mirrors.timers ▸ hx, ?_⟩
  rw [hreg]
  exact Follows.registration hf

/-- so what a step concerns in the table it concerns in the wheel. -/
theorem Represents.concerns (h : Represents cfg s lists tt) (ha : tt.Concerns id a.request) :
    s.Concerns cfg id a := by
  cases a with
  | finish i result => exact h.executionOf ha
  | complete i => exact h.executionOf ha
  | _ => exact ha

/-- **Tasks are isolated.** In a careful run of a started wheel, a call changes no
field of the timers of other tasks than the one it names; an execution that
returns or completes changes the timer it was collected for, if that is still
set, and no other; and ticks, rejections, starts and panics change none. -/
theorem timer_of_not_concerned (h : Started cfg w) {as : List Action}
    (hcareful : Machine.Each (step cfg) (fun s a _ => Careful cfg s a) (ofWheel w) (as ++ [a]))
    (hrun : Machine.run (step cfg) (ofWheel w) as = some s) (hstep : step cfg s a = some s')
    (hid : ¬ s.Concerns cfg id a) : s'.wheel.timer cfg id = s.wheel.timer cfg id := by
  rw [Machine.each_append] at hcareful
  obtain ⟨lists, tt, htrace, hs⟩ := represented_of_careful h hcareful.1 hrun
  have hcare : Careful cfg s a := (hcareful.2 s hrun s' hstep).1
  obtain ⟨lists', tt', hnext, hs'⟩ := represents_of_step hs hcare hstep
  rw [← hs'.mirrors.timers, ← hs.mirrors.timers]
  exact hnext.timers_of_not_concerns (.of_trace htrace) (fun ha => hid (hs.concerns ha))

/-- Two tasks in one slot, and the execution of one of them returns. -/
def neighbourRun : List Action :=
  [addAt 0 "a" .repeated 10 none, addAt 0 "b" .once 10 none] ++ ticksAt [10]
    ++ [.start 0, .start 1, .finish 0 .zero]

/-- The execution of one task ends it, and the other task is as it was before. -/
theorem timer_of_neighbour : ∃ s s',
    Machine.run (step fourSlots) (ofWheel fourSlotWheel) neighbourRun = some s
      ∧ step fourSlots s (.complete 0) = some s'
      ∧ s'.wheel.timer fourSlots "b" = none
      ∧ s'.wheel.timer fourSlots "a" = s.wheel.timer fourSlots "a" := by
  have hrun : (Machine.run (step fourSlots) (ofWheel fourSlotWheel) neighbourRun).bind (fun s =>
      (step fourSlots s (.complete 0)).map (fun s' =>
        ((s.execs[0]?).bind Execution.registration,
          (s.wheel.timer fourSlots "a").map Timer.registration,
          (s'.wheel.timer fourSlots "b").isNone))) = some (some 2, some 1, true) := by
    decide +kernel
  obtain ⟨s, hs, hmap⟩ := Option.bind_eq_some_iff.mp hrun
  obtain ⟨s', hstep, heq⟩ := Option.map_eq_some_iff.mp hmap
  obtain ⟨hexec, htimer, hgone⟩ : (s.execs[0]?).bind Execution.registration = some 2
      ∧ (s.wheel.timer fourSlots "a").map Timer.registration = some 1
      ∧ (s'.wheel.timer fourSlots "b").isNone = true := by simpa using heq
  refine ⟨s, s', hs, hstep, Option.isNone_iff_eq_none.mp hgone,
    timer_of_not_concerned started_fourSlotWheel (by decide +kernel) hs hstep ?_⟩
  rintro ⟨e, x, he, hx, hreg⟩
  rw [he, Option.bind_some, hreg] at hexec
  rw [hx, Option.map_some] at htimer
  exact absurd (hexec.symm.trans htimer) (by decide)

/-! ## The history of one task -/

/-- The moves of the alert state machine. There is no way from `Firing` to
`Pending` but through `Resolved`. -/
inductive AlertMove : AlertState → AlertState → Prop where
  | fire : AlertMove .pending .firing
  | resolve : AlertMove .firing .resolved
  | settle : AlertMove .resolved .pending
  | fireAgain : AlertMove .resolved .firing

/-- What the history of a task is made of: the task is set anew, or the store is
told of a change of its state. Only the latter reaches the store. -/
inductive HistoryEntry where
  | anew
  | told (old new : AlertState)
  deriving DecidableEq

/-- **A path through the alert states** leads to the state after the last entry.
A task that is set anew starts out pending, and only then does a path begin
somewhere else than where it has come to; before it is set for the first time,
there is no state that a move could begin in. The state is part of the relation,
so that paths can be put together. -/
inductive AlertPath : List HistoryEntry → Option AlertState → Prop where
  | start : AlertPath [] none
  | anew {entries : List HistoryEntry} {state : Option AlertState}
      (path : AlertPath entries state) : AlertPath (entries ++ [.anew]) (some .pending)
  | move {entries : List HistoryEntry} {old new : AlertState}
      (path : AlertPath entries (some old)) (legal : AlertMove old new) :
      AlertPath (entries ++ [.told old new]) (some new)

/-- What an event tells the history store about the task. Other sinks may be
told more. -/
def AlertEvent.storedMove (id : String) : AlertEvent → Option (AlertState × AlertState)
  | .storeRecord record =>
    if record.taskID = id then some (record.oldState, record.state) else none
  | _ => none

/-- What the history store has been told about the task. In the order in which
it was told. -/
def storedMoves (id : String) (events : List AlertEvent) : List (AlertState × AlertState) :=
  events.filterMap (AlertEvent.storedMove id)

/-- More events tell more, -/
theorem storedMoves_append (id : String) (events more : List AlertEvent) :
    storedMoves id (events ++ more) = storedMoves id events ++ storedMoves id more :=
  List.filterMap_append

/-- An event that is not for the store tells it nothing, whether its sink is set or
not. -/
theorem storedMoves_optional (id : String) {event : AlertEvent}
    (h : event.storedMove id = none) (b : Bool) :
    storedMoves id (if b then [event] else []) = [] := by
  cases b with
  | false => rfl
  | true => exact List.filterMap_cons_none h

/-- The events of a change of state tell the store of it. One record is made for
the store. -/
theorem storedMoves_change {sinks : AlertSinks} (hstore : sinks.historyStore = true)
    {manager callback : AlertEvent} {record : AlertHistory}
    (hmanager : manager.storedMove id = none) (hcallback : callback.storedMove id = none) :
    storedMoves id ((if sinks.historyManager then [manager] else [])
        ++ (if sinks.historyStore then [.storeRecord record] else [])
        ++ (if sinks.onAlertStateChange then [callback] else []))
      = if record.taskID = id then [(record.oldState, record.state)] else [] := by
  rw [storedMoves_append, storedMoves_append, storedMoves_optional id hmanager,
    storedMoves_optional id hcallback, if_pos hstore, List.nil_append, List.append_nil]
  by_cases hid : record.taskID = id
  · rw [if_pos hid]
    exact List.filterMap_cons_some (if_pos hid)
  · rw [if_neg hid]
    exact List.filterMap_cons_none (if_neg hid)

/-- The store is not told of repetitions. A repeated notification goes to the
other two sinks. -/
theorem storedMoves_repeat {sinks : AlertSinks} {manager callback : AlertEvent}
    (hmanager : manager.storedMove id = none) (hcallback : callback.storedMove id = none) :
    storedMoves id ((if sinks.historyManager then [manager] else [])
      ++ (if sinks.onAlertStateChange then [callback] else [])) = [] := by
  rw [storedMoves_append, storedMoves_optional id hmanager, storedMoves_optional id hcallback]
  rfl

/-- The state machine moves along its moves only. By its cases. -/
theorem alertMove_of_ne (node : TaskSlot) (isFiring : Bool) (forDuration : Duration) (now : Time)
    (h : node.alertState ≠ (node.computeAlertState isFiring forDuration now).2) :
    AlertMove node.alertState (node.computeAlertState isFiring forDuration now).2 := by
  cases isFiring with
  | false =>
    rw [TaskSlot.computeAlertState_of_not_firing] at h ⊢
    dsimp only at h ⊢
    cases hstate : node.alertState with
    | pending => simp [hstate] at h
    | firing => exact .resolve
    | resolved => exact .settle
  | true =>
    have hne := node.computeAlertState_of_firing forDuration now
    have hfires : node.alertState = .firing →
        (node.computeAlertState true forDuration now).2 = .firing := by
      intro hstate
      unfold TaskSlot.computeAlertState
      rw [if_pos rfl, if_pos hstate]
    generalize (node.computeAlertState true forDuration now).2 = new at h hne hfires ⊢
    cases hstate : node.alertState with
    | pending =>
      cases new with
      | pending => exact absurd hstate h
      | firing => exact .fire
      | resolved => exact absurd rfl hne
    | firing => exact absurd (hstate.trans (hfires hstate).symm) h
    | resolved =>
      cases new with
      | pending => exact .settle
      | firing => exact .fireAgain
      | resolved => exact absurd rfl hne

/-- **The store is told of an evaluation when the state changes.** The two
branches of the code, and neither of them. -/
theorem storedMoves_handleAlertStateLocked {sinks : AlertSinks} (hstore : sinks.historyStore = true)
    {node : TaskSlot} (htask : node.task ≠ none) (info : TaskInfo) (result : AlarmResult)
    (now : Time) (id : String) :
    storedMoves id (handleAlertStateLocked sinks node info result now).events
      = if node.alertState = (handleAlertStateLocked sinks node info result now).node.alertState
        then []
        else if info.id = id then [(node.alertState,
          (handleAlertStateLocked sinks node info result now).node.alertState)]
        else [] := by
  rw [alertState_handleAlertStateLocked sinks htask]
  unfold handleAlertStateLocked
  rw [if_neg htask]
  generalize node.computeAlertState result.isFiring info.forDuration now = c
  obtain ⟨computed, newState⟩ := c
  dsimp only
  by_cases hsame : node.alertState = newState
  · rw [if_neg (not_not.mpr hsame), if_pos hsame]
    by_cases hrepeat : newState = .firing ∧ info.repeatInterval > 0
    · rw [if_pos hrepeat]
      by_cases hdue : computed.lastFiredAt.isZero = false
          ∧ now.sub computed.lastFiredAt ≥ info.repeatInterval
      · rw [if_pos hdue]
        exact storedMoves_repeat rfl rfl
      · rw [if_neg hdue]
        rfl
    · rw [if_neg hrepeat]
      rfl
  · rw [if_pos hsame, if_neg hsame]
    by_cases hrepeat : newState = .firing ∧ info.repeatInterval > 0
    · rw [if_pos hrepeat]
      exact storedMoves_change hstore rfl rfl
    · rw [if_neg hrepeat]
      by_cases hfiring : newState = .firing
      · rw [if_pos hfiring]
        exact storedMoves_change hstore rfl rfl
      · rw [if_neg hfiring]
        exact storedMoves_change hstore rfl rfl

/-- **The task is set anew**: an `AddTask` or an `UpdateTask` of the ID leaves
it with a registration that it did not have before. A call that is refused is
not enough. -/
def Registers (id : String) (request : Request) (before after : Option ℕ) : Prop :=
  request.Sets id ∧ after ≠ none ∧ after ≠ before

instance (id : String) (request : Request) (before after : Option ℕ) :
    Decidable (Registers id request before after) := inferInstanceAs (Decidable (_ ∧ _))

/-- What a step adds to the history of a task, with the registrations the ID has
before and after the step, and what the store is told. A call that sets a task
anew tells the store nothing. -/
def historyStep (id : String) (request : Request) (before after : Option ℕ)
    (told : List (AlertState × AlertState)) : List HistoryEntry :=
  (if Registers id request before after then [.anew] else [])
    ++ told.map (fun move => .told move.1 move.2)

/-- **The history of a task** along a run. It is a function of the run, and
mentions no table. -/
def history (cfg : Config) (id : String) : Scheduler → List Action → List HistoryEntry
  | _, [] => []
  | s, a :: as =>
    match step cfg s a with
    | none => []
    | some s' =>
      historyStep id a.request ((s.wheel.timer cfg id).map Timer.registration)
          ((s'.wheel.timer cfg id).map Timer.registration)
          (storedMoves id (s'.wheel.alertEvents.drop s.wheel.alertEvents.length))
        ++ history cfg id s' as

/-- What the store has been told in a history. -/
def HistoryEntry.move : HistoryEntry → Option (AlertState × AlertState)
  | .anew => none
  | .told old new => some (old, new)

/-- The entries of a step contain what the store was told in it. -/
theorem move_historyStep (id : String) (request : Request) (before after : Option ℕ)
    (told : List (AlertState × AlertState)) :
    (historyStep id request before after told).filterMap HistoryEntry.move = told := by
  have htold : (told.map (fun move => HistoryEntry.told move.1 move.2)).filterMap
      HistoryEntry.move = told := by
    rw [List.filterMap_map]
    exact List.filterMap_some
  unfold historyStep
  split_ifs
  · exact htold
  · exact htold

namespace Timetable

/-- **The history of a task has come to its state.** If the task is not
registered, only the path is left. -/
def Follows (t : Timetable) (id : String) (entries : List HistoryEntry) : Prop :=
  ∃ state, AlertPath entries state ∧ ∀ x, t.timers id = some x → state = some x.alertState

/-- A step that is no call does not set a task anew. So only evaluations extend
its path. -/
theorem historyStep_of_not_isCall {request : Request} (h : request.isCall = false) (id : String)
    (before after : Option ℕ) (told : List (AlertState × AlertState)) :
    historyStep id request before after told = told.map (fun move => .told move.1 move.2) := by
  have hsets : ¬ request.Sets id := by
    cases request <;> first | exact fun hs => hs | exact absurd h.symm Bool.false_ne_true
  exact congrArg (· ++ _) (if_neg (fun hr => hsets hr.1))

/-- Nothing that concerns the task has happened. The path may also end here, if
the timer is gone. -/
theorem Follows.same {entries : List HistoryEntry} (hf : t.Follows id entries)
    (h : ∀ y, t'.timers id = some y → ∃ x, t.timers id = some x ∧ y.alertState = x.alertState) :
    t'.Follows id entries := by
  obtain ⟨state, path, hstate⟩ := hf
  refine ⟨state, path, fun y hy => ?_⟩
  obtain ⟨x, hx, heq⟩ := h y hy
  rw [heq]
  exact hstate x hx

/-- **A call** begins a new path under the ID it registers, and leaves the alert
states of all other timers. Whether it registers the ID can be read off the
registrations: a fresh one is no smaller than any that has been given out. -/
theorem Next.follows_of_call (h : Next cfg t l t') (ht : Valid t) (hcall : l.1.isCall = true)
    {entries : List HistoryEntry} (hf : t.Follows id entries) :
    t'.Follows id (entries ++ historyStep id l.1 ((t.timers id).map Timer.registration)
      ((t'.timers id).map Timer.registration) []) := by
  have hcalled := h.called hcall
  unfold historyStep
  rw [List.map_nil, List.append_nil]
  split_ifs with hreg
  · obtain ⟨-, -, hne⟩ := hreg
    obtain ⟨state, path, -⟩ := hf
    refine ⟨some .pending, path.anew, fun y hy => ?_⟩
    rcases hcalled.timer hy with ⟨x, hx, hsame, -⟩ | ⟨r, task, now, paused, -, -, -, -, rfl⟩
    · refine absurd ?_ hne
      rw [hx, hy, Option.map_some, Option.map_some, hsame]
    · rfl
  · rw [List.append_nil]
    refine hf.same (fun y hy => ?_)
    rcases hcalled.timer hy with ⟨x, hx, -, -, -, hstate, -⟩ | ⟨r, task, now, paused, hfresh, -, -,
      -, rfl⟩
    · exact ⟨x, hx, hstate⟩
    · -- a fresh registration, so the call has registered the ID
      have hold : ∀ x, t.timers id = some x → x.registration < r := fun x hx =>
        lt_of_lt_of_le (ht.old id x hx) hfresh
      rcases h.timer_back ht hy with ⟨-, hsets⟩ | ⟨x, hx, hsame, -⟩
      · refine absurd ⟨hsets, ?_, fun heq => ?_⟩ hreg
        · rw [hy]
          exact Option.some_ne_none _
        · rw [hy] at heq
          obtain ⟨x, hx, hsame⟩ := Option.map_eq_some_iff.mp heq.symm
          exact absurd hsame (hold x hx).ne
      · exact absurd hsame (hold x hx).ne

/-- **The evaluation of a result** extends the path of its task by the move it
makes, if it makes one. The move begins in the state that the timer has. -/
theorem path_evaluate {x : Timer} {entries : List HistoryEntry}
    (hstore : cfg.sinks.historyStore = true) (hpath : AlertPath entries (some x.alertState))
    (result : AlarmResult) (now : Time) :
    AlertPath (entries ++ (storedMoves x.task.id (x.evaluate cfg.sinks result now).2).map
        (fun move => .told move.1 move.2))
      (some (x.evaluate cfg.sinks result now).1.alertState) := by
  have htask : x.alertNode.task ≠ none := Option.some_ne_none x.task
  have hmoves := storedMoves_handleAlertStateLocked hstore htask x.task.copyTaskInfo result now
    x.task.id
  have hmove := alertMove_of_ne x.alertNode result.isFiring x.task.copyTaskInfo.forDuration now
  rw [← alertState_handleAlertStateLocked cfg.sinks htask] at hmove
  show AlertPath (entries ++ (storedMoves x.task.id (handleAlertStateLocked cfg.sinks x.alertNode
      x.task.copyTaskInfo result now).events).map (fun move => .told move.1 move.2))
    (some (handleAlertStateLocked cfg.sinks x.alertNode x.task.copyTaskInfo result
      now).node.alertState)
  rw [hmoves]
  by_cases hsame : x.alertNode.alertState = (handleAlertStateLocked cfg.sinks x.alertNode
      x.task.copyTaskInfo result now).node.alertState
  · rw [if_pos hsame, ← hsame, List.map_nil, List.append_nil]
    exact hpath
  · have hid : x.task.copyTaskInfo.id = x.task.id := rfl
    rw [if_neg hsame, if_pos hid]
    exact hpath.move (hmove hsame)

/-- It tells the store nothing about the other tasks. The record has the ID of
the task. -/
theorem storedMoves_evaluate_of_ne {x : Timer} (hstore : cfg.sinks.historyStore = true)
    (hid : id ≠ x.task.id) (result : AlarmResult) (now : Time) :
    storedMoves id (x.evaluate cfg.sinks result now).2 = [] := by
  have htask : x.alertNode.task ≠ none := Option.some_ne_none x.task
  have hne : x.task.copyTaskInfo.id ≠ id := Ne.symm hid
  have hmoves := storedMoves_handleAlertStateLocked hstore htask x.task.copyTaskInfo result now id
  rwa [if_neg hne, ite_self] at hmoves

/-- **Completing an execution.** The timer may end with it. -/
theorem Follows.completed {x : Timer} {entries : List HistoryEntry}
    (hf : t.Follows id entries) (hstore : cfg.sinks.historyStore = true)
    (hx : t.timers x.task.id = some x) (result : AlarmResult) (now : Time) :
    (t.completed cfg x result now).Follows id (entries
      ++ (storedMoves id (x.evaluate cfg.sinks result now).2).map
        (fun move => .told move.1 move.2)) := by
  by_cases hid : id = x.task.id
  · subst hid
    obtain ⟨state, path, hstate⟩ := hf
    rw [hstate x hx] at path
    refine ⟨_, path_evaluate hstore path result now, fun y hy => ?_⟩
    rcases timers_completed hy with ⟨hne, -⟩ | ⟨-, rfl⟩
    · exact absurd rfl hne
    · rfl
  · rw [storedMoves_evaluate_of_ne hstore hid, List.map_nil, List.append_nil]
    refine hf.same (fun y hy => ?_)
    rcases timers_completed hy with ⟨-, hy⟩ | ⟨heq, -⟩
    · exact ⟨y, hy, rfl⟩
    · exact absurd heq hid

/-- What has been told since is what is appended. -/
theorem storedMoves_drop {events more : List AlertEvent} :
    storedMoves id ((events ++ more).drop events.length) = storedMoves id more :=
  congrArg (storedMoves id) List.drop_left

/-- Nothing may have been told at all. -/
theorem storedMoves_drop_self (events : List AlertEvent) :
    storedMoves id (events.drop events.length) = [] := by
  rw [List.drop_length]
  rfl

/-- Events are not taken back. So what a step has told is what comes after. -/
theorem Next.events_prefix (h : Next cfg t l t') : t.events <+: t'.events := by
  cases hcall : l.1.isCall with
  | true => rw [(h.called hcall).events]
  | false =>
    cases h with
    | @complete i job x result here stage held => exact List.prefix_append t.events _
    | addTask | updateTask | removeMissing | removeTask | pauseMissing | pauseTask | resumeMissing
    | resumeTask | clearAllTasks => exact absurd hcall Bool.noConfusion
    | _ => exact List.prefix_refl _

/-- **Every step extends the history of every task to the state it leads to.**
Calls by one lemma, completions by another; the other steps leave states and
events alone. -/
theorem Next.follows (hstore : cfg.sinks.historyStore = true) (h : Next cfg t l t') (ht : Valid t)
    {entries : List HistoryEntry} (hf : t.Follows id entries) :
    t'.Follows id (entries ++ historyStep id l.1 ((t.timers id).map Timer.registration)
      ((t'.timers id).map Timer.registration)
      (storedMoves id (t'.events.drop t.events.length))) := by
  cases hcall : l.1.isCall with
  | true =>
    rw [(h.called hcall).events, storedMoves_drop_self]
    exact h.follows_of_call ht hcall hf
  | false =>
    rw [historyStep_of_not_isCall hcall]
    cases h with
    | @finish i job x result here stage held =>
      show Follows _ id (entries ++ (storedMoves id (t.events.drop t.events.length)).map _)
      rw [storedMoves_drop_self, List.map_nil, List.append_nil]
      refine hf.same (fun y hy => ?_)
      by_cases hid : id = job.id
      · subst hid
        obtain rfl := Option.some.inj ((timers_put_self t _ _).symm.trans hy)
        exact ⟨x, (find_spec held).1, rfl⟩
      · exact ⟨y, (timers_put_of_ne t job.id _ hid).symm.trans hy, rfl⟩
    | @complete i job x result here stage held =>
      obtain ⟨hx, -⟩ := find_spec held
      have hid := (ht.task job.id x hx).1
      have hcompleted := hf.completed hstore (hid.symm ▸ hx) result job.now
      have hevents : (t.completed cfg x result job.now).events
          = t.events ++ (x.evaluate cfg.sinks result job.now).2 := rfl
      show Follows _ id (entries ++ (storedMoves id ((t.completed cfg x result job.now).events.drop
        t.events.length)).map _)
      rw [hevents, storedMoves_drop]
      exact hcompleted
    | addTask | updateTask | removeMissing | removeTask | pauseMissing | pauseTask | resumeMissing
    | resumeTask | clearAllTasks => exact absurd hcall Bool.noConfusion
    | _ =>
      show Follows _ id (entries ++ (storedMoves id (t.events.drop t.events.length)).map _)
      rw [storedMoves_drop_self, List.map_nil, List.append_nil]
      exact hf

end Timetable

/-- **A run extends the history**, from any state that a table stands for. By
induction on the run. -/
theorem Represents.follows (id : String) (hstore : cfg.sinks.historyStore = true)
    (h : Represents cfg s lists tt) (ht : tt.Valid) {as : List Action}
    (hcareful : Machine.Each (step cfg) (fun s a _ => Careful cfg s a) s as)
    (hrun : Machine.run (step cfg) s as = some s') {entries : List HistoryEntry}
    (hf : tt.Follows id entries) :
    ∃ lists' tt', Represents cfg s' lists' tt'
      ∧ tt'.Follows id (entries ++ history cfg id s as)
      ∧ storedMoves id s'.wheel.alertEvents = storedMoves id s.wheel.alertEvents
        ++ (history cfg id s as).filterMap HistoryEntry.move := by
  induction as generalizing s lists tt entries with
  | nil =>
    obtain rfl := Option.some.inj hrun
    unfold history
    rw [List.append_nil, List.filterMap_nil, List.append_nil]
    exact ⟨lists, tt, h, hf, rfl⟩
  | cons a as ih =>
    rw [Machine.run_cons] at hrun
    obtain ⟨s₁, hstep, hrun⟩ := Option.bind_eq_some_iff.mp hrun
    obtain ⟨hcare, hcareful₁⟩ := hcareful s₁ hstep
    obtain ⟨lists₁, tt₁, hnext, h₁⟩ := represents_of_step h hcare hstep
    have hf₁ := hnext.follows hstore ht hf
    rw [h.mirrors.timers, h.mirrors.events, h₁.mirrors.timers, h₁.mirrors.events] at hf₁
    obtain ⟨lists', tt', h', hf', hmoves⟩ := ih h₁ (hnext.valid ht) hcareful₁ hrun hf₁
    -- the events of a step come after those there have been
    have hgrows : storedMoves id s₁.wheel.alertEvents = storedMoves id s.wheel.alertEvents
        ++ storedMoves id (s₁.wheel.alertEvents.drop s.wheel.alertEvents.length) := by
      obtain ⟨more, hmore⟩ := hnext.events_prefix
      rw [h.mirrors.events, h₁.mirrors.events] at hmore
      rw [← hmore, Timetable.storedMoves_drop, storedMoves_append]
    have hhistory : history cfg id s (a :: as)
        = historyStep id a.request ((s.wheel.timer cfg id).map Timer.registration)
            ((s₁.wheel.timer cfg id).map Timer.registration)
            (storedMoves id (s₁.wheel.alertEvents.drop s.wheel.alertEvents.length))
          ++ history cfg id s₁ as := by
      rw [history, hstep]
    refine ⟨lists', tt', h', ?_, ?_⟩
    · rw [hhistory, ← List.append_assoc]
      exact hf'
    · rw [hmoves, hgrows, hhistory, List.filterMap_append, move_historyStep, List.append_assoc]

/-- **The stored history of a task is a path.** In every careful run of a started
wheel that is configured with a history store, the history of a task is made of
the calls that set it anew and of what the store has been told about it. It leads
through the moves of the alert state machine, each of which begins where the one
before has ended, or in `Pending` if the task has been set anew since; and for a
registered task it ends in the state its alert is in.

The store is told of a move under the lock of the shard, and by an execution that
has found the task registered, so the executions of one task can overlap without
telling their moves in a wrong order. -/
theorem path_of_careful (hstore : cfg.sinks.historyStore = true) (h : Started cfg w)
    {as : List Action}
    (hcareful : Machine.Each (step cfg) (fun s a _ => Careful cfg s a) (ofWheel w) as)
    (hrun : Machine.run (step cfg) (ofWheel w) as = some s) (id : String) :
    storedMoves id s.wheel.alertEvents
        = (history cfg id (ofWheel w) as).filterMap HistoryEntry.move
      ∧ ∃ state, AlertPath (history cfg id (ofWheel w) as) state
        ∧ ∀ x, s.wheel.timer cfg id = some x → state = some x.alertState := by
  have hstart := represents_of_started h
  obtain ⟨lists, tt, hs, hfollows, hmoves⟩ := hstart.follows id hstore
    (Timetable.valid_empty w.currentSlot) hcareful hrun
    ⟨none, .start, fun _ hy => absurd hy (Option.some_ne_none _).symm⟩
  rw [← hstart.mirrors.events] at hmoves
  obtain ⟨state, path, hstate⟩ := hfollows
  rw [hs.mirrors.timers] at hstate
  exact ⟨hmoves, state, path, hstate⟩

/-- The wheel with a history store. -/
def storingSlots : Config := { fourSlots with sinks := ⟨false, true, false⟩ }

/-- The sinks have no part in the start. -/
theorem started_storingSlots : Started storingSlots fourSlotWheel :=
  ⟨false, none, Time.zero, Time.ofMilli 0, start_fourSlots none⟩

/-- The condition of a task holds. -/
def firingResult : AlarmResult := { AlarmResult.zero with isFiring := true }

/-- A task fires, is removed while it fires, registered again, fires once more and
is resolved. -/
def removedWhileFiring : List Action :=
  [addAt 0 "a" .repeated 10 none] ++ ticksAt [10]
    ++ [.start 0, .finish 0 firingResult, .complete 0, .removeTask "a" true,
      addAt 10 "a" .repeated 10 none]
    ++ ticksAt [20] ++ [.start 0, .finish 0 firingResult, .complete 0] ++ ticksAt [30]
    ++ [.start 0, .finish 0 .zero, .complete 0]

/-- The history begins anew with the second registration, and ends in the state
of the node. -/
theorem path_of_removedWhileFiring : ∃ s,
    Machine.run (step storingSlots) (ofWheel fourSlotWheel) removedWhileFiring = some s
      ∧ history storingSlots "a" (ofWheel fourSlotWheel) removedWhileFiring
        = [.anew, .told .pending .firing, .anew, .told .pending .firing, .told .firing .resolved]
      ∧ ∃ state, AlertPath (history storingSlots "a" (ofWheel fourSlotWheel) removedWhileFiring)
          state
        ∧ ∀ x, s.wheel.timer storingSlots "a" = some x → state = some x.alertState := by
  have hrun : (Machine.run (step storingSlots) (ofWheel fourSlotWheel)
      removedWhileFiring).isSome = true := by decide +kernel
  obtain ⟨s, hs⟩ := Option.isSome_iff_exists.mp hrun
  exact ⟨s, hs, by decide +kernel,
    (path_of_careful rfl started_storingSlots (by decide +kernel) hs "a").2⟩

end Timewheel
