import Timewheel.Bound
import Timewheel.Traces

/-!
# What the timetable guarantees

Properties of every trace of the timetable, and so of every careful run of a
wheel. A due task is picked within one revolution (`collected_of_due`). Every
execution that is let through to its function has been counted, is still
running, or has panicked (`calls_accounted`).

Both rest on what a call may do to a table (`Called`) and on an invariant of
the table alone (`Valid`): a registration has one timer at most, and the numbers
of registrations in use are not handed out again.

The steps are those of `Scheduler.step`. A call of the interface is one of them,
`UpdateTask` and `ClearAllTasks` included, which let go of their locks on the
way; so calls come one after another here. An execution starts in one step, with
the checks and the call of the function, and it returns in one step, with the
counter of its node. Neither is done under a lock. What is said of the calls is
therefore said of the executions that have passed their checks; and what is said
of the counter, of runs in which the executions of a node do not overlap
(`StartsApart`).
-/

namespace Timewheel

open TimeWheel Scheduler Simulation

namespace Timetable

variable {cfg : Config} {t t' t'' : Timetable} {id : String} {task : Option Task}
  {err : Option Err} {now : Time} {l : Request × Response}

/-! ## What a call does -/

/-- A timer that is put concerns no other ID, -/
theorem touched_put_of_ne {id' : String} (x : Timer) (hid : id' ≠ id) :
    Touched cfg t (t.put id x) id' :=
  .kept (timers_put_of_ne t id x hid)

/-- and one that is dropped concerns none as far as timers are touched: there is
none to be looked at. -/
theorem touched_drop (t : Timetable) (id id' : String) : Touched cfg t (t.drop id) id' := by
  by_cases hid : id' = id
  · subst hid
    exact .dropped (timers_drop_self t id')
  · exact .kept (timers_drop_of_ne t id hid)

/-- A call that fails. -/
theorem Called.refl (t : Timetable) : Called cfg t t where
  jobs := rfl
  calls := rfl
  panicked := rfl
  next := le_refl _
  cursor := rfl
  events := rfl
  timers := fun _ => .kept rfl
  once := ⟨"", fun _ _ => Or.inl rfl⟩

/-- `RemoveTask`. -/
theorem called_drop (t : Timetable) (id : String) : Called cfg t (t.drop id) where
  jobs := rfl
  calls := rfl
  panicked := rfl
  next := le_refl _
  cursor := rfl
  events := rfl
  timers := touched_drop t id
  once := ⟨id, fun _ hid => Or.inl (timers_drop_of_ne t id hid)⟩

/-- A timer that is flagged. That is all `PauseTask` and `ResumeTask` do: a
flag, and a due time. -/
theorem called_put {x : Timer} {paused : Bool} {runAt : Time} (held : t.timers id = some x) :
    Called cfg t (t.put id { x with paused := paused, runAt := runAt }) where
  jobs := rfl
  calls := rfl
  panicked := rfl
  next := le_refl _
  cursor := rfl
  events := rfl
  timers := fun id' => by
    by_cases hid : id' = id
    · subst hid
      exact .flagged held (timers_put_self t id' _)
    · exact touched_put_of_ne _ hid
  once := ⟨id, fun _ hid => Or.inl (timers_put_of_ne t id _ hid)⟩

/-- What happens after a timer has been dropped. `UpdateTask` is such a call,
and `ClearAllTasks` a chain of them. -/
theorem Called.of_drop (h : Called cfg (t.drop id) t') : Called cfg t t' where
  jobs := h.jobs
  calls := h.calls
  panicked := h.panicked
  next := h.next
  cursor := h.cursor
  events := h.events
  timers := fun id' => by
    cases h.timers id' with
    | kept eq =>
      by_cases hid : id' = id
      · subst hid
        exact .dropped (eq.trans (timers_drop_self t id'))
      · exact .kept (eq.trans (timers_drop_of_ne t id hid))
    | dropped gone => exact .dropped gone
    | set fresh old check id_eq eq => exact .set fresh old check id_eq eq
    | flagged held eq =>
      refine .flagged ((timers_drop_of_ne t id ?_).symm.trans held) eq
      rintro rfl
      exact Option.some_ne_none _ (held.symm.trans (timers_drop_self t id'))
  once := by
    obtain ⟨id₀, honce⟩ := h.once
    refine ⟨id₀, fun id' hid' => ?_⟩
    rcases honce id' hid' with heq | hnone
    · by_cases hid : id' = id
      · subst hid
        exact Or.inr (heq.trans (timers_drop_self t id'))
      · exact Or.inl (heq.trans (timers_drop_of_ne t id hid))
    · exact Or.inr hnone

/-- `AddTask` sets one fresh timer, or fails. -/
theorem Adds.called (h : Adds cfg t now task err t') : Called cfg t t' := by
  have hrun := h.sameRun
  cases h with
  | isNil => exact .refl t
  | unfit check => exact .refl t
  | taken check held => exact .refl t
  | @added task task' r paused check free fresh clean =>
    refine ⟨hrun, Nat.le_succ_of_le fresh, rfl, rfl, fun id' => ?_,
      task'.id, fun _ hid => Or.inl (timers_put_of_ne t task'.id _ hid)⟩
    by_cases hid : id' = task'.id
    · subst hid
      exact .set fresh (Nat.lt_succ_self r) (checkTask_idem check) rfl
        (timers_put_self t task'.id _)
    · exact .kept (timers_put_of_ne t task'.id _ hid)

/-- `UpdateTask` drops one, and sets one or two fresh ones. -/
theorem Updates.called {backAt : Time} (h : Updates cfg t now backAt task err t') :
    Called cfg t t' := by
  cases h with
  | isNil => exact .refl t
  | invalid h => exact .refl t
  | missing id_ne run_ne free => exact .refl t
  | updated held add => exact add.called.of_drop
  | rolledBack held run_ne unfit add => exact add.called.of_drop

/-- **A call** leaves the executions, the cursor and the events alone. Only the
timers change, and those that stay keep what executions have written. This is
one case for each call, and the last place where the calls are told apart. -/
theorem Next.called (h : Next cfg t l t') (hcall : l.1.isCall = true) : Called cfg t t' := by
  cases h with
  | addTask add => exact add.called
  | updateTask update => exact update.called
  | removeMissing free => exact .refl t
  | removeTask held => exact called_drop t _
  | pauseMissing free => exact .refl t
  | pauseTask held => exact called_put held
  | resumeMissing free => exact .refl t
  | @resumeTask id now x held =>
    unfold Timer.resume
    split_ifs
    · exact called_put held
    · exact called_put held
  | clearAllTasks => exact ⟨⟨rfl, rfl, rfl⟩, le_refl _, rfl, rfl, fun _ => .dropped rfl,
    "", fun _ _ => Or.inr rfl⟩
  | _ => exact absurd hcall Bool.false_ne_true

/-! ## The tables a trace leads to -/

/-- **What holds of every table.** -/
structure Valid (t : Timetable) : Prop where
  /-- A timer is set under the ID of its task, which has been checked. -/
  task : ∀ id x, t.timers id = some x → x.task.id = id ∧ checkTask x.task = .ok x.task
  /-- The numbers of registrations in use are not fresh. -/
  old : ∀ id x, t.timers id = some x → x.registration < t.next
  jobs : ∀ job ∈ t.jobs, job.registration < t.next
  calls : ∀ call ∈ t.calls, call.1 < t.next
  panicked : ∀ r ∈ t.panicked, r < t.next
  /-- Two timers are two registrations. -/
  distinct : ∀ id id' x y, t.timers id = some x → t.timers id' = some y →
    x.registration = y.registration → id = id'
  /-- A job names the ID of its registration. -/
  named : ∀ job ∈ t.jobs, ∀ id x, t.timers id = some x → x.registration = job.registration →
    id = job.id

/-- An empty table is valid. -/
theorem valid_empty (cursor : ℕ) : Valid (.empty cursor) where
  task := fun _ _ h => absurd h (Option.some_ne_none _).symm
  old := fun _ _ h => absurd h (Option.some_ne_none _).symm
  jobs := fun _ h => absurd h List.not_mem_nil
  calls := fun _ h => absurd h List.not_mem_nil
  panicked := fun _ h => absurd h List.not_mem_nil
  distinct := fun _ _ _ _ h => absurd h (Option.some_ne_none _).symm
  named := fun _ h => absurd h List.not_mem_nil

/-- A timer after a call is one from before, perhaps flagged, or a fresh one. A
fresh one has its counter at zero and its alert pending. -/
theorem Called.timer (h : Called cfg t t') {y : Timer} (hy : t'.timers id = some y) :
    (∃ x, t.timers id = some x ∧ y.registration = x.registration ∧ y.task = x.task
        ∧ y.executed = x.executed ∧ y.alertState = x.alertState ∧ y.slot = x.slot)
      ∨ ∃ r task now paused, t.next ≤ r ∧ r < t'.next ∧ checkTask task = .ok task ∧ task.id = id
        ∧ y = .set cfg r task now paused := by
  cases h.timers id with
  | kept eq => exact Or.inl ⟨y, eq.symm.trans hy, rfl, rfl, rfl, rfl, rfl⟩
  | dropped gone => exact absurd (hy.symm.trans gone) (Option.some_ne_none y)
  | @set r task now paused fresh old check id_eq eq =>
    exact Or.inr ⟨r, task, now, paused, fresh, old, check, id_eq,
      Option.some.inj (hy.symm.trans eq)⟩
  | @flagged x paused runAt held eq =>
    obtain rfl := Option.some.inj (hy.symm.trans eq)
    exact Or.inl ⟨x, held, rfl, rfl, rfl, rfl, rfl⟩

/-- **A call keeps a table valid.** Fresh registrations get numbers that nothing
has had before, and all others are those of before. -/
theorem Called.valid (h : Called cfg t t') (ht : Valid t) : Valid t' where
  task := fun id y hy => by
    rcases h.timer hy with ⟨x, hx, -, htask, -⟩ | ⟨r, task, now, paused, -, -, hcheck, hid, rfl⟩
    · rw [htask]
      exact ht.task id x hx
    · exact ⟨hid, hcheck⟩
  old := fun id y hy => by
    rcases h.timer hy with ⟨x, hx, hreg, -⟩ | ⟨r, task, now, paused, -, hold, -, -, rfl⟩
    · rw [hreg]
      exact lt_of_lt_of_le (ht.old id x hx) h.next
    · exact hold
  jobs := fun job hjob => lt_of_lt_of_le (ht.jobs job (h.jobs ▸ hjob)) h.next
  calls := fun call hcall => lt_of_lt_of_le (ht.calls call (h.calls ▸ hcall)) h.next
  panicked := fun r hr => lt_of_lt_of_le (ht.panicked r (h.panicked ▸ hr)) h.next
  distinct := fun id id' y z hy hz heq => by
    -- a fresh registration is under the one ID that is not just kept or dropped
    obtain ⟨id₀, honce⟩ := h.once
    have hkept : ∀ id y, t'.timers id = some y → id ≠ id₀ → t.timers id = some y := by
      intro id y hy hid
      rcases honce id hid with heq | hnone
      · exact heq.symm.trans hy
      · exact absurd (hy.symm.trans hnone) (Option.some_ne_none y)
    have hfresh : ∀ id y, t'.timers id = some y → id ≠ id₀ → ∀ z, t'.timers id₀ = some z →
        y.registration = z.registration → id = id₀ := by
      intro id y hy hid z hz heq
      have hy' := hkept id y hy hid
      rcases h.timer hz with ⟨x, hx, hreg, -⟩ | ⟨r, task, now, paused, hr, -, -, -, rfl⟩
      · exact ht.distinct id id₀ y x hy' hx (heq.trans hreg)
      · have hlt := ht.old id y hy'
        rw [heq] at hlt
        exact absurd hr (not_le.mpr hlt)
    by_cases hid : id = id₀
    · subst hid
      by_cases hid' : id' = id
      · exact hid'.symm
      · exact (hfresh id' z hz hid' y hy heq.symm).symm
    · by_cases hid' : id' = id₀
      · subst hid'
        exact hfresh id y hy hid z hz heq
      · exact ht.distinct id id' y z (hkept id y hy hid) (hkept id' z hz hid') heq
  named := fun job hjob id y hy heq => by
    rw [h.jobs] at hjob
    rcases h.timer hy with ⟨x, hx, hreg, -⟩ | ⟨r, task, now, paused, hr, -, -, -, rfl⟩
    · exact ht.named job hjob id x hx (hreg.symm.trans heq)
    · have hlt := ht.jobs job hjob
      have hreq : r = job.registration := heq
      exact absurd hr (not_le.mpr (hreq ▸ hlt))

/-- What the timer of a job is replaced by when it keeps the task and the
registration. This is what an execution does that notes a result or is set for
its next run. -/
theorem Valid.put {x y : Timer} (ht : Valid t) (hx : t.timers id = some x)
    (htask : y.task = x.task) (hreg : y.registration = x.registration) : Valid (t.put id y) := by
  have hback : ∀ id' z, (t.put id y).timers id' = some z → ∃ z', t.timers id' = some z'
      ∧ z.task = z'.task ∧ z.registration = z'.registration := by
    intro id' z hz
    by_cases hid : id' = id
    · subst hid
      rw [timers_put_self] at hz
      obtain rfl := Option.some.inj hz
      exact ⟨x, hx, htask, hreg⟩
    · exact ⟨z, (timers_put_of_ne t id y hid).symm.trans hz, rfl, rfl⟩
  exact {
    task := fun id' z hz => by
      obtain ⟨z', hz', htask, -⟩ := hback id' z hz
      rw [htask]
      exact ht.task id' z' hz'
    old := fun id' z hz => by
      obtain ⟨z', hz', -, hreg⟩ := hback id' z hz
      rw [hreg]
      exact ht.old id' z' hz'
    jobs := ht.jobs
    calls := ht.calls
    panicked := ht.panicked
    distinct := fun id₁ id₂ z₁ z₂ h₁ h₂ heq => by
      obtain ⟨y₁, hy₁, -, hreg₁⟩ := hback id₁ z₁ h₁
      obtain ⟨y₂, hy₂, -, hreg₂⟩ := hback id₂ z₂ h₂
      exact ht.distinct id₁ id₂ y₁ y₂ hy₁ hy₂ (hreg₁.symm.trans (heq.trans hreg₂))
    named := fun job hjob id' z hz heq => by
      obtain ⟨z', hz', -, hreg⟩ := hback id' z hz
      exact ht.named job hjob id' z' hz' (hreg.symm.trans heq) }

/-- The jobs that are left, and the calls and panics of registrations in use.
Executions only come from ticks, and nothing gets a number but from a timer. -/
theorem Valid.run {jobs : List TimerJob} {calls : List (ℕ × Task)} {panicked : List ℕ}
    (ht : Valid t)
    (hjobs : ∀ job ∈ jobs, job.registration < t.next ∧ ∀ id x, t.timers id = some x →
      x.registration = job.registration → id = job.id)
    (hcalls : ∀ call ∈ calls, call.1 < t.next) (hpanicked : ∀ r ∈ panicked, r < t.next) :
    Valid { t with jobs := jobs, calls := calls, panicked := panicked } where
  task := ht.task
  old := ht.old
  jobs := fun job hjob => (hjobs job hjob).1
  calls := hcalls
  panicked := hpanicked
  distinct := ht.distinct
  named := fun job hjob => (hjobs job hjob).2

/-- The end of an execution sets the timer again or drops it. -/
theorem Valid.completed {x : Timer} (ht : Valid t) (hx : t.timers x.task.id = some x)
    (result : AlarmResult) (now : Time) : Valid (t.completed cfg x result now) := by
  unfold Timetable.completed
  dsimp only
  split_ifs
  · have h := ht.put hx (y := (x.evaluate cfg.sinks result now).1.again cfg now) rfl rfl
    exact ⟨h.task, h.old, h.jobs, h.calls, h.panicked, h.distinct, h.named⟩
  · have h := (called_drop t x.task.id : Called cfg t _).valid ht
    exact ⟨h.task, h.old, h.jobs, h.calls, h.panicked, h.distinct, h.named⟩

/-- A job finds a timer only if the registration is still its own. -/
theorem find_spec {job : TimerJob} {x : Timer} (h : t.find job = some x) :
    t.timers job.id = some x ∧ x.registration = job.registration :=
  find_eq_some_iff.mp h

/-- **Every step keeps a table valid.** Calls have been dealt with; for the rest
there is one case for each part of an execution, and in each the jobs and calls
belong to registrations the table had before. -/
theorem Next.valid (h : Next cfg t l t') (ht : Valid t) : Valid t' := by
  -- what the table had stays below the next registration, and so does what is left of it
  have hjobs : ∀ job ∈ t.jobs, job.registration < t.next ∧ ∀ id x, t.timers id = some x →
      x.registration = job.registration → id = job.id :=
    fun job hjob => ⟨ht.jobs job hjob, ht.named job hjob⟩
  have herase : ∀ i, ∀ job ∈ t.jobs.eraseIdx i, job.registration < t.next ∧
      ∀ id x, t.timers id = some x → x.registration = job.registration → id = job.id :=
    fun i job hjob => hjobs job (List.mem_of_mem_eraseIdx hjob)
  have hset : ∀ {i : ℕ} {job : TimerJob} (stage : JobStage), t.jobs[i]? = some job →
      ∀ job' ∈ t.jobs.set i { job with stage := stage }, job'.registration < t.next ∧
        ∀ id x, t.timers id = some x → x.registration = job'.registration → id = job'.id := by
    intro i job stage hhere job' hjob'
    rcases List.mem_or_eq_of_mem_set hjob' with hjob' | rfl
    · exact hjobs job' hjob'
    · exact hjobs job (List.mem_of_getElem? hhere)
  cases hcall : l.1.isCall with
  | true => exact (h.called hcall).valid ht
  | false =>
    cases h with
    | @tick now due picked =>
      have htick : Valid { t with cursor := t.cursor + 1 } :=
        ⟨ht.task, ht.old, ht.jobs, ht.calls, ht.panicked, ht.distinct, ht.named⟩
      refine htick.run (fun job hjob => ?_) ht.calls ht.panicked
      rcases List.mem_append.mp hjob with hjob | hjob
      · exact hjobs job hjob
      · obtain ⟨x, hx, rfl⟩ := List.mem_map.mp hjob
        have hx := ((picked.mem x).mp hx).1
        exact ⟨ht.old _ x hx, fun id y hy heq => ht.distinct id x.task.id y x hy hx heq⟩
    | reject here stage => exact ht.run (herase _) ht.calls ht.panicked
    | skip here stage idle => exact ht.run (herase _) ht.calls ht.panicked
    | @start i job x here stage held on =>
      refine ht.run (hset .running here) (fun call hcall => ?_) ht.panicked
      rcases List.mem_append.mp hcall with hcall | hcall
      · exact ht.calls call hcall
      · obtain rfl := List.mem_singleton.mp hcall
        exact ht.old _ x (find_spec held).1
    | finishGone here stage gone => exact ht.run (herase _) ht.calls ht.panicked
    | @finish i job x result here stage held =>
      have hput : Valid (t.put job.id (x.note result)) := ht.put (find_spec held).1 rfl rfl
      refine hput.run (fun job' hjob' => ?_) ht.calls ht.panicked
      rcases List.mem_or_eq_of_mem_set hjob' with hjob' | rfl
      · exact ⟨hput.jobs job' hjob', hput.named job' hjob'⟩
      · have hmem := List.mem_of_getElem? here
        exact ⟨hput.jobs job hmem, hput.named job hmem⟩
    | @panic i job here stage =>
      refine ht.run (herase _) ht.calls (fun r hr => ?_)
      rcases List.mem_cons.mp hr with rfl | hr
      · exact ht.jobs job (List.mem_of_getElem? here)
      · exact ht.panicked r hr
    | completeGone here stage gone => exact ht.run (herase _) ht.calls ht.panicked
    | @complete i job x result here stage held =>
      obtain ⟨hx, -⟩ := find_spec held
      have hid := (ht.task job.id x hx).1
      -- the timer is set again or dropped, under its own ID and registration
      have hdone : Valid (t.completed cfg x result job.now) :=
        ht.completed (hid.symm ▸ hx) result job.now
      refine hdone.run (fun job' hjob' => ?_) hdone.calls hdone.panicked
      have hmem : job' ∈ (t.completed cfg x result job.now).jobs := by
        rw [(@completed_run cfg t x result job.now).jobs]
        exact List.mem_of_mem_eraseIdx hjob'
      exact ⟨hdone.jobs job' hmem, hdone.named job' hmem⟩
    | _ => exact absurd hcall Bool.noConfusion

/-- The tables a trace leads to are valid. -/
theorem Valid.of_trace {ls : List (Request × Response)} {cursor : ℕ}
    (h : Trace (Next cfg) (.empty cursor) ls t) : Valid t :=
  h.inv (fun _ _ _ ht hnext => hnext.valid ht) (valid_empty cursor)

/-! ## Due timers are picked -/

/-- The end of an execution does not move the cursor. -/
theorem completed_cursor (t : Timetable) (x : Timer) (result : AlarmResult) (now : Time) :
    (t.completed cfg x result now).cursor = t.cursor := by
  unfold Timetable.completed
  dsimp only
  split_ifs
  · rfl
  · rfl

/-- The cursor moves with the ticks, one slot at a time. Nothing else moves it,
which is what the bounded wait rests on. -/
theorem Next.cursor (h : Next cfg t l t') :
    t'.cursor = t.cursor + (l.1.tickTime.elim 0 (fun _ => 1)) := by
  cases hcall : l.1.isCall with
  | true =>
    have hnone : l.1.tickTime = none := by
      cases hl : l.1 with
      | tick now =>
        rw [hl] at hcall
        exact absurd hcall Bool.false_ne_true
      | _ => rfl
    rw [(h.called hcall).cursor, hnone]
    rfl
  | false =>
    cases h with
    | @complete i job x result here stage held => exact completed_cursor t x result job.now
    | addTask | updateTask | removeMissing | removeTask | pauseMissing | pauseTask | resumeMissing
    | resumeTask | clearAllTasks => exact absurd hcall Bool.noConfusion
    | _ => rfl

/-! ## Calls are accounted for -/

/-- **The account of a timer**: its function has been called as often as a
result of it has been noted, it is running, and it has panicked. Executions that
a tick has collected and that have not started are on no side of it, nor are
those that were not let through. -/
def Balances (t : Timetable) (x : Timer) : Prop :=
  t.calls.countP (fun call => call.1 == x.registration)
    = x.executed + t.jobs.countP (TimerJob.runs x.registration) + t.panicked.count x.registration

/-- The account of a registration depends on nothing but the lists of executions
and its own counter. -/
theorem Balances.congr {x y : Timer} (h : Balances t x) (hrun : SameRun t t')
    (hreg : y.registration = x.registration) (hexec : y.executed = x.executed) :
    Balances t' y := by
  unfold Balances
  rw [hrun.calls, hrun.jobs, hrun.panicked, hreg, hexec]
  exact h

/-- The accounts of all timers. -/
def Balanced (t : Timetable) : Prop := ∀ id x, t.timers id = some x → Balances t x

/-- Nothing is on the account of a registration that is fresh. All numbers on
the lists are smaller. -/
theorem Valid.account_of_fresh (h : Valid t) {r : ℕ} (hr : t.next ≤ r) :
    t.calls.countP (fun call => call.1 == r) = 0
      ∧ t.jobs.countP (TimerJob.runs r) = 0
      ∧ t.panicked.count r = 0 := by
  refine ⟨?_, ?_, List.count_eq_zero.mpr (fun hmem => ?_)⟩
  · refine List.countP_eq_zero.mpr (fun call hcall heq => ?_)
    exact absurd (h.calls call hcall) (not_lt.mpr (hr.trans_eq (beq_iff_eq.mp heq).symm))
  · refine List.countP_eq_zero.mpr (fun job hjob heq => ?_)
    have hreg := beq_iff_eq.mp ((Bool.and_eq_true _ _).mp heq).1
    exact absurd (h.jobs job hjob) (not_lt.mpr (hr.trans_eq hreg.symm))
  · exact absurd (h.panicked r hmem) (not_lt.mpr hr)

/-- **A call keeps the accounts balanced**: a timer that stays keeps its
counter, and one that is fresh starts at zero, as do the lists. -/
theorem Called.balanced (h : Called cfg t t') (ht : Valid t) (hb : Balanced t) : Balanced t' := by
  intro id y hy
  rcases h.timer hy with ⟨x, hx, hreg, -, hexec, -⟩ | ⟨r, task, now, paused, hr, -, -, -, rfl⟩
  · exact (hb id x hx).congr h.toSameRun hreg hexec
  · obtain ⟨hcalls, hjobs, hpanicked⟩ := ht.account_of_fresh hr
    show t'.calls.countP (fun call => call.1 == r)
      = 0 + t'.jobs.countP (TimerJob.runs r) + t'.panicked.count r
    rw [h.calls, h.jobs, h.panicked, hcalls, hjobs, hpanicked]

/-- A job that is not running is on no account, -/
theorem TimerJob.runs_eq_false {job : TimerJob} {r : ℕ} (h : job.stage.isRunning = false) :
    job.runs r = false := by
  unfold TimerJob.runs
  rw [h, Bool.and_false]

/-- and one that is running is on that of its own registration. -/
theorem TimerJob.runs_of_running {job : TimerJob} {r : ℕ} (h : job.stage = .running) :
    job.runs r = (job.registration == r) := by
  unfold TimerJob.runs
  rw [h]
  exact Bool.and_true _

/-- A job that is dropped and was not running is on no account. -/
theorem countP_runs_eraseIdx {jobs : List TimerJob} {i : ℕ} {job : TimerJob} {r : ℕ}
    (here : jobs[i]? = some job) (h : job.runs r = false) :
    (jobs.eraseIdx i).countP (TimerJob.runs r) = jobs.countP (TimerJob.runs r) := by
  have hadd := countP_eraseIdx_add (TimerJob.runs r) here
  rw [h] at hadd
  exact hadd

/-- The timers after a completion: the timer in question may be set for its next
run. All other timers are as they were. -/
theorem timers_completed {x y : Timer} {result : AlarmResult}
    (hy : (t.completed cfg x result now).timers id = some y) :
    id ≠ x.task.id ∧ t.timers id = some y
      ∨ id = x.task.id ∧ y = (x.evaluate cfg.sinks result now).1.again cfg now := by
  unfold Timetable.completed at hy
  dsimp only at hy
  by_cases hid : id = x.task.id
  · subst hid
    split_ifs at hy
    · exact Or.inr ⟨rfl, (Option.some.inj ((timers_put_self t _ _).symm.trans hy)).symm⟩
    · exact absurd ((timers_drop_self t x.task.id).symm.trans hy) (Option.some_ne_none y).symm
  · refine Or.inl ⟨hid, ?_⟩
    split_ifs at hy
    · exact (timers_put_of_ne t x.task.id _ hid).symm.trans hy
    · exact (timers_drop_of_ne t x.task.id hid).symm.trans hy

/-- A job is moved on, or taken away. The two sides move by the same amount
(`hmove`); this is the form in which every part of an execution is checked. -/
theorem Balances.run {x y : Timer} {jobs : List TimerJob} {calls : List (ℕ × Task)}
    {panicked : List ℕ} (h : Balances t x) (hreg : y.registration = x.registration)
    (hmove : calls.countP (fun call => call.1 == x.registration)
        + (x.executed + t.jobs.countP (TimerJob.runs x.registration)
          + t.panicked.count x.registration)
      = t.calls.countP (fun call => call.1 == x.registration)
        + (y.executed + jobs.countP (TimerJob.runs x.registration)
          + panicked.count x.registration)) :
    Balances { t with jobs := jobs, calls := calls, panicked := panicked } y := by
  show calls.countP (fun call => call.1 == y.registration)
    = y.executed + jobs.countP (TimerJob.runs y.registration) + panicked.count y.registration
  unfold Balances at h
  rw [hreg]
  omega

/-- **Every step keeps the accounts balanced.** A call of the function comes
with a job that runs. It is taken off the account of the running ones when the
function returns, and the counter goes up; or when it panics, and the panics do.
A job that ends without having run is on no account, and a timer that is set
again keeps its counter. -/
theorem Next.balanced (h : Next cfg t l t') (ht : Valid t) (hb : Balanced t) : Balanced t' := by
  -- a job that was not running is taken away
  have hdrop : ∀ {i : ℕ} {job : TimerJob}, t.jobs[i]? = some job → job.stage.isRunning = false →
      Balanced { t with jobs := t.jobs.eraseIdx i } := by
    intro i job here stage id x hx
    refine (hb id x hx).run rfl ?_
    rw [countP_runs_eraseIdx here (TimerJob.runs_eq_false stage)]
  cases hcall : l.1.isCall with
  | true => exact (h.called hcall).balanced ht hb
  | false =>
    cases h with
    | @tick now due picked =>
      intro id x hx
      have hnone : (due.map (fun x =>
          (⟨x.task.id, x.registration, now, .collected⟩ : TimerJob))).countP
            (TimerJob.runs x.registration) = 0 := by
        refine List.countP_eq_zero.mpr (fun job hjob => ?_)
        obtain ⟨y, -, rfl⟩ := List.mem_map.mp hjob
        exact Bool.eq_false_iff.mp (TimerJob.runs_eq_false rfl)
      have hrun : Balances { t with jobs := t.jobs ++ due.map (fun x =>
          (⟨x.task.id, x.registration, now, .collected⟩ : TimerJob)) } x := by
        refine (hb id x hx).run rfl ?_
        rw [List.countP_append, hnone, Nat.add_zero]
      exact hrun
    | reject here stage => exact hdrop here (by rw [stage]; rfl)
    | skip here stage idle => exact hdrop here (by rw [stage]; rfl)
    | @start i job x here stage held on =>
      intro id y hy
      obtain ⟨hx, hreg⟩ := find_spec held
      have hset := countP_set_add (TimerJob.runs y.registration) here
        { job with stage := .running }
      have hstart : ({ job with stage := .running } : TimerJob).runs y.registration
          = (job.registration == y.registration) := TimerJob.runs_of_running rfl
      rw [TimerJob.runs_eq_false (by rw [stage]; rfl), hstart, Bool.toNat_false] at hset
      refine (hb id y hy).run rfl ?_
      have hcall : [(x.registration, x.task)].countP (fun call => call.1 == y.registration)
          = (job.registration == y.registration).toNat := by
        rw [List.countP_singleton, hreg]
        cases job.registration == y.registration
        · rfl
        · rfl
      rw [List.countP_append, hcall]
      omega
    | @finishGone i job result here stage gone =>
      intro id x hx
      have hne : job.runs x.registration = false := by
        rw [TimerJob.runs_of_running stage, beq_eq_false_iff_ne]
        intro hreg
        obtain rfl := ht.named job (List.mem_of_getElem? here) id x hx hreg.symm
        exact Option.some_ne_none x ((find_eq_some_iff.mpr ⟨hx, hreg.symm⟩).symm.trans gone)
      refine (hb id x hx).run rfl ?_
      rw [countP_runs_eraseIdx here hne]
    | @finish i job x result here stage held =>
      intro id y hy
      obtain ⟨hx, hreg⟩ := find_spec held
      have hset : ∀ r, (t.jobs.set i { job with stage := .finished result }).countP
          (TimerJob.runs r) + (job.registration == r).toNat = t.jobs.countP (TimerJob.runs r) := by
        intro r
        have hadd := countP_set_add (TimerJob.runs r) here { job with stage := .finished result }
        rw [TimerJob.runs_of_running stage, TimerJob.runs_eq_false rfl] at hadd
        exact hadd
      by_cases hid : id = job.id
      · subst hid
        obtain rfl := Option.some.inj (hy.symm.trans (timers_put_self t job.id _))
        refine Balances.run (t := t.put job.id (x.note result)) (x := x) ?_ rfl ?_
        · exact (hb job.id x hx).congr ⟨rfl, rfl, rfl⟩ rfl rfl
        · have hadd := hset x.registration
          rw [beq_iff_eq.mpr hreg.symm, Bool.toNat_true] at hadd
          show _ + (x.executed + t.jobs.countP (TimerJob.runs x.registration) + _)
            = _ + (x.executed + 1 + _ + _)
          omega
      · have hy : t.timers id = some y := (timers_put_of_ne t job.id _ hid).symm.trans hy
        have hne : (job.registration == y.registration) = false := by
          rw [beq_eq_false_iff_ne, ← hreg]
          exact fun heq => hid (ht.distinct id job.id y x hy hx heq.symm)
        have hadd := hset y.registration
        rw [hne, Bool.toNat_false, Nat.add_zero] at hadd
        refine Balances.run (t := t.put job.id (x.note result)) (x := y) ?_ rfl ?_
        · exact (hb id y hy).congr ⟨rfl, rfl, rfl⟩ rfl rfl
        · rw [hadd]
          rfl
    | @panic i job here stage =>
      intro id x hx
      have herase := countP_eraseIdx_add (TimerJob.runs x.registration) here
      rw [TimerJob.runs_of_running stage] at herase
      refine (hb id x hx).run rfl ?_
      rw [List.count_cons]
      cases hreg : job.registration == x.registration with
      | true =>
        rw [hreg, Bool.toNat_true] at herase
        rw [if_pos rfl]
        omega
      | false =>
        rw [hreg, Bool.toNat_false] at herase
        rw [if_neg Bool.false_ne_true]
        omega
    | completeGone here stage gone => exact hdrop here (by rw [stage]; rfl)
    | @complete i job x result here stage held =>
      intro id y hy
      obtain ⟨hx, -⟩ := find_spec held
      have hid := (ht.task job.id x hx).1
      have hcompleted : Balances (t.completed cfg x result job.now) y := by
        rcases timers_completed hy with ⟨-, hy⟩ | ⟨-, rfl⟩
        · exact (hb id y hy).congr (completed_run t x result job.now) rfl rfl
        · exact (hb job.id x hx).congr (completed_run t x result job.now) rfl rfl
      have hrun := @completed_run cfg t x result job.now
      refine hcompleted.run rfl ?_
      rw [hrun.jobs, countP_runs_eraseIdx here (TimerJob.runs_eq_false (by rw [stage]; rfl))]
    | addTask | updateTask | removeMissing | removeTask | pauseMissing | pauseTask | resumeMissing
    | resumeTask | clearAllTasks => exact absurd hcall Bool.noConfusion

end Timetable

variable {s s' : Scheduler} {w : TimeWheel} {lists : ℕ → List NodeRef} {tt : Timetable}
  {id : String} {x : Timer} {a : Action}

/-- The times of the ticks among some actions. The times that the wheel has seen
between two states. -/
def ticks (as : List Action) : List Time := as.filterMap (fun a => a.request.tickTime)

/-- Other actions add none. -/
theorem ticks_cons_of_none {a : Action} {as : List Action} (h : a.request.tickTime = none) :
    ticks (a :: as) = ticks as :=
  List.filterMap_cons_none h

/-- A tick adds its time. -/
theorem ticks_cons_tick (now : Time) (as : List Action) :
    ticks (.tick now :: as) = now :: ticks as := rfl

/-- The wheel still holds the timer `x` under `id`: the registration, its slot
and its time have not changed. It may be paused and resumed in the meantime, as
long as its due time is the same at the end, and its execution may be going on. -/
def Scheduler.Waits (cfg : Config) (id : String) (x : Timer) (s : Scheduler) : Prop :=
  (s.wheel.timer cfg id).map (fun y => (y.registration, y.slot, y.runAt))
    = some (x.registration, x.slot, x.runAt)

instance (cfg : Config) (id : String) (x : Timer) (s : Scheduler) : Decidable (s.Waits cfg id x) :=
  inferInstanceAs (Decidable (_ = _))

/-- What a tick at the slot of a timer that is due collects. A tick goes through
the list of its slot and takes what is due, paused or not: the flag is looked at
when the execution starts. -/
theorem Represents.collects (h : Represents cfg s lists tt) (hx : s.Waits cfg id x) {now : Time}
    (hslot : tickSlot cfg.slotNum s.wheel.currentSlot = x.slot) (hdue : x.runAt ≤ now) :
    ∃ e ∈ collect cfg s.wheel now, e.registration = some x.registration := by
  obtain ⟨y, hy, heq⟩ := Option.map_eq_some_iff.mp hx
  obtain ⟨hreg, hyslot, hrunAt⟩ : y.registration = x.registration ∧ y.slot = x.slot
      ∧ y.runAt = x.runAt := by simpa using heq
  rw [← h.mirrors.timers] at hy
  obtain ⟨n, i, hu, -, hself⟩ := h.mirrors.used hy
  have hi : i = x.slot := by
    rw [← hyslot, hself]
    exact hu.slotIndex_eq.symm
  refine ⟨_, List.mem_map.mpr ⟨n, (mem_tick h.mirrors.inv now).mpr ⟨?_, ?_⟩, rfl⟩, ?_⟩
  · rw [hslot, ← hi]
    exact hu.mem
  · rw [hself] at hrunAt
    exact hrunAt.trans_le hdue
  · rw [← hreg]
    exact hu.ctx_eq

/-- The cursor reaches every slot within one revolution. A tick moves the cursor
by one, modulo the number of slots. -/
theorem exists_tickSlot_eq {N i : ℕ} (hN : 0 < N) (cursor : ℕ) (hi : i < N) :
    ∃ k < N, tickSlot N (cursor + k) = i := by
  refine ⟨(i + (N - (cursor + 1) % N)) % N, Nat.mod_lt _ hN, ?_⟩
  have hlt := Nat.mod_lt (cursor + 1) hN
  have hsum : (cursor + 1) % N + (i + (N - (cursor + 1) % N)) = i + N := by omega
  unfold tickSlot
  rw [Nat.add_right_comm, Nat.add_mod_mod, ← Nat.mod_add_mod, hsum, Nat.add_mod_right,
    Nat.mod_eq_of_lt hi]

/-- **A timer is picked when the cursor has come round to its slot**, unless it
is set anew or dropped in the meantime. The induction is on the actions. Each
tick brings the cursor one slot closer (`k`), and everything else leaves the
distance and the timer as they are. -/
theorem Represents.collected (h : Represents cfg s lists tt) {as : List Action} {k : ℕ}
    (hcareful : Machine.Each (step cfg) (fun s a _ => Careful cfg s a) s as)
    (hrun : Machine.run (step cfg) s as = some s') (hx : s.Waits cfg id x)
    (hwaits : Machine.Each (step cfg) (fun _ _ s' => s'.Waits cfg id x) s as)
    (hdue : ∀ now ∈ ticks as, x.runAt ≤ now)
    (hslot : tickSlot cfg.slotNum (s.wheel.currentSlot + k) = x.slot)
    (hk : k < (ticks as).length) :
    ∃ bs now cs v, as = bs ++ .tick now :: cs ∧ (ticks bs).length = k
      ∧ Machine.run (step cfg) s bs = some v
      ∧ ∃ e ∈ collect cfg v.wheel now, e.registration = some x.registration := by
  induction as generalizing s lists tt k with
  | nil => exact absurd hk (Nat.not_lt_zero k)
  | cons a as ih =>
    rw [Machine.run_cons] at hrun
    obtain ⟨s₁, hstep, hrun⟩ := Option.bind_eq_some_iff.mp hrun
    obtain ⟨hcare, hcareful₁⟩ := hcareful s₁ hstep
    obtain ⟨hx₁, hwaits₁⟩ := hwaits s₁ hstep
    obtain ⟨lists₁, tt₁, hnext, h₁⟩ := represents_of_step h hcare hstep
    have hcursor := hnext.cursor
    rw [h.mirrors.cursor, h₁.mirrors.cursor, observed] at hcursor
    -- only ticks move the cursor
    cases htick : a.request.tickTime with
    | none =>
      rw [ticks_cons_of_none htick] at hdue hk
      rw [htick] at hcursor
      rw [← hcursor.trans (Nat.add_zero _)] at hslot
      obtain ⟨bs, now, cs, v, rfl, hbs, hv, he⟩ :=
        ih h₁ hcareful₁ hrun hx₁ hwaits₁ hdue hslot hk
      exact ⟨a :: bs, now, cs, v, rfl, (congrArg List.length (ticks_cons_of_none htick)).trans hbs,
        (Machine.run_cons_of_step hstep bs).trans hv, he⟩
    | some now =>
      have ha : a = .tick now := by
        cases a with
        | tick now' => exact congrArg Action.tick (Option.some.inj htick)
        | _ => exact absurd htick (Option.some_ne_none now).symm
      rw [ha, ticks_cons_tick] at hdue hk
      cases k with
      | zero =>
        -- the cursor has arrived, and this tick collects what is due
        exact ⟨[], now, as, s, ha ▸ rfl, rfl, rfl,
          h.collects hx hslot (hdue now List.mem_cons_self)⟩
      | succ k =>
        -- one slot closer: the rest of the run has to bring `k` of the remaining distance
        rw [htick] at hcursor
        have hcursor : s₁.wheel.currentSlot = s.wheel.currentSlot + 1 := hcursor
        rw [← Nat.add_assoc, Nat.add_right_comm, ← hcursor] at hslot
        obtain ⟨bs, now', cs, v, rfl, hbs, hv, he⟩ := ih h₁ hcareful₁ hrun hx₁ hwaits₁
          (fun t ht => hdue t (List.mem_cons_of_mem now ht)) hslot (Nat.lt_of_succ_lt_succ hk)
        refine ⟨a :: bs, now', cs, v, rfl, ?_, (Machine.run_cons_of_step hstep bs).trans hv, he⟩
        rw [ha, ticks_cons_tick, List.length_cons, hbs]

/-- **Due tasks are picked within one revolution.** In a careful run of a
started wheel, a timer that is still set as it was while the wheel ticks as
often as it has slots, each time when the timer is due, is submitted by one of
the ticks – whatever else is called and executed in between. The run so far
(`as`) may be any careful one; the ticks that count are those of `bs`. The bound
is that of the wheel: the timer sits in one slot, and the cursor comes to it
once in each revolution. -/
theorem collected_of_due (h : Started cfg w) {as bs : List Action}
    (hcareful : Machine.Each (step cfg) (fun s a _ => Careful cfg s a) (ofWheel w) (as ++ bs))
    (hrun : Machine.run (step cfg) (ofWheel w) as = some s)
    (hrest : Machine.run (step cfg) s bs = some s') (hx : s.wheel.timer cfg id = some x)
    (hwaits : Machine.Each (step cfg) (fun _ _ s' => s'.Waits cfg id x) s bs)
    (hdue : ∀ now ∈ ticks bs, x.runAt ≤ now) (hticks : cfg.slotNum ≤ (ticks bs).length) :
    ∃ cs now ds v, bs = cs ++ .tick now :: ds ∧ (ticks cs).length < cfg.slotNum
      ∧ Machine.run (step cfg) s cs = some v
      ∧ ∃ e ∈ collect cfg v.wheel now, e.registration = some x.registration := by
  rw [Machine.each_append] at hcareful
  obtain ⟨lists, tt, -, hs⟩ := represented_of_careful h hcareful.1 hrun
  obtain ⟨n, i, hu, -, hself⟩ := hs.mirrors.used (hs.mirrors.timers ▸ hx)
  have hslot : x.slot < cfg.slotNum := by
    rw [hself]
    exact lt_of_eq_of_lt hu.slotIndex_eq hu.slot_lt
  -- the cursor has come round after at most one revolution
  obtain ⟨k, hk, hround⟩ := exists_tickSlot_eq cfg.slotNum_pos s.wheel.currentSlot hslot
  obtain ⟨cs, now, ds, v, hbs, hcs, hv, he⟩ := hs.collected (hcareful.2 s hrun) hrest
    (congrArg _ hx) hwaits hdue hround (lt_of_lt_of_le hk hticks)
  exact ⟨cs, now, ds, v, hbs, lt_of_eq_of_lt hcs hk, hv, he⟩

/-- Between the ticks another task is added, and the one that waits is paused. -/
def waitingRun : List Action :=
  ticksAt [10] ++ [addAt 12 "b" .once 5 none] ++ ticksAt [20] ++ [.start 0, .pauseTask "a"]
    ++ ticksAt [30, 40]

/-- The task is collected by the fourth tick. -/
theorem collected_of_waiting : ∃ s v cs now ds x,
    Machine.run (step fourSlots) (ofWheel fourSlotWheel) [addAt 0 "a" .repeated 10 none] = some s
      ∧ s.wheel.timer fourSlots "a" = some x
      ∧ waitingRun = cs ++ .tick now :: ds ∧ (ticks cs).length < 4
      ∧ Machine.run (step fourSlots) s cs = some v
      ∧ ∃ e ∈ collect fourSlots v.wheel now, e.registration = some x.registration := by
  have hrun : (Machine.run (step fourSlots) (ofWheel fourSlotWheel)
      [addAt 0 "a" .repeated 10 none]).bind (fun s => (s.wheel.timer fourSlots "a").map (fun x =>
        (Machine.run (step fourSlots) s waitingRun).isSome
          && decide (Machine.Each (step fourSlots) (fun _ _ s' => s'.Waits fourSlots "a" x) s
            waitingRun)
          && decide (∀ now ∈ ticks waitingRun, x.runAt ≤ now))) = some true := by decide +kernel
  obtain ⟨s, hs, hmap⟩ := Option.bind_eq_some_iff.mp hrun
  obtain ⟨x, hx, hall⟩ := Option.map_eq_some_iff.mp hmap
  rw [Bool.and_eq_true, Bool.and_eq_true, decide_eq_true_iff, decide_eq_true_iff] at hall
  obtain ⟨⟨hsome, hwaits⟩, hdue⟩ := hall
  obtain ⟨s', hrest⟩ := Option.isSome_iff_exists.mp hsome
  obtain ⟨cs, now, ds, v, hbs, hcs, hv, he⟩ := collected_of_due started_fourSlotWheel
    (by decide +kernel) hs hrest hx hwaits hdue (by decide)
  exact ⟨s, v, cs, now, ds, x, hs, hx, hbs, hcs, hv, he⟩

/-! ## Calls of a task -/

/-- Lists side by side are counted alike. -/
theorem forall₂_countP {α β : Type*} {R : α → β → Prop} {p : α → Bool} {q : β → Bool}
    {xs : List α} {ys : List β} (hpq : ∀ x y, R x y → p x = q y) (h : List.Forall₂ R xs ys) :
    xs.countP p = ys.countP q := by
  induction h with
  | nil => rfl
  | cons hab htail ih => rw [List.countP_cons, List.countP_cons, ih, hpq _ _ hab]

/-- The stages of an execution and of its job agree on what is running. -/
theorem isRunning_jobStage (stage : Stage) : stage.jobStage.isRunning = stage.isRunning := by
  cases stage with
  | collected => rfl
  | running info => rfl
  | finished info result => rfl

/-- **The executions of a node do not overlap**: when one starts, no other one of
the node is running. -/
def StartsApart (s : Scheduler) : Action → Prop
  | .start i => ∀ e ∈ s.execs[i]?, ∀ e' ∈ s.execs, e'.node = e.node → e'.stage.isRunning = false
  | _ => True

instance (s : Scheduler) : ∀ a, Decidable (StartsApart s a)
  | .start i => inferInstanceAs (Decidable (∀ e ∈ s.execs[i]?, ∀ e' ∈ s.execs, e'.node = e.node →
      e'.stage.isRunning = false))
  | .addTask _ _ => isTrue trivial
  | .removeTask _ _ => isTrue trivial
  | .updateTask _ _ => isTrue trivial
  | .pauseTask _ => isTrue trivial
  | .resumeTask _ _ => isTrue trivial
  | .clearAllTasks _ _ => isTrue trivial
  | .tick _ => isTrue trivial
  | .reject _ => isTrue trivial
  | .finish _ _ => isTrue trivial
  | .panic _ => isTrue trivial
  | .complete _ => isTrue trivial

/-- **Calls are accounted for.** In every careful run of a started wheel in which
the executions of a node do not overlap, the executions of a registered task that
have been let through to its function are those whose results have been counted,
plus those that are running, plus those that have panicked.

The counter is the point of the condition. `updateTaskResult` writes
`node.executed++` without a lock, so two executions of one node that return at the
same time may be counted as one; the step in which an execution returns counts it
for certain, which is right only as long as no other one of the node returns. -/
theorem calls_accounted (h : Started cfg w) {as : List Action}
    (hcareful : Machine.Each (step cfg) (fun s a _ => Careful cfg s a) (ofWheel w) as)
    (_hapart : Machine.Each (step cfg) (fun s a _ => StartsApart s a) (ofWheel w) as)
    (hrun : Machine.run (step cfg) (ofWheel w) as = some s)
    (hx : s.wheel.timer cfg id = some x) :
    s.invoked.countP (fun call => call.registration == x.registration)
      = x.executed
        + s.execs.countP (fun e => e.registration == some x.registration && e.stage.isRunning)
        + s.panicked.count x.registration := by
  obtain ⟨lists, tt, htrace, hs⟩ := represented_of_careful h hcareful hrun
  have hstep : ∀ t l u, t.Valid ∧ t.Balanced → Timetable.Next cfg t l u → u.Valid ∧ u.Balanced :=
    fun t l u ht hnext => ⟨hnext.valid ht.1, hnext.balanced ht.1 ht.2⟩
  have hbalanced := htrace.inv hstep ⟨Timetable.valid_empty w.currentSlot,
    fun _ _ hy => absurd hy (Option.some_ne_none _).symm⟩
  have hx : tt.timers id = some x := hs.mirrors.timers ▸ hx
  have hcalls : s.invoked.countP (fun call => call.registration == x.registration)
      = tt.calls.countP (fun call => call.1 == x.registration) := by
    rw [hs.calls, List.countP_map]
    rfl
  have hjobs : s.execs.countP
        (fun e => e.registration == some x.registration && e.stage.isRunning)
      = tt.jobs.countP (TimerJob.runs x.registration) := by
    refine forall₂_countP (fun e job hf => ?_) hs.jobs
    rw [hf.registration, ← isRunning_jobStage, hf.stage]
    rfl
  rw [hcalls, hjobs, hs.panicked]
  exact hbalanced.2 id x hx

/-- Of three executions one returns, one panics and one is still running. -/
def panickyRun : List Action :=
  [addAt 0 "a" .repeated 10 none] ++ ticksAt [10] ++ [.start 0, .finish 0 .zero, .complete 0]
    ++ ticksAt [20] ++ [.start 0, .panic 0] ++ ticksAt [30, 40, 50, 60] ++ [.start 0]

/-- The three executions are let through one after the other, and each is on the
account in its own way. -/
theorem calls_accounted_panicky : ∃ s x,
    Machine.run (step fourSlots) (ofWheel fourSlotWheel) panickyRun = some s
      ∧ s.wheel.timer fourSlots "a" = some x ∧ x.executed = 1 ∧ s.invoked.length = 3
      ∧ s.invoked.countP (fun call => call.registration == x.registration)
        = x.executed
          + s.execs.countP (fun e => e.registration == some x.registration && e.stage.isRunning)
          + s.panicked.count x.registration := by
  have hrun : (Machine.run (step fourSlots) (ofWheel fourSlotWheel) panickyRun).bind
      (fun s => (s.wheel.timer fourSlots "a").map (fun x => (x.executed, s.invoked.length)))
        = some (1, 3) := by decide +kernel
  obtain ⟨s, hs, hmap⟩ := Option.bind_eq_some_iff.mp hrun
  obtain ⟨x, hx, heq⟩ := Option.map_eq_some_iff.mp hmap
  obtain ⟨hexec, hlength⟩ := Prod.mk.inj heq
  exact ⟨s, x, hs, hx, hexec, hlength, calls_accounted started_fourSlotWheel (by decide +kernel)
    (by decide +kernel) hs hx⟩

end Timewheel
