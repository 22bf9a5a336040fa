import Timewheel.Guarantees
import Timewheel.Lib.Delayed

/-!
# Tasks that are not called any more

An execution looks at its node when it starts, and lets the lock go before it
calls the function. So what a step of the model does is to let an execution
through to the function; the call itself comes later, and what has happened in
between does not stop it (`Scheduler.program`).

While a registration is paused, or once it is gone, no execution is let through
to its function (`admitted_of_silent`). What tells of the calls is therefore a
count: from that moment on, no more of them are made than were let through
before and have not been made yet (`calls_of_silent`). An execution that a tick
has collected beforehand, and that has not started, is not among these. A
paused registration stays so until `ResumeTask` names its ID, and one that is
gone for good, whatever is added under its ID later.
-/

namespace Timewheel

open TimeWheel Scheduler Simulation

/-- The request is an `AddTask` or an `UpdateTask` of the ID. -/
def Request.Sets (id : String) : Request → Prop
  | .addTask task _ => task.map Task.id = some id
  | .updateTask task _ _ => task.map Task.id = some id
  | _ => False

instance (id : String) (request : Request) : Decidable (request.Sets id) := by
  unfold Request.Sets
  split
  all_goals infer_instance

namespace Timetable

variable {cfg : Config} {t t' : Timetable} {id : String} {r : ℕ} {l : Request × Response}
  {now backAt : Time} {task : Option Task} {err : Option Err}

/-- The registration `r` has been given out, and belongs to `id`. -/
structure Belongs (t : Timetable) (r : ℕ) (id : String) : Prop where
  old : r < t.next
  only : ∀ id' x, t.timers id' = some x → x.registration = r → id' = id

/-- The registration `r` is gone, or paused under `id`. -/
structure Silent (t : Timetable) (r : ℕ) (id : String) : Prop extends Belongs t r id where
  paused : ∀ x, t.timers id = some x → x.registration = r → x.paused = true

/-- A timer after an addition is the new one, or was there before, -/
theorem Adds.timer_back (h : Adds cfg t now task err t') {y : Timer}
    (hy : t'.timers id = some y) :
    (t.next ≤ y.registration ∧ task.map Task.id = some id) ∨ t.timers id = some y := by
  cases h with
  | isNil => exact Or.inr hy
  | unfit check => exact Or.inr hy
  | taken check held => exact Or.inr hy
  | @added task task' r paused check free fresh clean =>
    by_cases hid : id = task'.id
    · subst hid
      obtain rfl := Option.some.inj ((timers_put_self t task'.id _).symm.trans hy)
      exact Or.inl ⟨fresh, congrArg some (checkTask_ok check).2.2.id_eq.symm⟩
    · exact Or.inr ((timers_put_of_ne t task'.id _ hid).symm.trans hy)

/-- one after a removal was there before, -/
theorem timer_of_drop {id' : String} {y : Timer} (hy : (t.drop id').timers id = some y) :
    t.timers id = some y := by
  by_cases hid : id = id'
  · subst hid
    exact absurd ((timers_drop_self t id).symm.trans hy) (Option.some_ne_none y).symm
  · exact (timers_drop_of_ne t id' hid).symm.trans hy

/-- and after an update it is the new one, the old one put back, or another. -/
theorem Updates.timer_back (h : Updates cfg t now backAt task err t') (ht : Valid t) {y : Timer}
    (hy : t'.timers id = some y) :
    (t.next ≤ y.registration ∧ task.map Task.id = some id) ∨ t.timers id = some y := by
  cases h with
  | isNil => exact Or.inr hy
  | invalid h => exact Or.inr hy
  | missing id_ne run_ne free => exact Or.inr hy
  | updated held add => exact (add.timer_back hy).imp_right timer_of_drop
  | @rolledBack task x err t' held run_ne unfit add =>
    -- the old task is added again, under the ID it has always had
    have hold : x.task.id = task.id := (ht.task _ _ held).1
    exact (add.timer_back hy).imp (fun h => ⟨h.1, (congrArg some hold).symm.trans h.2⟩) timer_of_drop

/-- **Where a timer comes from.** Its registration is fresh, which only an
`AddTask` or an `UpdateTask` of the ID can bring about; or it has been there under
the ID before, and is resumed by `ResumeTask` alone. Executions never register a
task, and no step moves a registration from one ID to another, so this is all
that can be said of the way a timer comes to be there. -/
theorem Next.timer_back (h : Next cfg t l t') (ht : Valid t) {y : Timer}
    (hy : t'.timers id = some y) :
    (t.next ≤ y.registration ∧ l.1.Sets id)
      ∨ ∃ x, t.timers id = some x ∧ x.registration = y.registration
        ∧ ((∀ now, l.1 ≠ .resumeTask id now) → x.paused = true → y.paused = true) := by
  -- a timer that is put back under its ID is still the one that was there
  have hput : ∀ {id₀ : String} {x z : Timer}, t.timers id₀ = some x →
      (t.put id₀ z).timers id = some y → x.registration = z.registration →
      ((∀ now, l.1 ≠ .resumeTask id₀ now) → x.paused = true → z.paused = true) →
      ∃ x, t.timers id = some x ∧ x.registration = y.registration
        ∧ ((∀ now, l.1 ≠ .resumeTask id now) → x.paused = true → y.paused = true) := by
    intro id₀ x z hx hy hreg hpaused
    by_cases hid : id = id₀
    · subst hid
      obtain rfl := Option.some.inj ((timers_put_self t id z).symm.trans hy)
      exact ⟨x, hx, hreg, hpaused⟩
    · exact ⟨y, (timers_put_of_ne t id₀ z hid).symm.trans hy, rfl, fun _ hy => hy⟩
  have hkept : t.timers id = some y → ∃ x, t.timers id = some x
      ∧ x.registration = y.registration
      ∧ ((∀ now, l.1 ≠ .resumeTask id now) → x.paused = true → y.paused = true) :=
    fun hy => ⟨y, hy, rfl, fun _ hy => hy⟩
  cases h with
  | addTask add => exact (add.timer_back hy).imp_right hkept
  | updateTask update => exact (update.timer_back ht hy).imp_right hkept
  | removeTask held => exact Or.inr (hkept (timer_of_drop hy))
  | @pauseTask id₀ x held => exact Or.inr (hput held hy rfl (fun _ _ => rfl))
  | @resumeTask id₀ now x held =>
    refine Or.inr (hput held hy ?_ (fun hne => absurd rfl (hne now)))
    unfold Timer.resume
    split_ifs
    · rfl
    · rfl
  | clearAllTasks => exact absurd hy (Option.some_ne_none y).symm
  | @finish i job x result here stage held =>
    have hy : (t.put job.id (x.note result)).timers id = some y := hy
    exact Or.inr (hput (find_spec held).1 hy rfl (fun _ hx => hx))
  | @complete i job x result here stage held =>
    obtain ⟨hx, -⟩ := find_spec held
    have hid := (ht.task job.id x hx).1
    -- the task has ended, or goes on with its timer
    rcases timers_completed hy with ⟨-, hy⟩ | ⟨rfl, rfl⟩
    · exact Or.inr (hkept hy)
    · exact Or.inr ⟨x, hid.symm ▸ hx, rfl, fun _ hx => hx⟩
  | _ => exact Or.inr (hkept hy)

/-- Numbers of registrations are not handed out again. So a fresh one is a new
one. -/
theorem Next.next_le (h : Next cfg t l t') : t.next ≤ t'.next := by
  cases hcall : l.1.isCall with
  | true => exact (h.called hcall).next
  | false =>
    cases h with
    | @complete i job x result here stage held =>
      show t.next ≤ (t.completed cfg x result job.now).next
      unfold Timetable.completed
      dsimp only
      split_ifs
      · exact le_refl _
      · exact le_refl _
    | addTask | updateTask | removeMissing | removeTask | pauseMissing | pauseTask | resumeMissing
    | resumeTask | clearAllTasks => exact absurd hcall Bool.noConfusion
    | _ => exact le_refl _

/-- A registration keeps its ID along the run, -/
theorem Belongs.next (hb : Belongs t r id) (ht : Valid t) (h : Next cfg t l t') :
    Belongs t' r id where
  old := lt_of_lt_of_le hb.old h.next_le
  only := fun id' y hy hreg => by
    rcases h.timer_back ht hy with ⟨hfresh, -⟩ | ⟨x, hx, hsame, -⟩
    · exact absurd hb.old (not_lt.mpr (hfresh.trans_eq hreg))
    · exact hb.only id' x hx (hsame.trans hreg)

/-- and stays silent as long as it is not resumed. -/
theorem Silent.next (hs : Silent t r id) (ht : Valid t) (h : Next cfg t l t')
    (hresume : ∀ now, l.1 ≠ .resumeTask id now) : Silent t' r id where
  toBelongs := hs.toBelongs.next ht h
  paused := fun y hy hreg => by
    rcases h.timer_back ht hy with ⟨hfresh, -⟩ | ⟨x, hx, hsame, hpaused⟩
    · exact absurd hs.old (not_lt.mpr (hfresh.trans_eq hreg))
    · exact hpaused hresume (hs.paused x hx (hsame.trans hreg))

/-- **A silent registration is not called.** A job is let through only if its
timer is there and not paused. -/
theorem Silent.calls (hs : Silent t r id) (h : Next cfg t l t') :
    t'.calls.countP (fun call => call.1 == r) = t.calls.countP (fun call => call.1 == r) := by
  cases hcall : l.1.isCall with
  | true => rw [(h.called hcall).calls]
  | false =>
    cases h with
    | @start i job x here stage held on =>
      obtain ⟨hx, -⟩ := find_spec held
      have hne : (x.registration == r) = false := by
        rw [beq_eq_false_iff_ne]
        intro hreg
        obtain rfl := hs.only job.id x hx hreg
        exact Bool.false_ne_true (on.symm.trans (hs.paused x hx hreg))
      show (t.calls ++ [_]).countP _ = _
      rw [List.countP_append, List.countP_singleton, hne]
      rfl
    | @complete i job x result here stage held =>
      exact congrArg _ (@completed_run cfg t x result job.now).calls
    | addTask | updateTask | removeMissing | removeTask | pauseMissing | pauseTask | resumeMissing
    | resumeTask | clearAllTasks => exact absurd hcall Bool.noConfusion
    | _ => rfl

end Timetable

variable {cfg : Config} {s s' v : Scheduler} {w : TimeWheel} {id : String} {x : Timer}
  {tt : Timetable} {r : ℕ}

/-- The table counts as the wheel does. -/
theorem countP_invoked {lists : ℕ → List NodeRef} (h : Represents cfg s lists tt) (r : ℕ) :
    s.invoked.countP (fun call => call.registration == r)
      = tt.calls.countP (fun call => call.1 == r) := by
  rw [h.calls, List.countP_map]
  rfl

/-- **No execution of a silent registration is let through.** In a careful run of a
started wheel, a task has been registered; later that registration is paused, or
gone. Then no execution is let through to its function as long as `ResumeTask`
does not name the ID: the registration stays silent, since a call of `AddTask` or
`UpdateTask` gives out a number of its own. -/
theorem admitted_of_silent (h : Started cfg w) {as bs cs : List Action}
    (hcareful : Machine.Each (step cfg) (fun s a _ => Careful cfg s a) (ofWheel w)
      (as ++ (bs ++ cs)))
    (hs : Machine.run (step cfg) (ofWheel w) as = some s) (hx : s.wheel.timer cfg id = some x)
    (hv : Machine.run (step cfg) s bs = some v)
    (hquiet : ∀ y, v.wheel.timer cfg id = some y → y.registration = x.registration →
      y.paused = true)
    (hs' : Machine.run (step cfg) v cs = some s') (hresume : ∀ now, .resumeTask id now ∉ cs) :
    s'.invoked.countP (fun call => call.registration == x.registration)
      = v.invoked.countP (fun call => call.registration == x.registration) := by
  obtain ⟨hcareful₁, hcareful⟩ := Machine.each_append.mp hcareful
  obtain ⟨hcareful₂, hcareful₃⟩ := Machine.each_append.mp (hcareful s hs)
  obtain ⟨lists, tt, htrace, hrep⟩ := represented_of_careful h hcareful₁ hs
  obtain ⟨ttv, htrace₂, listsv, hrepv⟩ :=
    (simulates_of_careful cfg).trace ⟨lists, hrep⟩ hcareful₂ hv
  obtain ⟨tt', htrace₃, lists', hrep'⟩ :=
    (simulates_of_careful cfg).trace ⟨listsv, hrepv⟩ (hcareful₃ v hv) hs'
  -- the registration belongs to the ID from the moment it is seen there
  have hvalid := Timetable.Valid.of_trace htrace
  have hx : tt.timers id = some x := hrep.mirrors.timers ▸ hx
  have hbelongs : tt.Belongs x.registration id :=
    ⟨hvalid.old id x hx, fun id' y hy hreg => hvalid.distinct id' id y x hy hx hreg⟩
  have hstep₂ : ∀ t l u, t.Valid ∧ t.Belongs x.registration id → Timetable.Next cfg t l u →
      u.Valid ∧ u.Belongs x.registration id :=
    fun t l u ht hnext => ⟨hnext.valid ht.1, ht.2.next ht.1 hnext⟩
  obtain ⟨hvalidv, hbelongsv⟩ := htrace₂.inv hstep₂ ⟨hvalid, hbelongs⟩
  -- from there on it is silent
  have hsilent : ttv.Silent x.registration id :=
    ⟨hbelongsv, fun y hy => hquiet y (hrepv.mirrors.timers ▸ hy)⟩
  have hstep₃ : ∀ t l u, t.Valid ∧ t.Silent x.registration id
        ∧ t.calls.countP (fun call => call.1 == x.registration)
          = ttv.calls.countP (fun call => call.1 == x.registration) →
      (∀ now, l.1 ≠ .resumeTask id now) → Timetable.Next cfg t l u →
      u.Valid ∧ u.Silent x.registration id
        ∧ u.calls.countP (fun call => call.1 == x.registration)
          = ttv.calls.countP (fun call => call.1 == x.registration) :=
    fun t l u ht hl hnext => ⟨hnext.valid ht.1, ht.2.1.next ht.1 hnext hl,
      (ht.2.1.calls hnext).trans ht.2.2⟩
  have hlabels : ∀ l ∈ labels (step cfg) (observed cfg) v cs, ∀ now, l.1 ≠ .resumeTask id now := by
    intro l hl now heq
    obtain ⟨u, a, ha, rfl⟩ := mem_labels hl
    have hrequest : a.request = .resumeTask id now := heq
    cases a with
    | resumeTask taskID now' =>
      obtain ⟨rfl, rfl⟩ : taskID = id ∧ now' = now := by simpa [Action.request] using hrequest
      exact hresume now' ha
    | _ => exact absurd hrequest (by simp [Action.request])
  rw [countP_invoked hrep', countP_invoked hrepv]
  exact (htrace₃.inv_of_labels hstep₃ hlabels ⟨hvalidv, hsilent, rfl⟩).2.2

/-! ## The calls -/

/-- The executions that have been let through are not taken back. -/
theorem invoked_prefix_of_step {a : Action} (hstep : step cfg s a = some s') :
    s.invoked <+: s'.invoked := by
  cases stepped_of_step hstep with
  | @start i e he hs =>
    unfold Scheduler.start
    split
    · exact List.prefix_refl _
    · split
      · exact List.prefix_refl _
      · exact List.prefix_append s.invoked _
  | @finish i e info he hs result =>
    unfold Scheduler.finish
    dsimp only
    split_ifs
    · exact List.prefix_refl _
    · exact List.prefix_refl _
  | _ => exact List.prefix_refl _

/-- **The wheel, with the calls that come after the checks.** `executeTask` holds no
lock between `checkTaskState` and the call of `Run` in `runTask`. A step lets an
execution through; its call becomes due then, and is made at some time after it,
or not at all. This allows more than the code does, where the call also comes
before the execution finishes. -/
def Scheduler.program (cfg : Config) : Delayed.Program Scheduler Action Invocation where
  step := step cfg
  decides s _ s' := s'.invoked.drop s.invoked.length
  ends _ := false

/-- Each step counts what it lets through. -/
theorem countP_of_step (P : Invocation → Bool) (s : Scheduler) (a : Action) (s' : Scheduler)
    (hstep : (program cfg).step s a = some s') : s'.invoked.countP P
      = s.invoked.countP P + ((program cfg).decides s a s').countP P :=
  Delayed.countP_of_prefix P (invoked_prefix_of_step hstep)

/-- The calls of the function of a registration that have been made or are due. -/
def callsAndDue (d : Delayed.State Scheduler Invocation) (r : CtxRef) : ℕ :=
  d.count (fun call => call.registration == r)

/-- **Silent tasks are not called**, except by executions that have been let through
before. In a careful run of a started wheel, in which functions are called at any
time after the checks, a task has been registered; later that registration is
paused, or gone, because it has been removed, updated, cleared or has ended. From
then on, as long as `ResumeTask` does not name the ID, the calls of its function
that are made and those that are still due do not add up to more than they did at
that moment. So only the executions that had passed `checkTaskState` by then may
still call the function, each once: no execution that was collected before but
has not started, and none on behalf of a task that is registered under the same
ID later on. -/
theorem calls_of_silent (h : Started cfg w) {as bs cs : List (Delayed.Move Action)}
    {d v d' : Delayed.State Scheduler Invocation}
    (hcareful : Machine.Each (step cfg) (fun s a _ => Careful cfg s a) (ofWheel w)
      (Delayed.acts (as ++ (bs ++ cs))))
    (hd : Machine.run (program cfg).next (.idle (ofWheel w)) as = some d)
    (hx : d.base.wheel.timer cfg id = some x)
    (hv : Machine.run (program cfg).next d bs = some v)
    (hquiet : ∀ y, v.base.wheel.timer cfg id = some y → y.registration = x.registration →
      y.paused = true)
    (hd' : Machine.run (program cfg).next v cs = some d')
    (hresume : ∀ now, .act (.resumeTask id now) ∉ cs) :
    callsAndDue d' x.registration ≤ callsAndDue v x.registration := by
  rw [Delayed.acts_append, Delayed.acts_append] at hcareful
  have hsilent := admitted_of_silent h hcareful (Delayed.run_acts hd) hx (Delayed.run_acts hv)
    hquiet (Delayed.run_acts hd') (fun now hmem => hresume now (Delayed.act_mem_of_mem_acts hmem))
  exact Delayed.count_of_settled (countP_of_step _) hd' hsilent

/-- A task is collected and let through, and paused before its function is called. -/
def pausedRun : List (Delayed.Move Action) :=
  let steps : List Action := ticksAt [10] ++ [.start 0, .pauseTask "a"]
  steps.map .act

/-- The function is called all the same. The paused task is collected once more,
removed, and registered anew; then the function of the new task is called. -/
def afterPause : List (Delayed.Move Action) :=
  let steps : List Action := [.finish 0 .zero, .complete 0] ++ ticksAt [20]
    ++ [.start 0, .removeTask "a" true, addAt 20 "a" .repeated 10 none] ++ ticksAt [30] ++ [.start 0]
  [.carryOut 0] ++ steps.map .act ++ [.carryOut 0]

/-- Of the two calls that are made in the end one was let through before the
pause; the other one is of the task that has been registered since. -/
theorem calls_of_paused : ∃ d v d' x,
    Machine.run (program fourSlots).next (.idle (ofWheel fourSlotWheel))
        [.act (addAt 0 "a" .repeated 10 none)] = some d
      ∧ d.base.wheel.timer fourSlots "a" = some x
      ∧ Machine.run (program fourSlots).next d pausedRun = some v ∧ v.done = []
      ∧ Machine.run (program fourSlots).next v afterPause = some d' ∧ d'.done.length = 2
      ∧ callsAndDue d' x.registration ≤ callsAndDue v x.registration := by
  have hrun : (Machine.run (program fourSlots).next (.idle (ofWheel fourSlotWheel))
      [.act (addAt 0 "a" .repeated 10 none)]).bind (fun d =>
        (d.base.wheel.timer fourSlots "a").bind (fun x =>
          (Machine.run (program fourSlots).next d pausedRun).bind (fun v =>
            (Machine.run (program fourSlots).next v afterPause).map (fun d' =>
              ((v.base.wheel.timer fourSlots "a").map Timer.paused, v.done.isEmpty,
                d'.done.length))))) = some (some true, true, 2) := by decide +kernel
  obtain ⟨d, hd, hrun⟩ := Option.bind_eq_some_iff.mp hrun
  obtain ⟨x, hx, hrun⟩ := Option.bind_eq_some_iff.mp hrun
  obtain ⟨v, hv, hrun⟩ := Option.bind_eq_some_iff.mp hrun
  obtain ⟨d', hd', heq⟩ := Option.map_eq_some_iff.mp hrun
  obtain ⟨hpaused, hnone, hlength⟩ : (v.base.wheel.timer fourSlots "a").map Timer.paused = some true
      ∧ v.done = [] ∧ d'.done.length = 2 := by simpa using heq
  have hquiet : ∀ y, v.base.wheel.timer fourSlots "a" = some y → y.registration = x.registration →
      y.paused = true := fun y hy _ => by
    rw [hy] at hpaused
    exact Option.some.inj hpaused
  exact ⟨d, v, d', x, hd, hx, hv, hnone, hd', hlength, calls_of_silent started_fourSlotWheel
    (by decide +kernel) hd hx hv hquiet hd' (by simp [afterPause, ticksAt, addAt])⟩

end Timewheel
