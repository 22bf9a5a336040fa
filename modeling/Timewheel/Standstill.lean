import Timewheel.Levels
import Timewheel.Locality
import Timewheel.Silence

/-!
# Tasks that stand still

Who removes or pauses a task knows its ID, not its registration or its wheel.
Once the call has succeeded, and only one wheel had the ID, no execution of a
task with that ID is let through in any of the three wheels until a call adds,
updates or resumes it (`admitted_of_standstill`). So its function is called by
no execution but those that had been let through by then, and each of them
calls it once (`calls_of_standstill`).

When two wheels have the ID, the call reaches the first of them and the task of
the other one goes on. A call of the multi-level wheel is one step here, and so
are the checks of an execution; the call of a function comes at any time after
the checks, as for a single wheel.
-/

namespace Timewheel

open DList TimeWheel Scheduler Simulation
open MultiLevelTimeWheel

/-! ## One table -/

/-- The calls that may set a timer under the ID, or set it going again. -/
def Request.Starts (id : String) : Request → Prop
  | .addTask task _ => task.map Task.id = some id
  | .updateTask task _ _ => task.map Task.id = some id
  | .resumeTask taskID _ => taskID = id
  | _ => False

/-- Setting a timer is one way to start an ID. -/
theorem Request.Sets.starts {id : String} {request : Request} (h : request.Sets id) :
    request.Starts id := by
  cases request <;> first | exact h | exact False.elim h

namespace Timetable

variable {cfg : Config} {t t' : Timetable} {id : String} {l : Request × Response}

/-- The ID has no timer, or a paused one. Nothing is called under it
then. -/
def StandsStill (t : Timetable) (id : String) : Prop :=
  ∀ x, t.timers id = some x → x.paused = true

/-- **What does not start an ID** leaves timers under it that were there before,
and none of them goes on that was paused. -/
theorem Next.timer_kept (hnext : Next cfg t l t') (ht : Valid t) (hl : ¬ l.1.Starts id) {y : Timer}
    (hy : t'.timers id = some y) :
    ∃ x, t.timers id = some x ∧ (x.paused = true → y.paused = true) := by
  have hresume : ∀ now, l.1 ≠ .resumeTask id now := fun now heq => hl (by rw [heq]; rfl)
  rcases hnext.timer_back ht hy with ⟨-, hsets⟩ | ⟨x, hx, -, hpaused⟩
  · exact absurd hsets.starts hl
  · exact ⟨x, hx, hpaused hresume⟩

/-- So an ID goes on standing still until it is started. -/
theorem StandsStill.next (h : t.StandsStill id) (ht : Valid t) (hnext : Next cfg t l t')
    (hl : ¬ l.1.Starts id) : t'.StandsStill id := by
  intro y hy
  obtain ⟨x, hx, hpaused⟩ := hnext.timer_kept ht hl hy
  exact hpaused (h x hx)

/-- The executions of tasks with the ID that have been let through. Whatever
their registrations. -/
def callsOf (t : Timetable) (id : String) : ℕ := t.calls.countP (fun call => call.2.id = id)

/-- **What stands still is not called.** A job that is let through has a timer
that is not paused. -/
theorem StandsStill.calls (h : t.StandsStill id) (ht : Valid t) (hnext : Next cfg t l t') :
    t'.callsOf id = t.callsOf id := by
  unfold callsOf
  cases hcall : l.1.isCall with
  | true => rw [(hnext.called hcall).calls]
  | false =>
    cases hnext with
    | @start i job x here stage held on =>
      obtain ⟨hx, -⟩ := find_spec held
      have hne : decide (x.task.id = id) = false := by
        rw [decide_eq_false_iff_not]
        rintro rfl
        rw [← (ht.task job.id x hx).1] at hx
        exact Bool.false_ne_true (on.symm.trans (h x hx))
      show (t.calls ++ [_]).countP _ = _
      rw [List.countP_append, List.countP_singleton, hne]
      rfl
    | @complete i job x result here stage held =>
      exact congrArg _ (@completed_run cfg t x result job.now).calls
    | addTask | updateTask | removeMissing | removeTask | pauseMissing | pauseTask | resumeMissing
    | resumeTask | clearAllTasks => exact absurd hcall Bool.noConfusion
    | _ => rfl

end Timetable

/-- A wheel and its table have counted the same calls. -/
theorem Represents.countP_invoked {cfg : Config} {s : Scheduler} {lists : ℕ → List NodeRef}
    {tt : Timetable} (h : Represents cfg s lists tt) (id : String) :
    s.invoked.countP (fun inv => inv.task.id = id) = tt.callsOf id := by
  rw [h.calls, List.countP_map]
  rfl

/-! ## The tables one by one -/

/-- The calls that may set a timer under the ID, or set it going again. -/
def LevelsRequest.Starts (id : String) : LevelsRequest → Prop
  | .addTask task _ => task.map Task.id = some id
  | .updateTask task _ => task.map Task.id = some id
  | .resumeTask taskID _ => taskID = id
  | _ => False

namespace Timetables

variable {tts tts' tts₁ : Timetables} {id : String} {lbl : LevelsRequest × Response}

/-- The steps of one table that belong to a step of the three. So what does not
start the ID in the three does not start it in one. -/
def Covers (lbl : LevelsRequest × Response) (k : Request × Response) : Prop :=
  ∀ id, k.1.Starts id → lbl.1.Starts id

/-- A step of one table, seen by another. If it is not the one that moves, it
makes no step. -/
theorem view_update {l₀ : Level} {t' : Timetable} {k : Request × Response}
    (h : Timetable.Next l₀.config (tts l₀) k t') (l : Level) (hk : Covers lbl k) :
    ∃ ks, Trace (Timetable.Next l.config) (tts l) ks (Function.update tts l₀ t' l)
      ∧ ∀ k ∈ ks, Covers lbl k := by
  by_cases hl : l = l₀
  · subst hl
    rw [Function.update_self]
    exact ⟨[k], .cons h (.nil t'), fun k' hk' => List.mem_singleton.mp hk' ▸ hk⟩
  · rw [Function.update_of_ne hl]
    exact ⟨[], .nil _, fun k' hk' => absurd hk' List.not_mem_nil⟩

/-- The same for a removal, -/
theorem Removed.view (h : tts.Removed id tts₁) (lbl : LevelsRequest × Response) (l : Level) :
    ∃ ks, Trace (Timetable.Next l.config) (tts l) ks (tts₁ l) ∧ ∀ k ∈ ks, Covers lbl k := by
  cases h with
  | free _ => exact ⟨[], .nil _, fun k hk => absurd hk List.not_mem_nil⟩
  | first hx => exact view_update (.removeTask hx.held) l (fun _ h => False.elim h)

/-- **Each table makes steps of its own**, and starts what the call starts. By
the rules of the specification. -/
theorem Next.view (h : tts.Next lbl tts') (l : Level) :
    ∃ ks, Trace (Timetable.Next l.config) (tts l) ks (tts' l) ∧ ∀ k ∈ ks, Covers lbl k := by
  have hnil : ∃ ks, Trace (Timetable.Next l.config) (tts l) ks (tts l) ∧ ∀ k ∈ ks, Covers lbl k :=
    ⟨[], .nil _, fun k hk => absurd hk List.not_mem_nil⟩
  cases h with
  | addNil => exact hnil
  | addUnfit check => exact hnil
  | updateInvalid id_eq => exact hnil
  | missing call free => exact hnil
  | addTask accepted add => exact view_update (.addTask add) l (fun _ h => h)
  | @updateTask task now err tts₁ t' id_ne removed add =>
    have hadd : Covers (.updateTask (some task) now, .returned err)
        (.addTask (some task) now, .returned err) := fun _ h => h
    obtain ⟨ks, hks, hcovers⟩ := removed.view _ l
    obtain ⟨ks', hks', hcovers'⟩ := view_update (.addTask add) l hadd
    refine ⟨ks ++ ks', trace_append.mpr ⟨_, hks, hks'⟩, fun k hk => ?_⟩
    rcases List.mem_append.mp hk with hk | hk
    · exact hcovers k hk
    · exact hcovers' k hk
  | removeTask hx => exact view_update (.removeTask hx.held) l (fun _ h => h)
  | pauseTask hx => exact view_update (.pauseTask hx.held) l (fun _ h => h)
  | resumeTask hx => exact view_update (.resumeTask hx.held) l (fun _ h => h)
  | clearAllTasks =>
    exact ⟨[_], .cons .clearAllTasks (.nil _), fun k hk => List.mem_singleton.mp hk ▸ fun _ h => h⟩
  | @background l₀ r t' call next =>
    refine view_update next l (fun id h => ?_)
    cases r <;> first | exact False.elim h | exact absurd call.symm Bool.false_ne_true

/-- What the tables of a trace make of their own. So results about one table
apply to each of the three. -/
theorem trace_view {ls : List (LevelsRequest × Response)} (h : Trace Timetables.Next tts ls tts')
    (l : Level) : ∃ ks, Trace (Timetable.Next l.config) (tts l) ks (tts' l)
      ∧ ∀ k ∈ ks, ∃ lbl ∈ ls, Covers lbl k :=
  h.view (fun _ _ _ hnext => hnext.view l)

/-- **A trace that does not start the ID** leaves it standing still, and calls no
function of a task with it. -/
theorem calls_of_trace {ls : List (LevelsRequest × Response)} {l : Level}
    (h : Trace Timetables.Next tts ls tts') (ht : (tts l).Valid) (hstill : (tts l).StandsStill id)
    (hls : ∀ lbl ∈ ls, ¬ lbl.1.Starts id) : (tts' l).callsOf id = (tts l).callsOf id := by
  obtain ⟨ks, htrace, hcovers⟩ := trace_view h l
  have hstep : ∀ t k u, t.Valid ∧ t.StandsStill id ∧ t.callsOf id = (tts l).callsOf id →
      ¬ k.1.Starts id → Timetable.Next l.config t k u →
      u.Valid ∧ u.StandsStill id ∧ u.callsOf id = (tts l).callsOf id :=
    fun t k u hinv hk hnext => ⟨hnext.valid hinv.1, hinv.2.1.next hinv.1 hnext hk,
      (hinv.2.1.calls hinv.1 hnext).trans hinv.2.2⟩
  have hks : ∀ k ∈ ks, ¬ k.1.Starts id := by
    intro k hk hstarts
    obtain ⟨lbl, hlbl, hcover⟩ := hcovers k hk
    exact hls lbl hlbl (hcover id hstarts)
  exact (htrace.inv_of_labels hstep hks ⟨ht, hstill, rfl⟩).2.2

end Timetables

/-! ## The wheels -/

/-- The executions that have been let through in the meantime. The records of
calls only grow. -/
def letThrough (before after : Level → Activity) : List Invocation :=
  levels.flatMap (fun l => (after l).invoked.drop (before l).invoked.length)

/-- What has been counted since is what has been let through. -/
theorem countP_letThrough {before after : Level → Activity} (P : Invocation → Bool)
    (h : ∀ l, (before l).invoked <+: (after l).invoked) :
    (levels.map (fun l => (after l).invoked.countP P)).sum
      = (levels.map (fun l => (before l).invoked.countP P)).sum
        + (letThrough before after).countP P := by
  unfold letThrough
  rw [List.countP_flatMap, ← List.sum_map_add]
  exact congrArg List.sum (List.map_congr_left (fun l _ => Delayed.countP_of_prefix P (h l)))

/-- The actions that may add a task under the ID, or set it going again. -/
def MultiLevelAction.Starts (id : String) : MultiLevelAction → Prop
  | .addTask task _ => task.map Task.id = some id
  | .updateTask task _ => task.map Task.id = some id
  | .resumeTask taskID _ => taskID = id
  | _ => False

namespace Levels

variable {s s₁ s₂ s' : Levels} {a : MultiLevelAction} {id : String} {tts tts' : Timetables}

/-- What starts an ID in the tables starts it in the wheels. -/
theorem starts_of_request (h : (a.request).Starts id) : a.Starts id := by
  cases a <;> exact h

/-- How many executions of tasks with the ID have been let through. -/
def callsOf (s : Levels) (id : String) : ℕ :=
  (levels.map (fun l => (s.activity l).invoked.countP (fun inv => inv.task.id = id))).sum

/-- The tables and the wheels count the same calls. -/
theorem Represented.callsOf (h : s.Represented tts) (id : String) :
    s.callsOf id = (levels.map (fun l => (tts l).callsOf id)).sum :=
  congrArg List.sum (List.map_congr_left (fun l _ =>
    (h l).elim (fun _ hl => hl.countP_invoked id)))

/-- **A removed or paused ID stands still** in all three tables, when one table at
most had it. -/
theorem standsStill_of_next {r : LevelsRequest}
    (hr : r = .removeTask id ∨ r = .pauseTask id)
    (hunique : ∀ l l' x y, (tts l).timers id = some x → (tts l').timers id = some y → l = l')
    (h : tts.Next (r, .returned none) tts') (l : Level) : (tts' l).StandsStill id := by
  have hother : ∀ {l₀ : Level} {x : Timer} {t' : Timetable}, tts.First id l₀ x →
      t'.StandsStill id → (Function.update tts l₀ t' l).StandsStill id := by
    intro l₀ x t' hx ht'
    by_cases hl : l = l₀
    · subst hl
      rwa [Function.update_self]
    · rw [Function.update_of_ne hl]
      exact fun y hy => absurd (hunique l l₀ y x hy hx.held) hl
  rcases hr with rfl | rfl
  · cases h with
    | removeTask hx =>
      refine hother hx (fun y hy => ?_)
      rw [Timetable.timers_drop_self] at hy
      exact absurd hy (Option.some_ne_none y).symm
  · cases h with
    | pauseTask hx =>
      refine hother hx (fun y hy => ?_)
      rw [Timetable.timers_put_self] at hy
      obtain rfl := Option.some.inj hy
      rfl

/-- **No execution of a removed or paused task is let through.** In a careful run of
the multi-level wheel, `RemoveTask` or `PauseTask` succeeds for an ID that one
wheel has, and no other. Then the executions of tasks with that ID are not let
through, in any wheel, until `AddTask`, `UpdateTask` or `ResumeTask` names it;
nor is one that a tick has submitted before, and that has not started. -/
theorem admitted_of_standstill (h : s.Started) {as bs : List MultiLevelAction}
    (hcareful : Machine.Each Levels.step (fun s a _ => s.StepsCarefully a) s (as ++ a :: bs))
    (hrun : Machine.run Levels.step s as = some s₁) (ha : a = .removeTask id ∨ a = .pauseTask id)
    (hone : ∀ l l', s₁.timeWheel.Registered l id → s₁.timeWheel.Registered l' id → l = l')
    (hok : s₁.response a = .returned none) (hstep : s₁.step a = some s₂)
    (hrun' : Machine.run Levels.step s₂ bs = some s') (hbs : ∀ b ∈ bs, ¬ b.Starts id) :
    s'.callsOf id = s₂.callsOf id := by
  obtain ⟨hcareful₁, hcareful⟩ := Machine.each_append.mp hcareful
  obtain ⟨hcare, hcareful₂⟩ := hcareful s₁ hrun s₂ hstep
  obtain ⟨tts₁, htrace₁, hs₁⟩ :=
    simulates_of_stepsCarefully.trace (represented_of_started h) hcareful₁ hrun
  obtain ⟨tts₂, hnext, hs₂⟩ := simulates_of_stepsCarefully s₁ a s₂ tts₁ hs₁ hcare hstep
  obtain ⟨tts', htrace', hs'⟩ := simulates_of_stepsCarefully.trace hs₂ hcareful₂ hrun'
  -- the call has left every table standing still
  have hunique : ∀ l l' x y, (tts₁ l).timers id = some x → (tts₁ l').timers id = some y →
      l = l' := by
    have hreg : ∀ l x, (tts₁ l).timers id = some x → s₁.timeWheel.Registered l id := by
      intro l x hx
      by_contra hnot
      exact absurd (((hs₁.timers_eq_none l id).mpr hnot).symm.trans hx) (Option.some_ne_none x).symm
    exact fun l l' x y hx hy => hone l l' (hreg l x hx) (hreg l' y hy)
  have hstill : ∀ l, (tts₂ l).StandsStill id := by
    unfold observed at hnext
    rw [hok] at hnext
    refine standsStill_of_next ?_ hunique hnext
    rcases ha with rfl | rfl
    · exact Or.inl rfl
    · exact Or.inr rfl
  have hvalid : ∀ l, (tts₂ l).Valid := by
    intro l
    obtain ⟨ks, hks, -⟩ := Timetables.trace_view htrace₁ l
    obtain ⟨ks', hks', -⟩ := hnext.view l
    exact .of_trace (trace_append.mpr ⟨_, hks, hks'⟩)
  have hlabels : ∀ lbl ∈ labels Levels.step observed s₂ bs, ¬ lbl.1.Starts id := by
    intro lbl hlbl hstarts
    obtain ⟨u, b, hb, rfl⟩ := mem_labels hlbl
    exact hbs b hb (starts_of_request hstarts)
  rw [hs'.callsOf, hs₂.callsOf]
  exact congrArg List.sum (List.map_congr_left (fun l _ =>
    Timetables.calls_of_trace htrace' (hvalid l) (hstill l) hlabels))

/-! ## The calls -/

/-- The executions that have been let through are not taken back, in any wheel. -/
theorem invoked_prefix_of_step (hstep : s.step a = some s') (l : Level) :
    (s.activity l).invoked <+: (s'.activity l).invoked := by
  cases a with
  | background l₀ b =>
    unfold step at hstep
    dsimp only at hstep
    split_ifs at hstep
    obtain ⟨t, ht, rfl⟩ := Option.map_eq_some_iff.mp hstep
    by_cases hl : l = l₀
    · subst hl
      have hactivity : ((s.setScheduler l t).activity l).invoked = t.invoked := by
        simp [setScheduler]
      rw [hactivity]
      exact Timewheel.invoked_prefix_of_step ht
    · have hactivity : (s.setScheduler l₀ t).activity l = s.activity l :=
        Function.update_of_ne hl _ _
      rw [hactivity]
  | _ =>
    -- a call reaches the wheels, and leaves what goes on in them
    unfold step at hstep
    obtain ⟨t, -, rfl⟩ := Option.map_eq_some_iff.mp hstep
    exact List.prefix_refl _

/-- **The three wheels, with the calls that come after the checks.** -/
def program : Delayed.Program Levels MultiLevelAction Invocation where
  step := Levels.step
  decides s _ s' := letThrough s.activity s'.activity
  ends _ := false

/-- The calls of functions of tasks with the ID that have been made or are due. -/
def callsAndDue (d : Delayed.State Levels Invocation) (id : String) : ℕ :=
  d.count (fun inv => inv.task.id = id)

/-- **A removed or paused task is not called**, except by executions that have been
let through before. In a careful run of the multi-level wheel, in which functions
are called at any time after the checks, `RemoveTask` or `PauseTask` succeeds for
an ID that one wheel has, and no other. From then on, until `AddTask`,
`UpdateTask` or `ResumeTask` names the ID, the calls of functions of tasks with
that ID that are made, in any wheel, and those that are still due do not add up
to more than they did when the call returned. So an execution that a tick has
submitted, and that has not passed its checks by then, never calls the
function. -/
theorem calls_of_standstill (h : s.Started) {as bs : List (Delayed.Move MultiLevelAction)}
    {d₁ d₂ d' : Delayed.State Levels Invocation}
    (hcareful : Machine.Each Levels.step (fun s a _ => s.StepsCarefully a) s
      (Delayed.acts (as ++ .act a :: bs)))
    (hrun : Machine.run program.next (.idle s) as = some d₁)
    (ha : a = .removeTask id ∨ a = .pauseTask id)
    (hone : ∀ l l', d₁.base.timeWheel.Registered l id → d₁.base.timeWheel.Registered l' id → l = l')
    (hok : d₁.base.response a = .returned none) (hstep : program.next d₁ (.act a) = some d₂)
    (hrun' : Machine.run program.next d₂ bs = some d') (hbs : ∀ b, .act b ∈ bs → ¬ b.Starts id) :
    callsAndDue d' id ≤ callsAndDue d₂ id := by
  rw [Delayed.acts_append] at hcareful
  have hsettled := admitted_of_standstill h hcareful (Delayed.run_acts hrun) ha hone hok
    (Delayed.step_of_next hstep) (Delayed.run_acts hrun')
    (fun b hb => hbs b (Delayed.act_mem_of_mem_acts hb))
  have hmeter : ∀ s a s', program.step s a = some s' → s'.callsOf id
      = s.callsOf id + (program.decides s a s').countP (fun inv => inv.task.id = id) :=
    fun s a s' hstep => countP_letThrough _ (invoked_prefix_of_step hstep)
  exact Delayed.count_of_settled hmeter hrun' hsettled

/-- A task is collected, let through and called, collected again, and let through
once more. -/
def removedRun : List (Delayed.Move MultiLevelAction) :=
  [.act (.addTask (some (everyTick "a")) newNodeEnv),
    .act (.background .high (.tick (Time.ofMilli 10))), .act (.background .high (.start 0)),
    .carryOut 0, .act (.background .high (.finish 0 .zero)),
    .act (.background .high (.complete 0)), .act (.background .high (.tick (Time.ofMilli 20))),
    .act (.background .high (.start 0))]

/-- The task has been removed. Its second execution calls the function. -/
def afterRemoval : List (Delayed.Move MultiLevelAction) :=
  [.act (.addTask (some (everySecond "b" 2)) newNodeEnv), .carryOut 0,
    .act (.background .high (.tick (Time.ofMilli 30)))]

/-- One execution had been let through before the removal. It calls the function
afterwards, and nothing else does. -/
theorem calls_of_removed : ∃ d₁ d₂ d', Machine.run program.next (.idle fresh) removedRun = some d₁
    ∧ program.next d₁ (.act (.removeTask "a")) = some d₂
    ∧ Machine.run program.next d₂ afterRemoval = some d'
    ∧ d₂.done.length = 1 ∧ d'.done.length = 2 ∧ callsAndDue d' "a" ≤ callsAndDue d₂ "a" := by
  have hrun : (Machine.run program.next (.idle fresh) removedRun).bind (fun d₁ =>
      (program.next d₁ (.act (.removeTask "a"))).bind (fun d₂ =>
        (Machine.run program.next d₂ afterRemoval).map (fun d' =>
          ((d₁.base.timeWheel.removeTask "a").1.isNone,
            decide (∀ l l', d₁.base.timeWheel.Registered l "a" →
              d₁.base.timeWheel.Registered l' "a" → l = l'),
            d₂.done.length, d'.done.length)))) = some (true, true, 1, 2) := by decide +kernel
  obtain ⟨d₁, hd₁, hrun⟩ := Option.bind_eq_some_iff.mp hrun
  obtain ⟨d₂, hd₂, hrun⟩ := Option.bind_eq_some_iff.mp hrun
  obtain ⟨d', hd', heq⟩ := Option.map_eq_some_iff.mp hrun
  simp only [Prod.mk.injEq, decide_eq_true_eq] at heq
  obtain ⟨hok, hone, hbefore, hafter⟩ := heq
  refine ⟨d₁, d₂, d', hd₁, hd₂, hd', hbefore, hafter,
    calls_of_standstill started_fresh (by decide +kernel) hd₁ (Or.inl rfl) hone
      (congrArg Response.returned (Option.isNone_iff_eq_none.mp hok)) hd₂ hd' ?_⟩
  unfold afterRemoval
  simp [MultiLevelAction.Starts, everySecond, Task.plain]

end Levels

end Timewheel
