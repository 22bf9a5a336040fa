import Timewheel.Effects
import Timewheel.Lifecycle

/-!
# Graceful stop

A tick adds the executions it has collected to `taskWg` all at once, and
leaves it to a goroutine of its own to submit them; each of them is taken out
again by itself, where the submission fails or where `executeTask` ends, and
that has five ways to end. `Stop` waits for the loops first, which are the only
ones to add, and then for `taskWg`.

The system below has the threads apart: the one call of `Start` or `Stop` in
progress, the loops, the goroutines that submit, and the executions from the
pool to their deferred function. What an execution does to the wheel is a step
of `Scheduler`. `graceful` says that the counter is exact in every state, and
that nothing is left when `Stop` returns.

The argument is an invariant with two parts. The counter equals the number of
executions that have been handed over and have not come to their end, and this
is kept by every thread (`Kept`). The other part depends on where `Stop` is:
while it waits for the loops new executions may come, while it waits for the
counter none may, because only loops make them (`Settled`).
-/

namespace Timewheel

open TimeWheel

variable {cfg : Config} {limit : ℕ}

/-! ## The system -/

/-- Where a loop stands: it waits for the ticker, or its tick has collected
executions and not handed them over. A loop that is told to stop does not drop
what it holds. -/
inductive LoopPoint where
  | waiting
  | holding (execs : List Execution)

/-- Where a submitted execution stands: the pool has not called it yet, or it is
at `acquireSemaphore`, between there and the end of `executeTask`, or in the
deferred function. All five ways out lead through the deferred function. -/
inductive JobPoint where
  | submitted
  | acquiring
  | body
  | deferred
  deriving DecidableEq

/-- An execution the pool has accepted, and `semaphoreAcquired`. The flag
decides whether the semaphore is given back. -/
structure Job where
  exec : Execution
  point : JobPoint
  acquired : Bool

/-- The call of `Start` or `Stop` in progress. There is one at a time here. -/
inductive Caller where
  | idle
  | starting
  | stopping (point : StopPoint)
  deriving DecidableEq

/-- The wheel and its threads; `queues` are the channels of the goroutines that
submit. The loops are those that have been spawned and have not returned. -/
structure Workers where
  wheel : TimeWheel
  caller : Caller
  loops : List LoopPoint
  queues : List (List Execution)
  jobs : List Job
  /-- The length of the channel `taskSemaphore`. -/
  semaphore : ℕ
  taskWg : ℤ

/-- What an execution does between the semaphore and the deferred function. -/
inductive BodyAction where
  | start
  | finish (result : AlarmResult)
  | complete

/-- What a loop does. -/
inductive LoopAction where
  | tick (now : Time)
  | handOver
  | exit

/-- What an execution does once the pool has accepted it. -/
inductive JobAction where
  | begin
  | acquire
  | giveUp
  | body (a : BodyAction)
  | panic
  | release
  | done

/-- One step of one thread. Which thread moves next is left open. -/
inductive WorkerAction where
  | start
  | spawn (now : Time)
  | stop
  | advance
  | call (a : Action)
  | submit (i : ℕ) (ok : Bool)
  | loop (i : ℕ) (a : LoopAction)
  | job (i : ℕ) (a : JobAction)

/-- The action begins an execution. -/
def WorkerAction.begins : WorkerAction → Bool
  | .job _ .begin => true
  | _ => false

/-- The step of the scheduler, with the execution alone in it. -/
def BodyAction.action : BodyAction → Action
  | .start => .start 0
  | .finish result => .finish 0 result
  | .complete => .complete 0

namespace Workers

variable {s s' : Workers} {i : ℕ} {now : Time}

/-- A wheel that has no threads. -/
def ofWheel (w : TimeWheel) : Workers := ⟨w, .idle, [], [], [], 0, 0⟩

/-- The next step of the `Stop` in progress. The two waits are steps that are
not possible yet. -/
def advance (s : Workers) : StopPoint → Option Workers
  | .cancel => some { s with wheel := s.wheel.cancelRoot, caller := .stopping .waitLoops }
  | .waitLoops =>
    match s.loops with
    | [] => some { s with caller := .stopping .waitTasks }
    | _ :: _ => none
  | .waitTasks => if s.taskWg = 0 then some { s with caller := .stopping .reset } else none
  | .reset =>
    some { s with wheel := s.wheel.renewCtx, caller := .idle, semaphore := 0, taskWg := 0 }

/-- A step of the `i`-th loop. -/
def stepLoop (cfg : Config) (s : Workers) (i : ℕ) : LoopPoint → LoopAction → Option Workers
  | .waiting, .tick now =>
    some { s with
      wheel := (s.wheel.tick cfg now).2.2
      loops := s.loops.set i (.holding (Scheduler.collect cfg s.wheel now)) }
  | .waiting, .exit =>
    if s.wheel.RootDone then some { s with loops := s.loops.eraseIdx i } else none
  | .holding execs, .handOver =>
    some { s with
      loops := s.loops.set i .waiting
      queues := if execs = [] then s.queues else s.queues ++ [execs]
      taskWg := s.taskWg + execs.length }
  | _, _ => none

/-- The goroutine submits the next execution. -/
def submit (s : Workers) (i : ℕ) (ok : Bool) : List Execution → Option Workers
  | [] => none
  | e :: es =>
    let s := { s with queues := s.queues.set i es }
    some (if ok then { s with jobs := s.jobs ++ [⟨e, .submitted, false⟩] }
      else { s with taskWg := s.taskWg - 1 })

/-- The body of `executeTask`: the step of the scheduler, and the deferred
function once the scheduler has no execution any more. -/
def stepBody (cfg : Config) (s : Workers) (i : ℕ) (job : Job) (a : BodyAction) : Option Workers :=
  (Scheduler.step cfg ⟨s.wheel, [job.exec], [], []⟩ a.action).map (fun t =>
    { s with
      wheel := t.wheel
      jobs := s.jobs.set i
        (match t.execs with
          | [] => { job with point := .deferred }
          | e :: _ => { job with exec := e }) })

/-- A step of the `i`-th execution. Without a limit there is no semaphore. -/
def stepJob (cfg : Config) (limit : ℕ) (s : Workers) (i : ℕ) (job : Job) :
    JobPoint → JobAction → Option Workers
  | .submitted, .begin => some { s with jobs := s.jobs.set i { job with point := .acquiring } }
  | .acquiring, .acquire =>
    if limit = 0 then some { s with jobs := s.jobs.set i { job with point := .body } }
    else if s.semaphore < limit then
      some { s with
        semaphore := s.semaphore + 1
        jobs := s.jobs.set i { job with point := .body, acquired := true } }
    else none
  | .acquiring, .giveUp =>
    if limit ≠ 0 ∧ s.wheel.RootDone then
      some { s with jobs := s.jobs.set i { job with point := .deferred } }
    else none
  | .body, .body a => s.stepBody cfg i job a
  | .body, .panic => some { s with jobs := s.jobs.set i { job with point := .deferred } }
  | .deferred, .release =>
    if job.acquired ∧ s.semaphore ≠ 0 then
      some { s with
        semaphore := s.semaphore - 1
        jobs := s.jobs.set i { job with acquired := false } }
    else none
  | .deferred, .done =>
    if job.acquired then none
    else some { s with jobs := s.jobs.eraseIdx i, taskWg := s.taskWg - 1 }
  | _, _ => none

/-- **The step function.** `Start` and `Stop` do not overlap. -/
def step (cfg : Config) (limit : ℕ) (s : Workers) : WorkerAction → Option Workers
  | .start =>
    if s.caller ≠ .idle then none
    else some (if s.wheel.running then s
      else { s with wheel := { s.wheel with running := true }, caller := .starting })
  | .spawn now =>
    if s.caller ≠ .starting then none
    else (initialSlot cfg.interval cfg.slotNum now).map (fun slot =>
      { s with
        wheel := { s.wheel with currentSlot := slot }
        caller := .idle
        loops := s.loops ++ [.waiting] })
  | .stop =>
    if s.caller ≠ .idle then none
    else some (if s.wheel.running then
        { s with wheel := { s.wheel with running := false }, caller := .stopping .cancel }
      else s)
  | .advance =>
    match s.caller with
    | .stopping point => s.advance point
    | _ => none
  | .call a =>
    if a.isCall then
      (Scheduler.step cfg (Scheduler.ofWheel s.wheel) a).map (fun t => { s with wheel := t.wheel })
    else none
  | .submit i ok => s.queues[i]?.bind (s.submit i ok)
  | .loop i a => s.loops[i]?.bind (fun loop => s.stepLoop cfg i loop a)
  | .job i a => s.jobs[i]?.bind (fun job => s.stepJob cfg limit i job job.point a)

/-- The executions that `taskWg` counts: those handed over and not ended. -/
def unfinished (s : Workers) : ℕ := (s.queues.map List.length).sum + s.jobs.length

/-- The wheel is not running and no call is in progress: it was not started, or
`Stop` has returned. -/
def Stopped (s : Workers) : Prop := s.caller = .idle ∧ s.wheel.running = false

instance (s : Workers) : Decidable s.Stopped := inferInstanceAs (Decidable (_ ∧ _))

/-- **What is asked of a step**: the counter is exact and not negative, a
stopped wheel has no loop and no execution left, and none begins. -/
structure Graceful (s : Workers) (a : WorkerAction) (s' : Workers) : Prop where
  exact : s'.taskWg = s'.unfinished
  nonneg : 0 ≤ s'.taskWg
  drained : s'.Stopped → s'.loops = [] ∧ s'.unfinished = 0
  begins : s.Stopped → a.begins = false

/-! ## The steps of the threads -/

/-- What a step of a thread other than the caller's keeps: the counter stays
exact, no loop comes up, and without one no execution does. The last two fields
say that executions come from loops only. -/
structure Kept (s s' : Workers) : Prop where
  caller : s'.caller = s.caller
  running : s'.wheel.running = s.wheel.running
  count : s'.taskWg - s'.unfinished = s.taskWg - s.unfinished
  loops : s.loops = [] → s'.loops = []
  unfinished : s.loops = [] → s.unfinished = 0 → s'.unfinished = 0

/-- A step that only moves an execution on. It is still one execution. -/
theorem kept_of_set {w : TimeWheel} {semaphore : ℕ} (job : Job) (i : ℕ)
    (hup : w.running = s.wheel.running) :
    Kept s { s with wheel := w, semaphore := semaphore, jobs := s.jobs.set i job } := by
  have hsame : Workers.unfinished
      { s with wheel := w, semaphore := semaphore, jobs := s.jobs.set i job } = s.unfinished := by
    unfold Workers.unfinished
    rw [List.length_set]
  exact ⟨rfl, hup, by rw [hsame], fun h => h, fun _ h => hsame.trans h⟩

/-- Taking the first execution out of a queue. It moves from the queue to the
pool, or is dropped. -/
theorem sum_length_set {queues : List (List Execution)} {e : Execution} {es : List Execution}
    (h : queues[i]? = some (e :: es)) :
    (queues.map List.length).sum = ((queues.set i es).map List.length).sum + 1 := by
  induction queues generalizing i with
  | nil => simp at h
  | cons q queues ih =>
    cases i with
    | zero =>
      obtain rfl : q = e :: es := Option.some.inj h
      simp only [List.set_cons_zero, List.map_cons, List.sum_cons, List.length_cons]
      omega
    | succ i =>
      have hrest := ih (i := i) h
      simp only [List.set_cons_succ, List.map_cons, List.sum_cons]
      omega

/-- The goroutine that submits, whether the pool accepts or not. If the pool
refuses it, it is taken out of the counter at once. -/
theorem kept_of_submit {ok : Bool} {queue : List Execution} (hq : s.queues[i]? = some queue)
    (h : s.submit i ok queue = some s') : Kept s s' := by
  cases queue with
  | nil => cases h
  | cons e es =>
    have hsum := sum_length_set hq
    obtain rfl := Option.some.inj h
    cases ok with
    | true =>
      have hsame : Workers.unfinished { s with
          queues := s.queues.set i es, jobs := s.jobs ++ [⟨e, .submitted, false⟩] }
          = s.unfinished := by
        unfold Workers.unfinished
        dsimp only
        rw [List.length_append, List.length_singleton]
        omega
      exact ⟨rfl, rfl, by rw [if_pos rfl, hsame], fun h => h, fun _ h => hsame.trans h⟩
    | false =>
      have hless : Workers.unfinished { s with
          queues := s.queues.set i es, taskWg := s.taskWg - 1 } + 1 = s.unfinished := by
        unfold Workers.unfinished
        dsimp only
        omega
      refine ⟨rfl, rfl, ?_, fun h => h, fun _ h => ?_⟩
      · show s.taskWg - 1 - (Workers.unfinished _ : ℤ) = _
        rw [← hless]
        push_cast
        ring
      · exact absurd (hless.trans h) (Nat.succ_ne_zero _)

/-- A loop: the tick hands over what it has collected, and adds as many. They
are counted at the moment at which they are handed over. -/
theorem kept_of_stepLoop {a : LoopAction} {loop : LoopPoint} (hloop : s.loops[i]? = some loop)
    (h : s.stepLoop cfg i loop a = some s') : Kept s s' := by
  have hne : s.loops ≠ [] := fun hnil => by simp [hnil] at hloop
  have key : ∀ {t : Workers}, t.caller = s.caller → t.wheel.running = s.wheel.running →
      t.taskWg - t.unfinished = s.taskWg - s.unfinished → Kept s t := fun hcaller hrun hcount =>
    ⟨hcaller, hrun, hcount, fun h => absurd h hne, fun h => absurd h hne⟩
  unfold stepLoop at h
  split at h
  · obtain rfl := Option.some.inj h
    exact key rfl rfl rfl
  · split_ifs at h
    obtain rfl := Option.some.inj h
    exact key rfl rfl rfl
  · next execs =>
    obtain rfl := Option.some.inj h
    refine key rfl rfl ?_
    show s.taskWg + execs.length - (Workers.unfinished _ : ℤ) = _
    unfold Workers.unfinished
    split_ifs with hnil
    · rw [hnil]
      simp
    · simp only [List.map_append, List.map_cons, List.map_nil, List.sum_append, List.sum_cons,
        List.sum_nil]
      push_cast
      ring
  · cases h

/-- An execution: it counts until its deferred function has called `Done`.
However it ends, it calls `Done` once. -/
theorem kept_of_stepJob {a : JobAction} {job : Job} (hjob : s.jobs[i]? = some job)
    (h : s.stepJob cfg limit i job job.point a = some s') : Kept s s' := by
  unfold stepJob at h
  generalize job.point = point at h
  split at h
  · obtain rfl := Option.some.inj h
    exact kept_of_set _ i rfl
  · split_ifs at h
    · obtain rfl := Option.some.inj h
      exact kept_of_set _ i rfl
    · obtain rfl := Option.some.inj h
      exact kept_of_set _ i rfl
  · split_ifs at h
    obtain rfl := Option.some.inj h
    exact kept_of_set _ i rfl
  · next b =>
    obtain ⟨t, ht, rfl⟩ := Option.map_eq_some_iff.mp h
    refine kept_of_set _ i ?_
    cases b <;> exact (background_lookup rfl ht).1.running
  · obtain rfl := Option.some.inj h
    exact kept_of_set _ i rfl
  · split_ifs at h
    obtain rfl := Option.some.inj h
    exact kept_of_set _ i rfl
  · split_ifs at h
    obtain rfl := Option.some.inj h
    have hlt : i < s.jobs.length := (List.getElem?_eq_some_iff.mp hjob).1
    have hless : Workers.unfinished { s with jobs := s.jobs.eraseIdx i, taskWg := s.taskWg - 1 } + 1
        = s.unfinished := by
      unfold Workers.unfinished
      dsimp only
      rw [List.length_eraseIdx_of_lt hlt]
      omega
    refine ⟨rfl, rfl, ?_, fun h => h, fun _ h => ?_⟩
    · show s.taskWg - 1 - (Workers.unfinished _ : ℤ) = _
      rw [← hless]
      push_cast
      ring
    · exact absurd (hless.trans h) (Nat.succ_ne_zero _)
  · cases h

/-! ## The invariant -/

/-- What is left of the threads while the caller is where it is. Read from top
to bottom it is the progress of `Stop`. -/
def Settled (s : Workers) : Prop :=
  match s.caller with
  | .idle => s.wheel.running = false → s.loops = [] ∧ s.unfinished = 0
  | .starting => s.wheel.running = true
  | .stopping .cancel => s.wheel.running = false
  | .stopping .waitLoops => s.wheel.running = false
  | .stopping .waitTasks => s.wheel.running = false ∧ s.loops = []
  | .stopping .reset => s.wheel.running = false ∧ s.loops = [] ∧ s.unfinished = 0

/-- The counter is exact, and the threads are as far as the caller takes them to
be. This is the invariant of all interleavings. -/
structure Balanced (s : Workers) : Prop where
  exact : s.taskWg = s.unfinished
  settled : s.Settled

/-- The other threads do not disturb it. -/
theorem Kept.balanced (h : Kept s s') (hs : Balanced s) : Balanced s' := by
  obtain ⟨hexact, hsettled⟩ := hs
  refine ⟨?_, ?_⟩
  · have hcount := h.count
    omega
  · unfold Settled at hsettled ⊢
    rw [h.caller, h.running]
    cases hcaller : s.caller with
    | idle =>
      rw [hcaller] at hsettled
      exact fun hrun => ⟨h.loops (hsettled hrun).1,
        h.unfinished (hsettled hrun).1 (hsettled hrun).2⟩
    | starting =>
      rw [hcaller] at hsettled
      exact hsettled
    | stopping point =>
      rw [hcaller] at hsettled
      cases point with
      | cancel => exact hsettled
      | waitLoops => exact hsettled
      | waitTasks => exact ⟨hsettled.1, h.loops hsettled.2⟩
      | reset =>
        exact ⟨hsettled.1, h.loops hsettled.2.1, h.unfinished hsettled.2.1 hsettled.2.2⟩

/-- **`Stop` waits for the loops, and then for the counter**: in this order
nothing comes up any more while it waits. With the waits in the other order a
loop could still add executions. -/
theorem Balanced.advance {point : StopPoint} (hs : Balanced s)
    (hcaller : s.caller = .stopping point) (h : s.advance point = some s') : Balanced s' := by
  obtain ⟨hexact, hsettled⟩ := hs
  unfold Settled at hsettled
  rw [hcaller] at hsettled
  cases point with
  | cancel =>
    obtain rfl := Option.some.inj h
    exact ⟨hexact, hsettled⟩
  | waitLoops =>
    unfold Workers.advance at h
    dsimp only at h
    split at h
    · next hloops =>
      obtain rfl := Option.some.inj h
      exact ⟨hexact, hsettled, hloops⟩
    · cases h
  | waitTasks =>
    unfold Workers.advance at h
    dsimp only at h
    split_ifs at h with hzero
    obtain rfl := Option.some.inj h
    refine ⟨hexact, hsettled.1, hsettled.2, ?_⟩
    exact_mod_cast hexact.symm.trans hzero
  | reset =>
    obtain rfl := Option.some.inj h
    obtain ⟨-, hloops, hnone⟩ := hsettled
    exact ⟨(congrArg Nat.cast hnone).symm, fun _ => ⟨hloops, hnone⟩⟩

/-- **One step.** The caller's own steps, and those of the others. -/
theorem Balanced.step {a : WorkerAction} (hs : Balanced s)
    (hstep : step cfg limit s a = some s') : Balanced s' := by
  unfold Workers.step at hstep
  cases a with
  | start =>
    dsimp only at hstep
    split_ifs at hstep with hidle hrun
    · exact Option.some.inj hstep ▸ hs
    · obtain rfl := Option.some.inj hstep
      exact ⟨hs.exact, rfl⟩
  | spawn now =>
    dsimp only at hstep
    split_ifs at hstep with hstarting
    obtain ⟨slot, -, rfl⟩ := Option.map_eq_some_iff.mp hstep
    have hsettled := hs.settled
    unfold Settled at hsettled
    rw [not_not.mp hstarting] at hsettled
    exact ⟨hs.exact, fun hrun => absurd (hsettled.symm.trans hrun) Bool.noConfusion⟩
  | stop =>
    dsimp only at hstep
    split_ifs at hstep with hidle hrun
    · obtain rfl := Option.some.inj hstep
      exact ⟨hs.exact, rfl⟩
    · exact Option.some.inj hstep ▸ hs
  | advance =>
    dsimp only at hstep
    split at hstep
    · next point hcaller => exact hs.advance hcaller hstep
    · cases hstep
  | call a =>
    dsimp only at hstep
    split_ifs at hstep with ha
    obtain ⟨t, ht, rfl⟩ := Option.map_eq_some_iff.mp hstep
    -- a call of the interface starts no loop and no job
    have hkept : Kept s { s with wheel := t.wheel } :=
      ⟨rfl, (call_sameUp ha ht).running, rfl, fun h => h, fun _ h => h⟩
    exact hkept.balanced hs
  | submit i ok =>
    obtain ⟨queue, hq, hstep⟩ := Option.bind_eq_some_iff.mp hstep
    exact (kept_of_submit hq hstep).balanced hs
  | loop i a =>
    obtain ⟨loop, hloop, hstep⟩ := Option.bind_eq_some_iff.mp hstep
    exact (kept_of_stepLoop hloop hstep).balanced hs
  | job i a =>
    obtain ⟨job, hjob, hstep⟩ := Option.bind_eq_some_iff.mp hstep
    exact (kept_of_stepJob hjob hstep).balanced hs

/-- For a stopped wheel this is what was to be shown. -/
theorem Balanced.drained (hs : Balanced s) (h : s.Stopped) : s.loops = [] ∧ s.unfinished = 0 := by
  have hsettled := hs.settled
  unfold Settled at hsettled
  rw [h.1] at hsettled
  exact hsettled h.2

/-- No execution can begin where none is left. -/
theorem begins_of_unfinished {a : WorkerAction} (hnone : s.unfinished = 0)
    (hstep : step cfg limit s a = some s') : a.begins = false := by
  have hjobs : s.jobs = [] := List.eq_nil_of_length_eq_zero (Nat.eq_zero_of_add_eq_zero_left hnone)
  cases a with
  | job i a =>
    obtain ⟨job, hjob, -⟩ := Option.bind_eq_some_iff.mp hstep
    rw [hjobs] at hjob
    simp at hjob
  | _ => rfl

/-- **`Stop` is graceful**, whatever the order of the steps. -/
theorem graceful (cfg : Config) (limit : ℕ) (w : TimeWheel) (as : List WorkerAction) :
    Machine.Each (step cfg limit) Graceful (ofWheel w) as := by
  have hstep : ∀ s a s', Balanced s → True → step cfg limit s a = some s' →
      Balanced s' ∧ Graceful s a s' := by
    intro s a s' hs _ hstep
    have hs' := hs.step hstep
    exact ⟨hs', hs'.exact, hs'.exact ▸ Int.natCast_nonneg _, hs'.drained,
      fun hstopped => begins_of_unfinished (hs.drained hstopped).2 hstep⟩
  exact Machine.Each.of_invariant hstep ⟨rfl, fun _ => ⟨rfl, rfl⟩⟩
    (Machine.each_of_forall (fun _ _ => trivial))

/-- One task is refused by the pool, one gives up on the semaphore when the
context is cancelled, and one panics; `Stop` waits for all three. -/
example :
    (Machine.run (step fourSlots 1) (ofWheel (TimeWheel.new false none Time.zero))
      [.start, .spawn (Time.ofMilli 0), .call (addAt 0 "a" .repeated 10 none),
        .call (addAt 0 "b" .repeated 10 none), .call (addAt 0 "c" .repeated 10 none),
        .loop 0 (.tick (Time.ofMilli 10)), .stop, .loop 0 .handOver, .submit 0 false,
        .submit 0 true, .submit 0 true, .job 0 .begin, .job 1 .begin, .job 1 .acquire,
        .job 1 (.body .start), .advance, .job 0 .giveUp, .loop 0 .exit, .advance, .job 0 .done,
        .job 0 .panic, .job 0 .release, .job 0 .done, .advance, .advance]).map
          (fun s => (decide s.Stopped, s.jobs.length, s.taskWg)) = some (true, 0, 0) := by
  decide +kernel

end Workers

end Timewheel
