import Timewheel.Restart

/-!
# Concurrent calls of Start and Stop

`Start` sets `running` and then spawns the loop; `Stop` clears `running`, and
then cancels the context, waits for the loop and for the tasks, and puts a new
context in its place. Nothing keeps the two apart: a `Start` that begins while
a `Stop` is on its way spawns a loop that sees the cancelled context and ends,
and the wheel is left without one, `running` as it is.

`truthful_of_alone` says that this takes an overlap: in a run in which no loop
is spawned while a `Stop` is in progress, and no `Stop` takes hold of a wheel
whose loop has not been spawned, `running` says whether there is a loop
whenever no call is in progress.

`Threads` keeps of the executions only their number, since the calls wait for
them and do nothing else with them. The states that a run of calls that keep
apart can be in are few enough to be listed (`Orderly`), and the step lemma
goes through them.
-/

namespace Timewheel

open TimeWheel

variable {cfg : Config}

/-! ## The parts of Stop -/

/-- `tw.cancel()`. The contexts of the tasks are its children. -/
def TimeWheel.cancelRoot (w : TimeWheel) : TimeWheel := w.cancelCtx (some w.ctx)

/-- `tw.ctx, tw.cancel = context.WithCancel(context.Background())`. The children
of the old one stay cancelled. -/
def TimeWheel.renewCtx (w : TimeWheel) : TimeWheel :=
  { w with
    ctx := w.nextCtx
    ctxs := Function.update w.ctxs w.nextCtx ⟨none, false⟩
    nextCtx := w.nextCtx + 1 }

/-- The context of the wheel is cancelled: the loops that look at it exit. -/
def TimeWheel.RootDone (w : TimeWheel) : Prop := (w.ctxs w.ctx).cancelled = true

instance (w : TimeWheel) : Decidable w.RootDone := inferInstanceAs (Decidable (_ = _))

/-- Cancelling makes it done, -/
theorem TimeWheel.rootDone_cancelRoot (w : TimeWheel) : w.cancelRoot.RootDone := by
  show (Function.update w.ctxs w.ctx { w.ctxs w.ctx with cancelled := true } w.ctx).cancelled = true
  rw [Function.update_self]

/-- and a new one is not done. -/
theorem TimeWheel.not_rootDone_renewCtx (w : TimeWheel) : ¬ w.renewCtx.RootDone := by
  show ¬ (Function.update w.ctxs w.nextCtx ⟨none, false⟩ w.nextCtx).cancelled = true
  rw [Function.update_self]
  exact Bool.false_ne_true

/-- `Stop` is its parts. It can be interrupted between any two of them. -/
theorem TimeWheel.stop_eq (w : TimeWheel) (h : w.running = true) :
    w.stop = ({ w with running := false }).cancelRoot.renewCtx := by
  unfold TimeWheel.stop
  rw [if_pos h]
  rfl

/-! ## The system -/

/-- What a `Stop` that has cleared `running` does next. Clearing `running` is
the compare-and-swap at its beginning. -/
inductive StopPoint where
  | cancel
  | waitLoops
  | waitTasks
  | reset
  deriving DecidableEq, Repr

/-- The wheel, its loops, the executions they have collected, and the calls in
progress: how many `Start`s have set `running` and not spawned their loop yet,
and where each `Stop` stands. `Start` and `Stop` may be called any number of
times, by anybody. -/
structure Threads where
  wheel : TimeWheel
  starts : ℕ
  stops : List StopPoint
  loops : ℕ
  tasks : ℕ

/-- One step of one thread. Executions other than the end of one are not needed
here. -/
inductive ThreadAction where
  /-- The compare-and-swap of `Start`. -/
  | start
  /-- The rest of `Start`. -/
  | spawn (now : Time)
  /-- The compare-and-swap of `Stop`. -/
  | stop
  /-- The next step of the `i`-th `Stop` in progress. -/
  | advance (i : ℕ)
  /-- A loop finds the context cancelled. -/
  | exit
  /-- A loop ticks. -/
  | tick (now : Time)
  /-- An execution ends. -/
  | taskDone

namespace Threads

variable {s s' : Threads} {i : ℕ} {now : Time}

/-- A wheel with no call in progress. -/
def ofWheel (w : TimeWheel) : Threads := ⟨w, 0, [], 0, 0⟩

/-- A `Stop` at the given point takes its next step. The two waits are steps
that are not possible yet. -/
def advance (s : Threads) (i : ℕ) : StopPoint → Option Threads
  | .cancel => some { s with wheel := s.wheel.cancelRoot, stops := s.stops.set i .waitLoops }
  | .waitLoops =>
    if s.loops = 0 then some { s with stops := s.stops.set i .waitTasks } else none
  | .waitTasks => if s.tasks = 0 then some { s with stops := s.stops.set i .reset } else none
  | .reset => some { s with wheel := s.wheel.renewCtx, stops := s.stops.eraseIdx i }

/-- **The step function.** A `Start` of a running wheel and a `Stop` of one
that is not return at once. -/
def step (cfg : Config) (s : Threads) : ThreadAction → Option Threads
  | .start =>
    some (if s.wheel.running then s
      else { s with wheel := { s.wheel with running := true }, starts := s.starts + 1 })
  | .spawn now =>
    if s.starts = 0 then none
    else (initialSlot cfg.interval cfg.slotNum now).map (fun slot =>
      { s with
        wheel := { s.wheel with currentSlot := slot }
        starts := s.starts - 1
        loops := s.loops + 1 })
  | .stop =>
    some (if s.wheel.running then
        { s with wheel := { s.wheel with running := false }, stops := s.stops ++ [.cancel] }
      else s)
  | .advance i => s.stops[i]?.bind (s.advance i)
  | .exit => if s.loops ≠ 0 ∧ s.wheel.RootDone then some { s with loops := s.loops - 1 } else none
  | .tick now =>
    if s.loops = 0 then none
    else
      let (_, due, w) := s.wheel.tick cfg now
      some { s with wheel := w, tasks := s.tasks + due.length }
  | .taskDone => if s.tasks = 0 then none else some { s with tasks := s.tasks - 1 }

/-- No call is in progress, and the loops have seen their context. A loop that
has not looked at its context yet is about to end. -/
def Quiet (s : Threads) : Prop :=
  s.starts = 0 ∧ s.stops = [] ∧ (s.wheel.RootDone → s.loops = 0)

/-- **`running` is true to the loops.** There is one loop at most. -/
def Truthful (s : Threads) : Prop :=
  (s.wheel.running = true ↔ s.loops = 1) ∧ (s.wheel.running = false ↔ s.loops = 0)

/-- **The calls do not get in each other's way**: a loop is spawned only when no
`Stop` is in progress, and a `Stop` takes hold only of a wheel whose loop has
been spawned. Both conditions are on the state before the step. -/
def Alone (s : Threads) : ThreadAction → Prop
  | .spawn _ => s.stops = []
  | .stop => s.wheel.running = true → s.starts = 0
  | _ => True

instance (s : Threads) : Decidable s.Quiet := inferInstanceAs (Decidable (_ ∧ _))

instance (s : Threads) : Decidable s.Truthful := inferInstanceAs (Decidable (_ ∧ _))

instance (s : Threads) (a : ThreadAction) : Decidable (s.Alone a) :=
  match a with
  | .spawn _ => inferInstanceAs (Decidable (s.stops = []))
  | .stop => inferInstanceAs (Decidable (_ → _))
  | .start => isTrue trivial
  | .advance _ => isTrue trivial
  | .exit => isTrue trivial
  | .tick _ => isTrue trivial
  | .taskDone => isTrue trivial

/-! ### One call after the other -/

/-- `Start` without interruption. This is the `Start` of the sequential model. -/
theorem run_start (hrun : s.wheel.running = false) (now : Time) :
    Machine.run (step cfg) s [.start, .spawn now]
      = (s.wheel.start cfg now).map (fun w => { s with wheel := w, loops := s.loops + 1 }) := by
  have hstart : step cfg s .start
      = some { s with wheel := { s.wheel with running := true }, starts := s.starts + 1 } := by
    unfold step
    rw [hrun]
    rfl
  rw [Machine.run_cons_of_step hstart, Machine.run_cons]
  unfold step TimeWheel.start
  dsimp only
  rw [if_neg (Nat.succ_ne_zero _), hrun, if_neg (by exact Bool.false_ne_true)]
  cases initialSlot cfg.interval cfg.slotNum now with
  | none => rfl
  | some slot => rfl

/-- `Stop` without interruption, once the executions have ended. This is its
`Stop`. -/
theorem run_stop (hrun : s.wheel.running = true) (hstops : s.stops = []) (hloops : s.loops = 1)
    (htasks : s.tasks = 0) :
    Machine.run (step cfg) s [.stop, .advance 0, .exit, .advance 0, .advance 0, .advance 0]
      = some { s with wheel := s.wheel.stop, loops := 0 } := by
  obtain ⟨w, starts, stops, loops, tasks⟩ := s
  dsimp only at hrun hstops hloops htasks
  subst hstops hloops htasks
  have hstop : step cfg ⟨w, starts, [], 1, 0⟩ .stop
      = some ⟨{ w with running := false }, starts, [.cancel], 1, 0⟩ := by
    unfold step
    dsimp only
    rw [hrun]
    rfl
  have hcancel : step cfg ⟨{ w with running := false }, starts, [.cancel], 1, 0⟩ (.advance 0)
      = some ⟨({ w with running := false } : TimeWheel).cancelRoot, starts, [.waitLoops], 1, 0⟩ :=
    rfl
  have hexit : step cfg ⟨({ w with running := false } : TimeWheel).cancelRoot, starts,
      [.waitLoops], 1, 0⟩ .exit
      = some ⟨({ w with running := false } : TimeWheel).cancelRoot, starts, [.waitLoops], 0, 0⟩ :=
    if_pos ⟨Nat.one_ne_zero, rootDone_cancelRoot _⟩
  rw [Machine.run_cons_of_step hstop, Machine.run_cons_of_step hcancel,
    Machine.run_cons_of_step hexit, stop_eq w hrun]
  rfl

/-! ## The invariant -/

/-- What holds of the loops while a `Stop` stands at a point. The context is
cancelled from the first step on until the last. -/
def Fits (s : Threads) : StopPoint → Prop
  | .cancel => ¬ s.wheel.RootDone ∧ s.loops = 1
  | .waitLoops => s.wheel.RootDone ∧ s.loops ≤ 1
  | .waitTasks => s.wheel.RootDone ∧ s.loops = 0
  | .reset => s.wheel.RootDone ∧ s.loops = 0

/-- **The states of calls that keep apart.** The wheel is stopped, starting or
up, or a `Stop` is in progress, and then at most a `Start` waits for its end. In
each of the cases it is known how many loops there are. -/
inductive Orderly (s : Threads) : Prop where
  | stopped (stops : s.stops = []) (starts : s.starts = 0) (running : s.wheel.running = false)
      (ctx : ¬ s.wheel.RootDone) (loops : s.loops = 0)
  | starting (stops : s.stops = []) (starts : s.starts = 1) (running : s.wheel.running = true)
      (ctx : ¬ s.wheel.RootDone) (loops : s.loops = 0)
  | up (stops : s.stops = []) (starts : s.starts = 0) (running : s.wheel.running = true)
      (ctx : ¬ s.wheel.RootDone) (loops : s.loops = 1)
  | stopping (pc : StopPoint) (stops : s.stops = [pc]) (fits : s.Fits pc)
      (starts : (s.starts = 0 ∧ s.wheel.running = false)
        ∨ (s.starts = 1 ∧ s.wheel.running = true))

/-- When no call is in progress, two of the cases are left. -/
theorem Orderly.truthful (h : Orderly s) (hquiet : s.Quiet) : s.Truthful := by
  obtain ⟨hstarts, hstops, -⟩ := hquiet
  unfold Truthful
  cases h with
  | stopped _ _ running _ loops => simp [running, loops]
  | starting _ starts _ _ _ => exact absurd (hstarts.symm.trans starts) Nat.zero_ne_one
  | up _ _ running _ loops => simp [running, loops]
  | stopping pc stops _ _ => exact absurd (hstops.symm.trans stops) (List.cons_ne_nil _ _).symm

/-- A `Stop` that is at the point `pc` and in progress alone. After the last
step the wheel is stopped, or the `Start` that has waited goes on. -/
theorem Orderly.advance {pc : StopPoint} (hstops : s.stops = [pc]) (hfits : s.Fits pc)
    (hstarts : (s.starts = 0 ∧ s.wheel.running = false)
      ∨ (s.starts = 1 ∧ s.wheel.running = true)) (h : s.advance 0 pc = some s') :
    Orderly s' := by
  obtain ⟨w, starts, stops, loops, tasks⟩ := s
  dsimp only at hstops hstarts
  subst hstops
  cases pc with
  | cancel =>
    obtain rfl := Option.some.inj h
    exact .stopping .waitLoops rfl ⟨rootDone_cancelRoot w, hfits.2.le⟩ hstarts
  | waitLoops =>
    unfold Threads.advance at h
    dsimp only at h
    split_ifs at h with hloops
    obtain rfl := Option.some.inj h
    exact .stopping .waitTasks rfl ⟨hfits.1, hloops⟩ hstarts
  | waitTasks =>
    unfold Threads.advance at h
    dsimp only at h
    split_ifs at h
    obtain rfl := Option.some.inj h
    exact .stopping .reset rfl hfits hstarts
  | reset =>
    obtain rfl := Option.some.inj h
    obtain ⟨hzero, hrunning⟩ | ⟨hone, hrunning⟩ := hstarts
    · exact .stopped rfl hzero hrunning (not_rootDone_renewCtx w) hfits.2
    · exact .starting rfl hone hrunning (not_rootDone_renewCtx w) hfits.2

/-- The invariant does not look at the cursor, the slots or the executions. So
ticks and ends of executions need no argument. -/
theorem Orderly.congr (h : Orderly s) (hstarts : s'.starts = s.starts)
    (hstops : s'.stops = s.stops) (hloops : s'.loops = s.loops)
    (hrunning : s'.wheel.running = s.wheel.running)
    (hctx : s'.wheel.RootDone ↔ s.wheel.RootDone) : Orderly s' := by
  cases h with
  | stopped stops starts running ctx loops =>
    exact .stopped (hstops.trans stops) (hstarts.trans starts) (hrunning.trans running)
      (mt hctx.mp ctx) (hloops.trans loops)
  | starting stops starts running ctx loops =>
    exact .starting (hstops.trans stops) (hstarts.trans starts) (hrunning.trans running)
      (mt hctx.mp ctx) (hloops.trans loops)
  | up stops starts running ctx loops =>
    exact .up (hstops.trans stops) (hstarts.trans starts) (hrunning.trans running)
      (mt hctx.mp ctx) (hloops.trans loops)
  | stopping pc stops fits starts =>
    refine .stopping pc (hstops.trans stops) ?_ (by rwa [hstarts, hrunning])
    cases pc with
    | cancel => exact ⟨mt hctx.mp fits.1, hloops.trans fits.2⟩
    | waitLoops => exact ⟨hctx.mpr fits.1, hloops.trans_le fits.2⟩
    | waitTasks => exact ⟨hctx.mpr fits.1, hloops.trans fits.2⟩
    | reset => exact ⟨hctx.mpr fits.1, hloops.trans fits.2⟩

/-- **One step** of calls that keep apart. The cases of the state against the
actions. -/
theorem Orderly.step (h : Orderly s) {a : ThreadAction} (ha : s.Alone a)
    (hstep : step cfg s a = some s') : Orderly s' := by
  cases a with
  | start =>
    obtain rfl := Option.some.inj hstep
    cases hrun : s.wheel.running with
    | true => exact h
    | false =>
      cases h with
      | stopped stops starts running ctx loops =>
        exact .starting stops (congrArg Nat.succ starts) rfl ctx loops
      | starting _ _ running _ _ => cases running.symm.trans hrun
      | up _ _ running _ _ => cases running.symm.trans hrun
      | stopping pc stops fits starts =>
        -- this `Start` comes while a `Stop` is still waiting; none other has begun
        refine .stopping pc stops ?_ (Or.inr ⟨?_, rfl⟩)
        · cases pc <;> exact fits
        · rcases starts with ⟨starts, -⟩ | ⟨-, running⟩
          · exact congrArg Nat.succ starts
          · cases running.symm.trans hrun
  | spawn now =>
    unfold Threads.step at hstep
    dsimp only at hstep
    split_ifs at hstep with hstarts
    obtain ⟨slot, -, rfl⟩ := Option.map_eq_some_iff.mp hstep
    cases h with
    | stopped _ starts _ _ _ => exact absurd starts hstarts
    | starting stops starts running ctx loops =>
      exact .up stops (congrArg Nat.pred starts) running ctx (congrArg Nat.succ loops)
    | up _ starts _ _ _ => exact absurd starts hstarts
    -- a `Start` that keeps apart spawns while no `Stop` is under way
    | stopping pc stops _ _ => exact absurd (stops.symm.trans ha) (List.cons_ne_nil _ _)
  | stop =>
    obtain rfl := Option.some.inj hstep
    cases hrun : s.wheel.running with
    | false => exact h
    | true =>
      -- no `Start` is between its two halves, so the wheel is up
      have hstarts := ha hrun
      cases h with
      | stopped _ _ running _ _ => cases running.symm.trans hrun
      | starting _ starts _ _ _ => exact absurd (hstarts.symm.trans starts) Nat.zero_ne_one
      | up stops starts running ctx loops =>
        refine .stopping .cancel ?_ ⟨ctx, loops⟩ (Or.inl ⟨starts, rfl⟩)
        show s.stops ++ [.cancel] = [.cancel]
        rw [stops]
        rfl
      | stopping pc stops fits starts =>
        rcases starts with ⟨-, running⟩ | ⟨starts, -⟩
        · cases running.symm.trans hrun
        · exact absurd (hstarts.symm.trans starts) Nat.zero_ne_one
  | advance i =>
    obtain ⟨pc, hpc, hstep⟩ := Option.bind_eq_some_iff.mp hstep
    cases h with
    | stopped stops _ _ _ _ => exact absurd (stops ▸ hpc) (by simp)
    | starting stops _ _ _ _ => exact absurd (stops ▸ hpc) (by simp)
    | up stops _ _ _ _ => exact absurd (stops ▸ hpc) (by simp)
    | stopping pc' stops fits starts =>
      rw [stops] at hpc
      obtain ⟨rfl, rfl⟩ : i = 0 ∧ pc = pc' := by
        cases i with
        | zero => exact ⟨rfl, (Option.some.inj hpc).symm⟩
        | succ i => simp at hpc
      exact Orderly.advance stops fits starts hstep
  | exit =>
    unfold Threads.step at hstep
    dsimp only at hstep
    split_ifs at hstep with hexit
    obtain rfl := Option.some.inj hstep
    obtain ⟨hloops, hdone⟩ := hexit
    cases h with
    | stopped _ _ _ ctx _ => exact absurd hdone ctx
    | starting _ _ _ ctx _ => exact absurd hdone ctx
    | up _ _ _ ctx _ => exact absurd hdone ctx
    | stopping pc stops fits starts =>
      refine .stopping pc stops ?_ starts
      -- a loop can only return once the context is cancelled, and `Stop` is waiting for it then
      cases pc with
      | cancel => exact absurd hdone fits.1
      | waitLoops => exact ⟨fits.1, (Nat.sub_le _ _).trans fits.2⟩
      | waitTasks => exact absurd fits.2 hloops
      | reset => exact absurd fits.2 hloops
  | tick now =>
    unfold Threads.step at hstep
    dsimp only at hstep
    split_ifs at hstep
    obtain rfl := Option.some.inj hstep
    exact h.congr rfl rfl rfl rfl Iff.rfl
  | taskDone =>
    unfold Threads.step at hstep
    dsimp only at hstep
    split_ifs at hstep
    obtain rfl := Option.some.inj hstep
    exact h.congr rfl rfl rfl rfl Iff.rfl

/-- **`running` tells the truth when the calls keep apart.** The run may be any
interleaving otherwise, with any number of calls. -/
theorem truthful_of_alone {w : TimeWheel} (hrun : w.running = false) (hctx : ¬ w.RootDone)
    {as : List ThreadAction}
    (h : Machine.Each (step cfg) (fun s a _ => s.Alone a) (ofWheel w) as) :
    Machine.Each (step cfg) (fun _ _ s' => s'.Quiet → s'.Truthful) (ofWheel w) as := by
  have hstep : ∀ s a s', Orderly s → s.Alone a → step cfg s a = some s' →
      Orderly s' ∧ (s'.Quiet → s'.Truthful) := by
    intro s a s' hs ha hstep
    have hs' := hs.step ha hstep
    exact ⟨hs', hs'.truthful⟩
  exact Machine.Each.of_invariant hstep (.stopped rfl rfl hrun hctx rfl) h

/-- Two `Start`s and a `Stop` in turn, with a loop that ticks. -/
theorem truthful_of_restart :
    Machine.Each (step fourSlots) (fun _ _ s' => s'.Quiet → s'.Truthful)
      (ofWheel (TimeWheel.new false none Time.zero))
      [.start, .start, .spawn (Time.ofMilli 0), .tick (Time.ofMilli 10), .stop, .advance 0,
        .stop, .start, .exit, .advance 0, .advance 0, .advance 0, .spawn (Time.ofMilli 20)] :=
  truthful_of_alone rfl (by decide) (by decide +kernel)

/-- **A `Start` that begins while a `Stop` is on its way**: the wheel is
running, and no loop is left. -/
theorem not_truthful_of_overlap :
    ¬ ∀ (w : TimeWheel), w.running = false → ¬ w.RootDone → ∀ as : List ThreadAction,
      Machine.Each (step fourSlots) (fun _ _ s' => s'.Quiet → s'.Truthful) (ofWheel w) as := by
  intro h
  have hrun : (Machine.run (step fourSlots) (ofWheel (TimeWheel.new false none Time.zero))
      [.start, .spawn (Time.ofMilli 0), .stop, .start, .spawn (Time.ofMilli 5), .advance 0, .exit,
        .exit, .advance 0, .advance 0, .advance 0]).map (fun s =>
      (decide s.Quiet, s.wheel.running, s.loops)) = some (true, true, 0) := by
    decide +kernel
  obtain ⟨s, hs, hafter⟩ := Option.map_eq_some_iff.mp hrun
  obtain ⟨hquiet, hafter⟩ := Prod.mk.inj hafter
  obtain ⟨hrunning, hloops⟩ := Prod.mk.inj hafter
  have htruth := Machine.state_of_each (P := fun s => s.Quiet → s.Truthful)
    (fun _ => ⟨by decide, by decide⟩) (h _ rfl (by decide) _) hs (of_decide_eq_true hquiet)
  exact Nat.zero_ne_one (hloops.symm.trans (htruth.1.mp hrunning))

end Threads

end Timewheel
