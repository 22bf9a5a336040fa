import Timewheel.Types

/-!
# Slots and the cursor

A wheel has `slotNum` slots and a cursor that a tick moves on by one. A task
due at `t` goes to the slot of the bucket `t / interval`, and `Start` sets the
cursor from the bucket of the current time, so that the two stay in step.

They do, as far as buckets go: the tick that happens in a bucket handles the
slot of that bucket (`slotOfTick_bucket`). But a tick happens at the phase of
the wheel inside its bucket and a task is due at a phase of its own, and when
the task's phase is the later one the tick of its bucket comes too early. The
next tick handles another slot, so the task waits for the cursor to come
round. `onTime_iff` says exactly when that does not happen.
-/

namespace Timewheel

/-! ## The code -/

/-- `intervalMs` of `AddTask` and `rescheduleTask`: the interval of the wheel
in milliseconds, and at least 1 so that the division is defined. -/
def intervalMs (interval : Duration) : ℤ :=
  if interval.milliseconds = 0 then 1 else interval.milliseconds

/-- The slot `AddTask` and `rescheduleTask` compute for a task that is to run
a duration `delay` after `now`. -/
def slotIndexFor (interval : Duration) (slotNum : ℕ) (now : Time) (delay : Duration) : ℕ :=
  ((((now.unixMilli : ℤ) + delay.milliseconds).tdiv (intervalMs interval)).tmod slotNum).toNat

/-- `initialSlot` of `Start`: it divides by the interval without the guard of
`intervalMs`, and panics for an interval below a millisecond. -/
def initialSlot (interval : Duration) (slotNum : ℕ) (now : Time) : Option ℕ :=
  if interval.milliseconds = 0 then none
  else some ((((now.unixMilli : ℤ).tdiv interval.milliseconds).tmod slotNum).toNat)

/-- The slot a tick handles: it moves the cursor on and wraps it. -/
def tickSlot (slotNum cursor : ℕ) : ℕ := (cursor + 1) % slotNum

/-- The test of `tick`: `now.Sub(node.runAt) >= 0`. -/
def isDue (now runAt : Time) : Bool := decide (0 ≤ now.sub runAt)

theorem isDue_iff (now runAt : Time) : isDue now runAt = true ↔ runAt ≤ now := by
  rw [isDue, decide_eq_true_iff, Time.sub_nonneg_iff]

/-! ## Slots stay in the wheel -/

/-- Every slot the scheduler computes for a task is a slot of the wheel. -/
theorem slotIndexFor_lt (interval : Duration) {slotNum : ℕ} (h : 0 < slotNum) (now : Time)
    (delay : Duration) : slotIndexFor interval slotNum now delay < slotNum := by
  unfold slotIndexFor
  have hlt := Int.tmod_lt_of_pos
    (((now.unixMilli : ℤ) + delay.milliseconds).tdiv (intervalMs interval))
    (show (0 : ℤ) < slotNum by exact_mod_cast h)
  omega

/-! ## Whole milliseconds

With an interval, a clock and task intervals of whole milliseconds, the
arithmetic is that of natural numbers. -/

/-- A duration of `m` milliseconds. -/
def Duration.ofMilli (m : ℕ) : Duration := m * Duration.millisecond

@[simp] theorem milliseconds_ofMilli (m : ℕ) : (Duration.ofMilli m).milliseconds = m := by
  unfold Duration.milliseconds Duration.ofMilli Duration.millisecond
  exact Int.mul_tdiv_cancel _ (by decide)

theorem add_ofMilli (t m : ℕ) : (Time.ofMilli t).add (Duration.ofMilli m) = Time.ofMilli (t + m) := by
  unfold Time.add Time.ofMilli Duration.ofMilli Duration.millisecond
  generalize Time.unixEpoch = epoch
  rw [add_mul, ← add_assoc]
  rfl

theorem ofMilli_le_ofMilli (s t : ℕ) : Time.ofMilli s ≤ Time.ofMilli t ↔ s ≤ t := by
  unfold Time.ofMilli
  rw [Nat.add_le_add_iff_left]
  exact Nat.mul_le_mul_right_iff (by decide)

theorem slotIndexFor_ofMilli {I : ℕ} (hI : 1 ≤ I) (N a d : ℕ) :
    slotIndexFor (Duration.ofMilli I) N (Time.ofMilli a) (Duration.ofMilli d)
      = (a + d) / I % N := by
  have hms : intervalMs (Duration.ofMilli I) = I := by
    unfold intervalMs
    rw [milliseconds_ofMilli, if_neg (by omega)]
  unfold slotIndexFor
  rw [Time.unixMilli_ofMilli, milliseconds_ofMilli, hms]
  exact_mod_cast rfl

theorem initialSlot_ofMilli {I : ℕ} (hI : 1 ≤ I) (N t : ℕ) :
    initialSlot (Duration.ofMilli I) N (Time.ofMilli t) = some (t / I % N) := by
  unfold initialSlot
  rw [Time.unixMilli_ofMilli, milliseconds_ofMilli, if_neg (by omega)]
  exact_mod_cast rfl

/-! ## Ideal ticks

A wheel of interval `I` milliseconds and `N` slots is started at `T0`. Its
`k`-th tick, `k ≥ 1`, happens at `T0 + k * I`, when the cursor stands at
`k - 1` beyond its initial slot. At a time `a` a task of interval `d` is put
in its slot, by `AddTask` or by `rescheduleTask`. -/

section Ideal

variable (I N T0 a d : ℕ)

/-- The time of the `k`-th tick. -/
def tickTime (k : ℕ) : Time := Time.ofMilli (T0 + k * I)

/-- The slot the `k`-th tick handles. -/
def slotOfTick (k : ℕ) : Option ℕ :=
  (initialSlot (Duration.ofMilli I) N (Time.ofMilli T0)).map
    (fun cursor => tickSlot N (cursor + (k - 1)))

/-- When the task is due. -/
def runAt : Time := (Time.ofMilli a).add (Duration.ofMilli d)

/-- The ticks after `a` that collect the task: they visit its slot, and it is
due. -/
def collectingTicks : Set ℕ :=
  {k | 1 ≤ k ∧ Time.ofMilli a < tickTime I T0 k
    ∧ slotOfTick I N T0 k
      = some (slotIndexFor (Duration.ofMilli I) N (Time.ofMilli a) (Duration.ofMilli d))
    ∧ isDue (tickTime I T0 k) (runAt a d) = true}

/-- The ticks at or after the time the task is due. -/
def dueTicks : Set ℕ := {k | 1 ≤ k ∧ isDue (tickTime I T0 k) (runAt a d) = true}

/-- **On-time dispatch**: the first tick that collects the task is the first
tick of the wheel at or after its due time, less than one interval late. -/
def OnTime : Prop :=
  ∃ k, IsLeast (collectingTicks I N T0 a d) k ∧ IsLeast (dueTicks I T0 a d) k
    ∧ tickTime I T0 k < (runAt a d).add (Duration.ofMilli I)

variable {I N T0 a d}

theorem isDue_tickTime (k : ℕ) :
    isDue (tickTime I T0 k) (runAt a d) = true ↔ a + d ≤ T0 + k * I := by
  rw [isDue_iff, runAt, add_ofMilli, tickTime, ofMilli_le_ofMilli]

theorem slotOfTick_eq (hI : 1 ≤ I) {k : ℕ} (hk : 1 ≤ k) :
    slotOfTick I N T0 k = some ((T0 / I + k) % N) := by
  rw [slotOfTick, initialSlot_ofMilli hI, Option.map_some, tickSlot,
    show T0 / I % N + (k - 1) + 1 = T0 / I % N + k from by omega, Nat.mod_add_mod]

/-- **A tick handles the slot of the bucket it happens in.** -/
theorem slotOfTick_bucket (hI : 1 ≤ I) {k : ℕ} (hk : 1 ≤ k) :
    slotOfTick I N T0 k = some ((T0 + k * I) / I % N) := by
  rw [slotOfTick_eq hI hk, Nat.add_mul_div_right _ _ hI]

/-- The tick that happens in the bucket of the due time, or one later when
that tick comes before the task is due. -/
def firstDueTick (I T0 r : ℕ) : ℕ :=
  if r % I ≤ T0 % I then r / I - T0 / I else r / I - T0 / I + 1

/-- The time of a tick and the due time, split into bucket and phase. -/
theorem due_iff_bucket (hI : 1 ≤ I) (r k : ℕ) :
    r ≤ T0 + k * I ↔ r / I < T0 / I + k ∨ (r / I = T0 / I + k ∧ r % I ≤ T0 % I) := by
  have hr := Nat.div_add_mod r I
  have hT := Nat.div_add_mod T0 I
  have hrI := Nat.mod_lt r hI
  have hTI := Nat.mod_lt T0 hI
  have hmul : I * (T0 / I + k) = I * (T0 / I) + k * I := by ring
  constructor
  · intro h
    rcases Nat.lt_trichotomy (r / I) (T0 / I + k) with hlt | heq | hgt
    · exact Or.inl hlt
    · refine Or.inr ⟨heq, ?_⟩
      rw [heq] at hr
      omega
    · have := Nat.mul_le_mul_left I (Nat.succ_le_of_lt hgt)
      rw [Nat.mul_succ] at this
      omega
  · rintro (hlt | ⟨heq, hle⟩)
    · have := Nat.mul_le_mul_left I (Nat.succ_le_of_lt hlt)
      rw [Nat.mul_succ] at this
      omega
    · rw [heq] at hr
      omega

/-- **The first tick at or after a due time that lies after the start.** -/
theorem isLeast_dueTicks (hI : 1 ≤ I) (hr : T0 < a + d) :
    IsLeast (dueTicks I T0 a d) (firstDueTick I T0 (a + d)) := by
  have hbucket : T0 / I ≤ (a + d) / I := Nat.div_le_div_right hr.le
  -- in the starting bucket, a later due time has a later phase
  have hsame : (a + d) / I = T0 / I → T0 % I < (a + d) % I := by
    intro h
    have h₁ := Nat.div_add_mod (a + d) I
    have h₂ := Nat.div_add_mod T0 I
    rw [h] at h₁
    omega
  constructor
  · refine ⟨?_, (isDue_tickTime _).mpr ((due_iff_bucket hI _ _).mpr ?_)⟩
    · unfold firstDueTick
      split_ifs
      all_goals omega
    · unfold firstDueTick
      split_ifs
      all_goals omega
  · rintro k ⟨_, hk⟩
    rcases (due_iff_bucket hI _ _).mp ((isDue_tickTime k).mp hk) with hlt | ⟨heq, hle⟩
    · unfold firstDueTick
      split_ifs
      all_goals omega
    · unfold firstDueTick
      rw [if_pos hle]
      omega

/-- The first tick at or after the due time visits the slot of the task
exactly when the wheel has a single slot or the task is not due later in its
bucket than the wheel ticks. -/
theorem slotOfTick_firstDueTick (hI : 1 ≤ I) (hr : T0 < a + d) :
    slotOfTick I N T0 (firstDueTick I T0 (a + d)) = some ((a + d) / I % N)
      ↔ N = 1 ∨ (a + d) % I ≤ T0 % I := by
  have hk := (isLeast_dueTicks hI hr).1.1
  have hbucket : T0 / I ≤ (a + d) / I := Nat.div_le_div_right hr.le
  rw [slotOfTick_eq hI hk, Option.some.injEq]
  unfold firstDueTick
  by_cases hphase : (a + d) % I ≤ T0 % I
  · rw [if_pos hphase, show T0 / I + ((a + d) / I - T0 / I) = (a + d) / I from by omega]
    exact ⟨fun _ => Or.inr hphase, fun _ => rfl⟩
  · rw [if_neg hphase,
      show T0 / I + ((a + d) / I - T0 / I + 1) = (a + d) / I + 1 from by omega]
    constructor
    · intro h
      -- two neighbouring buckets share a slot only in a wheel of one slot
      have hmod : (a + d) / I + 1 ≡ (a + d) / I + 0 [MOD N] := h
      exact Or.inl (Nat.dvd_one.mp
        (Nat.modEq_zero_iff_dvd.mp (Nat.ModEq.add_left_cancel' _ hmod)))
    · rintro (rfl | h)
      · rw [Nat.mod_one, Nat.mod_one]
      · exact absurd h hphase

/-- **When a task is dispatched on time.** The first tick that collects the
task is the first tick at or after its due time exactly when the wheel has a
single slot or the due time's phase in its bucket is not later than the phase
the wheel ticks at. -/
theorem onTime_iff (hI : 1 ≤ I) (ha : T0 ≤ a) (hd : 1 ≤ d) :
    OnTime I N T0 a d ↔ N = 1 ∨ (a + d) % I ≤ T0 % I := by
  have hr : T0 < a + d := by omega
  have hleast := isLeast_dueTicks (I := I) hI hr
  rw [← slotOfTick_firstDueTick (N := N) hI hr]
  constructor
  · rintro ⟨k, hcollect, hdue, _⟩
    rw [← hdue.unique hleast, hcollect.1.2.2.1, slotIndexFor_ofMilli hI]
  · intro hslot
    refine ⟨firstDueTick I T0 (a + d), ⟨⟨hleast.1.1, ?_, ?_, hleast.1.2⟩, ?_⟩, hleast, ?_⟩
    · have h := (isDue_tickTime _).mp hleast.1.2
      rw [tickTime, ← not_le, ofMilli_le_ofMilli]
      omega
    · rw [hslot, slotIndexFor_ofMilli hI]
    · exact fun k hk => hleast.2 ⟨hk.1, hk.2.2.2⟩
    · -- the tick before it is not yet at the due time
      rw [runAt, add_ofMilli, add_ofMilli, tickTime, ← not_le, ofMilli_le_ofMilli]
      intro hlate
      have h1 := hleast.1.1
      obtain ⟨j, hj⟩ : ∃ j, firstDueTick I T0 (a + d) = j + 1 := ⟨_, (Nat.sub_add_cancel h1).symm⟩
      rw [hj, Nat.succ_mul] at hlate
      rcases Nat.eq_zero_or_pos j with rfl | hjpos
      · omega
      · have := hleast.2 ⟨hjpos, (isDue_tickTime j).mpr (by omega)⟩
        omega

/-- A wheel of 60 slots of 10 ms, started on a multiple of 10 ms: a task added
then with an interval of 20 ms is collected by the second tick. -/
theorem onTime_of_aligned : OnTime 10 60 1000 1000 20 :=
  (onTime_iff (by decide) (by decide) (by decide)).mpr (Or.inr (by decide))

/-- The same wheel with a task of 15 ms: the tick at 1010 ms visits its slot
before it is due, and the tick at 1020 ms visits the next slot. -/
theorem not_onTime_of_late_phase : ¬ OnTime 10 60 1000 1000 15 := by
  rintro ⟨k, ⟨⟨hk, _, hslot, hdue⟩, _⟩, ⟨_, hleast⟩, _⟩
  have hle : k ≤ 2 := hleast ⟨by decide, by decide⟩
  interval_cases k
  · exact absurd hdue (by decide)
  · exact absurd hslot (by decide)

end Ideal

end Timewheel
