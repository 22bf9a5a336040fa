import Timewheel.Dispatch

/-!
# The slots in machine integers

`New` accepts any positive interval, in nanoseconds. The slots are computed in
milliseconds, with integers of 64 bits: by `Start` for the cursor, by `AddTask`
and `rescheduleTask` for a task, and by `tick`. An interval below a millisecond
is none in milliseconds. `AddTask` and `rescheduleTask` then take one instead,
while `Start` divides by zero.

The other thing that can go wrong are the two sums, of a clock reading and a
delay and of the cursor and one: a sum that wraps to a negative number gives a
negative slot, unless it is slot zero. `slotsSafe_iff` says that this is all.
Where nothing wraps the slots are those of the rest of the development
(`taskSlot_eq`).

Each of the four functions gets one equivalence, between being in range and a
condition on the integers that go in. The condition for a sum allows for a
wrapped one that happens to be a multiple of the number of slots, because the
equivalence would be false without it.
-/

namespace Timewheel

/-! ## The code -/

/-- `DefaultSlots`. -/
def defaultSlots : Int64 := 60

/-- `DefaultInterval`, as a duration. -/
def defaultInterval : Int64 := 100 * 1000000

/-- `a / b`, which panics when `b` is zero. -/
def quo (a b : Int64) : Option Int64 := if b = 0 then none else some (a / b)

/-- `a % b`, which panics when `b` is zero. -/
def rem (a b : Int64) : Option Int64 := if b = 0 then none else some (a % b)

/-- `d.Milliseconds()`. -/
def milliseconds (d : Int64) : Int64 := d / 1000000

/-- The fields of a `TimeWheel` its slots are computed from, and `len(slots)`.
The length is that of the array that was allocated. -/
structure Slots where
  slotNum : Int64
  interval : Int64
  len : Int64

namespace Slots

/-- `New`, with what `WithSlotNum` and `WithInterval` ask for. The array is
allocated anew only if the number of slots is not the default. -/
def new (slotNum interval : Option Int64) : Except Err Slots :=
  let s : Slots := ⟨slotNum.getD defaultSlots, interval.getD defaultInterval, defaultSlots⟩
  if slotNum.any (· ≤ 0) then .error .slotsTooFew
  else if interval.any (· ≤ 0) then .error .intervalTooSmall
  else .ok (if s.slotNum ≠ defaultSlots then { s with len := s.slotNum } else s)

variable (s : Slots)

/-- `initialSlot` of `Start`, at a reading of the clock in milliseconds. It
divides by the interval as it is. -/
def startSlot (now : Int64) : Option Int64 :=
  (quo now (milliseconds s.interval)).bind (fun q => rem q s.slotNum)

/-- `intervalMs` of `AddTask` and `rescheduleTask`. The guard is missing in
`Start`. -/
def intervalMs : Int64 := if milliseconds s.interval = 0 then 1 else milliseconds s.interval

/-- The slot of a task that is to run after a delay. -/
def taskSlot (now delay : Int64) : Option Int64 :=
  (quo (now + milliseconds delay) s.intervalMs).bind (fun q => rem q s.slotNum)

/-- `slotIndex` of `AddTask`. -/
def addSlot (now delay : Int64) : Option Int64 := s.taskSlot now delay

/-- `newSlotIndex` of `rescheduleTask`. -/
def rescheduleSlot (now delay : Int64) : Option Int64 := s.taskSlot now delay

/-- `tick`: the cursor it leaves, and the slot it handles. -/
def tick (cursor : Int64) : Int64 × Option Int64 := (cursor + 1, rem (cursor + 1) s.slotNum)

/-- The cursor after `Start` and `k` ticks. Time plays no part in it. -/
def cursorAfter (s : Slots) (now : Int64) : ℕ → Option Int64
  | 0 => s.startSlot now
  | k + 1 => (s.cursorAfter now k).map (fun cursor => (s.tick cursor).1)

/-- The slot is computed, and is one of the slots. -/
def InRange (slot : Option Int64) : Prop := ∃ i, slot = some i ∧ 0 ≤ i ∧ i < s.len

instance (slot : Option Int64) : Decidable (s.InRange slot) :=
  match slot with
  | none => isFalse (fun ⟨_, h, _⟩ => nomatch h)
  | some i => decidable_of_iff (0 ≤ i ∧ i < s.len)
      ⟨fun h => ⟨i, rfl, h⟩, fun ⟨_, hi, h⟩ => Option.some.inj hi ▸ h⟩

/-- **Every slot is computed, and is one of the slots**: that of a `Start` and
of the tick after `k` others, and those of a task. The times and delays are any
integers of 64 bits. -/
structure Safe (startedAt now delay : Int64) (k : ℕ) : Prop where
  start : s.InRange (s.startSlot startedAt)
  add : s.InRange (s.addSlot now delay)
  reschedule : s.InRange (s.rescheduleSlot now delay)
  tick : s.InRange ((s.cursorAfter startedAt k).bind (fun cursor => (s.tick cursor).2))

end Slots

/-! ## Sums that wrap -/

/-- **A sum that is fit for an index**: as an integer of 64 bits it is not
negative, or its quotient is a multiple of the number of slots all the same. -/
def FitsIndex (slotNum intervalMs sum : ℤ) : Prop :=
  0 ≤ sum.bmod (2 ^ 64) ∨ slotNum ∣ (sum.bmod (2 ^ 64)).tdiv intervalMs

/-- A sum that does not wrap is fit. -/
theorem fitsIndex_of_lt {slotNum intervalMs sum : ℤ} (h : 0 ≤ sum) (hlt : sum < 2 ^ 63) :
    FitsIndex slotNum intervalMs sum := by
  refine Or.inl ?_
  rw [Int.bmod_eq_of_le (by omega) (by omega)]
  exact h

variable {s : Slots} {slotNum interval : Option Int64} {startedAt now delay d : Int64} {k : ℕ}

/-! ### Division -/

/-- A remainder has the sign of the dividend. Division in Go truncates. -/
theorem tmod_nonneg_iff (q : ℤ) {m : ℤ} : 0 ≤ q.tmod m ↔ 0 ≤ q ∨ m ∣ q := by
  constructor
  · intro h
    by_cases hq : 0 ≤ q
    · exact Or.inl hq
    · have hneg : 0 ≤ (-q).tmod m := Int.tmod_nonneg m (by omega)
      rw [Int.neg_tmod] at hneg
      exact Or.inr (Int.dvd_of_tmod_eq_zero (by omega))
  · rintro (hq | hdvd)
    · exact Int.tmod_nonneg m hq
    · rw [Int.tmod_eq_zero_of_dvd hdvd]

/-- The quotient of a negative number is negative or zero. -/
theorem tdiv_fits_iff {slotNum ms x : ℤ} (hms : 0 < ms) :
    (0 ≤ x.tdiv ms ∨ slotNum ∣ x.tdiv ms) ↔ 0 ≤ x ∨ slotNum ∣ x.tdiv ms := by
  constructor
  · rintro (hq | hdvd)
    · by_cases hx : 0 ≤ x
      · exact Or.inl hx
      · have hneg : 0 ≤ (-x).tdiv ms := Int.tdiv_nonneg (by omega) hms.le
        rw [Int.neg_tdiv] at hneg
        have hzero : x.tdiv ms = 0 := by omega
        exact Or.inr (hzero ▸ dvd_zero slotNum)
    · exact Or.inr hdvd
  · rintro (hx | hdvd)
    · exact Or.inl (Int.tdiv_nonneg hx hms.le)
    · exact Or.inr hdvd

/-- A divisor that is positive is not zero, -/
theorem ne_zero_of_pos (h : 0 < d) : d ≠ 0 := by
  rintro rfl
  exact absurd h (by decide)

/-- so the quotient is there, -/
theorem quo_of_pos (h : 0 < d) (x : Int64) :
    ∃ q, quo x d = some q ∧ q.toInt = x.toInt.tdiv d.toInt := by
  have hpos : 0 < d.toInt := Int64.lt_iff_toInt_lt.mp h
  have hneg : d ≠ -1 := by
    rintro rfl
    exact absurd hpos (by decide)
  exact ⟨x / d, if_neg (ne_zero_of_pos h), Int64.toInt_div_of_ne_right x d hneg⟩

/-- An index computed with a quotient. and so is the remainder. -/
theorem quo_rem_of_pos (hd : 0 < d) (hpos : 0 < s.slotNum) (x : Int64) :
    ∃ i, (quo x d).bind (fun q => rem q s.slotNum) = some i
      ∧ i.toInt = (x.toInt.tdiv d.toInt).tmod s.slotNum.toInt := by
  obtain ⟨q, hq, hvalue⟩ := quo_of_pos hd x
  refine ⟨q % s.slotNum, ?_, ?_⟩
  · rw [hq]
    exact if_neg (ne_zero_of_pos hpos)
  · rw [Int64.toInt_mod, hvalue]

/-- An index is in range unless it is that of a negative number. The upper bound
is never the problem. -/
theorem inRange_rem_iff (hlen : s.len = s.slotNum) (hpos : 0 < s.slotNum) (q : Int64) :
    s.InRange (rem q s.slotNum) ↔ 0 ≤ q.toInt ∨ s.slotNum.toInt ∣ q.toInt := by
  have hpos' : 0 < s.slotNum.toInt := Int64.lt_iff_toInt_lt.mp hpos
  have hrem : rem q s.slotNum = some (q % s.slotNum) := if_neg (ne_zero_of_pos hpos)
  have hlt := Int.tmod_lt_of_pos q.toInt hpos'
  have hvalue : s.InRange (rem q s.slotNum) ↔ 0 ≤ q.toInt.tmod s.slotNum.toInt := by
    rw [hrem, ← Int64.toInt_mod]
    constructor
    · rintro ⟨i, hi, hle, -⟩
      exact Option.some.inj hi ▸ Int64.le_iff_toInt_le.mp hle
    · intro hle
      refine ⟨_, rfl, Int64.le_iff_toInt_le.mpr hle, ?_⟩
      rw [hlen, Int64.lt_iff_toInt_lt, Int64.toInt_mod]
      exact hlt
  rw [hvalue, tmod_nonneg_iff]

/-- **An index computed with a quotient.** -/
theorem inRange_quo_iff (hlen : s.len = s.slotNum) (hpos : 0 < s.slotNum) (hd : 0 < d) (x : Int64) :
    s.InRange ((quo x d).bind (fun q => rem q s.slotNum))
      ↔ 0 ≤ x.toInt ∨ s.slotNum.toInt ∣ x.toInt.tdiv d.toInt := by
  obtain ⟨q, hq, hvalue⟩ := quo_of_pos hd x
  rw [hq, Option.bind_some, inRange_rem_iff hlen hpos, hvalue,
    tdiv_fits_iff (Int64.lt_iff_toInt_lt.mp hd)]

/-! ### Milliseconds -/

/-- As an integer it is a truncated quotient. -/
theorem toInt_milliseconds (d : Int64) : (milliseconds d).toInt = d.toInt.tdiv 1000000 :=
  Int64.toInt_div_of_ne_right d 1000000 (by decide)

/-- What `New` establishes. The rest of the configuration does not matter here. -/
structure Slots.Accepted (s : Slots) : Prop where
  slotNum : 0 < s.slotNum
  interval : 0 < s.interval
  len : s.len = s.slotNum

/-- Whatever was asked for. -/
theorem accepted_of_new (h : Slots.new slotNum interval = .ok s) : s.Accepted := by
  have hpositive : ∀ {o : Option Int64} {x : Int64}, ¬ (o.any (· ≤ 0)) = true → 0 < x →
      0 < o.getD x := by
    intro o x ho hx
    cases o with
    | none => exact hx
    | some y => exact Int64.not_le.mp (fun hle => ho (decide_eq_true hle))
  unfold Slots.new at h
  dsimp only at h
  split_ifs at h with hnum hinterval hdefault
  · obtain rfl := Except.ok.inj h
    exact ⟨hpositive hnum (by decide), hpositive hinterval (by decide), rfl⟩
  · obtain rfl := Except.ok.inj h
    exact ⟨hpositive hnum (by decide), hpositive hinterval (by decide), (not_not.mp hdefault).symm⟩

/-- A positive duration is a whole millisecond or none. -/
theorem milliseconds_cases (h : 0 < d) :
    (1000000 ≤ d.toInt ∧ 0 < milliseconds d) ∨ (d.toInt < 1000000 ∧ milliseconds d = 0) := by
  have hpos : 0 < d.toInt := Int64.lt_iff_toInt_lt.mp h
  have hvalue := toInt_milliseconds d
  rw [Int.tdiv_eq_ediv_of_nonneg hpos.le] at hvalue
  by_cases hle : 1000000 ≤ d.toInt
  · refine Or.inl ⟨hle, Int64.lt_iff_toInt_lt.mpr ?_⟩
    show 0 < (milliseconds d).toInt
    omega
  · refine Or.inr ⟨by omega, Int64.toInt_inj.mp ?_⟩
    show (milliseconds d).toInt = 0
    omega

/-! ## The four functions -/

namespace Slots.Accepted

/-- **`Start`** divides by zero for an interval below a millisecond, and computes
a slot otherwise. -/
theorem start_iff (h : s.Accepted) (hstart : 0 ≤ startedAt) :
    s.InRange (s.startSlot startedAt) ↔ 1000000 ≤ s.interval.toInt := by
  have hnonneg : 0 ≤ startedAt.toInt := Int64.le_iff_toInt_le.mp hstart
  rcases milliseconds_cases h.interval with ⟨hle, hpos⟩ | ⟨hlt, hzero⟩
  · exact iff_of_true ((inRange_quo_iff h.len h.slotNum hpos startedAt).mpr (Or.inl hnonneg)) hle
  · refine iff_of_false ?_ (not_le.mpr hlt)
    rintro ⟨i, hi, -⟩
    unfold startSlot quo at hi
    rw [if_pos hzero] at hi
    cases hi

/-- The divisor of the other two is never zero. -/
theorem intervalMs_pos (h : s.Accepted) : 0 < s.intervalMs := by
  unfold intervalMs
  rcases milliseconds_cases h.interval with ⟨-, hpos⟩ | ⟨-, hzero⟩
  · split_ifs
    · decide
    · exact hpos
  · rw [if_pos hzero]
    decide

/-- **`AddTask` and `rescheduleTask`** compute a slot unless the sum wraps. -/
theorem task_iff (h : s.Accepted) (now delay : Int64) :
    s.InRange (s.taskSlot now delay)
      ↔ FitsIndex s.slotNum.toInt s.intervalMs.toInt
          (now.toInt + (milliseconds delay).toInt) := by
  unfold taskSlot
  rw [inRange_quo_iff h.len h.slotNum h.intervalMs_pos, Int64.toInt_add]
  rfl

/-- The slot `Start` computes. -/
theorem start_value (h : s.Accepted) (hinterval : 1000000 ≤ s.interval.toInt) (startedAt : Int64) :
    ∃ i, s.startSlot startedAt = some i
      ∧ i.toInt = (startedAt.toInt.tdiv (milliseconds s.interval).toInt).tmod s.slotNum.toInt := by
  rcases milliseconds_cases h.interval with ⟨-, hpos⟩ | ⟨hlt, -⟩
  · exact quo_rem_of_pos hpos h.slotNum startedAt
  · exact absurd hinterval (not_le.mpr hlt)

/-- The cursor counts the ticks, and wraps. -/
theorem cursorAfter_value {i : Int64} (hi : s.startSlot startedAt = some i) (k : ℕ) :
    ∃ c, s.cursorAfter startedAt k = some c ∧ c.toInt = (i.toInt + k).bmod (2 ^ 64) := by
  induction k with
  | zero =>
    refine ⟨i, hi, ?_⟩
    have hlow := i.le_toInt
    have hhigh := i.toInt_lt
    rw [Nat.cast_zero, add_zero, Int.bmod_eq_of_le (by omega) (by omega)]
  | succ k ih =>
    obtain ⟨c, hc, hvalue⟩ := ih
    refine ⟨c + 1, congrArg (Option.map _) hc, ?_⟩
    rw [Int64.toInt_add, hvalue, Nat.cast_succ, ← add_assoc]
    exact Int.bmod_add_bmod

/-- **`tick`** handles a slot unless the cursor wraps. -/
theorem tick_iff (h : s.Accepted) {i : Int64} (hi : s.startSlot startedAt = some i) (k : ℕ) :
    s.InRange ((s.cursorAfter startedAt k).bind (fun cursor => (s.tick cursor).2))
      ↔ FitsIndex s.slotNum.toInt 1 (i.toInt + k + 1) := by
  obtain ⟨c, hc, -⟩ := cursorAfter_value hi k
  obtain ⟨c', hc', hvalue⟩ := cursorAfter_value hi (k + 1)
  obtain rfl : c + 1 = c' := Option.some.inj ((congrArg (Option.map _) hc).symm.trans hc')
  rw [hc, Option.bind_some]
  unfold FitsIndex Slots.tick
  rw [inRange_rem_iff h.len h.slotNum, hvalue, Nat.cast_succ, ← add_assoc, Int.tdiv_one]

end Slots.Accepted

/-! ## Safety -/

/-- **The slots are safe exactly if the interval is at least a millisecond and no
sum wraps to where it is not fit for an index.** For whatever `New` accepts, any
readings of the clock, any delay of a task, and any number of ticks. -/
theorem slotsSafe_iff (hnew : Slots.new slotNum interval = .ok s) (hstart : 0 ≤ startedAt)
    (now delay : Int64) (k : ℕ) :
    s.Safe startedAt now delay k
      ↔ 1000000 ≤ s.interval.toInt
        ∧ FitsIndex s.slotNum.toInt s.intervalMs.toInt (now.toInt + (milliseconds delay).toInt)
        ∧ FitsIndex s.slotNum.toInt 1
            ((startedAt.toInt.tdiv (milliseconds s.interval).toInt).tmod s.slotNum.toInt + k + 1) := by
  have h := accepted_of_new hnew
  constructor
  · intro hsafe
    have hinterval := (h.start_iff hstart).mp hsafe.start
    obtain ⟨i, hi, hvalue⟩ := h.start_value hinterval startedAt
    exact ⟨hinterval, (h.task_iff now delay).mp hsafe.add, hvalue ▸ (h.tick_iff hi k).mp hsafe.tick⟩
  · rintro ⟨hinterval, htask, htick⟩
    obtain ⟨i, hi, hvalue⟩ := h.start_value hinterval startedAt
    exact ⟨(h.start_iff hstart).mpr hinterval, (h.task_iff now delay).mpr htask,
      (h.task_iff now delay).mpr htask, (h.tick_iff hi k).mpr (hvalue ▸ htick)⟩

/-- A wheel of ten milliseconds, a task of a second, and the first tick. -/
theorem slotsSafe_of_tenMilliseconds : Slots.Safe ⟨60, 10000000, 60⟩ 1700000000000 1700000000005
    1000000000 0 :=
  (@slotsSafe_iff _ none (some 10000000) _ rfl (by decide) _ _ 0).mpr
    ⟨by decide, fitsIndex_of_lt (by decide) (by decide), fitsIndex_of_lt (by decide) (by decide)⟩

/-- **An interval of half a millisecond**: `New` accepts it, and `Start` divides by
zero. -/
theorem not_slotsSafe_of_halfMillisecond :
    Slots.new (some 2000) (some 500000) = .ok ⟨2000, 500000, 2000⟩
      ∧ (⟨2000, 500000, 2000⟩ : Slots).startSlot 1700000000000 = none
      ∧ ¬ Slots.Safe ⟨2000, 500000, 2000⟩ 1700000000000 1700000000000 1000000 0 := by
  refine ⟨rfl, rfl, fun h => ?_⟩
  exact absurd h.start (by decide)

/-! ## The slots of the model -/

section Model

variable {N : ℕ} {t : Time}

/-- The tick in milliseconds, as a number: the division does not overflow. -/
theorem toInt_intervalMs (s : Slots) : s.intervalMs.toInt = intervalMs s.interval.toInt := by
  have hzero : milliseconds s.interval = 0 ↔ Duration.milliseconds s.interval.toInt = 0 := by
    rw [← Int64.toInt_inj, toInt_milliseconds]
    exact Iff.rfl
  unfold Slots.intervalMs intervalMs
  by_cases h : milliseconds s.interval = 0
  · rw [if_pos h, if_pos (hzero.mp h)]
    rfl
  · rw [if_neg h, if_neg (fun h' => h (hzero.mpr h'))]
    exact toInt_milliseconds s.interval

/-- The slot of `Start` is the one of the model. -/
theorem startSlot_eq (h : s.Accepted) (hN : s.slotNum.toInt = N)
    (ht : startedAt.toInt = t.unixMilli) :
    (s.startSlot startedAt).map (fun i => i.toInt.toNat) = initialSlot s.interval.toInt N t := by
  unfold initialSlot
  rcases milliseconds_cases h.interval with ⟨hle, hpos⟩ | ⟨-, hzero⟩
  · have hne : Duration.milliseconds s.interval.toInt ≠ 0 := by
      rw [Duration.milliseconds, ← toInt_milliseconds]
      exact (Int64.lt_iff_toInt_lt.mp hpos).ne'
    obtain ⟨i, hi, hvalue⟩ := h.start_value hle startedAt
    rw [hi, if_neg hne, Option.map_some, hvalue, hN, ht, toInt_milliseconds]
    rfl
  · have hnone : Duration.milliseconds s.interval.toInt = 0 :=
      (toInt_milliseconds s.interval).symm.trans (congrArg Int64.toInt hzero)
    rw [if_pos hnone]
    unfold Slots.startSlot quo
    rw [if_pos hzero]
    rfl

/-- The slot of a task is the one of the model, unless the sum wraps. -/
theorem taskSlot_eq (h : s.Accepted) (hN : s.slotNum.toInt = N) (ht : now.toInt = t.unixMilli)
    (hdelay : 0 ≤ delay) (hlt : now.toInt + (milliseconds delay).toInt < 2 ^ 63) :
    (s.taskSlot now delay).map (fun i => i.toInt.toNat)
      = some (slotIndexFor s.interval.toInt N t delay.toInt) := by
  have hnonneg : 0 ≤ delay.toInt := Int64.le_iff_toInt_le.mp hdelay
  have hms := toInt_milliseconds delay
  rw [Int.tdiv_eq_ediv_of_nonneg hnonneg] at hms
  have hsum : (now + milliseconds delay).toInt = t.unixMilli + Duration.milliseconds delay.toInt := by
    rw [Int64.toInt_add, Int.bmod_eq_of_le (by omega) (by omega), ht, toInt_milliseconds]
    rfl
  obtain ⟨i, hi, hvalue⟩ := quo_rem_of_pos h.intervalMs_pos h.slotNum (now + milliseconds delay)
  unfold Slots.taskSlot slotIndexFor
  rw [hi, Option.map_some, hvalue, hsum, hN, toInt_intervalMs]

/-- The slot of a tick is the one of the model, unless the cursor wraps. -/
theorem tick_eq (h : s.Accepted) (hN : s.slotNum.toInt = N) {c : Int64} {cursor : ℕ}
    (hc : c.toInt = cursor) (hlt : cursor + 1 < 2 ^ 63) :
    (s.tick c).2.map (fun i => i.toInt.toNat) = some (tickSlot N cursor) := by
  have hsum : (c + 1).toInt = ((cursor + 1 : ℕ) : ℤ) := by
    rw [Int64.toInt_add, hc, show (1 : Int64).toInt = 1 from rfl]
    exact Int.bmod_eq_of_le (by omega) (by omega)
  have hrem : rem (c + 1) s.slotNum = some ((c + 1) % s.slotNum) :=
    if_neg (ne_zero_of_pos h.slotNum)
  unfold Slots.tick tickSlot
  rw [hrem, Option.map_some, Int64.toInt_mod, hsum, hN]
  rfl

end Model

end Timewheel
