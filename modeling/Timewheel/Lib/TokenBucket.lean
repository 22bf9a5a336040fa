import Mathlib.Algebra.Order.Field.Basic
import Mathlib.Data.List.Count
import Mathlib.Tactic.Linarith
import Mathlib.Tactic.Ring

/-!
# Token buckets

A bucket is filled at a constant rate up to its capacity, and a request takes
one token or, when there is not a whole one, is turned away. Tokens and times
are elements of an ordered field. A bucket is made, full, by its first request.

However the requests come, the number admitted in a window is at most what the
bucket can hold plus what flows in during the window (`admitted_le`). The
argument is amortised: what a bucket holds when a request comes, and what flows
in afterwards, pays for every admission from then on (`admitted_le_of_bucket`).

Nothing is said about how often requests come. Times need not be distinct, and
a bucket that does not exist yet counts as full, which is the best it can be
for a request.
-/

/-! ## Counting admissions -/

section Admitted

variable {K : Type*} [LinearOrder K] {s t : K} {d : K × Bool} {ds : List (K × Bool)}

/-- The number of requests admitted from `s` to `t`. Requests are pairs of a
time and a decision. -/
def admitted (s t : K) (ds : List (K × Bool)) : ℕ :=
  ds.countP (fun d => d.2 = true ∧ s ≤ d.1 ∧ d.1 ≤ t)

/-- A request outside the window does not count. It may be dropped from the
list. -/
theorem admitted_cons_of_not (h : ¬ (s ≤ d.1 ∧ d.1 ≤ t)) :
    admitted s t (d :: ds) = admitted s t ds :=
  List.countP_cons_of_neg (by rw [decide_eq_true_eq]; exact fun hd => h hd.2)

/-- A request counts at most when it is admitted. The other direction is not
needed. -/
theorem admitted_cons_le : admitted s t (d :: ds) ≤ admitted s t ds + if d.2 = true then 1 else 0 := by
  unfold admitted
  rw [List.countP_cons]
  refine Nat.add_le_add_left ?_ _
  split_ifs with hcount hadmitted
  · exact le_refl 1
  · exact absurd (of_decide_eq_true hcount).1 hadmitted
  · exact Nat.zero_le 1
  · exact le_refl 0

/-- Nothing is admitted before the requests begin. They may be any requests. -/
theorem admitted_eq_zero (h : ∀ d ∈ ds, t < d.1) : admitted s t ds = 0 := by
  unfold admitted
  rw [List.countP_eq_zero]
  intro d hd hcount
  rw [decide_eq_true_eq] at hcount
  exact absurd hcount.2.2 (not_le.mpr (h d hd))

/-- Requests later than one after the window do not come earlier. So a window
can be cut off at its end. -/
theorem forall_lt_of_pairwise {now : K} {times : List K}
    (hmono : (now :: times).Pairwise (· ≤ ·)) (hlate : t < now) :
    ∀ now' ∈ now :: times, t < now' := by
  intro now' hmem
  rcases List.mem_cons.mp hmem with rfl | hmem
  · exact hlate
  · exact lt_of_lt_of_le hlate ((List.pairwise_cons.mp hmono).1 now' hmem)

end Admitted

/-! ## The bucket -/

/-- A bucket: its tokens, and when they were counted last. What has flowed in
since is not in it yet. -/
@[ext]
structure Bucket (K : Type*) where
  tokens : K
  last : K

namespace Bucket

variable {K : Type*} [Field K] [LinearOrder K]

/-- The bucket a request finds, with what has flowed in since. It never exceeds
the capacity. -/
def refill (rate capacity now : K) (b : Bucket K) : Bucket K where
  tokens := min capacity (b.tokens + (now - b.last) * rate)
  last := now

/-- A request at `now`: whether it is admitted, and the bucket it leaves. A
request that is turned away takes nothing, but the bucket is counted anew. -/
def request (rate capacity now : K) (b : Option (Bucket K)) : Bool × Bucket K :=
  let b := (b.getD ⟨capacity, now⟩).refill rate capacity now
  if b.tokens < 1 then (false, b) else (true, { b with tokens := b.tokens - 1 })

/-- Requests at the given times, each with what is decided. The bucket is handed
on from request to request. -/
def decisions (rate capacity : K) : Option (Bucket K) → List K → List (K × Bool)
  | _, [] => []
  | b, now :: times =>
    let r := request rate capacity now b
    (now, r.1) :: decisions rate capacity (some r.2) times

/-- The bucket is in bounds, and was last counted no later than `now`. A bucket
that does not exist yet is ready. -/
structure Ready (capacity now : K) (b : Option (Bucket K)) : Prop where
  nonneg : ∀ c ∈ b, 0 ≤ c.tokens
  le_capacity : ∀ c ∈ b, c.tokens ≤ capacity
  last_le : ∀ c ∈ b, c.last ≤ now

variable {rate capacity now s t : K} {b : Option (Bucket K)} {times : List K}

/-- The first request, and then the others. -/
theorem decisions_cons :
    decisions rate capacity b (now :: times)
      = (now, (request rate capacity now b).1)
        :: decisions rate capacity (some (request rate capacity now b).2) times := rfl

/-- The decisions are about the requests. So a bound on the times of requests
bounds those of decisions. -/
theorem fst_mem_of_mem_decisions {d : K × Bool} (hd : d ∈ decisions rate capacity b times) :
    d.1 ∈ times := by
  induction times generalizing b with
  | nil => exact absurd hd List.not_mem_nil
  | cons now times ih =>
    rcases List.mem_cons.mp hd with rfl | hd
    · exact List.mem_cons_self
    · exact List.mem_cons_of_mem _ (ih hd)

/-- Requests after the window do not count. They are admitted too late. -/
theorem admitted_decisions_eq_zero (hafter : ∀ now ∈ times, t < now) :
    admitted s t (decisions rate capacity b times) = 0 :=
  admitted_eq_zero (fun _ hd => hafter _ (fst_mem_of_mem_decisions hd))

/-- What a request leaves is what it finds, less the token it takes. This is the
equation the amortisation rests on. -/
theorem request_spec :
    (request rate capacity now b).2.last = now
      ∧ (request rate capacity now b).2.tokens
          + (if (request rate capacity now b).1 = true then 1 else 0)
        = ((b.getD ⟨capacity, now⟩).refill rate capacity now).tokens := by
  unfold request
  dsimp only
  by_cases hempty : ((b.getD ⟨capacity, now⟩).refill rate capacity now).tokens < 1
  · rw [if_pos hempty]
    exact ⟨rfl, by rw [if_neg Bool.false_ne_true, add_zero]⟩
  · rw [if_neg hempty]
    exact ⟨rfl, by rw [if_pos rfl, sub_add_cancel]⟩

/-- Later a bucket is ready too. Time may pass. -/
theorem Ready.later (h : Ready capacity now b) {now' : K} (hle : now ≤ now') :
    Ready capacity now' b :=
  ⟨h.nonneg, h.le_capacity, fun c hc => (h.last_le c hc).trans hle⟩

/-- Before the first request there is nothing to check. -/
theorem ready_none : Ready capacity now none :=
  ⟨fun _ h => (nomatch h), fun _ h => (nomatch h), fun _ h => nomatch h⟩

variable [IsStrictOrderedRing K]

/-- What a request finds is in bounds. The minimum takes care of the upper
bound. -/
theorem refill_bounds (hrate : 0 ≤ rate) (hcapacity : 0 ≤ capacity) (h : Ready capacity now b) :
    0 ≤ ((b.getD ⟨capacity, now⟩).refill rate capacity now).tokens
      ∧ ((b.getD ⟨capacity, now⟩).refill rate capacity now).tokens ≤ capacity := by
  refine ⟨le_min hcapacity ?_, min_le_left _ _⟩
  cases b with
  | none => simpa using hcapacity
  | some c =>
    have hflow : 0 ≤ (now - c.last) * rate :=
      mul_nonneg (sub_nonneg.mpr (h.last_le c rfl)) hrate
    exact add_nonneg (h.nonneg c rfl) hflow

/-- **A request keeps the bucket in bounds.** It takes a token only if there is
one. -/
theorem ready_request (hrate : 0 ≤ rate) (hcapacity : 0 ≤ capacity)
    (h : Ready capacity now b) : Ready capacity now (some (request rate capacity now b).2) := by
  obtain ⟨hnonneg, hle⟩ := refill_bounds hrate hcapacity h
  unfold request
  dsimp only
  by_cases hempty : ((b.getD ⟨capacity, now⟩).refill rate capacity now).tokens < 1
  · rw [if_pos hempty]
    exact ⟨fun c hc => Option.some.inj hc ▸ hnonneg, fun c hc => Option.some.inj hc ▸ hle,
      fun c hc => Option.some.inj hc ▸ le_refl now⟩
  · rw [if_neg hempty]
    refine ⟨fun c hc => ?_, fun c hc => ?_, fun c hc => Option.some.inj hc ▸ le_refl now⟩
    · obtain rfl := Option.some.inj hc
      exact sub_nonneg.mpr (not_lt.mp hempty)
    · obtain rfl := Option.some.inj hc
      exact (sub_le_self _ zero_le_one).trans hle

/-- When what a request leaves pays for the rest, what it finds pays for all.
This is the step of the induction. -/
theorem admitted_decisions_cons_le
    (hrest : (admitted s t (decisions rate capacity (some (request rate capacity now b).2) times) : K)
      ≤ (request rate capacity now b).2.tokens + (t - now) * rate) :
    (admitted s t (decisions rate capacity b (now :: times)) : K)
      ≤ ((b.getD ⟨capacity, now⟩).refill rate capacity now).tokens + (t - now) * rate := by
  have hcount : (admitted s t (decisions rate capacity b (now :: times)) : K)
      ≤ admitted s t (decisions rate capacity (some (request rate capacity now b).2) times)
        + if (request rate capacity now b).1 = true then 1 else 0 := by
    rw [decisions_cons]
    exact_mod_cast admitted_cons_le
  have htokens := (@request_spec K _ _ rate capacity now b).2
  linarith

/-- **What a bucket holds pays for what it admits**, with what flows in. By
induction on the requests. -/
theorem admitted_le_of_bucket {c : Bucket K} {u : K} (hrate : 0 ≤ rate) (hcapacity : 0 ≤ capacity)
    (hu : c.last = u) (hc : Ready capacity u (some c)) (hmono : times.Pairwise (· ≤ ·))
    (hlast : ∀ now ∈ times, u ≤ now) (ht : u ≤ t) :
    (admitted s t (decisions rate capacity (some c) times) : K) ≤ c.tokens + (t - u) * rate := by
  have hbase : 0 ≤ c.tokens + (t - u) * rate :=
    add_nonneg (hc.nonneg c rfl) (mul_nonneg (sub_nonneg.mpr ht) hrate)
  induction times generalizing c u with
  | nil => simpa [decisions, admitted] using hbase
  | cons now times ih =>
    by_cases hlate : t < now
    · rw [admitted_decisions_eq_zero (forall_lt_of_pairwise hmono hlate), Nat.cast_zero]
      exact hbase
    · have hnow := hlast now List.mem_cons_self
      have hleft := (@request_spec K _ _ rate capacity now (some c)).1
      have hready := ready_request hrate hcapacity (hc.later hnow)
      obtain ⟨hfirst, hmono⟩ := List.pairwise_cons.mp hmono
      have hpaid : 0 ≤ (request rate capacity now (some c)).2.tokens + (t - now) * rate :=
        add_nonneg (hready.nonneg _ rfl) (mul_nonneg (sub_nonneg.mpr (not_lt.mp hlate)) hrate)
      have hrest := ih hleft hready hmono hfirst (not_lt.mp hlate) hpaid
      have hfound : ((some c).getD ⟨capacity, now⟩ |>.refill rate capacity now).tokens
          ≤ c.tokens + (now - u) * rate := hu ▸ min_le_right _ _
      calc (admitted s t (decisions rate capacity (some c) (now :: times)) : K)
          ≤ ((some c).getD ⟨capacity, now⟩ |>.refill rate capacity now).tokens
              + (t - now) * rate := admitted_decisions_cons_le hrest
        _ ≤ c.tokens + (now - u) * rate + (t - now) * rate := add_le_add_left hfound _
        _ = c.tokens + (t - u) * rate := by ring

/-- **The bound of a bucket**, for any window. Up to the window nothing counts,
and from there on the bucket holds at most its capacity. -/
theorem admitted_le (hrate : 0 ≤ rate) (hcapacity : 0 ≤ capacity) (hst : s ≤ t)
    (hmono : times.Pairwise (· ≤ ·)) (hb : ∀ now ∈ times, Ready capacity now b) :
    (admitted s t (decisions rate capacity b times) : K) ≤ capacity + (t - s) * rate := by
  have hbase : 0 ≤ capacity + (t - s) * rate :=
    add_nonneg hcapacity (mul_nonneg (sub_nonneg.mpr hst) hrate)
  induction times generalizing b with
  | nil => simpa [decisions, admitted] using hbase
  | cons now times ih =>
    have hready := ready_request hrate hcapacity (hb now List.mem_cons_self)
    have hleft := (@request_spec K _ _ rate capacity now b).1
    obtain ⟨hfirst, hmono'⟩ := List.pairwise_cons.mp hmono
    by_cases hearly : now < s
    · rw [decisions_cons, admitted_cons_of_not (fun h => absurd h.1 (not_le.mpr hearly))]
      exact ih hmono' (fun now' hmem => hready.later (hfirst now' hmem))
    by_cases hlate : t < now
    · rw [admitted_decisions_eq_zero (forall_lt_of_pairwise hmono hlate), Nat.cast_zero]
      exact hbase
    -- the first request in the window finds no more than a full bucket
    have hrest : (admitted s t (decisions rate capacity (some (request rate capacity now b).2) times)
        : K) ≤ (request rate capacity now b).2.tokens + (t - now) * rate :=
      admitted_le_of_bucket hrate hcapacity hleft hready hmono' hfirst (not_lt.mp hlate)
    have hfound := (refill_bounds hrate hcapacity (hb now List.mem_cons_self)).2
    have hwindow : (t - now) * rate ≤ (t - s) * rate :=
      mul_le_mul_of_nonneg_right (sub_le_sub_left (not_lt.mp hearly) t) hrate
    exact (admitted_decisions_cons_le hrest).trans (add_le_add hfound hwindow)

end Bucket
