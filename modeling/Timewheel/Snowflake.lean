import Mathlib
import Timewheel.Lib.BitFields

/-!
# Snowflake IDs

A snowflake ID is a 64-bit integer with three fields: the milliseconds since
the epoch of its node, the ID of the node, and a sequence number within the
millisecond. `Generate` reads the clock and takes the next pair of time and
sequence number: the same millisecond with the next number, or a later one with
number zero. When the numbers of a millisecond are used up it waits for the
clock to move on, and when the clock has moved back it fails.

A call is given the readings the clock will show, and has not returned while
they do not suffice; nothing is assumed of them but that they fit their field,
counted from the epoch. `ids_unique` is what the package promises.

The state of a node is a pair of time and sequence number, and its IDs are
ordered as these pairs are (`Node.Before.lastID_lt`). So uniqueness and order
are one statement: each call that returns moves the pair on (`generate_spec`).
The arithmetic of the 64-bit fields is kept apart from this.
-/

namespace Snowflake

open BitFields

/-! ## The code -/

/-- The widths of the fields, -/
def nodeBits : Int64 := 10

/-- from the right: -/
def seqBits : Int64 := 12

/-- the largest node, -/
def nodeMax : Int64 := (1 <<< nodeBits) - 1

/-- the largest sequence number, -/
def seqMax : Int64 := (1 <<< seqBits) - 1

/-- and how far the node -/
def nodeShift : Int64 := seqBits

/-- and the time are shifted. -/
def timeShift : Int64 := seqBits + nodeBits

/-- The errors of the package. The second carries the two readings. -/
inductive Err where
  | invalidNodeID
  | clockMovedBack (last now : Int64)
  deriving DecidableEq, Repr

/-- `err.Error()`. -/
def Err.error : Err → String
  | invalidNodeID => "node ID must be between 0 and 1023"
  | clockMovedBack last now =>
    "clock moved backwards, refusing to generate ID: last=" ++ toString last.toInt
      ++ ", now=" ++ toString now.toInt

/-- `Node`, without its mutex: the calls come one after the other. -/
structure Node where
  nodeID : Int64
  lastTime : Int64
  sequence : Int64
  epoch : Int64
  deriving DecidableEq, Repr

/-- `NewNode`. The epoch is taken as it is given. -/
def newNode (nodeID epoch : Int64) : Except Err Node :=
  if nodeID < 0 ∨ nodeID > nodeMax then .error .invalidNodeID
  else .ok { nodeID := nodeID, lastTime := 0, sequence := 0, epoch := epoch }

namespace Node

/-- The ID made of the fields of a node. After a call that has returned one, it is
that one. -/
def lastID (n : Node) : Int64 :=
  (n.lastTime <<< timeShift) ||| (n.nodeID <<< nodeShift) ||| n.sequence

/-- The loop that waits until the clock is past `lastTime`; `none` while it is
not. The code reads the clock in a loop. -/
def waitFrom (n : Node) (now : Int64) : List Int64 → Option Int64
  | [] => if now ≤ n.lastTime then none else some now
  | reading :: clock =>
    if now ≤ n.lastTime then n.waitFrom (reading - n.epoch) clock else some now

/-- The end of `Generate`. The node remembers what it has given out. -/
def take (n : Node) (now sequence : Int64) : Except Err Int64 × Node :=
  let n := { n with lastTime := now, sequence := sequence }
  (.ok n.lastID, n)

/-- `Generate`, with the readings of the clock it makes; `none` while it has not
returned. The node does not change when it fails. -/
def generate (n : Node) : List Int64 → Option (Except Err Int64 × Node)
  | [] => none
  | reading :: clock =>
    let now := reading - n.epoch
    if now < n.lastTime then some (.error (.clockMovedBack n.lastTime now), n)
    else if now = n.lastTime then
      let sequence := (n.sequence + 1) &&& seqMax
      if sequence = 0 then (n.waitFrom now clock).map (fun now => n.take now sequence)
      else some (n.take now sequence)
    else some (n.take now 0)

/-- The results of a sequence of calls. A call that does not return keeps the
lock, and there is no further result. Each call is given its own readings. -/
def results (n : Node) : List (List Int64) → List (Except Err Int64)
  | [] => []
  | clock :: calls =>
    match n.generate clock with
    | none => []
    | some (r, n') => r :: n'.results calls

/-- The IDs a sequence of calls returns. -/
def ids (n : Node) (calls : List (List Int64)) : List Int64 :=
  (n.results calls).filterMap Except.toOption

end Node

/-! ## Fields of a node -/

/-- The number of a nonnegative 64-bit integer. It is used for the order and for
the bits. -/
def toNat (x : Int64) : ℕ := x.toBitVec.toNat

/-- The number determines the integer, -/
theorem toNat_inj {x y : Int64} (h : toNat x = toNat y) : x = y :=
  Int64.toBitVec_inj.mp (BitVec.eq_of_toNat_eq h)

/-- is its value if the sign bit is clear, -/
theorem toInt_of_toNat_lt {x : Int64} (h : toNat x < 2 ^ 63) : x.toInt = toNat x := by
  refine BitVec.toInt_eq_toNat_of_lt ?_
  show 2 * toNat x < 2 ^ 64
  omega

/-- which is so if it is not negative, -/
theorem toNat_of_nonneg {x : Int64} (h : 0 ≤ x) : (toNat x : ℤ) = x.toInt := by
  rw [Int64.le_iff_toInt_le] at h
  have hlt := x.toInt_lt
  have hcond : x.toInt = if 2 * toNat x < 2 ^ 64 then (toNat x : ℤ) else (toNat x : ℤ) - 2 ^ 64 :=
    BitVec.toInt_eq_toNat_cond x.toBitVec
  have hbound : toNat x < 2 ^ 64 := x.toBitVec.isLt
  have hzero : (0 : Int64).toInt = 0 := rfl
  split_ifs at hcond
  · exact hcond.symm
  · omega

/-- and then the orders agree. -/
theorem lt_iff_toNat_lt {x y : Int64} (hx : toNat x < 2 ^ 63) (hy : toNat y < 2 ^ 63) :
    x < y ↔ toNat x < toNat y := by
  rw [Int64.lt_iff_toInt_lt, toInt_of_toNat_lt hx, toInt_of_toNat_lt hy, Int.ofNat_lt]

/-- Conversely a clear sign bit means that it is not negative. -/
theorem nonneg_of_toNat_lt {x : Int64} (h : toNat x < 2 ^ 63) : 0 ≤ x := by
  rw [Int64.le_iff_toInt_le, toInt_of_toNat_lt h]
  exact Int.natCast_nonneg _

/-- **A node whose fields fit**: that much is true of a new node, and of the
node after a call. The bounds are the widths of the fields. -/
structure Node.Valid (n : Node) : Prop where
  nodeID : toNat n.nodeID < 2 ^ 10
  lastTime : toNat n.lastTime < 2 ^ 41
  sequence : toNat n.sequence < 2 ^ 12

/-- The bitwise operations are those on the numbers, -/
theorem toNat_or (x y : Int64) : toNat (x ||| y) = toNat x ||| toNat y :=
  congrArg BitVec.toNat (Int64.toBitVec_or x y) |>.trans (BitVec.toNat_or _ _)

/-- and so are the two shifts, -/
theorem toNat_shiftLeft_timeShift (x : Int64) :
    toNat (x <<< timeShift) = toNat x <<< 22 % 2 ^ 64 := by
  have hshift : (x <<< timeShift).toBitVec = x.toBitVec <<< 22 := Int64.toBitVec_shiftLeft x _
  unfold toNat
  rw [hshift, BitVec.toNat_shiftLeft]

/-- up to the bits that are lost at the top. -/
theorem toNat_shiftLeft_nodeShift (x : Int64) :
    toNat (x <<< nodeShift) = toNat x <<< 12 % 2 ^ 64 := by
  have hshift : (x <<< nodeShift).toBitVec = x.toBitVec <<< 12 := Int64.toBitVec_shiftLeft x _
  unfold toNat
  rw [hshift, BitVec.toNat_shiftLeft]

/-- The ID of a node, field by field. The fields do not overlap, so the bitwise
or is a sum. -/
theorem Node.Valid.toNat_lastID {n : Node} (h : n.Valid) :
    toNat n.lastID
      = pack 22 (toNat n.lastTime) (pack 12 (toNat n.nodeID) (toNat n.sequence)) := by
  have htime : toNat n.lastTime <<< 22 < 2 ^ 64 := by
    rw [Nat.shiftLeft_eq]
    have := h.lastTime
    omega
  have hnode : toNat n.nodeID <<< 12 < 2 ^ 64 := by
    rw [Nat.shiftLeft_eq]
    have := h.nodeID
    omega
  unfold Node.lastID pack
  rw [toNat_or, toNat_or, toNat_shiftLeft_timeShift, toNat_shiftLeft_nodeShift,
    Nat.mod_eq_of_lt htime, Nat.mod_eq_of_lt hnode, Nat.or_assoc]

/-- An ID is a nonnegative number. The 63 bits are just enough. -/
theorem Node.Valid.toNat_lastID_lt {n : Node} (h : n.Valid) : toNat n.lastID < 2 ^ 63 := by
  rw [h.toNat_lastID]
  exact pack_lt (j := 41) h.lastTime (pack_lt h.nodeID h.sequence)

/-- A new node has time and sequence number zero. -/
theorem valid_newNode {nodeID epoch : Int64} {n : Node} (h : newNode nodeID epoch = .ok n) :
    n.Valid ∧ n.nodeID = nodeID ∧ n.epoch = epoch := by
  unfold newNode at h
  split_ifs at h with hrange
  obtain rfl := Except.ok.inj h
  have hlow : 0 ≤ nodeID := Int64.not_lt.mp (fun hlt => hrange (Or.inl hlt))
  have hhigh : nodeID ≤ nodeMax := Int64.not_lt.mp (fun hlt => hrange (Or.inr hlt))
  refine ⟨⟨?_, Nat.two_pow_pos 41, Nat.two_pow_pos 12⟩, rfl, rfl⟩
  have hmax : nodeMax.toInt = 1023 := by decide
  rw [Int64.le_iff_toInt_le, hmax] at hhigh
  have hnat := toNat_of_nonneg hlow
  dsimp only
  omega

/-! ## One call -/

/-- The next sequence number. It wraps around to zero. -/
theorem toNat_next_sequence {s : Int64} (h : toNat s < 2 ^ 12) :
    toNat ((s + 1) &&& seqMax) = (toNat s + 1) % 2 ^ 12 := by
  have hand : toNat ((s + 1) &&& seqMax) = toNat (s + 1) &&& (2 ^ 12 - 1) :=
    congrArg BitVec.toNat (Int64.toBitVec_and (s + 1) seqMax) |>.trans (BitVec.toNat_and _ _)
  have hadd : toNat (s + 1) = toNat s + 1 := by
    have hsum : toNat (s + 1) = (toNat s + 1) % 2 ^ 64 :=
      BitVec.toNat_add s.toBitVec 1
    rw [hsum, Nat.mod_eq_of_lt (by omega)]
  rw [hand, hadd, Nat.and_two_pow_sub_one_eq_mod]

/-- The wait ends past `lastTime`, with a reading of the clock. By induction on
the readings. -/
theorem waitFrom_spec {n : Node} {now t : Int64} {clock : List Int64}
    (h : n.waitFrom now clock = some t) :
    n.lastTime < t ∧ (t = now ∨ ∃ reading ∈ clock, t = reading - n.epoch) := by
  induction clock generalizing now with
  | nil =>
    unfold Node.waitFrom at h
    split_ifs at h with hle
    obtain rfl := Option.some.inj h
    exact ⟨Int64.not_le.mp hle, Or.inl rfl⟩
  | cons reading clock ih =>
    unfold Node.waitFrom at h
    split_ifs at h with hle
    · obtain ⟨hlt, rfl | ⟨r, hr, rfl⟩⟩ := ih h
      · exact ⟨hlt, Or.inr ⟨reading, List.mem_cons_self, rfl⟩⟩
      · exact ⟨hlt, Or.inr ⟨r, List.mem_cons_of_mem reading hr, rfl⟩⟩
    · obtain rfl := Option.some.inj h
      exact ⟨Int64.not_le.mp hle, Or.inl rfl⟩

/-- A reading not before the last one fits its field. So the next state is valid
again. -/
theorem Node.Valid.toNat_lt {n : Node} (h : n.Valid) {now : Int64} (hle : n.lastTime ≤ now)
    (hnow : now.toInt < 2 ^ 41) : toNat now < 2 ^ 41 := by
  have hnonneg : 0 ≤ now := by
    have hlast := nonneg_of_toNat_lt (h.lastTime.trans (by decide))
    rw [Int64.le_iff_toInt_le] at hlast hle ⊢
    exact hlast.trans hle
  have hnat := toNat_of_nonneg hnonneg
  omega

/-- **`n'` is a later state of the node `n`**: a later millisecond, or the same
one with a higher sequence number. It belongs to the same node. -/
structure Node.Before (n n' : Node) : Prop where
  valid : n'.Valid
  nodeID : n'.nodeID = n.nodeID
  epoch : n'.epoch = n.epoch
  later : toNat n.lastTime < toNat n'.lastTime
    ∨ (n.lastTime = n'.lastTime ∧ toNat n.sequence < toNat n'.sequence)

/-- The ID of a later state is greater. The time is in the higher bits. -/
theorem Node.Before.lastID_lt {n n' : Node} (hn : n.Valid) (h : n.Before n') :
    n.lastID < n'.lastID := by
  rw [lt_iff_toNat_lt hn.toNat_lastID_lt h.valid.toNat_lastID_lt, hn.toNat_lastID,
    h.valid.toNat_lastID, h.nodeID]
  rcases h.later with htime | ⟨htime, hseq⟩
  · exact pack_lt_pack_of_hi (pack_lt hn.nodeID hn.sequence)
      (pack_lt hn.nodeID h.valid.sequence) htime
  · rw [htime]
    exact pack_lt_pack_of_lo (pack_lt hn.nodeID h.valid.sequence)
      (pack_lt_pack_of_lo h.valid.sequence hseq _) _

/-- **`Generate`** fails and leaves the node alone, or moves it on and returns
its ID. The cases are those of the code: the clock has moved back, it stands
still, or it has moved on. -/
theorem generate_spec {n n' : Node} (hn : n.Valid) {clock : List Int64}
    (hclock : ∀ reading ∈ clock, (reading - n.epoch).toInt < 2 ^ 41) {r : Except Err Int64}
    (h : n.generate clock = some (r, n')) :
    (∃ err, r = .error err ∧ n' = n) ∨ (r = .ok n'.lastID ∧ n.Before n') := by
  cases clock with
  | nil => cases h
  | cons reading clock =>
    have hreading := hclock reading List.mem_cons_self
    have hrest : ∀ r ∈ clock, (r - n.epoch).toInt < 2 ^ 41 :=
      fun r hr => hclock r (List.mem_cons_of_mem reading hr)
    unfold Node.generate at h
    dsimp only at h
    generalize reading - n.epoch = now at h hreading
    -- a later millisecond
    have hlater : ∀ {t : Int64}, t.toInt < 2 ^ 41 → n.lastTime < t → ∀ {s : Int64},
        toNat s < 2 ^ 12 → n.Before { n with lastTime := t, sequence := s } := by
      intro t ht hlt s hs
      have hle : n.lastTime ≤ t := Int64.le_of_lt hlt
      have htime := hn.toNat_lt hle ht
      refine ⟨⟨hn.nodeID, htime, hs⟩, rfl, rfl, Or.inl ?_⟩
      exact (lt_iff_toNat_lt (hn.lastTime.trans (by decide)) (htime.trans (by decide))).mp hlt
    split_ifs at h with hback hsame hwrap
    · obtain ⟨rfl, rfl⟩ := Prod.mk.inj (Option.some.inj h)
      exact Or.inl ⟨_, rfl, rfl⟩
    · obtain ⟨t, ht, htake⟩ := Option.map_eq_some_iff.mp h
      obtain ⟨rfl, rfl⟩ := Prod.mk.inj htake
      obtain ⟨hlt, hmem⟩ := waitFrom_spec ht
      refine Or.inr ⟨rfl, hlater ?_ hlt ?_⟩
      · rcases hmem with rfl | ⟨r, hr, rfl⟩
        · exact hreading
        · exact hrest r hr
      · rw [hwrap]
        decide
    · obtain ⟨rfl, rfl⟩ := Prod.mk.inj (Option.some.inj h)
      -- the same millisecond: the next sequence number does not wrap
      have hseq := toNat_next_sequence hn.sequence
      have hne : toNat ((n.sequence + 1) &&& seqMax) ≠ 0 := by
        intro hzero
        exact hwrap (toNat_inj hzero)
      have hbound := hn.sequence
      refine Or.inr ⟨rfl, ⟨hn.nodeID, hsame ▸ hn.lastTime, ?_⟩, rfl, rfl, Or.inr ⟨hsame.symm, ?_⟩⟩
      · show toNat ((n.sequence + 1) &&& seqMax) < 2 ^ 12
        omega
      · show toNat n.sequence < toNat ((n.sequence + 1) &&& seqMax)
        omega
    · obtain ⟨rfl, rfl⟩ := Prod.mk.inj (Option.some.inj h)
      have hlt : n.lastTime < now := by
        rw [Int64.lt_iff_toInt_lt] at hback ⊢
        have hne : n.lastTime.toInt ≠ now.toInt := fun heq => hsame (Int64.toInt_inj.mp heq).symm
        omega
      exact Or.inr ⟨rfl, hlater hreading hlt (by decide)⟩

/-- **When a call returns**: unless the sequence numbers of the millisecond are
used up, at once, and then with the first reading past it. In the other case
some reading has to be later. -/
theorem generate_isSome_iff (n : Node) (reading : Int64) (clock : List Int64) :
    (n.generate (reading :: clock)).isSome = true
      ↔ ¬ (reading - n.epoch = n.lastTime ∧ (n.sequence + 1) &&& seqMax = 0)
        ∨ ∃ r ∈ clock, n.lastTime < r - n.epoch := by
  have hwait : ∀ now : Int64, now ≤ n.lastTime → ((n.waitFrom now clock).isSome = true
      ↔ ∃ r ∈ clock, n.lastTime < r - n.epoch) := by
    induction clock with
    | nil =>
      intro now hle
      unfold Node.waitFrom
      rw [if_pos hle]
      simp
    | cons r clock ih =>
      intro now hle
      unfold Node.waitFrom
      rw [if_pos hle]
      by_cases hr : r - n.epoch ≤ n.lastTime
      · rw [ih _ hr]
        simp [Int64.not_lt.mpr hr]
      · have hlt := Int64.not_le.mp hr
        have hnext : (n.waitFrom (r - n.epoch) clock).isSome = true := by
          cases clock with
          | nil =>
            unfold Node.waitFrom
            rw [if_neg hr]
            rfl
          | cons _ _ =>
            unfold Node.waitFrom
            rw [if_neg hr]
            rfl
        exact ⟨fun _ => ⟨r, List.mem_cons_self, hlt⟩, fun _ => hnext⟩
  unfold Node.generate
  dsimp only
  by_cases hsame : reading - n.epoch = n.lastTime
  · rw [hsame, if_neg Int64.lt_irrefl, if_pos rfl]
    by_cases hwrap : (n.sequence + 1) &&& seqMax = 0
    · rw [if_pos hwrap, Option.isSome_map, hwait _ (Int64.le_refl _)]
      simp [hwrap]
    · rw [if_neg hwrap]
      simp [hwrap]
  · rw [if_neg hsame]
    split_ifs
    · simp [hsame]
    · simp [hsame]

/-! ## Sequences of calls -/

/-- **The IDs of a node** increase, from its last one on, and are IDs of the
node. By induction on the calls. -/
theorem ids_spec {n : Node} (hn : n.Valid) {calls : List (List Int64)}
    (hclock : ∀ clock ∈ calls, ∀ reading ∈ clock, (reading - n.epoch).toInt < 2 ^ 41) :
    (n.ids calls).Pairwise (· < ·)
      ∧ ∀ id ∈ n.ids calls, n.lastID < id
        ∧ ∃ m : Node, m.Valid ∧ m.nodeID = n.nodeID ∧ id = m.lastID := by
  induction calls generalizing n with
  | nil => exact ⟨List.Pairwise.nil, fun _ h => absurd h List.not_mem_nil⟩
  | cons clock calls ih =>
    have hfirst := hclock clock List.mem_cons_self
    have hrest : ∀ c ∈ calls, ∀ reading ∈ c, (reading - n.epoch).toInt < 2 ^ 41 :=
      fun c hc => hclock c (List.mem_cons_of_mem clock hc)
    unfold Node.ids Node.results
    cases hgen : n.generate clock with
    | none => exact ⟨List.Pairwise.nil, fun _ h => absurd h List.not_mem_nil⟩
    | some p =>
      obtain ⟨r, n'⟩ := p
      rcases generate_spec hn hfirst hgen with ⟨err, rfl, rfl⟩ | ⟨rfl, hbefore⟩
      · exact ih hn hrest
      · obtain ⟨hpairwise, hids⟩ := ih hbefore.valid (hbefore.epoch ▸ hrest)
        have hlt := hbefore.lastID_lt hn
        refine ⟨List.pairwise_cons.mpr ⟨fun id hid => (hids id hid).1, hpairwise⟩,
          fun id hid => ?_⟩
        rcases List.mem_cons.mp hid with rfl | hid
        · exact ⟨hlt, n', hbefore.valid, hbefore.nodeID, rfl⟩
        · obtain ⟨hlt', m, hm, hnode, heq⟩ := hids id hid
          exact ⟨Int64.lt_trans hlt hlt', m, hm, hnode.trans hbefore.nodeID, heq⟩

/-- IDs of different nodes differ. The node is one of the fields. -/
theorem lastID_ne {m m' : Node} (hm : m.Valid) (hm' : m'.Valid) (hne : m'.nodeID ≠ m.nodeID) :
    m.lastID ≠ m'.lastID := by
  intro heq
  have hnat := congrArg toNat heq
  rw [hm.toNat_lastID, hm'.toNat_lastID] at hnat
  obtain ⟨-, hlow⟩ := pack_inj (pack_lt hm.nodeID hm.sequence) (pack_lt hm'.nodeID hm'.sequence)
    hnat
  obtain ⟨hnode, -⟩ := pack_inj hm.sequence hm'.sequence hlow
  exact hne (toNat_inj hnode.symm)

/-- A call that fails leaves the node as it was. So the next call can succeed. -/
theorem generate_error {m m' : Node} {clock : List Int64} {err : Err}
    (h : m.generate clock = some (.error err, m')) : m' = m := by
  cases clock with
  | nil => cases h
  | cons reading clock =>
    unfold Node.generate at h
    dsimp only at h
    split_ifs at h
    · exact (Prod.mk.inj (Option.some.inj h)).2.symm
    · obtain ⟨t, -, htake⟩ := Option.map_eq_some_iff.mp h
      cases htake
    · cases h
    · cases h

/-- **Snowflake IDs are unique and ordered.** The difference of a reading and
the epoch is the one the code computes. -/
theorem ids_unique {nodeID epoch : Int64} {n : Node} (hn : newNode nodeID epoch = .ok n)
    {calls : List (List Int64)}
    (hclock : ∀ clock ∈ calls, ∀ reading ∈ clock, (reading - epoch).toInt < 2 ^ 41) :
    (n.ids calls).Pairwise (· < ·)
      ∧ (∀ id ∈ n.ids calls, 0 ≤ id)
      ∧ (∀ (m m' : Node) (clock : List Int64) (err : Err),
        m.generate clock = some (.error err, m') → m' = m)
      ∧ ∀ (nodeID' : Int64) (n' : Node) (calls' : List (List Int64)),
        newNode nodeID' epoch = .ok n' → nodeID' ≠ nodeID →
        (∀ clock ∈ calls', ∀ reading ∈ clock, (reading - epoch).toInt < 2 ^ 41) →
        (n.ids calls).Disjoint (n'.ids calls') := by
  obtain ⟨hvalid, hnode, hepoch⟩ := valid_newNode hn
  obtain ⟨hpairwise, hids⟩ := ids_spec hvalid (hepoch ▸ hclock)
  refine ⟨hpairwise, fun id hid => ?_, fun m m' clock err => generate_error,
    fun nodeID' n' calls' hn' hne hclock' id hid hid' => ?_⟩
  · obtain ⟨-, m, hm, -, rfl⟩ := hids id hid
    exact nonneg_of_toNat_lt hm.toNat_lastID_lt
  · obtain ⟨hvalid', hnode', hepoch'⟩ := valid_newNode hn'
    obtain ⟨-, m, hm, hmnode, hmid⟩ := hids id hid
    obtain ⟨-, m', hm', hmnode', hmid'⟩ :=
      (ids_spec hvalid' (hepoch' ▸ hclock')).2 id hid'
    refine lastID_ne hm hm' ?_ (hmid.symm.trans hmid')
    rw [hmnode, hmnode', hnode, hnode']
    exact hne

/-- `customEpoch`. -/
def customEpoch : Int64 := 1704067200000

/-- Readings `clock` milliseconds after the epoch. -/
def readings (clock : List ℕ) : List Int64 := clock.map (fun t => customEpoch + Int64.ofNat t)

/-- The readings of the example fit their field. -/
theorem readings_fit {clock : List ℕ} (h : ∀ t ∈ clock, t < 2 ^ 10) :
    ∀ reading ∈ readings clock, (reading - customEpoch).toInt < 2 ^ 41 := by
  intro reading hreading
  obtain ⟨t, ht, rfl⟩ := List.mem_map.mp hreading
  have hlt := h t ht
  have hsub : customEpoch + Int64.ofNat t - customEpoch = Int64.ofNat t := by
    rw [Int64.add_comm, Int64.add_sub_cancel]
  rw [hsub, Int64.toInt_ofNat_of_lt (by omega)]
  omega

/-- Two calls in one millisecond, one after the clock has moved back, and one in
a later millisecond; and another node at the same time. -/
theorem ids_unique_of_backwards :
    (Node.ids ⟨1, 0, 0, customEpoch⟩ ([[7], [7], [5], [9]].map readings)).Pairwise (· < ·)
      ∧ (Node.ids ⟨1, 0, 0, customEpoch⟩ ([[7], [7], [5], [9]].map readings)).Disjoint
        (Node.ids ⟨2, 0, 0, customEpoch⟩ ([[7], [7]].map readings)) := by
  have hfit : ∀ calls : List (List ℕ), (∀ clock ∈ calls, ∀ t ∈ clock, t < 2 ^ 10) →
      ∀ clock ∈ calls.map readings, ∀ reading ∈ clock,
        (reading - customEpoch).toInt < 2 ^ 41 := by
    intro calls hcalls clock hclock
    obtain ⟨times, htimes, rfl⟩ := List.mem_map.mp hclock
    exact readings_fit (hcalls times htimes)
  obtain ⟨hpairwise, -, -, hother⟩ :=
    @ids_unique 1 customEpoch ⟨1, 0, 0, customEpoch⟩ rfl _
      (hfit [[7], [7], [5], [9]] (by decide))
  exact ⟨hpairwise, hother 2 ⟨2, 0, 0, customEpoch⟩ _ rfl (by decide)
    (hfit [[7], [7]] (by decide))⟩

end Snowflake
