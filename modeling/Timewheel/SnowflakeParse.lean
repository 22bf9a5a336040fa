import Timewheel.Snowflake
import Timewheel.Lib.Run

/-!
# Parsing snowflake IDs

`ParseID` takes an ID apart: its sequence number, its node and the time it was
made. The first two are fields of the ID. The time is counted from an epoch,
which a node has as a field of its own; `ParseID` and `GetTimestamp` do not
know the node and add `customEpoch`.

So they recover the node and the sequence number of every ID (`fields_of_ok`),
and the time of the IDs of nodes that count from `customEpoch`, `recovers_iff`.
-/

namespace Snowflake

open BitFields

/-! ## The code -/

/-- What `ParseID` returns; the time as what is given to `time.UnixMilli`. The
conversion to a time is left out. -/
structure Parsed where
  timestamp : Int64
  nodeID : Int64
  sequence : Int64
  deriving DecidableEq, Repr

/-- The errors of `strconv.ParseInt`. -/
inductive NumErr where
  | errSyntax
  | errRange
  deriving DecidableEq, Repr

/-- `err.Error()`, without what names the function and its argument. -/
def NumErr.error : NumErr → String
  | errSyntax => "invalid syntax"
  | errRange => "value out of range"

/-- The errors of `ParseID` and `ParseString`. -/
inductive ParseErr where
  | negative
  | invalidString (num : String) (err : NumErr)
  deriving DecidableEq, Repr

/-- `err.Error()`. -/
def ParseErr.error : ParseErr → String
  | negative => "invalid snowflake ID: must be positive"
  | invalidString num err =>
    "invalid snowflake ID string: strconv.ParseInt: parsing " ++ num.quote ++ ": " ++ err.error

/-- `ParseID`. A negative number is refused. -/
def parseID (id : Int64) : Except ParseErr Parsed :=
  if id < 0 then .error .negative
  else
    let seq := id &&& seqMax
    let node := (id >>> nodeShift) &&& nodeMax
    let ms := (id >>> timeShift) + customEpoch
    .ok ⟨ms, node, seq⟩

/-- `GetTimestamp`. This and the next two accept any number. -/
def getTimestamp (id : Int64) : Int64 := (id >>> timeShift) + customEpoch

/-- `GetNodeID`. -/
def getNodeID (id : Int64) : Int64 := (id >>> nodeShift) &&& nodeMax

/-- `GetSequence`. -/
def getSequence (id : Int64) : Int64 := id &&& seqMax

/-- The digits of `strconv.ParseUint` in base 10, after `n`. The check for the
range is made digit by digit. -/
def parseDigits : ℕ → List Char → Except NumErr ℕ
  | n, [] => .ok n
  | n, c :: cs =>
    if c.isDigit then
      let n' := 10 * n + (c.toNat - '0'.toNat)
      if 2 ^ 64 ≤ n' then .error .errRange else parseDigits n' cs
    else .error .errSyntax

/-- `strconv.ParseUint` in base 10. -/
def parseUint : List Char → Except NumErr ℕ
  | [] => .error .errSyntax
  | c :: cs => parseDigits 0 (c :: cs)

/-- `strconv.ParseInt` in base 10. One sign may come first. -/
def parseInt (s : String) : Except NumErr Int64 :=
  let positive := fun cs => (parseUint cs).bind (fun un =>
    if 2 ^ 63 ≤ un then .error .errRange else .ok (Int64.ofNat un))
  match s.toList with
  | '+' :: cs => positive cs
  | '-' :: cs => (parseUint cs).bind (fun un =>
    if 2 ^ 63 < un then .error .errRange else .ok (- Int64.ofNat un))
  | cs => positive cs

/-- `ParseString`. -/
def parseString (idStr : String) : Except ParseErr Parsed :=
  match parseInt idStr with
  | .error err => .error (.invalidString idStr err)
  | .ok id => parseID id

/-- `strconv.FormatInt` in base 10. -/
def formatInt (id : Int64) : String := toString id.toInt

/-! ## The decimal form -/

/-- Digits are read from left to right. By induction on the digits. -/
theorem parseDigits_eq {cs : List Char} {n : ℕ} (hdigits : ∀ c ∈ cs, c.isDigit)
    (hlt : Nat.ofDigitChars 10 cs n < 2 ^ 64) :
    parseDigits n cs = .ok (Nat.ofDigitChars 10 cs n) := by
  induction cs generalizing n with
  | nil => rfl
  | cons c cs ih =>
    obtain ⟨hc, hcs⟩ := List.forall_mem_cons.mp hdigits
    rw [Nat.ofDigitChars_cons] at hlt ⊢
    -- what has been read is a part of the number
    have hpart : 10 * n + (c.toNat - '0'.toNat)
        ≤ Nat.ofDigitChars 10 cs (10 * n + (c.toNat - '0'.toNat)) := by
      rw [Nat.ofDigitChars_eq_ofDigitChars_zero]
      exact (Nat.le_mul_of_pos_left _ (Nat.pow_pos (by decide))).trans (Nat.le_add_right _ _)
    unfold parseDigits
    rw [if_pos hc, if_neg (not_le.mpr (lt_of_le_of_lt hpart hlt))]
    exact ih hcs hlt

/-- **The decimal form of a number is read back.** So nothing is lost in the
text. -/
theorem parseUint_toDigits {n : ℕ} (h : n < 2 ^ 64) : parseUint (Nat.toDigits 10 n) = .ok n := by
  have hread : parseDigits 0 (Nat.toDigits 10 n) = .ok n := by
    rw [parseDigits_eq (fun c hc => Nat.isDigit_of_mem_toDigits (by decide) (le_refl 10) hc)
      (by rwa [Nat.ofDigitChars_ten_toDigits]), Nat.ofDigitChars_ten_toDigits]
  cases hdigits : Nat.toDigits 10 n with
  | nil => exact absurd hdigits Nat.toDigits_ne_nil
  | cons c cs =>
    rw [hdigits] at hread
    exact hread

/-- A nonnegative number is written without a sign. This is the form in which
IDs are passed around. -/
theorem parseInt_formatInt {id : Int64} (h : toNat id < 2 ^ 63) :
    parseInt (formatInt id) = .ok id := by
  have hform : (formatInt id).toList = Nat.toDigits 10 (toNat id) := by
    unfold formatInt
    rw [toInt_of_toNat_lt h]
    exact Nat.toList_repr
  have hid : Int64.ofNat (toNat id) = id := by
    rw [← Int64.toInt_inj, Int64.toInt_ofNat_of_lt h, toInt_of_toNat_lt h]
  have hdigit : ∀ c cs, Nat.toDigits 10 (toNat id) = c :: cs → c.isDigit := fun c cs heq =>
    Nat.isDigit_of_mem_toDigits (by decide) (le_refl 10) (heq ▸ List.mem_cons_self)
  have hpositive : ((parseUint (Nat.toDigits 10 (toNat id))).bind (fun un =>
      if 2 ^ 63 ≤ un then .error .errRange else .ok (Int64.ofNat un)) : Except NumErr Int64)
      = .ok id := by
    rw [parseUint_toDigits (h.trans (by decide))]
    exact (if_neg (not_le.mpr h)).trans (congrArg _ hid)
  unfold parseInt
  rw [hform]
  dsimp only
  split
  · next cs heq => exact absurd (hdigit _ _ heq) (by decide)
  · next cs heq => exact absurd (hdigit _ _ heq) (by decide)
  · exact hpositive

/-! ## The fields of an ID -/

/-- Masks are those on the numbers. -/
theorem toNat_and (x y : Int64) : toNat (x &&& y) = toNat x &&& toNat y :=
  congrArg BitVec.toNat (Int64.toBitVec_and x y) |>.trans (BitVec.toNat_and _ _)

/-- For a nonnegative number the arithmetic shift is the logical one. The sign
bit is clear. -/
theorem toNat_shiftRight {x k : Int64} {i : ℕ} (h : toNat x < 2 ^ 63)
    (hk : (k.toBitVec.smod 64).toNat = i) : toNat (x >>> k) = toNat x >>> i := by
  have hmsb : x.toBitVec.msb = false := by
    rw [BitVec.msb_eq_false_iff_two_mul_lt]
    show 2 * toNat x < 2 ^ 64
    omega
  unfold toNat
  rw [Int64.toBitVec_shiftRight, BitVec.toNat_sshiftRight'_of_msb_false hmsb, hk]

/-- **The fields of an ID**, read off with shifts and masks. Each of the three
comes back as it was put in. -/
theorem Node.Valid.fields {n : Node} (h : n.Valid) :
    n.lastID >>> timeShift = n.lastTime ∧ getNodeID n.lastID = n.nodeID
      ∧ getSequence n.lastID = n.sequence := by
  have hnode : toNat nodeMax = 2 ^ 10 - 1 := rfl
  have hseq : toNat seqMax = 2 ^ 12 - 1 := rfl
  have hsplit : toNat n.lastID
      = pack 12 (pack 10 (toNat n.lastTime) (toNat n.nodeID)) (toNat n.sequence) :=
    h.toNat_lastID.trans (pack_pack h.nodeID h.sequence _)
  refine ⟨toNat_inj ?_, toNat_inj ?_, toNat_inj ?_⟩
  · rw [toNat_shiftRight h.toNat_lastID_lt rfl, h.toNat_lastID]
    exact pack_shiftRight (pack_lt h.nodeID h.sequence) _
  · unfold getNodeID
    rw [toNat_and, hnode, Nat.and_two_pow_sub_one_eq_mod, toNat_shiftRight h.toNat_lastID_lt rfl,
      hsplit]
    exact (congrArg (· % 2 ^ 10) (pack_shiftRight h.sequence _)).trans (pack_mod h.nodeID _)
  · unfold getSequence
    rw [toNat_and, hseq, Nat.and_two_pow_sub_one_eq_mod, hsplit]
    exact pack_mod h.sequence _

/-! ## The IDs of a node -/

/-- What every call keeps of a node: its ID and its epoch, a time that has not
moved back before the epoch, and a sequence number that fits. A node that has
made no call yet is included. -/
structure Node.Counts (nodeID epoch : Int64) (n : Node) : Prop where
  nodeID : n.nodeID = nodeID
  epoch : n.epoch = epoch
  lastTime : 0 ≤ n.lastTime
  sequence : toNat n.sequence < 2 ^ 12

variable {nodeID epoch id t : Int64} {n n' n₀ : Node} {clock : List Int64}

/-- A new node is as it should be. -/
theorem counts_newNode (h : newNode nodeID epoch = .ok n) :
    n.Counts nodeID epoch ∧ toNat nodeID < 2 ^ 10 := by
  obtain ⟨hvalid, hnode, hepoch⟩ := valid_newNode h
  refine ⟨⟨hnode, hepoch, nonneg_of_toNat_lt (hvalid.lastTime.trans (by decide)),
    hvalid.sequence⟩, hnode ▸ hvalid.nodeID⟩

/-- The next sequence number fits. -/
theorem toNat_and_seqMax_lt (x : Int64) : toNat (x &&& seqMax) < 2 ^ 12 := by
  have hseq : toNat seqMax = 2 ^ 12 - 1 := rfl
  rw [toNat_and, hseq, Nat.and_two_pow_sub_one_eq_mod]
  exact Nat.mod_lt _ (Nat.two_pow_pos 12)

/-- **An ID is made of what the call leaves in the node**, whose time is that of
a reading of the clock. -/
theorem generate_ok (hn : n.Counts nodeID epoch) (h : n.generate clock = some (.ok id, n')) :
    n'.Counts nodeID epoch ∧ id = n'.lastID ∧ ∃ t ∈ clock, n'.lastTime = t - epoch := by
  cases clock with
  | nil => cases h
  | cons reading clock =>
    have hepoch := hn.epoch
    unfold Node.generate at h
    dsimp only at h
    split_ifs at h with hback hsame hwrap
    · cases h
    · obtain ⟨t, ht, htake⟩ := Option.map_eq_some_iff.mp h
      obtain ⟨hid, rfl⟩ := Prod.mk.inj htake
      obtain ⟨hlt, hmem⟩ := waitFrom_spec ht
      refine ⟨⟨hn.nodeID, hepoch, Int64.le_of_lt (Int64.lt_of_le_of_lt hn.lastTime hlt),
        toNat_and_seqMax_lt _⟩, (Except.ok.inj hid).symm, ?_⟩
      rcases hmem with rfl | ⟨r, hr, rfl⟩
      · exact ⟨reading, List.mem_cons_self, hepoch ▸ rfl⟩
      · exact ⟨r, List.mem_cons_of_mem _ hr, hepoch ▸ rfl⟩
    · obtain ⟨hid, rfl⟩ := Prod.mk.inj (Option.some.inj h)
      exact ⟨⟨hn.nodeID, hepoch, Int64.le_trans hn.lastTime (Int64.not_lt.mp hback),
        toNat_and_seqMax_lt _⟩, (Except.ok.inj hid).symm,
        reading, List.mem_cons_self, hepoch ▸ rfl⟩
    · obtain ⟨hid, rfl⟩ := Prod.mk.inj (Option.some.inj h)
      exact ⟨⟨hn.nodeID, hepoch, Int64.le_trans hn.lastTime (Int64.not_lt.mp hback),
        Nat.two_pow_pos 12⟩,
        (Except.ok.inj hid).symm, reading, List.mem_cons_self, hepoch ▸ rfl⟩

/-- A call, whatever comes of it. The ID is dropped. -/
def Node.call (n : Node) (clock : List Int64) : Option Node := (n.generate clock).map Prod.snd

/-- Every call keeps that. A call that fails leaves the node alone. -/
theorem Node.Counts.of_call (hn : n.Counts nodeID epoch) (h : n.call clock = some n') :
    n'.Counts nodeID epoch := by
  obtain ⟨⟨r, m⟩, hgen, rfl⟩ := Option.map_eq_some_iff.mp h
  cases r with
  | error err => exact (generate_error hgen).symm ▸ hn
  | ok id => exact (generate_ok hn hgen).1

/-! ## The round trip -/

/-- **Parsing recovers how an ID was made**: the time, the node and the sequence
number. All the functions that take an ID apart are meant. -/
structure Recovers (id timestamp nodeID sequence : Int64) : Prop where
  parseID : parseID id = .ok ⟨timestamp, nodeID, sequence⟩
  parseString : parseString (formatInt id) = .ok ⟨timestamp, nodeID, sequence⟩
  getTimestamp : getTimestamp id = timestamp
  getNodeID : getNodeID id = nodeID
  getSequence : getSequence id = sequence

/-- The functions of the package agree with `ParseID`. So only the three fields
are to be compared. -/
theorem recovers_iff_fields (h : toNat id < 2 ^ 63) {timestamp sequence : Int64} :
    Recovers id timestamp nodeID sequence
      ↔ getTimestamp id = timestamp ∧ getNodeID id = nodeID ∧ getSequence id = sequence := by
  have hparse : parseID id = .ok ⟨getTimestamp id, getNodeID id, getSequence id⟩ := by
    unfold parseID
    exact if_neg (Int64.not_lt.mpr (nonneg_of_toNat_lt h))
  have hstring : parseString (formatInt id) = parseID id := by
    unfold parseString
    rw [parseInt_formatInt h]
  constructor
  · intro hrec
    exact ⟨hrec.getTimestamp, hrec.getNodeID, hrec.getSequence⟩
  · rintro ⟨rfl, rfl, rfl⟩
    exact ⟨hparse, hstring.trans hparse, rfl, rfl, rfl⟩

/-- The fields of an ID that was made in time: those of the node that made it,
and `customEpoch` later than its time. -/
theorem fields_of_ok (hn : n.Counts nodeID epoch) (hnode : toNat nodeID < 2 ^ 10)
    (hgen : n.generate clock = some (.ok id, n')) (hlast : n'.lastTime = t - epoch)
    (hlow : 0 ≤ t.toInt - epoch.toInt) (hhigh : t.toInt - epoch.toInt < 2 ^ 41) :
    toNat id < 2 ^ 63 ∧ getTimestamp id = n'.lastTime + customEpoch ∧ getNodeID id = nodeID
      ∧ getSequence id = n'.sequence := by
  obtain ⟨hn', rfl, -⟩ := generate_ok hn hgen
  have htime : n'.lastTime.toInt = t.toInt - epoch.toInt := by
    rw [hlast, Int64.toInt_sub]
    exact Int.bmod_eq_of_le (by omega) (by omega)
  have hnat := toNat_of_nonneg hn'.lastTime
  have hvalid : n'.Valid := ⟨hn'.nodeID ▸ hnode, by omega, hn'.sequence⟩
  obtain ⟨hshift, hfieldNode, hfieldSeq⟩ := hvalid.fields
  exact ⟨hvalid.toNat_lastID_lt, congrArg (· + customEpoch) hshift,
    hfieldNode.trans hn'.nodeID, hfieldSeq⟩

/-- **Parsing recovers how an ID was made exactly if the node counts from
`customEpoch`.** The node has made any calls before, and `t` is the reading of
the clock the ID was made from. -/
theorem recovers_iff (hnew : newNode nodeID epoch = .ok n₀) {calls : List (List Int64)}
    (hcalls : Machine.run Node.call n₀ calls = some n)
    (hgen : n.generate clock = some (.ok id, n')) (hlast : n'.lastTime = t - epoch)
    (hlow : 0 ≤ t.toInt - epoch.toInt) (hhigh : t.toInt - epoch.toInt < 2 ^ 41) :
    Recovers id t nodeID n'.sequence ↔ epoch = customEpoch := by
  obtain ⟨hn₀, hnode⟩ := counts_newNode hnew
  have hkeep : ∀ (n : Node) clock n', n.Counts nodeID epoch → True → n.call clock = some n' →
      n'.Counts nodeID epoch := fun _ _ _ hn _ hcall => hn.of_call hcall
  have hn := Machine.inv_of_run hkeep hn₀ (Machine.each_of_forall (fun _ _ => trivial)) hcalls
  obtain ⟨hid, htime, hfieldNode, hfieldSeq⟩ := fields_of_ok hn hnode hgen hlast hlow hhigh
  rw [recovers_iff_fields hid, htime, hlast]
  constructor
  · rintro ⟨heq, -, -⟩
    grind
  · rintro rfl
    exact ⟨Int64.sub_add_cancel _ _, hfieldNode, hfieldSeq⟩

/-- Node 123, counted from `customEpoch`: the third call, in the same millisecond
as the second. -/
theorem recovers_of_customEpoch :
    Recovers (Node.lastID ⟨123, 9, 1, customEpoch⟩) (customEpoch + 9) 123 1 :=
  (@recovers_iff 123 customEpoch _ (customEpoch + 9) ⟨123, 9, 0, customEpoch⟩
    ⟨123, 9, 1, customEpoch⟩ ⟨123, 0, 0, customEpoch⟩ [customEpoch + 9] rfl
    [[customEpoch + 7], [customEpoch + 9]] (by decide) (by decide) (by decide) (by decide)
    (by decide)).mpr rfl

/-- **Another epoch.** A node that counts from September 2020 makes an ID, and
`ParseID` takes it to be made three years later. -/
theorem not_recovers_of_epoch :
    ∃ n₀ n' id, newNode 123 1600000000000 = .ok n₀
      ∧ n₀.generate [1600000000005] = some (.ok id, n')
      ∧ parseID id = .ok ⟨1704067200005, 123, 0⟩
      ∧ ¬ Recovers id 1600000000005 123 n'.sequence := by
  refine ⟨⟨123, 0, 0, 1600000000000⟩, ⟨123, 5, 0, 1600000000000⟩, 21475328, rfl, by decide,
    by decide, fun h => ?_⟩
  exact absurd h.parseID (by decide)

end Snowflake
