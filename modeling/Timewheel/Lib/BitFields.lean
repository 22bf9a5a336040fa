import Mathlib.Data.Nat.Bitwise
import Mathlib.Tactic.Common

/-!
# Fields of bits

Two numbers packed into one: `pack i hi lo` has `lo` in its `i` lowest bits
and `hi` above them, put together with a shift and an or. As long as `lo` fits,
nothing is lost, and packed numbers compare like the pairs they are made of,
the high field first. A layout with more fields is a pack of packs.
-/

namespace BitFields

/-- `hi` above the `i` bits of `lo`. -/
def pack (i hi lo : ℕ) : ℕ := hi <<< i ||| lo

variable {i j hi lo hi' lo' : ℕ}

/-- With a low field that fits, the or is an addition. -/
theorem pack_eq (h : lo < 2 ^ i) (hi : ℕ) : pack i hi lo = hi * 2 ^ i + lo := by
  rw [pack, ← Nat.shiftLeft_add_eq_or_of_lt h, Nat.shiftLeft_eq]

/-- The high field decides. -/
theorem pack_lt_pack_of_hi (h : lo < 2 ^ i) (h' : lo' < 2 ^ i) (hlt : hi < hi') :
    pack i hi lo < pack i hi' lo' := by
  rw [pack_eq h, pack_eq h']
  calc hi * 2 ^ i + lo < hi * 2 ^ i + 2 ^ i := Nat.add_lt_add_left h _
    _ = (hi + 1) * 2 ^ i := (Nat.succ_mul hi (2 ^ i)).symm
    _ ≤ hi' * 2 ^ i := Nat.mul_le_mul_right _ hlt
    _ ≤ hi' * 2 ^ i + lo' := Nat.le_add_right _ _

/-- With equal high fields the low one does. -/
theorem pack_lt_pack_of_lo (h' : lo' < 2 ^ i) (hlt : lo < lo') (hi : ℕ) :
    pack i hi lo < pack i hi lo' := by
  rw [pack_eq (hlt.trans h'), pack_eq h']
  exact Nat.add_lt_add_left hlt _

/-- **Nothing is lost.** -/
theorem pack_inj (h : lo < 2 ^ i) (h' : lo' < 2 ^ i) (heq : pack i hi lo = pack i hi' lo') :
    hi = hi' ∧ lo = lo' := by
  rcases lt_trichotomy hi hi' with hlt | rfl | hlt
  · exact absurd heq (pack_lt_pack_of_hi h h' hlt).ne
  · rw [pack_eq h, pack_eq h'] at heq
    exact ⟨rfl, Nat.add_left_cancel heq⟩
  · exact absurd heq (pack_lt_pack_of_hi h' h hlt).ne'

/-- The width of a packed number. -/
theorem pack_lt (hhi : hi < 2 ^ j) (h : lo < 2 ^ i) : pack i hi lo < 2 ^ (i + j) := by
  rw [pack_eq h, Nat.pow_add]
  calc hi * 2 ^ i + lo < hi * 2 ^ i + 2 ^ i := Nat.add_lt_add_left h _
    _ = (hi + 1) * 2 ^ i := (Nat.succ_mul hi (2 ^ i)).symm
    _ ≤ 2 ^ j * 2 ^ i := Nat.mul_le_mul_right _ hhi
    _ = 2 ^ i * 2 ^ j := Nat.mul_comm _ _

/-! ## Unpacking -/

/-- The high field of a packed number. -/
theorem pack_shiftRight (h : lo < 2 ^ i) (hi : ℕ) : pack i hi lo >>> i = hi := by
  rw [pack_eq h, Nat.shiftRight_eq_div_pow, Nat.add_comm, Nat.add_mul_div_right _ _ (Nat.two_pow_pos i),
    Nat.div_eq_of_lt h, Nat.zero_add]

/-- The low field of a packed number. -/
theorem pack_mod (h : lo < 2 ^ i) (hi : ℕ) : pack i hi lo % 2 ^ i = lo := by
  rw [pack_eq h, Nat.mul_add_mod_of_lt h]

/-- Packing two fields and then a third is packing one field and then two. -/
theorem pack_pack {mid : ℕ} (hmid : mid < 2 ^ j) (hlo : lo < 2 ^ i) (hi : ℕ) :
    pack (i + j) hi (pack i mid lo) = pack i (pack j hi mid) lo := by
  rw [pack_eq (pack_lt hmid hlo), pack_eq hlo, pack_eq hlo, pack_eq hmid, Nat.pow_add,
    Nat.add_mul, Nat.mul_comm (2 ^ i), Nat.mul_assoc, Nat.add_assoc]

end BitFields
