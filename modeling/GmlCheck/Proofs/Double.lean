import Mathlib.Data.Prod.Lex
import Mathlib.Order.Compare

/-!
# The order of doubles, and their distances

Comparison of doubles goes by class, exponent and mantissa. `place?` gives the three
as a key, and one double is below another exactly if both have keys in that order.
Hence the order is transitive, although not-a-number is not even below itself.

A difference taken the other way round is the same number with the other sign, and the sign is
lost where only the distance counts (`abs_sub_comm`).
-/

namespace GmlCheck.Double

open Float.Model (UnpackedFloat)

/-- Where a number stands among all: its class by sign and size, then exponent and mantissa. The
two zeros stand together, and not-a-number stands nowhere. -/
def place? : UnpackedFloat → Option (Int ×ₗ Int ×ₗ Int)
  | .notANumber => none
  | .infinity .negative => some (toLex (-2, toLex (0, 0)))
  | .finite .negative m e _ => some (toLex (-1, toLex (-e, -m)))
  | .zero _ => some (toLex (0, toLex (0, 0)))
  | .finite .positive m e _ => some (toLex (1, toLex (e, m)))
  | .infinity .positive => some (toLex (2, toLex (0, 0)))

theorem isLE_then_compare_iff {e e' : Int} {m m' : Nat} :
    ((compare e e').then (compare m m')).isLE = true ↔ e < e' ∨ e = e' ∧ m ≤ m' := by
  rcases lt_trichotomy e e' with h | rfl | h
  · simp [compare_lt_iff_lt.2 h, h]
  · simp [Nat.isLE_compare]
  · simp [compare_gt_iff_gt.2 h, h.not_gt, h.ne']

theorem isGE_then_compare_iff {e e' : Int} {m m' : Nat} :
    ((compare e e').then (compare m m')).isGE = true ↔ e' < e ∨ e = e' ∧ m' ≤ m := by
  rcases lt_trichotomy e e' with h | rfl | h
  · simp [compare_lt_iff_lt.2 h, h.not_gt, h.ne]
  · simp [Nat.isGE_compare]
  · simp [compare_gt_iff_gt.2 h, h]

theorem le_iff_place? (a b : UnpackedFloat) :
    a.le b = true ↔ ∃ x y, place? a = some x ∧ place? b = some y ∧ x ≤ y := by
  rcases a with (_ | _) | _ | _ | ⟨_ | _, m, e, hm⟩ <;>
    rcases b with (_ | _) | _ | _ | ⟨_ | _, m', e', hm'⟩ <;>
    dsimp only [UnpackedFloat.le, UnpackedFloat.compare, place?] <;>
    simp [Prod.Lex.toLex_le_toLex]
  -- Only numbers of one class are left: the infinities, and the finite ones of either sign.
  case infinity.negative.infinity.negative => rfl
  case infinity.negative.infinity.positive => rfl
  case infinity.positive.infinity.negative => rfl
  case infinity.positive.infinity.positive => rfl
  case finite.negative.finite.negative => exact isGE_then_compare_iff
  case finite.positive.finite.positive => exact isLE_then_compare_iff

theorem le_iff_unpack (a b : Float) :
    a ≤ b ↔ a.toModel.unpack.le b.toModel.unpack = true := by
  show decide _ = true ↔ _
  rw [decide_eq_true_iff]
  rfl

theorem le_trans {a b c : Float} (hab : a ≤ b) (hbc : b ≤ c) : a ≤ c := by
  rw [le_iff_unpack, le_iff_place?] at *
  obtain ⟨x, y, hx, hy, hxy⟩ := hab
  obtain ⟨y', z, hy', hz, hyz⟩ := hbc
  cases hy.symm.trans hy'
  exact ⟨x, z, hx, hz, hxy.trans hyz⟩

/-! ## Distances -/

open Float.Model.UnpackedFloat (Sign pack unpack unpackExponent unpackMantissa packComponents
  unpackExponent_packComponents unpackMantissa_packComponents)

variable {spec : Float.Model.Format}

/-- The absolute value of what is unpacked, by its exponent and mantissa. -/
def magnitude (e : BitVec spec.exponentBits) (m : BitVec spec.mantissaBitsWithoutImplicit) :
    UnpackedFloat :=
  let exponent : Int := e.toNat - (spec.exponentBias + spec.mantissaBitsWithoutImplicit)
  if e = -1#_ then
    if m = 0#_ then .infinity .positive else .notANumber
  else if e = 0#_ then
    if h : m = 0#_ then .zero .positive
    else .finite .positive m.toNat (exponent + 1) (BitVec.toNat_pos_of_ne_zero h)
  else .finite .positive (1#1 ++ m).toNat exponent (by simp)

theorem abs_unpack (b : BitVec spec.numBits) :
    (unpack spec b).abs = magnitude (unpackExponent b) (unpackMantissa b) := by
  delta unpack magnitude
  dsimp only
  by_cases he : unpackExponent b = -1#_
  · rw [if_pos he, if_pos he]
    by_cases hm : unpackMantissa b = 0#_
    · rw [if_pos hm, if_pos hm]
      rfl
    · rw [if_neg hm, if_neg hm]
      rfl
  · rw [if_neg he, if_neg he]
    by_cases hzero : unpackExponent b = 0#_
    · rw [if_pos hzero, if_pos hzero]
      by_cases hm : unpackMantissa b = 0#_
      · rw [dif_pos hm, dif_pos hm]
        rfl
      · rw [dif_neg hm, dif_neg hm]
        rfl
    · rw [if_neg hzero, if_neg hzero]
      rfl

/-- The sign of what is packed shows in the sign of what is unpacked only. -/
theorem abs_unpack_packComponents (s : Sign) (e : BitVec spec.exponentBits)
    (m : BitVec spec.mantissaBitsWithoutImplicit) :
    (unpack spec (packComponents spec s e m)).abs = magnitude e m := by
  rw [abs_unpack, unpackExponent_packComponents, unpackMantissa_packComponents]

/-- What is packed and its absolute value differ in the sign only. -/
theorem exists_packComponents (u : UnpackedFloat) :
    ∃ s s' e m, pack spec u = packComponents spec s e m ∧
      pack spec u.abs = packComponents spec s' e m := by
  cases u with
  | notANumber => exact ⟨_, _, _, _, rfl, rfl⟩
  | infinity s => exact ⟨s, .positive, _, _, rfl, rfl⟩
  | zero s => exact ⟨s, .positive, _, _, rfl, rfl⟩
  | finite s m e hm =>
    dsimp only [UnpackedFloat.abs, pack]
    split
    · exact ⟨s, .positive, _, _, rfl, rfl⟩
    · split
      · exact ⟨s, .positive, _, _, rfl, rfl⟩
      · exact ⟨s, .positive, _, _, rfl, rfl⟩

theorem abs_unpack_pack (u : UnpackedFloat) :
    (unpack spec (pack spec u)).abs = (unpack spec (pack spec u.abs)).abs := by
  obtain ⟨s, s', e, m, h, h'⟩ := exists_packComponents u
  rw [h, h', abs_unpack_packComponents, abs_unpack_packComponents]

theorem abs_round (s s' : Sign) (m : Nat) (e : Int) :
    (UnpackedFloat.round spec s m e).abs = (UnpackedFloat.round spec s' m e).abs := by
  delta UnpackedFloat.round UnpackedFloat.roundWithAccuracy
  dsimp only
  rw [apply_dite UnpackedFloat.abs, apply_dite UnpackedFloat.abs]
  rfl

theorem abs_normalize_neg (m e : Int) (z : Sign) :
    (UnpackedFloat.normalize spec (-m) e z).abs = (UnpackedFloat.normalize spec m e z).abs := by
  rcases lt_trichotomy m 0 with h | rfl | h
  · rw [UnpackedFloat.normalize, UnpackedFloat.normalize,
      compare_gt_iff_gt.2 (Int.neg_pos_of_neg h), compare_lt_iff_lt.2 h]
    exact abs_round _ _ _ _
  · rw [Int.neg_zero]
  · rw [UnpackedFloat.normalize, UnpackedFloat.normalize,
      compare_lt_iff_lt.2 (Int.neg_neg_of_pos h), compare_gt_iff_gt.2 h, Int.neg_neg]
    exact abs_round _ _ _ _

theorem abs_unpacked_sub_comm (u u' : UnpackedFloat) :
    (u.sub spec u').abs = (u'.sub spec u).abs := by
  rcases u with (_ | _) | _ | (_ | _) | ⟨s, m, e, hm⟩ <;>
    rcases u' with (_ | _) | _ | (_ | _) | ⟨s', m', e', hm'⟩
  case finite.finite =>
    dsimp only [UnpackedFloat.sub]
    rw [min_comm e' e, ← Int.neg_sub]
    exact abs_normalize_neg _ _ _
  all_goals rfl

/-- Two doubles are as far apart as the same two the other way round. -/
theorem abs_sub_comm (a b : Float) : (a - b).abs = (b - a).abs := by
  have h (u u' : UnpackedFloat) : (unpack .binary64 (pack .binary64 (u.sub .binary64 u'))).abs =
      (unpack .binary64 (pack .binary64 (u'.sub .binary64 u))).abs := by
    rw [abs_unpack_pack, abs_unpacked_sub_comm, ← abs_unpack_pack]
  exact congrArg (fun u => Float.ofModel (.pack u)) (h a.toModel.unpack b.toModel.unpack)

end GmlCheck.Double
