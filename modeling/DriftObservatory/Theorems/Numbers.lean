import DriftObservatory.Value
import Mathlib.Data.Rat.Cast.Order
import Mathlib.Tactic.Ring

/-! Finite doubles as exact rational numbers, and what the comparisons of doubles and integers come to. -/

namespace DriftObservatory

namespace Double

/-- The unit of every double is `2 ^ -unitExponent` times a power of two. -/
def unitExponent : Nat := 1075

/-- The magnitude in that unit. -/
def scaledMagnitude (d : Double) : Nat := d.significand * 2 ^ d.scale

def scaled (d : Double) : Int := if d.negative then -(d.scaledMagnitude : Int) else d.scaledMagnitude

/-- The number a double stands for. -/
def toRat (d : Double) : ℚ := (d.scaled : ℚ) / 2 ^ unitExponent

theorem toRat_eq_iff {a b : Double} : a.toRat = b.toRat ↔ a.scaled = b.scaled := by
  have hunit : (2 : ℚ) ^ unitExponent ≠ 0 := pow_ne_zero _ two_ne_zero
  rw [toRat, toRat, div_left_inj' hunit, Int.cast_inj]

theorem toRat_eq_int_iff {d : Double} {z : Int} : d.toRat = z ↔ d.scaled = z * 2 ^ unitExponent := by
  have hunit : (2 : ℚ) ^ unitExponent ≠ 0 := pow_ne_zero _ two_ne_zero
  rw [toRat, div_eq_iff hunit]
  exact_mod_cast Iff.rfl

/-! ### One representation -/

theorem significand_lt (d : Double) : d.significand < 2 ^ 53 := by
  rw [significand]
  split_ifs <;> omega

/-- Beyond the least scale the leading bit is set. -/
theorem le_significand {d : Double} (h : 1 < d.scale) : 2 ^ 52 ≤ d.significand := by
  rw [scale] at h
  rw [significand]
  split_ifs at h ⊢ <;> omega

theorem fields_of_significand {a b : Double} (hscale : a.scale = b.scale) (hsignificand : a.significand = b.significand) :
    a.exponentField = b.exponentField ∧ a.bits.toNat % 2 ^ 52 = b.bits.toNat % 2 ^ 52 := by
  rw [scale, scale] at hscale
  rw [significand, significand] at hsignificand
  split_ifs at hscale hsignificand <;> omega

theorem bits_of_fields {a b : Double} (hsign : a.negative = b.negative) (hexponent : a.exponentField = b.exponentField)
    (hfraction : a.bits.toNat % 2 ^ 52 = b.bits.toNat % 2 ^ 52) : a.bits = b.bits := by
  have ha := a.bits.toNat_lt
  have hb := b.bits.toNat_lt
  rw [negative, negative, Bool.eq_iff_iff, beq_iff_eq, beq_iff_eq] at hsign
  rw [exponentField, exponentField] at hexponent
  apply UInt64.toNat_inj.mp
  omega

/-- A magnitude that is not zero has one significand and scale. -/
theorem scale_le_of_scaledMagnitude {a b : Double} (h : a.scaledMagnitude = b.scaledMagnitude) :
    b.scale ≤ a.scale := by
  by_contra hlt
  obtain ⟨k, hk⟩ := Nat.exists_eq_add_of_lt (not_le.mp hlt)
  have hscale : 1 < b.scale := by
    have hpos : 1 ≤ a.scale := by
      rw [scale]
      split_ifs <;> omega
    omega
  have hlong : b.significand * 2 ^ (k + 1) < 2 ^ 53 := by
    have hsig : a.significand = b.significand * 2 ^ (k + 1) := by
      rw [scaledMagnitude, scaledMagnitude, hk, Nat.add_assoc, Nat.pow_add, Nat.mul_comm (2 ^ a.scale),
        ← Nat.mul_assoc] at h
      exact Nat.eq_of_mul_eq_mul_right (Nat.two_pow_pos _) h
    rw [← hsig]
    exact a.significand_lt
  have hdouble : 2 ^ 52 * 2 ≤ b.significand * 2 ^ (k + 1) := by
    rw [Nat.pow_succ 2 k, ← Nat.mul_assoc]
    refine Nat.mul_le_mul_right 2 (le_trans (le_significand hscale) ?_)
    exact Nat.le_mul_of_pos_right _ (Nat.two_pow_pos k)
  omega

theorem scaledMagnitude_eq_zero {d : Double} : d.scaledMagnitude = 0 ↔ d.significand = 0 := by
  rw [scaledMagnitude, Nat.mul_eq_zero, or_iff_left (Nat.two_pow_pos _).ne']

theorem scaled_eq_iff {a b : Double} : a.scaled = b.scaled ↔
    a.scaledMagnitude = b.scaledMagnitude ∧ (a.negative = b.negative ∨ a.scaledMagnitude = 0) := by
  rw [scaled, scaled]
  cases a.negative <;> cases b.negative <;> simp <;> omega

/-- Two doubles are equal exactly when they stand for one number. -/
theorem eq_iff_toRat {a b : Double} : Double.eq a b = true ↔ a.toRat = b.toRat := by
  rw [toRat_eq_iff, scaled_eq_iff, eq, Bool.or_eq_true, Bool.and_eq_true, beq_iff_eq, beq_iff_eq, beq_iff_eq,
    ← scaledMagnitude_eq_zero, ← scaledMagnitude_eq_zero]
  constructor
  · rintro (hbits | ⟨ha, hb⟩)
    · have heq : a = b := by
        cases a
        cases b
        cases hbits
        rfl
      exact ⟨congrArg scaledMagnitude heq, .inl (congrArg negative heq)⟩
    · exact ⟨ha.trans hb.symm, .inr ha⟩
  · rintro ⟨hmagnitude, hsign | hzero⟩
    · have hscale : a.scale = b.scale :=
        le_antisymm (scale_le_of_scaledMagnitude hmagnitude.symm) (scale_le_of_scaledMagnitude hmagnitude)
      have hsignificand : a.significand = b.significand := by
        rw [scaledMagnitude, scaledMagnitude, hscale] at hmagnitude
        exact Nat.eq_of_mul_eq_mul_right (Nat.two_pow_pos _) hmagnitude
      obtain ⟨hexponent, hfraction⟩ := fields_of_significand hscale hsignificand
      exact .inl (bits_of_fields hsign hexponent hfraction)
    · exact .inr ⟨hzero, hmagnitude ▸ hzero⟩

/-! ### Doubles and integers -/

theorem shifted_eq_iff {n s k m : Nat} :
    (if k ≤ s then some (n * 2 ^ (s - k)) else if n % 2 ^ (k - s) = 0 then some (n / 2 ^ (k - s)) else none) = some m ↔
      n * 2 ^ s = m * 2 ^ k := by
  split_ifs with hle hdvd
  · obtain ⟨j, rfl⟩ := Nat.exists_eq_add_of_le hle
    rw [Option.some.injEq, Nat.add_sub_cancel_left, Nat.pow_add, Nat.mul_comm (2 ^ k), ← Nat.mul_assoc]
    exact (Nat.mul_left_inj (Nat.two_pow_pos k).ne').symm
  · obtain ⟨j, hj⟩ := Nat.exists_eq_add_of_le (Nat.le_of_not_le hle)
    rw [hj, Nat.add_sub_cancel_left] at hdvd ⊢
    rw [Option.some.injEq, Nat.pow_add, Nat.mul_comm (2 ^ s), ← Nat.mul_assoc,
      Nat.mul_left_inj (Nat.two_pow_pos s).ne', Nat.div_eq_iff_eq_mul_left (Nat.two_pow_pos j) (Nat.dvd_of_mod_eq_zero hdvd)]
  · obtain ⟨j, hj⟩ := Nat.exists_eq_add_of_le (Nat.le_of_not_le hle)
    rw [hj, Nat.add_sub_cancel_left] at hdvd
    refine iff_of_false (fun hnone => by cases hnone) fun heq => hdvd ?_
    rw [hj, Nat.pow_add, Nat.mul_comm (2 ^ s), ← Nat.mul_assoc, Nat.mul_left_inj (Nat.two_pow_pos s).ne'] at heq
    rw [heq, Nat.mul_mod_left]

theorem magnitude?_eq_some {d : Double} {m : Nat} :
    d.magnitude? = some m ↔ d.scaledMagnitude = m * 2 ^ unitExponent := by
  rw [magnitude?, scaledMagnitude, show 1075 = unitExponent from rfl]
  exact shifted_eq_iff

/-- The conversion to an integer is exact. -/
theorem toInt?_eq_some {d : Double} {z : Int} : d.toInt? = some z ↔ d.toRat = z := by
  have hunit : (0 : Int) < 2 ^ unitExponent := Int.pow_pos (by decide)
  have hint : d.toInt? = some z ↔ ∃ m : Nat, d.magnitude? = some m ∧ (if d.negative then -(m : Int) else m) = z := by
    rw [toInt?]
    cases d.magnitude? <;> simp
  rw [toRat_eq_int_iff, hint, scaled]
  constructor
  · rintro ⟨m, hm, rfl⟩
    rw [magnitude?_eq_some.mp hm]
    split_ifs <;> push_cast <;> ring
  · intro h
    have hmagnitude : d.scaledMagnitude = z.natAbs * 2 ^ unitExponent := by
      have habs : (if d.negative then -(d.scaledMagnitude : Int) else d.scaledMagnitude).natAbs =
          z.natAbs * 2 ^ unitExponent := by
        rw [h, Int.natAbs_mul, Int.natAbs_pow, show Int.natAbs 2 = 2 from rfl]
      rw [← habs]
      split_ifs <;> simp
    refine ⟨z.natAbs, magnitude?_eq_some.mpr hmagnitude, ?_⟩
    rw [hmagnitude] at h
    refine Int.eq_of_mul_eq_mul_right hunit.ne' ?_
    rw [← h]
    split_ifs <;> push_cast <;> ring

end Double

/-! ### Numeric values -/

namespace ValueTree

/-- The number a numeric value stands for. -/
def toRat? : ValueTree → Option ℚ
  | int v => some v.toInt
  | uint v => some v.toNat
  | double v => some v.toRat
  | _ => none

theorem intEqDouble_iff {i : Int64} {d : Double} : intEqDouble i d = true ↔ (i.toInt : ℚ) = d.toRat := by
  have hlow := i.le_toInt
  have hhigh := i.toInt_lt
  rw [intEqDouble, Option.any_eq_true, eq_comm, ← Double.toInt?_eq_some]
  constructor
  · rintro ⟨z, hz, hsame⟩
    simp only [Bool.and_eq_true, beq_iff_eq] at hsame
    rw [hz, hsame.2]
  · intro h
    refine ⟨_, h, ?_⟩
    simp only [Bool.and_eq_true, decide_eq_true_eq, beq_iff_eq]
    exact ⟨⟨hlow, hhigh⟩, trivial⟩

theorem uintEqDouble_iff {u : UInt64} {d : Double} : uintEqDouble u d = true ↔ (u.toNat : ℚ) = d.toRat := by
  have hhigh := u.toNat_lt
  have hcast : (u.toNat : ℚ) = ((u.toNat : Int) : ℚ) := (Int.cast_natCast _).symm
  rw [uintEqDouble, Option.any_eq_true, hcast, eq_comm, ← Double.toInt?_eq_some]
  constructor
  · rintro ⟨z, hz, hsame⟩
    simp only [Bool.and_eq_true, beq_iff_eq] at hsame
    rw [hz, hsame.2]
  · intro h
    refine ⟨_, h, ?_⟩
    simp only [Bool.and_eq_true, decide_eq_true_eq, beq_iff_eq]
    exact ⟨⟨by omega, by omega⟩, trivial⟩

theorem intEqUint_iff {i : Int64} {u : UInt64} :
    (decide (0 ≤ i.toInt) && i.toInt == (u.toNat : Int)) = true ↔ (i.toInt : ℚ) = (u.toNat : ℚ) := by
  have hcast : (u.toNat : ℚ) = ((u.toNat : Int) : ℚ) := (Int.cast_natCast _).symm
  rw [Bool.and_eq_true, decide_eq_true_eq, beq_iff_eq, hcast, Int.cast_inj]
  omega

/-- Two numeric values compare equal exactly when they stand for one number. -/
theorem relateNumerics_iff {a b : ValueTree} {x y : ℚ} (ha : a.toRat? = some x) (hb : b.toRat? = some y) :
    ∃ equal, relateNumerics a b = some equal ∧ (equal = true ↔ x = y) := by
  cases a <;> cases ha <;> cases b <;> cases hb <;> refine ⟨_, rfl, ?_⟩
  · rw [beq_iff_eq, Int.cast_inj, Int64.toInt_inj]
  · exact intEqUint_iff
  · exact intEqDouble_iff
  · exact intEqUint_iff.trans eq_comm
  · rw [beq_iff_eq, Nat.cast_inj, UInt64.toNat_inj]
  · exact uintEqDouble_iff
  · exact intEqDouble_iff.trans eq_comm
  · exact uintEqDouble_iff.trans eq_comm
  · exact Double.eq_iff_toRat

end ValueTree

end DriftObservatory
