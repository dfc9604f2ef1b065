import Mathlib.Algebra.Polynomial.Div
import Mathlib.Algebra.Polynomial.RingDivision
import Mathlib.Algebra.CharP.Two
import Mathlib.Algebra.Field.ZMod
import Mathlib.Tactic.LinearCombination

/-! Bit strings as polynomials over the two-element field, the first bit the highest degree, and the shift registers
    that divide them by a fixed polynomial. -/

namespace Division
open Polynomial

def bit (b : Bool) : ZMod 2 := if b then 1 else 0

@[simp] theorem bit_false : bit false = 0 := rfl

@[simp] theorem bit_true : bit true = 1 := rfl

theorem bit_xor (a b : Bool) : bit (a ^^ b) = bit a + bit b := by
  cases a <;> cases b <;> decide

/-- In characteristic two an equation moves a summand to its other side as it is. -/
theorem add_right_cancels (p q : (ZMod 2)[X]) : p + q + q = p := by
  rw [add_assoc, CharTwo.add_self_eq_zero, add_zero]

/-! ### Bit strings -/

noncomputable def ofBits : List Bool → (ZMod 2)[X]
  | [] => 0
  | b :: bs => C (bit b) * X ^ bs.length + ofBits bs

theorem ofBits_append (bs cs : List Bool) : ofBits (bs ++ cs) = ofBits bs * X ^ cs.length + ofBits cs := by
  induction bs with
  | nil => simp [ofBits]
  | cons b bs ih =>
    rw [List.cons_append, ofBits, ofBits, ih, List.length_append, pow_add]
    ring

theorem ofBits_eq_zero {bs : List Bool} (h : ∀ b ∈ bs, b = false) : ofBits bs = 0 := by
  induction bs with
  | nil => rfl
  | cons b bs ih =>
    have hb : b = false := h b (List.mem_cons_self ..)
    rw [ofBits, hb, ih fun c hc => h c (List.mem_cons_of_mem _ hc)]
    simp

theorem degree_ofBits_lt (bs : List Bool) : (ofBits bs).degree < bs.length := by
  induction bs with
  | nil => simp [ofBits]
  | cons b bs ih =>
    have hlead : (C (bit b) * X ^ bs.length : (ZMod 2)[X]).degree ≤ bs.length := degree_C_mul_X_pow_le _ _
    have hsucc : (bs.length : WithBot ℕ) < (bs.length + 1 : ℕ) := by exact_mod_cast Nat.lt_succ_self _
    rw [ofBits, List.length_cons]
    exact (degree_add_le _ _).trans_lt (max_lt (hlead.trans_lt hsucc) (ih.trans hsucc))

theorem ofBits_xor : ∀ {bs cs : List Bool}, bs.length = cs.length →
    ofBits (List.zipWith (· ^^ ·) bs cs) = ofBits bs + ofBits cs
  | [], [], _ => by simp [ofBits]
  | b :: bs, c :: cs, h => by
    have hlen : bs.length = cs.length := Nat.succ.inj h
    rw [List.zipWith_cons_cons, ofBits, ofBits, ofBits, ofBits_xor hlen, bit_xor, C_add, List.length_zipWith,
      hlen, Nat.min_self]
    ring

/-- A bit string with a bit set is not zero: the lowest terms cannot cancel the first bit's. -/
theorem ofBits_ne_zero {bs : List Bool} (h : ∃ b ∈ bs, b = true) : ofBits bs ≠ 0 := by
  induction bs with
  | nil =>
    obtain ⟨b, hb, -⟩ := h
    exact absurd hb List.not_mem_nil
  | cons b bs ih =>
    intro hzero
    cases b with
    | false =>
      obtain ⟨c, hc, hset⟩ := h
      rcases List.mem_cons.mp hc with rfl | hmem
      · exact absurd hset (by decide)
      · apply ih ⟨c, hmem, hset⟩
        simpa [ofBits] using hzero
    | true =>
      have hcoeff : (ofBits bs).coeff bs.length = 0 := coeff_eq_zero_of_degree_lt (degree_ofBits_lt bs)
      have hlead : (ofBits (true :: bs)).coeff bs.length = 1 := by simp [ofBits, hcoeff]
      rw [hzero, coeff_zero] at hlead
      exact absurd hlead (by decide)

/-! ### Bursts -/

/-- Two strings differ at most at `width` neighbouring positions. -/
def WithinBurst (width : Nat) (bs cs : List Bool) : Prop :=
  ∃ start, ∀ k, bs[k]? ≠ cs[k]? → start ≤ k ∧ k < start + width

section Burst
variable {bs cs : List Bool} {k : Nat}

/-- The positions at which two strings differ. -/
def difference (bs cs : List Bool) : List Bool := List.zipWith (· ^^ ·) bs cs

theorem difference_of_eq (h : bs[k]? = cs[k]?) {b : Bool} (hb : (difference bs cs)[k]? = some b) : b = false := by
  rw [difference, List.getElem?_zipWith, h] at hb
  cases hc : cs[k]? with
  | none => simp [hc] at hb
  | some c => simpa [hc, eq_comm] using hb

theorem eq_of_difference (hlen : bs.length = cs.length) (h : ∀ b ∈ difference bs cs, b = false) : bs = cs := by
  apply List.ext_getElem hlen
  intro k hk hk'
  have hD : k < (difference bs cs).length := by simp [difference, hk, hk']
  have hfalse : (bs[k] ^^ cs[k]) = false := by
    have hget := h (difference bs cs)[k] (List.getElem_mem hD)
    simpa [difference] using hget
  simpa using hfalse

theorem difference_front {start : Nat} (h : ∀ k, bs[k]? ≠ cs[k]? → start ≤ k) :
    ∀ b ∈ (difference bs cs).take start, b = false := by
  intro b hb
  obtain ⟨k, hk⟩ := List.mem_iff_getElem?.mp hb
  rw [List.getElem?_take] at hk
  split at hk
  · rename_i hlt
    exact difference_of_eq (Decidable.not_not.mp fun hne => Nat.not_lt.mpr (h k hne) hlt) hk
  · cases hk

theorem difference_back {stop : Nat} (h : ∀ k, bs[k]? ≠ cs[k]? → k < stop) :
    ∀ b ∈ (difference bs cs).drop stop, b = false := by
  intro b hb
  obtain ⟨k, hk⟩ := List.mem_iff_getElem?.mp hb
  rw [List.getElem?_drop] at hk
  exact difference_of_eq (Decidable.not_not.mp fun hne => Nat.not_lt.mpr (Nat.le_add_right stop k) (h _ hne)) hk

/-- What strings that differ within a burst differ by: a short polynomial moved up. -/
theorem WithinBurst.exists_burst {width : Nat} (hlen : bs.length = cs.length) (hne : bs ≠ cs)
    (h : WithinBurst width bs cs) :
    ∃ (a : ℕ) (B : (ZMod 2)[X]), B ≠ 0 ∧ B.degree < width ∧ ofBits bs + ofBits cs = X ^ a * B := by
  obtain ⟨start, hburst⟩ := h
  have hfront := difference_front fun k hk => (hburst k hk).1
  have hback := difference_back fun k hk => (hburst k hk).2
  have hsum : ofBits (difference bs cs) = ofBits bs + ofBits cs := ofBits_xor hlen
  have hclear : (∀ b ∈ difference bs cs, b = false) → bs = cs := eq_of_difference hlen
  generalize difference bs cs = D at hfront hback hsum hclear
  have hsplit : D = D.take start ++ ((D.drop start).take width ++ D.drop (start + width)) := by
    rw [← List.drop_drop, List.take_append_drop, List.take_append_drop]
  refine ⟨(D.drop (start + width)).length, ofBits ((D.drop start).take width), ?_, ?_, ?_⟩
  · apply ofBits_ne_zero
    by_contra hnone
    push Not at hnone
    apply hne
    apply hclear
    intro b hb
    rw [hsplit, List.mem_append, List.mem_append] at hb
    rcases hb with hb | hb | hb
    · exact hfront b hb
    · exact Bool.eq_false_iff.mpr (hnone b hb)
    · exact hback b hb
  · refine (degree_ofBits_lt _).trans_le ?_
    exact_mod_cast List.length_take_le ..
  · rw [← hsum]
    conv_lhs => rw [hsplit]
    rw [ofBits_append, ofBits_append, ofBits_eq_zero hfront, ofBits_eq_zero hback]
    ring

end Burst

/-! ### Shift registers -/

section Register
variable {w : Nat}

def registerBits (c : BitVec w) : List Bool := (List.range w).map c.getLsbD

@[simp] theorem length_registerBits (c : BitVec w) : (registerBits c).length = w := by simp [registerBits]

theorem registerBits_injective : Function.Injective (registerBits (w := w)) := by
  intro c d h
  apply BitVec.eq_of_getLsbD_eq
  intro i hi
  exact List.map_inj_left.mp h i (List.mem_range.mpr hi)

/-- A register is read from its lowest bit, the one that leaves it first. -/
noncomputable def ofRegister (c : BitVec w) : (ZMod 2)[X] := ofBits (registerBits c)

theorem degree_ofRegister_lt (c : BitVec w) : (ofRegister c).degree < w := by
  simpa [ofRegister] using degree_ofBits_lt (registerBits c)

theorem ofRegister_xor (c d : BitVec w) : ofRegister (c ^^^ d) = ofRegister c + ofRegister d := by
  rw [ofRegister, ofRegister, ofRegister, ← ofBits_xor (by simp)]
  congr 1
  apply List.ext_getElem (by simp)
  intro k hk hk'
  simp [registerBits]

/-- A shift multiplies by `X`, the lowest bit having gone to degree `w`. -/
theorem ofRegister_shift (c : BitVec (w + 1)) :
    C (bit (c.getLsbD 0)) * X ^ (w + 1) + ofRegister (c >>> 1) = ofRegister c * X := by
  have hhead : registerBits c = c.getLsbD 0 :: (List.range w).map fun i => c.getLsbD (i + 1) := by
    rw [registerBits, List.range_succ_eq_map, List.map_cons, List.map_map]
    rfl
  have htail : registerBits (c >>> 1) = ((List.range w).map fun i => c.getLsbD (i + 1)) ++ [false] := by
    rw [registerBits, List.range_succ, List.map_append]
    simp [Nat.add_comm]
  rw [ofRegister, ofRegister, hhead, htail, ofBits_append, ofBits]
  simp only [List.length_map, List.length_range, List.length_singleton, ofBits, bit_false, C_0, List.length_nil]
  ring

/-- The polynomial a register with these taps divides by. -/
noncomputable def divisor (taps : BitVec w) : (ZMod 2)[X] := X ^ w + ofRegister taps

theorem divisor_monic (taps : BitVec w) : (divisor taps).Monic := monic_X_pow_add (degree_ofRegister_lt taps)

theorem degree_divisor (taps : BitVec w) : (divisor taps).degree = w := by
  rw [divisor, degree_add_eq_left_of_degree_lt, degree_X_pow]
  rw [degree_X_pow]
  exact degree_ofRegister_lt taps

/-- One shift of the register, the taps taken off when a bit leaves it. -/
def shift (taps c : BitVec w) : BitVec w := if c.getLsbD 0 then taps ^^^ (c >>> 1) else c >>> 1

theorem shift_xor (taps c d : BitVec w) : shift taps (c ^^^ d) = shift taps c ^^^ shift taps d := by
  unfold shift
  rw [BitVec.getLsbD_xor, BitVec.ushiftRight_xor_distrib]
  cases c.getLsbD 0 <;> cases d.getLsbD 0
  · rfl
  · change taps ^^^ (c >>> 1 ^^^ d >>> 1) = c >>> 1 ^^^ (taps ^^^ d >>> 1)
    ac_rfl
  · exact (BitVec.xor_assoc _ _ _).symm
  · -- Both lose a bit: the taps come off twice and cancel.
    change c >>> 1 ^^^ d >>> 1 = (taps ^^^ c >>> 1) ^^^ (taps ^^^ d >>> 1)
    rw [BitVec.xor_comm taps, BitVec.xor_assoc, ← BitVec.xor_assoc taps, BitVec.xor_self, BitVec.zero_xor]

theorem shift_iterate_xor (taps c d : BitVec w) (n : ℕ) :
    (shift taps)^[n] (c ^^^ d) = (shift taps)^[n] c ^^^ (shift taps)^[n] d := by
  induction n with
  | zero => rfl
  | succ n ih => rw [Function.iterate_succ_apply', Function.iterate_succ_apply', Function.iterate_succ_apply', ih,
      shift_xor]

/-- A register whose low bits are clear only moves down. -/
theorem shift_iterate_of_clear {taps c : BitVec w} {n : ℕ} (h : ∀ i < n, c.getLsbD i = false) :
    (shift taps)^[n] c = c >>> n := by
  induction n with
  | zero => simp
  | succ n ih =>
    have hclear : (c >>> n).getLsbD 0 = false := by
      rw [BitVec.getLsbD_ushiftRight]
      exact h n (Nat.lt_succ_self n)
    rw [Function.iterate_succ_apply', ih fun i hi => h i (Nat.lt_succ_of_lt hi), shift, hclear,
      if_neg Bool.false_ne_true, ← BitVec.shiftRight_add]

/-- What `n` shifts do: those of the low bits alone, and the rest moved down. -/
theorem shift_iterate_split {taps c low : BitVec w} {n : ℕ}
    (hlow : ∀ i, low.getLsbD i = (decide (i < n) && c.getLsbD i)) :
    (shift taps)^[n] c = (shift taps)^[n] low ^^^ (c >>> n) := by
  have hc : c = low ^^^ (low ^^^ c) := by rw [← BitVec.xor_assoc, BitVec.xor_self, BitVec.zero_xor]
  have hclear : ∀ i < n, (low ^^^ c).getLsbD i = false := by
    intro i hi
    simp [hlow, hi]
  have hhigh : (low ^^^ c) >>> n = c >>> n := by
    apply BitVec.eq_of_getLsbD_eq
    intro i _
    simp [hlow]
  conv_lhs => rw [hc]
  rw [shift_iterate_xor, shift_iterate_of_clear hclear, hhigh]

/-- A narrow register in the low bits of a wide one. -/
theorem ofRegister_setWidth {n m : ℕ} (c : BitVec n) : ofRegister (c.setWidth (n + m)) = ofRegister c * X ^ m := by
  have hbits : registerBits (c.setWidth (n + m)) = registerBits c ++ List.replicate m false := by
    apply List.ext_getElem (by simp)
    intro k hk hk'
    rw [length_registerBits] at hk
    rcases Nat.lt_or_ge k n with hlt | hge
    · rw [List.getElem_append_left (by simpa using hlt)]
      simp [registerBits, hk]
    · rw [List.getElem_append_right (by simpa using hge)]
      simp [registerBits, hk, BitVec.getLsbD_of_ge c k hge]
  rw [ofRegister, hbits, ofBits_append, ofBits_eq_zero fun b hb => List.eq_of_mem_replicate hb, List.length_replicate,
    add_zero, ofRegister]

/-- A shift multiplies by `X` modulo the divisor. -/
theorem ofRegister_shift_step (taps c : BitVec (w + 1)) :
    ofRegister (shift taps c) = ofRegister c * X + C (bit (c.getLsbD 0)) * divisor taps := by
  have hshift := ofRegister_shift c
  cases hbit : c.getLsbD 0 with
  | false =>
    rw [hbit, bit_false, C_0, zero_mul, zero_add] at hshift
    rw [shift, hbit, if_neg Bool.false_ne_true, hshift, bit_false, C_0, zero_mul, add_zero]
  | true =>
    rw [hbit, bit_true, C_1, one_mul] at hshift
    rw [shift, hbit, if_pos rfl, ofRegister_xor, ← hshift, divisor, bit_true, C_1, one_mul]
    calc ofRegister taps + ofRegister (c >>> 1)
        = ofRegister taps + ofRegister (c >>> 1) + X ^ (w + 1) + X ^ (w + 1) := (add_right_cancels _ _).symm
      _ = X ^ (w + 1) + ofRegister (c >>> 1) + (X ^ (w + 1) + ofRegister taps) := by ring

theorem dvd_shift_iterate (taps c : BitVec (w + 1)) (n : ℕ) :
    divisor taps ∣ ofRegister ((shift taps)^[n] c) + ofRegister c * X ^ n := by
  induction n with
  | zero => simp [CharTwo.add_self_eq_zero]
  | succ n ih =>
    obtain ⟨q, hq⟩ := ih
    set d := (shift taps)^[n] c with hd
    refine ⟨q * X + C (bit (d.getLsbD 0)), ?_⟩
    rw [Function.iterate_succ_apply', ← hd, ofRegister_shift_step]
    linear_combination X * hq

/-- A register below the divisor's degree is a remainder when the divisor divides the difference. -/
theorem eq_modByMonic {taps c : BitVec w} {p : (ZMod 2)[X]} (h : divisor taps ∣ ofRegister c + p) :
    ofRegister c = p %ₘ divisor taps := by
  have hself : ofRegister c %ₘ divisor taps = ofRegister c := by
    rw [modByMonic_eq_self_iff (divisor_monic taps), degree_divisor]
    exact degree_ofRegister_lt c
  rw [← hself]
  apply modByMonic_eq_of_dvd_sub (divisor_monic taps)
  rwa [CharTwo.sub_eq_add]

/-- A divisor with a constant term divides no burst shorter than itself. -/
theorem not_dvd_burst {taps : BitVec (w + 1)} (hlast : taps.getLsbD w = true) {a : ℕ} {B : (ZMod 2)[X]} (hB : B ≠ 0)
    (hdegree : B.degree < (w + 1 : ℕ)) : ¬ divisor taps ∣ X ^ a * B := by
  intro hdvd
  have hconstant : (divisor taps).coeff 0 ≠ 0 := by
    have hbits : registerBits taps = ((List.range w).map taps.getLsbD) ++ [true] := by
      rw [registerBits, List.range_succ, List.map_append, List.map_singleton, hlast]
    rw [divisor, ofRegister, hbits, ofBits_append]
    simp [ofBits]
  obtain ⟨q, hq⟩ := hdvd
  have hnot : ¬ X ∣ divisor taps := fun hX => hconstant (X_dvd_iff.mp hX)
  obtain ⟨r, hr⟩ : X ^ a ∣ q := prime_X.pow_dvd_of_dvd_mul_left a hnot ⟨B, hq.symm⟩
  have hcancel : B = divisor taps * r := by
    apply mul_left_cancel₀ (pow_ne_zero a X_ne_zero)
    rw [hq, hr]
    ring
  refine (divisor_monic taps).not_dvd_of_degree_lt hB ?_ ⟨r, hcancel⟩
  rwa [degree_divisor]

end Register

end Division
