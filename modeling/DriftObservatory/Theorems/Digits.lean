import DriftObservatory.Json
import Mathlib.Tactic.IntervalCases

/-! Digits read back: the decimal and hexadecimal spellings of numbers and byte strings. -/

namespace DriftObservatory

/-! ### Decimal digits -/

theorem toNat_digitChar : ∀ d < 10, ((Nat.digitChar d).toNat.toUInt8).toNat = 0x30 + d := by decide

theorem isDigit_digitChar : ∀ d < 10, Char8.isDigit (Nat.digitChar d).toNat.toUInt8 = true := by decide

theorem decimal_of_lt {n : Nat} (h : n < 10) : decimal n = [(Nat.digitChar n).toNat.toUInt8] := by
  rw [decimal, Nat.toDigits_of_lt_base h]
  rfl

theorem decimal_of_le {n : Nat} (h : 10 ≤ n) :
    decimal n = decimal (n / 10) ++ [(Nat.digitChar (n % 10)).toNat.toUInt8] := by
  rw [decimal, Nat.toDigits_of_base_le (by decide) h, List.map_append]
  rfl

theorem decimal_ne_nil (n : Nat) : decimal n ≠ [] := by
  rw [decimal, Ne, List.map_eq_nil_iff]
  exact Nat.toDigits_ne_nil

theorem length_decimal_pos (n : Nat) : 0 < (decimal n).length := List.length_pos_iff.mpr (decimal_ne_nil n)

theorem length_decimal_le {n k : Nat} (hk : 0 < k) (h : n < 10 ^ k) : (decimal n).length ≤ k := by
  rw [decimal, List.length_map]
  exact (Nat.length_toDigits_le_iff (by decide) hk).mpr h

theorem isDigit_decimal (n : Nat) : ∀ c ∈ decimal n, Char8.isDigit c = true := by
  induction n using Nat.strong_induction_on with
  | _ n ih =>
    intro c hc
    rcases Nat.lt_or_ge n 10 with h | h
    · rw [decimal_of_lt h, List.mem_singleton] at hc
      rw [hc]
      exact isDigit_digitChar n h
    · rw [decimal_of_le h, List.mem_append, List.mem_singleton] at hc
      rcases hc with hc | rfl
      · exact ih (n / 10) (by omega) c hc
      · exact isDigit_digitChar (n % 10) (by omega)

namespace Json

theorem digitsValue_append (front : Text) (c : UInt8) :
    digitsValue (front ++ [c]) = digitsValue front * 10 + (c.toNat - 0x30) := by
  simp only [digitsValue, List.foldl_append, List.foldl_cons, List.foldl_nil]

theorem digitsValue_decimal (n : Nat) : digitsValue (decimal n) = n := by
  induction n using Nat.strong_induction_on with
  | _ n ih =>
    rcases Nat.lt_or_ge n 10 with h | h
    · rw [decimal_of_lt h, ← List.nil_append [_], digitsValue_append, toNat_digitChar n h]
      simp [digitsValue]
    · rw [decimal_of_le h, digitsValue_append, ih (n / 10) (by omega), toNat_digitChar (n % 10) (by omega)]
      omega

/-- Zeros on the left do not count. -/
theorem digitsValue_zeros (k : Nat) (digits : Text) :
    digitsValue (List.replicate k 0x30 ++ digits) = digitsValue digits := by
  induction k with
  | zero => rfl
  | succ k ih => rw [List.replicate_succ, List.cons_append, ← ih]; rfl

end Json

/-- A number is spelled with a leading zero only when it is zero. -/
theorem head_decimal {n : Nat} (h : (decimal n).head? = some 0x30) : (decimal n).length = 1 := by
  induction n using Nat.strong_induction_on with
  | _ n ih =>
    rcases Nat.lt_or_ge n 10 with hlt | hle
    · rw [decimal_of_lt hlt]
      rfl
    · rw [decimal_of_le hle, List.head?_append_of_ne_nil _ (decimal_ne_nil _)] at h
      have hone := ih (n / 10) (by omega) h
      exfalso
      -- the leading digit of a number of two digits or more is the leading digit of its tenth, which is not zero
      have hsmall : n / 10 < 10 := by
        by_contra hbig
        have htwo : 2 ≤ (decimal (n / 10)).length := by
          rw [decimal_of_le (by omega : 10 ≤ n / 10), List.length_append]
          have := length_decimal_pos (n / 10 / 10)
          simp only [List.length_singleton]
          omega
        omega
      rw [decimal_of_lt hsmall] at h
      have hdigit := toNat_digitChar (n / 10) hsmall
      rw [List.head?_cons, Option.some.injEq] at h
      rw [h] at hdigit
      simp at hdigit
      omega

/-! ### Hexadecimal digits -/

theorem hexValue_hexDigit : ∀ n < 16, Char8.hexValue (Char8.hexDigit n) = some n := by decide

theorem length_toHex (raw : Text) : (toHex raw).length = 2 * raw.length := by
  induction raw with
  | nil => rfl
  | cons b rest ih =>
    have hcons : toHex (b :: rest) = Char8.hexDigit (b.toNat / 16) :: Char8.hexDigit (b.toNat % 16) :: toHex rest := rfl
    rw [hcons, List.length_cons, List.length_cons, ih, List.length_cons]
    omega

theorem fromHex_toHex (raw : Text) : Json.fromHex (toHex raw) = some raw := by
  induction raw with
  | nil => rfl
  | cons b rest ih =>
    have hb : b.toNat < 256 := b.toNat_lt
    have hcons : toHex (b :: rest) = Char8.hexDigit (b.toNat / 16) :: Char8.hexDigit (b.toNat % 16) :: toHex rest := rfl
    rw [hcons, Json.fromHex, hexValue_hexDigit _ (by omega), hexValue_hexDigit _ (by omega), ih]
    simp only [Option.bind_eq_bind, Option.bind_some, Option.some.injEq, List.cons.injEq, and_true]
    rw [show b.toNat / 16 * 16 + b.toNat % 16 = b.toNat by omega, UInt8.ofNat_toNat]

end DriftObservatory
