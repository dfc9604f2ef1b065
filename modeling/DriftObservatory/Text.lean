import Mathlib.Order.Basic
import Mathlib.Data.List.Lex
import Mathlib.Algebra.Order.Ring.Int

/-! Machine words and byte strings. Text is the byte content of a `std::string`: it may hold any bytes,
    UTF-8 or not, and it is ordered byte by byte. -/

namespace DriftObservatory

instance uint8LinearOrder : LinearOrder UInt8 where
  le_refl := UInt8.le_refl
  le_trans _ _ _ := UInt8.le_trans
  le_antisymm _ _ := UInt8.le_antisymm
  le_total := UInt8.le_total
  lt_iff_le_not_ge a b := by
    rw [UInt8.not_le]
    exact ⟨fun h => ⟨UInt8.le_of_lt h, h⟩, fun h => h.2⟩
  toDecidableLE := inferInstance
  toDecidableEq := inferInstance
  toDecidableLT := inferInstance

instance uint64LinearOrder : LinearOrder UInt64 where
  le_refl := UInt64.le_refl
  le_trans _ _ _ := UInt64.le_trans
  le_antisymm _ _ := UInt64.le_antisymm
  le_total := UInt64.le_total
  lt_iff_le_not_ge a b := by
    rw [UInt64.not_le]
    exact ⟨fun h => ⟨UInt64.le_of_lt h, h⟩, fun h => h.2⟩
  toDecidableLE := inferInstance
  toDecidableEq := inferInstance
  toDecidableLT := inferInstance

instance int64LinearOrder : LinearOrder Int64 where
  le_refl := Int64.le_refl
  le_trans _ _ _ := Int64.le_trans
  le_antisymm _ _ := Int64.le_antisymm
  le_total := Int64.le_total
  lt_iff_le_not_ge a b := by
    rw [Int64.not_le]
    exact ⟨fun h => ⟨Int64.le_of_lt h, h⟩, fun h => h.2⟩
  toDecidableLE := inferInstance
  toDecidableEq := inferInstance
  toDecidableLT := inferInstance

/-- The bytes of a `std::string`. -/
abbrev Text := List UInt8

/-- The bytes of an ASCII literal. -/
def ascii (s : String) : Text := s.toList.map fun c => c.toNat.toUInt8

/-- `std::to_string` of an unsigned value. -/
def decimal (n : Nat) : Text := (Nat.toDigits 10 n).map fun c => c.toNat.toUInt8

/-- `std::to_string` of a signed value. -/
def decimalInt : Int → Text
  | .ofNat n => decimal n
  | .negSucc n => 0x2D :: decimal (n + 1)

/-- The eight bytes of a 64-bit value, most significant first. -/
def bigEndian64 (value : UInt64) : Text :=
  [56, 48, 40, 32, 24, 16, 8, 0].map fun shift => UInt8.ofNat (Nat.shiftRight value.toNat shift)

/-- A text behind its own length. -/
def lengthPrefixed (text : Text) : Text := bigEndian64 (UInt64.ofNat text.length) ++ text

end DriftObservatory
