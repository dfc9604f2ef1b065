import DriftObservatory.Theorems.Tokens

/-! UTF-8 validation is exact: a text is accepted when it is what the encoder writes for a sequence of Unicode scalar
    values, and the loop reads no position behind the text. -/

namespace DriftObservatory

open Json

/-! ### Encoded code points -/

/-- A code point that is not half of a surrogate pair. -/
def Scalar (codepoint : Nat) : Prop := codepoint ≤ 0x10FFFF ∧ ¬ (0xD800 ≤ codepoint ∧ codepoint ≤ 0xDFFF)

theorem ofNat_eq {n : Nat} {c : UInt8} (h : n = c.toNat) : UInt8.ofNat n = c := by
  rw [h, UInt8.ofNat_toNat]

theorem toNat_ofNat_small {n : Nat} (h : n < 256) : (UInt8.ofNat n).toNat = n := UInt8.toNat_ofNat_of_lt' h

section Encoding
variable {codepoint : Nat}

theorem appendUtf8_one (h : codepoint < 0x80) : appendUtf8 codepoint = [UInt8.ofNat codepoint] := by
  rw [appendUtf8, if_pos h, List.map_singleton]

theorem appendUtf8_two (hlow : 0x80 ≤ codepoint) (hhigh : codepoint < 0x800) :
    appendUtf8 codepoint = [UInt8.ofNat (0xC0 + codepoint / 64), UInt8.ofNat (0x80 + codepoint % 64)] := by
  rw [appendUtf8, if_neg (not_lt.mpr hlow), if_pos hhigh]
  rfl

theorem appendUtf8_three (hlow : 0x800 ≤ codepoint) (hhigh : codepoint < 0x10000) :
    appendUtf8 codepoint = [UInt8.ofNat (0xE0 + codepoint / 4096), UInt8.ofNat (0x80 + codepoint / 64 % 64),
      UInt8.ofNat (0x80 + codepoint % 64)] := by
  rw [appendUtf8, if_neg (by omega), if_neg (by omega), if_pos hhigh]
  rfl

theorem appendUtf8_four (hlow : 0x10000 ≤ codepoint) :
    appendUtf8 codepoint = [UInt8.ofNat (0xF0 + codepoint / 262144), UInt8.ofNat (0x80 + codepoint / 4096 % 64),
      UInt8.ofNat (0x80 + codepoint / 64 % 64), UInt8.ofNat (0x80 + codepoint % 64)] := by
  rw [appendUtf8, if_neg (by omega), if_neg (by omega), if_neg (by omega)]
  rfl

theorem tail_ofNat {n : Nat} (h : n < 64) : Tail (UInt8.ofNat (0x80 + n)) := by
  rw [tail_iff, toNat_ofNat_small (by omega)]
  omega

theorem utf8Char_appendUtf8 (h : Scalar codepoint) : Utf8Char (appendUtf8 codepoint) := by
  obtain ⟨hmax, hsurrogate⟩ := h
  rcases lt_or_ge codepoint 0x80 with hone | hone
  · rw [appendUtf8_one hone]
    refine .one (UInt8.le_iff_toNat_le.mpr ?_)
    rw [toNat_ofNat_small (by omega)]
    exact Nat.le_of_lt_succ hone
  rcases lt_or_ge codepoint 0x800 with htwo | htwo
  · rw [appendUtf8_two hone htwo]
    refine .two ?_ (tail_ofNat (Nat.mod_lt _ (by decide)))
    rw [UInt8.le_iff_toNat_le, UInt8.le_iff_toNat_le, toNat_ofNat_small (by omega)]
    simp only [UInt8.reduceToNat]
    omega
  rcases lt_or_ge codepoint 0x10000 with hthree | hthree
  · rw [appendUtf8_three htwo hthree]
    refine .three ?_ (tail_ofNat (Nat.mod_lt _ (by decide))) ?_ ?_ (tail_ofNat (Nat.mod_lt _ (by decide)))
    all_goals
      simp only [UInt8.le_iff_toNat_le, ← UInt8.toNat_inj, UInt8.reduceToNat]
      rw [toNat_ofNat_small (by omega)]
      try rw [toNat_ofNat_small (by omega)]
      omega
  · rw [appendUtf8_four hthree]
    refine .four ?_ (tail_ofNat (Nat.mod_lt _ (by decide))) ?_ ?_ (tail_ofNat (Nat.mod_lt _ (by decide)))
      (tail_ofNat (Nat.mod_lt _ (by decide)))
    all_goals
      simp only [UInt8.le_iff_toNat_le, ← UInt8.toNat_inj, UInt8.reduceToNat]
      rw [toNat_ofNat_small (by omega)]
      try rw [toNat_ofNat_small (by omega)]
      omega

end Encoding

/-- The characters are the encoded scalar values. -/
theorem utf8Char_iff {char : Text} : Utf8Char char ↔ ∃ codepoint, Scalar codepoint ∧ appendUtf8 codepoint = char := by
  constructor
  · intro h
    cases h with
    | @one a ha =>
      simp only [UInt8.le_iff_toNat_le, UInt8.reduceToNat] at ha
      refine ⟨a.toNat, ⟨by omega, by omega⟩, ?_⟩
      rw [appendUtf8_one (by omega), UInt8.ofNat_toNat]
    | @two a b ha hb =>
      have hb := tail_iff.mp hb
      simp only [UInt8.le_iff_toNat_le, UInt8.reduceToNat] at ha
      refine ⟨a.toNat % 32 * 64 + b.toNat % 64, ⟨by omega, by omega⟩, ?_⟩
      rw [appendUtf8_two (by omega) (by omega), ofNat_eq (c := a) (by omega), ofNat_eq (c := b) (by omega)]
    | @three a b c ha hb hlow hhigh hc =>
      have hb := tail_iff.mp hb
      have hc := tail_iff.mp hc
      simp only [UInt8.le_iff_toNat_le, ← UInt8.toNat_inj, UInt8.reduceToNat] at ha hlow hhigh
      refine ⟨a.toNat % 16 * 4096 + b.toNat % 64 * 64 + c.toNat % 64, ⟨by omega, by omega⟩, ?_⟩
      rw [appendUtf8_three (by omega) (by omega), ofNat_eq (c := a) (by omega), ofNat_eq (c := b) (by omega),
        ofNat_eq (c := c) (by omega)]
    | @four a b c d ha hb hlow hhigh hc hd =>
      have hb := tail_iff.mp hb
      have hc := tail_iff.mp hc
      have hd := tail_iff.mp hd
      simp only [UInt8.le_iff_toNat_le, ← UInt8.toNat_inj, UInt8.reduceToNat] at ha hlow hhigh
      refine ⟨a.toNat % 8 * 262144 + b.toNat % 64 * 4096 + c.toNat % 64 * 64 + d.toNat % 64,
        ⟨by omega, by omega⟩, ?_⟩
      rw [appendUtf8_four (by omega), ofNat_eq (c := a) (by omega), ofNat_eq (c := b) (by omega),
        ofNat_eq (c := c) (by omega), ofNat_eq (c := d) (by omega)]
  · rintro ⟨codepoint, hscalar, rfl⟩
    exact utf8Char_appendUtf8 hscalar

theorem utf8Text_iff {text : Text} :
    Utf8Text text ↔ ∃ codepoints : List Nat, (∀ c ∈ codepoints, Scalar c) ∧ text = codepoints.flatMap appendUtf8 := by
  constructor
  · intro h
    induction h with
    | nil => exact ⟨[], fun _ hc => absurd hc List.not_mem_nil, rfl⟩
    | cons hchar _ ih =>
      obtain ⟨codepoint, hscalar, rfl⟩ := utf8Char_iff.mp hchar
      obtain ⟨codepoints, hall, rfl⟩ := ih
      exact ⟨codepoint :: codepoints, List.forall_mem_cons.mpr ⟨hscalar, hall⟩, rfl⟩
  · rintro ⟨codepoints, hall, rfl⟩
    induction codepoints with
    | nil => exact .nil
    | cons codepoint codepoints ih =>
      obtain ⟨hscalar, hall⟩ := List.forall_mem_cons.mp hall
      rw [List.flatMap_cons]
      exact .cons (utf8Char_appendUtf8 hscalar) (ih hall)

/-! ### The positions read -/

/-- The number of continuation bytes behind a lead byte and the bits it holds itself. -/
def utf8Lead (lead : UInt8) : Option (Nat × Nat) :=
  if lead &&& 0xE0 = 0xC0 then if (lead &&& 0x1F).toNat = 0 then none else some (1, (lead &&& 0x1F).toNat)
  else if lead &&& 0xF0 = 0xE0 then some (2, (lead &&& 0x0F).toNat)
  else if lead &&& 0xF8 = 0xF0 then some (3, (lead &&& 0x07).toNat)
  else none

/-- The code point after the continuation bytes from a position on, if each is one. A read past the end has no
    result. -/
def continuationAt (text : Text) : Nat → Nat → Nat → Option (Option Nat)
  | 0, _, codepoint => some (some codepoint)
  | left + 1, position, codepoint => do
    let continuation ← text[position]?
    if continuation &&& 0xC0 ≠ 0x80 then some none
    else continuationAt text left (position + 1) (codepoint <<< 6 ||| (continuation &&& 0x3F).toNat)

/-- The code points that a form with `extra` continuation bytes may not hold. -/
def refusesCodepoint (extra codepoint : Nat) : Bool :=
  (extra == 1 && codepoint < 0x80) || (extra == 2 && codepoint < 0x800) || (extra == 3 && codepoint < 0x10000) ||
    0x10FFFF < codepoint || (0xD800 ≤ codepoint && codepoint ≤ 0xDFFF)

/-- One round of `IsValidUtf8` at a position within the text: the next position, unless the text is refused. -/
def utf8StepAt (text : Text) (index : Nat) : Option (Option Nat) := do
  let lead ← text[index]?
  if lead < 0x80 then some (some (index + 1))
  else match utf8Lead lead with
    | none => some none
    | some (extra, codepoint) =>
      if text.length ≤ index + extra then some none
      else do
        match ← continuationAt text extra (index + 1) codepoint with
        | none => some none
        | some codepoint => some (if refusesCodepoint extra codepoint then none else some (index + extra + 1))

/-- The loop of `IsValidUtf8` over the positions of a text. -/
def isValidUtf8At (text : Text) : Nat → Nat → Option Bool
  | 0, _ => none
  | fuel + 1, index =>
    if text.length ≤ index then some true
    else do
      match ← utf8StepAt text index with
      | none => some false
      | some next => isValidUtf8At text fuel next

section Bits
variable {c : UInt8}

theorem and_high : ∀ n < 256, n &&& 0xC0 = n / 64 * 64 ∧ n &&& 0xE0 = n / 32 * 32 ∧ n &&& 0xF0 = n / 16 * 16 ∧
    n &&& 0xF8 = n / 8 * 8 := by
  decide +kernel

theorem and_low (k : Nat) {mask : UInt8} (h : mask.toNat = 2 ^ k - 1) : (c &&& mask).toNat = c.toNat % 2 ^ k := by
  rw [UInt8.toNat_and, h, Nat.and_two_pow_sub_one_eq_mod]

theorem continuation_iff : c &&& 0xC0 = 0x80 ↔ c.toNat / 64 = 2 := by
  obtain ⟨hand, -⟩ := and_high _ c.toNat_lt
  simp only [← UInt8.toNat_inj, UInt8.toNat_and, UInt8.reduceToNat, hand]
  omega

theorem lead_iff : (c &&& 0xE0 = 0xC0 ↔ c.toNat / 32 = 6) ∧ (c &&& 0xF0 = 0xE0 ↔ c.toNat / 16 = 14) ∧
    (c &&& 0xF8 = 0xF0 ↔ c.toNat / 8 = 30) := by
  obtain ⟨-, htwo, hthree, hfour⟩ := and_high _ c.toNat_lt
  simp only [← UInt8.toNat_inj, UInt8.toNat_and, UInt8.reduceToNat, htwo, hthree, hfour]
  omega

/-- The bits of a continuation byte go under those before. -/
theorem shift_or (codepoint : Nat) : codepoint <<< 6 ||| (c &&& 0x3F).toNat = codepoint * 64 + c.toNat % 64 := by
  rw [and_low 6 rfl, ← Nat.shiftLeft_add_eq_or_of_lt (Nat.mod_lt _ (by decide)), Nat.shiftLeft_eq]

end Bits

/-- The bits of a continuation byte join those before it. -/
def joinBits (codepoint : Option Nat) (c : UInt8) : Option Nat :=
  codepoint.bind fun cp => if c.toNat / 64 = 2 then some (cp * 64 + c.toNat % 64) else none

theorem foldl_joinBits_none : ∀ cs : Text, cs.foldl joinBits none = none
  | [] => rfl
  | _ :: cs => foldl_joinBits_none cs

section Positions
variable {text : Text} {index : Nat}

/-- The continuation bytes are read where they lie. -/
theorem continuationAt_eq : ∀ {left position codepoint : Nat}, position + left ≤ text.length →
    continuationAt text left position codepoint =
      some (((text.drop position).take left).foldl joinBits (some codepoint))
  | 0, _, _, _ => by simp [continuationAt]
  | left + 1, position, codepoint, h => by
    have hlt : position < text.length := by omega
    rw [continuationAt, List.drop_eq_getElem_cons hlt, List.take_succ_cons, List.foldl_cons,
      List.getElem?_eq_getElem hlt, joinBits]
    by_cases hc : text[position].toNat / 64 = 2
    · have hmark : ¬ text[position] &&& 0xC0 ≠ 0x80 := not_not.mpr (continuation_iff.mpr hc)
      simp only [Option.bind_eq_bind, Option.bind_some, if_neg hmark, if_pos hc, shift_or]
      exact continuationAt_eq (by omega)
    · have hmark : text[position] &&& 0xC0 ≠ 0x80 := mt continuation_iff.mp hc
      simp only [Option.bind_eq_bind, Option.bind_some, if_pos hmark, if_neg hc, foldl_joinBits_none]

/-- A round at a position does what it does on the text from there on, and goes forward. -/
def StepsAs (text : Text) (index : Nat) (step : Option (Option Nat)) (after : Option Text) : Prop :=
  ∃ next, step = some next ∧ next.map (text.drop ·) = after ∧ ∀ n, next = some n → index < n

theorem acceptAt_eq {extra least codepoint : Nat} (hrefuses : ∀ cp, refusesCodepoint extra cp =
      (cp < least || cp > 0x10FFFF || (0xD800 ≤ cp && cp ≤ 0xDFFF))) (h : index < text.length) :
    StepsAs text index
      (if text.length ≤ index + extra then some none
        else do
          match ← continuationAt text extra (index + 1) codepoint with
          | none => some none
          | some codepoint => some (if refusesCodepoint extra codepoint then none else some (index + extra + 1)))
      ((((text.drop (index + 1)).take extra).foldl joinBits
        (if (text.drop (index + 1)).length < extra then none else some codepoint)).bind fun cp =>
          if cp < least || cp > 0x10FFFF || (0xD800 ≤ cp && cp ≤ 0xDFFF) then none
          else some ((text.drop (index + 1)).drop extra)) := by
  have hlength : (text.drop (index + 1)).length = text.length - (index + 1) := List.length_drop
  by_cases hshort : text.length ≤ index + extra
  · rw [if_pos hshort, if_pos (by omega), foldl_joinBits_none]
    exact ⟨none, rfl, rfl, fun n hn => by cases hn⟩
  · rw [if_neg hshort, if_neg (by omega), continuationAt_eq (by omega)]
    rcases ((text.drop (index + 1)).take extra).foldl joinBits (some codepoint) with _ | cp
    · exact ⟨none, rfl, rfl, fun n hn => by cases hn⟩
    · simp only [Option.bind_eq_bind, Option.bind_some, hrefuses]
      split_ifs with hbad
      · exact ⟨none, rfl, rfl, fun n hn => by cases hn⟩
      · refine ⟨some (index + extra + 1), rfl, ?_, fun n hn => by cases hn; omega⟩
        rw [Option.map_some, List.drop_drop, Nat.add_right_comm]

theorem utf8StepAt_eq (h : index < text.length) :
    StepsAs text index (utf8StepAt text index) (utf8Step (text.drop index)) := by
  obtain ⟨htwo, hthree, hfour⟩ := lead_iff (c := text[index])
  have hascii : text[index] < 0x80 ↔ text[index].toNat < 0x80 := UInt8.lt_iff_toNat_lt
  have hlow : (text[index] &&& 0x1F).toNat = text[index].toNat % 32 := and_low 5 rfl
  rw [List.drop_eq_getElem_cons h, utf8StepAt, List.getElem?_eq_getElem h, utf8Step]
  simp only [Option.bind_eq_bind, Option.bind_some, hascii, utf8Lead, htwo, hthree, hfour, hlow]
  by_cases hone : text[index].toNat < 0x80
  · rw [if_pos hone, if_pos hone]
    exact ⟨some (index + 1), rfl, rfl, fun n hn => by cases hn; exact Nat.lt_succ_self _⟩
  rw [if_neg hone, if_neg hone]
  by_cases hsix : text[index].toNat / 32 = 6
  · rw [if_pos hsix, if_pos hsix]
    by_cases hzero : text[index].toNat % 32 = 0
    · rw [if_pos hzero, if_pos hzero]
      exact ⟨none, rfl, rfl, fun n hn => by cases hn⟩
    · rw [if_neg hzero, if_neg hzero]
      exact acceptAt_eq (fun cp => by simp [refusesCodepoint]) h
  rw [if_neg hsix, if_neg hsix]
  by_cases hfourteen : text[index].toNat / 16 = 14
  · rw [if_pos hfourteen, if_pos hfourteen, and_low 4 rfl]
    exact acceptAt_eq (fun cp => by simp [refusesCodepoint]) h
  rw [if_neg hfourteen, if_neg hfourteen]
  by_cases hthirty : text[index].toNat / 8 = 30
  · rw [if_pos hthirty, if_pos hthirty, and_low 3 rfl]
    exact acceptAt_eq (fun cp => by simp [refusesCodepoint]) h
  · rw [if_neg hthirty, if_neg hthirty]
    exact ⟨none, rfl, rfl, fun n hn => by cases hn⟩

/-- The loop goes on behind the first character. -/
theorem isValidUtf8_cons {c : UInt8} {rest : Text} :
    isValidUtf8 (c :: rest) = (utf8Step (c :: rest)).any isValidUtf8 := by
  rw [isValidUtf8, List.length_cons, isValidUtf8From]
  · rcases hstep : utf8Step (c :: rest) with _ | after
    · rfl
    · obtain ⟨char, hchar, heq⟩ := utf8Step_eq_some.mp hstep
      have hlength := congrArg List.length heq
      have hpos := hchar.length_pos
      rw [List.length_cons, List.length_append] at hlength
      rw [Option.any_some, Bool.eq_iff_iff, isValidUtf8_iff]
      exact isValidUtf8From_iff (by omega)
  · intro hnil
    cases hnil

/-- The loop reads within the text and ends; its answer is that on the rest of the text. -/
theorem isValidUtf8At_eq : ∀ {fuel index : Nat}, text.length - index < fuel →
    isValidUtf8At text fuel index = some (isValidUtf8 (text.drop index))
  | fuel + 1, index, h => by
    rw [isValidUtf8At]
    by_cases hend : text.length ≤ index
    · rw [if_pos hend, List.drop_eq_nil_of_le hend]
      rfl
    · have hlt : index < text.length := not_le.mp hend
      obtain ⟨next, hstep, hafter, hforward⟩ := utf8StepAt_eq hlt
      have hcons := List.drop_eq_getElem_cons hlt
      rw [if_neg hend, hstep, hcons, isValidUtf8_cons, ← hcons, ← hafter]
      cases next with
      | none => rfl
      | some next =>
        have hnext := hforward next rfl
        exact isValidUtf8At_eq (by omega)

end Positions

/-- A text is accepted exactly when it spells a sequence of scalar values, and every read of the loop lies within it. -/
theorem isValidUtf8_exact (text : Text) :
    isValidUtf8At text (text.length + 1) 0 = some (isValidUtf8 text) ∧
      (isValidUtf8 text = true ↔
        ∃ codepoints : List Nat, (∀ c ∈ codepoints, Scalar c) ∧ text = codepoints.flatMap appendUtf8) :=
  ⟨isValidUtf8At_eq (Nat.lt_succ_self _), isValidUtf8_iff.trans utf8Text_iff⟩

end DriftObservatory
