import DriftObservatory.Theorems.Digits

/-! What is read back of a value that was written. Reading follows the tree of the value and meets the checks of the
    parser in the same order, so the outcome on the text is a function of the tree. -/

namespace DriftObservatory

namespace Json

/-! ### Strings -/

/-- What is read back of a string. -/
def rereadText (limits : RuntimeLimits) (text : Text) : Except Status Text :=
  if limits.maxLeafBytes < text.length then exceed .limitBytesExceeded "string exceeds the envelope"
  else if !isValidUtf8 text then fail .encodingInvalidUtf8 "string is not valid UTF-8"
  else .ok text

theorem parseHex4_control {c : UInt8} (hc : c < 0x20) (rest : Text) :
    parseHex4 (0x30 :: 0x30 :: Char8.hexDigit (c.toNat / 16) :: Char8.hexDigit (c.toNat % 16) :: rest) =
      .ok (c.toNat, rest) := by
  have hlt : c.toNat < 32 := UInt8.lt_iff_toNat_lt.mp hc
  have hzero : Char8.hexValue 0x30 = some 0 := by decide
  have hlen : ¬ (0x30 :: 0x30 :: Char8.hexDigit (c.toNat / 16) :: Char8.hexDigit (c.toNat % 16) :: rest).length < 4 := by
    simp only [List.length_cons]
    omega
  rw [parseHex4, if_neg hlen]
  simp only [List.take_succ_cons, List.take_zero, List.mapM_cons, List.mapM_nil, hzero,
    hexValue_hexDigit _ (by omega : c.toNat / 16 < 16), hexValue_hexDigit _ (by omega : c.toNat % 16 < 16),
    Option.bind_eq_bind, Option.bind_some, Option.pure_def, List.foldl_cons, List.foldl_nil, List.drop_succ_cons,
    List.drop_zero]
  congr 2
  omega

theorem parseEscape_control {c : UInt8} (hc : c < 0x20) (rest : Text) :
    parseEscape (0x75 :: 0x30 :: 0x30 :: Char8.hexDigit (c.toNat / 16) :: Char8.hexDigit (c.toNat % 16) :: rest) =
      .ok ([c], rest) := by
  have hlt : c.toNat < 32 := UInt8.lt_iff_toNat_lt.mp hc
  have hpoint : parseCodepoint
      (0x30 :: 0x30 :: Char8.hexDigit (c.toNat / 16) :: Char8.hexDigit (c.toNat % 16) :: rest) =
      .ok (c.toNat, rest) := by
    rw [parseCodepoint, parseHex4_control hc]
    simp only [bind, Except.bind]
    rw [if_neg (by omega), if_neg (by omega)]
  rw [parseEscape]
  simp only [hpoint, bind, Except.bind, appendUtf8, if_pos (by omega : c.toNat < 0x80), List.map_cons, List.map_nil,
    UInt8.ofNat_toNat]
  rfl

/-- One round of the loop reads one escaped byte back. -/
theorem parseStringFrom_escapeByte (limits : RuntimeLimits) (fuel : Nat) (out : Text) (c : UInt8) (rest : Text) :
    parseStringFrom limits (fuel + 1) out (escapeByte c ++ rest) =
      if limits.maxLeafBytes < (out ++ [c]).length then exceed .limitBytesExceeded "string exceeds the envelope"
      else parseStringFrom limits fuel (out ++ [c]) rest := by
  by_cases h22 : c = 0x22
  · subst h22
    rfl
  by_cases h5C : c = 0x5C
  · subst h5C
    rfl
  by_cases h08 : c = 0x08
  · subst h08
    rfl
  by_cases h0C : c = 0x0C
  · subst h0C
    rfl
  by_cases h0A : c = 0x0A
  · subst h0A
    rfl
  by_cases h0D : c = 0x0D
  · subst h0D
    rfl
  by_cases h09 : c = 0x09
  · subst h09
    rfl
  have hescape : escapeByte c =
      if c < 0x20 then ascii "\\u00" ++ [Char8.hexDigit (c.toNat / 16), Char8.hexDigit (c.toNat % 16)] else [c] := by
    simp only [escapeByte, beq_iff_eq, h22, h5C, h08, h0C, h0A, h0D, h09, if_false]
  rw [hescape]
  by_cases hctl : c < 0x20
  · have hspelled : (if c < 0x20 then ascii "\\u00" ++ [Char8.hexDigit (c.toNat / 16), Char8.hexDigit (c.toNat % 16)]
        else [c]) ++ rest =
        0x5C :: 0x75 :: 0x30 :: 0x30 :: Char8.hexDigit (c.toNat / 16) :: Char8.hexDigit (c.toNat % 16) :: rest := by
      rw [if_pos hctl]
      rfl
    rw [hspelled, parseStringFrom, if_neg (by decide), if_pos (by decide), parseEscape_control hctl]
    simp only [bind, Except.bind]
  · rw [if_neg hctl, List.singleton_append, parseStringFrom]
    simp only [beq_iff_eq, h22, h5C, hctl, if_false]

theorem parseStringFrom_escaped (limits : RuntimeLimits) (rest : Text) : ∀ (text : Text) (fuel : Nat) (out : Text),
    text.length < fuel → out.length ≤ limits.maxLeafBytes →
      parseStringFrom limits fuel out (text.flatMap escapeByte ++ 0x22 :: rest) =
        (rereadText limits (out ++ text)).map fun read => (read, rest)
  | [], fuel + 1, out, _, hout => by
    rw [List.flatMap_nil, List.nil_append, List.append_nil, parseStringFrom, if_pos (by decide), rereadText]
    by_cases hutf : isValidUtf8 out = true
    · simp [hutf, not_lt.mpr hout, Except.map]
    · simp [hutf, not_lt.mpr hout, fail, Except.map]
  | c :: text, fuel + 1, out, hfuel, hout => by
    rw [List.flatMap_cons, List.append_assoc, parseStringFrom_escapeByte]
    by_cases hlong : limits.maxLeafBytes < (out ++ [c]).length
    · have hmore : limits.maxLeafBytes < (out ++ c :: text).length := by
        simp only [List.length_append, List.length_cons, List.length_nil] at hlong ⊢
        omega
      rw [if_pos hlong, rereadText, if_pos hmore]
      rfl
    · rw [if_neg hlong, parseStringFrom_escaped limits rest text fuel (out ++ [c]) (by simpa using hfuel)
        (not_lt.mp hlong), List.append_assoc, List.singleton_append]

theorem length_escapeByte_pos (c : UInt8) : 0 < (escapeByte c).length := by
  simp only [escapeByte]
  split_ifs <;> simp [ascii]

theorem length_le_escaped (text : Text) : text.length ≤ (text.flatMap escapeByte).length := by
  induction text with
  | nil => exact Nat.le_refl 0
  | cons c text ih =>
    rw [List.flatMap_cons, List.length_append, List.length_cons]
    have := length_escapeByte_pos c
    omega

theorem parseString_escaped (limits : RuntimeLimits) (text rest : Text) :
    parseString limits (text.flatMap escapeByte ++ 0x22 :: rest) =
      (rereadText limits text).map fun read => (read, rest) := by
  rw [parseString, parseStringFrom_escaped limits rest text _ [] ?_ (Nat.zero_le _), List.nil_append]
  rw [List.length_append, List.length_cons]
  have := length_le_escaped text
  omega

/-! ### Numbers -/

/-- The text does not go on with a number. -/
def Delimited (rest : Text) : Prop :=
  ∀ c ∈ rest.head?, Char8.isDigit c = false ∧ c ≠ 0x2E ∧ c ≠ 0x65 ∧ c ≠ 0x45

theorem delimited_cons {c : UInt8} {rest : Text} (h : c = 0x2C ∨ c = 0x5D ∨ c = 0x7D) : Delimited (c :: rest) := by
  intro d hd
  rw [List.head?_cons, Option.mem_some_iff] at hd
  rcases h with rfl | rfl | rfl <;> subst hd <;> decide

/-- The parts of a number in the grammar of JSON. -/
structure NumberParts where
  (sign digits fraction exponent : Text)
  sign_eq : sign = [] ∨ sign = [0x2D]
  digits_ne_nil : digits ≠ []
  digits_all : ∀ c ∈ digits, Char8.isDigit c = true
  no_leading_zero : digits.head? = some 0x30 → digits.length = 1
  fraction_eq : fraction = [] ∨ ∃ ds, ds ≠ [] ∧ (∀ c ∈ ds, Char8.isDigit c = true) ∧ fraction = 0x2E :: ds
  exponent_eq : exponent = [] ∨ ∃ e s ds, (e = 0x65 ∨ e = 0x45) ∧ (s = [] ∨ s = [0x2B] ∨ s = [0x2D]) ∧ ds ≠ [] ∧
    (∀ c ∈ ds, Char8.isDigit c = true) ∧ exponent = e :: s ++ ds

namespace NumberParts

def text (p : NumberParts) : Text := p.sign ++ p.digits ++ p.fraction ++ p.exponent

end NumberParts

/-- The library writes a number of the grammar, and the text `formatDouble` makes of it reads back exactly. -/
class LawfulDoubleChars [DoubleChars] : Prop where
  toChars_parts : ∀ d, ∃ parts : NumberParts, parts.text = DoubleChars.toChars d
  fromChars_formatDouble : ∀ d, DoubleChars.fromChars (ValueTree.formatDouble d) = some d

theorem takeWhile_digits {ds rest : Text} (hds : ∀ c ∈ ds, Char8.isDigit c = true)
    (hrest : ∀ c ∈ rest.head?, Char8.isDigit c = false) : (ds ++ rest).takeWhile Char8.isDigit = ds := by
  rw [List.takeWhile_append_of_pos hds]
  cases rest with
  | nil => rw [List.takeWhile_nil, List.append_nil]
  | cons c rest => rw [List.takeWhile_cons_of_neg (by simp [hrest c rfl]), List.append_nil]

namespace NumberParts
variable (p : NumberParts) {rest : Text}

/-- A fraction or an exponent does not start with a digit. -/
theorem head_after_digits (hrest : Delimited rest) :
    ∀ c ∈ (p.fraction ++ p.exponent ++ rest).head?, Char8.isDigit c = false := by
  intro c hc
  rcases p.fraction_eq with hf | ⟨ds, -, -, hf⟩
  · rcases p.exponent_eq with he | ⟨e, s, ds, heq, -, -, -, he⟩
    · rw [hf, he] at hc
      exact (hrest c hc).1
    · rw [hf, he] at hc
      simp only [List.nil_append, List.cons_append, List.head?_cons, Option.mem_some_iff] at hc
      subst hc
      rcases heq with rfl | rfl <;> decide
  · rw [hf] at hc
    simp only [List.cons_append, List.head?_cons, Option.mem_some_iff] at hc
    subst hc
    decide

theorem head_after_fraction (hrest : Delimited rest) :
    ∀ c ∈ (p.exponent ++ rest).head?, Char8.isDigit c = false ∧ c ≠ 0x2E := by
  intro c hc
  rcases p.exponent_eq with he | ⟨e, s, ds, heq, -, -, -, he⟩
  · rw [he] at hc
    exact ⟨(hrest c hc).1, (hrest c hc).2.1⟩
  · rw [he] at hc
    simp only [List.cons_append, List.head?_cons, Option.mem_some_iff] at hc
    subst hc
    rcases heq with rfl | rfl <;> decide

theorem scanInteger_eq (hrest : Delimited rest) :
    scanInteger (p.digits ++ (p.fraction ++ p.exponent ++ rest)) = .ok p.digits := by
  have hzero : ¬ (p.digits.head? = some 0x30 ∧ 1 < p.digits.length) := fun h => by
    have := p.no_leading_zero h.1
    omega
  simp only [scanInteger, takeWhile_digits p.digits_all (p.head_after_digits hrest), List.isEmpty_iff,
    p.digits_ne_nil, if_false, if_neg hzero]

theorem scanFraction_eq (hrest : Delimited rest) :
    scanFraction (p.fraction ++ (p.exponent ++ rest)) = .ok p.fraction := by
  rcases p.fraction_eq with hf | ⟨ds, hne, hds, hf⟩
  · rw [hf, List.nil_append]
    have hhead := p.head_after_fraction hrest
    cases h : p.exponent ++ rest with
    | nil => rfl
    | cons c tail =>
      rw [h] at hhead
      simp only [scanFraction, beq_iff_eq, (hhead c rfl).2, if_false]
  · rw [hf, List.cons_append, scanFraction, if_pos (by decide)]
    simp only [takeWhile_digits hds fun c hc => (p.head_after_fraction hrest c hc).1, List.isEmpty_iff, hne, if_false]

theorem exponentSign_eq {s ds : Text} (hs : s = [] ∨ s = [0x2B] ∨ s = [0x2D]) (hne : ds ≠ [])
    (hds : ∀ c ∈ ds, Char8.isDigit c = true) : exponentSign (s ++ (ds ++ rest)) = s := by
  rcases hs with rfl | rfl | rfl
  · cases ds with
    | nil => exact absurd rfl hne
    | cons d ds =>
      have hd := hds d List.mem_cons_self
      have hplus : d ≠ 0x2B := by rintro rfl; exact absurd hd (by decide)
      have hminus : d ≠ 0x2D := by rintro rfl; exact absurd hd (by decide)
      simp [exponentSign, hplus, hminus]
  · rfl
  · rfl

theorem scanExponent_eq (hrest : Delimited rest) : scanExponent (p.exponent ++ rest) = .ok p.exponent := by
  rcases p.exponent_eq with he | ⟨e, s, ds, heq, hs, hne, hds, he⟩
  · rw [he, List.nil_append]
    cases rest with
    | nil => rfl
    | cons c tail =>
      have hc := hrest c rfl
      simp [scanExponent, hc.2.2.1, hc.2.2.2]
  · have hletter : (e == 0x65 || e == 0x45) = true := by rcases heq with rfl | rfl <;> decide
    have hdigits : (ds ++ rest).takeWhile Char8.isDigit = ds := takeWhile_digits hds fun c hc => (hrest c hc).1
    rw [he, List.cons_append, List.cons_append, List.append_assoc, scanExponent, if_pos hletter]
    simp only [exponentSign_eq hs hne hds, List.drop_left, hdigits, List.isEmpty_iff, hne, if_false, List.cons_append]

theorem sign_scanned : (if (p.text ++ rest).head? = some 0x2D then [0x2D] else []) = p.sign := by
  rcases p.sign_eq with hs | hs
  · obtain ⟨d, ds, hd⟩ := List.exists_cons_of_ne_nil p.digits_ne_nil
    have hdigit := p.digits_all d (hd ▸ List.mem_cons_self)
    have hminus : d ≠ 0x2D := by rintro rfl; exact absurd hdigit (by decide)
    simp [text, hs, hd, hminus]
  · simp [text, hs]

end NumberParts

/-- What a number of the grammar is read as. -/
def numberOf [DoubleChars] (p : NumberParts) : Except Status Value :=
  match if p.fraction.isEmpty && p.exponent.isEmpty && decide (p.text.length ≤ 20) then
      integerOf (!p.sign.isEmpty) p.digits else none with
  | some value => .ok value
  | none => match DoubleChars.fromChars p.text with
    | some d => .ok (.makeDouble d)
    | none => fail .encodingNumberOutOfRange "number is outside the representable range"

theorem parseNumber_text [DoubleChars] (p : NumberParts) {rest : Text} (hrest : Delimited rest) :
    parseNumber (p.text ++ rest) = (numberOf p).map fun value => (value, rest) := by
  have hsplit : p.text ++ rest = p.sign ++ (p.digits ++ (p.fraction ++ p.exponent ++ rest)) := by
    simp only [NumberParts.text, List.append_assoc]
  have hdigits : (p.text ++ rest).drop p.sign.length = p.digits ++ (p.fraction ++ p.exponent ++ rest) := by
    rw [hsplit, List.drop_left]
  have hfraction : (p.text ++ rest).drop (p.sign.length + p.digits.length) = p.fraction ++ (p.exponent ++ rest) := by
    rw [← List.drop_drop, hdigits, List.drop_left, List.append_assoc]
  have htoken : p.sign ++ p.digits ++ p.fraction ++ p.exponent = p.text := rfl
  rw [parseNumber]
  simp only [p.sign_scanned, hdigits, p.scanInteger_eq hrest, bind, Except.bind, hfraction, p.scanFraction_eq hrest,
    List.drop_left, p.scanExponent_eq hrest, htoken]
  rw [numberOf]
  cases h : if p.fraction.isEmpty && p.exponent.isEmpty && decide (p.text.length ≤ 20) then
      integerOf (!p.sign.isEmpty) p.digits else none with
  | some value => rfl
  | none =>
    simp only
    cases DoubleChars.fromChars p.text <;> rfl

/-- The parts of an integer. -/
def NumberParts.ofInteger (negative : Bool) (n : Nat) : NumberParts where
  sign := if negative then [0x2D] else []
  digits := decimal n
  fraction := []
  exponent := []
  sign_eq := by cases negative <;> simp
  digits_ne_nil := decimal_ne_nil n
  digits_all := isDigit_decimal n
  no_leading_zero := head_decimal
  fraction_eq := .inl rfl
  exponent_eq := .inl rfl

section Numbers
variable [DoubleChars] {rest : Text}

theorem numberOf_ofInteger {negative : Bool} {n : Nat} {value : Value} (hn : n < 10 ^ 19 ∨ negative = false ∧ n < 10 ^ 20)
    (hvalue : integerOf negative (decimal n) = some value) :
    numberOf (NumberParts.ofInteger negative n) = .ok value := by
  have hlen : (NumberParts.ofInteger negative n).text.length ≤ 20 := by
    simp only [NumberParts.text, NumberParts.ofInteger, List.append_nil, List.length_append]
    rcases hn with hn | ⟨rfl, hn⟩
    · have := length_decimal_le (by decide) hn
      cases negative <;> simp <;> omega
    · have := length_decimal_le (by decide) hn
      simpa using this
  have hsign : (!(NumberParts.ofInteger negative n).sign.isEmpty) = negative := by
    cases negative <;> rfl
  have hempty : ((NumberParts.ofInteger negative n).fraction.isEmpty &&
      (NumberParts.ofInteger negative n).exponent.isEmpty &&
      decide ((NumberParts.ofInteger negative n).text.length ≤ 20)) = true := by
    simp only [hlen, decide_true, Bool.and_true]
    rfl
  have hdigits : (NumberParts.ofInteger negative n).digits = decimal n := rfl
  rw [numberOf, hempty, if_pos rfl, hsign, hdigits, hvalue]

theorem parseNumber_uint (u : UInt64) (hrest : Delimited rest) :
    parseNumber (decimal u.toNat ++ rest) = .ok (.makeUint u, rest) := by
  have hlt : u.toNat < 2 ^ 64 := u.toNat_lt
  have hvalue : integerOf false (decimal u.toNat) = some (.makeUint u) := by
    rw [integerOf, digitsValue_decimal, if_neg Bool.false_ne_true, if_pos hlt, UInt64.ofNat_toNat]
  have htext : (NumberParts.ofInteger false u.toNat).text = decimal u.toNat := by
    simp [NumberParts.text, NumberParts.ofInteger]
  rw [← htext, parseNumber_text _ hrest, numberOf_ofInteger (.inr ⟨rfl, by omega⟩) hvalue]
  rfl

omit [DoubleChars] in
theorem makeUint_eq_makeInt {i : Int64} {n : Nat} (h : i.toInt = n) :
    Value.makeUint (UInt64.ofNat n) = Value.makeInt i := by
  have hi := i.toInt_lt
  have hn : n < 2 ^ 63 := by omega
  have hnat : (UInt64.ofNat n).toNat = n := by
    rw [UInt64.toNat_ofNat']
    omega
  have hint : (UInt64.ofNat n).toInt64 = i := by
    apply Int64.toInt_inj.mp
    have hbmod : (UInt64.ofNat n).toInt64.toInt = ((UInt64.ofNat n).toNat : Int).bmod (2 ^ 64) := by
      exact BitVec.toInt_eq_toNat_bmod _
    rw [hbmod, hnat, h, Int.bmod_eq_of_le]
    · omega
    · omega
  rw [Value.makeUint, if_pos (by omega), hint]
  rfl

theorem parseNumber_int (i : Int64) (hrest : Delimited rest) :
    parseNumber (decimalInt i.toInt ++ rest) = .ok (.makeInt i, rest) := by
  have hlo := i.le_toInt
  have hhi := i.toInt_lt
  rcases hi : i.toInt with n | n
  · have hvalue : integerOf false (decimal n) = some (.makeInt i) := by
      have hn : n < 2 ^ 64 := by
        rw [hi] at hhi
        simp only [Int.ofNat_eq_natCast] at hhi
        omega
      rw [integerOf, digitsValue_decimal, if_neg Bool.false_ne_true, if_pos hn, makeUint_eq_makeInt hi]
    have htext : (NumberParts.ofInteger false n).text = decimalInt (Int.ofNat n) := by
      simp [NumberParts.text, NumberParts.ofInteger, decimalInt]
    rw [← htext, parseNumber_text _ hrest, numberOf_ofInteger (.inl ?_) hvalue]
    · rfl
    · rw [hi] at hhi
      simp only [Int.ofNat_eq_natCast] at hhi
      omega
  · have hneg : i.toInt = -((n + 1 : Nat) : Int) := by rw [hi]; rfl
    have hvalue : integerOf true (decimal (n + 1)) = some (.makeInt i) := by
      have hn : n + 1 ≤ 2 ^ 63 := by omega
      rw [integerOf, digitsValue_decimal, if_pos rfl, if_pos hn, ← hneg, Int64.ofInt_toInt]
    have htext : (NumberParts.ofInteger true (n + 1)).text = decimalInt (Int.negSucc n) := by
      simp [NumberParts.text, NumberParts.ofInteger, decimalInt]
    rw [← htext, parseNumber_text _ hrest, numberOf_ofInteger (.inl (by omega)) hvalue]
    rfl

/-- The text of a double has a fraction or an exponent, so it is never read as an integer. -/
theorem formatDouble_parts [LawfulDoubleChars] (d : Double) :
    ∃ p : NumberParts, p.text = ValueTree.formatDouble d ∧ (p.fraction.isEmpty && p.exponent.isEmpty) = false := by
  obtain ⟨p, hp⟩ := LawfulDoubleChars.toChars_parts d
  have hplain : ∀ c ∈ p.sign ++ p.digits, (c == 0x2E || c == 0x65 || c == 0x45) = false := by
    intro c hc
    rcases List.mem_append.mp hc with hc | hc
    · rcases p.sign_eq with hs | hs <;> rw [hs] at hc
      · exact absurd hc List.not_mem_nil
      · rw [List.mem_singleton.mp hc]
        decide
    · have hd := p.digits_all c hc
      simp only [Bool.or_eq_false_iff, beq_eq_false_iff_ne]
      refine ⟨⟨?_, ?_⟩, ?_⟩ <;> rintro rfl <;> exact absurd hd (by decide)
  by_cases hmark : (p.fraction.isEmpty && p.exponent.isEmpty) = true
  · have hf : p.fraction = [] := by simpa using (Bool.and_eq_true_iff.mp hmark).1
    have he : p.exponent = [] := by simpa using (Bool.and_eq_true_iff.mp hmark).2
    have hnone : (DoubleChars.toChars d).any (fun c => c == 0x2E || c == 0x65 || c == 0x45) = false := by
      rw [← hp, NumberParts.text, hf, he, List.append_nil, List.append_nil, List.any_eq_false]
      intro c hc
      rw [hplain c hc]
      exact Bool.false_ne_true
    refine ⟨{ p with
      fraction := ascii ".0"
      fraction_eq := .inr ⟨[0x30], List.cons_ne_nil _ _, List.forall_mem_singleton.mpr rfl, rfl⟩ }, ?_, rfl⟩
    rw [ValueTree.formatDouble, hnone, if_neg Bool.false_ne_true, ← hp]
    simp only [NumberParts.text, hf, he, List.append_nil]
  · refine ⟨p, ?_, by simpa using hmark⟩
    have hsome : (DoubleChars.toChars d).any (fun c => c == 0x2E || c == 0x65 || c == 0x45) = true := by
      rw [← hp, NumberParts.text, List.append_assoc, List.any_append, Bool.or_eq_true]
      right
      rcases p.fraction_eq with hf | ⟨ds, -, -, hf⟩
      · rcases p.exponent_eq with he | ⟨e, s, ds, heq, -, -, -, he⟩
        · rw [hf, he] at hmark
          exact absurd rfl hmark
        · rw [hf, he]
          rcases heq with rfl | rfl <;> rfl
      · rw [hf]
        rfl
    simp only [ValueTree.formatDouble, hsome, if_true, hp]

theorem parseNumber_double [LawfulDoubleChars] (d : Double) (hrest : Delimited rest) :
    parseNumber (ValueTree.formatDouble d ++ rest) = .ok (.makeDouble d, rest) := by
  obtain ⟨p, hp, hmark⟩ := formatDouble_parts d
  rw [← hp, parseNumber_text p hrest, numberOf, hmark, Bool.false_and, hp, LawfulDoubleChars.fromChars_formatDouble]
  rfl

end Numbers

/-! ### Trees -/

mutual

/-- What is read back of a tree, with the number of values read so far. -/
def reread (limits : RuntimeLimits) : Nat → Nat → ValueTree → Except Status (Value × Nat)
  | depth, nodes, .list elements => do
    let nodes ← admitNode limits depth nodes
    let (list, nodes) ← rereadElements limits (depth + 1) nodes [] elements
    .ok (.makeList list, nodes)
  | depth, nodes, .map members => do
    let nodes ← admitNode limits depth nodes
    let (map, nodes) ← rereadMembers limits (depth + 1) nodes ∅ members
    let value ← finishObject limits map
    .ok (value, nodes)
  | depth, nodes, .bytes raw => do
    let nodes ← admitNode limits depth nodes
    let key ← rereadText limits kBytesMember
    let nodes ← admitNode limits (depth + 1) nodes
    let hex ← rereadText limits (toHex raw)
    let map ← addMember limits ∅ key (.makeString hex)
    let value ← finishObject limits map
    .ok (value, nodes)
  | depth, nodes, .string text => do
    let nodes ← admitNode limits depth nodes
    let text ← rereadText limits text
    .ok (.makeString text, nodes)
  | depth, nodes, .uint u => do
    let nodes ← admitNode limits depth nodes
    .ok (.makeUint u, nodes)
  | depth, nodes, .int i => do
    let nodes ← admitNode limits depth nodes
    .ok (.makeInt i, nodes)
  | depth, nodes, .double d => do
    let nodes ← admitNode limits depth nodes
    .ok (.makeDouble d, nodes)
  | depth, nodes, .bool b => do
    let nodes ← admitNode limits depth nodes
    .ok (.makeBool b, nodes)
  | depth, nodes, .null => do
    let nodes ← admitNode limits depth nodes
    .ok (.makeNull, nodes)

def rereadElements (limits : RuntimeLimits) :
    Nat → Nat → List Value → List ValueTree → Except Status (List Value × Nat)
  | _, nodes, list, [] => .ok (list, nodes)
  | depth, nodes, list, v :: rest => do
    let (element, nodes) ← reread limits depth nodes v
    let list ← addElement limits list element
    rereadElements limits depth nodes list rest

def rereadMembers (limits : RuntimeLimits) :
    Nat → Nat → OrdMap Text Value → List (Text × ValueTree) → Except Status (OrdMap Text Value × Nat)
  | _, nodes, map, [] => .ok (map, nodes)
  | depth, nodes, map, (key, v) :: rest => do
    let key ← rereadText limits key
    let (member, nodes) ← reread limits depth nodes v
    let map ← addMember limits map key member
    rereadMembers limits depth nodes map rest

end

mutual

/-- The calls the parser makes for a tree. -/
def calls : ValueTree → Nat
  | .list elements => 1 + callsElements elements
  | .map members => 1 + callsMembers members
  | .bytes _ => 3
  | _ => 1

def callsElements : List ValueTree → Nat
  | [] => 0
  | v :: rest => 1 + calls v + callsElements rest

def callsMembers : List (Text × ValueTree) → Nat
  | [] => 0
  | (_, v) :: rest => 1 + calls v + callsMembers rest

end

theorem rereadText_ok {limits : RuntimeLimits} {text read : Text} (h : rereadText limits text = .ok read) :
    read = text ∧ text.length ≤ limits.maxLeafBytes ∧ isValidUtf8 text = true := by
  rw [rereadText] at h
  split_ifs at h with hlong hutf
  · cases h
  · cases h
  · exact ⟨(Except.ok.inj h).symm, not_lt.mp hlong, by simpa using hutf⟩

theorem skipWhitespace_cons {c : UInt8} {rest : Text} (h : isSpace c = false) :
    skipWhitespace (c :: rest) = c :: rest := by
  rw [skipWhitespace, List.dropWhile_cons_of_neg (by simp [h])]

theorem parseKey_written (limits : RuntimeLimits) (key text : Text) :
    parseKey limits (appendEscaped key ++ 0x3A :: text) =
      (rereadText limits key).map fun read => (read, skipWhitespace text) := by
  rw [appendEscaped, List.append_assoc, List.cons_append, parseKey, skipWhitespace_cons (by decide), expect,
    if_pos (by decide)]
  simp only [bind, Except.bind, List.singleton_append]
  rw [parseString_escaped]
  rcases h : rereadText limits key with status | read
  · rfl
  · obtain ⟨rfl, hlen, -⟩ := rereadText_ok h
    simp only [Except.map, not_lt.mpr hlen, if_false]
    rw [skipWhitespace_cons (by decide), expect, if_pos (by decide)]

/-- The text starts like a value: not with white space, and not by closing the sequence or the object around it. -/
def StartsValue (text : Text) : Prop := ∃ c tail, text = c :: tail ∧ isSpace c = false ∧ c ≠ 0x5D ∧ c ≠ 0x7D

theorem StartsValue.append {text : Text} (h : StartsValue text) (rest : Text) : StartsValue (text ++ rest) := by
  obtain ⟨c, tail, rfl, hc⟩ := h
  exact ⟨c, tail ++ rest, rfl, hc⟩

theorem StartsValue.skipWhitespace {text : Text} (h : StartsValue text) : skipWhitespace text = text := by
  obtain ⟨c, tail, rfl, hc, -⟩ := h
  exact skipWhitespace_cons hc

/-- The text starts with a sign or a digit. -/
def StartsNumber (text : Text) : Prop := ∃ c tail, text = c :: tail ∧ (c = 0x2D ∨ Char8.isDigit c = true)

theorem startsNumber_decimal (n : Nat) : StartsNumber (decimal n) := by
  obtain ⟨d, ds, hd⟩ := List.exists_cons_of_ne_nil (decimal_ne_nil n)
  exact ⟨d, ds, hd, .inr (isDigit_decimal n d (hd ▸ List.mem_cons_self))⟩

theorem startsNumber_decimalInt (i : Int) : StartsNumber (decimalInt i) := by
  rcases i with n | n
  · exact startsNumber_decimal n
  · exact ⟨0x2D, decimal (n + 1), rfl, .inl rfl⟩

theorem startsNumber_parts (p : NumberParts) : StartsNumber p.text := by
  obtain ⟨d, ds, hd⟩ := List.exists_cons_of_ne_nil p.digits_ne_nil
  rcases p.sign_eq with hs | hs
  · refine ⟨d, ds ++ p.fraction ++ p.exponent, ?_, .inr (p.digits_all d (hd ▸ List.mem_cons_self))⟩
    rw [NumberParts.text, hs, hd]
    rfl
  · refine ⟨0x2D, p.digits ++ p.fraction ++ p.exponent, ?_, .inl rfl⟩
    rw [NumberParts.text, hs]
    rfl

/-- A byte that starts a number starts no other value. -/
theorem number_byte {c : UInt8} (h : c = 0x2D ∨ Char8.isDigit c = true) :
    isSpace c = false ∧ c ≠ 0x5D ∧ c ≠ 0x7D ∧ c ≠ 0x7B ∧ c ≠ 0x5B ∧ c ≠ 0x22 ∧ c ≠ 0x74 ∧ c ≠ 0x66 ∧ c ≠ 0x6E := by
  rcases h with rfl | h
  · decide
  · have hne : ∀ d : UInt8, Char8.isDigit d = false → c ≠ d := by
      rintro d hd rfl
      exact absurd (h.symm.trans hd) (by decide)
    have hspace : isSpace c = false := by
      simp only [isSpace, Bool.or_eq_false_iff, beq_eq_false_iff_ne]
      exact ⟨⟨⟨hne _ (by decide), hne _ (by decide)⟩, hne _ (by decide)⟩, hne _ (by decide)⟩
    exact ⟨hspace, hne _ (by decide), hne _ (by decide), hne _ (by decide), hne _ (by decide), hne _ (by decide),
      hne _ (by decide), hne _ (by decide), hne _ (by decide)⟩

theorem StartsNumber.startsValue {text : Text} (h : StartsNumber text) : StartsValue text := by
  obtain ⟨c, tail, rfl, hc⟩ := h
  obtain ⟨hspace, hclose, hbrace, -⟩ := number_byte hc
  exact ⟨c, tail, rfl, hspace, hclose, hbrace⟩

/-- The outcome of reading a value that stands before `rest`. -/
def before (rest : Text) (read : Except Status (Value × Nat)) : Except Status (Value × Text × Nat) :=
  read.map fun read => (read.1, rest, read.2)

section Calls
variable [DoubleChars]

omit [DoubleChars] in
theorem length_decimalInt_pos (i : Int) : 0 < (decimalInt i).length := by
  rcases i with n | n
  · exact length_decimal_pos n
  · exact Nat.succ_pos _

theorem length_formatDouble_pos (d : Double) : 0 < (ValueTree.formatDouble d).length := by
  rw [ValueTree.formatDouble]
  split_ifs with h
  · rcases hchars : DoubleChars.toChars d with _ | ⟨c, rest⟩
    · rw [hchars] at h
      exact absurd h Bool.false_ne_true
    · exact Nat.succ_pos _
  · rw [List.length_append]
    exact Nat.add_pos_right _ (by decide)

omit [DoubleChars] in
theorem calls_leaf_le {t : ValueTree} {text : Text} (h : calls t = 1) (hpos : 0 < text.length) :
    calls t ≤ 2 * text.length := by omega

mutual

/-- The fuel the parser starts with is enough. -/
theorem calls_le : ∀ t : ValueTree, calls t ≤ 2 * (writeCompact t).length
  | .null => calls_leaf_le rfl (Nat.succ_pos _)
  | .bool true => calls_leaf_le rfl (Nat.succ_pos _)
  | .bool false => calls_leaf_le rfl (Nat.succ_pos _)
  | .int i => calls_leaf_le rfl (length_decimalInt_pos i.toInt)
  | .uint u => calls_leaf_le rfl (length_decimal_pos u.toNat)
  | .double d => calls_leaf_le rfl (length_formatDouble_pos d)
  | .string _ => calls_leaf_le rfl (Nat.succ_pos _)
  | .bytes raw => by
    rw [calls, writeCompact]
    simp only [List.length_append, List.length_cons]
    omega
  | .list elements => by
    have := callsElements_le elements true
    rw [calls, writeCompact]
    simp only [List.length_append, List.length_cons, List.length_nil, if_true] at this ⊢
    omega
  | .map members => by
    have := callsMembers_le members true
    rw [calls, writeCompact]
    simp only [List.length_append, List.length_cons, List.length_nil, if_true] at this ⊢
    omega

theorem callsElements_le : ∀ (vs : List ValueTree) (first : Bool),
    callsElements vs ≤ 2 * (writeElements first vs).length + if first then 1 else 0
  | [], _ => Nat.zero_le _
  | v :: vs, first => by
    have hv := calls_le v
    have hvs := callsElements_le vs false
    rw [callsElements, writeElements]
    simp only [List.length_append, if_neg Bool.false_ne_true] at hvs ⊢
    cases first <;> simp <;> omega

theorem callsMembers_le : ∀ (ms : List (Text × ValueTree)) (first : Bool),
    callsMembers ms ≤ 2 * (writeMembers first ms).length + if first then 1 else 0
  | [], _ => Nat.zero_le _
  | (key, v) :: ms, first => by
    have hv := calls_le v
    have hms := callsMembers_le ms false
    rw [callsMembers, writeMembers]
    simp only [List.length_append, List.length_cons, if_neg Bool.false_ne_true] at hms ⊢
    cases first <;> simp <;> omega

end

end Calls

section Roundtrip
variable [DoubleChars] [LawfulDoubleChars] {limits : RuntimeLimits} {fuel depth nodes : Nat}

theorem startsNumber_formatDouble (d : Double) : StartsNumber (ValueTree.formatDouble d) := by
  obtain ⟨p, hp, -⟩ := formatDouble_parts d
  rw [← hp]
  exact startsNumber_parts p

theorem startsValue_writeCompact : ∀ t : ValueTree, StartsValue (writeCompact t)
  | .null => ⟨0x6E, _, rfl, by decide, by decide, by decide⟩
  | .bool true => ⟨0x74, _, rfl, by decide, by decide, by decide⟩
  | .bool false => ⟨0x66, _, rfl, by decide, by decide, by decide⟩
  | .int i => by
    rw [writeCompact]
    exact (startsNumber_decimalInt i.toInt).startsValue
  | .uint u => by
    rw [writeCompact]
    exact (startsNumber_decimal u.toNat).startsValue
  | .double d => by
    rw [writeCompact]
    exact (startsNumber_formatDouble d).startsValue
  | .string _ => ⟨0x22, _, by rw [writeCompact, appendEscaped]; rfl, by decide, by decide, by decide⟩
  | .bytes _ => ⟨0x7B, _, by rw [writeCompact]; rfl, by decide, by decide, by decide⟩
  | .list _ => ⟨0x5B, _, by rw [writeCompact]; rfl, by decide, by decide, by decide⟩
  | .map _ => ⟨0x7B, _, by rw [writeCompact]; rfl, by decide, by decide, by decide⟩

omit [LawfulDoubleChars] in
theorem parseValue_scalar {text rest : Text} {value : Except Status Value} (hbrace : text.head? ≠ some 0x7B)
    (hbracket : text.head? ≠ some 0x5B) (h : parseScalar limits text = value.map fun v => (v, rest)) :
    parseValue limits (fuel + 1) depth nodes text =
      before rest (do
        let nodes ← admitNode limits depth nodes
        let value ← value
        .ok (value, nodes)) := by
  rw [parseValue]
  rcases admitNode limits depth nodes with status | nodes
  · rfl
  · simp only [bind, Except.bind, hbrace, hbracket, if_false, h]
    cases value <;> rfl

omit [LawfulDoubleChars] in
theorem parseScalar_number {text rest : Text} (h : StartsNumber text) :
    parseScalar limits (text ++ rest) = parseNumber (text ++ rest) := by
  obtain ⟨c, tail, rfl, hc⟩ := h
  obtain ⟨-, -, -, -, -, hquote, ht, hf, hn⟩ := number_byte hc
  simp only [List.cons_append, parseScalar, beq_iff_eq, hquote, ht, hf, hn, if_false]

omit [LawfulDoubleChars] in
theorem parseValue_number {text rest : Text} {value : Value} (h : StartsNumber text)
    (hread : parseNumber (text ++ rest) = .ok (value, rest)) :
    parseValue limits (fuel + 1) depth nodes (text ++ rest) =
      before rest (do
        let nodes ← admitNode limits depth nodes
        .ok (value, nodes)) := by
  have hscalar : parseScalar limits (text ++ rest) = (Except.ok value : Except Status Value).map fun v => (v, rest) := by
    rw [parseScalar_number h, hread]
    rfl
  obtain ⟨c, tail, rfl, hc⟩ := h
  obtain ⟨-, -, -, hbrace, hbracket, -⟩ := number_byte hc
  rw [parseValue_scalar (by simpa using hbrace) (by simpa using hbracket) hscalar]
  rfl

omit [LawfulDoubleChars] in
/-- One member of an object, up to what follows its value. -/
theorem parseMembers_step {key text rest : Text} {map : OrdMap Text Value} {read : Except Status (Value × Nat)}
    (htext : StartsValue text) (h : parseValue limits fuel (depth + 1) nodes (text ++ rest) = before rest read) :
    parseMembers limits (fuel + 1) depth nodes map (appendEscaped key ++ 0x3A :: (text ++ rest)) = (do
      let key ← rereadText limits key
      let (member, nodes) ← read
      let map ← addMember limits map key member
      let (closed, text) ← parseSeparator 0x7D "unterminated object" "expected ',' or '\x7d'" (skipWhitespace rest)
      if closed then do
        let value ← finishObject limits map
        .ok (value, text, nodes)
      else parseMembers limits fuel depth nodes map text) := by
  rw [parseMembers, parseKey_written, (htext.append rest).skipWhitespace]
  rcases rereadText limits key with status | key
  · rfl
  · simp only [Except.map, bind, Except.bind]
    rw [h]
    rcases read with status | ⟨member, nodes⟩ <;> rfl

omit [LawfulDoubleChars] in
/-- One element of a sequence, up to what follows it. -/
theorem parseElements_step {text rest : Text} {list : List Value} {read : Except Status (Value × Nat)}
    (htext : StartsValue text) (h : parseValue limits fuel (depth + 1) nodes (text ++ rest) = before rest read) :
    parseElements limits (fuel + 1) depth nodes list (text ++ rest) = (do
      let (element, nodes) ← read
      let list ← addElement limits list element
      let (closed, text) ← parseSeparator 0x5D "unterminated sequence" "expected ',' or ']'" (skipWhitespace rest)
      if closed then .ok (.makeList list, text, nodes) else parseElements limits fuel depth nodes list text) := by
  rw [parseElements, (htext.append rest).skipWhitespace, h]
  rcases read with status | ⟨element, nodes⟩ <;> rfl

theorem startsValue_writeElements (v : ValueTree) (vs : List ValueTree) :
    StartsValue (writeElements true (v :: vs)) := by
  rw [writeElements, if_pos rfl, List.nil_append]
  exact (startsValue_writeCompact v).append _

omit [LawfulDoubleChars] in
theorem parseValue_list {text : Text} (h : StartsValue text) :
    parseValue limits (fuel + 1) depth nodes (0x5B :: text) = (do
      let nodes ← admitNode limits depth nodes
      parseElements limits fuel depth nodes [] text) := by
  obtain ⟨c, tail, rfl, hspace, hclose, -⟩ := h
  rw [parseValue]
  simp [skipWhitespace_cons hspace, hclose]

omit [LawfulDoubleChars] in
theorem parseValue_object {text : Text} (h : StartsValue text) :
    parseValue limits (fuel + 1) depth nodes (0x7B :: text) = (do
      let nodes ← admitNode limits depth nodes
      parseMembers limits fuel depth nodes ∅ text) := by
  obtain ⟨c, tail, rfl, hspace, -, hclose⟩ := h
  rw [parseValue]
  simp [skipWhitespace_cons hspace, hclose]

omit [LawfulDoubleChars] in
theorem writeElements_false (v : ValueTree) (vs : List ValueTree) :
    writeElements false (v :: vs) = 0x2C :: writeElements true (v :: vs) := by
  simp only [writeElements, if_true, if_neg Bool.false_ne_true, List.nil_append, List.cons_append]

omit [LawfulDoubleChars] in
theorem writeMembers_false (m : Text × ValueTree) (ms : List (Text × ValueTree)) :
    writeMembers false (m :: ms) = 0x2C :: writeMembers true (m :: ms) := by
  obtain ⟨key, v⟩ := m
  simp only [writeMembers, if_true, if_neg Bool.false_ne_true, List.nil_append, List.cons_append]

omit [LawfulDoubleChars] in
theorem parseValue_literal (literal : String) {c : UInt8} {tail rest : Text} {value : Value}
    (hliteral : ascii literal = c :: tail) (hc : c ≠ 0x7B ∧ c ≠ 0x5B)
    (h : parseScalar limits (ascii literal ++ rest) = parseLiteral literal value (ascii literal ++ rest)) :
    parseValue limits (fuel + 1) depth nodes (ascii literal ++ rest) =
      before rest (do
        let nodes ← admitNode limits depth nodes
        .ok (value, nodes)) := by
  have hp : (ascii literal).isPrefixOf (ascii literal ++ rest) = true :=
    List.isPrefixOf_iff_prefix.mpr (List.prefix_append _ _)
  have hscalar : parseScalar limits (ascii literal ++ rest) =
      (Except.ok value : Except Status Value).map fun v => (v, rest) := by
    rw [h, parseLiteral, if_pos hp, List.drop_left]
    rfl
  have hhead : (ascii literal ++ rest).head? = some c := by
    rw [hliteral]
    rfl
  rw [parseValue_scalar (by rw [hhead]; simpa using hc.1) (by rw [hhead]; simpa using hc.2) hscalar]
  rfl

omit [LawfulDoubleChars] in
theorem parseValue_string (text rest : Text) :
    parseValue limits (fuel + 1) depth nodes (appendEscaped text ++ rest) =
      before rest (reread limits depth nodes (.string text)) := by
  have hspelled : appendEscaped text ++ rest = 0x22 :: (text.flatMap escapeByte ++ 0x22 :: rest) := by
    simp only [appendEscaped, List.cons_append, List.append_assoc, List.nil_append]
  have hscalar : parseScalar limits (appendEscaped text ++ rest) =
      ((rereadText limits text).map Value.makeString).map fun v => (v, rest) := by
    rw [hspelled, parseScalar, if_pos (by decide), parseString_escaped]
    cases rereadText limits text <;> rfl
  have hhead : (appendEscaped text ++ rest).head? = some 0x22 := by
    rw [hspelled]
    rfl
  rw [parseValue_scalar (by rw [hhead]; decide) (by rw [hhead]; decide) hscalar, reread]
  congr 1
  rcases admitNode limits depth nodes with status | nodes
  · rfl
  · cases rereadText limits text <;> rfl

omit [DoubleChars] [LawfulDoubleChars] in
theorem escapeByte_hexDigit : ∀ n < 16, escapeByte (Char8.hexDigit n) = [Char8.hexDigit n] := by decide

omit [DoubleChars] [LawfulDoubleChars] in
/-- Hexadecimal digits need no escape. -/
theorem escaped_toHex (raw : Text) : (toHex raw).flatMap escapeByte = toHex raw := by
  induction raw with
  | nil => rfl
  | cons b rest ih =>
    have hb : b.toNat < 256 := b.toNat_lt
    have hcons : toHex (b :: rest) = Char8.hexDigit (b.toNat / 16) :: Char8.hexDigit (b.toNat % 16) :: toHex rest := rfl
    rw [hcons, List.flatMap_cons, List.flatMap_cons, ih, escapeByte_hexDigit _ (by omega),
      escapeByte_hexDigit _ (by omega)]
    rfl

omit [LawfulDoubleChars] in
/-- A byte string is written as the object that tags its digits. -/
theorem parseValue_bytes (raw rest : Text) (hfuel : 2 ≤ fuel) :
    parseValue limits (fuel + 1) depth nodes (writeCompact (.bytes raw) ++ rest) =
      before rest (reread limits depth nodes (.bytes raw)) := by
  obtain ⟨fuel, rfl⟩ : ∃ k, fuel = k + 1 + 1 := ⟨fuel - 2, by omega⟩
  have hspelled : writeCompact (.bytes raw) ++ rest =
      0x7B :: (appendEscaped kBytesMember ++ 0x3A :: (appendEscaped (toHex raw) ++ 0x7D :: rest)) := by
    rw [writeCompact, appendEscaped, appendEscaped, escaped_toHex]
    simp only [List.cons_append, List.append_assoc, List.nil_append]
    rfl
  have hkey : StartsValue (appendEscaped kBytesMember) := ⟨0x22, _, rfl, by decide, by decide, by decide⟩
  have hhex : StartsValue (appendEscaped (toHex raw)) := ⟨0x22, _, rfl, by decide, by decide, by decide⟩
  rw [hspelled, parseValue_object (hkey.append _), reread]
  rcases admitNode limits depth nodes with status | nodes
  · rfl
  simp only [bind, Except.bind]
  rw [parseMembers_step hhex (parseValue_string (toHex raw) (0x7D :: rest)), reread]
  rcases rereadText limits kBytesMember with status | key
  · rfl
  simp only [bind, Except.bind]
  rcases admitNode limits (depth + 1) nodes with status | nodes
  · rfl
  simp only
  rcases rereadText limits (toHex raw) with status | hex
  · rfl
  simp only
  rcases addMember limits ∅ key (.makeString hex) with status | map
  · rfl
  simp only
  rw [skipWhitespace_cons (by decide)]
  simp only [parseSeparator]
  cases finishObject limits map <;> rfl

mutual

/-- Reading what was written for a tree, whatever stands behind it. -/
theorem parseValue_written : ∀ (t : ValueTree) (fuel : Nat) {depth nodes : Nat} {rest : Text}, calls t ≤ fuel →
    Delimited rest → parseValue limits fuel depth nodes (writeCompact t ++ rest) =
      before rest (reread limits depth nodes t)
  | .null, fuel + 1, depth, nodes, rest, _, _ => by
    rw [writeCompact, reread]
    exact parseValue_literal "null" rfl (by decide) rfl
  | .bool true, fuel + 1, depth, nodes, rest, _, _ => by
    rw [writeCompact, reread]
    exact parseValue_literal "true" rfl (by decide) rfl
  | .bool false, fuel + 1, depth, nodes, rest, _, _ => by
    rw [writeCompact, reread]
    exact parseValue_literal "false" rfl (by decide) rfl
  | .int i, fuel + 1, depth, nodes, rest, _, hrest => by
    rw [writeCompact, reread]
    exact parseValue_number (startsNumber_decimalInt _) (parseNumber_int i hrest)
  | .uint u, fuel + 1, depth, nodes, rest, _, hrest => by
    rw [writeCompact, reread]
    exact parseValue_number (startsNumber_decimal _) (parseNumber_uint u hrest)
  | .double d, fuel + 1, depth, nodes, rest, _, hrest => by
    rw [writeCompact, reread]
    exact parseValue_number (startsNumber_formatDouble d) (parseNumber_double d hrest)
  | .string text, fuel + 1, depth, nodes, rest, _, _ => by
    rw [writeCompact]
    exact parseValue_string text rest
  | .bytes raw, fuel + 1, depth, nodes, rest, hfuel, _ => by
    rw [calls] at hfuel
    exact parseValue_bytes raw rest (by omega)
  | .list [], fuel + 1, depth, nodes, rest, _, _ => by
    rw [writeCompact, writeElements, reread, parseValue]
    rcases admitNode limits depth nodes with status | nodes
    · rfl
    · simp only [bind, Except.bind, rereadElements]
      rfl
  | .list (v :: vs), fuel + 1, depth, nodes, rest, hfuel, _ => by
    have hspelled : writeCompact (.list (v :: vs)) ++ rest = 0x5B :: (writeElements true (v :: vs) ++ 0x5D :: rest) := by
      simp only [writeCompact, List.cons_append, List.append_assoc, List.nil_append]
    rw [hspelled, parseValue_list ((startsValue_writeElements v vs).append _), reread]
    rcases admitNode limits depth nodes with status | nodes
    · rfl
    · rw [calls] at hfuel
      exact parseElements_written v vs fuel (by omega)
  | .map [], fuel + 1, depth, nodes, rest, _, _ => by
    rw [writeCompact, writeMembers, reread, parseValue]
    rcases admitNode limits depth nodes with status | nodes
    · rfl
    · simp only [bind, Except.bind, rereadMembers]
      rfl
  | .map (m :: ms), fuel + 1, depth, nodes, rest, hfuel, _ => by
    have hspelled : writeCompact (.map (m :: ms)) ++ rest = 0x7B :: (writeMembers true (m :: ms) ++ 0x7D :: rest) := by
      simp only [writeCompact, List.cons_append, List.append_assoc, List.nil_append]
    have hstart : StartsValue (writeMembers true (m :: ms)) := by
      obtain ⟨key, v⟩ := m
      rw [writeMembers]
      exact ⟨0x22, _, rfl, by decide, by decide, by decide⟩
    rw [hspelled, parseValue_object (hstart.append _), reread]
    rcases admitNode limits depth nodes with status | nodes
    · rfl
    · rw [calls] at hfuel
      exact parseMembers_written m ms fuel (by omega)
  | .list (_ :: _), 0, _, _, _, hfuel, _ => by
    rw [calls] at hfuel
    omega
  | .map (_ :: _), 0, _, _, _, hfuel, _ => by
    rw [calls] at hfuel
    omega
termination_by structural _ fuel => fuel

theorem parseElements_written : ∀ (v : ValueTree) (vs : List ValueTree) (fuel : Nat) {depth nodes : Nat}
    {list : List Value} {rest : Text}, callsElements (v :: vs) ≤ fuel →
      parseElements limits fuel depth nodes list (writeElements true (v :: vs) ++ 0x5D :: rest) =
        before rest (do
          let (list, nodes) ← rereadElements limits (depth + 1) nodes list (v :: vs)
          .ok (.makeList list, nodes))
  | v, vs, fuel + 1, depth, nodes, list, rest, hfuel => by
    rw [callsElements] at hfuel
    have hdelimited : Delimited (writeElements false vs ++ 0x5D :: rest) := by
      cases vs with
      | nil => exact delimited_cons (.inr (.inl rfl))
      | cons w ws =>
        rw [writeElements_false]
        exact delimited_cons (.inl rfl)
    have hspelled : writeElements true (v :: vs) ++ 0x5D :: rest =
        writeCompact v ++ (writeElements false vs ++ 0x5D :: rest) := by
      simp only [writeElements, if_true, List.nil_append, List.append_assoc]
    rw [hspelled, parseElements_step (startsValue_writeCompact v) (parseValue_written v fuel (by omega) hdelimited),
      rereadElements]
    rcases reread limits (depth + 1) nodes v with status | ⟨element, nodes⟩
    · rfl
    simp only [bind, Except.bind]
    rcases addElement limits list element with status | list
    · rfl
    cases vs with
    | nil =>
      simp only [writeElements, List.nil_append, rereadElements]
      rw [skipWhitespace_cons (by decide)]
      rfl
    | cons w ws =>
      rw [writeElements_false, List.cons_append, skipWhitespace_cons (by decide)]
      exact parseElements_written w ws fuel (by omega)
  | _, _, 0, _, _, _, _, hfuel => by
    rw [callsElements] at hfuel
    omega
termination_by structural _ _ fuel => fuel

theorem parseMembers_written : ∀ (m : Text × ValueTree) (ms : List (Text × ValueTree)) (fuel : Nat)
    {depth nodes : Nat} {map : OrdMap Text Value} {rest : Text}, callsMembers (m :: ms) ≤ fuel →
      parseMembers limits fuel depth nodes map (writeMembers true (m :: ms) ++ 0x7D :: rest) =
        before rest (do
          let (map, nodes) ← rereadMembers limits (depth + 1) nodes map (m :: ms)
          let value ← finishObject limits map
          .ok (value, nodes))
  | (key, v), ms, fuel + 1, depth, nodes, map, rest, hfuel => by
    rw [callsMembers] at hfuel
    have hdelimited : Delimited (writeMembers false ms ++ 0x7D :: rest) := by
      cases ms with
      | nil => exact delimited_cons (.inr (.inr rfl))
      | cons w ws =>
        rw [writeMembers_false]
        exact delimited_cons (.inl rfl)
    have hspelled : writeMembers true ((key, v) :: ms) ++ 0x7D :: rest =
        appendEscaped key ++ 0x3A :: (writeCompact v ++ (writeMembers false ms ++ 0x7D :: rest)) := by
      simp only [writeMembers, if_true, List.nil_append, List.append_assoc, List.cons_append]
    rw [hspelled, parseMembers_step (startsValue_writeCompact v) (parseValue_written v fuel (by omega) hdelimited),
      rereadMembers]
    rcases rereadText limits key with status | key
    · rfl
    simp only [bind, Except.bind]
    rcases reread limits (depth + 1) nodes v with status | ⟨member, nodes⟩
    · rfl
    simp only
    rcases addMember limits map key member with status | map
    · rfl
    cases ms with
    | nil =>
      simp only [writeMembers, List.nil_append, rereadMembers]
      rw [skipWhitespace_cons (by decide)]
      simp only [parseSeparator]
      cases finishObject limits map <;> rfl
    | cons w ws =>
      rw [writeMembers_false, List.cons_append, skipWhitespace_cons (by decide)]
      exact parseMembers_written w ws fuel (by omega)
  | _, _, 0, _, _, _, _, hfuel => by
    rw [callsMembers] at hfuel
    omega
termination_by structural _ _ fuel => fuel

end

theorem parse_written (v : Value) :
    parse limits (writeCanonicalJson v) = (reread limits 0 0 v.tree).map Prod.fst := by
  obtain ⟨c, tail, htext, hspace, -⟩ := startsValue_writeCompact v.tree
  have hread : parseValue limits (2 * (writeCompact v.tree).length + 2) 0 0 (writeCompact v.tree ++ []) =
      before [] (reread limits 0 0 v.tree) :=
    parseValue_written v.tree _ (Nat.le_add_right_of_le (calls_le v.tree)) fun _ h => (by cases h)
  rw [List.append_nil] at hread
  rw [parse, writeCanonicalJson]
  simp only [(startsValue_writeCompact v.tree).skipWhitespace]
  rw [if_neg (by rw [htext]; exact Bool.false_ne_true), hread]
  rcases reread limits 0 0 v.tree with status | ⟨value, nodes⟩ <;> rfl

end Roundtrip

end Json

/-! ### A conversion of doubles -/

namespace Sample

open Json

/-- The double with the written bit pattern, less the ".0" behind it. -/
def readBits (text : Text) : Option Double :=
  let bits := UInt64.ofNat (digitsValue text.dropLast.dropLast)
  if h : bits.toNat / 2 ^ 52 % 2 ^ 11 ≠ 2 ^ 11 - 1 then some ⟨bits, h⟩ else none

/-- A conversion that writes the bit pattern of a double in decimal; it reads back what it wrote. -/
@[reducible] def bitDoubles : DoubleChars := ⟨fun d => decimal d.bits.toNat, readBits⟩

theorem readBits_decimal (d : Double) : readBits (decimal d.bits.toNat ++ [0x2E] ++ [0x30]) = some d := by
  unfold readBits
  rw [List.dropLast_concat, List.dropLast_concat, digitsValue_decimal, UInt64.ofNat_toNat]
  exact dif_pos d.finite

theorem lawful_bitDoubles : @LawfulDoubleChars bitDoubles := by
  refine @LawfulDoubleChars.mk bitDoubles (fun d => ?_) fun d => ?_
  · refine ⟨⟨[], decimal d.bits.toNat, [], [], .inl rfl, decimal_ne_nil _, isDigit_decimal _, head_decimal, .inl rfl,
      .inl rfl⟩, ?_⟩
    unfold NumberParts.text
    dsimp only
    rw [List.nil_append, List.append_nil, List.append_nil]
    rfl
  · have hplain : (decimal d.bits.toNat).any (fun c => c == 0x2E || c == 0x65 || c == 0x45) = false := by
      rw [List.any_eq_false]
      intro c hc hmark
      have hdigit := isDigit_decimal _ c hc
      simp only [Bool.or_eq_true, beq_iff_eq] at hmark
      rcases hmark with (rfl | rfl) | rfl <;> cases hdigit
    have hchars : @DoubleChars.toChars bitDoubles d = decimal d.bits.toNat := rfl
    have htext : @ValueTree.formatDouble bitDoubles d = decimal d.bits.toNat ++ [0x2E] ++ [0x30] := by
      unfold ValueTree.formatDouble
      rw [hchars]
      dsimp only
      rw [hplain, if_neg Bool.false_ne_true, List.append_assoc]
      rfl
    rw [htext]
    exact readBits_decimal d

end Sample

end DriftObservatory
