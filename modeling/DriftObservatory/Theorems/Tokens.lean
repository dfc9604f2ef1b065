import DriftObservatory.Theorems.Grammar

/-! What the scanners of the parser accept: UTF-8, strings with their escapes, and numbers. Each accepts the tokens of
    the grammar and no others. -/

namespace DriftObservatory

namespace Json

open Outcome

/-! ### UTF-8 -/

theorem tail_iff {c : UInt8} : Tail c ↔ c.toNat / 64 = 2 := by
  have hlt : c.toNat < 256 := c.toNat_lt
  have hlo : (0x80 : UInt8).toNat = 0x80 := rfl
  have hhi : (0xBF : UInt8).toNat = 0xBF := rfl
  rw [Tail, UInt8.le_iff_toNat_le, UInt8.le_iff_toNat_le, hlo, hhi]
  omega

/-- The lengths and the code points behind the lead byte, as the decoder reckons them. -/
theorem utf8Step_two {a : UInt8} (ha : a.toNat / 32 = 6) {rest after : Text} :
    utf8Step (a :: rest) = some after ↔ ∃ b, rest = b :: after ∧ b.toNat / 64 = 2 ∧ 2 ≤ a.toNat % 32 := by
  have hraw : ¬ a.toNat < 0x80 := by omega
  rcases rest with _ | ⟨b, rest⟩
  · simp [utf8Step, hraw, ha]
  have hb := b.toNat_lt
  by_cases hcont : b.toNat / 64 = 2
  · simp [utf8Step, hraw, ha, hcont]
    constructor
    · rintro ⟨h0, h2, rfl⟩
      exact ⟨rfl, by omega⟩
    · rintro ⟨rfl, h2⟩
      exact ⟨by omega, by omega, rfl⟩
  · simp [utf8Step, hraw, ha, hcont]

theorem utf8Step_three {a : UInt8} (ha : a.toNat / 16 = 14) {rest after : Text} :
    utf8Step (a :: rest) = some after ↔ ∃ b c, rest = b :: c :: after ∧ b.toNat / 64 = 2 ∧ c.toNat / 64 = 2 ∧
      (a.toNat = 0xE0 → 0xA0 ≤ b.toNat) ∧ (a.toNat = 0xED → b.toNat ≤ 0x9F) := by
  have hraw : ¬ a.toNat < 0x80 := by omega
  have htwo : ¬ a.toNat / 32 = 6 := by omega
  rcases rest with _ | ⟨b, _ | ⟨c, rest⟩⟩
  · simp [utf8Step, hraw, htwo, ha]
  · simp [utf8Step, hraw, htwo, ha]
  by_cases hb : b.toNat / 64 = 2
  · by_cases hc : c.toNat / 64 = 2
    · have hlen : ¬ rest.length + 1 + 1 < 2 := by omega
      simp [utf8Step, hraw, htwo, ha, hb, hc, hlen]
      constructor
      · rintro ⟨h2, rfl⟩
        exact ⟨rfl, by omega, by omega⟩
      · rintro ⟨rfl, h2, h3⟩
        exact ⟨by omega, rfl⟩
    · simp [utf8Step, hraw, htwo, ha, hb, hc]
  · simp [utf8Step, hraw, htwo, ha, hb]

theorem utf8Step_four {a : UInt8} (ha : a.toNat / 8 = 30) {rest after : Text} :
    utf8Step (a :: rest) = some after ↔ ∃ b c d, rest = b :: c :: d :: after ∧ b.toNat / 64 = 2 ∧ c.toNat / 64 = 2 ∧
      d.toNat / 64 = 2 ∧ a.toNat ≤ 0xF4 ∧ (a.toNat = 0xF0 → 0x90 ≤ b.toNat) ∧ (a.toNat = 0xF4 → b.toNat ≤ 0x8F) := by
  have hraw : ¬ a.toNat < 0x80 := by omega
  have htwo : ¬ a.toNat / 32 = 6 := by omega
  have hthree : ¬ a.toNat / 16 = 14 := by omega
  rcases rest with _ | ⟨b, _ | ⟨c, _ | ⟨d, rest⟩⟩⟩
  · simp [utf8Step, hraw, htwo, hthree, ha]
  · simp [utf8Step, hraw, htwo, hthree, ha]
  · simp [utf8Step, hraw, htwo, hthree, ha]
  by_cases hb : b.toNat / 64 = 2
  · by_cases hc : c.toNat / 64 = 2
    · by_cases hd : d.toNat / 64 = 2
      · have hlen : ¬ rest.length + 1 + 1 + 1 < 3 := by omega
        simp [utf8Step, hraw, htwo, hthree, ha, hb, hc, hd, hlen]
        constructor
        · rintro ⟨h2, rfl⟩
          exact ⟨rfl, by omega, by omega, by omega⟩
        · rintro ⟨rfl, h2, h3, h4⟩
          exact ⟨by omega, rfl⟩
      · simp [utf8Step, hraw, htwo, hthree, ha, hb, hc, hd]
    · simp [utf8Step, hraw, htwo, hthree, ha, hb, hc]
  · simp [utf8Step, hraw, htwo, hthree, ha, hb]

theorem utf8Step_eq_some {text after : Text} :
    utf8Step text = some after ↔ ∃ char, Utf8Char char ∧ text = char ++ after := by
  constructor
  · intro h
    rcases text with _ | ⟨a, rest⟩
    · cases h
    have ha := a.toNat_lt
    by_cases hraw : a.toNat < 0x80
    · rw [utf8Step_ascii hraw, Option.some.injEq] at h
      exact ⟨[a], .one (UInt8.le_iff_toNat_le.mpr (Nat.lt_succ_iff.mp hraw)), by rw [h]; rfl⟩
    by_cases htwo : a.toNat / 32 = 6
    · obtain ⟨b, rfl, hb, hlow⟩ := (utf8Step_two htwo).mp h
      refine ⟨[a, b], .two ?_ (tail_iff.mpr hb), rfl⟩
      simp only [UInt8.le_iff_toNat_le, UInt8.reduceToNat]
      omega
    by_cases hthree : a.toNat / 16 = 14
    · obtain ⟨b, c, rfl, hb, hc, hlow, hhigh⟩ := (utf8Step_three hthree).mp h
      refine ⟨[a, b, c], .three ?_ (tail_iff.mpr hb) ?_ ?_ (tail_iff.mpr hc), rfl⟩
      all_goals simp only [UInt8.le_iff_toNat_le, ← UInt8.toNat_inj, UInt8.reduceToNat]; omega
    by_cases hfour : a.toNat / 8 = 30
    · obtain ⟨b, c, d, rfl, hb, hc, hd, hlead, hlow, hhigh⟩ := (utf8Step_four hfour).mp h
      refine ⟨[a, b, c, d], .four ?_ (tail_iff.mpr hb) ?_ ?_ (tail_iff.mpr hc) (tail_iff.mpr hd), rfl⟩
      all_goals simp only [UInt8.le_iff_toNat_le, ← UInt8.toNat_inj, UInt8.reduceToNat]; omega
    · simp [utf8Step, hraw, htwo, hthree, hfour] at h
  · rintro ⟨char, hchar, rfl⟩
    cases hchar with
    | @one a ha =>
      rw [UInt8.le_iff_toNat_le] at ha
      exact utf8Step_ascii (Nat.lt_succ_of_le ha) after
    | @two a b ha hb =>
      simp only [UInt8.le_iff_toNat_le, UInt8.reduceToNat] at ha
      exact (utf8Step_two (by omega)).mpr ⟨b, rfl, tail_iff.mp hb, by omega⟩
    | @three a b c ha hb hlow hhigh hc =>
      simp only [UInt8.le_iff_toNat_le, ← UInt8.toNat_inj, UInt8.reduceToNat] at ha hlow hhigh
      exact (utf8Step_three (by omega)).mpr ⟨b, c, rfl, tail_iff.mp hb, tail_iff.mp hc, hlow, hhigh⟩
    | @four a b c d ha hb hlow hhigh hc hd =>
      simp only [UInt8.le_iff_toNat_le, ← UInt8.toNat_inj, UInt8.reduceToNat] at ha hlow hhigh
      exact (utf8Step_four (by omega)).mpr
        ⟨b, c, d, rfl, tail_iff.mp hb, tail_iff.mp hc, tail_iff.mp hd, by omega, hlow, hhigh⟩

theorem Utf8Char.length_pos {char : Text} (h : Utf8Char char) : 0 < char.length := by
  cases h <;> exact Nat.succ_pos _

theorem isValidUtf8From_iff : ∀ {fuel : Nat} {text : Text}, text.length ≤ fuel →
    (isValidUtf8From fuel text = true ↔ Utf8Text text)
  | fuel, [], _ => by
    cases fuel <;> exact ⟨fun _ => .nil, fun _ => rfl⟩
  | fuel + 1, c :: text, hfuel => by
    rw [isValidUtf8From]
    constructor
    · intro h
      rcases hstep : utf8Step (c :: text) with _ | after
      · rw [hstep] at h
        cases h
      · rw [hstep] at h
        obtain ⟨char, hchar, heq⟩ := utf8Step_eq_some.mp hstep
        have hlen := congrArg List.length heq
        have hpos := hchar.length_pos
        rw [List.length_append] at hlen
        rw [heq]
        exact .cons hchar ((isValidUtf8From_iff (by omega)).mp h)
    · intro h
      generalize htext : c :: text = whole at h hfuel
      cases h with
      | nil => cases htext
      | @cons char rest hchar hrest =>
        have hstep : utf8Step (char ++ rest) = some rest := utf8Step_eq_some.mpr ⟨char, hchar, rfl⟩
        have hpos := hchar.length_pos
        rw [List.length_append] at hfuel
        simp only [hstep]
        exact (isValidUtf8From_iff (by omega)).mpr hrest
    · simp

theorem isValidUtf8_iff {text : Text} : isValidUtf8 text = true ↔ Utf8Text text :=
  isValidUtf8From_iff (Nat.le_refl _)

/-! ### Escapes -/

theorem mapM_hexValue {digits : Text} {values : List Nat} (h : digits.mapM Char8.hexValue = some values) :
    (∀ c ∈ digits, (Char8.hexValue c).isSome = true) ∧
      values = digits.map fun c => (Char8.hexValue c).getD 0 := by
  induction digits generalizing values with
  | nil =>
    rw [List.mapM_nil] at h
    cases h
    exact ⟨fun c hc => absurd hc List.not_mem_nil, rfl⟩
  | cons c digits ih =>
    simp only [List.mapM_cons, Option.bind_eq_bind, Option.bind_eq_some_iff] at h
    obtain ⟨value, hvalue, rest, hrest, heq⟩ := h
    obtain ⟨hdigits, hmap⟩ := ih hrest
    rw [← Option.some.inj heq, hmap]
    exact ⟨List.forall_mem_cons.mpr ⟨by rw [hvalue]; rfl, hdigits⟩, by rw [List.map_cons, hvalue]; rfl⟩

theorem mapM_hexValue_eq {digits : Text} (h : ∀ c ∈ digits, (Char8.hexValue c).isSome = true) :
    digits.mapM Char8.hexValue = some (digits.map fun c => (Char8.hexValue c).getD 0) := by
  induction digits with
  | nil => rfl
  | cons c digits ih =>
    obtain ⟨hc, hdigits⟩ := List.forall_mem_cons.mp h
    obtain ⟨value, hvalue⟩ := Option.isSome_iff_exists.mp hc
    simp [ih hdigits, hvalue]

theorem parseHex4_eq_ok {text rest : Text} {n : Nat} :
    parseHex4 text = .ok (n, rest) ↔ ∃ code : Hex4, text = code.digits ++ rest ∧ n = code.value := by
  constructor
  · intro h
    rw [parseHex4, fail, fail] at h
    split_ifs at h with hlen
    rcases hdigits : (text.take 4).mapM Char8.hexValue with _ | digits
    · rw [hdigits] at h
      cases h
    · rw [hdigits] at h
      simp only [Except.ok.injEq, Prod.mk.injEq] at h
      obtain ⟨hhex, hvalues⟩ := mapM_hexValue hdigits
      refine ⟨⟨text.take 4, by rw [List.length_take]; omega, hhex⟩, ?_, ?_⟩
      · rw [← h.2, List.take_append_drop]
      · rw [← h.1, hvalues, List.foldl_map]
        rfl
  · rintro ⟨code, rfl, rfl⟩
    have hlen : ¬ (code.digits ++ rest).length < 4 := by
      rw [List.length_append, code.length_eq]
      omega
    rw [parseHex4, if_neg hlen, List.take_left' code.length_eq, List.drop_left' code.length_eq,
      mapM_hexValue_eq code.hex]
    simp only [List.foldl_map]
    rfl

/-- The code point of a pair of surrogates. -/
def pairValue (high low : Nat) : Nat := 0x10000 + (high - 0xD800) * 1024 + (low - 0xDC00)

/-- A low surrogate behind a high one. -/
def parseLow (high : Hex4) (text : Text) : Except Status (Nat × Text) := do
  let (low, text) ← parseHex4 text
  if low < 0xDC00 ∨ 0xDFFF < low then fail .encodingInvalidUtf8 "high surrogate without a low surrogate"
  else .ok (pairValue high.value low, text)

theorem parseLow_eq_ok {high : Hex4} {text rest : Text} {n : Nat} :
    parseLow high text = .ok (n, rest) ↔
      ∃ low, IsLow low ∧ text = low.digits ++ rest ∧ n = pairValue high.value low.value := by
  simp only [parseLow, bind_eq_ok, parseHex4_eq_ok, fail, ite_error_eq_ok, Prod.exists, Except.ok.injEq,
    Prod.mk.injEq]
  constructor
  · rintro ⟨_, _, ⟨low, rfl, rfl⟩, hlow, hn, rfl⟩
    exact ⟨low, ⟨by omega, by omega⟩, rfl, hn.symm⟩
  · rintro ⟨low, hlow, rfl, hn⟩
    exact ⟨_, _, ⟨low, rfl, rfl⟩, by rw [IsLow] at hlow; omega, hn.symm, rfl⟩

theorem parseCodepoint_digits (code : Hex4) (text : Text) :
    parseCodepoint (code.digits ++ text) =
      if IsHigh code then
        if (ascii "\\u").isPrefixOf text then parseLow code (text.drop 2)
        else fail .encodingInvalidUtf8 "lone high surrogate"
      else if IsLow code then fail .encodingInvalidUtf8 "lone low surrogate"
      else .ok (code.value, text) := by
  rw [parseCodepoint, parseHex4_eq_ok.mpr ⟨code, rfl, rfl⟩]
  rfl

theorem parseCodepoint_eq_ok {text rest : Text} {n : Nat} :
    parseCodepoint text = .ok (n, rest) ↔
      (∃ code, ¬ IsHigh code ∧ ¬ IsLow code ∧ text = code.digits ++ rest ∧ n = code.value) ∨
      (∃ high low, IsHigh high ∧ IsLow low ∧ text = high.digits ++ (ascii "\\u" ++ (low.digits ++ rest)) ∧
        n = pairValue high.value low.value) := by
  constructor
  · intro h
    obtain ⟨⟨n, after⟩, hread, -⟩ := bind_eq_ok.mp h
    obtain ⟨code, rfl, rfl⟩ := parseHex4_eq_ok.mp hread
    rw [parseCodepoint_digits] at h
    by_cases hhigh : IsHigh code
    · rw [if_pos hhigh] at h
      by_cases hu : (ascii "\\u").isPrefixOf after = true
      · rw [if_pos hu, parseLow_eq_ok] at h
        obtain ⟨tail, rfl⟩ := List.isPrefixOf_iff_prefix.mp hu
        obtain ⟨low, hlow, htail, hn⟩ := h
        exact .inr ⟨code, low, hhigh, hlow, by rw [← htail]; rfl, hn⟩
      · rw [if_neg hu] at h
        cases h
    · rw [if_neg hhigh, fail, ite_error_eq_ok] at h
      obtain ⟨hlow, heq⟩ := h
      obtain ⟨rfl, rfl⟩ := Prod.mk.inj (Except.ok.inj heq)
      exact .inl ⟨code, hhigh, hlow, rfl, rfl⟩
  · rintro (⟨code, hhigh, hlow, rfl, rfl⟩ | ⟨high, low, hhigh, hlow, rfl, hn⟩)
    · rw [parseCodepoint_digits, if_neg hhigh, if_neg hlow]
    · have hu : (ascii "\\u").isPrefixOf (ascii "\\u" ++ (low.digits ++ rest)) = true :=
        List.isPrefixOf_iff_prefix.mpr (List.prefix_append _ _)
      rw [parseCodepoint_digits, if_pos hhigh, if_pos hu]
      exact parseLow_eq_ok.mpr ⟨low, hlow, rfl, hn⟩

/-- What one round of the loop over a string reads: the items and the bytes they stand for. -/
inductive Chunk : List StringItem → Text → Prop
  | plain (c : UInt8) (h) : Chunk [.plain c h] [c]
  | short (escape : UInt8 × UInt8) (h) : Chunk [.short escape h] [escape.2]
  | unicode (code : Hex4) : ¬ IsHigh code → ¬ IsLow code → Chunk [.unicode code] (appendUtf8 code.value)
  | pair (high low : Hex4) : IsHigh high → IsLow low →
      Chunk [.unicode high, .unicode low] (appendUtf8 (pairValue high.value low.value))

theorem decodeItems_unicode {code : Hex4} (hhigh : ¬ IsHigh code) (hlow : ¬ IsLow code) (rest : List StringItem) :
    decodeItems (.unicode code :: rest) = (decodeItems rest).map (appendUtf8 code.value ++ ·) := by
  rcases rest with _ | ⟨_ | _ | next, rest⟩ <;> simp only [decodeItems, hhigh, hlow, or_self, if_false]

theorem decodeItems_chunk {chunk : List StringItem} {bytes : Text} (h : Chunk chunk bytes) (rest : List StringItem) :
    decodeItems (chunk ++ rest) = (decodeItems rest).map (bytes ++ ·) := by
  cases h with
  | plain c h => rfl
  | short escape h => rfl
  | unicode code hhigh hlow => exact decodeItems_unicode hhigh hlow rest
  | pair high low hhigh hlow =>
    rw [List.cons_append, List.cons_append, List.nil_append, decodeItems, if_pos hhigh, if_pos hlow]
    rfl

theorem exists_chunk {item : StringItem} {items : List StringItem} {out : Text}
    (h : decodeItems (item :: items) = some out) :
    ∃ chunk bytes rest, Chunk chunk bytes ∧ item :: items = chunk ++ rest := by
  cases item with
  | plain c hc => exact ⟨_, _, items, .plain c hc, rfl⟩
  | short escape hc => exact ⟨_, _, items, .short escape hc, rfl⟩
  | unicode code =>
    by_cases hlow : IsLow code
    · have hhigh : ¬ IsHigh code := by
        rw [IsHigh, IsLow] at *
        omega
      rcases items with _ | ⟨_ | _ | next, rest⟩ <;> simp [decodeItems, hlow, hhigh] at h
    by_cases hhigh : IsHigh code
    · rcases items with _ | ⟨_ | _ | next, rest⟩
      · simp [decodeItems, hhigh] at h
      · simp [decodeItems, hhigh] at h
      · simp [decodeItems, hhigh] at h
      · rw [decodeItems, if_pos hhigh] at h
        by_cases hnext : IsLow next
        · exact ⟨_, _, rest, .pair code next hhigh hnext, rfl⟩
        · rw [if_neg hnext] at h
          cases h
    · exact ⟨_, _, items, .unicode code hhigh hlow, rfl⟩

theorem itemsText_append (xs ys : List StringItem) : itemsText (xs ++ ys) = itemsText xs ++ itemsText ys :=
  List.flatMap_append

theorem Chunk.length_pos {chunk : List StringItem} {bytes : Text} (h : Chunk chunk bytes) :
    0 < chunk.length ∧ chunk.length ≤ (itemsText chunk).length := by
  cases h <;> simp [itemsText, StringItem.text]

theorem parseEscape_short {escape : UInt8 × UInt8} (h : escape ∈ shortEscapes) (rest : Text) :
    parseEscape (escape.1 :: rest) = .ok ([escape.2], rest) := by
  simp only [shortEscapes, List.mem_cons, List.not_mem_nil, or_false] at h
  rcases h with rfl | rfl | rfl | rfl | rfl | rfl | rfl | rfl <;> rfl

theorem parseEscape_unicode (rest : Text) :
    parseEscape (0x75 :: rest) = (do
      let (codepoint, rest) ← parseCodepoint rest
      .ok (appendUtf8 codepoint, rest)) := rfl

theorem parseEscape_eq_ok {text rest bytes : Text} :
    parseEscape text = .ok (bytes, rest) ↔ ∃ chunk, Chunk chunk bytes ∧ 0x5C :: text = itemsText chunk ++ rest := by
  constructor
  · intro h
    rcases text with _ | ⟨e, after⟩
    · cases h
    by_cases hshort : ∃ b, (e, b) ∈ shortEscapes
    · obtain ⟨b, hb⟩ := hshort
      rw [parseEscape_short hb] at h
      obtain ⟨rfl, rfl⟩ := Prod.mk.inj (Except.ok.inj h)
      exact ⟨_, .short (e, b) hb, rfl⟩
    by_cases hu : e = 0x75
    · subst hu
      simp only [parseEscape_unicode, bind_eq_ok, parseCodepoint_eq_ok, Prod.exists] at h
      obtain ⟨n, _, hcode | hpair, heq⟩ := h
      · obtain ⟨code, hhigh, hlow, rfl, rfl⟩ := hcode
        obtain ⟨rfl, rfl⟩ := Prod.mk.inj (Except.ok.inj heq)
        refine ⟨_, .unicode code hhigh hlow, ?_⟩
        simp [itemsText, StringItem.text]
      · obtain ⟨high, low, hhigh, hlow, rfl, hn⟩ := hpair
        obtain ⟨rfl, rfl⟩ := Prod.mk.inj (Except.ok.inj heq)
        refine ⟨_, by rw [hn]; exact .pair high low hhigh hlow, ?_⟩
        simp [itemsText, StringItem.text, ascii]
    · have hnone : ∀ p ∈ shortEscapes, e ≠ p.1 := fun p hp he => hshort ⟨p.2, by rw [he]; exact hp⟩
      simp only [shortEscapes, List.forall_mem_cons, List.not_mem_nil, false_imp_iff, implies_true, and_true] at hnone
      obtain ⟨h1, h2, h3, h4, h5, h6, h7, h8⟩ := hnone
      simp [parseEscape, h1, h2, h3, h4, h5, h6, h7, h8, hu, fail] at h
  · rintro ⟨chunk, hchunk, heq⟩
    cases hchunk with
    | plain c hc =>
      obtain ⟨rfl, -⟩ := List.cons.inj heq
      exact absurd rfl hc.2.2
    | short escape hc =>
      obtain ⟨-, rfl⟩ := List.cons.inj heq
      exact parseEscape_short hc rest
    | unicode code hhigh hlow =>
      have htext : text = 0x75 :: (code.digits ++ rest) := by
        simpa [itemsText, StringItem.text] using heq
      rw [htext, parseEscape_unicode, parseCodepoint_eq_ok.mpr (.inl ⟨code, hhigh, hlow, rfl, rfl⟩)]
      rfl
    | pair high low hhigh hlow =>
      have htext : text = 0x75 :: (high.digits ++ (ascii "\\u" ++ (low.digits ++ rest))) := by
        simpa [itemsText, StringItem.text, ascii] using heq
      rw [htext, parseEscape_unicode, parseCodepoint_eq_ok.mpr (.inr ⟨high, low, hhigh, hlow, rfl, rfl⟩)]
      rfl

/-! ### Strings -/

/-- One round of the loop. -/
theorem parseStringFrom_chunk (limits : RuntimeLimits) (fuel : Nat) {chunk : List StringItem} {bytes : Text}
    (h : Chunk chunk bytes) (out rest : Text) :
    parseStringFrom limits (fuel + 1) out (itemsText chunk ++ rest) =
      if limits.maxLeafBytes < (out ++ bytes).length then exceed .limitBytesExceeded "string exceeds the envelope"
      else parseStringFrom limits fuel (out ++ bytes) rest := by
  by_cases hplain : ∃ c hc, chunk = [.plain c hc] ∧ bytes = [c]
  · obtain ⟨c, hc, rfl, rfl⟩ := hplain
    have hctl : ¬ c < 0x20 := by
      have := hc.1
      simp only [UInt8.le_iff_toNat_le, UInt8.lt_iff_toNat_lt] at this ⊢
      omega
    have htext : itemsText [.plain c hc] ++ rest = c :: rest := rfl
    rw [htext, parseStringFrom]
    simp only [beq_iff_eq, hc.2.1, hc.2.2, hctl, if_false]
  · have hhead : ∃ text, itemsText chunk ++ rest = 0x5C :: text := by
      cases h with
      | plain c hc => exact absurd ⟨c, hc, rfl, rfl⟩ hplain
      | short escape hc => exact ⟨_, rfl⟩
      | unicode code hhigh hlow => exact ⟨_, rfl⟩
      | pair high low hhigh hlow => exact ⟨_, rfl⟩
    obtain ⟨text, htext⟩ := hhead
    rw [htext, parseStringFrom, if_neg (by decide), if_pos (by decide), parseEscape_eq_ok.mpr ⟨chunk, h, htext.symm⟩]
    rfl

theorem parseStringFrom_items (limits : RuntimeLimits) (rest : Text) :
    ∀ (fuel : Nat) (items : List StringItem) (out bytes : Text), items.length < fuel →
      decodeItems items = some bytes → Utf8Text (out ++ bytes) → (out ++ bytes).length ≤ limits.maxLeafBytes →
        parseStringFrom limits fuel out (itemsText items ++ 0x22 :: rest) = .ok (out ++ bytes, rest)
  | fuel + 1, [], out, bytes, _, hdecode, hutf, hlen => by
    obtain rfl := Option.some.inj hdecode
    rw [List.append_nil] at hutf hlen ⊢
    have htext : itemsText [] ++ 0x22 :: rest = 0x22 :: rest := rfl
    rw [htext, parseStringFrom, if_pos (by decide), isValidUtf8_iff.mpr hutf]
    simp [not_lt.mpr hlen]
  | fuel + 1, item :: items, out, bytes, hfuel, hdecode, hutf, hlen => by
    obtain ⟨chunk, taken, left, hchunk, hitems⟩ := exists_chunk hdecode
    rw [hitems, decodeItems_chunk hchunk, Option.map_eq_some_iff] at hdecode
    obtain ⟨more, hmore, rfl⟩ := hdecode
    have hpos := hchunk.length_pos
    have hcount := congrArg List.length hitems
    simp only [List.length_append, List.length_cons] at hcount hlen hfuel
    have hfit : ¬ limits.maxLeafBytes < (out ++ taken).length := by
      rw [List.length_append]
      omega
    rw [← List.append_assoc] at hutf
    rw [hitems, itemsText_append, List.append_assoc, parseStringFrom_chunk limits fuel hchunk, if_neg hfit,
      parseStringFrom_items limits rest fuel left (out ++ taken) more (by omega) hmore hutf
        (by simp only [List.length_append]; omega), List.append_assoc]

theorem parseStringFrom_sound (limits : RuntimeLimits) : ∀ (fuel : Nat) {out text read rest : Text},
    parseStringFrom limits fuel out text = .ok (read, rest) →
      ∃ items bytes, text = itemsText items ++ 0x22 :: rest ∧ decodeItems items = some bytes ∧ read = out ++ bytes ∧
        Utf8Text read ∧ read.length ≤ limits.maxLeafBytes
  | 0, _, _, _, _, h => by cases h
  | fuel + 1, _, [], _, _, h => by cases h
  | fuel + 1, out, c :: text, read, rest, h => by
    -- a round that took a chunk goes on with the rest of the text
    have hround : ∀ {chunk bytes after}, Chunk chunk bytes → c :: text = itemsText chunk ++ after →
        parseStringFrom limits fuel (out ++ bytes) after = .ok (read, rest) →
        ∃ items bytes, c :: text = itemsText items ++ 0x22 :: rest ∧ decodeItems items = some bytes ∧
          read = out ++ bytes ∧ Utf8Text read ∧ read.length ≤ limits.maxLeafBytes := by
      intro chunk bytes after hchunk htext hrest
      obtain ⟨items, more, rfl, hdecode, hread, hwithin⟩ := parseStringFrom_sound limits fuel hrest
      refine ⟨chunk ++ items, bytes ++ more, ?_, ?_, ?_, hwithin⟩
      · rw [htext, itemsText_append, List.append_assoc]
      · rw [decodeItems_chunk hchunk, hdecode]
        rfl
      · rw [hread, List.append_assoc]
    rw [parseStringFrom] at h
    by_cases hquote : c = 0x22
    · rw [if_pos (beq_iff_eq.mpr hquote), fail, exceed, ite_error_eq_ok, ite_error_eq_ok] at h
      obtain ⟨hutf, hlen, heq⟩ := h
      obtain ⟨rfl, rfl⟩ := Prod.mk.inj (Except.ok.inj heq)
      rw [hquote]
      exact ⟨[], [], rfl, rfl, (List.append_nil _).symm, isValidUtf8_iff.mp (by simpa using hutf), not_lt.mp hlen⟩
    rw [if_neg (by simpa using hquote)] at h
    by_cases hslash : c = 0x5C
    · simp only [hslash, beq_self_eq_true, if_true, bind_eq_ok, parseEscape_eq_ok, exceed, ite_error_eq_ok,
        Prod.exists] at h
      obtain ⟨bytes, after, ⟨chunk, hchunk, htext⟩, -, hrest⟩ := h
      exact hround hchunk (by rw [hslash]; exact htext) hrest
    · rw [if_neg (by simpa using hslash), fail, exceed, ite_error_eq_ok, ite_error_eq_ok] at h
      obtain ⟨hctl, -, hrest⟩ := h
      exact hround (.plain c ⟨UInt8.not_lt.mp hctl, hquote, hslash⟩) rfl hrest

theorem length_le_itemsText (items : List StringItem) : items.length ≤ (itemsText items).length := by
  induction items with
  | nil => exact Nat.le_refl 0
  | cons item items ih =>
    have hpos : 0 < item.text.length := by cases item <;> exact Nat.succ_pos _
    simp only [itemsText, List.flatMap_cons, List.length_append, List.length_cons] at ih ⊢
    omega

theorem parseString_eq_ok {limits : RuntimeLimits} {text read rest : Text} :
    parseString limits text = .ok (read, rest) ↔
      ∃ items, text = itemsText items ++ 0x22 :: rest ∧ decodeItems items = some read ∧ Utf8Text read ∧
        read.length ≤ limits.maxLeafBytes := by
  constructor
  · intro h
    obtain ⟨items, bytes, htext, hdecode, hread, hwithin⟩ := parseStringFrom_sound limits _ h
    rw [List.nil_append] at hread
    exact ⟨items, htext, by rw [hread]; exact hdecode, hwithin⟩
  · rintro ⟨items, rfl, hdecode, hutf, hlen⟩
    have hcount := length_le_itemsText items
    refine parseStringFrom_items limits rest _ items [] read ?_ hdecode hutf hlen
    simp only [List.length_append, List.length_cons]
    omega

/-! ### Numbers -/

theorem takeWhile_split (text : Text) :
    (∀ c ∈ text.takeWhile Char8.isDigit, Char8.isDigit c = true) ∧
      ∃ after, text = text.takeWhile Char8.isDigit ++ after :=
  ⟨fun _ hc => List.mem_takeWhile_imp hc, _, (List.takeWhile_append_dropWhile).symm⟩

theorem scanInteger_eq_ok {text digits : Text} (h : scanInteger text = .ok digits) :
    digits ≠ [] ∧ (∀ c ∈ digits, Char8.isDigit c = true) ∧ (digits.head? = some 0x30 → digits.length = 1) ∧
      ∃ after, text = digits ++ after := by
  simp only [scanInteger, fail, ite_error_eq_ok, Except.ok.injEq, List.isEmpty_iff] at h
  obtain ⟨hne, hzero, rfl⟩ := h
  obtain ⟨hdigits, hafter⟩ := takeWhile_split text
  refine ⟨hne, hdigits, fun hhead => ?_, hafter⟩
  have hpos := List.length_pos_iff.mpr hne
  have : ¬ 1 < (text.takeWhile Char8.isDigit).length := fun hlong => hzero ⟨hhead, hlong⟩
  omega

theorem scanFraction_eq_ok {text fraction : Text} (h : scanFraction text = .ok fraction) :
    (fraction = [] ∨ ∃ ds, ds ≠ [] ∧ (∀ c ∈ ds, Char8.isDigit c = true) ∧ fraction = 0x2E :: ds) ∧
      ∃ after, text = fraction ++ after := by
  rcases text with _ | ⟨c, text⟩
  · cases h
    exact ⟨.inl rfl, _, rfl⟩
  by_cases hc : c = 0x2E
  · simp only [scanFraction, hc, beq_self_eq_true, if_true, fail, ite_error_eq_ok, Except.ok.injEq,
      List.isEmpty_iff] at h
    obtain ⟨hne, rfl⟩ := h
    obtain ⟨hdigits, after, hafter⟩ := takeWhile_split text
    exact ⟨.inr ⟨_, hne, hdigits, rfl⟩, after, by rw [hc, List.cons_append, ← hafter]⟩
  · rw [scanFraction, if_neg (by simpa using hc)] at h
    cases h
    exact ⟨.inl rfl, _, rfl⟩

theorem exponentSign_cases (text : Text) :
    (exponentSign text = [] ∨ exponentSign text = [0x2B] ∨ exponentSign text = [0x2D]) ∧
      text = exponentSign text ++ text.drop (exponentSign text).length := by
  rcases text with _ | ⟨c, text⟩
  · exact ⟨.inl rfl, rfl⟩
  rw [exponentSign]
  by_cases hplus : c = 0x2B
  · simp [hplus]
  by_cases hminus : c = 0x2D
  · simp [hminus]
  · simp [hplus, hminus]

theorem scanExponent_eq_ok {text exponent : Text} (h : scanExponent text = .ok exponent) :
    (exponent = [] ∨ ∃ e s ds, (e = 0x65 ∨ e = 0x45) ∧ (s = [] ∨ s = [0x2B] ∨ s = [0x2D]) ∧ ds ≠ [] ∧
      (∀ c ∈ ds, Char8.isDigit c = true) ∧ exponent = e :: s ++ ds) ∧ ∃ after, text = exponent ++ after := by
  rcases text with _ | ⟨c, text⟩
  · cases h
    exact ⟨.inl rfl, _, rfl⟩
  by_cases hc : c = 0x65 ∨ c = 0x45
  · have hletter : (c == 0x65 || c == 0x45) = true := by simpa using hc
    simp only [scanExponent, hletter, if_true, fail, ite_error_eq_ok, Except.ok.injEq, List.isEmpty_iff] at h
    obtain ⟨hne, rfl⟩ := h
    obtain ⟨hsign, hsplit⟩ := exponentSign_cases text
    obtain ⟨hdigits, after, hafter⟩ := takeWhile_split (text.drop (exponentSign text).length)
    refine ⟨.inr ⟨c, _, _, hc, hsign, hne, hdigits, rfl⟩, after, ?_⟩
    rw [List.cons_append, List.cons_append, List.append_assoc, ← hafter, ← hsplit]
  · have hletter : (c == 0x65 || c == 0x45) = false := by simpa using hc
    rw [scanExponent, hletter, if_neg Bool.false_ne_true] at h
    cases h
    exact ⟨.inl rfl, _, rfl⟩

/-- An integer of the machine has at most twenty characters, so the parser tries to read it as one. -/
theorem length_text_of_integer? {p : NumberParts} {v : Value} (h : p.integer? = some v) : p.text.length ≤ 20 := by
  have hspelled : p.digits = decimal (digitsValue p.digits) :=
    (decimal_digitsValue p.digits_ne_nil p.digits_all fun hlong hhead => by
      have := p.no_leading_zero hhead
      omega).symm
  rw [NumberParts.integer?] at h
  split_ifs at h with hmark hsign hfits hfits
  · have hlen := length_decimal_le (k := 20) (by decide) (show digitsValue p.digits < 10 ^ 20 by omega)
    rw [← hspelled] at hlen
    have hf : p.fraction = [] := not_not.mp (not_or.mp hmark).1
    have he : p.exponent = [] := not_not.mp (not_or.mp hmark).2
    simpa [NumberParts.text, hsign, hf, he] using hlen
  · have hlen := length_decimal_le (k := 19) (by decide) (show digitsValue p.digits < 10 ^ 19 by omega)
    rw [← hspelled] at hlen
    have hf : p.fraction = [] := not_not.mp (not_or.mp hmark).1
    have he : p.exponent = [] := not_not.mp (not_or.mp hmark).2
    have hs := p.sign_eq.resolve_left hsign
    simp only [NumberParts.text, hs, hf, he, List.append_nil, List.length_append, List.length_singleton]
    omega

theorem integerOf_eq_integer? {p : NumberParts} (hf : p.fraction = []) (he : p.exponent = []) :
    integerOf (!p.sign.isEmpty) p.digits = p.integer? := by
  rw [integerOf, NumberParts.integer?, hf, he]
  rcases p.sign_eq with hs | hs <;> simp [hs]

/-- A number is read as the value it has. -/
theorem numberOf_eq_ok [DoubleChars] {p : NumberParts} {v : Value} : numberOf p = .ok v ↔ p.value? = some v := by
  have hinteger : (if p.fraction.isEmpty && p.exponent.isEmpty && decide (p.text.length ≤ 20) then
      integerOf (!p.sign.isEmpty) p.digits else none) = p.integer? := by
    by_cases hmark : p.fraction = [] ∧ p.exponent = []
    · obtain ⟨hf, he⟩ := hmark
      rw [integerOf_eq_integer? hf he]
      by_cases hlen : p.text.length ≤ 20
      · simp [hf, he, hlen]
      · have hnone : p.integer? = none := by
          rw [Option.eq_none_iff_forall_ne_some]
          exact fun v hv => hlen (length_text_of_integer? hv)
        simp [hnone]
    · have hnone : p.integer? = none := by
        rw [NumberParts.integer?, if_pos (by tauto)]
      have hfalse : (p.fraction.isEmpty && p.exponent.isEmpty) = false := by
        rw [Bool.and_eq_false_iff]
        simpa [or_iff_not_imp_left] using hmark
      rw [hnone, hfalse, Bool.false_and, if_neg Bool.false_ne_true]
  rw [numberOf, NumberParts.value?, hinteger]
  rcases p.integer? with _ | value
  · simp only [Option.none_or]
    cases DoubleChars.fromChars p.text <;> simp [fail]
  · simp

theorem parseNumber_sound [DoubleChars] {text rest : Text} {v : Value} (h : parseNumber text = .ok (v, rest)) :
    ∃ p : NumberParts, text = p.text ++ rest ∧ p.value? = some v := by
  simp only [parseNumber, bind_eq_ok] at h
  obtain ⟨digits, hdigits, fraction, hfraction, exponent, hexponent, h⟩ := h
  obtain ⟨hne, hall, hzero, after, hafter⟩ := scanInteger_eq_ok hdigits
  obtain ⟨hf, after', hafter'⟩ := scanFraction_eq_ok hfraction
  obtain ⟨he, after'', hafter''⟩ := scanExponent_eq_ok hexponent
  generalize hsign : (if text.head? = some 0x2D then [0x2D] else [] : Text) = sign at *
  have hsigns : (sign = [] ∨ sign = [0x2D]) ∧ text = sign ++ text.drop sign.length := by
    rw [← hsign]
    rcases text with _ | ⟨c, text⟩
    · exact ⟨.inl rfl, rfl⟩
    · by_cases hc : c = 0x2D <;> simp [hc]
  let p : NumberParts := ⟨sign, digits, fraction, exponent, hsigns.1, hne, hall, hzero, hf, he⟩
  have htext : text = p.text ++ after'' := by
    have hone : text.drop (sign.length + digits.length) = after := by
      rw [← List.drop_drop, hafter, List.drop_left]
    rw [hone] at hafter'
    have htwo : (fraction ++ after').drop fraction.length = after' := List.drop_left
    rw [hone, hafter', htwo] at hafter''
    rw [hsigns.2, hafter, hafter', hafter'']
    simp only [p, NumberParts.text, List.append_assoc]
  have hread : numberOf p = .ok v ∧ rest = after'' := by
    have hdrop : text.drop (sign ++ digits ++ fraction ++ exponent).length = after'' := by
      rw [htext]
      exact List.drop_left
    rw [hdrop] at h
    have hfrac : p.fraction = fraction := rfl
    have hexp : p.exponent = exponent := rfl
    have hdig : p.digits = digits := rfl
    have hsgn : p.sign = sign := rfl
    have htok : p.text = sign ++ digits ++ fraction ++ exponent := rfl
    rw [numberOf, hfrac, hexp, hdig, hsgn, htok]
    generalize (if fraction.isEmpty && exponent.isEmpty && decide ((sign ++ digits ++ fraction ++ exponent).length ≤ 20) then
      integerOf (!sign.isEmpty) digits else none) = integer at h ⊢
    generalize DoubleChars.fromChars (sign ++ digits ++ fraction ++ exponent) = double at h ⊢
    rcases integer with _ | value
    · rcases double with _ | d
      · cases h
      · obtain ⟨rfl, rfl⟩ := Prod.mk.inj (Except.ok.inj h)
        exact ⟨rfl, rfl⟩
    · obtain ⟨rfl, rfl⟩ := Prod.mk.inj (Except.ok.inj h)
      exact ⟨rfl, rfl⟩
  exact ⟨p, by rw [hread.2]; exact htext, numberOf_eq_ok.mp hread.1⟩

end Json

end DriftObservatory
