import DriftObservatory.Theorems.Tokens

/-! The parser accepts the phrases of the grammar that fit the envelope, and reads each as the value it denotes. -/

namespace DriftObservatory

namespace Json

open Outcome

/-! ### White space -/

theorem exists_blank (text : Text) : ∃ blank : Blank, text = blank.text ++ skipWhitespace text :=
  ⟨⟨text.takeWhile isSpace, fun _ hc => List.mem_takeWhile_imp hc⟩, (List.takeWhile_append_dropWhile).symm⟩

theorem skipWhitespace_blank (blank : Blank) (text : Text) :
    skipWhitespace (blank.text ++ text) = skipWhitespace text := by
  rw [skipWhitespace, List.dropWhile_append_of_pos blank.space]
  rfl

/-- White space ends a number. -/
theorem delimited_blank (blank : Blank) {rest : Text} (h : Delimited rest) : Delimited (blank.text ++ rest) := by
  intro c hc
  rcases htext : blank.text with _ | ⟨d, tail⟩
  · rw [htext] at hc
    exact h c hc
  · rw [htext] at hc
    obtain rfl := Option.mem_some_iff.mp hc
    have hspace := blank.space d (by rw [htext]; exact List.mem_cons_self)
    simp only [isSpace, Bool.or_eq_true, beq_iff_eq] at hspace
    rcases hspace with ((rfl | rfl) | rfl) | rfl <;> decide

/-! ### Scalars -/

namespace Phrase
variable [DoubleChars]

/-- A scalar stands for its value. -/
inductive Scalar : Phrase → Prop
  | null : Scalar .null
  | bool (b : Bool) : Scalar (.bool b)
  | number (parts : NumberParts) : Scalar (.number parts)
  | string (items : List StringItem) : Scalar (.string items)

omit [DoubleChars] in
theorem startsValue_text : ∀ phrase : Phrase, StartsValue phrase.text
  | null => ⟨0x6E, _, rfl, by decide, by decide, by decide⟩
  | bool true => ⟨0x74, _, rfl, by decide, by decide, by decide⟩
  | bool false => ⟨0x66, _, rfl, by decide, by decide, by decide⟩
  | number parts => by
    rw [text]
    exact (startsNumber_parts parts).startsValue
  | string items => ⟨0x22, _, by rw [text, quoted]; rfl, by decide, by decide, by decide⟩
  | list blank elements => ⟨0x5B, _, by rw [text]; rfl, by decide, by decide, by decide⟩
  | object blank members => ⟨0x7B, _, by rw [text]; rfl, by decide, by decide, by decide⟩

omit [DoubleChars] in
theorem length_text_pos (phrase : Phrase) : 0 < phrase.text.length := by
  obtain ⟨c, tail, htext, -⟩ := startsValue_text phrase
  rw [htext]
  exact Nat.succ_pos _

omit [DoubleChars] in
theorem count_pos : ∀ phrase : Phrase, 0 < phrase.count
  | null | bool _ | number _ | string _ => Nat.succ_pos _
  | list _ _ => by
    rw [count]
    omega
  | object _ _ => by
    rw [count]
    omega

end Phrase

section Scalars
variable [DoubleChars] {limits : RuntimeLimits}

omit [DoubleChars] in
theorem parseLiteral_eq_ok {literal : String} {value v : Value} {text rest : Text} :
    parseLiteral literal value text = .ok (v, rest) ↔ v = value ∧ text = ascii literal ++ rest := by
  rw [parseLiteral, fail, ite_ok_eq_ok, List.isPrefixOf_iff_prefix, Prod.mk.injEq]
  constructor
  · rintro ⟨⟨tail, rfl⟩, rfl, rfl⟩
    exact ⟨rfl, by rw [List.drop_left]⟩
  · rintro ⟨rfl, rfl⟩
    exact ⟨List.prefix_append _ _, rfl, List.drop_left⟩

theorem parseScalar_sound {text rest : Text} {v : Value} (h : parseScalar limits text = .ok (v, rest)) :
    ∃ phrase : Phrase, phrase.Scalar ∧ text = phrase.text ++ rest ∧ phrase.denote = some v ∧ phrase.Within limits := by
  rcases text with _ | ⟨c, text⟩
  · cases h
  rw [parseScalar] at h
  by_cases hquote : c = 0x22
  · rw [if_pos (beq_iff_eq.mpr hquote), map_eq_ok] at h
    obtain ⟨⟨read, after⟩, hread, heq⟩ := h
    obtain ⟨rfl, rfl⟩ := Prod.mk.inj heq
    obtain ⟨items, rfl, hdecode, hwithin⟩ := parseString_eq_ok.mp hread
    refine ⟨.string items, .string items, ?_, ?_, fun bytes hbytes => ?_⟩
    · rw [hquote]
      simp [Phrase.text, quoted]
    · rw [Phrase.denote, hdecode]
      rfl
    · rw [hdecode] at hbytes
      rwa [← Option.some.inj hbytes]
  rw [if_neg (by simpa using hquote)] at h
  by_cases ht : c = 0x74
  · rw [if_pos (beq_iff_eq.mpr ht), parseLiteral_eq_ok] at h
    exact ⟨.bool true, .bool true, h.2, by rw [h.1]; rfl, trivial⟩
  rw [if_neg (by simpa using ht)] at h
  by_cases hf : c = 0x66
  · rw [if_pos (beq_iff_eq.mpr hf), parseLiteral_eq_ok] at h
    exact ⟨.bool false, .bool false, h.2, by rw [h.1]; rfl, trivial⟩
  rw [if_neg (by simpa using hf)] at h
  by_cases hn : c = 0x6E
  · rw [if_pos (beq_iff_eq.mpr hn), parseLiteral_eq_ok] at h
    exact ⟨.null, .null, h.2, by rw [h.1]; rfl, trivial⟩
  rw [if_neg (by simpa using hn)] at h
  obtain ⟨parts, htext, hvalue⟩ := parseNumber_sound h
  exact ⟨.number parts, .number parts, htext, hvalue, trivial⟩

theorem parseScalar_complete {phrase : Phrase} {rest : Text} {v : Value} (hscalar : phrase.Scalar)
    (hdenote : phrase.denote = some v) (hwithin : phrase.Within limits) (hrest : Delimited rest) :
    parseScalar limits (phrase.text ++ rest) = .ok (v, rest) := by
  cases hscalar with
  | null =>
    have hliteral : parseLiteral "null" v (ascii "null" ++ rest) = .ok (v, rest) := parseLiteral_eq_ok.mpr ⟨rfl, rfl⟩
    obtain rfl := Option.some.inj hdenote
    exact hliteral
  | bool b =>
    have hliteral : ∀ literal, parseLiteral literal v (ascii literal ++ rest) = .ok (v, rest) :=
      fun literal => parseLiteral_eq_ok.mpr ⟨rfl, rfl⟩
    obtain rfl := Option.some.inj hdenote
    cases b with
    | false => exact hliteral "false"
    | true => exact hliteral "true"
  | number parts =>
    rw [Phrase.text, parseScalar_number (startsNumber_parts parts), parseNumber_text parts hrest,
      numberOf_eq_ok.mpr hdenote]
    rfl
  | string items =>
    rw [Phrase.denote, Option.map_eq_some_iff] at hdenote
    obtain ⟨bytes, hdecode, rfl⟩ := hdenote
    obtain ⟨hutf, hlen⟩ := hwithin bytes hdecode
    have htext : Phrase.text (.string items) ++ rest = 0x22 :: (itemsText items ++ 0x22 :: rest) := by
      simp [Phrase.text, quoted]
    rw [htext, parseScalar, if_pos (by decide), parseString_eq_ok.mpr ⟨items, rfl, hdecode, hutf, hlen⟩]
    rfl

end Scalars

/-! ### Members and separators -/

theorem expect_eq_ok {c : UInt8} {detail : String} {text rest : Text} :
    expect c detail text = .ok rest ↔ text = c :: rest := by
  rcases text with _ | ⟨d, text⟩
  · simp [expect, fail]
  · rw [expect, fail, ite_ok_eq_ok, beq_iff_eq, List.cons.injEq]

theorem parseSeparator_eq_ok {close : UInt8} {unterminated unexpected : String} {text rest : Text} {closed : Bool}
    (hclose : close ≠ 0x2C) : parseSeparator close unterminated unexpected text = .ok (closed, rest) ↔
      text = (if closed then close else 0x2C) :: rest := by
  rcases text with _ | ⟨c, text⟩
  · simp [parseSeparator, fail]
  rw [parseSeparator]
  by_cases hcomma : c = 0x2C
  · subst hcomma
    cases closed <;> simp [hclose.symm]
  by_cases hc : c = close
  · subst hc
    cases closed <;> simp [hclose]
  · cases closed <;> simp [hcomma, hc, fail]

theorem parseKey_eq_ok {limits : RuntimeLimits} {text key rest : Text} :
    parseKey limits text = .ok (key, rest) ↔ ∃ (items : List StringItem) (beforeColon : Blank) (after : Text),
      skipWhitespace text = quoted items ++ (beforeColon.text ++ 0x3A :: after) ∧ rest = skipWhitespace after ∧
        decodeItems items = some key ∧ Utf8Text key ∧ key.length ≤ limits.maxLeafBytes := by
  simp only [parseKey, bind_eq_ok, expect_eq_ok, parseString_eq_ok, exceed, ite_error_eq_ok, not_lt, Prod.exists,
    Except.ok.injEq, Prod.mk.injEq]
  constructor
  · rintro ⟨_, htext, _, after, ⟨items, rfl, hdecode, hwithin⟩, -, tail, hcolon, rfl, rfl⟩
    obtain ⟨blank, hblank⟩ := exists_blank after
    refine ⟨items, blank, tail, ?_, rfl, hdecode, hwithin⟩
    rw [htext, hblank, hcolon]
    simp [quoted]
  · rintro ⟨items, blank, tail, htext, rfl, hdecode, hutf, hlen⟩
    refine ⟨itemsText items ++ 0x22 :: (blank.text ++ 0x3A :: tail), ?_, key, blank.text ++ 0x3A :: tail,
      ⟨items, rfl, hdecode, hutf, hlen⟩, hlen, tail, ?_, rfl, rfl⟩
    · rw [htext]
      simp [quoted]
    · rw [skipWhitespace_blank, skipWhitespace_cons (by decide)]

/-! ### Objects -/

theorem NumberParts.asString_value? [DoubleChars] {p : NumberParts} {v : Value} (h : p.value? = some v) :
    v.asString = none := by
  rw [value?, Option.or_eq_some_iff, Option.map_eq_some_iff] at h
  rcases h with h | ⟨-, d, -, rfl⟩
  · rw [integer?] at h
    split_ifs at h <;> cases h
    · rw [Value.makeUint]
      split_ifs <;> rfl
    · rfl
  · rfl

theorem Phrase.asString_denoteObject {pairs : List (Text × Value)} {v : Value} (h : denoteObject pairs = some v) :
    v.asString = none := by
  rw [denoteObject.eq_def] at h
  split_ifs at h
  split at h
  · split_ifs at h
    · obtain ⟨raw, -, rfl⟩ := Option.map_eq_some_iff.mp h
      rfl
    · cases h
      rfl
  · cases h
    rfl

/-- The digits of a byte string are a string of the document. -/
theorem Phrase.length_asString [DoubleChars] {limits : RuntimeLimits} {phrase : Phrase} {v : Value} {hex : Text}
    (hdenote : phrase.denote = some v) (hwithin : phrase.Within limits) (hhex : v.asString = some hex) :
    hex.length ≤ limits.maxLeafBytes := by
  cases phrase with
  | null =>
    obtain rfl := Option.some.inj hdenote
    cases hhex
  | bool b =>
    obtain rfl := Option.some.inj hdenote
    cases hhex
  | number parts =>
    rw [NumberParts.asString_value? hdenote] at hhex
    cases hhex
  | string items =>
    rw [denote, Option.map_eq_some_iff] at hdenote
    obtain ⟨bytes, hdecode, rfl⟩ := hdenote
    cases hhex
    exact (hwithin _ hdecode).2
  | list blank elements =>
    rw [denote, Option.map_eq_some_iff] at hdenote
    obtain ⟨values, -, rfl⟩ := hdenote
    cases hhex
  | object blank members =>
    rw [denote, Option.bind_eq_some_iff] at hdenote
    obtain ⟨pairs, -, hobject⟩ := hdenote
    rw [asString_denoteObject hobject] at hhex
    cases hhex

/-- The members of an object, added to those that were read before. -/
def addAll (map : OrdMap Text Value) (pairs : List (Text × Value)) : OrdMap Text Value :=
  pairs.foldl (fun m e => m.insert e.1 e.2) map

/-- The names are distinct, and none was read before. -/
def Fresh (map : OrdMap Text Value) (pairs : List (Text × Value)) : Prop :=
  (pairs.map Prod.fst).Nodup ∧ ∀ e ∈ pairs, map.contains e.1 = false

theorem fresh_cons {map : OrdMap Text Value} {key : Text} {member : Value} {pairs : List (Text × Value)} :
    Fresh map ((key, member) :: pairs) ↔ map.contains key = false ∧ Fresh (map.insert key member) pairs := by
  have hinsert : ∀ e : Text × Value, (map.insert key member).contains e.1 = false ↔
      key ≠ e.1 ∧ map.contains e.1 = false := by
    intro e
    rw [← Bool.not_eq_true, OrdMap.contains_insert, not_or, Bool.not_eq_true]
  simp only [Fresh, List.map_cons, List.nodup_cons, List.forall_mem_cons, hinsert, List.mem_map, not_exists, not_and]
  constructor
  · rintro ⟨⟨hkey, hnodup⟩, hnew, hrest⟩
    exact ⟨hnew, hnodup, fun e he => ⟨fun heq => hkey e he heq.symm, hrest e he⟩⟩
  · rintro ⟨hnew, hnodup, hrest⟩
    exact ⟨⟨fun e he heq => (hrest e he).1 heq.symm, hnodup⟩, hnew, fun e he => (hrest e he).2⟩

theorem size_addAll {pairs : List (Text × Value)} {map : OrdMap Text Value} (h : Fresh map pairs) :
    (addAll map pairs).size = pairs.length + map.size := by
  have hperm := (OrdMap.perm_entries_foldl_insert_of_nodup h.1 h.2).length_eq
  rwa [List.length_append] at hperm

theorem finishObject_denoteObject {limits : RuntimeLimits} {pairs : List (Text × Value)} {v : Value}
    (hnodup : (pairs.map Prod.fst).Nodup)
    (hhex : ∀ e ∈ pairs, ∀ hex, e.2.asString = some hex → hex.length ≤ limits.maxLeafBytes) :
    finishObject limits (addAll ∅ pairs) = .ok v ↔ Phrase.denoteObject pairs = some v := by
  have hsize : (addAll ∅ pairs).size = pairs.length := by
    rw [size_addAll ⟨hnodup, fun _ _ => rfl⟩]
    rfl
  rw [Phrase.denoteObject.eq_def, if_pos hnodup, finishObject, hsize]
  rcases pairs with _ | ⟨⟨name, member⟩, _ | ⟨e, pairs⟩⟩
  · simp [addAll, OrdMap.ofList]
    rfl
  · have hfind : (addAll ∅ [(name, member)]).find? kBytesMember = if name = kBytesMember then some member else none := by
      rw [addAll, List.foldl_cons, List.foldl_nil, OrdMap.find?_insert]
      congr
    have hlist : addAll ∅ [(name, member)] = OrdMap.ofList [(name, member)] := rfl
    rw [List.length_singleton, if_pos rfl, hfind, hlist]
    by_cases hname : name = kBytesMember
    · simp only [hname, if_true]
      rcases hstring : member.asString with _ | hex
      · simp [fail]
      rcases hraw : fromHex hex with _ | raw
      · simp [fail, hraw]
      have hlen := hhex _ List.mem_cons_self hex hstring
      rw [length_of_fromHex hraw] at hlen
      have hfit : ¬ limits.maxLeafBytes < raw.length := by omega
      simp [hraw, hfit]
    · simp [hname]
  · simp [addAll, OrdMap.ofList]
    rfl

/-! ### What reading a phrase requires and returns -/

section Admitted
variable [DoubleChars] (limits : RuntimeLimits)

/-- The phrase stands for `v` and fits the envelope at this depth, behind `nodes` values and up to `n` values. -/
structure Admitted (depth nodes : Nat) (phrase : Phrase) (v : Value) (n : Nat) : Prop where
  denotes : phrase.denote = some v
  within : phrase.Within limits
  deep : depth + phrase.depth ≤ limits.maxValueDepth
  counted : n = nodes + phrase.count
  few : n ≤ limits.maxValueNodes

structure AdmittedElements (depth nodes : Nat) (elements : List (Gap × Phrase)) (values : List Value) (n : Nat) :
    Prop where
  denotes : Phrase.denoteElements elements = some values
  within : Phrase.WithinElements limits elements
  deep : depth + Phrase.depthElements elements ≤ limits.maxValueDepth
  counted : n = nodes + Phrase.countElements elements
  few : n ≤ limits.maxValueNodes

structure AdmittedMembers (depth nodes : Nat) (members : List (Label × Phrase)) (pairs : List (Text × Value)) (n : Nat) :
    Prop where
  denotes : Phrase.denoteMembers members = some pairs
  within : Phrase.WithinMembers limits members
  deep : depth + Phrase.depthMembers members ≤ limits.maxValueDepth
  counted : n = nodes + Phrase.countMembers members
  few : n ≤ limits.maxValueNodes

variable {limits} {depth nodes n : Nat}

theorem admittedElements_nil {values : List Value} :
    AdmittedElements limits depth nodes [] values n ↔
      values = [] ∧ depth ≤ limits.maxValueDepth ∧ nodes ≤ limits.maxValueNodes ∧ n = nodes := by
  constructor
  · rintro ⟨hdenote, -, hdeep, hn, hmax⟩
    exact ⟨(Option.some.inj hdenote).symm, hdeep, hn.symm.trans_le hmax, hn⟩
  · rintro ⟨rfl, hdeep, hmax, rfl⟩
    exact ⟨rfl, trivial, hdeep, rfl, hmax⟩

theorem admittedElements_cons {gap : Gap} {phrase : Phrase} {rest : List (Gap × Phrase)} {values : List Value} :
    AdmittedElements limits depth nodes ((gap, phrase) :: rest) values n ↔ ∃ v vs m, values = v :: vs ∧
      Admitted limits (depth + 1) nodes phrase v m ∧ AdmittedElements limits depth m rest vs n := by
  constructor
  · rintro ⟨hdenote, hwithin, hdeep, hn, hmax⟩
    simp only [Phrase.denoteElements, Option.bind_eq_some_iff, Option.map_eq_some_iff] at hdenote
    obtain ⟨v, hv, vs, hvs, rfl⟩ := hdenote
    rw [Phrase.depthElements] at hdeep
    rw [Phrase.countElements] at hn
    exact ⟨v, vs, nodes + phrase.count, rfl, ⟨hv, hwithin.1, by omega, rfl, by omega⟩,
      ⟨hvs, hwithin.2, by omega, by omega, hmax⟩⟩
  · rintro ⟨v, vs, m, rfl, ⟨hv, hwithin, hdeep, rfl, -⟩, ⟨hvs, hwithins, hdeeps, rfl, hmax⟩⟩
    refine ⟨?_, ⟨hwithin, hwithins⟩, ?_, ?_, hmax⟩
    · rw [Phrase.denoteElements, hv, Option.bind_some, hvs]
      rfl
    · rw [Phrase.depthElements]
      omega
    · rw [Phrase.countElements, Nat.add_assoc]

theorem admittedMembers_nil {pairs : List (Text × Value)} :
    AdmittedMembers limits depth nodes [] pairs n ↔
      pairs = [] ∧ depth ≤ limits.maxValueDepth ∧ nodes ≤ limits.maxValueNodes ∧ n = nodes := by
  constructor
  · rintro ⟨hdenote, -, hdeep, hn, hmax⟩
    exact ⟨(Option.some.inj hdenote).symm, hdeep, hn.symm.trans_le hmax, hn⟩
  · rintro ⟨rfl, hdeep, hmax, rfl⟩
    exact ⟨rfl, trivial, hdeep, rfl, hmax⟩

theorem admittedMembers_cons {label : Label} {phrase : Phrase} {rest : List (Label × Phrase)}
    {pairs : List (Text × Value)} :
    AdmittedMembers limits depth nodes ((label, phrase) :: rest) pairs n ↔ ∃ key v more m, pairs = (key, v) :: more ∧
      decodeItems label.name = some key ∧ Utf8Text key ∧ key.length ≤ limits.maxLeafBytes ∧
      Admitted limits (depth + 1) nodes phrase v m ∧ AdmittedMembers limits depth m rest more n := by
  constructor
  · rintro ⟨hdenote, ⟨hname, hwithin, hwithins⟩, hdeep, hn, hmax⟩
    simp only [Phrase.denoteMembers, Option.bind_eq_some_iff, Option.map_eq_some_iff] at hdenote
    obtain ⟨key, hkey, v, hv, more, hmore, rfl⟩ := hdenote
    rw [Phrase.depthMembers] at hdeep
    rw [Phrase.countMembers] at hn
    exact ⟨key, v, more, nodes + phrase.count, rfl, hkey, (hname key hkey).1, (hname key hkey).2,
      ⟨hv, hwithin, by omega, rfl, by omega⟩, ⟨hmore, hwithins, by omega, by omega, hmax⟩⟩
  · rintro ⟨key, v, more, m, rfl, hkey, hutf, hlen, ⟨hv, hwithin, hdeep, rfl, -⟩, ⟨hmore, hwithins, hdeeps, rfl, hmax⟩⟩
    refine ⟨?_, ⟨fun bytes hbytes => ?_, hwithin, hwithins⟩, ?_, ?_, hmax⟩
    · rw [Phrase.denoteMembers, hkey, Option.bind_some, hv, Option.bind_some, hmore]
      rfl
    · rw [hkey] at hbytes
      rw [← Option.some.inj hbytes]
      exact ⟨hutf, hlen⟩
    · rw [Phrase.depthMembers]
      omega
    · rw [Phrase.countMembers, Nat.add_assoc]

/-- The members that are strings fit a leaf. -/
theorem AdmittedMembers.length_asString : ∀ {members : List (Label × Phrase)} {nodes : Nat}
    {pairs : List (Text × Value)}, AdmittedMembers limits depth nodes members pairs n →
    pairs.length = members.length ∧
      ∀ e ∈ pairs, ∀ hex, e.2.asString = some hex → hex.length ≤ limits.maxLeafBytes
  | [], nodes, pairs, h => by
    obtain ⟨rfl, -⟩ := admittedMembers_nil.mp h
    exact ⟨rfl, fun e he => absurd he List.not_mem_nil⟩
  | (label, phrase) :: rest, nodes, pairs, h => by
    obtain ⟨key, v, more, m, rfl, -, -, -, hphrase, hrest⟩ := admittedMembers_cons.mp h
    obtain ⟨hcount, hmore⟩ := hrest.length_asString
    exact ⟨congrArg (· + 1) hcount, List.forall_mem_cons.mpr
      ⟨fun hex hhex => Phrase.length_asString hphrase.denotes hphrase.within hhex, hmore⟩⟩

end Admitted

/-! ### The parser accepts phrases only -/

theorem Phrase.elementsText_false (e : Gap × Phrase) (es : List (Gap × Phrase)) :
    elementsText false (e :: es) = 0x2C :: elementsText true (e :: es) := by
  obtain ⟨gap, phrase⟩ := e
  simp only [elementsText, if_true, if_neg Bool.false_ne_true, List.nil_append, List.cons_append]

theorem Phrase.membersText_false (e : Label × Phrase) (es : List (Label × Phrase)) :
    membersText false (e :: es) = 0x2C :: membersText true (e :: es) := by
  obtain ⟨label, phrase⟩ := e
  simp only [membersText, if_true, if_neg Bool.false_ne_true, List.nil_append, List.cons_append]

theorem exists_of_head? {text : Text} {c : UInt8} (h : text.head? = some c) : ∃ tail, text = c :: tail :=
  ⟨text.tail, (List.cons_head?_tail h).symm⟩

section Sound
variable [DoubleChars] {limits : RuntimeLimits}

mutual

theorem parseValue_sound : ∀ (fuel : Nat) {depth nodes n : Nat} {text rest : Text} {v : Value},
    parseValue limits fuel depth nodes text = .ok (v, rest, n) →
      ∃ phrase, text = Phrase.text phrase ++ rest ∧ Admitted limits depth nodes phrase v n
  | 0, _, _, _, _, _, _, h => by
    rw [parseValue] at h
    cases h
  | fuel + 1, depth, nodes, n, text, rest, v, h => by
    rw [parseValue, bind_eq_ok] at h
    obtain ⟨m, hm, h⟩ := h
    obtain ⟨hdeep, hnodes, rfl⟩ := admitNode_eq_ok.mp hm
    by_cases hbrace : text.head? = some 0x7B
    · rw [if_pos hbrace] at h
      obtain ⟨tail, rfl⟩ := exists_of_head? hbrace
      obtain ⟨blank, hblank⟩ := exists_blank tail
      rw [List.tail_cons] at h
      by_cases hclose : (skipWhitespace tail).head? = some 0x7D
      · obtain ⟨after, hafter⟩ := exists_of_head? hclose
        simp only [hafter, List.head?_cons, if_true, List.tail_cons, bind_eq_ok, Except.ok.injEq, Prod.mk.injEq] at h
        obtain ⟨_, hfinish, rfl, rfl, rfl⟩ := h
        obtain rfl := Except.ok.inj hfinish
        refine ⟨.object blank [], ?_, ⟨rfl, ⟨Nat.zero_le _, trivial⟩, hdeep, rfl, hnodes⟩⟩
        rw [hblank, hafter]
        simp [Phrase.text, Phrase.membersText]
      · rw [if_neg hclose] at h
        obtain ⟨first, members, pairs, htext, hadm, hfresh, hsize, hfinish⟩ := parseMembers_sound fuel h
        refine ⟨.object blank (first :: members), ?_, ⟨?_, ⟨?_, hadm.within⟩, hadm.deep, ?_, hadm.few⟩⟩
        · rw [hblank, htext]
          simp [Phrase.text]
        · rw [Phrase.denote, hadm.denotes, Option.bind_some]
          exact (finishObject_denoteObject hfresh.1 hadm.length_asString.2).mp hfinish
        · rw [← hadm.length_asString.1]
          exact (Nat.zero_add _).symm.trans_le hsize
        · rw [hadm.counted, Phrase.count, Nat.add_assoc]
    rw [if_neg hbrace] at h
    by_cases hbracket : text.head? = some 0x5B
    · rw [if_pos hbracket] at h
      obtain ⟨tail, rfl⟩ := exists_of_head? hbracket
      obtain ⟨blank, hblank⟩ := exists_blank tail
      rw [List.tail_cons] at h
      by_cases hclose : (skipWhitespace tail).head? = some 0x5D
      · obtain ⟨after, hafter⟩ := exists_of_head? hclose
        simp only [hafter, List.head?_cons, if_true, List.tail_cons, Except.ok.injEq, Prod.mk.injEq] at h
        obtain ⟨rfl, rfl, rfl⟩ := h
        refine ⟨.list blank [], ?_, ⟨rfl, trivial, hdeep, rfl, hnodes⟩⟩
        rw [hblank, hafter]
        simp [Phrase.text, Phrase.elementsText]
      · rw [if_neg hclose] at h
        obtain ⟨first, elements, values, htext, hadm, rfl⟩ := parseElements_sound fuel h
        refine ⟨.list blank (first :: elements), ?_, ⟨?_, hadm.within, hadm.deep, ?_, hadm.few⟩⟩
        · rw [hblank, htext]
          simp [Phrase.text]
        · rw [Phrase.denote, hadm.denotes]
          rfl
        · rw [hadm.counted, Phrase.count, Nat.add_assoc]
    rw [if_neg hbracket, bind_eq_ok] at h
    obtain ⟨⟨value, after⟩, hread, heq⟩ := h
    simp only [Except.ok.injEq, Prod.mk.injEq] at heq
    obtain ⟨rfl, rfl, rfl⟩ := heq
    obtain ⟨phrase, hscalar, htext, hdenote, hwithin⟩ := parseScalar_sound hread
    refine ⟨phrase, htext, ⟨hdenote, hwithin, ?_, ?_, hnodes⟩⟩
    · cases hscalar <;> exact hdeep
    · cases hscalar <;> rfl
termination_by structural fuel => fuel

theorem parseMembers_sound : ∀ (fuel : Nat) {depth nodes n : Nat} {map : OrdMap Text Value} {text rest : Text}
    {v : Value}, parseMembers limits fuel depth nodes map text = .ok (v, rest, n) →
      ∃ first members pairs, text = Phrase.membersText true (first :: members) ++ 0x7D :: rest ∧
        AdmittedMembers limits depth nodes (first :: members) pairs n ∧ Fresh map pairs ∧
        map.size + pairs.length ≤ limits.maxFieldsPerObject ∧ finishObject limits (addAll map pairs) = .ok v
  | 0, _, _, _, _, _, _, _, h => by
    rw [parseMembers] at h
    cases h
  | fuel + 1, depth, nodes, n, map, text, rest, v, h => by
    simp only [parseMembers, bind_eq_ok, addMember_eq_ok, Prod.exists] at h
    obtain ⟨key, text₁, hkey, member, text₂, m, hvalue, _, ⟨hnew, hfields, rfl⟩, closed, text₃, hsep, h⟩ := h
    obtain ⟨items, beforeColon, after, hskip, rfl, hdecode, hutf, hlen⟩ := parseKey_eq_ok.mp hkey
    obtain ⟨phrase, hphrase, hadm⟩ := parseValue_sound fuel hvalue
    rw [parseSeparator_eq_ok (by decide)] at hsep
    obtain ⟨before, hbefore⟩ := exists_blank text
    obtain ⟨afterColon, hafterColon⟩ := exists_blank after
    obtain ⟨behind, hbehind⟩ := exists_blank text₂
    let label : Label := ⟨before, items, beforeColon, afterColon, behind⟩
    have hsize : (map.insert key member).size = map.size + 1 := by
      rw [OrdMap.size_insert, hnew, if_neg Bool.false_ne_true]
    have htext : text = label.text ++ phrase.text ++ behind.text ++ (if closed then 0x7D else 0x2C) :: text₃ := by
      rw [hbefore, hskip, hafterColon, hphrase, hbehind, hsep]
      simp [label, Label.text]
    cases closed with
    | true =>
      simp only [if_true, bind_eq_ok, Except.ok.injEq, Prod.mk.injEq] at h
      obtain ⟨_, hfinish, rfl, rfl, rfl⟩ := h
      refine ⟨(label, phrase), [], [(key, member)], ?_, ?_, ?_, ?_, hfinish⟩
      · rw [htext]
        simp [Phrase.membersText, label]
      · have hdeep := hadm.deep
        exact admittedMembers_cons.mpr ⟨key, member, [], m, rfl, hdecode, hutf, hlen, hadm,
          admittedMembers_nil.mpr ⟨rfl, by omega, hadm.few, rfl⟩⟩
      · exact fresh_cons.mpr ⟨hnew, List.nodup_nil, fun e he => absurd he List.not_mem_nil⟩
      · exact hsize.symm.trans_le hfields
    | false =>
      rw [if_neg Bool.false_ne_true] at h
      obtain ⟨next, members, pairs, rfl, hmembers, hfresh, hcount, hfinish⟩ := parseMembers_sound fuel h
      refine ⟨(label, phrase), next :: members, (key, member) :: pairs, ?_, ?_, ?_, ?_, hfinish⟩
      · rw [htext, Phrase.membersText.eq_2 true label phrase, Phrase.membersText_false]
        simp [label]
      · exact admittedMembers_cons.mpr ⟨key, member, pairs, m, rfl, hdecode, hutf, hlen, hadm, hmembers⟩
      · exact fresh_cons.mpr ⟨hnew, hfresh⟩
      · rw [List.length_cons]
        omega
termination_by structural fuel => fuel

theorem parseElements_sound : ∀ (fuel : Nat) {depth nodes n : Nat} {list : List Value} {text rest : Text} {v : Value},
    parseElements limits fuel depth nodes list text = .ok (v, rest, n) →
      ∃ first elements values, text = Phrase.elementsText true (first :: elements) ++ 0x5D :: rest ∧
        AdmittedElements limits depth nodes (first :: elements) values n ∧ v = .makeList (list ++ values)
  | 0, _, _, _, _, _, _, _, h => by
    rw [parseElements] at h
    cases h
  | fuel + 1, depth, nodes, n, list, text, rest, v, h => by
    simp only [parseElements, bind_eq_ok, addElement_eq_ok, Prod.exists] at h
    obtain ⟨element, text₁, m, hvalue, _, ⟨-, rfl⟩, closed, text₂, hsep, h⟩ := h
    obtain ⟨phrase, hphrase, hadm⟩ := parseValue_sound fuel hvalue
    rw [parseSeparator_eq_ok (by decide)] at hsep
    obtain ⟨before, hbefore⟩ := exists_blank text
    obtain ⟨behind, hbehind⟩ := exists_blank text₁
    let gap : Gap := ⟨before, behind⟩
    have htext : text = before.text ++ phrase.text ++ behind.text ++ (if closed then 0x5D else 0x2C) :: text₂ := by
      rw [hbefore, hphrase, hbehind, hsep]
      simp
    cases closed with
    | true =>
      simp only [if_true, Except.ok.injEq, Prod.mk.injEq] at h
      obtain ⟨rfl, rfl, rfl⟩ := h
      have hdeep := hadm.deep
      refine ⟨(gap, phrase), [], [element], ?_, ?_, rfl⟩
      · rw [htext]
        simp [Phrase.elementsText, gap]
      · exact admittedElements_cons.mpr ⟨element, [], m, rfl, hadm,
          admittedElements_nil.mpr ⟨rfl, by omega, hadm.few, rfl⟩⟩
    | false =>
      rw [if_neg Bool.false_ne_true] at h
      obtain ⟨next, elements, values, rfl, helements, rfl⟩ := parseElements_sound fuel h
      refine ⟨(gap, phrase), next :: elements, element :: values, ?_, ?_, ?_⟩
      · rw [htext, Phrase.elementsText.eq_2 true gap phrase, Phrase.elementsText_false]
        simp [gap]
      · exact admittedElements_cons.mpr ⟨element, values, m, rfl, hadm, helements⟩
      · rw [List.append_assoc, List.singleton_append]
termination_by structural fuel => fuel

end

end Sound

/-! ### The parser accepts every phrase -/

section Complete
variable [DoubleChars] {limits : RuntimeLimits} {fuel depth nodes : Nat}

/-- The loops skip the white space before an element or a member. -/
theorem parseElements_congr {list : List Value} {text text' : Text} (h : skipWhitespace text = skipWhitespace text') :
    parseElements limits fuel depth nodes list text = parseElements limits fuel depth nodes list text' := by
  cases fuel with
  | zero => rw [parseElements, parseElements]
  | succ fuel => rw [parseElements, parseElements, h]

theorem parseMembers_congr {map : OrdMap Text Value} {text text' : Text} (h : skipWhitespace text = skipWhitespace text') :
    parseMembers limits fuel depth nodes map text = parseMembers limits fuel depth nodes map text' := by
  cases fuel with
  | zero => rw [parseMembers, parseMembers]
  | succ fuel => rw [parseMembers, parseMembers, parseKey, parseKey, h]

theorem parseValue_elements (hadm : admitNode limits depth nodes = .ok (nodes + 1)) {blank : Blank} {text : Text}
    (h : StartsValue (skipWhitespace text)) :
    parseValue limits (fuel + 1) depth nodes (0x5B :: (blank.text ++ text)) =
      parseElements limits fuel depth (nodes + 1) [] text := by
  have hskip : skipWhitespace (blank.text ++ text) = skipWhitespace text := skipWhitespace_blank blank text
  have hidem : skipWhitespace (skipWhitespace text) = skipWhitespace text := h.skipWhitespace
  obtain ⟨c, tail, htext, -, hclose, -⟩ := h
  have hhead : ¬ (skipWhitespace text).head? = some 0x5D := by
    rw [htext]
    simpa using hclose
  rw [parseValue, hadm, ok_bind, if_neg (by simp), if_pos (by simp)]
  simp only [List.tail_cons, hskip, if_neg hhead]
  exact parseElements_congr hidem

theorem parseValue_members (hadm : admitNode limits depth nodes = .ok (nodes + 1)) {blank : Blank} {text : Text}
    (h : StartsValue (skipWhitespace text)) :
    parseValue limits (fuel + 1) depth nodes (0x7B :: (blank.text ++ text)) =
      parseMembers limits fuel depth (nodes + 1) ∅ text := by
  have hskip : skipWhitespace (blank.text ++ text) = skipWhitespace text := skipWhitespace_blank blank text
  have hidem : skipWhitespace (skipWhitespace text) = skipWhitespace text := h.skipWhitespace
  obtain ⟨c, tail, htext, -, -, hclose⟩ := h
  have hhead : ¬ (skipWhitespace text).head? = some 0x7D := by
    rw [htext]
    simpa using hclose
  rw [parseValue, hadm, ok_bind, if_pos (by simp)]
  simp only [List.tail_cons, hskip, if_neg hhead]
  exact parseMembers_congr hidem

theorem parseValue_of_scalar {phrase : Phrase} {v : Value} {rest : Text} {n : Nat} (hscalar : phrase.Scalar)
    (hrest : Delimited rest) (h : Admitted limits depth nodes phrase v n) :
    parseValue limits (fuel + 1) depth nodes (phrase.text ++ rest) = .ok (v, rest, n) := by
  have hread := parseScalar_complete hscalar h.denotes h.within hrest
  have hcount : phrase.count = 1 := by cases hscalar <;> rfl
  have hn : n = nodes + 1 := by rw [h.counted, hcount]
  have hfew := h.few
  have hdeep := h.deep
  have hadm : admitNode limits depth nodes = .ok n := admitNode_eq_ok.mpr ⟨by omega, by omega, hn⟩
  have hhead : (phrase.text ++ rest).head? ≠ some 0x7B ∧ (phrase.text ++ rest).head? ≠ some 0x5B := by
    cases hscalar with
    | null => exact ⟨by simp [Phrase.text, ascii], by simp [Phrase.text, ascii]⟩
    | bool b => cases b <;> exact ⟨by simp [Phrase.text, ascii], by simp [Phrase.text, ascii]⟩
    | number parts =>
      obtain ⟨c, tail, htext, hc⟩ := startsNumber_parts parts
      obtain ⟨-, -, -, hbrace, hbracket, -⟩ := number_byte hc
      rw [Phrase.text, htext]
      exact ⟨by simpa using hbrace, by simpa using hbracket⟩
    | string items => exact ⟨by simp [Phrase.text, quoted], by simp [Phrase.text, quoted]⟩
  rw [parseValue, hadm, ok_bind, if_neg hhead.1, if_neg hhead.2, hread]
  rfl

mutual

theorem parseValue_complete : ∀ (fuel : Nat) {phrase : Phrase} {depth nodes n : Nat} {v : Value} {rest : Text},
    2 * phrase.text.length ≤ fuel → Delimited rest → Admitted limits depth nodes phrase v n →
      parseValue limits fuel depth nodes (phrase.text ++ rest) = .ok (v, rest, n)
  | 0, phrase, _, _, _, _, _, hfuel, _, _ => by
    have := phrase.length_text_pos
    omega
  | fuel + 1, .null, _, _, _, _, _, _, hrest, h => parseValue_of_scalar .null hrest h
  | fuel + 1, .bool b, _, _, _, _, _, _, hrest, h => parseValue_of_scalar (.bool b) hrest h
  | fuel + 1, .number parts, _, _, _, _, _, _, hrest, h => parseValue_of_scalar (.number parts) hrest h
  | fuel + 1, .string items, _, _, _, _, _, _, hrest, h => parseValue_of_scalar (.string items) hrest h
  | fuel + 1, .list blank elements, depth, nodes, n, v, rest, hfuel, hrest, ⟨hdenote, hwithin, hdeep, hn, hfew⟩ => by
    rw [Phrase.denote, Option.map_eq_some_iff] at hdenote
    obtain ⟨values, hvalues, rfl⟩ := hdenote
    rw [Phrase.count] at hn
    have hadm : admitNode limits depth nodes = .ok (nodes + 1) := admitNode_eq_ok.mpr ⟨by omega, by omega, rfl⟩
    have htext : Phrase.text (.list blank elements) ++ rest =
        0x5B :: (blank.text ++ (Phrase.elementsText true elements ++ 0x5D :: rest)) := by
      simp [Phrase.text]
    rw [htext]
    have helements : AdmittedElements limits depth (nodes + 1) elements values n :=
      ⟨hvalues, hwithin, hdeep, by omega, hfew⟩
    rcases elements with _ | ⟨⟨gap, phrase⟩, elements⟩
    · obtain ⟨rfl, -, -, rfl⟩ := admittedElements_nil.mp helements
      rw [parseValue, hadm, ok_bind, if_neg (by simp), if_pos (by simp)]
      simp only [List.tail_cons, Phrase.elementsText, List.nil_append, skipWhitespace_blank]
      rw [skipWhitespace_cons (by decide)]
      rfl
    · rw [Phrase.text] at hfuel
      simp only [List.length_append, List.length_cons, List.length_nil] at hfuel
      rw [parseValue_elements hadm, parseElements_complete fuel (by omega) helements (Nat.zero_le _)]
      · rfl
      · rw [Phrase.elementsText]
        simp only [if_true, List.nil_append, List.append_assoc, skipWhitespace_blank]
        rw [(phrase.startsValue_text.append _).skipWhitespace]
        exact phrase.startsValue_text.append _
  | fuel + 1, .object blank members, depth, nodes, n, v, rest, hfuel, hrest, ⟨hdenote, hwithin, hdeep, hn, hfew⟩ => by
    rw [Phrase.denote, Option.bind_eq_some_iff] at hdenote
    obtain ⟨pairs, hpairs, hobject⟩ := hdenote
    rw [Phrase.count] at hn
    have hadm : admitNode limits depth nodes = .ok (nodes + 1) := admitNode_eq_ok.mpr ⟨by omega, by omega, rfl⟩
    have htext : Phrase.text (.object blank members) ++ rest =
        0x7B :: (blank.text ++ (Phrase.membersText true members ++ 0x7D :: rest)) := by
      simp [Phrase.text]
    rw [htext]
    have hmembers : AdmittedMembers limits depth (nodes + 1) members pairs n :=
      ⟨hpairs, hwithin.2, hdeep, by omega, hfew⟩
    obtain ⟨hlength, hhex⟩ := hmembers.length_asString
    have hnodup : (pairs.map Prod.fst).Nodup := by
      by_contra hdup
      rw [Phrase.denoteObject.eq_def, if_neg hdup] at hobject
      cases hobject
    have hfinish := (finishObject_denoteObject hnodup hhex).mpr hobject
    rcases members with _ | ⟨⟨label, phrase⟩, members⟩
    · obtain ⟨rfl, -, -, rfl⟩ := admittedMembers_nil.mp hmembers
      rw [parseValue, hadm, ok_bind, if_pos (by simp)]
      simp only [List.tail_cons, Phrase.membersText, List.nil_append, skipWhitespace_blank]
      rw [skipWhitespace_cons (by decide)]
      obtain rfl := Option.some.inj hobject
      rfl
    · rw [Phrase.text] at hfuel
      simp only [List.length_append, List.length_cons, List.length_nil] at hfuel
      rw [parseValue_members hadm]
      · exact parseMembers_complete fuel (by omega) hmembers ⟨hnodup, fun _ _ => rfl⟩
          ((Nat.zero_add _).trans_le (hlength.trans_le hwithin.1)) hfinish
      · rw [Phrase.membersText]
        simp only [if_true, List.nil_append, List.append_assoc, Label.text, skipWhitespace_blank, quoted, List.cons_append]
        rw [skipWhitespace_cons (by decide)]
        exact ⟨0x22, _, rfl, by decide, by decide, by decide⟩
termination_by structural fuel => fuel

theorem parseElements_complete : ∀ (fuel : Nat) {first : Gap × Phrase} {elements : List (Gap × Phrase)}
    {depth nodes n : Nat} {list values : List Value} {rest : Text},
    2 * (Phrase.elementsText true (first :: elements)).length + 1 ≤ fuel →
    AdmittedElements limits depth nodes (first :: elements) values n → list.length ≤ nodes →
      parseElements limits fuel depth nodes list (Phrase.elementsText true (first :: elements) ++ 0x5D :: rest) =
        .ok (.makeList (list ++ values), rest, n)
  | 0, _, _, _, _, _, _, _, _, hfuel, _, _ => by omega
  | fuel + 1, (gap, phrase), elements, depth, nodes, n, list, values, rest, hfuel, h, hlist => by
    obtain ⟨v, vs, m, rfl, hphrase, helements⟩ := admittedElements_cons.mp h
    have hm := hphrase.counted
    have hfew := hphrase.few
    have hpos := phrase.count_pos
    have hadd : addElement limits list v = .ok (list ++ [v]) := addElement_eq_ok.mpr ⟨by omega, rfl⟩
    have htext : skipWhitespace (Phrase.elementsText true ((gap, phrase) :: elements) ++ 0x5D :: rest) =
        phrase.text ++ (gap.after.text ++ (Phrase.elementsText false elements ++ 0x5D :: rest)) := by
      rw [Phrase.elementsText]
      simp only [if_true, List.nil_append, List.append_assoc, skipWhitespace_blank]
      exact (phrase.startsValue_text.append _).skipWhitespace
    have hdelimited : Delimited (gap.after.text ++ (Phrase.elementsText false elements ++ 0x5D :: rest)) := by
      apply delimited_blank
      cases elements with
      | nil => exact delimited_cons (.inr (.inl rfl))
      | cons e es =>
        rw [Phrase.elementsText_false]
        exact delimited_cons (.inl rfl)
    rw [Phrase.elementsText] at hfuel
    simp only [if_true, List.nil_append, List.length_append] at hfuel
    rw [parseElements, htext, parseValue_complete fuel (by omega) hdelimited hphrase, ok_bind]
    simp only [hadd, ok_bind, skipWhitespace_blank]
    cases elements with
    | nil =>
      obtain ⟨rfl, -, -, rfl⟩ := admittedElements_nil.mp helements
      rw [Phrase.elementsText, List.nil_append, skipWhitespace_cons (by decide)]
      rfl
    | cons e es =>
      have hsep : skipWhitespace (Phrase.elementsText false (e :: es) ++ 0x5D :: rest) =
          0x2C :: (Phrase.elementsText true (e :: es) ++ 0x5D :: rest) := by
        rw [Phrase.elementsText_false, List.cons_append, skipWhitespace_cons (by decide)]
      rw [Phrase.elementsText_false, List.length_cons] at hfuel
      have hlist' : (list ++ [v]).length ≤ m := by
        simp only [List.length_append, List.length_singleton]
        omega
      have hvalues : list ++ v :: vs = list ++ [v] ++ vs := by simp
      rw [hsep, hvalues]
      exact parseElements_complete fuel (by omega) helements hlist'
termination_by structural fuel => fuel

theorem parseMembers_complete : ∀ (fuel : Nat) {first : Label × Phrase} {members : List (Label × Phrase)}
    {depth nodes n : Nat} {map : OrdMap Text Value} {pairs : List (Text × Value)} {v : Value} {rest : Text},
    2 * (Phrase.membersText true (first :: members)).length + 1 ≤ fuel →
    AdmittedMembers limits depth nodes (first :: members) pairs n → Fresh map pairs →
    map.size + pairs.length ≤ limits.maxFieldsPerObject → finishObject limits (addAll map pairs) = .ok v →
      parseMembers limits fuel depth nodes map (Phrase.membersText true (first :: members) ++ 0x7D :: rest) =
        .ok (v, rest, n)
  | 0, _, _, _, _, _, _, _, _, _, hfuel, _, _, _, _ => by omega
  | fuel + 1, (label, phrase), members, depth, nodes, n, map, pairs, v, rest, hfuel, h, hfresh, hsize, hfinish => by
    obtain ⟨key, member, more, m, rfl, hdecode, hutf, hlen, hphrase, hmembers⟩ := admittedMembers_cons.mp h
    obtain ⟨hnew, hfresh'⟩ := fresh_cons.mp hfresh
    have hinsert : (map.insert key member).size = map.size + 1 := by
      rw [OrdMap.size_insert, hnew, if_neg Bool.false_ne_true]
    rw [List.length_cons] at hsize
    have hadd : addMember limits map key member = .ok (map.insert key member) :=
      addMember_eq_ok.mpr ⟨hnew, by omega, rfl⟩
    have hkey : parseKey limits (Phrase.membersText true ((label, phrase) :: members) ++ 0x7D :: rest) =
        .ok (key, phrase.text ++ (label.after.text ++ (Phrase.membersText false members ++ 0x7D :: rest))) := by
      refine parseKey_eq_ok.mpr ⟨label.name, label.beforeColon, label.afterColon.text ++ (phrase.text ++
        (label.after.text ++ (Phrase.membersText false members ++ 0x7D :: rest))), ?_, ?_, hdecode, hutf, hlen⟩
      · rw [Phrase.membersText]
        simp only [if_true, List.nil_append, List.append_assoc, Label.text, skipWhitespace_blank, quoted,
          List.cons_append]
        rw [skipWhitespace_cons (by decide)]
      · rw [skipWhitespace_blank, (phrase.startsValue_text.append _).skipWhitespace]
    have hdelimited : Delimited (label.after.text ++ (Phrase.membersText false members ++ 0x7D :: rest)) := by
      apply delimited_blank
      cases members with
      | nil => exact delimited_cons (.inr (.inr rfl))
      | cons e es =>
        rw [Phrase.membersText_false]
        exact delimited_cons (.inl rfl)
    rw [Phrase.membersText] at hfuel
    simp only [if_true, List.nil_append, List.length_append] at hfuel
    rw [parseMembers, hkey, ok_bind]
    simp only
    rw [parseValue_complete fuel (by omega) hdelimited hphrase, ok_bind]
    simp only [hadd, ok_bind, skipWhitespace_blank]
    cases members with
    | nil =>
      obtain ⟨rfl, -, -, rfl⟩ := admittedMembers_nil.mp hmembers
      have hdone : finishObject limits (map.insert key member) = .ok v := hfinish
      rw [Phrase.membersText, List.nil_append, skipWhitespace_cons (by decide), parseSeparator]
      simp [hdone]
    | cons e es =>
      have hsep : skipWhitespace (Phrase.membersText false (e :: es) ++ 0x7D :: rest) =
          0x2C :: (Phrase.membersText true (e :: es) ++ 0x7D :: rest) := by
        rw [Phrase.membersText_false, List.cons_append, skipWhitespace_cons (by decide)]
      rw [Phrase.membersText_false, List.length_cons] at hfuel
      rw [hsep]
      exact parseMembers_complete fuel (by omega) hmembers hfresh' (by omega) hfinish
termination_by structural fuel => fuel

end

end Complete

/-! ### Termination

    Every call consumes text, so the fuel the parser starts with never runs out: more of it changes nothing. -/

section Fuel
variable [DoubleChars] {limits : RuntimeLimits}

omit [DoubleChars] in
theorem length_skipWhitespace_le (text : Text) : (skipWhitespace text).length ≤ text.length :=
  (List.dropWhile_sublist _).length_le

omit [DoubleChars] in
theorem parseKey_length {text key rest : Text} (h : parseKey limits text = .ok (key, rest)) :
    rest.length ≤ text.length := by
  obtain ⟨items, blank, after, hskip, rfl, -⟩ := parseKey_eq_ok.mp h
  have hafter := length_skipWhitespace_le after
  have htext := length_skipWhitespace_le text
  rw [hskip] at htext
  simp only [List.length_append, List.length_cons] at htext
  omega

theorem parseValue_length {fuel depth nodes n : Nat} {text rest : Text} {v : Value}
    (h : parseValue limits fuel depth nodes text = .ok (v, rest, n)) : rest.length < text.length := by
  obtain ⟨phrase, rfl, -⟩ := parseValue_sound fuel h
  have := phrase.length_text_pos
  rw [List.length_append]
  omega

omit [DoubleChars] in
theorem parseSeparator_length {close : UInt8} {unterminated unexpected : String} {text rest : Text} {closed : Bool}
    (hclose : close ≠ 0x2C)
    (h : parseSeparator close unterminated unexpected (skipWhitespace text) = .ok (closed, rest)) :
    rest.length < text.length := by
  have hskip := length_skipWhitespace_le text
  rw [parseSeparator_eq_ok hclose] at h
  rw [h, List.length_cons] at hskip
  omega

mutual

theorem parseValue_fuel : ∀ (a b : Nat) (text : Text) {depth nodes : Nat}, 2 * text.length + 1 ≤ a →
    2 * text.length + 1 ≤ b → parseValue limits a depth nodes text = parseValue limits b depth nodes text
  | 0, _, _, _, _, ha, _ => by omega
  | _, 0, _, _, _, _, hb => by omega
  | a + 1, b + 1, text, depth, nodes, ha, hb => by
    rw [parseValue, parseValue]
    rcases admitNode limits depth nodes with status | nodes
    · rfl
    simp only [ok_bind]
    by_cases hbrace : text.head? = some 0x7B
    · obtain ⟨tail, rfl⟩ := exists_of_head? hbrace
      have hskip := length_skipWhitespace_le tail
      rw [List.length_cons] at ha hb
      rw [if_pos hbrace, if_pos hbrace, List.tail_cons,
        parseMembers_fuel a b (skipWhitespace tail) (by omega) (by omega)]
    rw [if_neg hbrace, if_neg hbrace]
    by_cases hbracket : text.head? = some 0x5B
    · obtain ⟨tail, rfl⟩ := exists_of_head? hbracket
      have hskip := length_skipWhitespace_le tail
      rw [List.length_cons] at ha hb
      rw [if_pos hbracket, if_pos hbracket, List.tail_cons,
        parseElements_fuel a b (skipWhitespace tail) (by omega) (by omega)]
    rw [if_neg hbracket, if_neg hbracket]
termination_by structural a => a

theorem parseMembers_fuel : ∀ (a b : Nat) (text : Text) {depth nodes : Nat} {map : OrdMap Text Value},
    2 * text.length + 2 ≤ a → 2 * text.length + 2 ≤ b →
      parseMembers limits a depth nodes map text = parseMembers limits b depth nodes map text
  | 0, _, _, _, _, _, ha, _ => by omega
  | _, 0, _, _, _, _, _, hb => by omega
  | a + 1, b + 1, text, depth, nodes, map, ha, hb => by
    rw [parseMembers, parseMembers]
    rcases hkey : parseKey limits text with status | ⟨key, text₁⟩
    · rfl
    have hone := parseKey_length hkey
    simp only [ok_bind]
    rw [parseValue_fuel a b text₁ (by omega) (by omega)]
    rcases hvalue : parseValue limits b (depth + 1) nodes text₁ with status | ⟨member, text₂, nodes⟩
    · rfl
    have htwo := parseValue_length hvalue
    simp only [ok_bind]
    rcases addMember limits map key member with status | map
    · rfl
    simp only [ok_bind]
    rcases hsep : parseSeparator 0x7D "unterminated object" "expected ',' or '\x7d'" (skipWhitespace text₂) with
      status | ⟨closed, text₃⟩
    · rfl
    have hthree := parseSeparator_length (by decide) hsep
    simp only [ok_bind]
    rw [parseMembers_fuel a b text₃ (by omega) (by omega)]
termination_by structural a => a

theorem parseElements_fuel : ∀ (a b : Nat) (text : Text) {depth nodes : Nat} {list : List Value},
    2 * text.length + 2 ≤ a → 2 * text.length + 2 ≤ b →
      parseElements limits a depth nodes list text = parseElements limits b depth nodes list text
  | 0, _, _, _, _, _, ha, _ => by omega
  | _, 0, _, _, _, _, _, hb => by omega
  | a + 1, b + 1, text, depth, nodes, list, ha, hb => by
    have hskip := length_skipWhitespace_le text
    rw [parseElements, parseElements, parseValue_fuel a b (skipWhitespace text) (by omega) (by omega)]
    rcases hvalue : parseValue limits b (depth + 1) nodes (skipWhitespace text) with status | ⟨element, text₁, nodes⟩
    · rfl
    have hone := parseValue_length hvalue
    simp only [ok_bind]
    rcases addElement limits list element with status | list
    · rfl
    simp only [ok_bind]
    rcases hsep : parseSeparator 0x5D "unterminated sequence" "expected ',' or ']'" (skipWhitespace text₁) with
      status | ⟨closed, text₂⟩
    · rfl
    have htwo := parseSeparator_length (by decide) hsep
    simp only [ok_bind]
    rw [parseElements_fuel a b text₂ (by omega) (by omega)]
termination_by structural a => a

end

omit [DoubleChars] in
theorem parseEscape_length {text bytes rest : Text} (h : parseEscape text = .ok (bytes, rest)) :
    rest.length ≤ text.length := by
  obtain ⟨chunk, hchunk, htext⟩ := parseEscape_eq_ok.mp h
  have hlen := congrArg List.length htext
  have hpos := hchunk.length_pos
  simp only [List.length_cons, List.length_append] at hlen
  omega

omit [DoubleChars] in
theorem parseStringFrom_fuel : ∀ (a b : Nat) (text : Text) {out : Text}, text.length < a → text.length < b →
    parseStringFrom limits a out text = parseStringFrom limits b out text
  | 0, _, _, _, ha, _ => by omega
  | _, 0, _, _, _, hb => by omega
  | a + 1, b + 1, [], _, _, _ => rfl
  | a + 1, b + 1, c :: text, out, ha, hb => by
    rw [List.length_cons] at ha hb
    rw [parseStringFrom, parseStringFrom, parseStringFrom_fuel a b text (by omega) (by omega)]
    rcases hescape : parseEscape text with status | ⟨bytes, rest⟩
    · rfl
    have := parseEscape_length hescape
    simp only [ok_bind]
    rw [parseStringFrom_fuel a b rest (by omega) (by omega)]

end Fuel

/-! ### Documents -/

section Documents
variable [DoubleChars] {limits : RuntimeLimits}

theorem parse_eq_ok {text : Text} {v : Value} : parse limits text = .ok v ↔
    ∃ (before : Blank) (phrase : Phrase) (after : Blank), text = before.text ++ phrase.text ++ after.text ∧
      phrase.denote = some v ∧ phrase.Within limits ∧ phrase.depth ≤ limits.maxValueDepth ∧
      phrase.count ≤ limits.maxValueNodes := by
  constructor
  · intro h
    simp only [parse, fail, ite_error_eq_ok, bind_eq_ok, ite_ok_eq_ok, Prod.exists] at h
    obtain ⟨-, _, rest, n, hvalue, hrest, rfl⟩ := h
    obtain ⟨phrase, htext, hadm⟩ := parseValue_sound _ hvalue
    obtain ⟨before, hbefore⟩ := exists_blank text
    obtain ⟨after, hafter⟩ := exists_blank rest
    rw [List.isEmpty_iff.mp hrest, List.append_nil] at hafter
    have hdeep := hadm.deep
    have hn := hadm.counted
    have hfew := hadm.few
    refine ⟨before, phrase, after, ?_, hadm.denotes, hadm.within, by omega, by omega⟩
    rw [hbefore, htext, hafter, List.append_assoc]
  · rintro ⟨before, phrase, after, rfl, hdenote, hwithin, hdeep, hfew⟩
    have hskip : skipWhitespace (before.text ++ phrase.text ++ after.text) = phrase.text ++ after.text := by
      rw [List.append_assoc, skipWhitespace_blank, (phrase.startsValue_text.append _).skipWhitespace]
    have hdelimited : Delimited after.text := by
      rw [← List.append_nil after.text]
      exact delimited_blank after fun c hc => by cases hc
    have hafter : skipWhitespace after.text = [] := by
      rw [← List.append_nil after.text, skipWhitespace_blank]
      rfl
    have hpos := phrase.length_text_pos
    have hne : (phrase.text ++ after.text).isEmpty = false := by
      rw [List.isEmpty_eq_false_iff, ← List.length_pos_iff, List.length_append]
      omega
    have hadm : Admitted limits 0 0 phrase v phrase.count :=
      ⟨hdenote, hwithin, (Nat.zero_add _).trans_le hdeep, (Nat.zero_add _).symm, hfew⟩
    have hvalue := parseValue_complete (2 * (phrase.text ++ after.text).length + 2)
      (by rw [List.length_append]; omega) hdelimited hadm
    simp only [parse, hskip, hne, if_neg Bool.false_ne_true, hvalue, ok_bind, hafter]
    rfl

/-- A document is accepted exactly when it is a phrase of the grammar, with white space around it, that denotes a
    value and fits the envelope; the value it denotes is the one returned. The fuel of the model does not matter: the
    calls end before it does. -/
theorem parseJson_grammar (text : Text) :
    (∀ fuel depth nodes, ∀ part : Text, 2 * part.length + 2 ≤ fuel →
      parseValue limits fuel depth nodes part = parseValue limits (2 * part.length + 2) depth nodes part) ∧
    (∀ fuel, ∀ out part : Text, part.length + 1 ≤ fuel →
      parseStringFrom limits fuel out part = parseStringFrom limits (part.length + 1) out part) ∧
    ∀ v, parseJson limits text = .ok v ↔ text.length ≤ limits.maxDocumentBytes ∧
      ∃ (before : Blank) (phrase : Phrase) (after : Blank), text = before.text ++ phrase.text ++ after.text ∧
        phrase.denote = some v ∧ phrase.Within limits ∧ phrase.depth ≤ limits.maxValueDepth ∧
        phrase.count ≤ limits.maxValueNodes := by
  refine ⟨fun fuel depth nodes part hfuel => ?_, fun fuel out part hfuel => ?_, fun v => ?_⟩
  · exact parseValue_fuel fuel _ part (by omega) (by omega)
  · exact parseStringFrom_fuel fuel _ part (by omega) (by omega)
  · rw [parseJson, exceed, ite_error_eq_ok, not_lt, parse_eq_ok]

end Documents

end Json

end DriftObservatory
