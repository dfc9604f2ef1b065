import DriftObservatory.Persistence
import DriftObservatory.Theorems.Calendar
import Mathlib.Data.List.TakeWhile

/-! Texts with a meaning read back: enumerators, digests, identities and field paths. -/

namespace DriftObservatory

/-! ### Enumerators -/

theorem ascii_ofList (chars : List Char) : ascii (String.ofList chars) = chars.map fun c => c.toNat.toUInt8 := by
  rw [ascii, String.toList_ofList]

/-- A literal without a null character is its own C string. -/
theorem cString_ascii {chars : List Char} (h : (chars.all fun c => c.toNat.toUInt8 != 0) = true) :
    cString (ascii (String.ofList chars)) = ascii (String.ofList chars) := by
  rw [cString, ascii_ofList]
  refine List.takeWhile_eq_self_iff.mpr fun c hc => ?_
  obtain ⟨d, hd, rfl⟩ := List.mem_map.mp hc
  exact List.all_eq_true.mp h d hd

section Names
variable {α : Type} {names : List α} {toText : α → Text} {name : α}

theorem parseName_toText (hdistinct : (names.map toText).Nodup) (hname : name ∈ names) :
    parseName names toText (toText name) = some name := by
  induction names with
  | nil => cases hname
  | cons first rest ih =>
    rw [List.map_cons, List.nodup_cons] at hdistinct
    rcases List.mem_cons.mp hname with rfl | hrest
    · simp [parseName]
    · have hne : toText first ≠ toText name := fun heq => hdistinct.1 (heq ▸ List.mem_map_of_mem hrest)
      rw [parseName, List.find?_cons_of_neg (by simpa using hne)]
      exact ih hdistinct.2 hrest

theorem parseName_cString (hplain : cString (toText name) = toText name) (hdistinct : (names.map toText).Nodup)
    (hname : name ∈ names) : parseName names toText (cString (toText name)) = some name := by
  rw [hplain]
  exact parseName_toText hdistinct hname

end Names

/-- No enumeration spells two of its names alike. -/
structure SpellingsDistinct : Prop where
  evidenceClass : (EvidenceClass.all.map EvidenceClass.toText).Nodup
  severity : (Severity.all.map Severity.toText).Nodup
  driftClass : (DriftClass.all.map DriftClass.toText).Nodup
  reasonCode : (ReasonCode.all.map ReasonCode.toText).Nodup
  intentAuthority : (IntentAuthority.all.map IntentAuthority.toText).Nodup
  fieldComparability : (FieldComparability.all.map FieldComparability.toText).Nodup
  objectPresence : (ObjectPresence.all.map ObjectPresence.toText).Nodup
  observationCoverage : (ObservationCoverage.all.map ObservationCoverage.toText).Nodup
  freshnessState : (FreshnessState.all.map FreshnessState.toText).Nodup
  findingState : (FindingState.all.map FindingState.toText).Nodup
  suppressionOrigin : (SuppressionOrigin.all.map SuppressionOrigin.toText).Nodup
  timelineEventKind : (TimelineEventKind.all.map TimelineEventKind.toText).Nodup
  rootCauseKind : (RootCauseKind.all.map RootCauseKind.toText).Nodup
  objectExistence : ([ObjectExistence.required, .forbidden].map ObjectExistence.toText).Nodup

theorem spellings_distinct : SpellingsDistinct := by
  constructor
  all_goals
    simp only [List.map_cons, List.map_nil, EvidenceClass.all, Severity.all, DriftClass.all, ReasonCode.all,
      IntentAuthority.all, FieldComparability.all, ObjectPresence.all, ObservationCoverage.all, FreshnessState.all,
      FindingState.all, SuppressionOrigin.all, TimelineEventKind.all, RootCauseKind.all, EvidenceClass.toText,
      Severity.toText, DriftClass.toText, ReasonCode.toText, IntentAuthority.toText, FieldComparability.toText,
      ObjectPresence.toText, ObservationCoverage.toText, FreshnessState.toText, FindingState.toText,
      SuppressionOrigin.toText, TimelineEventKind.toText, RootCauseKind.toText, ObjectExistence.toText]
    repeat rw [ascii_ofList]
    decide +kernel

theorem EvidenceClass.tryParse_toText (v : EvidenceClass) : tryParse v.toText = some v :=
  parseName_cString (by cases v <;> exact cString_ascii rfl) (spellings_distinct).evidenceClass
    (by cases v <;> decide)

theorem Severity.tryParse_toText (v : Severity) : tryParse v.toText = some v :=
  parseName_cString (by cases v <;> exact cString_ascii rfl) (spellings_distinct).severity (by cases v <;> decide)

theorem DriftClass.tryParse_toText (v : DriftClass) : tryParse v.toText = some v :=
  parseName_cString (by cases v <;> exact cString_ascii rfl) (spellings_distinct).driftClass (by cases v <;> decide)

theorem ReasonCode.tryParse_toText (v : ReasonCode) : tryParse v.toText = some v :=
  parseName_cString (by cases v <;> exact cString_ascii rfl) (spellings_distinct).reasonCode (by cases v <;> decide)

theorem IntentAuthority.tryParse_toText (v : IntentAuthority) : tryParse v.toText = some v :=
  parseName_cString (by cases v <;> exact cString_ascii rfl) (spellings_distinct).intentAuthority
    (by cases v <;> decide)

theorem FieldComparability.tryParse_toText (v : FieldComparability) : tryParse v.toText = some v :=
  parseName_cString (by cases v <;> exact cString_ascii rfl) (spellings_distinct).fieldComparability
    (by cases v <;> decide)

theorem ObjectPresence.tryParse_toText (v : ObjectPresence) : tryParse v.toText = some v :=
  parseName_cString (by cases v <;> exact cString_ascii rfl) (spellings_distinct).objectPresence
    (by cases v <;> decide)

theorem ObservationCoverage.tryParse_toText (v : ObservationCoverage) : tryParse v.toText = some v :=
  parseName_cString (by cases v <;> exact cString_ascii rfl) (spellings_distinct).observationCoverage
    (by cases v <;> decide)

theorem FreshnessState.tryParse_toText (v : FreshnessState) : tryParse v.toText = some v :=
  parseName_cString (by cases v <;> exact cString_ascii rfl) (spellings_distinct).freshnessState
    (by cases v <;> decide)

theorem FindingState.tryParse_toText (v : FindingState) : tryParse v.toText = some v :=
  parseName_cString (by cases v <;> exact cString_ascii rfl) (spellings_distinct).findingState (by cases v <;> decide)

theorem SuppressionOrigin.tryParse_toText (v : SuppressionOrigin) : tryParse v.toText = some v :=
  parseName_cString (by cases v <;> exact cString_ascii rfl) (spellings_distinct).suppressionOrigin
    (by cases v <;> decide)

theorem TimelineEventKind.tryParse_toText (v : TimelineEventKind) : tryParse v.toText = some v :=
  parseName_cString (by cases v <;> exact cString_ascii rfl) (spellings_distinct).timelineEventKind
    (by cases v <;> decide)

theorem RootCauseKind.tryParse_toText (v : RootCauseKind) : tryParse v.toText = some v :=
  parseName_toText (spellings_distinct).rootCauseKind (by cases v <;> decide)

theorem ObjectExistence.tryParse_toText (v : ObjectExistence) : tryParse v.toText = some v :=
  parseName_toText (spellings_distinct).objectExistence (by cases v <;> decide)

/-! ### Digests -/

theorem Digest.tryFromHex_toHex (d : Digest) : tryFromHex d.toHex = some d := by
  have hlen : d.toHex.length = 2 * kDigestBytes := by rw [toHex, length_toHex, d.length_bytes]
  rw [tryFromHex, if_pos hlen, toHex, fromHex_toHex]
  exact dif_pos d.length_bytes

theorem Digest.toHex_ne_nil (d : Digest) : d.toHex ≠ [] := by
  intro h
  have hlen := congrArg List.length h
  rw [toHex, length_toHex, d.length_bytes] at hlen
  cases hlen

theorem Digest.eq_zero_of_unset {d : Digest} (h : d.isSet = false) : d = zero := by
  have hzero : d.bytes = List.replicate kDigestBytes 0 := by
    rw [List.eq_replicate_iff]
    refine ⟨d.length_bytes, fun b hb => ?_⟩
    rw [isSet, List.any_eq_false] at h
    simpa using h b hb
  cases d
  cases hzero
  rfl

namespace DigestId
variable {tag : DigestTag}

theorem eq_default_of_unset {id : DigestId tag} (h : id.isSet = false) : id = default :=
  congrArg DigestId.mk (Digest.eq_zero_of_unset h)

theorem tryParse_toHex (id : DigestId tag) : tryParse id.toHex = some id := by
  rw [tryParse, toHex, Digest.tryFromHex_toHex]
  rfl

end DigestId

/-! ### Field paths -/

theorem digitChar_sub {c : UInt8} (h : Char8.isDigit c = true) :
    (Nat.digitChar (c.toNat - 0x30)).toNat.toUInt8 = c := by
  simp only [Char8.isDigit, Bool.and_eq_true, decide_eq_true_eq, UInt8.le_iff_toNat_le] at h
  have hlt : c.toNat - 0x30 < 10 := by
    have := h.2
    simp at this
    omega
  have hc := toNat_digitChar (c.toNat - 0x30) hlt
  have hle : 0x30 ≤ c.toNat := h.1
  apply UInt8.toNat_inj.mp
  omega

/-- The canonical spelling of a number is the only one without a leading zero. -/
theorem decimal_digitsValue {digits : Text} (hne : digits ≠ []) (hdigits : ∀ c ∈ digits, Char8.isDigit c = true)
    (hlead : 1 < digits.length → digits.head? ≠ some 0x30) : decimal (Json.digitsValue digits) = digits := by
  induction digits using List.reverseRecOn with
  | nil => exact absurd rfl hne
  | append_singleton front c ih =>
    have hc := hdigits c (by simp)
    have hval := Json.digitsValue_append front c
    have hcval : c.toNat - 0x30 < 10 := by
      simp only [Char8.isDigit, Bool.and_eq_true, decide_eq_true_eq, UInt8.le_iff_toNat_le] at hc
      have := hc.2
      simp at this
      omega
    rcases eq_or_ne front [] with rfl | hfront
    · rw [hval, decimal_of_lt (by simpa [Json.digitsValue] using hcval)]
      simp [Json.digitsValue, digitChar_sub hc]
    · have hlen : 1 < (front ++ [c]).length := by
        have := List.length_pos_iff.mpr hfront
        simp only [List.length_append, List.length_singleton]
        omega
      have hhead : front.head? ≠ some 0x30 := by
        rw [← List.head?_append_of_ne_nil front hfront]
        exact hlead hlen
      have hih := ih hfront (fun d hd => hdigits d (by simp [hd])) fun _ => hhead
      have hpos : 0 < Json.digitsValue front := by
        by_contra hzero
        rw [Nat.eq_zero_of_not_pos hzero] at hih
        rw [← hih] at hhead
        exact hhead rfl
      rw [hval, decimal_of_le (by omega)]
      rw [show (Json.digitsValue front * 10 + (c.toNat - 0x30)) / 10 = Json.digitsValue front by omega, hih,
        show (Json.digitsValue front * 10 + (c.toNat - 0x30)) % 10 = c.toNat - 0x30 by omega, digitChar_sub hc]

namespace FieldPath

theorem toTextFrom_append : ∀ (first : Bool) (path : List PathSegment) (segment : PathSegment),
    toTextFrom first (path ++ [segment]) =
      toTextFrom first path ++ toTextFrom (first && path.isEmpty) [segment]
  | first, [], segment => by simp [toTextFrom]
  | first, .index value :: rest, segment => by
    simp [toTextFrom, toTextFrom_append false rest segment]
  | first, .key key :: rest, segment => by
    simp [toTextFrom, toTextFrom_append false rest segment]

/-- A scanned key, with its escapes put back, and a text that does not go on with it. -/
theorem scanKey_spelling : ∀ {text key rest : Text}, scanKey text = some (key, rest) →
    text = escapedKey key ++ rest
  | [], key, rest, h => by
    simp only [scanKey, Option.some.injEq, Prod.mk.injEq] at h
    obtain ⟨rfl, rfl⟩ := h
    rfl
  | c :: text, key, rest, h => by
    rw [scanKey.eq_def] at h
    simp only at h
    split_ifs at h with hback hstop hbad
    · cases text with
      | nil => cases h
      | cons escaped text =>
        simp only at h
        split_ifs at h with hescapable
        obtain ⟨⟨key', rest'⟩, hscan, heq⟩ := Option.map_eq_some_iff.mp h
        cases heq
        rw [scanKey_spelling hscan, beq_iff_eq.mp hback]
        simp [escapedKey, hescapable]
    · cases h
      rfl
    · obtain ⟨⟨key', rest'⟩, hscan, heq⟩ := Option.map_eq_some_iff.mp h
      cases heq
      have hplain : Char8.isEscapable c = false := by
        simp only [Char8.isEscapable, Bool.or_eq_true, not_or, Bool.not_eq_true] at *
        simp [hback, hstop, hbad]
      rw [scanKey_spelling hscan]
      simp [escapedKey, hplain]

theorem scanKeySegment_spelling {maxKeyBytes : Nat} {text rest : Text} {segment : PathSegment}
    (h : scanKeySegment maxKeyBytes text = some (segment, rest)) :
    ∃ key, segment = .key key ∧ text = escapedKey key ++ rest := by
  simp only [scanKeySegment, Option.bind_eq_bind, Option.bind_eq_some_iff] at h
  obtain ⟨⟨key, rest'⟩, hscan, h⟩ := h
  simp only at h
  split_ifs at h
  cases h
  exact ⟨key, rfl, scanKey_spelling hscan⟩

theorem scanIndexSegment_spelling {text rest : Text} {segment : PathSegment}
    (h : scanIndexSegment text = some (segment, rest)) :
    ∃ value : UInt64, segment = .index value ∧ text = decimal value.toNat ++ 0x5D :: rest := by
  have hsplit := List.takeWhile_append_dropWhile (p := (· != 0x5D)) (l := text)
  have hdrop : text.drop (text.takeWhile (· != 0x5D)).length = text.dropWhile (· != 0x5D) := by
    have := @List.drop_left _ (text.takeWhile (· != 0x5D)) (text.dropWhile (· != 0x5D))
    rwa [hsplit] at this
  simp only [scanIndexSegment, hdrop] at h
  split_ifs at h with hbad
  cases h
  simp only [Bool.or_eq_true, not_or, Bool.and_eq_true, decide_eq_true_eq, not_and, Bool.not_eq_true', Bool.not_eq_true,
    Bool.not_eq_false, not_le, List.isEmpty_eq_false_iff, beq_iff_eq] at hbad
  obtain ⟨⟨⟨⟨⟨hrest, hne⟩, -⟩, hlead⟩, hall⟩, hlt⟩ := hbad
  refine ⟨_, rfl, ?_⟩
  rw [UInt64.toNat_ofNat_of_lt' hlt, decimal_digitsValue hne (List.all_eq_true.mp hall) hlead]
  conv_lhs => rw [← hsplit]
  obtain ⟨c, rest, hcons⟩ := List.exists_cons_of_ne_nil hrest
  have hc := List.head_dropWhile_not (· != 0x5D) hrest
  simp only [hcons, List.head_cons, bne_eq_false_iff_eq] at hc
  rw [hcons, hc, List.tail_cons]

/-- The separator before the rest of a path. -/
def separator (path : FieldPath) (text : Text) : Text :=
  if path.isEmpty || text.isEmpty || text.head? == some 0x5B then [] else [0x2E]

theorem nextSegment_spelling {path : FieldPath} {text next : Text} (hpath : path.isEmpty = false)
    (h : nextSegment text = some next) : text = separator path next ++ next := by
  cases text with
  | nil =>
    cases h
    simp [separator]
  | cons c rest =>
    simp only [nextSegment] at h
    split_ifs at h with hbracket hdot hbad
    · cases h
      simp [separator, beq_iff_eq.mp hbracket]
    · cases h
      simp only [Bool.or_eq_true, not_or, Bool.not_eq_true] at hbad
      simp [separator, hpath, hbad, beq_iff_eq.mp hdot]

theorem tryParseFrom_cons {maxSegments maxKeyBytes fuel : Nat} {path read : FieldPath} {c : UInt8} {rest : Text}
    (h : tryParseFrom maxSegments maxKeyBytes (fuel + 1) path (c :: rest) = some read) :
    ∃ segment behind next, separator path (c :: rest) ++ c :: rest = toTextFrom path.isEmpty [segment] ++ behind ∧
      nextSegment behind = some next ∧ tryParseFrom maxSegments maxKeyBytes fuel (path ++ [segment]) next = some read := by
  simp only [tryParseFrom, Option.bind_eq_bind] at h
  split_ifs at h with hfull hc
  · obtain ⟨⟨segment, behind⟩, hscan, h⟩ := Option.bind_eq_some_iff.mp h
    obtain ⟨next, hnext, h⟩ := Option.bind_eq_some_iff.mp h
    obtain ⟨value, rfl, hrest⟩ := scanIndexSegment_spelling hscan
    refine ⟨_, _, _, ?_, hnext, h⟩
    simp [separator, beq_iff_eq.mp hc, toTextFrom, hrest]
  · obtain ⟨⟨segment, behind⟩, hscan, h⟩ := Option.bind_eq_some_iff.mp h
    obtain ⟨next, hnext, h⟩ := Option.bind_eq_some_iff.mp h
    obtain ⟨key, rfl, hkey⟩ := scanKeySegment_spelling hscan
    refine ⟨_, _, _, ?_, hnext, h⟩
    simp only [beq_iff_eq] at hc
    simp only [toTextFrom, List.append_nil, List.append_assoc, ← hkey]
    cases hpath : path.isEmpty <;> simp [separator, hpath, hc]

theorem tryParseFrom_spelling {maxSegments maxKeyBytes : Nat} : ∀ (fuel : Nat) {path : FieldPath} {text : Text}
    {read : FieldPath}, tryParseFrom maxSegments maxKeyBytes fuel path text = some read →
      toText read = toText path ++ separator path text ++ text
  | 0, path, [], read, h | _ + 1, path, [], read, h => by
    simp only [tryParseFrom, Option.some.injEq] at h
    simp [separator, h]
  | 0, _, _ :: _, _, h => by cases h
  | fuel + 1, path, c :: rest, read, h => by
    obtain ⟨segment, behind, next, hsep, hnext, h⟩ := tryParseFrom_cons h
    rw [tryParseFrom_spelling fuel h, List.append_assoc _ (separator _ _) next, ← nextSegment_spelling (by simp) hnext,
      List.append_assoc, hsep, toText, toText, toTextFrom_append, Bool.true_and, List.append_assoc]

/-- A path that is read is spelled as it was read. -/
theorem toText_of_tryParse {limits : RuntimeLimits} {text : Text} {path : FieldPath}
    (h : tryParse limits text = some path) : toText path = text := by
  rw [tryParse] at h
  split_ifs at h with hempty
  · cases h
    exact (List.isEmpty_iff.mp hempty).symm
  · rw [tryParseFrom_spelling _ h]
    simp [toText, toTextFrom, separator]

end FieldPath

end DriftObservatory
