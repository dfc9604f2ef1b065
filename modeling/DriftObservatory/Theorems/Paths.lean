import DriftObservatory.Lib.Codes
import DriftObservatory.Theorems.Spellings

/-! The spelling of field paths: it determines the path, no other text is read as the path, and which paths are read
    back from it. -/

namespace DriftObservatory

/-! ### Paths and their texts -/

namespace PathSegment

/-- A sequence index, or a member name that is not empty. -/
def Named : PathSegment → Prop
  | .key text => text ≠ []
  | .index _ => True

/-- The bytes of a segment in a text. -/
def spelledLength : PathSegment → Nat
  | .key text => text.length + text.countP Char8.isEscapable
  | .index value => (decimal value.toNat).length + 2

def isKey : PathSegment → Bool
  | .key _ => true
  | .index _ => false

end PathSegment

namespace FieldPath

/-- The bytes of a path in a text: its segments, and a dot before every key but the first segment. -/
def spelledLength (path : FieldPath) : Nat :=
  (path.map PathSegment.spelledLength).sum + path.tail.countP PathSegment.isKey

/-- The text does not go on with a key. -/
def KeyEnds (rest : Text) : Prop := ∀ c ∈ rest.head?, c = 0x2E ∨ c = 0x5B

theorem escapedKey_cons (c : UInt8) (key : Text) :
    escapedKey (c :: key) = (if Char8.isEscapable c then [0x5C, c] else [c]) ++ escapedKey key := rfl

/-- The spelling of a key that is not empty starts with a byte that no separator is. -/
theorem escapedKey_head {key : Text} (h : key ≠ []) :
    ∃ c rest, escapedKey key = c :: rest ∧ c ≠ 0x2E ∧ c ≠ 0x5B ∧ c ≠ 0x5D := by
  obtain ⟨c, key, rfl⟩ := List.exists_cons_of_ne_nil h
  rw [escapedKey_cons]
  cases hc : Char8.isEscapable c with
  | true => exact ⟨0x5C, c :: escapedKey key, rfl, by decide, by decide, by decide⟩
  | false =>
    refine ⟨c, escapedKey key, rfl, ?_⟩
    simp only [Char8.isEscapable, Bool.or_eq_false_iff, beq_eq_false_iff_ne] at hc
    exact ⟨hc.1.1.2, hc.1.2, hc.2⟩

theorem keyEnds_toTextFrom (path : FieldPath) : KeyEnds (toTextFrom false path) := by
  intro c hc
  cases path with
  | nil => cases hc
  | cons segment path =>
    cases segment with
    | key key => exact .inl (Option.mem_some_iff.mp hc).symm
    | index value => exact .inr (Option.mem_some_iff.mp hc).symm

/-- Behind a key that ends, the spelling determines the key. -/
theorem escapedKey_separable : Codes.SeparableBefore KeyEnds (fun _ => True) escapedKey := by
  intro key key' s t _ _ hs ht heq
  induction key generalizing key' with
  | nil =>
    cases key' with
    | nil => exact ⟨rfl, heq⟩
    | cons c rest =>
      obtain ⟨d, front, hfront, hdot, hbracket, -⟩ := escapedKey_head (List.cons_ne_nil c rest)
      rw [hfront] at heq
      rcases hs d (by rw [show s = _ from heq]; rfl) with rfl | rfl
      · exact absurd rfl hdot
      · exact absurd rfl hbracket
  | cons c key ih =>
    cases key' with
    | nil =>
      obtain ⟨d, front, hfront, hdot, hbracket, -⟩ := escapedKey_head (List.cons_ne_nil c key)
      rw [hfront] at heq
      rcases ht d (by rw [show t = _ from heq.symm]; rfl) with rfl | rfl
      · exact absurd rfl hdot
      · exact absurd rfl hbracket
    | cons d key' =>
      rw [escapedKey_cons, escapedKey_cons, List.append_assoc, List.append_assoc] at heq
      have hplain : ∀ {e : UInt8}, Char8.isEscapable e = false → e ≠ 0x5C := by
        rintro e he rfl
        cases he
      have hcd : c = d ∧ escapedKey key ++ s = escapedKey key' ++ t := by
        cases hc : Char8.isEscapable c <;> cases hd : Char8.isEscapable d <;> rw [hc, hd] at heq <;>
          simp only [Bool.false_eq_true, if_true, if_false, List.cons_append, List.nil_append, List.cons.injEq] at heq
        · exact heq
        · exact absurd heq.1 (hplain hc)
        · exact absurd heq.1.symm (hplain hd)
        · exact heq.2
      obtain ⟨rfl, hrest⟩ := hcd
      obtain ⟨rfl, hst⟩ := ih hrest
      exact ⟨rfl, hst⟩

/-- Digits behind which no digit stands determine the number. -/
theorem decimal_separable : Codes.SeparableBefore (fun s => ∀ c ∈ s.head?, Char8.isDigit c = false) (fun _ => True)
    decimal := by
  intro m n s t _ _ hs ht heq
  have hgoes : ∀ k, ∀ c ∈ decimal k, ¬Char8.isDigit c = false := fun k c hc => by
    rw [isDigit_decimal k c hc]
    exact Bool.noConfusion
  obtain ⟨hdigits, hst⟩ := Codes.append_inj_of_stop (fun c => Char8.isDigit c = false) (hgoes m) (hgoes n) hs ht heq
  refine ⟨?_, hst⟩
  rw [← Json.digitsValue_decimal m, hdigits, Json.digitsValue_decimal]

/-- A path whose member names are not empty is determined by its text. -/
theorem toTextFrom_injective : ∀ {first : Bool} {path other : List PathSegment}, (∀ x ∈ path, x.Named) →
    (∀ x ∈ other, x.Named) → toTextFrom first path = toTextFrom first other → path = other
  | _, [], [], _, _, _ => rfl
  | _, [], .index _ :: _, _, _, heq | _, .index _ :: _, [], _, _, heq => by cases heq
  | first, [], .key key :: other, _, hother, heq => by
    obtain ⟨c, rest, hc, -⟩ := escapedKey_head (hother _ List.mem_cons_self)
    cases first <;> simp [toTextFrom, hc] at heq
  | first, .key key :: path, [], hpath, _, heq => by
    obtain ⟨c, rest, hc, -⟩ := escapedKey_head (hpath _ List.mem_cons_self)
    cases first <;> simp [toTextFrom, hc] at heq
  | first, .key key :: path, .index _ :: other, hpath, _, heq => by
    obtain ⟨c, rest, hc, -, hbracket, -⟩ := escapedKey_head (hpath _ List.mem_cons_self)
    cases first <;> simp [toTextFrom, hc, hbracket] at heq
  | first, .index _ :: path, .key key :: other, _, hother, heq => by
    obtain ⟨c, rest, hc, -, hbracket, -⟩ := escapedKey_head (hother _ List.mem_cons_self)
    cases first <;> simp [toTextFrom, hc, hbracket.symm] at heq
  | first, .index v :: path, .index w :: other, hpath, hother, heq => by
    simp only [toTextFrom, List.cons_append, List.cons.injEq, true_and] at heq
    obtain ⟨hvalue, hrest⟩ := decimal_separable trivial trivial (fun c hc => by cases hc; rfl)
      (fun c hc => by cases hc; rfl) heq
    have htail := toTextFrom_injective (fun x hx => hpath x (List.mem_cons_of_mem _ hx))
      (fun x hx => hother x (List.mem_cons_of_mem _ hx)) (List.cons.inj hrest).2
    rw [UInt64.toNat_inj.mp hvalue, htail]
  | first, .key key :: path, .key key' :: other, hpath, hother, heq => by
    simp only [toTextFrom, List.append_assoc, List.append_cancel_left_eq] at heq
    obtain ⟨hkey, hrest⟩ := escapedKey_separable trivial trivial (keyEnds_toTextFrom path) (keyEnds_toTextFrom other) heq
    have htail := toTextFrom_injective (fun x hx => hpath x (List.mem_cons_of_mem _ hx))
      (fun x hx => hother x (List.mem_cons_of_mem _ hx)) hrest
    rw [hkey, htail]

theorem toText_injective {path other : FieldPath} (hpath : ∀ x ∈ path, x.Named) (hother : ∀ x ∈ other, x.Named)
    (h : toText path = toText other) : path = other := toTextFrom_injective hpath hother h

/-! ### What is read -/

theorem named_of_scan {maxKeyBytes : Nat} {text rest : Text} {segment : PathSegment}
    (h : scanKeySegment maxKeyBytes text = some (segment, rest)) : segment.Named := by
  simp only [scanKeySegment, Option.bind_eq_bind, Option.bind_eq_some_iff] at h
  obtain ⟨⟨key, rest'⟩, -, h⟩ := h
  simp only at h
  split_ifs at h with hbad
  cases h
  simp only [Bool.or_eq_true, not_or, List.isEmpty_iff] at hbad
  exact hbad.1

theorem named_of_tryParseFrom {maxSegments maxKeyBytes : Nat} : ∀ (fuel : Nat) {path : FieldPath} {text : Text}
    {read : FieldPath}, (∀ x ∈ path, x.Named) → tryParseFrom maxSegments maxKeyBytes fuel path text = some read →
      ∀ x ∈ read, x.Named
  | 0, path, [], read, hpath, h | _ + 1, path, [], read, hpath, h => by
    simp only [tryParseFrom, Option.some.injEq] at h
    exact h ▸ hpath
  | 0, _, _ :: _, _, _, h => by cases h
  | fuel + 1, path, c :: rest, read, hpath, h => by
    have hnamed : ∀ {segment : PathSegment}, segment.Named → ∀ x ∈ path ++ [segment], x.Named := by
      intro segment hsegment x hx
      rcases List.mem_append.mp hx with hx | hx
      · exact hpath x hx
      · exact List.mem_singleton.mp hx ▸ hsegment
    simp only [tryParseFrom, Option.bind_eq_bind] at h
    split_ifs at h with hfull hc
    · obtain ⟨⟨segment, behind⟩, hscan, h⟩ := Option.bind_eq_some_iff.mp h
      obtain ⟨next, -, h⟩ := Option.bind_eq_some_iff.mp h
      obtain ⟨value, rfl, -⟩ := scanIndexSegment_spelling hscan
      have hindex : (PathSegment.index value).Named := trivial
      exact named_of_tryParseFrom fuel (hnamed hindex) h
    · obtain ⟨⟨segment, behind⟩, hscan, h⟩ := Option.bind_eq_some_iff.mp h
      obtain ⟨next, -, h⟩ := Option.bind_eq_some_iff.mp h
      exact named_of_tryParseFrom fuel (hnamed (named_of_scan hscan)) h

/-- No member name of a path that is read is empty. -/
theorem named_of_tryParse {limits : RuntimeLimits} {text : Text} {path : FieldPath}
    (h : tryParse limits text = some path) : ∀ x ∈ path, x.Named := by
  rw [tryParse] at h
  split_ifs at h
  · cases h
    exact List.forall_mem_nil _
  · exact named_of_tryParseFrom _ (List.forall_mem_nil _) h

/-- A text that is read is the spelling of its path, and two texts that are read, under whatever bounds, denote one
    path exactly when they are one text. -/
theorem tryParse_canonical {limits : RuntimeLimits} {text : Text} {path : FieldPath}
    (h : tryParse limits text = some path) :
    toText path = text ∧ ∀ (bounds : RuntimeLimits) (other : Text) (read : FieldPath),
      tryParse bounds other = some read → (read = path ↔ other = text) := by
  refine ⟨toText_of_tryParse h, fun bounds other read hread => ⟨fun heq => ?_, fun heq => ?_⟩⟩
  · rw [← toText_of_tryParse h, ← toText_of_tryParse hread, heq]
  · refine toText_injective (named_of_tryParse hread) (named_of_tryParse h) ?_
    rw [toText_of_tryParse hread, heq, toText_of_tryParse h]

theorem tryParse_canonical_nested :
    toText [.key (ascii "a"), .index 0, .key (ascii "b.c")] = ascii "a[0].b\\.c" ∧
      ∀ (bounds : RuntimeLimits) (other : Text) (read : FieldPath), tryParse bounds other = some read →
        (read = [.key (ascii "a"), .index 0, .key (ascii "b.c")] ↔ other = ascii "a[0].b\\.c") :=
  @tryParse_canonical {} _ _ (by decide +kernel)

/-! ### What is read back -/

theorem scanKey_escapedKey {rest : Text} (hends : KeyEnds rest) : ∀ {key : Text},
    (∀ c ∈ key, Char8.isControl c = false) → scanKey (escapedKey key ++ rest) = some (key, rest)
  | [], _ => by
    cases rest with
    | nil => rfl
    | cons c rest => rcases hends c rfl with rfl | rfl <;> simp [escapedKey, scanKey.eq_def (_ :: rest)]
  | c :: key, hplain => by
    have hc := hplain c List.mem_cons_self
    have ih := scanKey_escapedKey hends fun d hd => hplain d (List.mem_cons_of_mem _ hd)
    rw [escapedKey_cons, List.append_assoc]
    cases hescape : Char8.isEscapable c with
    | true => simp [scanKey, hescape, ih]
    | false =>
      simp only [Char8.isEscapable, Bool.or_eq_false_iff, beq_eq_false_iff_ne] at hescape
      rw [if_neg Bool.false_ne_true, List.singleton_append, scanKey.eq_def]
      simp [hescape, hc, ih]

theorem scanIndexSegment_decimal (value : UInt64) (rest : Text) :
    scanIndexSegment (decimal value.toNat ++ 0x5D :: rest) = some (.index value, rest) := by
  have hstop : ∀ c ∈ decimal value.toNat, (c != 0x5D) = true := by
    intro c hc
    have hdigit := isDigit_decimal value.toNat c hc
    simp only [bne_iff_ne]
    rintro rfl
    cases hdigit
  have hdigits : (decimal value.toNat ++ 0x5D :: rest).takeWhile (· != 0x5D) = decimal value.toNat := by
    rw [List.takeWhile_append_of_pos hstop]
    simp
  have hlength : (decimal value.toNat).length ≤ 20 :=
    length_decimal_le (by decide) (lt_trans value.toNat_lt (by decide))
  have hlead : ¬(1 < (decimal value.toNat).length ∧ (decimal value.toNat).head? = some 0x30) := by
    rintro ⟨hlong, hzero⟩
    rw [head_decimal hzero] at hlong
    exact Nat.lt_irrefl _ hlong
  have hall : (decimal value.toNat).all Char8.isDigit = true := List.all_eq_true.mpr (isDigit_decimal _)
  simp only [scanIndexSegment, hdigits, List.drop_left, Json.digitsValue_decimal, hall]
  rw [if_neg ?_, UInt64.ofNat_toNat, List.tail_cons]
  simp only [List.isEmpty_cons, List.isEmpty_eq_false_iff.mpr (decimal_ne_nil _), Bool.false_or, Bool.not_true,
    Bool.or_false, Bool.or_eq_true, Bool.and_eq_true, decide_eq_true_eq, beq_iff_eq, not_or]
  exact ⟨⟨Nat.not_lt.mpr hlength, hlead⟩, Nat.not_le.mpr value.toNat_lt⟩

theorem nextSegment_toTextFrom {path : FieldPath} (hpath : ∀ x ∈ path, x.Named) :
    nextSegment (toTextFrom false path) = some (toTextFrom true path) := by
  cases path with
  | nil => rfl
  | cons segment path =>
    cases segment with
    | index value => rfl
    | key key =>
      obtain ⟨c, rest, hc, hdot, hopen, hclose⟩ := escapedKey_head (hpath _ List.mem_cons_self)
      simp [toTextFrom, nextSegment, hc, hdot, hopen, hclose]

/-- What validation admits of a path whose member names can be written: not empty, and without control bytes. -/
structure Admitted (limits : RuntimeLimits) (path : FieldPath) : Prop where
  segments : path.length ≤ limits.maxPathSegments
  keys : ∀ key, PathSegment.key key ∈ path →
    key ≠ [] ∧ key.length ≤ limits.maxPathKeyBytes ∧ ∀ c ∈ key, Char8.isControl c = false

theorem Admitted.named {limits : RuntimeLimits} {path : FieldPath} (h : Admitted limits path) :
    ∀ x ∈ path, x.Named := by
  intro x hx
  cases x with
  | key key => exact (h.keys key hx).1
  | index value => trivial

/-- One round of the loop reads the first segment of a spelling. -/
theorem tryParseFrom_segment {limits : RuntimeLimits} {fuel : Nat} {path : FieldPath} {segment : PathSegment}
    {rest : List PathSegment} (h : Admitted limits (path ++ segment :: rest)) :
    tryParseFrom limits.maxPathSegments limits.maxPathKeyBytes (fuel + 1) path (toTextFrom true (segment :: rest)) =
      tryParseFrom limits.maxPathSegments limits.maxPathKeyBytes fuel (path ++ [segment]) (toTextFrom true rest) := by
  have hroom : ¬limits.maxPathSegments ≤ path.length := by
    have hsegments := h.segments
    rw [List.length_append, List.length_cons] at hsegments
    omega
  have hnext : nextSegment (toTextFrom false rest) = some (toTextFrom true rest) :=
    nextSegment_toTextFrom fun x hx => h.named x (List.mem_append_right _ (List.mem_cons_of_mem _ hx))
  cases segment with
  | index value =>
    simp [toTextFrom, tryParseFrom, hroom, scanIndexSegment_decimal, hnext]
  | key key =>
    obtain ⟨hne, hbytes, hplain⟩ := h.keys key (List.mem_append_right _ List.mem_cons_self)
    obtain ⟨c, text, hc, -, hopen, -⟩ := escapedKey_head hne
    have hscan : scanKeySegment limits.maxPathKeyBytes (escapedKey key ++ toTextFrom false rest) =
        some (.key key, toTextFrom false rest) := by
      simp [scanKeySegment, scanKey_escapedKey (keyEnds_toTextFrom rest) hplain, hne, hbytes]
    rw [hc, List.cons_append] at hscan
    simp [toTextFrom, hc, tryParseFrom, hroom, hopen, hscan, hnext]

theorem tryParseFrom_toTextFrom {limits : RuntimeLimits} : ∀ (fuel : Nat) (path rest : FieldPath),
    Admitted limits (path ++ rest) → rest.length ≤ fuel →
      tryParseFrom limits.maxPathSegments limits.maxPathKeyBytes fuel path (toTextFrom true rest) = some (path ++ rest)
  | fuel, path, [], _, _ => by
    rw [List.append_nil]
    cases fuel <;> rfl
  | 0, _, _ :: _, _, hfuel => by cases hfuel
  | fuel + 1, path, segment :: rest, h, hfuel => by
    have happend : path ++ segment :: rest = path ++ [segment] ++ rest := by rw [List.append_assoc]; rfl
    rw [tryParseFrom_segment h, happend]
    exact tryParseFrom_toTextFrom fuel (path ++ [segment]) rest (happend ▸ h) (Nat.le_of_succ_le_succ hfuel)

/-! ### The length of a spelling -/

theorem length_escapedKey (key : Text) : (escapedKey key).length = key.length + key.countP Char8.isEscapable := by
  induction key with
  | nil => rfl
  | cons c key ih =>
    rw [escapedKey_cons, List.length_append, ih, List.countP_cons, List.length_cons]
    cases Char8.isEscapable c <;> simp <;> omega

theorem length_toTextFrom_false (path : FieldPath) :
    (toTextFrom false path).length = (path.map PathSegment.spelledLength).sum + path.countP PathSegment.isKey := by
  induction path with
  | nil => rfl
  | cons segment path ih =>
    cases segment <;>
      simp [toTextFrom, ih, PathSegment.spelledLength, PathSegment.isKey, length_escapedKey, List.countP_cons] <;>
      omega

theorem length_toText (path : FieldPath) : (toText path).length = spelledLength path := by
  rw [toText, spelledLength]
  cases path with
  | nil => rfl
  | cons segment path =>
    cases segment <;>
      simp [toTextFrom, length_toTextFrom_false, PathSegment.spelledLength, length_escapedKey] <;> omega

theorem length_le_spelledLength {path : FieldPath} (hpath : ∀ x ∈ path, x.Named) :
    path.length ≤ spelledLength path := by
  refine le_trans ?_ (Nat.le_add_right _ _)
  induction path with
  | nil => exact Nat.le_refl 0
  | cons segment path ih =>
    have hrest := ih fun x hx => hpath x (List.mem_cons_of_mem _ hx)
    have hone : 1 ≤ segment.spelledLength := by
      cases segment with
      | key key => exact le_trans (List.length_pos_iff.mpr (hpath _ List.mem_cons_self)) (Nat.le_add_right _ _)
      | index value => exact le_trans (length_decimal_pos _) (Nat.le_add_right _ _)
    rw [List.map_cons, List.sum_cons, List.length_cons]
    omega

/-- An admitted path is read back exactly when it is the root or its spelling meets the bound on the length of a text,
    which takes no account of escapes. -/
theorem tryParse_toText_iff {limits : RuntimeLimits} {path : FieldPath} (h : Admitted limits path) :
    tryParse limits (toText path) = some path ↔ path = [] ∨ spelledLength path ≤ textBound limits := by
  rcases eq_or_ne path [] with rfl | hne
  · exact ⟨fun _ => .inl rfl, fun _ => rfl⟩
  have hlong := length_le_spelledLength h.named
  have hempty : (toText path).isEmpty = false := by
    rw [List.isEmpty_eq_false_iff, Ne, ← List.length_eq_zero_iff, length_toText]
    have := List.length_pos_iff.mpr hne
    omega
  rw [tryParse, hempty, if_neg Bool.false_ne_true, length_toText]
  by_cases hbound : textBound limits < spelledLength path
  · rw [if_pos hbound]
    exact ⟨fun hnone => (by cases hnone), fun hor => hor.elim (absurd · hne) (absurd hbound <| Nat.not_lt.mpr ·)⟩
  · rw [if_neg hbound, toText, tryParseFrom_toTextFrom _ [] path h hlong]
    exact ⟨fun _ => .inr (Nat.not_lt.mp hbound), fun _ => rfl⟩

theorem tryParse_toText_iff_nested :
    tryParse {} (toText [.key (ascii "a"), .index 0, .key (ascii "b.c")]) =
        some [.key (ascii "a"), .index 0, .key (ascii "b.c")] ↔
      [PathSegment.key (ascii "a"), .index 0, .key (ascii "b.c")] = [] ∨
        spelledLength [.key (ascii "a"), .index 0, .key (ascii "b.c")] ≤ textBound {} :=
  tryParse_toText_iff ⟨by decide, fun key hkey => by
    rcases List.mem_cons.mp hkey with heq | hkey
    · cases heq
      decide +kernel
    rcases List.mem_cons.mp hkey with heq | hkey
    · cases heq
    · cases List.mem_singleton.mp hkey
      decide +kernel⟩

/-- Seventeen member names of 256 dots each: within the default bounds, and refused. -/
theorem tryParse_toText_escaped :
    ∃ path : FieldPath, Admitted {} path ∧ tryParse {} (toText path) ≠ some path := by
  have hadmitted : ∀ n, 0 < n → n ≤ 256 → Admitted {} (List.replicate 17 (.key (List.replicate n 0x2E))) := by
    intro n hpos hle
    refine ⟨List.length_replicate.trans_le (by decide), fun key hkey => ?_⟩
    obtain ⟨-, heq⟩ := List.mem_replicate.mp hkey
    cases heq
    refine ⟨fun hnil => ?_, by rwa [List.length_replicate], fun c hc => ?_⟩
    · exact hpos.ne' ((List.replicate_eq_nil_iff _).mp hnil)
    · obtain ⟨-, rfl⟩ := List.mem_replicate.mp hc
      rfl
  have hlength : ∀ n, spelledLength (List.replicate 17 (.key (List.replicate n 0x2E))) = 17 * (n + n) + 16 := by
    intro n
    simp [spelledLength, PathSegment.spelledLength, PathSegment.isKey, Char8.isEscapable, List.countP_replicate,
      List.countP_cons]
    omega
  refine ⟨_, hadmitted 256 (by decide) (by decide), fun hread => ?_⟩
  rcases (tryParse_toText_iff (hadmitted 256 (by decide) (by decide))).mp hread with hroot | hbound
  · cases hroot
  · rw [hlength] at hbound
    exact absurd hbound (by decide)

end FieldPath

end DriftObservatory
