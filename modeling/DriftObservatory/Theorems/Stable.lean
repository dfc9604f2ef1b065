import DriftObservatory.Theorems.Accepted
import DriftObservatory.Theorems.Members

/-! Writing what was read. The value of an accepted document is settled: it has its canonical form, and its canonical
    and its indented spelling need no more of the envelope than the document did. -/

namespace DriftObservatory

namespace ValueTree
variable {limits : RuntimeLimits} {depth : Nat}

/-! ### Lists of trees -/

theorem fitsAll_iff {vs : List ValueTree} : FitsAll limits depth vs ↔ ∀ v ∈ vs, Fits limits depth v := by
  induction vs with
  | nil => simp [FitsAll]
  | cons v vs ih => rw [FitsAll, ih, List.forall_mem_cons]

theorem fitsMembers_iff {ms : List (Text × ValueTree)} :
    FitsMembers limits depth ms ↔ ∀ m ∈ ms, m.1.length ≤ limits.maxLeafBytes ∧ Fits limits depth m.2 := by
  induction ms with
  | nil => simp [FitsMembers]
  | cons m ms ih => rw [FitsMembers, ih, List.forall_mem_cons, and_assoc]

theorem encodedAll_iff {vs : List ValueTree} : EncodedAll vs ↔ ∀ v ∈ vs, Encoded v := by
  induction vs with
  | nil => simp [EncodedAll]
  | cons v vs ih => rw [EncodedAll, ih, List.forall_mem_cons]

theorem encodedMembers_iff {ms : List (Text × ValueTree)} :
    EncodedMembers ms ↔ ∀ m ∈ ms, isValidUtf8 m.1 = true ∧ Encoded m.2 := by
  induction ms with
  | nil => simp [EncodedMembers]
  | cons m ms ih => rw [EncodedMembers, ih, List.forall_mem_cons, and_assoc]

theorem canonicalAll_eq_self {vs : List ValueTree} : canonicalAll vs = vs ↔ ∀ v ∈ vs, canonical v = v := by
  induction vs with
  | nil => simp [canonicalAll]
  | cons v vs ih => rw [canonicalAll, List.cons.injEq, ih, List.forall_mem_cons]

theorem canonicalMembers_eq_self {ms : List (Text × ValueTree)} :
    canonicalMembers ms = ms ↔ ∀ m ∈ ms, canonical m.2 = m.2 := by
  induction ms with
  | nil => simp [canonicalMembers]
  | cons m ms ih =>
    obtain ⟨key, v⟩ := m
    rw [canonicalMembers, List.cons.injEq, Prod.mk.injEq, ih, List.forall_mem_cons]
    simp

theorem weightAll_eq_sum (vs : List ValueTree) : weightAll vs = (vs.map weight).sum := by
  induction vs with
  | nil => rfl
  | cons v vs ih => rw [weightAll, ih, List.map_cons, List.sum_cons]

theorem weightMembers_eq_sum (ms : List (Text × ValueTree)) :
    weightMembers ms = (ms.map fun m => weight m.2).sum := by
  induction ms with
  | nil => rfl
  | cons m ms ih => rw [weightMembers, ih, List.map_cons, List.sum_cons]

/-! ### Settled trees -/

/-- The tree is read back as itself. -/
structure Settled (limits : RuntimeLimits) (depth : Nat) (t : ValueTree) : Prop where
  fits : Fits limits depth t
  encoded : Encoded t
  canonical_eq : canonical t = t

theorem settled_list {vs : List ValueTree} :
    Settled limits depth (list vs) ↔ depth ≤ limits.maxValueDepth ∧ ∀ v ∈ vs, Settled limits (depth + 1) v := by
  constructor
  · rintro ⟨⟨hdeep, hfits⟩, hencoded, hcanonical⟩
    rw [canonical, list.injEq] at hcanonical
    exact ⟨hdeep, fun v hv => ⟨fitsAll_iff.mp hfits v hv, encodedAll_iff.mp hencoded v hv,
      canonicalAll_eq_self.mp hcanonical v hv⟩⟩
  · rintro ⟨hdeep, hall⟩
    refine ⟨⟨hdeep, fitsAll_iff.mpr fun v hv => (hall v hv).fits⟩, encodedAll_iff.mpr fun v hv => (hall v hv).encoded, ?_⟩
    rw [canonical, canonicalAll_eq_self.mpr fun v hv => (hall v hv).canonical_eq]

theorem settled_map {ms : List (Text × ValueTree)} :
    Settled limits depth (map ms) ↔ depth ≤ limits.maxValueDepth ∧ ms.length ≤ limits.maxFieldsPerObject ∧
      (∀ v, ms ≠ [(Json.kBytesMember, v)]) ∧
      ∀ m ∈ ms, m.1.length ≤ limits.maxLeafBytes ∧ isValidUtf8 m.1 = true ∧ Settled limits (depth + 1) m.2 := by
  constructor
  · rintro ⟨⟨hdeep, hcount, hfits⟩, ⟨hencoded, hproper⟩, hcanonical⟩
    have htag : tagged? ms = none := by
      rw [canonical] at hcanonical
      cases htagged : tagged? ms with
      | none => rfl
      | some raw =>
        rw [htagged] at hcanonical
        cases hcanonical
    simp only [canonical, htag, map.injEq] at hcanonical
    refine ⟨hdeep, hcount, fun v hv => ?_, fun m hm => ?_⟩
    · have hsome := hproper v hv
      rw [htag] at hsome
      cases hsome
    · obtain ⟨hlen, hfit⟩ := fitsMembers_iff.mp hfits m hm
      obtain ⟨hutf, henc⟩ := encodedMembers_iff.mp hencoded m hm
      exact ⟨hlen, hutf, hfit, henc, canonicalMembers_eq_self.mp hcanonical m hm⟩
  · rintro ⟨hdeep, hcount, hplain, hall⟩
    have htag : tagged? ms = none := by
      rw [tagged?.eq_def]
      split
      · next key hex => exact if_neg fun hkey => hplain (.string hex) (by rw [hkey])
      · rfl
    refine ⟨⟨hdeep, hcount, fitsMembers_iff.mpr fun m hm => ⟨(hall m hm).1, (hall m hm).2.2.fits⟩⟩,
      ⟨encodedMembers_iff.mpr fun m hm => ⟨(hall m hm).2.1, (hall m hm).2.2.encoded⟩, fun v hv => absurd hv (hplain v)⟩,
      ?_⟩
    simp only [canonical, htag, canonicalMembers_eq_self.mpr fun m hm => (hall m hm).2.2.canonical_eq]

end ValueTree

open ValueTree Outcome

namespace Json
variable [DoubleChars] {limits : RuntimeLimits}

/-! ### The value of a phrase -/

omit [DoubleChars] in
theorem settled_makeUint {depth : Nat} (u : UInt64) (h : depth ≤ limits.maxValueDepth) :
    Settled limits depth (Value.makeUint u).tree ∧ weight (Value.makeUint u).tree = 1 := by
  have hcanonical : (Value.makeUint u).tree.canonical = (Value.makeUint u).tree :=
    congrArg Value.tree (Value.canonical_makeUint u)
  have hcases : (∃ i, (Value.makeUint u).tree = .int i) ∨ (Value.makeUint u).tree = .uint u := by
    rw [Value.makeUint]
    split_ifs
    · exact .inl ⟨_, rfl⟩
    · exact .inr rfl
  rcases hcases with ⟨i, hi⟩ | hu
  · rw [hi] at hcanonical ⊢
    exact ⟨⟨h, trivial, hcanonical⟩, rfl⟩
  · rw [hu] at hcanonical ⊢
    exact ⟨⟨h, trivial, hcanonical⟩, rfl⟩

theorem NumberParts.settled {p : NumberParts} {v : Value} {depth : Nat} (h : p.value? = some v)
    (hdeep : depth ≤ limits.maxValueDepth) : Settled limits depth v.tree ∧ weight v.tree = 1 := by
  rw [value?, Option.or_eq_some_iff, Option.map_eq_some_iff] at h
  rcases h with h | ⟨-, d, -, rfl⟩
  · rw [integer?] at h
    split_ifs at h <;> cases h
    · exact settled_makeUint _ hdeep
    · exact ⟨⟨hdeep, trivial, rfl⟩, rfl⟩
  · exact ⟨⟨hdeep, trivial, rfl⟩, rfl⟩

namespace Phrase

omit [DoubleChars] in
/-- The members of a map are those that were listed. -/
theorem perm_ofList {pairs : List (Text × Value)} (h : (pairs.map Prod.fst).Nodup) :
    ((OrdMap.ofList pairs).mapValues fun _ v => v.tree).entries.Perm (pairs.map fun e => (e.1, e.2.tree)) := by
  have hperm := OrdMap.perm_entries_foldl_insert_of_nodup (m := OrdMap.empty) h fun _ _ => rfl
  rw [show (OrdMap.empty : OrdMap Text Value).entries = [] from rfl, List.append_nil] at hperm
  exact hperm.map _

omit [DoubleChars] in
theorem settled_denoteObject {pairs : List (Text × Value)} {v : Value} {depth : Nat} (h : denoteObject pairs = some v)
    (hdeep : depth ≤ limits.maxValueDepth) (hcount : pairs.length ≤ limits.maxFieldsPerObject)
    (hpairs : ∀ e ∈ pairs, e.1.length ≤ limits.maxLeafBytes ∧ isValidUtf8 e.1 = true ∧
      Settled limits (depth + 1) e.2.tree) :
    Settled limits depth v.tree ∧ weight v.tree = 1 + (pairs.map fun e => weight e.2.tree).sum := by
  rw [denoteObject.eq_def] at h
  split_ifs at h with hnodup
  -- an ordinary map holds its members in another order
  have hmap : (∀ w, pairs ≠ [(kBytesMember, w)]) →
      Settled limits depth (Value.makeMap (OrdMap.ofList pairs)).tree ∧
        weight (Value.makeMap (OrdMap.ofList pairs)).tree = 1 + (pairs.map fun e => weight e.2.tree).sum := by
    intro hplain
    have hperm := perm_ofList hnodup
    refine ⟨settled_map.mpr ⟨hdeep, ?_, fun w hw => ?_, fun m hm => ?_⟩, ?_⟩
    · rw [hperm.length_eq, List.length_map]
      exact hcount
    · rw [hw, List.singleton_perm] at hperm
      obtain ⟨⟨key, u⟩, hu, heq⟩ := List.map_eq_singleton_iff.mp hperm.symm
      obtain ⟨rfl, -⟩ := Prod.mk.inj heq
      exact hplain u hu
    · obtain ⟨e, he, rfl⟩ := List.mem_map.mp (hperm.mem_iff.mp hm)
      exact hpairs e he
    · show weight (.map _) = _
      rw [weight, weightMembers_eq_sum, (hperm.map fun m => weight m.2).sum_nat, List.map_map]
      rfl
  split at h
  · next name member =>
    by_cases hname : name = kBytesMember
    · rw [if_pos hname, Option.map_eq_some_iff] at h
      obtain ⟨raw, hraw, rfl⟩ := h
      obtain ⟨hex, hhex, hfrom⟩ := Option.bind_eq_some_iff.mp hraw
      obtain ⟨hlen, -, hmember⟩ := hpairs _ List.mem_cons_self
      have htree : member.tree = .string hex := by
        rw [Value.asString] at hhex
        split at hhex <;> simp_all
      simp only [htree] at hmember
      obtain ⟨hdeep', hshort⟩ := hmember.fits
      rw [length_of_fromHex hfrom] at hshort
      refine ⟨⟨⟨hdeep', by rwa [hname] at hlen, hshort, hcount⟩, trivial, rfl⟩, ?_⟩
      simp [Value.makeBytes, weight, htree]
    · rw [if_neg hname, Option.some.injEq] at h
      rw [← h]
      exact hmap fun w hw => hname (by simp_all)
  · next hmany =>
    rw [Option.some.injEq] at h
    rw [← h]
    exact hmap fun w hw => hmany _ _ hw

mutual

theorem settled : ∀ (phrase : Phrase) {v : Value} {depth : Nat}, phrase.denote = some v → phrase.Within limits →
    depth + phrase.depth ≤ limits.maxValueDepth → Settled limits depth v.tree ∧ weight v.tree = phrase.count
  | null, v, depth, hv, _, hdeep => by
    obtain rfl := Option.some.inj hv
    exact ⟨⟨hdeep, trivial, rfl⟩, rfl⟩
  | bool b, v, depth, hv, _, hdeep => by
    obtain rfl := Option.some.inj hv
    exact ⟨⟨hdeep, trivial, rfl⟩, rfl⟩
  | number parts, v, depth, hv, _, hdeep => NumberParts.settled hv hdeep
  | string items, v, depth, hv, hwithin, hdeep => by
    rw [denote, Option.map_eq_some_iff] at hv
    obtain ⟨bytes, hbytes, rfl⟩ := hv
    obtain ⟨hutf, hlen⟩ := hwithin bytes hbytes
    exact ⟨⟨⟨hdeep, hlen⟩, isValidUtf8_iff.mpr hutf, rfl⟩, rfl⟩
  | list blank elements, v, depth, hv, hwithin, hdeep => by
    rw [denote, Option.map_eq_some_iff] at hv
    obtain ⟨values, hvalues, rfl⟩ := hv
    rw [Phrase.depth] at hdeep
    obtain ⟨hall, hweight⟩ := settledElements elements hvalues hwithin hdeep
    refine ⟨settled_list.mpr ⟨by omega, fun t ht => ?_⟩, ?_⟩
    · obtain ⟨w, hw, rfl⟩ := List.mem_map.mp ht
      exact hall w hw
    · show weight (.list (values.map Value.tree)) = _
      rw [weight, weightAll_eq_sum, List.map_map, count, ← hweight]
      rfl
  | object blank members, v, depth, hv, hwithin, hdeep => by
    rw [denote, Option.bind_eq_some_iff] at hv
    obtain ⟨pairs, hpairs, hobject⟩ := hv
    rw [Phrase.depth] at hdeep
    obtain ⟨hall, hlength, hweight⟩ := settledMembers members hpairs hwithin.2 hdeep
    rw [count, ← hweight]
    exact settled_denoteObject hobject (by omega) (hlength.trans_le hwithin.1) hall

theorem settledElements : ∀ (elements : List (Gap × Phrase)) {values : List Value} {depth : Nat},
    denoteElements elements = some values → WithinElements limits elements →
    depth + depthElements elements ≤ limits.maxValueDepth →
      (∀ v ∈ values, Settled limits (depth + 1) v.tree) ∧ (values.map fun v => weight v.tree).sum = countElements elements
  | [], values, depth, hvalues, _, _ => by
    obtain rfl := Option.some.inj hvalues
    exact ⟨fun v hv => absurd hv List.not_mem_nil, rfl⟩
  | (gap, phrase) :: elements, values, depth, hvalues, hwithin, hdeep => by
    simp only [denoteElements, Option.bind_eq_some_iff, Option.map_eq_some_iff] at hvalues
    obtain ⟨v, hv, vs, hvs, rfl⟩ := hvalues
    rw [depthElements] at hdeep
    obtain ⟨hone, hweight⟩ := settled phrase hv hwithin.1 (show depth + 1 + _ ≤ _ by omega)
    obtain ⟨hall, hweights⟩ := settledElements elements hvs hwithin.2 (show depth + _ ≤ _ by omega)
    exact ⟨List.forall_mem_cons.mpr ⟨hone, hall⟩, by rw [List.map_cons, List.sum_cons, hweight, hweights, countElements]⟩

theorem settledMembers : ∀ (members : List (Label × Phrase)) {pairs : List (Text × Value)} {depth : Nat},
    denoteMembers members = some pairs → WithinMembers limits members →
    depth + depthMembers members ≤ limits.maxValueDepth →
      (∀ e ∈ pairs, e.1.length ≤ limits.maxLeafBytes ∧ isValidUtf8 e.1 = true ∧ Settled limits (depth + 1) e.2.tree) ∧
        pairs.length = members.length ∧ (pairs.map fun e => weight e.2.tree).sum = countMembers members
  | [], pairs, depth, hpairs, _, _ => by
    obtain rfl := Option.some.inj hpairs
    exact ⟨fun v hv => absurd hv List.not_mem_nil, rfl, rfl⟩
  | (label, phrase) :: members, pairs, depth, hpairs, hwithin, hdeep => by
    simp only [denoteMembers, Option.bind_eq_some_iff, Option.map_eq_some_iff] at hpairs
    obtain ⟨key, hkey, v, hv, more, hmore, rfl⟩ := hpairs
    rw [depthMembers] at hdeep
    obtain ⟨hutf, hlen⟩ := hwithin.1 key hkey
    obtain ⟨hone, hweight⟩ := settled phrase hv hwithin.2.1 (show depth + 1 + _ ≤ _ by omega)
    obtain ⟨hall, hlength, hweights⟩ := settledMembers members hmore hwithin.2.2 (show depth + _ ≤ _ by omega)
    refine ⟨List.forall_mem_cons.mpr ⟨⟨hlen, isValidUtf8_iff.mpr hutf, hone⟩, hall⟩, congrArg (· + 1) hlength, ?_⟩
    rw [List.map_cons, List.sum_cons, hweight, hweights, countMembers]

end

end Phrase

/-- An accepted document has a settled value. -/
theorem settled_of_parse {text : Text} {v : Value} (h : parse limits text = .ok v) :
    Settled limits 0 v.tree ∧ weight v.tree ≤ limits.maxValueNodes := by
  obtain ⟨before, phrase, after, -, hdenote, hwithin, hdeep, hcount⟩ := parse_eq_ok.mp h
  obtain ⟨hsettled, hweight⟩ := phrase.settled hdenote hwithin ((Nat.zero_add _).trans_le hdeep)
  exact ⟨hsettled, hweight.trans_le hcount⟩

/-! ### Indented spellings -/

omit [DoubleChars] in
theorem Value.trees_elementsOf (vs : List ValueTree) (h : WellFormedAll vs) :
    (Value.elementsOf vs h).map Value.tree = vs := by
  induction vs with
  | nil => rfl
  | cons v vs ih => exact congrArg (v :: ·) (ih h.2)

omit [DoubleChars] in
theorem Value.trees_membersOf : ∀ (ms : List (Text × ValueTree)) (h : WellFormedMembers ms),
    ((Value.membersOf ms h).map fun e => (e.1, e.2.tree)) = ms
  | [], _ => rfl
  | m :: ms, h => congrArg (m :: ·) (Value.trees_membersOf ms h.2)

omit [DoubleChars] in
theorem denoteObject_membersOf {ms : List (Text × ValueTree)} (hwf : WellFormed (.map ms))
    (hplain : ∀ v, ms ≠ [(kBytesMember, v)]) :
    Phrase.denoteObject (Value.membersOf ms hwf.2) = some ⟨.map ms, hwf⟩ := by
  have htrees := Value.trees_membersOf ms hwf.2
  have hsorted : (Value.membersOf ms hwf.2).Pairwise fun a b => a.1 < b.1 := by
    rw [← List.pairwise_map (f := Prod.fst) (R := (· < ·)), Value.keys_membersOf, List.pairwise_map]
    exact hwf.1
  have hnodup : ((Value.membersOf ms hwf.2).map Prod.fst).Nodup := (List.pairwise_map.mpr hsorted).imp ne_of_lt
  have hentries : (OrdMap.ofList (Value.membersOf ms hwf.2)).entries = Value.membersOf ms hwf.2 := by
    have hfold := OrdMap.entries_foldl_insert (m := (OrdMap.empty : OrdMap Text Value)) Prod.fst Prod.snd hsorted
      fun e he => absurd he List.not_mem_nil
    rw [List.map_id'] at hfold
    exact hfold
  have hmap : Value.makeMap (OrdMap.ofList (Value.membersOf ms hwf.2)) = ⟨.map ms, hwf⟩ := by
    apply tree_injective
    show ValueTree.map (List.map _ (OrdMap.ofList (Value.membersOf ms hwf.2)).entries) = _
    rw [hentries, htrees]
  rw [Phrase.denoteObject.eq_def, if_pos hnodup]
  split
  · next name member heq =>
    have hname : name ≠ kBytesMember := by
      rintro rfl
      rw [heq] at htrees
      exact hplain _ htrees.symm
    rw [if_neg hname, ← heq, hmap]
  · rw [hmap]

/-- The white space of a line break. -/
def indentBlank (width : UInt64) (depth : Nat) : Blank where
  text := writeIndent width depth
  space := by
    intro c hc
    rw [writeIndent] at hc
    split_ifs at hc
    · exact absurd hc List.not_mem_nil
    · rcases List.mem_cons.mp hc with rfl | hc
      · rfl
      · rw [List.eq_of_mem_replicate hc]
        rfl

def noBlank : Blank := ⟨[], fun _ hc => absurd hc List.not_mem_nil⟩

def oneBlank : Blank := ⟨[0x20], fun c hc => by rw [List.mem_singleton.mp hc]; rfl⟩

omit [DoubleChars] in
theorem isEmpty_cons {α : Type} (x : α) (xs : List α) : ¬ (x :: xs).isEmpty = true := Bool.false_ne_true

/-- The compact spelling of a settled tree is a phrase. -/
theorem compact_phrase [LawfulDoubleChars] {t : ValueTree} {depth nodes : Nat} (hwf : WellFormed t) (h : Settled limits depth t)
    (hnodes : nodes + weight t ≤ limits.maxValueNodes) :
    ∃ phrase, Phrase.text phrase = writeCompact t ∧ Admitted limits depth nodes phrase ⟨t, hwf⟩ (nodes + weight t) := by
  obtain ⟨v, hread⟩ := reread_complete t nodes hwf h.fits h.encoded hnodes
  obtain ⟨-, -, -, -, htree⟩ := reread_sound t hwf hread
  have hv : v = ⟨t, hwf⟩ := tree_injective (htree.trans h.canonical_eq)
  have hend : Delimited [] := fun c hc => by cases hc
  have hvalue : parseValue limits (calls t) depth nodes (writeCompact t ++ []) = before [] (.ok (v, nodes + weight t)) := by
    rw [parseValue_written t _ (Nat.le_refl _) hend, hread]
  obtain ⟨phrase, htext, hadm⟩ := parseValue_sound _ hvalue
  rw [List.append_nil, List.append_nil] at htext
  exact ⟨phrase, htext.symm, hv ▸ hadm⟩

omit [DoubleChars] in
/-- The spelling of a name. -/
theorem exists_items {name : Text} (hutf : isValidUtf8 name = true) (hlen : name.length ≤ limits.maxLeafBytes) :
    ∃ items, quoted items = appendEscaped name ∧ decodeItems items = some name := by
  have hread := parseString_escaped limits name []
  rw [rereadText_eq_ok.mpr ⟨hlen, hutf, rfl⟩] at hread
  obtain ⟨items, htext, hdecode, -⟩ := parseString_eq_ok.mp hread
  refine ⟨items, ?_, hdecode⟩
  rw [quoted, appendEscaped, List.cons_append, List.cons_append, htext]

mutual

theorem pretty_phrase [LawfulDoubleChars] (width : UInt64) :
    ∀ (t : ValueTree) (indent nodes : Nat) {depth : Nat} (hwf : WellFormed t),
    Settled limits depth t → nodes + weight t ≤ limits.maxValueNodes →
      ∃ phrase, Phrase.text phrase = writePretty width indent t ∧
        Admitted limits depth nodes phrase ⟨t, hwf⟩ (nodes + weight t)
  | .null, _, _, _, hwf, h, hnodes => compact_phrase hwf h hnodes
  | .bool _, _, _, _, hwf, h, hnodes => compact_phrase hwf h hnodes
  | .int _, _, _, _, hwf, h, hnodes => compact_phrase hwf h hnodes
  | .uint _, _, _, _, hwf, h, hnodes => compact_phrase hwf h hnodes
  | .double _, _, _, _, hwf, h, hnodes => compact_phrase hwf h hnodes
  | .string _, _, _, _, hwf, h, hnodes => compact_phrase hwf h hnodes
  | .bytes _, _, _, _, hwf, h, hnodes => compact_phrase hwf h hnodes
  | .list [], indent, nodes, depth, hwf, h, hnodes =>
    ⟨.list noBlank [], rfl, rfl, trivial, h.fits.1, rfl, hnodes⟩
  | .list (v :: vs), indent, nodes, depth, hwf, h, hnodes => by
    rw [weight] at hnodes ⊢
    obtain ⟨hdeep, hall⟩ := settled_list.mp h
    obtain ⟨elements, htext, hadm⟩ := pretty_elements width (v :: vs) (indentBlank width indent) (indent + 1)
      (nodes + 1) true hwf (List.cons_ne_nil _ _) hall (by omega)
    refine ⟨.list noBlank elements, ?_, ?_, hadm.within, hadm.deep, ?_, by omega⟩
    · rw [Phrase.text, htext, writePretty, if_neg (isEmpty_cons v vs)]
      simp [noBlank, indentBlank]
    · rw [Phrase.denote, hadm.denotes, Option.map_some, Option.some.injEq]
      exact tree_injective (congrArg ValueTree.list (Value.trees_elementsOf _ hwf))
    · have := hadm.counted
      rw [Phrase.count]
      omega
  | .map [], indent, nodes, depth, hwf, h, hnodes =>
    ⟨.object noBlank [], rfl, rfl, ⟨Nat.zero_le _, trivial⟩, h.fits.1, rfl, hnodes⟩
  | .map (m :: ms), indent, nodes, depth, hwf, h, hnodes => by
    rw [weight] at hnodes ⊢
    obtain ⟨hdeep, hcount, hplain, hall⟩ := settled_map.mp h
    obtain ⟨members, htext, hadm⟩ := pretty_members width (m :: ms) (indentBlank width indent) (indent + 1)
      (nodes + 1) true hwf.2 (List.cons_ne_nil _ _) hall (by omega)
    refine ⟨.object noBlank members, ?_, ?_, ⟨?_, hadm.within⟩, hadm.deep, ?_, by omega⟩
    · rw [Phrase.text, htext, writePretty, if_neg (isEmpty_cons m ms)]
      simp [noBlank, indentBlank]
    · rw [Phrase.denote, hadm.denotes, Option.bind_some]
      exact denoteObject_membersOf hwf hplain
    · have hlength := congrArg List.length (Value.trees_membersOf _ hwf.2)
      rw [List.length_map] at hlength
      rw [← hadm.length_asString.1, hlength]
      exact hcount
    · have := hadm.counted
      rw [Phrase.count]
      omega

theorem pretty_elements [LawfulDoubleChars] (width : UInt64) :
    ∀ (vs : List ValueTree) (last : Blank) (indent nodes : Nat) {depth : Nat}
    (first : Bool) (hwf : WellFormedAll vs), vs ≠ [] → (∀ w ∈ vs, Settled limits (depth + 1) w) →
    nodes + weightAll vs ≤ limits.maxValueNodes →
      ∃ elements, Phrase.elementsText first elements = writePrettyElements width indent first vs ++ last.text ∧
        AdmittedElements limits depth nodes elements (Value.elementsOf vs hwf) (nodes + weightAll vs)
  | [], _, _, _, _, _, _, hne, _, _ => absurd rfl hne
  | [v], last, indent, nodes, depth, first, hwf, _, hall, hnodes => by
    rw [weightAll, weightAll] at hnodes ⊢
    obtain ⟨phrase, htext, hadm⟩ := pretty_phrase width v indent nodes hwf.1 (hall v List.mem_cons_self) (by omega)
    have hdeep := hadm.deep
    refine ⟨[(⟨indentBlank width indent, last⟩, phrase)], ?_, admittedElements_cons.mpr
      ⟨_, _, _, rfl, hadm, admittedElements_nil.mpr ⟨rfl, by omega, hadm.few, rfl⟩⟩⟩
    simp [Phrase.elementsText, writePrettyElements, htext, indentBlank]
  | v :: w :: ws, last, indent, nodes, depth, first, hwf, _, hall, hnodes => by
    rw [weightAll] at hnodes ⊢
    obtain ⟨phrase, htext, hadm⟩ := pretty_phrase width v indent nodes hwf.1 (hall v List.mem_cons_self) (by omega)
    obtain ⟨elements, htexts, hadms⟩ := pretty_elements width (w :: ws) last indent (nodes + weight v) false hwf.2
      (List.cons_ne_nil _ _) (fun u hu => hall u (List.mem_cons_of_mem v hu)) (by omega)
    refine ⟨(⟨indentBlank width indent, noBlank⟩, phrase) :: elements, ?_, ?_⟩
    · rw [Phrase.elementsText, writePrettyElements, htexts, htext]
      simp [indentBlank, noBlank]
    · rw [← Nat.add_assoc]
      exact admittedElements_cons.mpr ⟨_, _, _, rfl, hadm, hadms⟩

theorem pretty_members [LawfulDoubleChars] (width : UInt64) : ∀ (ms : List (Text × ValueTree)) (last : Blank) (indent nodes : Nat)
    {depth : Nat} (first : Bool) (hwf : WellFormedMembers ms), ms ≠ [] →
    (∀ e ∈ ms, e.1.length ≤ limits.maxLeafBytes ∧ isValidUtf8 e.1 = true ∧ Settled limits (depth + 1) e.2) →
    nodes + weightMembers ms ≤ limits.maxValueNodes →
      ∃ members, Phrase.membersText first members = writePrettyMembers width indent first ms ++ last.text ∧
        AdmittedMembers limits depth nodes members (Value.membersOf ms hwf) (nodes + weightMembers ms)
  | [], _, _, _, _, _, _, hne, _, _ => absurd rfl hne
  | [(key, v)], last, indent, nodes, depth, first, hwf, _, hall, hnodes => by
    rw [weightMembers, weightMembers] at hnodes ⊢
    obtain ⟨hlen, hutf, hv⟩ := hall _ List.mem_cons_self
    obtain ⟨items, hquoted, hdecode⟩ := exists_items hutf hlen
    obtain ⟨phrase, htext, hadm⟩ := pretty_phrase width v indent nodes hwf.1 hv (by omega)
    have hdeep := hadm.deep
    refine ⟨[(⟨indentBlank width indent, items, noBlank, oneBlank, last⟩, phrase)], ?_, admittedMembers_cons.mpr
      ⟨_, _, _, _, rfl, hdecode, isValidUtf8_iff.mp hutf, hlen, hadm,
        admittedMembers_nil.mpr ⟨rfl, by omega, hadm.few, rfl⟩⟩⟩
    simp [Phrase.membersText, writePrettyMembers, Label.text, htext, hquoted, indentBlank, noBlank, oneBlank, ascii]
  | (key, v) :: e :: es, last, indent, nodes, depth, first, hwf, _, hall, hnodes => by
    rw [weightMembers] at hnodes ⊢
    obtain ⟨hlen, hutf, hv⟩ := hall _ List.mem_cons_self
    obtain ⟨items, hquoted, hdecode⟩ := exists_items hutf hlen
    obtain ⟨phrase, htext, hadm⟩ := pretty_phrase width v indent nodes hwf.1 hv (by omega)
    obtain ⟨members, htexts, hadms⟩ := pretty_members width (e :: es) last indent (nodes + weight v) false hwf.2
      (List.cons_ne_nil _ _) (fun u hu => hall u (List.mem_cons_of_mem _ hu)) (by omega)
    refine ⟨(⟨indentBlank width indent, items, noBlank, oneBlank, noBlank⟩, phrase) :: members, ?_, ?_⟩
    · rw [Phrase.membersText, writePrettyMembers, htexts, htext]
      simp [Label.text, hquoted, indentBlank, noBlank, oneBlank, ascii]
    · rw [← Nat.add_assoc]
      exact admittedMembers_cons.mpr ⟨_, _, _, _, rfl, hdecode, isValidUtf8_iff.mp hutf, hlen, hadm, hadms⟩

end

/-! ### Documents -/

theorem parse_settled {text : Text} {phrase : Phrase} {v : Value} {n : Nat} (htext : phrase.text = text)
    (hadm : Admitted limits 0 0 phrase v n) : parse limits text = .ok v := by
  have hdeep := hadm.deep
  have hcount := hadm.counted
  have hfew := hadm.few
  refine parse_eq_ok.mpr ⟨noBlank, phrase, noBlank, ?_, hadm.denotes, hadm.within, by omega, by omega⟩
  rw [htext]
  exact (List.append_nil text).symm

/-- The value of an accepted document is read back from its canonical and from every indented spelling, and the
    canonical spelling is written again. -/
theorem reencode_stable [LawfulDoubleChars] {text : Text} {v : Value} (h : parseJson limits text = .ok v) :
    ((writeCanonicalJson v).length ≤ limits.maxDocumentBytes →
      parseJson limits (writeCanonicalJson v) = .ok v ∧
        (parseJson limits (writeCanonicalJson v)).map writeCanonicalJson = .ok (writeCanonicalJson v)) ∧
    ∀ width, (writePrettyJson v width).length ≤ limits.maxDocumentBytes →
      parseJson limits (writePrettyJson v width) = .ok v := by
  rw [parseJson, exceed, ite_error_eq_ok] at h
  obtain ⟨hsettled, hweight⟩ := settled_of_parse h.2
  have hnodes : 0 + weight v.tree ≤ limits.maxValueNodes := (Nat.zero_add _).trans_le hweight
  constructor
  · intro hlen
    obtain ⟨phrase, htext, hadm⟩ := compact_phrase v.wellFormed hsettled hnodes
    have hread : parseJson limits (writeCanonicalJson v) = .ok v := by
      rw [parseJson, if_neg (not_lt.mpr hlen)]
      exact parse_settled htext hadm
    exact ⟨hread, by rw [hread]; rfl⟩
  · intro width hlen
    obtain ⟨phrase, htext, hadm⟩ := pretty_phrase width v.tree 0 0 v.wellFormed hsettled hnodes
    rw [parseJson, if_neg (not_lt.mpr hlen)]
    exact parse_settled htext hadm

end Json

namespace Sample

/-- A document with white space, an upper-case digit and an escape that no writer produces. -/
def loose : Text := ascii "\x7b \"b\": [1, -2 ],\n\"a\" :\x7b\"$bytes\": \"0A\"\x7d, \"c\": \"\\u00e9\" \x7d "

end Sample

theorem Json.reencode_stable_loose :
    ∃ v, @parseJson Sample.bitDoubles {} Sample.loose = .ok v ∧ v.asMap.isSome = true ∧
      ∀ width, (@writePrettyJson Sample.bitDoubles v width).length ≤ 32 * 1024 * 1024 →
        @parseJson Sample.bitDoubles {} (@writePrettyJson Sample.bitDoubles v width) = .ok v := by
  have hok : (match @parseJson Sample.bitDoubles {} Sample.loose with
      | .ok v => v.asMap.isSome
      | .error _ => false) = true := by decide +kernel
  split at hok
  · next v hv => exact ⟨v, hv, hok, (@reencode_stable Sample.bitDoubles {} Sample.lawful_bitDoubles _ _ hv).2⟩
  · cases hok

end DriftObservatory
