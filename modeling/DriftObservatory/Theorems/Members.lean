import DriftObservatory.Theorems.Legible
import DriftObservatory.Theorems.Spellings

/-! Members of written objects: after a document was written and read back, each of its members is found under its
    name, in canonical form. -/

namespace DriftObservatory

open Json Outcome

/-! ### Canonical values -/

namespace Value

theorem canonicalAll_trees : ∀ vs : List Value, ValueTree.canonicalAll (vs.map tree) = (vs.map canonical).map tree
  | [] => rfl
  | v :: vs => congrArg (v.tree.canonical :: ·) (canonicalAll_trees vs)

theorem canonicalMembers_trees : ∀ ms : List (Text × Value),
    ValueTree.canonicalMembers (ms.map fun m => (m.1, m.2.tree)) = ms.map fun m => (m.1, m.2.canonical.tree)
  | [] => rfl
  | m :: ms => congrArg ((m.1, m.2.tree.canonical) :: ·) (canonicalMembers_trees ms)

@[simp] theorem canonical_makeNull : makeNull.canonical = makeNull := rfl

@[simp] theorem canonical_makeString (text : Text) : (makeString text).canonical = makeString text := rfl

@[simp] theorem canonical_makeBool (b : Bool) : (makeBool b).canonical = makeBool b := rfl

@[simp] theorem canonical_makeInt (i : Int64) : (makeInt i).canonical = makeInt i := rfl

@[simp] theorem canonical_makeUint (u : UInt64) : (makeUint u).canonical = makeUint u := by
  apply tree_injective
  show (makeUint u).tree.canonical = (makeUint u).tree
  by_cases h : u.toNat ≤ 9223372036854775807
  · rw [makeUint, if_pos h]
    rfl
  · rw [makeUint, if_neg h]
    simp only [ValueTree.canonical, makeUint, if_neg h]

@[simp] theorem canonical_makeList (vs : List Value) : (makeList vs).canonical = makeList (vs.map canonical) :=
  tree_injective (congrArg ValueTree.list (canonicalAll_trees vs))

theorem tagged?_of_absent {ms : List (Text × ValueTree)} (h : ∀ m ∈ ms, m.1 ≠ kBytesMember) :
    ValueTree.tagged? ms = none := by
  rw [ValueTree.tagged?.eq_def]
  split
  · exact if_neg (h _ List.mem_cons_self)
  · rfl

theorem canonical_makeMap {m : OrdMap Text Value} (h : m.find? kBytesMember = none) :
    (makeMap m).canonical = makeMap (m.mapValues fun _ v => v.canonical) := by
  have htag : ValueTree.tagged? (m.entries.map fun e => (e.1, e.2.tree)) = none := by
    refine tagged?_of_absent fun e he hkey => ?_
    obtain ⟨⟨key, v⟩, hmem, rfl⟩ := List.mem_map.mp he
    rw [show key = kBytesMember from hkey, OrdMap.mem_entries_iff, h] at hmem
    cases hmem
  apply tree_injective
  show (ValueTree.map (m.entries.map fun e => (e.1, e.2.tree))).canonical = _
  rw [ValueTree.canonical, htag]
  simp only [canonicalMembers_trees, makeMap, OrdMap.mapValues, List.map_map, Function.comp_def]

theorem elementsOf_trees : ∀ vs : List Value, elementsOf (vs.map tree) (wellFormedAll_trees vs) = vs
  | [] => rfl
  | v :: vs => congrArg (v :: ·) (elementsOf_trees vs)

theorem membersOf_trees : ∀ ms : List (Text × Value),
    membersOf (ms.map fun e => (e.1, e.2.tree)) (wellFormedMembers_trees ms) = ms
  | [] => rfl
  | m :: ms => congrArg (m :: ·) (membersOf_trees ms)

@[simp] theorem asList_makeList (vs : List Value) : (makeList vs).asList = some vs := congrArg some (elementsOf_trees vs)

@[simp] theorem asMap_makeMap (m : OrdMap Text Value) : (makeMap m).asMap = some m := by
  cases m with
  | mk entries sorted =>
    simp only [asMap, makeMap, OrdMap.mapValues, Option.some.injEq, OrdMap.mk.injEq]
    exact membersOf_trees entries

@[simp] theorem asString_makeString (text : Text) : (makeString text).asString = some text := rfl

@[simp] theorem asBool_makeBool (b : Bool) : (makeBool b).asBool = some b := rfl

@[simp] theorem asInt_makeInt (i : Int64) : (makeInt i).asInt = some i := rfl

@[simp] theorem hasKind_makeString (text : Text) : memberHasKind (makeString text) .text = true := rfl

@[simp] theorem hasKind_makeBool (b : Bool) : memberHasKind (makeBool b) .boolean = true := rfl

@[simp] theorem hasKind_makeInt (i : Int64) : memberHasKind (makeInt i) .integer = true := rfl

@[simp] theorem hasKind_makeList (vs : List Value) : memberHasKind (makeList vs) .sequence = true := by
  simp [memberHasKind]

@[simp] theorem hasKind_makeUint (u : UInt64) : memberHasKind (makeUint u) .integer = true := by
  rw [makeUint]
  split_ifs <;> rfl

@[simp] theorem uintOf_makeUint (u : UInt64) : uintOf (makeUint u) = some u := by
  by_cases h : u.toNat ≤ 9223372036854775807
  · rw [makeUint, if_pos h, uintOf]
    have hpos : 0 ≤ u.toInt64 := by
      rw [Int64.le_iff_toInt_le]
      show 0 ≤ u.toBitVec.toInt
      rw [BitVec.toInt_eq_toNat_of_lt (by rw [UInt64.toNat_toBitVec]; omega)]
      exact Int.natCast_nonneg _
    simp [asUint, asInt, hpos]
  · rw [makeUint, if_neg h]
    rfl

end Value

/-! ### Members -/

theorem find?_ofList : ∀ {es : List (Text × Value)} {m : Members}, (es.map Prod.fst).Nodup →
    (∀ e ∈ es, (es.foldl (fun m e => m.insert e.1 e.2) m).find? e.1 = some e.2) ∧
      ∀ key, key ∉ es.map Prod.fst → (es.foldl (fun m e => m.insert e.1 e.2) m).find? key = m.find? key
  | [], _, _ => ⟨fun _ he => absurd he List.not_mem_nil, fun _ _ => rfl⟩
  | e :: es, m, hnodup => by
    rw [List.map_cons, List.nodup_cons] at hnodup
    obtain ⟨hfind, hrest⟩ := @find?_ofList es (m.insert e.1 e.2) hnodup.2
    refine ⟨fun d hd => ?_, fun key hkey => ?_⟩
    · rcases List.mem_cons.mp hd with rfl | hd
      · rw [List.foldl_cons, hrest _ hnodup.1, OrdMap.find?_insert_self]
      · exact hfind d hd
    · rw [List.map_cons, List.mem_cons, not_or] at hkey
      rw [List.foldl_cons, hrest key hkey.2, OrdMap.find?_insert_of_ne (Ne.symm hkey.1)]

section Lookup
variable {ms : List (String × Value)}

/-- The names of the members, as bytes. -/
def memberNames (ms : List (String × Value)) : List Text := ms.map fun m => ascii m.1

theorem keys_named (ms : List (String × Value)) :
    (ms.map fun m => (ascii m.1, m.2)).map Prod.fst = memberNames ms := by
  rw [List.map_map]
  rfl

theorem findMember_objectMembers (h : (memberNames ms).Nodup) :
    ∀ m ∈ ms, findMember (objectMembers ms) m.1 = some m.2 := fun m hm =>
  (find?_ofList ((keys_named ms).symm ▸ h)).1 (ascii m.1, m.2) (List.mem_map_of_mem hm)

theorem find?_objectMembers_of_notMem (h : (memberNames ms).Nodup) {key : Text} (hkey : key ∉ memberNames ms) :
    (objectMembers ms).find? key = none := by
  rw [objectMembers, OrdMap.ofList, (find?_ofList ((keys_named ms).symm ▸ h)).2 key ((keys_named ms).symm ▸ hkey)]
  rfl

theorem mapValues_objectMembers (h : (memberNames ms).Nodup) :
    (objectMembers ms).mapValues (fun _ v => v.canonical) = objectMembers (ms.map fun m => (m.1, m.2.canonical)) := by
  have hnames : memberNames (ms.map fun m => (m.1, m.2.canonical)) = memberNames ms := by
    simp [memberNames, Function.comp_def]
  apply OrdMap.ext_find?
  intro key
  rw [OrdMap.find?_mapValues]
  by_cases hkey : key ∈ memberNames ms
  · obtain ⟨m, hm, rfl⟩ := List.mem_map.mp hkey
    have hleft : (objectMembers ms).find? (ascii m.1) = some m.2 := findMember_objectMembers h m hm
    have hright : (objectMembers (ms.map fun m => (m.1, m.2.canonical))).find? (ascii m.1) = some m.2.canonical :=
      findMember_objectMembers (hnames.symm ▸ h) (m.1, m.2.canonical)
        (List.mem_map_of_mem (f := fun m : String × Value => (m.1, m.2.canonical)) hm)
    rw [hleft, hright]
    rfl
  · rw [find?_objectMembers_of_notMem h hkey, find?_objectMembers_of_notMem (hnames.symm ▸ h) (hnames.symm ▸ hkey)]
    rfl

theorem checkMembers_objectMembers {allowed : List String} {what : String} (h : (memberNames ms).Nodup)
    (hsub : ∀ m ∈ ms, m.1 ∈ allowed) : checkMembers (objectMembers ms) allowed what = .ok () := by
  have hnone : ((objectMembers ms).keys.find? fun key => !(allowed.any fun name => ascii name == key)) = none := by
    rw [List.find?_eq_none]
    intro key hkey
    rw [OrdMap.mem_keys, OrdMap.contains_iff] at hkey
    obtain ⟨v, hv⟩ := hkey
    have hmem : key ∈ memberNames ms := by
      by_contra hnot
      rw [find?_objectMembers_of_notMem h hnot] at hv
      cases hv
    obtain ⟨m, hm, rfl⟩ := List.mem_map.mp hmem
    simpa using ⟨m.1, hsub m hm, rfl⟩
  rw [checkMembers, hnone]

/-- The names of an object are distinct and none of them tags a byte string. -/
def Named (ms : List (String × Value)) : Prop := (memberNames ms).Nodup ∧ kBytesMember ∉ memberNames ms

/-- A value that is read back as an object: it passes the check of its names, and each of its members is found in
    canonical form. -/
def Reads (v : Value) (ms : List (String × Value)) : Prop :=
  ∃ M, v.canonical.asMap = some M ∧
    (∀ allowed what, (∀ m ∈ ms, m.1 ∈ allowed) → checkMembers M allowed what = .ok ()) ∧
    (∀ name : String, ascii name ∉ memberNames ms → findMember M name = none) ∧
    ∀ m ∈ ms, findMember M m.1 = some m.2.canonical

theorem reads_object (h : Named ms) : Reads (object ms) ms := by
  have hnames : memberNames (ms.map fun m => (m.1, m.2.canonical)) = memberNames ms := by
    simp [memberNames, Function.comp_def]
  refine ⟨objectMembers (ms.map fun m => (m.1, m.2.canonical)), ?_, fun allowed what hsub => ?_, fun name hname => ?_,
    fun m hm => ?_⟩
  · rw [object, Value.canonical_makeMap (find?_objectMembers_of_notMem h.1 h.2), Value.asMap_makeMap,
      mapValues_objectMembers h.1]
  · refine checkMembers_objectMembers (hnames.symm ▸ h.1) fun m hm => ?_
    obtain ⟨n, hn, rfl⟩ := List.mem_map.mp hm
    exact hsub n hn
  · exact find?_objectMembers_of_notMem (hnames.symm ▸ h.1) (hnames.symm ▸ hname)
  · exact findMember_objectMembers (hnames.symm ▸ h.1) (m.1, m.2.canonical)
      (List.mem_map_of_mem (f := fun m : String × Value => (m.1, m.2.canonical)) hm)

end Lookup

/-! ### Reading a member -/

@[simp] theorem orRefuse_some {α : Type} (failure : Status) (a : α) : orRefuse failure (some a) = .ok a := rfl

theorem orRefuse_eq_ok {α : Type} {failure : Status} {o : Option α} {a : α} :
    orRefuse failure o = .ok a ↔ o = some a := by
  cases o <;> simp [orRefuse]

section Read
variable {M : Members} {name what detail : String} {text : Text} {α : Type} {parse : Text → Option α} {absent a : α}

theorem requireMember_of {v : Value} (h : findMember M name = some v) : requireMember M name what = .ok v := by
  rw [requireMember, h, orRefuse_some]

theorem requireText_of (h : findMember M name = some (.makeString text)) :
    requireText M name what parse detail = orRefuse (memberError what (ascii name) detail) (parse text) := by
  simp [requireText, requireString, requireMember_of h]

theorem optionalString_of (h : findMember M name = some (.makeString text)) : optionalString M name = some text := by
  simp [optionalString, h]

theorem optionalBool_of {b : Bool} (h : findMember M name = some (.makeBool b)) : optionalBool M name = some b := by
  simp [optionalBool, h]

theorem optionalUint_of {u : UInt64} (h : findMember M name = some (.makeUint u)) : optionalUint M name = some u := by
  simp [optionalUint, h]

theorem requireUint_of {u : UInt64} (h : findMember M name = some (.makeUint u)) : requireUint M name what = .ok u := by
  simp [requireUint, requireMember_of h]

theorem optionalList_of {vs : List Value} (h : findMember M name = some (.makeList vs)) :
    optionalList M name what = .ok vs := by
  simp [optionalList, h]

theorem requireList_of {vs : List Value} (h : findMember M name = some (.makeList vs)) :
    requireList M name what = .ok vs := by
  simp [requireList, requireMember_of h]

theorem optionalText_of (h : findMember M name = some (.makeString text)) :
    optionalText M name what parse detail absent = orRefuse (memberError what (ascii name) detail) (parse text) := by
  simp [optionalText, optionalString_of h]

theorem optionalInt_of {i : Int64} (h : findMember M name = some (.makeInt i)) : optionalInt M name = some i := by
  simp [optionalInt, h]

theorem checkMemberKinds_of {expectations : List (String × MemberKind)}
    (h : ∀ e ∈ expectations, ∀ v, findMember M e.1 = some v → memberHasKind v e.2 = true) :
    checkMemberKinds M expectations what = .ok () := by
  have hnone : (expectations.find? fun e => (findMember M e.1).any fun v => !memberHasKind v e.2) = none := by
    rw [List.find?_eq_none]
    intro e he hany
    obtain ⟨v, hv, hkind⟩ := Option.any_eq_true _ _ |>.mp hany
    rw [h e he v hv] at hkind
    cases hkind
  rw [checkMemberKinds, hnone]

theorem optionalNonEmpty_of (h : findMember M name = some (.makeString text)) :
    optionalNonEmpty M name what parse detail absent =
      if text.isEmpty then .ok absent else orRefuse (memberError what (ascii name) detail) (parse text) := by
  simp [optionalNonEmpty, optionalString_of h]

end Read

namespace StringId
variable {tag : IdTag}

theorem tryParse_str {id read : StringId tag} :
    tryParse id.str = some read ↔ isValidIdentityText id.str = true ∧ read = id := by
  rw [tryParse]
  split_ifs with h
  · simp [h, eq_comm (a := read)]
  · simp [h]

/-- An identity that a member can carry when it may be empty. -/
def Readable (id : StringId tag) : Prop := id.str = [] ∨ isValidIdentityText id.str = true

end StringId

section Read
variable {M : Members} {name what detail : String}

theorem optionalNonEmpty_id {tag : IdTag} {id read : StringId tag} (h : findMember M name = some (.makeString id.str)) :
    optionalNonEmpty M name what StringId.tryParse detail default = .ok read ↔ id.Readable ∧ read = id := by
  rw [optionalNonEmpty_of h]
  split_ifs with hempty
  · have hid : id = default := StringId.str_injective (List.isEmpty_iff.mp hempty)
    subst hid
    exact ⟨fun h => ⟨Or.inl rfl, (Except.ok.inj h).symm⟩, fun h => congrArg _ h.2.symm⟩
  · rw [orRefuse_eq_ok, StringId.tryParse_str, StringId.Readable, or_iff_right fun h => hempty (List.isEmpty_iff.mpr h)]

theorem optionalNonEmpty_digestId {tag : DigestTag} {id : DigestId tag}
    (h : findMember M name = some (.makeString id.toHexIfSet)) :
    optionalNonEmpty M name what DigestId.tryParse detail default = .ok id := by
  rw [optionalNonEmpty_of h, DigestId.toHexIfSet]
  by_cases hset : id.isSet = true
  · have hne : id.toHex.isEmpty = false := List.isEmpty_eq_false_iff.mpr id.digest.toHex_ne_nil
    rw [if_pos hset, hne, DigestId.tryParse_toHex]
    rfl
  · rw [if_neg hset, DigestId.eq_default_of_unset (Bool.eq_false_iff.mpr hset)]
    rfl

theorem optionalNonEmpty_digest {d : Digest} (h : findMember M name = some (.makeString d.toHex)) :
    optionalNonEmpty M name what Digest.tryFromHex detail Digest.zero = .ok d := by
  have hne : d.toHex.isEmpty = false := List.isEmpty_eq_false_iff.mpr d.toHex_ne_nil
  rw [optionalNonEmpty_of h, hne, Digest.tryFromHex_toHex]
  rfl

theorem formatTime_nonempty (t : NdoTime) : (formatTime t).isEmpty = false := by
  simp [formatTime, ascii]

theorem optionalNonEmpty_time {t : NdoTime} (h : findMember M name = some (.makeString (formatTime t))) :
    optionalNonEmpty M name what tryParseTime detail default = .ok t.reread := by
  rw [optionalNonEmpty_of h, formatTime_nonempty, tryParseTime_formatTime]
  rfl

end Read

end DriftObservatory
