import DriftObservatory.Documents
import DriftObservatory.Theorems.Records

/-! Documents written and read again: what a decoder accepted, its encoder writes so that the decoder returns it
    unchanged. Only times before the epoch are spelled in a way that reads as another instant. -/

namespace DriftObservatory

open Json Outcome

/-! ### Written objects -/

section Shows
variable {ms : List (String × Option Value)}

/-- The names of members that may be left out, as bytes. -/
def slotNames (ms : List (String × Option Value)) : List Text := ms.map fun m => ascii m.1

/-- An object that passes the check of its names and holds each of its members as it was written. -/
def Shows (v : Value) (ms : List (String × Option Value)) : Prop :=
  ∃ M, v.asMap = some M ∧
    (∀ allowed what, (∀ m ∈ ms, m.1 ∈ allowed) → checkMembers M allowed what = .ok ()) ∧
    (∀ name : String, ascii name ∉ slotNames ms → findMember M name = none) ∧
    ∀ m ∈ ms, findMember M m.1 = m.2

theorem mem_presentMembers {name : String} {v : Value} : (name, v) ∈ presentMembers ms ↔ (name, some v) ∈ ms := by
  simp only [presentMembers, List.mem_filterMap, Option.map_eq_some_iff, Prod.mk.injEq]
  constructor
  · rintro ⟨⟨name, _⟩, hm, _, rfl, rfl, rfl⟩
    exact hm
  · intro hm
    exact ⟨_, hm, v, rfl, rfl, rfl⟩

theorem names_presentMembers (ms : List (String × Option Value)) :
    (memberNames (presentMembers ms)).Sublist (slotNames ms) := by
  induction ms with
  | nil => exact List.Sublist.slnil
  | cons m ms ih =>
    obtain ⟨name, v⟩ := m
    cases v with
    | none => exact ih.cons _
    | some v => exact ih.cons_cons _

theorem shows_present (h : (slotNames ms).Nodup) : Shows (object (presentMembers ms)) ms := by
  have hnodup := h.sublist (names_presentMembers ms)
  refine ⟨objectMembers (presentMembers ms), Value.asMap_makeMap _, fun allowed what hsub => ?_, fun name hname => ?_,
    fun m hm => ?_⟩
  · exact checkMembers_objectMembers hnodup fun m hm => hsub _ (mem_presentMembers.mp hm)
  · exact find?_objectMembers_of_notMem hnodup fun hmem => hname ((names_presentMembers ms).subset hmem)
  · obtain ⟨name, v⟩ := m
    cases v with
    | some v => exact findMember_objectMembers hnodup (name, v) (mem_presentMembers.mpr hm)
    | none =>
      -- a member of this name would be another slot under the same name
      refine find?_objectMembers_of_notMem hnodup fun hmem => ?_
      obtain ⟨⟨name', v'⟩, hm', heq⟩ := List.mem_map.mp hmem
      have hsame := List.inj_on_of_nodup_map h (mem_presentMembers.mp hm') hm heq
      cases hsame

theorem presentMembers_some (ms : List (String × Value)) :
    presentMembers (ms.map fun m => (m.1, some m.2)) = ms := by
  induction ms with
  | nil => rfl
  | cons m ms ih => exact congrArg (m :: ·) ih

theorem shows_object {ms : List (String × Value)} (h : (memberNames ms).Nodup) :
    Shows (object ms) (ms.map fun m => (m.1, some m.2)) := by
  have hnames : slotNames (ms.map fun m => (m.1, some m.2)) = memberNames ms := by
    rw [slotNames, List.map_map]
    rfl
  have hshows := shows_present (hnames.symm ▸ h)
  rwa [presentMembers_some] at hshows

end Shows

/-! ### What was read is read again -/

/-- The texts of a kind of member can be read again from the spelling of what they were read as. -/
def Respells {α : Type} (parse : Text → Option α) (spell : α → Text) : Prop :=
  ∀ text a, parse text = some a → parse (spell a) = some a

theorem respells_id {tag : IdTag} : Respells (@StringId.tryParse tag) StringId.str := by
  intro text id h
  rw [StringId.tryParse] at h
  split_ifs at h with hvalid
  cases h
  exact StringId.tryParse_str.mpr ⟨hvalid, rfl⟩

theorem respells_path {limits : RuntimeLimits} : Respells (FieldPath.tryParse limits) FieldPath.toText := by
  intro text path h
  rw [FieldPath.toText_of_tryParse h, h]

/-- Whether a time is spelled as itself; a time before the epoch may not be. -/
def NdoTime.Steady (t : NdoTime) : Prop := 0 ≤ t.unixNanos

theorem NdoTime.Steady.tryParse {t : NdoTime} (h : t.Steady) : tryParseTime (formatTime t) = some t := by
  have hpos : 0 ≤ t.unixNanos.toInt := Int64.le_iff_toInt_le.mp h
  rw [tryParseTime_formatTime, reread, if_neg fun hlate => ?_]
  exact absurd hlate.1 (not_lt.mpr hpos)

section Again
variable {M M' : Members} {name what detail : String} {α : Type} {parse : Text → Option α} {spell : α → Text} {a : α}
  {failure : Status}

theorem requireText_eq_ok : requireText M name what parse detail = .ok a ↔
    ∃ v text, findMember M name = some v ∧ v.asString = some text ∧ parse text = some a := by
  simp only [requireText, requireString, requireMember, bind_eq_ok, orRefuse_eq_ok]
  constructor
  · rintro ⟨text, ⟨v, hv, htext⟩, ha⟩
    exact ⟨v, text, hv, htext, ha⟩
  · rintro ⟨v, text, hv, htext, ha⟩
    exact ⟨text, ⟨v, hv, htext⟩, ha⟩

theorem requireParsed_eq_ok : requireParsed M name what parse failure = .ok a ↔
    ∃ v text, findMember M name = some v ∧ v.asString = some text ∧ parse text = some a := by
  simp only [requireParsed, requireString, requireMember, bind_eq_ok, orRefuse_eq_ok]
  constructor
  · rintro ⟨text, ⟨v, hv, htext⟩, ha⟩
    exact ⟨v, text, hv, htext, ha⟩
  · rintro ⟨v, text, hv, htext, ha⟩
    exact ⟨text, ⟨v, hv, htext⟩, ha⟩

theorem optionalParsed_eq_ok {o : Option α} : optionalParsed M name parse failure = .ok o ↔
    (optionalString M name = none ∧ o = none) ∨
      ∃ text a, optionalString M name = some text ∧ parse text = some a ∧ o = some a := by
  rw [optionalParsed]
  cases optionalString M name with
  | none => simp [eq_comm]
  | some text => simp [map_eq_ok, orRefuse_eq_ok, eq_comm (a := o)]

theorem requireText_again (hspell : Respells parse spell) (h : requireText M name what parse detail = .ok a)
    (h' : findMember M' name = some (.makeString (spell a))) : requireText M' name what parse detail = .ok a := by
  obtain ⟨-, text, -, -, ha⟩ := requireText_eq_ok.mp h
  rw [requireText_of h', hspell text a ha, orRefuse_some]

theorem requireParsed_of (h : findMember M name = some (.makeString (spell a))) (hspell : parse (spell a) = some a) :
    requireParsed M name what parse failure = .ok a :=
  requireParsed_eq_ok.mpr ⟨_, _, h, rfl, hspell⟩

theorem requireParsed_again (hspell : Respells parse spell) (h : requireParsed M name what parse failure = .ok a)
    (h' : findMember M' name = some (.makeString (spell a))) : requireParsed M' name what parse failure = .ok a := by
  obtain ⟨-, text, -, -, ha⟩ := requireParsed_eq_ok.mp h
  exact requireParsed_of h' (hspell text a ha)

theorem optionalParsed_of {o : Option α} (h : findMember M name = o.map fun a => .makeString (spell a))
    (hspell : ∀ a, o = some a → parse (spell a) = some a) : optionalParsed M name parse failure = .ok o := by
  cases o with
  | none =>
    rw [Option.map_none] at h
    simp [optionalParsed, optionalString, h]
  | some a =>
    rw [Option.map_some] at h
    simp only [optionalParsed, optionalString_of h, hspell a rfl, orRefuse_some, map_eq_ok, Except.ok.injEq,
      exists_eq_left']

theorem optionalParsed_again {o : Option α} (hspell : Respells parse spell)
    (h : optionalParsed M name parse failure = .ok o)
    (h' : findMember M' name = o.map fun a => .makeString (spell a)) : optionalParsed M' name parse failure = .ok o := by
  refine optionalParsed_of h' fun a ho => ?_
  rcases optionalParsed_eq_ok.mp h with ⟨-, hnone⟩ | ⟨text, b, -, hb, hsome⟩
  · cases hnone.symm.trans ho
  · cases hsome.symm.trans ho
    exact hspell text _ hb

/-- A list that was read into a map is written from the map and read into it again. -/
theorem emplaceAll_again {K V : Type} [LinearOrder K] {encode : K × V → Value}
    {decode : Value → Except Status (K × V)} {vs : List Value} {es : List (K × V)} (h : vs.mapM decode = .ok es)
    (hitem : ∀ v e, decode v = .ok e → decode (encode e) = .ok e) :
    ((OrdMap.emplaceAll es).entries.map encode).mapM decode = .ok (OrdMap.emplaceAll es).entries := by
  refine mapM_map_ok fun e he => ?_
  obtain ⟨v, -, hv⟩ := exists_of_mapM_eq_ok h e (OrdMap.mem_of_find?_emplaceAll (OrdMap.mem_entries_iff.mp he))
  exact hitem v e hv

end Again

/-! ### Intent generations -/

section Intent
variable {limits : RuntimeLimits} {v : Value}

theorem decodeDeclaredField_inv {entry : FieldPath × IntentField} (h : decodeDeclaredField limits v = .ok entry) :
    ∃ M, v.asMap = some M ∧ decodeFieldPath M limits "intent document.field" = .ok entry.1 ∧ entry.2.path = entry.1 := by
  simp only [decodeDeclaredField, bind_eq_ok, orRefuse_eq_ok, Except.ok.injEq] at h
  obtain ⟨M, hM, -, -, -, -, path, hpath, value, -, comparability, -, rfl⟩ := h
  exact ⟨M, hM, hpath, rfl⟩

theorem decodeDeclaredField_again {entry : FieldPath × IntentField} (h : decodeDeclaredField limits v = .ok entry) :
    decodeDeclaredField limits (encodeIntentField entry.1 entry.2) = .ok entry := by
  obtain ⟨_, -, hread, hsame⟩ := decodeDeclaredField_inv h
  have hshows : Shows (encodeIntentField entry.1 entry.2) _ := shows_object (by
    simp only [memberNames, List.map_cons, List.map_nil]
    repeat rw [ascii_ofList]
    decide)
  obtain ⟨M, hmap, hcheck, -, hfind⟩ := hshows
  simp only [List.map_cons, List.map_nil, List.forall_mem_cons, List.not_mem_nil, false_implies, implies_true,
    and_true] at hfind
  obtain ⟨hpath, hvalue, hcomparability⟩ := hfind
  rw [decodeDeclaredField, hmap, orRefuse_some, ok_bind, hcheck _ _ (by simp), ok_bind,
    checkMemberKinds_of (by simp [hpath, hcomparability]), ok_bind]
  simp only [decodeFieldPath] at hread ⊢
  simp only [ok_bind, requireText_again respells_path hread hpath, requireMember_of hvalue,
    optionalText_of hcomparability, FieldComparability.tryParse_toText, orRefuse_some]
  obtain ⟨path, ⟨_, intended, comparability⟩⟩ := entry
  cases hsame
  rfl

theorem decodeDeclaredObject_inv {entry : ObjectId × IntentObject} (h : decodeDeclaredObject limits v = .ok entry) :
    ∃ M vs es, v.asMap = some M ∧ requireText M "id" "intent document.object" StringId.tryParse
        "is not a valid identity" = .ok entry.1 ∧ entry.2.id = entry.1 ∧
      requireList M "fields" "intent document.object" = .ok vs ∧ vs.length ≤ limits.maxFieldsPerObject ∧
      vs.mapM (decodeDeclaredField limits) = .ok es ∧ entry.2.fields = OrdMap.emplaceAll es := by
  simp only [decodeDeclaredObject, bind_eq_ok, orRefuse_eq_ok, ite_error_eq_ok, not_lt, Except.ok.injEq] at h
  obtain ⟨M, hM, -, -, -, -, id, hid, existence, -, vs, hvs, hcount, es, hes, rfl⟩ := h
  exact ⟨M, vs, es, hM, hid, rfl, hvs, hcount, hes, rfl⟩

theorem decodeDeclaredObject_written {entry : ObjectId × IntentObject}
    (hnamed : isValidIdentityText entry.1.str = true) (hsame : entry.2.id = entry.1)
    (hcount : entry.2.fields.size ≤ limits.maxFieldsPerObject)
    (hagain : (entry.2.fields.entries.map fun field => encodeIntentField field.1 field.2).mapM
      (decodeDeclaredField limits) = .ok entry.2.fields.entries) :
    decodeDeclaredObject limits (encodeIntentObject entry.1 entry.2) = .ok entry := by
  have hshows : Shows (encodeIntentObject entry.1 entry.2) _ := shows_object (by
    simp only [memberNames, List.map_cons, List.map_nil]
    repeat rw [ascii_ofList]
    decide)
  obtain ⟨M, hmap, hcheck, -, hfind⟩ := hshows
  simp only [List.map_cons, List.map_nil, List.forall_mem_cons, List.not_mem_nil, false_implies, implies_true,
    and_true] at hfind
  obtain ⟨hid, hexistence, hfields⟩ := hfind
  have hlength : entry.2.fields.entries.length ≤ limits.maxFieldsPerObject := hcount
  rw [decodeDeclaredObject, hmap, orRefuse_some, ok_bind, hcheck _ _ (by simp), ok_bind,
    checkMemberKinds_of (by simp [hid, hexistence, hfields]), ok_bind]
  simp only [ok_bind, requireText_of hid, StringId.tryParse_str.mpr ⟨hnamed, rfl⟩, optionalText_of hexistence,
    requireList_of hfields, ObjectExistence.tryParse_toText, orRefuse_some, List.length_map,
    if_neg (not_lt.mpr hlength), hagain, OrdMap.emplaceAll_entries]
  obtain ⟨id, ⟨_, existence, fields⟩⟩ := entry
  cases hsame
  rfl

theorem decodeDeclaredObject_again {entry : ObjectId × IntentObject} (h : decodeDeclaredObject limits v = .ok entry) :
    decodeDeclaredObject limits (encodeIntentObject entry.1 entry.2) = .ok entry := by
  obtain ⟨_, vs, es, -, hread, hsame, -, hcount, hes, hmapped⟩ := decodeDeclaredObject_inv h
  obtain ⟨-, text, -, -, hid⟩ := requireText_eq_ok.mp hread
  refine decodeDeclaredObject_written (StringId.tryParse_str.mp (respells_id text entry.1 hid)).1 hsame ?_ ?_
  · rw [hmapped]
    exact (OrdMap.size_emplaceAll_le.trans (mapM_eq_ok_iff.mp hes).length_eq.ge).trans hcount
  · rw [hmapped]
    exact emplaceAll_again hes fun _ _ => decodeDeclaredField_again

theorem decodeIntentDocument_inv {d : IntentGenerationDocument} (h : decodeIntentDocument limits v = .ok d) :
    ∃ M vs es, v.asMap = some M ∧ requireList M "objects" "intent document" = .ok vs ∧
      vs.length ≤ limits.maxObjectsPerTarget ∧
      vs.mapM (decodeDeclaredObject limits) = .ok es ∧ d.objects = OrdMap.emplaceAll es ∧
      (d.validate limits).ok = true := by
  simp only [decodeIntentDocument, requireObject, bind_eq_ok, orRefuse_eq_ok, ite_error_eq_ok, ite_ok_eq_ok, not_lt]
    at h
  obtain ⟨M, hM, -, -, -, -, -, -, target, -, generation, -, epoch, -, authority, -, policy, -, authoredAt, -, evidence, -,
    vs, hvs, hcount, es, hes, hvalid, rfl⟩ := h
  exact ⟨M, vs, es, hM, hvs, hcount, hes, rfl, hvalid⟩

/-- The document of a generation, with its objects listed by hand. -/
def intentDocument (d : IntentGenerationDocument) (objects : List Value) : Value :=
  object [
    ("schema", .makeString (ascii "ndo/intent-generation/1")),
    ("target", .makeString d.target.str),
    ("generation", .makeUint d.generation.value),
    ("epoch", .makeUint d.epoch.value),
    ("authority", .makeString d.authority.toText),
    ("policy", .makeString d.policy.str),
    ("authored_at", .makeString (formatTime d.authoredAt)),
    ("evidence", .makeString d.evidence.toText),
    ("objects", .makeList objects)]

theorem encodeIntentDocument_eq (d : IntentGenerationDocument) : encodeIntentDocument d =
    intentDocument d (d.objects.entries.map fun entry => encodeIntentObject entry.1 entry.2) := rfl

/-- The identities an admitted generation carries. -/
theorem identities_of_validate {d : IntentGenerationDocument} (h : (d.validate limits).ok = true) :
    isValidIdentityText d.target.str = true ∧ isValidIdentityText d.policy.str = true := by
  simp only [IntentGenerationDocument.validate, Status.ok_firstFailing, List.forall_mem_append, List.forall_mem_cons] at h
  obtain ⟨⟨htarget, -, -, hpolicy, -⟩, -⟩ := h
  rw [Status.ok_require rfl] at htarget hpolicy
  rw [Bool.and_eq_true] at hpolicy
  exact ⟨htarget, hpolicy.2⟩

theorem decodeIntentDocument_written {d : IntentGenerationDocument} {vs : List Value} {es : List (ObjectId × IntentObject)}
    (hcount : vs.length ≤ limits.maxObjectsPerTarget) (hes : vs.mapM (decodeDeclaredObject limits) = .ok es)
    (hobjects : d.objects = OrdMap.emplaceAll es) (hvalid : (d.validate limits).ok = true) (ht : d.authoredAt.Steady) :
    decodeIntentDocument limits (intentDocument d vs) = .ok d := by
  obtain ⟨hplaced, hruled⟩ := identities_of_validate hvalid
  have hshows : Shows (intentDocument d vs) _ := shows_object (by
    simp only [memberNames, List.map_cons, List.map_nil]
    repeat rw [ascii_ofList]
    decide)
  obtain ⟨M, hmap, hcheck, -, hfind⟩ := hshows
  simp only [List.map_cons, List.map_nil, List.forall_mem_cons, List.not_mem_nil, false_implies, implies_true,
    and_true] at hfind
  obtain ⟨hschema, htarget, hgeneration, hepoch, hauthority, hpolicy, hauthored, hevidence, hlisted⟩ := hfind
  have hdeclared : requireSchema M "ndo/intent-generation/1" "intent document" = .ok () := by
    simp [requireSchema, requireString, requireMember_of hschema]
  rw [decodeIntentDocument]
  simp only [requireObject]
  rw [hmap, orRefuse_some, ok_bind, hcheck _ _ (by simp), ok_bind,
    checkMemberKinds_of (by simp [htarget, hgeneration, hepoch, hauthority, hpolicy, hauthored, hevidence, hlisted]),
    ok_bind, hdeclared, ok_bind]
  simp only [ok_bind, requireText_of htarget, requireUint_of hgeneration, requireUint_of hepoch,
    requireText_of hauthority, requireText_of hpolicy, requireText_of hauthored, optionalText_of hevidence,
    requireList_of hlisted, StringId.tryParse_str.mpr ⟨hplaced, rfl⟩, StringId.tryParse_str.mpr ⟨hruled, rfl⟩,
    IntentAuthority.tryParse_toText, ht.tryParse, EvidenceClass.tryParse_toText, orRefuse_some,
    if_neg (not_lt.mpr hcount), hes, ← hobjects, hvalid, if_true]

theorem decodeIntentDocument_again {d : IntentGenerationDocument} (h : decodeIntentDocument limits v = .ok d)
    (ht : d.authoredAt.Steady) : decodeIntentDocument limits (encodeIntentDocument d) = .ok d := by
  obtain ⟨_, vs, es, -, -, hcount, hes, hmapped, hvalid⟩ := decodeIntentDocument_inv h
  have hlength : d.objects.entries.length ≤ limits.maxObjectsPerTarget := by
    rw [hmapped]
    exact (OrdMap.size_emplaceAll_le.trans (mapM_eq_ok_iff.mp hes).length_eq.ge).trans hcount
  have hagain : (d.objects.entries.map fun entry => encodeIntentObject entry.1 entry.2).mapM
      (decodeDeclaredObject limits) = .ok d.objects.entries := by
    rw [hmapped]
    exact emplaceAll_again hes fun _ _ => decodeDeclaredObject_again
  rw [encodeIntentDocument_eq]
  exact decodeIntentDocument_written (by rwa [List.length_map]) hagain (OrdMap.emplaceAll_entries _).symm hvalid ht

end Intent

/-! ### Observations -/

section Observation
variable {limits : RuntimeLimits} {v : Value}

theorem decodeObservedField_inv {entry : FieldPath × Value} (h : decodeObservedField limits v = .ok entry) :
    ∃ M, v.asMap = some M ∧ decodeFieldPath M limits "observation document.field" = .ok entry.1 := by
  simp only [decodeObservedField, bind_eq_ok, orRefuse_eq_ok, Except.ok.injEq] at h
  obtain ⟨M, hM, -, -, -, -, path, hpath, value, -, rfl⟩ := h
  exact ⟨M, hM, hpath⟩

theorem decodeObservedField_again {entry : FieldPath × Value} (h : decodeObservedField limits v = .ok entry) :
    decodeObservedField limits (encodeField entry.1 entry.2) = .ok entry := by
  obtain ⟨_, -, hread⟩ := decodeObservedField_inv h
  have hshows : Shows (encodeField entry.1 entry.2) _ := shows_object (by
    simp only [memberNames, List.map_cons, List.map_nil]
    repeat rw [ascii_ofList]
    decide)
  obtain ⟨M, hmap, hcheck, -, hfind⟩ := hshows
  simp only [List.map_cons, List.map_nil, List.forall_mem_cons, List.not_mem_nil, false_implies, implies_true,
    and_true] at hfind
  obtain ⟨hpath, hvalue⟩ := hfind
  rw [decodeObservedField, hmap, orRefuse_some, ok_bind, hcheck _ _ (by simp), ok_bind,
    checkMemberKinds_of (by simp [hpath]), ok_bind]
  simp only [decodeFieldPath] at hread ⊢
  simp only [ok_bind, requireText_again respells_path hread hpath, requireMember_of hvalue]

theorem decodeObservedObject_inv {entry : ObjectId × ObservedObject} (h : decodeObservedObject limits v = .ok entry) :
    ∃ M vs es, v.asMap = some M ∧
      checkMemberKinds M [("id", .text), ("presence", .text), ("fields", .sequence)] "observation document.object" =
        .ok () ∧
      requireText M "id" "observation document.object" StringId.tryParse
        "is not a valid identity" = .ok entry.1 ∧ entry.2.id = entry.1 ∧
      optionalText M "presence" "observation document.object" ObjectPresence.tryParse "is not recognized" .unknown =
        .ok entry.2.presence ∧
      requireList M "fields" "observation document.object" = .ok vs ∧ vs.length ≤ limits.maxFieldsPerObject ∧
      vs.mapM (decodeObservedField limits) = .ok es ∧ entry.2.fields = OrdMap.emplaceAll es := by
  simp only [decodeObservedObject, bind_eq_ok, orRefuse_eq_ok, ite_error_eq_ok, not_lt, Except.ok.injEq] at h
  obtain ⟨M, hM, -, -, ⟨⟩, hkinds, id, hid, presence, hpresence, vs, hvs, hcount, es, hes, rfl⟩ := h
  exact ⟨M, vs, es, hM, hkinds, hid, rfl, hpresence, hvs, hcount, hes, rfl⟩

theorem decodeObservedObject_again {entry : ObjectId × ObservedObject} (h : decodeObservedObject limits v = .ok entry) :
    decodeObservedObject limits (encodeObservedObject entry.1 entry.2) = .ok entry := by
  obtain ⟨_, vs, es, -, -, hread, hsame, -, -, hcount, hes, hmapped⟩ := decodeObservedObject_inv h
  have hshows : Shows (encodeObservedObject entry.1 entry.2) _ := shows_object (by
    simp only [memberNames, List.map_cons, List.map_nil]
    repeat rw [ascii_ofList]
    decide)
  obtain ⟨M, hmap, hcheck, -, hfind⟩ := hshows
  simp only [List.map_cons, List.map_nil, List.forall_mem_cons, List.not_mem_nil, false_implies, implies_true,
    and_true] at hfind
  obtain ⟨hid, hpresence, hfields⟩ := hfind
  have hlength : entry.2.fields.entries.length ≤ limits.maxFieldsPerObject := by
    rw [hmapped]
    exact (OrdMap.size_emplaceAll_le.trans (mapM_eq_ok_iff.mp hes).length_eq.ge).trans hcount
  have hagain : (entry.2.fields.entries.map fun field => encodeField field.1 field.2).mapM
      (decodeObservedField limits) = .ok entry.2.fields.entries := by
    rw [hmapped]
    exact emplaceAll_again hes fun _ _ => decodeObservedField_again
  rw [decodeObservedObject, hmap, orRefuse_some, ok_bind, hcheck _ _ (by simp), ok_bind,
    checkMemberKinds_of (by simp [hid, hpresence, hfields]), ok_bind]
  simp only [ok_bind, requireText_again respells_id hread hid, optionalText_of hpresence, requireList_of hfields,
    ObjectPresence.tryParse_toText, orRefuse_some, List.length_map, if_neg (not_lt.mpr hlength), hagain,
    OrdMap.emplaceAll_entries]
  obtain ⟨id, ⟨_, presence, fields⟩⟩ := entry
  cases hsame
  rfl

/-- Capabilities are read again under the name of either document. -/
theorem decodeCapabilitiesOf_again (what : String) (capabilities : SourceCapabilities) :
    ∃ M, (encodeCapabilities capabilities).asMap = some M ∧ decodeCapabilitiesOf what M = .ok capabilities := by
  have hshows : Shows (encodeCapabilities capabilities) _ := shows_object (by
    simp only [memberNames, List.map_cons, List.map_nil]
    repeat rw [ascii_ofList]
    decide)
  obtain ⟨M, hmap, hcheck, -, hfind⟩ := hshows
  simp only [List.map_cons, List.map_nil, List.forall_mem_cons, List.not_mem_nil, false_implies, implies_true,
    and_true] at hfind
  obtain ⟨habsence, hcoverage, hnested, hevidence⟩ := hfind
  refine ⟨M, hmap, ?_⟩
  rw [decodeCapabilitiesOf, hcheck _ _ (by simp), ok_bind,
    checkMemberKinds_of (by simp [habsence, hcoverage, hnested, hevidence]), ok_bind]
  simp only [ok_bind, optionalText_of hevidence, EvidenceClass.tryParse_toText, orRefuse_some, optionalBool_of habsence,
    optionalBool_of hcoverage, optionalBool_of hnested, Option.getD_some]

theorem decodeCapabilities_eq : decodeCapabilities = decodeCapabilitiesOf "observation document.capabilities" := rfl

theorem hasKind_capabilities (capabilities : SourceCapabilities) :
    memberHasKind (encodeCapabilities capabilities) .object = true := by
  obtain ⟨M, hM, -⟩ := decodeCapabilitiesOf_again "" capabilities
  simp [memberHasKind, hM]

/-- The capabilities a document declares, or the weakest ones. -/
def declaredCapabilities (M : Members) (what : String) (decode : Members → Except Status SourceCapabilities) :
    Except Status SourceCapabilities :=
  match findMember M "capabilities" with
  | none => .ok {}
  | some member => do
    let map ← orRefuse (memberError what (ascii "capabilities") "must be an object") member.asMap
    decode map

theorem declaredCapabilities_bind {M : Members} {what : String} {decode : Members → Except Status SourceCapabilities}
    {α : Type} {rest : SourceCapabilities → Except Status α} {a : α}
    (h : (match findMember M "capabilities" with
      | none => Except.ok ({} : SourceCapabilities) >>= rest
      | some member => do
        let map ← orRefuse (memberError what (ascii "capabilities") "must be an object") member.asMap
        let capabilities ← decode map
        rest capabilities) = .ok a) :
    ∃ capabilities, declaredCapabilities M what decode = .ok capabilities ∧ rest capabilities = .ok a := by
  rw [declaredCapabilities]
  cases hmember : findMember M "capabilities" with
  | none =>
    rw [hmember] at h
    exact ⟨_, rfl, h⟩
  | some member =>
    rw [hmember] at h
    simp only [bind_eq_ok] at h ⊢
    obtain ⟨map, hmap, capabilities, hread, h⟩ := h
    exact ⟨capabilities, ⟨map, hmap, hread⟩, h⟩

theorem decodeObservationDocument_inv {s : ObservationSnapshot} (h : decodeObservationDocument limits v = .ok s) :
    ∃ M vs es us, v.asMap = some M ∧
      checkMemberKinds M [("source", .text), ("epoch", .integer), ("incarnation", .integer), ("sequence", .integer),
        ("target", .text), ("collected_at", .text), ("ttl_nanos", .integer), ("coverage", .text), ("evidence", .text),
        ("unobserved", .sequence), ("capabilities", .object), ("objects", .sequence), ("snapshot_id", .text)]
        "observation document" = .ok () ∧
      requireText M "source" "observation document" StringId.tryParse "is not a valid identity" = .ok s.source ∧
      requireText M "target" "observation document" StringId.tryParse "is not a valid identity" = .ok s.target ∧
      decodeTtl M "observation document" = .ok s.ttlNanos ∧
      optionalText M "coverage" "observation document" ObservationCoverage.tryParse "is not recognized" .unknown =
        .ok s.coverage ∧
      optionalText M "evidence" "observation document" EvidenceClass.tryParse "is not recognized" .unknown =
        .ok s.evidence ∧
      optionalList M "unobserved" "observation document" = .ok us ∧
      us.mapM (decodeIdentity "unobserved" "observation document" StringId.tryParse "entry is not a valid identity") =
        .ok s.unobserved ∧
      declaredCapabilities M "observation document" decodeCapabilities = .ok s.capabilities ∧
      requireList M "objects" "observation document" = .ok vs ∧ vs.length ≤ limits.maxObjectsPerTarget ∧
      vs.mapM (decodeObservedObject limits) = .ok es ∧ s.objects = OrdMap.emplaceAll es ∧
      s.receivedAt = default ∧ s.snapshotId = { s with snapshotId := default }.computeSnapshotId ∧
      (optionalString M "snapshot_id").any (· != s.snapshotId.str) = false ∧ (s.validate limits).ok = true := by
  simp only [decodeObservationDocument, requireObject, bind_eq_ok (β := ObservationSnapshot)] at h
  obtain ⟨M, hM, -, -, ⟨⟩, hkinds, -, -, source, hsource, epoch, -, incarnation, -, sequence, -, target, htarget,
    collectedAt, -, ttl, httl, coverage, hcoverage, evidence, hevidence, us, hus, unobserved, hunobserved, h⟩ := h
  obtain ⟨capabilities, hcapabilities, h⟩ := declaredCapabilities_bind h
  simp only [bind_eq_ok, ite_error_eq_ok, ite_ok_eq_ok, not_lt, Bool.not_eq_true] at h
  obtain ⟨vs, hvs, hcount, es, hes, hidentity, hvalid, rfl⟩ := h
  rw [orRefuse_eq_ok] at hM
  exact ⟨M, vs, es, us, hM, hkinds, hsource, htarget, httl, hcoverage, hevidence, hus, hunobserved, hcapabilities, hvs, hcount,
    hes, rfl, rfl, rfl, hidentity, hvalid⟩

theorem decodeTtl_nonneg {M : Members} {what : String} {ttl : Int64} (h : decodeTtl M what = .ok ttl) : 0 ≤ ttl := by
  rw [decodeTtl] at h
  split at h
  · cases h
    decide
  · rw [ite_error_eq_ok, Int64.not_lt] at h
    obtain ⟨hpos, heq⟩ := h
    cases heq
    exact hpos

theorem decodeIdentity_again {tag : IdTag} {name what detail : String} {id : StringId tag}
    (h : decodeIdentity name what StringId.tryParse detail v = .ok id) :
    decodeIdentity name what StringId.tryParse detail (.makeString id.str) = .ok id := by
  simp only [decodeIdentity, bind_eq_ok, orRefuse_eq_ok] at h
  obtain ⟨text, -, hid⟩ := h
  rw [decodeIdentity, Value.asString_makeString, orRefuse_some, ok_bind, respells_id text id hid, orRefuse_some]

theorem decodeObservationDocument_again {s : ObservationSnapshot} (h : decodeObservationDocument limits v = .ok s)
    (ht : s.collectedAt.Steady) : decodeObservationDocument limits (encodeObservationDocument s) = .ok s := by
  obtain ⟨_, vs, es, us, -, -, hreadSource, hreadTarget, hreadTtl, -, -, -, hreadUnobserved, -, -, hcount, hes, hmapped,
    hreceived, hcomputed, -, hvalid⟩ := decodeObservationDocument_inv h
  have hshows : Shows (encodeObservationDocument s) _ := shows_object (by
    simp only [memberNames, List.map_cons, List.map_nil]
    repeat rw [ascii_ofList]
    decide)
  obtain ⟨M, hmap, hcheck, habsent, hfind⟩ := hshows
  -- the writer leaves the identity out, so the reader computes it
  have hidentity : findMember M "snapshot_id" = none := habsent _ (by
    simp only [slotNames, List.map_cons, List.map_nil]
    repeat rw [ascii_ofList]
    decide)
  simp only [List.map_cons, List.map_nil, List.forall_mem_cons, List.not_mem_nil, false_implies, implies_true,
    and_true] at hfind
  obtain ⟨hschema, hsource, hepoch, hincarnation, hsequence, htarget, hcollected, httl, hcoverage, hevidence,
    hunobserved, hcapabilities, hobjects⟩ := hfind
  obtain ⟨C, hC, hdecoded⟩ := decodeCapabilitiesOf_again "observation document.capabilities" s.capabilities
  have hdeclared : requireSchema M "ndo/observation/1" "observation document" = .ok () := by
    simp [requireSchema, requireString, requireMember_of hschema]
  have hlength : s.objects.entries.length ≤ limits.maxObjectsPerTarget := by
    rw [hmapped]
    exact (OrdMap.size_emplaceAll_le.trans (mapM_eq_ok_iff.mp hes).length_eq.ge).trans hcount
  have hagain : (s.objects.entries.map fun entry => encodeObservedObject entry.1 entry.2).mapM
      (decodeObservedObject limits) = .ok s.objects.entries := by
    rw [hmapped]
    exact emplaceAll_again hes fun _ _ => decodeObservedObject_again
  have hlisted : (s.unobserved.map fun id => .makeString id.str).mapM (decodeIdentity "unobserved" "observation document"
      StringId.tryParse "entry is not a valid identity") = .ok s.unobserved := by
    refine mapM_map_ok fun id hmem => ?_
    obtain ⟨u, -, hu⟩ := exists_of_mapM_eq_ok hreadUnobserved id hmem
    exact decodeIdentity_again hu
  have hlived : decodeTtl M "observation document" = .ok s.ttlNanos :=
    (decodeTtl_written httl).mpr ⟨decodeTtl_nonneg hreadTtl, rfl⟩
  rw [decodeObservationDocument]
  simp only [requireObject]
  rw [hmap, orRefuse_some, ok_bind, hcheck _ _ (by simp), ok_bind,
    checkMemberKinds_of (by simp [hsource, hepoch, hincarnation, hsequence, htarget, hcollected, httl, hcoverage,
      hevidence, hunobserved, hcapabilities, hobjects, hidentity, hasKind_capabilities]), ok_bind, hdeclared, ok_bind]
  simp only [ok_bind, requireText_again respells_id hreadSource hsource, requireUint_of hepoch,
    requireUint_of hincarnation, requireUint_of hsequence, requireText_again respells_id hreadTarget htarget,
    requireText_of hcollected, hlived, optionalText_of hcoverage, optionalText_of hevidence,
    optionalList_of hunobserved, hlisted, hcapabilities, hC, decodeCapabilities_eq, hdecoded, requireList_of hobjects,
    ht.tryParse, ObservationCoverage.tryParse_toText, EvidenceClass.tryParse_toText, orRefuse_some, List.length_map,
    if_neg (not_lt.mpr hlength), hagain, OrdMap.emplaceAll_entries, optionalString, hidentity, Option.bind_none,
    Option.any_none, Bool.false_eq_true, if_false]
  simp only [← hreceived]
  rw [← hcomputed, if_pos hvalid]

end Observation

/-! ### Source descriptors -/

section Source
variable {limits : RuntimeLimits} {v : Value}

theorem decodeSourceDescriptor_inv {d : SourceDescriptor} (h : decodeSourceDescriptor limits v = .ok d) :
    isValidIdentityText d.id.str = true ∧ d.provenance.length ≤ limits.maxLeafBytes ∧
      (!d.epoch.isSet || !d.incarnation.isSet) = false := by
  simp only [decodeSourceDescriptor, requireObject, bind_eq_ok (β := SourceDescriptor)] at h
  obtain ⟨M, -, -, -, -, -, -, -, id, hid, epoch, -, incarnation, -, registeredAt, -, provenance, hprovenance, evidence,
    -, h⟩ := h
  obtain ⟨capabilities, -, h⟩ := declaredCapabilities_bind h
  simp only [ite_error_eq_ok, Bool.not_eq_true, Except.ok.injEq] at h
  obtain ⟨hset, rfl⟩ := h
  obtain ⟨-, text, -, -, hparsed⟩ := requireText_eq_ok.mp hid
  simp only [decodeProvenance, ite_error_eq_ok, not_lt, Except.ok.injEq] at hprovenance
  obtain ⟨hshort, rfl⟩ := hprovenance
  exact ⟨(StringId.tryParse_str.mp (respells_id text id hparsed)).1, hshort, hset⟩

theorem decodeSourceDescriptor_written {d : SourceDescriptor} (hnamed : isValidIdentityText d.id.str = true)
    (hshort : d.provenance.length ≤ limits.maxLeafBytes) (hset : (!d.epoch.isSet || !d.incarnation.isSet) = false)
    (ht : d.registeredAt.Steady) : decodeSourceDescriptor limits (encodeSourceDescriptor d) = .ok d := by
  have hshows : Shows (encodeSourceDescriptor d) _ := shows_object (by
    simp only [memberNames, List.map_cons, List.map_nil]
    repeat rw [ascii_ofList]
    decide)
  obtain ⟨M, hmap, hcheck, -, hfind⟩ := hshows
  simp only [List.map_cons, List.map_nil, List.forall_mem_cons, List.not_mem_nil, false_implies, implies_true,
    and_true] at hfind
  obtain ⟨hschema, hid, hepoch, hincarnation, hregistered, hprovenance, hevidence, hcapabilities⟩ := hfind
  obtain ⟨C, hC, hdecoded⟩ := decodeCapabilitiesOf_again "source descriptor.capabilities" d.capabilities
  have hdeclared : requireSchema M "ndo/source/1" "source descriptor" = .ok () := by
    simp [requireSchema, requireString, requireMember_of hschema]
  have hbrief : decodeProvenance M limits = .ok d.provenance := by
    simp only [decodeProvenance, optionalString_of hprovenance, Option.getD_some, if_neg (not_lt.mpr hshort)]
  rw [decodeSourceDescriptor]
  simp only [requireObject]
  rw [hmap, orRefuse_some, ok_bind, hcheck _ _ (by simp), ok_bind,
    checkMemberKinds_of (by simp [hid, hepoch, hincarnation, hregistered, hprovenance, hevidence, hcapabilities,
      hasKind_capabilities]), ok_bind, hdeclared, ok_bind]
  simp only [ok_bind, requireText_of hid, StringId.tryParse_str.mpr ⟨hnamed, rfl⟩, requireUint_of hepoch,
    requireUint_of hincarnation, optionalText_of hregistered, hbrief, optionalText_of hevidence, hcapabilities, hC,
    hdecoded, ht.tryParse, EvidenceClass.tryParse_toText, orRefuse_some]
  rw [if_neg (by rw [hset]; exact Bool.false_ne_true)]

theorem decodeSourceDescriptor_again {d : SourceDescriptor} (h : decodeSourceDescriptor limits v = .ok d)
    (ht : d.registeredAt.Steady) : decodeSourceDescriptor limits (encodeSourceDescriptor d) = .ok d := by
  obtain ⟨hnamed, hshort, hset⟩ := decodeSourceDescriptor_inv h
  exact decodeSourceDescriptor_written hnamed hshort hset ht

end Source

/-! ### Policy rules -/

section Rules
variable {limits : RuntimeLimits} {v : Value} {M M' : Members} {what : String}

theorem decodeSelector_inv {selector : PolicySelector} (h : decodeSelector M limits what = .ok selector) :
    checkMemberKinds M [("target", .text), ("object", .text), ("path_prefix", .text)] what = .ok () ∧
      optionalParsed M "target" StringId.tryParse (memberError what (ascii "target") "is not a valid identity") =
        .ok selector.target ∧
      optionalParsed M "object" StringId.tryParse (memberError what (ascii "object") "is not a valid identity") =
        .ok selector.object ∧
      optionalParsed M "path_prefix" (FieldPath.tryParse limits)
        (memberError what (ascii "path_prefix") "is not a valid field path") = .ok selector.pathPrefix := by
  simp only [decodeSelector, bind_eq_ok, Except.ok.injEq] at h
  obtain ⟨⟨⟩, hkinds, target, htarget, object, hobject, path, hpath, rfl⟩ := h
  exact ⟨hkinds, htarget, hobject, hpath⟩

/-- A text that may be left out has the kind of a text. -/
theorem hasKind_slot {α : Type} {o : Option α} {spell : α → Text} {u : Value}
    (h : (o.map fun a => Value.makeString (spell a)) = some u) : memberHasKind u .text = true := by
  obtain ⟨a, -, rfl⟩ := Option.map_eq_some_iff.mp h
  rfl

theorem decodeSelector_again {selector : PolicySelector} (h : decodeSelector M limits what = .ok selector)
    (htarget : findMember M' "target" = selector.target.map fun id => .makeString id.str)
    (hobject : findMember M' "object" = selector.object.map fun id => .makeString id.str)
    (hpath : findMember M' "path_prefix" = selector.pathPrefix.map fun path => .makeString (FieldPath.toText path)) :
    decodeSelector M' limits what = .ok selector := by
  obtain ⟨-, hreadTarget, hreadObject, hreadPath⟩ := decodeSelector_inv h
  have hkinds : checkMemberKinds M' [("target", .text), ("object", .text), ("path_prefix", .text)] what = .ok () := by
    refine checkMemberKinds_of ?_
    simp only [List.forall_mem_cons, List.not_mem_nil, false_implies, implies_true, and_true, htarget, hobject, hpath]
    exact ⟨fun _ => hasKind_slot, fun _ => hasKind_slot, fun _ => hasKind_slot⟩
  rw [decodeSelector, hkinds, ok_bind]
  simp only [ok_bind, optionalParsed_again respells_id hreadTarget htarget,
    optionalParsed_again respells_id hreadObject hobject, optionalParsed_again respells_path hreadPath hpath]

theorem decodeSeverityRule_inv {rule : SeverityRule} (h : decodeSeverityRule limits v = .ok rule) :
    ∃ M, ∃ severity : Option Severity, v.asMap = some M ∧
      checkMemberKinds M [("class", .text), ("min_severity", .text), ("severity", .text)] "policy.severity_rule" =
        .ok () ∧
      decodeSelector M limits "policy.severity_rule" = .ok rule.selector ∧
      optionalParsed M "class" DriftClass.tryParse (policyError "policy: severity rule class is unknown") =
        .ok rule.klass ∧
      optionalParsed M "min_severity" Severity.tryParse (policyError "policy: severity rule min_severity is unknown") =
        .ok rule.minSeverity ∧
      optionalParsed M "severity" Severity.tryParse (policyError "policy: severity is unknown") = .ok severity ∧
      rule.severity = severity.getD .medium := by
  simp only [decodeSeverityRule, bind_eq_ok, orRefuse_eq_ok, Except.ok.injEq] at h
  obtain ⟨M, hM, -, -, ⟨⟩, hkinds, selector, hselector, klass, hklass, minimum, hminimum, severity, hseverity, rfl⟩ := h
  exact ⟨M, severity, hM, hkinds, hselector, hklass, hminimum, hseverity, rfl⟩

theorem decodeSeverityRule_again {rule : SeverityRule} (h : decodeSeverityRule limits v = .ok rule) :
    decodeSeverityRule limits (encodeSeverityRule rule) = .ok rule := by
  obtain ⟨_, -, -, -, hread, -⟩ := decodeSeverityRule_inv h
  have hshows : Shows (encodeSeverityRule rule) _ := shows_present (by
    simp only [slotNames, encodeSelector, List.cons_append, List.nil_append, List.map_cons, List.map_nil]
    repeat rw [ascii_ofList]
    decide)
  obtain ⟨M, hmap, hcheck, -, hfind⟩ := hshows
  simp only [encodeSelector, List.cons_append, List.nil_append, List.forall_mem_cons, List.not_mem_nil, false_implies,
    implies_true, and_true] at hfind
  obtain ⟨htarget, hobject, hpath, hklass, hminimum, hseverity⟩ := hfind
  have hkinds : checkMemberKinds M [("class", .text), ("min_severity", .text), ("severity", .text)]
      "policy.severity_rule" = .ok () := by
    refine checkMemberKinds_of ?_
    simp only [List.forall_mem_cons, List.not_mem_nil, false_implies, implies_true, and_true, hklass, hminimum, hseverity]
    exact ⟨fun _ => hasKind_slot, fun _ => hasKind_slot, by simp⟩
  have hworst : findMember M "severity" = (some rule.severity).map fun severity => .makeString severity.toText :=
    hseverity
  rw [decodeSeverityRule, hmap, orRefuse_some, ok_bind,
    hcheck _ _ (by simp [encodeSelector]), ok_bind, hkinds, ok_bind]
  simp only [ok_bind, decodeSelector_again hread htarget hobject hpath,
    optionalParsed_of hklass fun _ _ => DriftClass.tryParse_toText _,
    optionalParsed_of hminimum fun _ _ => Severity.tryParse_toText _,
    optionalParsed_of hworst fun _ _ => Severity.tryParse_toText _, Option.getD_some]

theorem decodeFreshnessRule_inv {rule : FreshnessRule} (h : decodeFreshnessRule limits v = .ok rule) :
    ∃ M, v.asMap = some M ∧ decodeSelector M limits "policy.freshness_rule" = .ok rule.selector ∧ 0 < rule.ttlNanos := by
  simp only [decodeFreshnessRule, bind_eq_ok, orRefuse_eq_ok, Except.ok.injEq, Option.filter_eq_some_iff] at h
  obtain ⟨M, hM, -, -, -, -, selector, hselector, ttl, ⟨-, hpos⟩, rfl⟩ := h
  exact ⟨M, hM, hselector, of_decide_eq_true hpos⟩

theorem decodeFreshnessRule_again {rule : FreshnessRule} (h : decodeFreshnessRule limits v = .ok rule) :
    decodeFreshnessRule limits (encodeFreshnessRule rule) = .ok rule := by
  obtain ⟨_, -, hread, hpos⟩ := decodeFreshnessRule_inv h
  have hshows : Shows (encodeFreshnessRule rule) _ := shows_present (by
    simp only [slotNames, encodeSelector, List.cons_append, List.nil_append, List.map_cons, List.map_nil]
    repeat rw [ascii_ofList]
    decide)
  obtain ⟨M, hmap, hcheck, -, hfind⟩ := hshows
  simp only [encodeSelector, List.cons_append, List.nil_append, List.forall_mem_cons, List.not_mem_nil, false_implies,
    implies_true, and_true] at hfind
  obtain ⟨htarget, hobject, hpath, httl⟩ := hfind
  have hlived : (some rule.ttlNanos).filter (fun ttl => decide (0 < ttl)) = some rule.ttlNanos := by
    simp [Option.filter, hpos]
  rw [decodeFreshnessRule, hmap, orRefuse_some, ok_bind, hcheck _ _ (by simp [encodeSelector]), ok_bind,
    checkMemberKinds_of (by simp [httl]), ok_bind]
  simp only [ok_bind, decodeSelector_again hread htarget hobject hpath, optionalInt_of httl, hlived, orRefuse_some]

theorem decodeFieldClassRule_inv {rule : FieldClassRule} (h : decodeFieldClassRule limits v = .ok rule) :
    ∃ M, v.asMap = some M ∧ decodeSelector M limits "policy.field_class_rule" = .ok rule.selector := by
  simp only [decodeFieldClassRule, bind_eq_ok, orRefuse_eq_ok, Except.ok.injEq] at h
  obtain ⟨M, hM, -, -, -, -, selector, hselector, text, -, comparability, -, rfl⟩ := h
  exact ⟨M, hM, hselector⟩

theorem decodeFieldClassRule_again {rule : FieldClassRule} (h : decodeFieldClassRule limits v = .ok rule) :
    decodeFieldClassRule limits (encodeFieldClassRule rule) = .ok rule := by
  obtain ⟨_, -, hread⟩ := decodeFieldClassRule_inv h
  have hshows : Shows (encodeFieldClassRule rule) _ := shows_present (by
    simp only [slotNames, encodeSelector, List.cons_append, List.nil_append, List.map_cons, List.map_nil]
    repeat rw [ascii_ofList]
    decide)
  obtain ⟨M, hmap, hcheck, -, hfind⟩ := hshows
  simp only [encodeSelector, List.cons_append, List.nil_append, List.forall_mem_cons, List.not_mem_nil, false_implies,
    implies_true, and_true] at hfind
  obtain ⟨htarget, hobject, hpath, hcomparability⟩ := hfind
  rw [decodeFieldClassRule, hmap, orRefuse_some, ok_bind, hcheck _ _ (by simp [encodeSelector]), ok_bind,
    checkMemberKinds_of (by simp [hcomparability]), ok_bind]
  simp only [ok_bind, decodeSelector_again hread htarget hobject hpath, optionalString_of hcomparability,
    FieldComparability.tryParse_toText, orRefuse_some]

theorem decodeSuppressionRule_inv {rule : SuppressionRule} (h : decodeSuppressionRule limits v = .ok rule) :
    ∃ M, v.asMap = some M ∧
      checkMemberKinds M [("id", .text), ("class", .text), ("min_severity", .text), ("author", .text),
        ("reason", .text), ("created_at", .text), ("expires_at", .text)] "policy.suppression" = .ok () ∧
      decodeSelector M limits "policy.suppression" = .ok rule.selector ∧
      requireParsed M "id" "policy.suppression" StringId.tryParse (policyError "policy: suppression id is invalid") =
        .ok rule.id ∧
      requireParsed M "author" "policy.suppression" StringId.tryParse
        (policyError "policy: suppression author is invalid") = .ok rule.author ∧
      optionalParsed M "expires_at" tryParseTime (policyError "policy: suppression expires_at is invalid") =
        .ok rule.expiresAt ∧
      optionalParsed M "class" DriftClass.tryParse (policyError "policy: suppression class is unknown") =
        .ok rule.klass ∧
      optionalParsed M "min_severity" Severity.tryParse (policyError "policy: suppression min_severity is unknown") =
        .ok rule.minSeverity := by
  simp only [decodeSuppressionRule, bind_eq_ok, orRefuse_eq_ok, Except.ok.injEq] at h
  obtain ⟨M, hM, -, -, ⟨⟩, hkinds, selector, hselector, id, hid, author, hauthor, reason, -, createdAt, -, expiresAt, hexpires,
    klass, hklass, minimum, hminimum, rfl⟩ := h
  exact ⟨M, hM, hkinds, hselector, hid, hauthor, hexpires, hklass, hminimum⟩

/-- The times of a suppression are spelled as themselves. -/
def SuppressionRule.Steady (rule : SuppressionRule) : Prop :=
  rule.createdAt.Steady ∧ ∀ t, rule.expiresAt = some t → t.Steady

theorem decodeSuppressionRule_again {rule : SuppressionRule} (h : decodeSuppressionRule limits v = .ok rule)
    (ht : rule.Steady) : decodeSuppressionRule limits (encodeSuppressionRule rule) = .ok rule := by
  obtain ⟨_, -, -, hread, hreadId, hreadAuthor, -⟩ := decodeSuppressionRule_inv h
  have hshows : Shows (encodeSuppressionRule rule) _ := shows_present (by
    simp only [slotNames, encodeSelector, List.cons_append, List.nil_append, List.map_cons, List.map_nil]
    repeat rw [ascii_ofList]
    decide)
  obtain ⟨M, hmap, hcheck, -, hfind⟩ := hshows
  simp only [encodeSelector, List.cons_append, List.nil_append, List.forall_mem_cons, List.not_mem_nil, false_implies,
    implies_true, and_true] at hfind
  obtain ⟨htarget, hobject, hpath, hid, hklass, hminimum, hauthor, hreason, hcreated, hexpires⟩ := hfind
  have hkinds : checkMemberKinds M [("id", .text), ("class", .text), ("min_severity", .text), ("author", .text),
      ("reason", .text), ("created_at", .text), ("expires_at", .text)] "policy.suppression" = .ok () := by
    refine checkMemberKinds_of ?_
    simp only [List.forall_mem_cons, List.not_mem_nil, false_implies, implies_true, and_true, hid, hklass, hminimum,
      hauthor, hreason, hcreated, hexpires]
    exact ⟨by simp, fun _ => hasKind_slot, fun _ => hasKind_slot, by simp, by simp, by simp, fun _ => hasKind_slot⟩
  have hexplained : requireString M "reason" "policy.suppression" = .ok rule.reason := by
    simp [requireString, requireMember_of hreason]
  rw [decodeSuppressionRule, hmap, orRefuse_some, ok_bind, hcheck _ _ (by simp [encodeSelector]), ok_bind, hkinds,
    ok_bind]
  simp only [ok_bind, decodeSelector_again hread htarget hobject hpath, requireParsed_again respells_id hreadId hid,
    requireParsed_again respells_id hreadAuthor hauthor, hexplained, requireParsed_of hcreated ht.1.tryParse,
    optionalParsed_of hexpires fun t htime => (ht.2 t htime).tryParse,
    optionalParsed_of hklass fun _ _ => DriftClass.tryParse_toText _,
    optionalParsed_of hminimum fun _ _ => Severity.tryParse_toText _]

theorem decodeRules_eq_ok {α : Type} {name : String} {bound : Nat} {decode : Value → Except Status α} {rules : List α} :
    decodeRules M name bound decode = .ok rules ↔
      (findMember M name = none ∧ rules = []) ∨
        ∃ u vs, findMember M name = some u ∧ u.asList = some vs ∧ vs.length ≤ bound ∧ vs.mapM decode = .ok rules := by
  rw [decodeRules]
  cases findMember M name with
  | none => simp [eq_comm]
  | some u => simp [bind_eq_ok, orRefuse_eq_ok, ite_error_eq_ok]

theorem decodeRules_of {α : Type} {name : String} {bound : Nat} {decode : Value → Except Status α}
    {encode : α → Value} {rules : List α} (h : findMember M name = some (.makeList (rules.map encode)))
    (hcount : rules.length ≤ bound) (hrules : (rules.map encode).mapM decode = .ok rules) :
    decodeRules M name bound decode = .ok rules :=
  decodeRules_eq_ok.mpr (.inr ⟨_, _, h, Value.asList_makeList _, by rwa [List.length_map], hrules⟩)

/-- Rules that were read are read again, one by one. -/
theorem rules_again {α : Type} {name : String} {bound : Nat} {decode : Value → Except Status α}
    {encode : α → Value} {rules : List α} (h : decodeRules M name bound decode = .ok rules)
    (hitem : ∀ v rule, decode v = .ok rule → rule ∈ rules → decode (encode rule) = .ok rule) :
    (rules.map encode).mapM decode = .ok rules := by
  refine mapM_map_ok fun rule hmem => ?_
  rcases decodeRules_eq_ok.mp h with ⟨-, rfl⟩ | ⟨u, vs, -, -, -, hvs⟩
  · cases hmem
  · obtain ⟨w, -, hw⟩ := exists_of_mapM_eq_ok hvs rule hmem
    exact hitem w rule hw hmem

theorem decodeIdentities_eq_ok {tag : IdTag} {name : String} {notText invalid : Status} {ids : List (StringId tag)} :
    decodeIdentities M name notText invalid = .ok ids ↔
      (findMember M name = none ∧ ids = []) ∨
        ∃ u vs, findMember M name = some u ∧ u.asList = some vs ∧
          List.Forall₂ (fun v id => ∃ text, v.asString = some text ∧ StringId.tryParse text = some id) vs ids := by
  rw [decodeIdentities]
  cases findMember M name with
  | none => simp [eq_comm]
  | some u => simp [bind_eq_ok, orRefuse_eq_ok, mapM_eq_ok_iff]

theorem decodeIdentities_of {tag : IdTag} {name : String} {notText invalid : Status} {ids : List (StringId tag)}
    (h : findMember M name = some (.makeList (ids.map fun id => .makeString id.str)))
    (hids : ∀ id ∈ ids, isValidIdentityText id.str = true) : decodeIdentities M name notText invalid = .ok ids := by
  refine decodeIdentities_eq_ok.mpr (.inr ⟨_, _, h, Value.asList_makeList _, ?_⟩)
  rw [List.forall₂_map_left_iff, List.forall₂_same]
  exact fun id hmem => ⟨id.str, rfl, StringId.tryParse_str.mpr ⟨hids id hmem, rfl⟩⟩

end Rules

/-! ### Policies -/

section Policy
variable {limits : RuntimeLimits} {v : Value} {M M' : Members}

/-- What an admitted policy must be. -/
structure PolicyFits (limits : RuntimeLimits) (policy : ObservatoryPolicy) : Prop where
  id : isValidIdentityText policy.id.str = true
  version : policy.formatVersion = kPolicyFormatVersion
  aging : 0 ≤ policy.freshness.agingThresholdPercent.toInt ∧ policy.freshness.agingThresholdPercent.toInt ≤ 100
  confirmations : policy.resolutionConfirmations ≠ 0
  severityRules : policy.severityRules.length ≤ ObservatoryPolicy.kMaxPolicyRules
  freshnessRules : policy.freshnessRules.length ≤ ObservatoryPolicy.kMaxPolicyRules
  fieldClassRules : policy.fieldClassRules.length ≤ ObservatoryPolicy.kMaxPolicyRules
  suppressions : policy.suppressions.length ≤ limits.maxSuppressions
  sources : ∀ source ∈ policy.sourcePriority, isValidIdentityText source.str = true
  targets : ∀ target ∈ policy.requiredTargets, isValidIdentityText target.str = true

theorem fits_of_validate {policy : ObservatoryPolicy} (h : (policy.validate limits).ok = true) :
    PolicyFits limits policy := by
  simp only [ObservatoryPolicy.validate, Status.ok_firstFailing, List.forall_mem_append, List.forall_mem_cons] at h
  obtain ⟨⟨⟨hid, hversion, -, haging, -, hconfirmations, hrules, hsuppressions, -⟩, -⟩, hsources, htargets, -⟩ := h
  rw [Status.ok_require rfl] at hid hversion haging hconfirmations hrules hsuppressions hsources htargets
  simp only [Bool.and_eq_true, decide_eq_true_eq, List.all_eq_true] at hid haging hrules hsuppressions hsources htargets
  exact ⟨hid.2, beq_iff_eq.mp hversion, haging, bne_iff_ne.mp hconfirmations, hrules.1.1, hrules.1.2, hrules.2,
    hsuppressions, fun source hmem => (hsources source hmem).2, fun target hmem => (htargets target hmem).2⟩

theorem decodeAging_of {aging absent : Int32} (hlow : 0 ≤ aging.toInt) (hhigh : aging.toInt ≤ 100)
    (h : findMember M "aging_threshold_percent" = some (.makeInt aging.toInt64)) : decodeAging M absent = .ok aging := by
  have hrange : ¬ (aging.toInt64 < 0 ∨ 100 < aging.toInt64) := by
    rw [Int64.lt_iff_toInt_lt, Int64.lt_iff_toInt_lt, Int32.toInt_toInt64]
    rintro (hneg | hbig)
    · exact absurd hneg (not_lt.mpr hlow)
    · exact absurd hbig (not_lt.mpr hhigh)
  simp only [decodeAging, optionalInt_of h, if_neg hrange, Int32.toInt32_toInt64]

theorem decodeFreshness_again {freshness : FreshnessPolicy} (hlow : 0 ≤ freshness.agingThresholdPercent.toInt)
    (hhigh : freshness.agingThresholdPercent.toInt ≤ 100) :
    ∃ M, (encodeFreshness freshness).asMap = some M ∧ decodeFreshness M = .ok freshness := by
  have hshows : Shows (encodeFreshness freshness) _ := shows_object (by
    simp only [memberNames, List.map_cons, List.map_nil]
    repeat rw [ascii_ofList]
    decide)
  obtain ⟨M, hmap, hcheck, -, hfind⟩ := hshows
  simp only [List.map_cons, List.map_nil, List.forall_mem_cons, List.not_mem_nil, false_implies, implies_true,
    and_true] at hfind
  obtain ⟨httl, haging, hskew, hreceive⟩ := hfind
  refine ⟨M, hmap, ?_⟩
  rw [decodeFreshness, hcheck _ _ (by simp), ok_bind,
    checkMemberKinds_of (by simp [httl, haging, hskew, hreceive]), ok_bind]
  simp only [ok_bind, optionalInt_of httl, orRefuse_some, decodeAging_of hlow hhigh haging, optionalInt_of hskew,
    optionalBool_of hreceive, Option.getD_some]

theorem decodeFormatVersion_of {version : UInt16} (hversion : version = kPolicyFormatVersion)
    (h : findMember M "format_version" = some (.makeUint version.toUInt64)) : decodeFormatVersion M = .ok version := by
  subst hversion
  rw [decodeFormatVersion, requireUint_of h, ok_bind]
  rfl

theorem decodeRequiredConfirmations_of {count absent : UInt32} (hcount : count ≠ 0)
    (h : findMember M "resolution_confirmations" = some (.makeUint count.toUInt64)) :
    decodeRequiredConfirmations M absent = .ok count := by
  have hrange : ¬ (count.toUInt64 = 0 ∨ 0xFFFFFFFF < count.toUInt64) := by
    rintro (hzero | hbig)
    · exact hcount (UInt32.toUInt64_inj.mp hzero)
    · rw [UInt64.lt_iff_toNat_lt, UInt32.toNat_toUInt64] at hbig
      have := count.toNat_lt
      simp at hbig
      omega
  simp only [decodeRequiredConfirmations, optionalUint_of h, if_neg hrange, UInt32.toUInt32_toUInt64]

theorem NumericEquivalence.tryParse_toText (e : NumericEquivalence) : NumericEquivalence.tryParse e.toText = some e := by
  refine parseName_toText ?_ (by cases e <;> decide)
  simp only [List.map_cons, List.map_nil, toText]
  repeat rw [ascii_ofList]
  decide

/-- How a policy is read, member by member. -/
structure PolicyRead (limits : RuntimeLimits) (M : Members) (policy : ObservatoryPolicy) : Prop where
  members : checkMembers M ["schema", "id", "format_version", "freshness", "resolution_confirmations",
    "require_complete_coverage_for_compliance", "require_absence_authority", "numeric_equivalence",
    "default_severity", "evidence", "severity_rules", "freshness_rules", "field_class_rules", "suppressions",
    "source_priority", "required_targets"] "policy" = .ok ()
  kinds : checkMemberKinds M [("id", .text), ("format_version", .integer), ("resolution_confirmations", .integer),
    ("require_complete_coverage_for_compliance", .boolean), ("require_absence_authority", .boolean),
    ("numeric_equivalence", .text), ("default_severity", .text), ("evidence", .text), ("severity_rules", .sequence),
    ("freshness_rules", .sequence), ("field_class_rules", .sequence), ("suppressions", .sequence),
    ("source_priority", .sequence), ("required_targets", .sequence)] "policy" = .ok ()
  version : decodeFormatVersion M = .ok policy.formatVersion
  id : requireParsed M "id" "policy" StringId.tryParse (policyError "policy: id is not a valid identity") = .ok policy.id
  freshness : ∃ u F, findMember M "freshness" = some u ∧ u.asMap = some F ∧ decodeFreshness F = .ok policy.freshness
  confirmations : decodeRequiredConfirmations M 1 = .ok policy.resolutionConfirmations
  coverage : policy.requireCompleteCoverageForCompliance =
    (optionalBool M "require_complete_coverage_for_compliance").getD true
  absence : policy.requireAbsenceAuthority = (optionalBool M "require_absence_authority").getD true
  equivalence : ∃ o, optionalParsed M "numeric_equivalence" NumericEquivalence.tryParse
    (policyError "policy: numeric_equivalence is not recognized") = .ok o ∧ policy.numericEquivalence = o.getD .numeric
  severity : ∃ o, optionalParsed M "default_severity" Severity.tryParse
    (policyError "policy: default_severity is not recognized") = .ok o ∧ policy.defaultSeverity = o.getD .medium
  evidence : ∃ o, optionalParsed M "evidence" EvidenceClass.tryParse
    (policyError "policy: evidence is not recognized") = .ok o ∧ policy.evidence = o.getD .unknown
  severityRules : decodeRules M "severity_rules" ObservatoryPolicy.kMaxPolicyRules (decodeSeverityRule limits) =
    .ok policy.severityRules
  freshnessRules : decodeRules M "freshness_rules" ObservatoryPolicy.kMaxPolicyRules (decodeFreshnessRule limits) =
    .ok policy.freshnessRules
  fieldClassRules : decodeRules M "field_class_rules" ObservatoryPolicy.kMaxPolicyRules (decodeFieldClassRule limits) =
    .ok policy.fieldClassRules
  suppressions : decodeRules M "suppressions" limits.maxSuppressions (decodeSuppressionRule limits) =
    .ok policy.suppressions
  sourcePriority : decodeIdentities M "source_priority" (policyError "policy: source identity must be a string")
    (policyError "policy: source identity is invalid") = .ok policy.sourcePriority
  requiredTargets : decodeIdentities M "required_targets" (policyError "policy: target identity must be a string")
    (policyError "policy: target identity is invalid") = .ok policy.requiredTargets
  valid : (policy.validate limits).ok = true

theorem decodePolicy_eq_ok {policy : ObservatoryPolicy} :
    decodePolicy limits v = .ok policy ↔ ∃ M, v.asMap = some M ∧ PolicyRead limits M policy := by
  simp only [decodePolicy, requireObject, requireMember, bind_eq_ok, orRefuse_eq_ok, ite_ok_eq_ok]
  constructor
  · rintro ⟨M, hM, ⟨⟩, hmembers, ⟨⟩, hkinds, id, hid, version, hversion, u, hu, F, hF, freshness, hfreshness, count, hcount,
      equivalence, hequivalence, severity, hseverity, evidence, hevidence, severityRules, hseverityRules, freshnessRules,
      hfreshnessRules, fieldClassRules, hfieldClassRules, suppressions, hsuppressions, sources, hsources, targets,
      htargets, hvalid, rfl⟩
    exact ⟨M, hM, hmembers, hkinds, hversion, hid, ⟨u, F, hu, hF, hfreshness⟩, hcount, rfl, rfl,
      ⟨_, hequivalence, rfl⟩, ⟨_, hseverity, rfl⟩, ⟨_, hevidence, rfl⟩, hseverityRules, hfreshnessRules, hfieldClassRules,
      hsuppressions, hsources, htargets, hvalid⟩
  · rintro ⟨M, hM, h⟩
    obtain ⟨u, F, hu, hF, hfreshness⟩ := h.freshness
    obtain ⟨equivalence, hequivalence, hnumeric⟩ := h.equivalence
    obtain ⟨severity, hseverity, hdefault⟩ := h.severity
    obtain ⟨evidence, hevidence, hclass⟩ := h.evidence
    have hsame : ({ policy with
        requireCompleteCoverageForCompliance := (optionalBool M "require_complete_coverage_for_compliance").getD true
        requireAbsenceAuthority := (optionalBool M "require_absence_authority").getD true
        numericEquivalence := equivalence.getD .numeric
        defaultSeverity := severity.getD .medium
        evidence := evidence.getD .unknown } : ObservatoryPolicy) = policy := by
      rw [← h.coverage, ← h.absence, ← hnumeric, ← hdefault, ← hclass]
    refine ⟨M, hM, (), h.members, (), h.kinds, _, h.id, _, h.version, u, hu, F, hF, _, hfreshness, _, h.confirmations, _,
      hequivalence, _, hseverity, _, hevidence, _, h.severityRules, _, h.freshnessRules, _, h.fieldClassRules, _,
      h.suppressions, _, h.sourcePriority, _, h.requiredTargets, ?_, hsame⟩
    exact (congrArg (fun p => (ObservatoryPolicy.validate limits p).ok) hsame).trans h.valid

theorem decodePolicy_written {policy : ObservatoryPolicy} (hvalid : (policy.validate limits).ok = true)
    (hsevere : (policy.severityRules.map encodeSeverityRule).mapM (decodeSeverityRule limits) = .ok policy.severityRules)
    (hfresh : (policy.freshnessRules.map encodeFreshnessRule).mapM (decodeFreshnessRule limits) =
      .ok policy.freshnessRules)
    (hclassed : (policy.fieldClassRules.map encodeFieldClassRule).mapM (decodeFieldClassRule limits) =
      .ok policy.fieldClassRules)
    (hsuppressed : (policy.suppressions.map encodeSuppressionRule).mapM (decodeSuppressionRule limits) =
      .ok policy.suppressions) :
    decodePolicy limits (encodePolicy policy) = .ok policy := by
  have hfits := fits_of_validate hvalid
  have hshows : Shows (encodePolicy policy) _ := shows_object (by
    simp only [memberNames, List.map_cons, List.map_nil]
    repeat rw [ascii_ofList]
    decide)
  obtain ⟨M, hmap, hcheck, -, hfind⟩ := hshows
  simp only [List.map_cons, List.map_nil, List.forall_mem_cons, List.not_mem_nil, false_implies, implies_true,
    and_true] at hfind
  obtain ⟨-, hid, hformat, hfreshness, hconfirmations, hcoverage, habsence, hequivalence, hseverity, hevidence,
    hseverityRules, hfreshnessRules, hfieldClassRules, hsuppressions, hsources, htargets⟩ := hfind
  obtain ⟨F, hF, hread⟩ := decodeFreshness_again hfits.aging.1 hfits.aging.2
  have hnumeric : findMember M "numeric_equivalence" =
      (some policy.numericEquivalence).map fun e => .makeString e.toText := hequivalence
  have hdefault : findMember M "default_severity" =
      (some policy.defaultSeverity).map fun severity => .makeString severity.toText := hseverity
  have hclass : findMember M "evidence" = (some policy.evidence).map fun e => .makeString e.toText := hevidence
  refine decodePolicy_eq_ok.mpr ⟨M, hmap, {
    members := hcheck _ _ (by simp)
    kinds := checkMemberKinds_of (by simp [hid, hformat, hconfirmations, hcoverage, habsence, hequivalence, hseverity,
      hevidence, hseverityRules, hfreshnessRules, hfieldClassRules, hsuppressions, hsources, htargets])
    version := decodeFormatVersion_of hfits.version hformat
    id := requireParsed_of hid (StringId.tryParse_str.mpr ⟨hfits.id, rfl⟩)
    freshness := ⟨_, F, hfreshness, hF, hread⟩
    confirmations := decodeRequiredConfirmations_of hfits.confirmations hconfirmations
    coverage := by rw [optionalBool_of hcoverage, Option.getD_some]
    absence := by rw [optionalBool_of habsence, Option.getD_some]
    equivalence := ⟨_, optionalParsed_of hnumeric fun _ _ => NumericEquivalence.tryParse_toText _, rfl⟩
    severity := ⟨_, optionalParsed_of hdefault fun _ _ => Severity.tryParse_toText _, rfl⟩
    evidence := ⟨_, optionalParsed_of hclass fun _ _ => EvidenceClass.tryParse_toText _, rfl⟩
    severityRules := decodeRules_of hseverityRules hfits.severityRules hsevere
    freshnessRules := decodeRules_of hfreshnessRules hfits.freshnessRules hfresh
    fieldClassRules := decodeRules_of hfieldClassRules hfits.fieldClassRules hclassed
    suppressions := decodeRules_of hsuppressions hfits.suppressions hsuppressed
    sourcePriority := decodeIdentities_of hsources hfits.sources
    requiredTargets := decodeIdentities_of htargets hfits.targets
    valid := hvalid }⟩

theorem decodePolicy_again {policy : ObservatoryPolicy} (h : decodePolicy limits v = .ok policy)
    (ht : ∀ rule ∈ policy.suppressions, rule.Steady) : decodePolicy limits (encodePolicy policy) = .ok policy := by
  obtain ⟨_, -, hread⟩ := decodePolicy_eq_ok.mp h
  refine decodePolicy_written hread.valid ?_ ?_ ?_ ?_
  · exact rules_again hread.severityRules fun _ _ hrule _ => decodeSeverityRule_again hrule
  · exact rules_again hread.freshnessRules fun _ _ hrule _ => decodeFreshnessRule_again hrule
  · exact rules_again hread.fieldClassRules fun _ _ hrule _ => decodeFieldClassRule_again hrule
  · exact rules_again hread.suppressions fun _ rule hrule hmem => decodeSuppressionRule_again hrule (ht rule hmem)

end Policy

/-! ### The documents -/

/-- Every document a decoder returns is written by its encoder as that document, under the same limits. -/
theorem documents_canonical (limits : RuntimeLimits) :
    (∀ v d, decodeIntentDocument limits v = .ok d → 0 ≤ d.authoredAt.unixNanos →
      ∃ d', decodeIntentDocument limits (encodeIntentDocument d) = .ok d' ∧ d' = d ∧
        d'.computeContentDigest = d.computeContentDigest) ∧
    (∀ v s, decodeObservationDocument limits v = .ok s → 0 ≤ s.collectedAt.unixNanos →
      ∃ s', decodeObservationDocument limits (encodeObservationDocument s) = .ok s' ∧ s' = s ∧
        s'.computeContentDigest = s.computeContentDigest) ∧
    (∀ v policy, decodePolicy limits v = .ok policy →
      (∀ rule ∈ policy.suppressions, 0 ≤ rule.createdAt.unixNanos ∧ ∀ t, rule.expiresAt = some t → 0 ≤ t.unixNanos) →
      ∃ policy', decodePolicy limits (encodePolicy policy) = .ok policy' ∧ policy' = policy ∧
        policy'.computeDigest = policy.computeDigest) ∧
    (∀ v d, decodeSourceDescriptor limits v = .ok d → 0 ≤ d.registeredAt.unixNanos →
      decodeSourceDescriptor limits (encodeSourceDescriptor d) = .ok d) := by
  refine ⟨fun v d h ht => ?_, fun v s h ht => ?_, fun v policy h ht => ?_, fun v d h ht => ?_⟩
  · exact ⟨d, decodeIntentDocument_again h ht, rfl, rfl⟩
  · exact ⟨s, decodeObservationDocument_again h ht, rfl, rfl⟩
  · exact ⟨policy, decodePolicy_again h ht, rfl, rfl⟩
  · exact decodeSourceDescriptor_again h ht

namespace Sample

/-- The object `o` without fields. -/
def bareObject : ObjectId × IntentObject := (⟨[0x6F]⟩, { id := ⟨[0x6F]⟩, fields := ∅ })

/-- A generation that declares one object. -/
def bareIntent : IntentGenerationDocument where
  target := ⟨[0x74]⟩
  generation := ⟨1⟩
  epoch := ⟨1⟩
  authority := .localPolicy
  policy := ⟨[0x70]⟩
  authoredAt := ⟨0⟩
  objects := OrdMap.emplaceAll [bareObject, bareObject]
  evidence := .unknown

/-- Its document, which lists the object twice. -/
def twiceListed : Value :=
  intentDocument bareIntent [encodeIntentObject bareObject.1 bareObject.2, encodeIntentObject bareObject.1 bareObject.2]

theorem decodeIntentDocument_twiceListed : decodeIntentDocument {} twiceListed = .ok bareIntent := by
  have hobject : decodeDeclaredObject {} (encodeIntentObject bareObject.1 bareObject.2) = .ok bareObject :=
    decodeDeclaredObject_written (by decide +kernel) rfl (by decide) rfl
  have hlisted : [encodeIntentObject bareObject.1 bareObject.2, encodeIntentObject bareObject.1 bareObject.2].mapM
      (decodeDeclaredObject {}) = .ok [bareObject, bareObject] := by
    simp only [List.mapM_cons, List.mapM_nil, hobject, ok_bind, pure, Except.pure]
  exact decodeIntentDocument_written (by decide) hlisted rfl (by decide +kernel) (show (0 : Int64) ≤ 0 by decide)

/-- An observation that reports nothing. -/
def bareObservation : ObservationSnapshot where
  snapshotId := default
  source := ⟨[0x73]⟩
  epoch := ⟨1⟩
  incarnation := ⟨1⟩
  sequence := ⟨1⟩
  target := ⟨[0x74]⟩
  collectedAt := ⟨1⟩
  receivedAt := default
  ttlNanos := 0
  coverage := .complete
  unobserved := []
  objects := ∅
  capabilities := {}
  evidence := .real

def bareSource : SourceDescriptor where
  id := ⟨[0x73]⟩
  capabilities := {}
  registeredAt := ⟨0⟩
  epoch := ⟨1⟩
  incarnation := ⟨1⟩
  provenance := []

/-- A policy that suppresses what is found on one target, for a while. -/
def quietPolicy : ObservatoryPolicy :=
  { suppressions := [{
      id := ⟨[0x6E]⟩, selector := { target := some ⟨[0x74]⟩, pathPrefix := some [.key [0x61]] }, author := ⟨[0x61]⟩
      reason := [], createdAt := ⟨1⟩, expiresAt := some ⟨2⟩ }] }

theorem decodePolicy_quietPolicy : decodePolicy {} (encodePolicy quietPolicy) = .ok quietPolicy := by
  refine decodePolicy_written (by decide +kernel) rfl rfl rfl ?_
  have hrule : ∀ rule ∈ quietPolicy.suppressions,
      (decodeSuppressionRule {} (encodeSuppressionRule rule)).toOption = some rule := by
    decide +kernel
  exact mapM_map_ok fun rule hmem => ok_of_toOption (hrule rule hmem)

theorem decodeObservationDocument_bare : decodeObservationDocument {} (encodeObservationDocument bareObservation).canonical =
    .ok (bareObservation.reread {}) :=
  decodeObservationDocument_written.mpr ⟨{
    source := by decide +kernel
    target := by decide +kernel
    ttl := by decide
    unobserved := fun _ h => absurd h List.not_mem_nil
    count := by decide
    objects := fun _ h => absurd h List.not_mem_nil
    valid := by decide +kernel }, rfl⟩

/-- Intent for one field of the object. -/
def fieldIntent : Value :=
  encodeIntentDocument { bareIntent with
    objects := OrdMap.ofList [(⟨[0x6F]⟩,
      { id := ⟨[0x6F]⟩, fields := OrdMap.ofList [([.key [0x66]], { path := [.key [0x66]], intended := .makeInt 1 })] })] }

/-- A report of that field. -/
def fieldReport : Value :=
  encodeObservationDocument { bareObservation with
    objects := OrdMap.ofList [(⟨[0x6F]⟩,
      { id := ⟨[0x6F]⟩, presence := .present, fields := OrdMap.ofList [([.key [0x66]], .makeInt 2)] })] }

end Sample

theorem documents_canonical_fields :
    (∃ d, decodeIntentDocument {} Sample.fieldIntent = .ok d ∧ d.objects.values.map (fun o => o.fields.size) = [1] ∧
      ∃ d', decodeIntentDocument {} (encodeIntentDocument d) = .ok d' ∧ d' = d ∧
        d'.computeContentDigest = d.computeContentDigest) ∧
    (∃ s, decodeObservationDocument {} Sample.fieldReport = .ok s ∧ s.objects.values.map (fun o => o.fields.size) = [1] ∧
      ∃ s', decodeObservationDocument {} (encodeObservationDocument s) = .ok s' ∧ s' = s ∧
        s'.computeContentDigest = s.computeContentDigest) ∧
    (∃ policy, decodePolicy {} (encodePolicy Sample.quietPolicy) = .ok policy ∧ policy = Sample.quietPolicy ∧
      policy.computeDigest = Sample.quietPolicy.computeDigest) ∧
    decodeSourceDescriptor {} (encodeSourceDescriptor Sample.bareSource) = .ok Sample.bareSource := by
  obtain ⟨hintent, hobservation, hpolicy, hsource⟩ := documents_canonical {}
  have hread : (decodeIntentDocument {} Sample.fieldIntent).toOption.any (fun d =>
        decide (0 ≤ d.authoredAt.unixNanos) && d.objects.values.map (fun o => o.fields.size) == [1]) = true ∧
      (decodeObservationDocument {} Sample.fieldReport).toOption.any (fun s =>
        decide (0 ≤ s.collectedAt.unixNanos) && s.objects.values.map (fun o => o.fields.size) == [1]) = true := by
    decide +kernel
  simp only [Option.any_eq_true, Bool.and_eq_true, decide_eq_true_eq, beq_iff_eq] at hread
  obtain ⟨⟨d, hd, hauthored, hdeclared⟩, s, hs, hcollected, hreported⟩ := hread
  have hwritten : decodeSourceDescriptor {} (encodeSourceDescriptor Sample.bareSource) = .ok Sample.bareSource :=
    decodeSourceDescriptor_written (by decide +kernel) (by decide) (by decide) (show (0 : Int64) ≤ 0 by decide)
  refine ⟨⟨d, ok_of_toOption hd, hdeclared, ?_⟩, ⟨s, ok_of_toOption hs, hreported, ?_⟩, ?_, ?_⟩
  · exact hintent _ _ (ok_of_toOption hd) hauthored
  · exact hobservation _ _ (ok_of_toOption hs) hcollected
  · exact hpolicy _ _ Sample.decodePolicy_quietPolicy (by decide +kernel)
  · exact hsource _ _ hwritten (by decide)

end DriftObservatory
