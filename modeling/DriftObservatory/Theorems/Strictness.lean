import DriftObservatory.Theorems.Documents

/-! How strict the decoders are: which accepted documents lose a record, and which supplied members are not read as
    they are written. -/

namespace DriftObservatory

open Json Outcome

/-! ### Listed records -/

def member (v : Value) (name : String) : Option Value := v.asMap.bind fun map => findMember map name

def memberList (v : Value) (name : String) : List Value := ((member v name).bind Value.asList).getD []

def memberText (v : Value) (name : String) : Text := ((member v name).bind Value.asString).getD []

/-- No object is listed twice, and no path twice in one object. -/
def NamesDistinct (v : Value) : Prop :=
  ((memberList v "objects").map fun object => memberText object "id").Nodup ∧
    ∀ object ∈ memberList v "objects", ((memberList object "fields").map fun field => memberText field "path").Nodup

/-- As many objects as the document lists, and in each of them as many fields as its entry lists. -/
def CountsAgree {O F : Type} (fields : O → OrdMap FieldPath F) (objects : OrdMap ObjectId O) (v : Value) : Prop :=
  objects.size = (memberList v "objects").length ∧
    ∀ object ∈ memberList v "objects", ∀ read, objects.find? ⟨memberText object "id"⟩ = some read →
      (fields read).size = (memberList object "fields").length

theorem memberList_eq {v : Value} {M : Members} {name what : String} {vs : List Value} (hM : v.asMap = some M)
    (h : requireList M name what = .ok vs) : memberList v name = vs := by
  simp only [requireList, requireMember, bind_eq_ok, orRefuse_eq_ok] at h
  obtain ⟨u, hu, hvs⟩ := h
  simp [memberList, member, hM, hu, hvs]

theorem memberText_eq {v : Value} {M : Members} {name what detail : String} {α : Type} {parse : Text → Option α} {a : α}
    (hM : v.asMap = some M) (h : requireText M name what parse detail = .ok a) :
    parse (memberText v name) = some a := by
  obtain ⟨u, text, hu, htext, ha⟩ := requireText_eq_ok.mp h
  simpa [memberText, member, hM, hu, htext] using ha

section Counts
variable {K O : Type} {decode : Value → Except Status (K × O)} {vs : List Value} {es : List (K × O)}
  {name : Value → Text} {spell : K → Text} {parse : Text → Option K}

/-- Records under distinct names are read under distinct keys, and conversely. -/
theorem nodup_read_iff (h : vs.mapM decode = .ok es)
    (hname : ∀ v e, decode v = .ok e → parse (name v) = some e.1 ∧ spell e.1 = name v) :
    (es.map Prod.fst).Nodup ↔ (vs.map name).Nodup := by
  have hread := mapM_eq_ok_iff.mp h
  have hspelled : (es.map Prod.fst).map spell = vs.map name := by
    clear h
    induction hread with
    | nil => rfl
    | cons hv _ ih => rw [List.map_cons, List.map_cons, List.map_cons, ih, (hname _ _ hv).2]
  have hinj : ∀ k ∈ es.map Prod.fst, ∀ k' ∈ es.map Prod.fst, spell k = spell k' → k = k' := by
    have hback : ∀ k ∈ es.map Prod.fst, parse (spell k) = some k := by
      intro k hk
      obtain ⟨e, he, rfl⟩ := List.mem_map.mp hk
      obtain ⟨v, -, hv⟩ := exists_of_mapM_eq_ok h e he
      obtain ⟨hparse, hspell⟩ := hname v e hv
      rw [hspell, hparse]
    intro k hk k' hk' heq
    exact Option.some.inj ((hback k hk).symm.trans ((congrArg parse heq).trans (hback k' hk')))
  rw [← hspelled]
  exact ⟨fun hnodup => hnodup.map_on hinj, List.Nodup.of_map spell⟩

/-- All listed records are kept exactly when their names are distinct. -/
theorem size_read_iff [LinearOrder K] (h : vs.mapM decode = .ok es)
    (hname : ∀ v e, decode v = .ok e → parse (name v) = some e.1 ∧ spell e.1 = name v) :
    (OrdMap.emplaceAll es).size = vs.length ↔ (vs.map name).Nodup := by
  rw [(mapM_eq_ok_iff.mp h).length_eq, OrdMap.size_emplaceAll_eq_iff, nodup_read_iff h hname]

end Counts

theorem str_of_tryParse {tag : IdTag} {text : Text} {id : StringId tag} (h : StringId.tryParse text = some id) :
    id.str = text := by
  rw [StringId.tryParse] at h
  split_ifs at h
  cases h
  rfl

/-- Records of a document: how an object and its fields are read from their entries. -/
theorem countsAgree_iff {O F : Type} (limits : RuntimeLimits) {v : Value} {fields : O → OrdMap FieldPath F}
    (decodeObject : Value → Except Status (ObjectId × O)) (decodeField : Value → Except Status (FieldPath × F))
    {es : List (ObjectId × O)} (hes : (memberList v "objects").mapM decodeObject = .ok es)
    (hobject : ∀ o e, decodeObject o = .ok e → StringId.tryParse (memberText o "id") = some e.1 ∧
      ∃ fs, (memberList o "fields").mapM decodeField = .ok fs ∧ fields e.2 = OrdMap.emplaceAll fs)
    (hfield : ∀ f e, decodeField f = .ok e → FieldPath.tryParse limits (memberText f "path") = some e.1) :
    CountsAgree fields (OrdMap.emplaceAll es) v ↔ NamesDistinct v := by
  have hids : ∀ o e, decodeObject o = .ok e → StringId.tryParse (memberText o "id") = some e.1 ∧
      e.1.str = memberText o "id" := fun o e ho => ⟨(hobject o e ho).1, str_of_tryParse (hobject o e ho).1⟩
  have hpaths : ∀ f e, decodeField f = .ok e → FieldPath.tryParse limits (memberText f "path") = some e.1 ∧
      FieldPath.toText e.1 = memberText f "path" :=
    fun f e hf => ⟨hfield f e hf, FieldPath.toText_of_tryParse (hfield f e hf)⟩
  -- with distinct names each entry is the one its object was read from
  have hread : ((memberList v "objects").map fun o => memberText o "id").Nodup →
      ∀ o ∈ memberList v "objects", ∃ e, decodeObject o = .ok e ∧
        (OrdMap.emplaceAll es).find? ⟨memberText o "id"⟩ = some e.2 := by
    intro hnodup o ho
    obtain ⟨e, he, hoe⟩ := exists_read_of_mem (mapM_eq_ok_iff.mp hes) o ho
    have hkey : (⟨memberText o "id"⟩ : ObjectId) = e.1 := StringId.str_injective (hids o e hoe).2.symm
    exact ⟨e, hoe, hkey ▸ OrdMap.find?_emplaceAll_of_mem ((nodup_read_iff hes hids).mpr hnodup) he⟩
  have hsize := size_read_iff hes hids
  constructor
  · rintro ⟨hcount, hcounts⟩
    have hnodup := hsize.mp hcount
    refine ⟨hnodup, fun o ho => ?_⟩
    obtain ⟨e, hoe, hfind⟩ := hread hnodup o ho
    obtain ⟨-, fs, hfs, heq⟩ := hobject o e hoe
    have hagree := hcounts o ho e.2 hfind
    rw [heq] at hagree
    exact (size_read_iff hfs hpaths).mp hagree
  · rintro ⟨hnodup, hfields⟩
    refine ⟨hsize.mpr hnodup, fun o ho read hfound => ?_⟩
    obtain ⟨e, hoe, hfind⟩ := hread hnodup o ho
    cases hfind.symm.trans hfound
    obtain ⟨-, fs, hfs, heq⟩ := hobject o e hoe
    rw [heq]
    exact (size_read_iff hfs hpaths).mpr (hfields o ho)

theorem intent_countsAgree_iff {limits : RuntimeLimits} {v : Value} {d : IntentGenerationDocument}
    (h : decodeIntentDocument limits v = .ok d) : CountsAgree IntentObject.fields d.objects v ↔ NamesDistinct v := by
  obtain ⟨M, vs, es, hM, hvs, -, hes, hobjects, -⟩ := decodeIntentDocument_inv h
  rw [hobjects]
  refine countsAgree_iff limits (decodeDeclaredObject limits) (decodeDeclaredField limits)
    (by rwa [memberList_eq hM hvs]) (fun o e ho => ?_) fun f e hf => ?_
  · obtain ⟨N, ws, fs, hN, hid, -, hws, -, hfs, hfields⟩ := decodeDeclaredObject_inv ho
    exact ⟨memberText_eq hN hid, fs, by rwa [memberList_eq hN hws], hfields⟩
  · obtain ⟨N, hN, hpath, -⟩ := decodeDeclaredField_inv hf
    exact memberText_eq hN hpath

theorem observation_countsAgree_iff {limits : RuntimeLimits} {v : Value} {s : ObservationSnapshot}
    (h : decodeObservationDocument limits v = .ok s) :
    CountsAgree ObservedObject.fields s.objects v ↔ NamesDistinct v := by
  obtain ⟨M, vs, es, us, hM, -, -, -, -, -, -, -, -, -, hvs, -, hes, hobjects, -⟩ := decodeObservationDocument_inv h
  rw [hobjects]
  refine countsAgree_iff limits (decodeObservedObject limits) (decodeObservedField limits)
    (by rwa [memberList_eq hM hvs]) (fun o e ho => ?_) fun f e hf => ?_
  · obtain ⟨N, ws, fs, hN, -, hid, -, -, hws, -, hfs, hfields⟩ := decodeObservedObject_inv ho
    exact ⟨memberText_eq hN hid, fs, by rwa [memberList_eq hN hws], hfields⟩
  · obtain ⟨N, hN, hpath⟩ := decodeObservedField_inv hf
    exact memberText_eq hN hpath

/-- An accepted document loses no record exactly when it names no object, and no path in an object, twice. -/
theorem records_kept_iff (limits : RuntimeLimits) (v : Value) :
    (∀ d, decodeIntentDocument limits v = .ok d →
      (CountsAgree IntentObject.fields d.objects v ↔ NamesDistinct v)) ∧
    (∀ s, decodeObservationDocument limits v = .ok s →
      (CountsAgree ObservedObject.fields s.objects v ↔ NamesDistinct v)) :=
  ⟨fun _ => intent_countsAgree_iff, fun _ => observation_countsAgree_iff⟩

/-- An object that is listed twice is kept once. -/
theorem twiceListed_dropped : ¬ ∀ (limits : RuntimeLimits) (v : Value),
    (∀ d, decodeIntentDocument limits v = .ok d → CountsAgree IntentObject.fields d.objects v) ∧
    (∀ s, decodeObservationDocument limits v = .ok s → CountsAgree ObservedObject.fields s.objects v) := by
  intro hall
  obtain ⟨hcount, -⟩ := (hall {} Sample.twiceListed).1 _ Sample.decodeIntentDocument_twiceListed
  revert hcount
  decide +kernel

/-- One object for two entries: the names are not distinct and a record is lost. -/
theorem records_kept_iff_twiceListed :
    (CountsAgree IntentObject.fields Sample.bareIntent.objects Sample.twiceListed ↔ NamesDistinct Sample.twiceListed) ∧
    (CountsAgree ObservedObject.fields (Sample.bareObservation.reread {}).objects
        (encodeObservationDocument Sample.bareObservation).canonical ↔
      NamesDistinct (encodeObservationDocument Sample.bareObservation).canonical) :=
  ⟨(records_kept_iff {} Sample.twiceListed).1 _ Sample.decodeIntentDocument_twiceListed,
    (records_kept_iff {} _).2 _ Sample.decodeObservationDocument_bare⟩

end DriftObservatory
