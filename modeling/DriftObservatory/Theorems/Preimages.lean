import DriftObservatory.Theorems.Encodings
import DriftObservatory.Theorems.Intents

/-! What the identities hash: the bytes of a finding identity, of a snapshot and of an intent document are equal exactly
    when the contents they are made of are. -/

namespace DriftObservatory

open Codes

/-! ### Parts -/

section Parts
variable {α : Type}

theorem byte_separable {f : α → UInt8} (hf : Function.Injective f) : Separable (fun _ => True) fun a => [f a] :=
  separable_of_length (n := 1) (fun _ _ => rfl) fun _ _ _ _ h => hf (List.head_eq_of_cons_eq h)

theorem word_separable {f : α → UInt64} (hf : Function.Injective f) :
    Separable (fun _ => True) fun a => bigEndian64 (f a) :=
  bigEndian64_separable.comp (fun _ _ => trivial) fun _ _ _ _ h => hf h

theorem named_separable {f : α → Text} (hf : Function.Injective f) :
    Separable (fun a => Sized (f a).length) fun a => lengthPrefixed (f a) :=
  lengthPrefixed_separable.comp (fun _ h => h) fun _ _ _ _ h => hf h

end Parts

/-- No member name of the path is empty, and its text has a size. -/
def FieldPath.Spelled (path : FieldPath) : Prop := (∀ x ∈ path, x.Named) ∧ Sized (FieldPath.toText path).length

theorem path_separable : Separable FieldPath.Spelled fun path => lengthPrefixed (FieldPath.toText path) :=
  lengthPrefixed_separable.comp (fun _ h => h.2) fun _ _ ha hb h => FieldPath.toText_injective ha.1 hb.1 h

/-- A value nested at most as deep as the recursion guard admits. -/
def Value.Hashable (v : Value) : Prop := v.tree.maxDepth ≤ kHardRecursionLimit ∧ v.tree.Addressable

theorem hashInto_separable : Separable Value.Hashable Value.hashInto :=
  (ValueTree.hashValue_separable 0).comp (fun _ h => h) fun _ _ _ _ h => Value.tree_injective h

theorem toUInt64_injective : Function.Injective Int64.toUInt64 := fun _ _ h => congrArg Int64.ofUInt64 h

theorem NdoTime.word_injective : Function.Injective fun t : NdoTime => t.unixNanos.toUInt64 :=
  toUInt64_injective.comp unixNanos_injective

theorem EvidenceClass.toByte_injective : Function.Injective toByte := by
  intro a b h
  cases a <;> cases b <;> first | rfl | exact absurd h (by decide)

theorem ObjectPresence.toByte_injective : Function.Injective toByte := by
  intro a b h
  cases a <;> cases b <;> first | rfl | exact absurd h (by decide)

theorem ObservationCoverage.toByte_injective : Function.Injective toByte := by
  intro a b h
  cases a <;> cases b <;> first | rfl | exact absurd h (by decide)

theorem FieldComparability.toByte_injective : Function.Injective toByte := by
  intro a b h
  cases a <;> cases b <;> first | rfl | exact absurd h (by decide)

theorem ObjectExistence.toByte_injective : Function.Injective toByte := by
  intro a b h
  cases a <;> cases b <;> first | rfl | exact absurd h (by decide)

theorem flagByte_injective : Function.Injective ObservationSnapshot.flagByte := by
  intro a b h
  cases a <;> cases b <;> first | rfl | exact absurd h (by decide)

theorem DriftClass.toText_injective : Function.Injective toText := fun a b h => by
  rw [← Option.some_inj, ← tryParse_toText a, h, tryParse_toText]

theorem IntentAuthority.toText_injective : Function.Injective toText := fun a b h => by
  rw [← Option.some_inj, ← tryParse_toText a, h, tryParse_toText]

theorem sized_klass (klass : DriftClass) : Sized klass.toText.length := by
  cases klass <;> decide +kernel

theorem sized_authority (authority : IntentAuthority) : Sized authority.toText.length := by
  cases authority <;> decide +kernel

/-! ### Finding identities -/

namespace FindingIdentity

/-- What its identity is told apart for: a path without empty member names, and texts with a size. -/
structure Spelled (identity : FindingIdentity) : Prop where
  target : Sized identity.target.str.length
  object : Sized identity.object.str.length
  path : identity.path.Spelled

/-- The flag before the qualifier and the qualifier, when it is set. -/
def qualifierCode (qualifier : Digest) : Text :=
  if qualifier.isSet then bigEndian64 1 ++ qualifier.bytes else bigEndian64 0

theorem qualifierCode_injective {q r : Digest} (h : qualifierCode q = qualifierCode r) : q = r := by
  cases hq : q.isSet <;> cases hr : r.isSet <;> rw [qualifierCode, qualifierCode, hq, hr] at h
  · rw [Digest.eq_zero_of_unset hq, Digest.eq_zero_of_unset hr]
  · cases (bigEndian64_separable (s := []) trivial trivial h).1
  · cases (bigEndian64_separable (t := []) trivial trivial h).1
  · have hbytes := (bigEndian64_separable trivial trivial h).2
    cases q
    cases r
    cases hbytes
    rfl

theorem preimage_injective {a b : FindingIdentity} (ha : a.Spelled) (hb : b.Spelled) (h : a.preimage = b.preimage) :
    a = b := by
  simp only [preimage, List.append_assoc, List.append_cancel_left_eq] at h
  obtain ⟨htarget, h⟩ := named_separable StringId.str_injective ha.target hb.target h
  obtain ⟨hobject, h⟩ := named_separable StringId.str_injective ha.object hb.object h
  obtain ⟨hpath, h⟩ := path_separable ha.path hb.path h
  obtain ⟨hklass, h⟩ := named_separable DriftClass.toText_injective (sized_klass _) (sized_klass _) h
  obtain ⟨hgeneration, h⟩ := word_separable StrongUint.value_injective trivial trivial h
  have hqualifier := qualifierCode_injective h
  cases a
  cases b
  subst htarget hobject hpath hklass hgeneration hqualifier
  rfl

end FindingIdentity

/-! ### Snapshots -/

/-- A map behind its size is told apart as its entries are. -/
theorem map_separable {K V : Type} [LinearOrder K] {values : K × V → Prop} {code : K × V → Text}
    (h : Separable values code) :
    Separable (fun m : OrdMap K V => Sized m.size ∧ ∀ e ∈ m.entries, values e)
      fun m => bigEndian64 (UInt64.ofNat m.size) ++ m.entries.flatMap code :=
  (size_separable.counted h).comp (f := OrdMap.entries) (fun _ hm => hm) fun a b _ _ heq => by
    cases a
    cases b
    cases heq
    rfl

namespace ObservationSnapshot

/-- The hashed content of an observed object under its key. -/
def objectContent (entry : ObjectId × ObservedObject) : ObjectId × ObjectPresence × OrdMap FieldPath Value :=
  (entry.1, entry.2.presence, entry.2.fields)

/-- Two snapshots that differ at most in their identity, their receive time, the order and the repetitions of the
    unobserved objects, and the copies of keys inside objects. -/
structure SameContent (s t : ObservationSnapshot) : Prop where
  source : s.source = t.source
  epoch : s.epoch = t.epoch
  incarnation : s.incarnation = t.incarnation
  sequence : s.sequence = t.sequence
  target : s.target = t.target
  collectedAt : s.collectedAt = t.collectedAt
  ttlNanos : s.ttlNanos = t.ttlNanos
  coverage : s.coverage = t.coverage
  evidence : s.evidence = t.evidence
  capabilities : s.capabilities = t.capabilities
  unobserved : ∀ id, id ∈ s.unobserved ↔ id ∈ t.unobserved
  objects : s.objects.entries.map objectContent = t.objects.entries.map objectContent

/-- The fields of an object: paths without empty member names, values that nest within the recursion guard. -/
def FieldsSpelled (fields : OrdMap FieldPath Value) : Prop :=
  Sized fields.size ∧ ∀ field ∈ fields.entries, field.1.Spelled ∧ field.2.Hashable

/-- What its content is told apart for. -/
structure Spelled (s : ObservationSnapshot) : Prop where
  source : Sized s.source.str.length
  target : Sized s.target.str.length
  unobserved : Sized s.unobserved.length ∧ ∀ id ∈ s.unobserved, Sized id.str.length
  objects : Sized s.objects.size ∧ ∀ entry ∈ s.objects.entries, Sized entry.1.str.length ∧ FieldsSpelled entry.2.fields

/-- The bytes of an observed object, of its hashed content. -/
def objectCode (content : ObjectId × ObjectPresence × OrdMap FieldPath Value) : Text :=
  lengthPrefixed content.1.str ++ ([content.2.1.toByte] ++ (bigEndian64 (UInt64.ofNat content.2.2.size) ++
    content.2.2.entries.flatMap fun field => lengthPrefixed (FieldPath.toText field.1) ++ field.2.hashInto))

theorem objectPreimage_eq (entry : ObjectId × ObservedObject) :
    objectPreimage entry.1 entry.2 = objectCode (objectContent entry) := by
  simp [objectPreimage, objectCode, objectContent]

theorem objectCode_separable :
    Separable (fun content => Sized content.1.str.length ∧ True ∧ FieldsSpelled content.2.2) objectCode :=
  (named_separable StringId.str_injective).pair
    ((byte_separable ObjectPresence.toByte_injective).pair
      (map_separable (path_separable.pair hashInto_separable)))

theorem mem_unobservedView {s : ObservationSnapshot} {id : ObjectId} : id ∈ s.unobservedView ↔ id ∈ s.unobserved := by
  rw [unobservedView, List.mem_dedup, List.mem_insertionSort]

theorem unobservedView_pairwise (s : ObservationSnapshot) : s.unobservedView.Pairwise (· < ·) := by
  have hsorted : s.unobservedView.Pairwise (· ≤ ·) :=
    (List.pairwise_insertionSort (· ≤ ·) s.unobserved).sublist (List.dedup_sublist _)
  exact (hsorted.and (List.nodup_dedup _)).imp fun h => lt_of_le_of_ne h.1 h.2

/-- The sorted set is that of the members. -/
theorem unobservedView_eq_iff {s t : ObservationSnapshot} :
    s.unobservedView = t.unobservedView ↔ ∀ id, id ∈ s.unobserved ↔ id ∈ t.unobserved := by
  refine ⟨fun h id => ?_, fun h => ?_⟩
  · rw [← mem_unobservedView, h, mem_unobservedView]
  · refine List.Perm.eq_of_pairwise (fun a b _ _ hab hba => absurd hba hab.not_gt) (unobservedView_pairwise s)
      (unobservedView_pairwise t) ?_
    refine (List.perm_ext_iff_of_nodup (List.nodup_dedup _) (List.nodup_dedup _)).mpr fun id => ?_
    exact mem_unobservedView.trans ((h id).trans mem_unobservedView.symm)

theorem sized_unobservedView {s : ObservationSnapshot} (h : s.Spelled) :
    Sized s.unobservedView.length ∧ ∀ id ∈ s.unobservedView, Sized id.str.length := by
  refine ⟨lt_of_le_of_lt ?_ h.unobserved.1, fun id hid => h.unobserved.2 id (mem_unobservedView.mp hid)⟩
  rw [← List.length_insertionSort (· ≤ ·) s.unobserved]
  exact (List.dedup_sublist _).length_le

theorem sized_objects {s : ObservationSnapshot} (h : s.Spelled) :
    Sized (s.objects.entries.map objectContent).length ∧ ∀ content ∈ s.objects.entries.map objectContent,
      Sized content.1.str.length ∧ True ∧ FieldsSpelled content.2.2 := by
  refine ⟨by rw [List.length_map]; exact h.objects.1, fun content hcontent => ?_⟩
  obtain ⟨entry, hentry, rfl⟩ := List.mem_map.mp hcontent
  exact ⟨(h.objects.2 entry hentry).1, trivial, (h.objects.2 entry hentry).2⟩

/-- The preimage, with the objects by their hashed contents. -/
theorem contentPreimage_eq (s : ObservationSnapshot) : s.contentPreimage =
    lengthPrefixed kSnapshotIdentityTag ++ (lengthPrefixed s.source.str ++ (bigEndian64 s.epoch.value ++
      (bigEndian64 s.incarnation.value ++ (bigEndian64 s.sequence.value ++ (lengthPrefixed s.target.str ++
      (bigEndian64 s.collectedAt.unixNanos.toUInt64 ++ (bigEndian64 s.ttlNanos.toUInt64 ++
      ([s.coverage.toByte] ++ ([s.evidence.toByte] ++ ([flagByte s.capabilities.assertsAbsence] ++
      ([flagByte s.capabilities.completeCoverage] ++ ([flagByte s.capabilities.reportsNestedPaths] ++
      ([s.capabilities.evidence.toByte] ++ ((bigEndian64 (UInt64.ofNat s.unobservedView.length) ++
      s.unobservedView.flatMap fun id => lengthPrefixed id.str) ++
      ((bigEndian64 (UInt64.ofNat (s.objects.entries.map objectContent).length) ++
      (s.objects.entries.map objectContent).flatMap objectCode) ++ []))))))))))))))) := by
  simp only [contentPreimage, objectPreimage_eq, List.flatMap_map, List.length_map, OrdMap.size, List.append_assoc,
    List.cons_append, List.nil_append, List.append_nil]

theorem contentPreimage_injective {s t : ObservationSnapshot} (hs : s.Spelled) (ht : t.Spelled)
    (h : s.contentPreimage = t.contentPreimage) : s.SameContent t := by
  rw [contentPreimage_eq, contentPreimage_eq, List.append_cancel_left_eq] at h
  obtain ⟨hsource, h⟩ := named_separable StringId.str_injective hs.source ht.source h
  obtain ⟨hepoch, h⟩ := word_separable StrongUint.value_injective trivial trivial h
  obtain ⟨hincarnation, h⟩ := word_separable StrongUint.value_injective trivial trivial h
  obtain ⟨hsequence, h⟩ := word_separable StrongUint.value_injective trivial trivial h
  obtain ⟨htarget, h⟩ := named_separable StringId.str_injective hs.target ht.target h
  obtain ⟨hcollected, h⟩ := word_separable NdoTime.word_injective trivial trivial h
  obtain ⟨httl, h⟩ := word_separable toUInt64_injective trivial trivial h
  obtain ⟨hcoverage, h⟩ := byte_separable ObservationCoverage.toByte_injective trivial trivial h
  obtain ⟨hevidence, h⟩ := byte_separable EvidenceClass.toByte_injective trivial trivial h
  obtain ⟨habsence, h⟩ := byte_separable flagByte_injective trivial trivial h
  obtain ⟨hcomplete, h⟩ := byte_separable flagByte_injective trivial trivial h
  obtain ⟨hnested, h⟩ := byte_separable flagByte_injective trivial trivial h
  obtain ⟨hclass, h⟩ := byte_separable EvidenceClass.toByte_injective trivial trivial h
  obtain ⟨hunobserved, h⟩ := (size_separable.counted (named_separable StringId.str_injective)) (sized_unobservedView hs)
    (sized_unobservedView ht) h
  obtain ⟨hobjects, -⟩ := (size_separable.counted objectCode_separable) (sized_objects hs) (sized_objects ht) h
  have hcapabilities : s.capabilities = t.capabilities := by
    cases hc : s.capabilities
    cases hd : t.capabilities
    rw [hc, hd] at habsence hcomplete hnested hclass
    cases habsence
    cases hcomplete
    cases hnested
    cases hclass
    rfl
  exact ⟨hsource, hepoch, hincarnation, hsequence, htarget, hcollected, httl, hcoverage, hevidence, hcapabilities,
    unobservedView_eq_iff.mp hunobserved, hobjects⟩

theorem contentPreimage_of_same {s t : ObservationSnapshot} (h : s.SameContent t) :
    s.contentPreimage = t.contentPreimage := by
  rw [contentPreimage_eq, contentPreimage_eq, h.source, h.epoch, h.incarnation, h.sequence, h.target, h.collectedAt,
    h.ttlNanos, h.coverage, h.evidence, h.capabilities, unobservedView_eq_iff.mpr h.unobserved, h.objects]

end ObservationSnapshot

/-! ### Intent documents -/

namespace IntentGenerationDocument

/-- The fields of an object: paths without empty member names, values that nest within the recursion guard. -/
def FieldsSpelled (fields : List (FieldPath × FieldComparability × Value)) : Prop :=
  Sized fields.length ∧ ∀ field ∈ fields, field.1.Spelled ∧ True ∧ field.2.2.Hashable

/-- What its content is told apart for. -/
structure Spelled (d : IntentGenerationDocument) : Prop where
  target : Sized d.target.str.length
  policy : Sized d.policy.str.length
  objects : Sized d.objects.size ∧ ∀ entry ∈ d.objects.entries, Sized entry.1.str.length ∧
    Sized entry.2.fields.size ∧ ∀ field ∈ entry.2.fields.entries, field.1.Spelled ∧ field.2.intended.Hashable

def fieldCode (content : FieldPath × FieldComparability × Value) : Text :=
  lengthPrefixed (FieldPath.toText content.1) ++ ([content.2.1.toByte] ++ content.2.2.hashInto)

/-- The bytes of a declared object, of its hashed content. -/
def objectCode (content : ObjectId × ObjectExistence × List (FieldPath × FieldComparability × Value)) : Text :=
  lengthPrefixed content.1.str ++ ([content.2.1.toByte] ++ (bigEndian64 (UInt64.ofNat content.2.2.length) ++
    content.2.2.flatMap fieldCode))

theorem objectPreimage_eq (entry : ObjectId × IntentObject) :
    objectPreimage entry.1 entry.2 = objectCode (objectContent entry) := by
  simp [objectPreimage, objectCode, objectContent, OrdMap.size, List.flatMap_map, fieldCode]

theorem objectCode_separable :
    Separable (fun content => Sized content.1.str.length ∧ True ∧ FieldsSpelled content.2.2) objectCode :=
  (named_separable StringId.str_injective).pair
    ((byte_separable ObjectExistence.toByte_injective).pair
      (size_separable.counted
        (path_separable.pair ((byte_separable FieldComparability.toByte_injective).pair hashInto_separable))))

theorem sized_objects {d : IntentGenerationDocument} (h : d.Spelled) :
    Sized (d.objects.entries.map objectContent).length ∧ ∀ content ∈ d.objects.entries.map objectContent,
      Sized content.1.str.length ∧ True ∧ FieldsSpelled content.2.2 := by
  refine ⟨by rw [List.length_map]; exact h.objects.1, fun content hcontent => ?_⟩
  obtain ⟨entry, hentry, rfl⟩ := List.mem_map.mp hcontent
  obtain ⟨hkey, hsize, hfields⟩ := h.objects.2 entry hentry
  refine ⟨hkey, trivial, by rw [objectContent, List.length_map]; exact hsize, fun content hfield => ?_⟩
  obtain ⟨field, hmem, rfl⟩ := List.mem_map.mp hfield
  exact ⟨(hfields field hmem).1, trivial, (hfields field hmem).2⟩

/-- The preimage, with the objects by their hashed contents. -/
theorem contentPreimage_eq (d : IntentGenerationDocument) : d.contentPreimage =
    lengthPrefixed kIntentContentTag ++ (lengthPrefixed d.target.str ++ (bigEndian64 d.generation.value ++
      (bigEndian64 d.epoch.value ++ (lengthPrefixed d.authority.toText ++ (lengthPrefixed d.policy.str ++
      (bigEndian64 d.authoredAt.unixNanos.toUInt64 ++ ([d.evidence.toByte] ++
      ((bigEndian64 (UInt64.ofNat (d.objects.entries.map objectContent).length) ++
      (d.objects.entries.map objectContent).flatMap objectCode) ++ [])))))))) := by
  simp only [contentPreimage, objectPreimage_eq, List.flatMap_map, List.length_map, OrdMap.size, List.append_assoc,
    List.cons_append, List.nil_append, List.append_nil]

theorem contentPreimage_injective {d e : IntentGenerationDocument} (hd : d.Spelled) (he : e.Spelled)
    (h : d.contentPreimage = e.contentPreimage) : d.SameContent e := by
  rw [contentPreimage_eq, contentPreimage_eq, List.append_cancel_left_eq] at h
  obtain ⟨htarget, h⟩ := named_separable StringId.str_injective hd.target he.target h
  obtain ⟨hgeneration, h⟩ := word_separable StrongUint.value_injective trivial trivial h
  obtain ⟨hepoch, h⟩ := word_separable StrongUint.value_injective trivial trivial h
  obtain ⟨hauthority, h⟩ := named_separable IntentAuthority.toText_injective (sized_authority _) (sized_authority _) h
  obtain ⟨hpolicy, h⟩ := named_separable StringId.str_injective hd.policy he.policy h
  obtain ⟨hauthored, h⟩ := word_separable NdoTime.word_injective trivial trivial h
  obtain ⟨hevidence, h⟩ := byte_separable EvidenceClass.toByte_injective trivial trivial h
  obtain ⟨hobjects, -⟩ := (size_separable.counted objectCode_separable) (sized_objects hd) (sized_objects he) h
  exact ⟨htarget.symm, hgeneration.symm, hepoch.symm, hauthority.symm, hpolicy.symm, hauthored.symm, hevidence.symm,
    hobjects.symm⟩

end IntentGenerationDocument

/-! ### Identities -/

/-- Two texts with one hash. -/
def Collision (x y : Text) : Prop := x ≠ y ∧ hashBytes x = hashBytes y

theorem eq_or_collision {x y : Text} (h : hashBytes x = hashBytes y) : x = y ∨ Collision x y :=
  (eq_or_ne x y).imp_right fun hne => ⟨hne, h⟩

theorem digest_of_toHex {p q : Digest} (h : toHex p.bytes = toHex q.bytes) : p = q := by
  have hbytes : p.bytes = q.bytes := by rw [← Option.some_inj, ← fromHex_toHex, h, fromHex_toHex]
  cases p
  cases q
  cases hbytes
  rfl

theorem FindingIdentity.eq_or_collision {a b : FindingIdentity} (h : a.computeId = b.computeId) :
    a.preimage = b.preimage ∨ Collision a.preimage b.preimage := by
  rw [computeId, computeId, DigestId.mk.injEq] at h
  exact DriftObservatory.eq_or_collision h

theorem ObservationSnapshot.eq_or_collision {s t : ObservationSnapshot}
    (h : s.computeSnapshotId = t.computeSnapshotId) :
    s.contentPreimage = t.contentPreimage ∨ Collision s.contentPreimage t.contentPreimage := by
  rw [computeSnapshotId, computeSnapshotId, StringId.mk.injEq] at h
  have hdigest := digest_of_toHex h
  rw [computeContentDigest, computeContentDigest] at hdigest
  exact DriftObservatory.eq_or_collision hdigest

theorem IntentGenerationDocument.eq_or_collision {d e : IntentGenerationDocument}
    (h : d.computeContentDigest = e.computeContentDigest) :
    d.contentPreimage = e.contentPreimage ∨ Collision d.contentPreimage e.contentPreimage := by
  rw [computeContentDigest, computeContentDigest] at h
  exact DriftObservatory.eq_or_collision h

/-- The bytes that identify findings, snapshots and intent documents are equal exactly when the hashed contents are, and
    contents that differ share an identity only through a collision of the hash. -/
theorem preimages_injective {a b : FindingIdentity} {s t : ObservationSnapshot} {d e : IntentGenerationDocument}
    (ha : a.Spelled) (hb : b.Spelled) (hs : s.Spelled) (ht : t.Spelled) (hd : d.Spelled) (he : e.Spelled) :
    ((a.preimage = b.preimage ↔ a = b) ∧
      (a.computeId = b.computeId → a = b ∨ Collision a.preimage b.preimage)) ∧
    ((s.contentPreimage = t.contentPreimage ↔ s.SameContent t) ∧
      (s.computeSnapshotId = t.computeSnapshotId → s.SameContent t ∨ Collision s.contentPreimage t.contentPreimage)) ∧
    ((d.contentPreimage = e.contentPreimage ↔ d.SameContent e) ∧
      (d.computeContentDigest = e.computeContentDigest →
        d.SameContent e ∨ Collision d.contentPreimage e.contentPreimage)) := by
  have hfinding := FindingIdentity.preimage_injective ha hb
  have hsnapshot := ObservationSnapshot.contentPreimage_injective hs ht
  have hintent := IntentGenerationDocument.contentPreimage_injective hd he
  refine ⟨⟨⟨hfinding, congrArg _⟩, fun h => ?_⟩, ⟨⟨hsnapshot, ObservationSnapshot.contentPreimage_of_same⟩, fun h => ?_⟩,
    ⟨⟨hintent, fun h => h.contentPreimage.symm⟩, fun h => ?_⟩⟩
  · exact (FindingIdentity.eq_or_collision h).imp_left hfinding
  · exact (ObservationSnapshot.eq_or_collision h).imp_left hsnapshot
  · exact (IntentGenerationDocument.eq_or_collision h).imp_left hintent

namespace Sample

/-- The identity of a finding on one field. -/
def located (target object : String) : FindingIdentity where
  target := ⟨ascii target⟩
  object := ⟨ascii object⟩
  path := [.key (ascii "mtu")]
  klass := .valueMismatch
  baselineGeneration := ⟨1⟩
  qualifier := .zero

/-- An observation of one field. -/
def reported (unobserved : List ObjectId) : ObservationSnapshot where
  snapshotId := default
  source := ⟨ascii "s"⟩
  epoch := ⟨1⟩
  incarnation := ⟨1⟩
  sequence := ⟨1⟩
  target := ⟨ascii "t"⟩
  collectedAt := ⟨1⟩
  receivedAt := default
  ttlNanos := 0
  coverage := .complete
  unobserved := unobserved
  objects := ⟨[(⟨ascii "o"⟩, ⟨⟨ascii "o"⟩, .present,
    ⟨[([.key (ascii "mtu")], .makeInt 9000)], List.pairwise_singleton _ _⟩⟩)], List.pairwise_singleton _ _⟩
  capabilities := {}
  evidence := .real

/-- A generation that declares one field. -/
def declared (mtu : Int64) : IntentGenerationDocument where
  target := ⟨ascii "t"⟩
  generation := ⟨1⟩
  epoch := ⟨1⟩
  authority := .localPolicy
  policy := ⟨ascii "p"⟩
  authoredAt := ⟨0⟩
  objects := ⟨[(⟨ascii "o"⟩, ⟨⟨ascii "o"⟩, .required,
    ⟨[([.key (ascii "mtu")], ⟨[.key (ascii "mtu")], .makeInt mtu, .managed⟩)], List.pairwise_singleton _ _⟩⟩)],
    List.pairwise_singleton _ _⟩
  evidence := .unknown

theorem spelled_mtu : FieldPath.Spelled [.key (ascii "mtu")] :=
  ⟨fun x hx => by cases List.mem_singleton.mp hx; exact List.cons_ne_nil _ _, by decide +kernel⟩

theorem spelled_located (target object : String) (ht : Sized (ascii target).length) (ho : Sized (ascii object).length) :
    (located target object).Spelled := ⟨ht, ho, spelled_mtu⟩

theorem spelled_reported (unobserved : List ObjectId)
    (h : Sized unobserved.length ∧ ∀ id ∈ unobserved, Sized id.str.length) : (reported unobserved).Spelled := by
  have hone : Sized 1 := by decide
  refine ⟨hone, hone, h, hone, fun entry hentry => ?_⟩
  cases List.mem_singleton.mp hentry
  refine ⟨hone, hone, fun field hfield => ?_⟩
  cases List.mem_singleton.mp hfield
  exact ⟨spelled_mtu, Nat.zero_le _, trivial⟩

theorem spelled_declared (mtu : Int64) : (declared mtu).Spelled := by
  have hone : Sized 1 := by decide
  refine ⟨hone, hone, hone, fun entry hentry => ?_⟩
  cases List.mem_singleton.mp hentry
  refine ⟨hone, hone, fun field hfield => ?_⟩
  cases List.mem_singleton.mp hfield
  exact ⟨spelled_mtu, Nat.zero_le _, trivial⟩

end Sample

theorem preimages_injective_regrouped :
    (Sample.located "a" "bc").preimage ≠ (Sample.located "ab" "c").preimage ∧
      (Sample.reported [⟨ascii "x"⟩, ⟨ascii "y"⟩]).contentPreimage =
        (Sample.reported [⟨ascii "y"⟩, ⟨ascii "x"⟩, ⟨ascii "y"⟩]).contentPreimage ∧
      (Sample.declared 1500).contentPreimage ≠ (Sample.declared 9000).contentPreimage := by
  obtain ⟨⟨hfinding, -⟩, ⟨hsnapshot, -⟩, ⟨hintent, -⟩⟩ := preimages_injective
    (Sample.spelled_located "a" "bc" (by decide) (by decide))
    (Sample.spelled_located "ab" "c" (by decide) (by decide))
    (Sample.spelled_reported [⟨ascii "x"⟩, ⟨ascii "y"⟩] (by decide))
    (Sample.spelled_reported [⟨ascii "y"⟩, ⟨ascii "x"⟩, ⟨ascii "y"⟩] (by decide))
    (Sample.spelled_declared 1500) (Sample.spelled_declared 9000)
  refine ⟨fun h => ?_, hsnapshot.mpr ?_, fun h => ?_⟩
  · exact absurd (congrArg FindingIdentity.target (hfinding.mp h)) (by decide)
  · refine ⟨rfl, rfl, rfl, rfl, rfl, rfl, rfl, rfl, rfl, rfl, fun id => ?_, rfl⟩
    simp only [Sample.reported, List.mem_cons, List.not_mem_nil, or_false]
    exact ⟨fun h => .inr h, fun h => h.elim .inr fun h => h⟩
  · have hfields := congrArg (List.map fun object => object.2.2.map fun field => field.2.2.tree) (hintent.mp h).objects
    simp [Sample.declared, IntentGenerationDocument.objectContent, Value.makeInt] at hfields

end DriftObservatory
