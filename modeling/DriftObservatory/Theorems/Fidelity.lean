import DriftObservatory.Theorems.Stable

/-! Which admitted values survive the codec. `Value::Validate` and the parser keep different envelopes: the parser
    counts a byte string as the object that tags it, and takes a map for a byte string when it looks like one. -/

namespace DriftObservatory

namespace ValueTree

/-! ### Equality -/

theorem double_eq_self (d : Double) : Double.eq d d = true := by
  simp [Double.eq]

mutual

theorem beq_self : ∀ t : ValueTree, beq t t = true
  | null => rfl
  | bool _ | int _ | uint _ | string _ | bytes _ => by simp [beq]
  | double d => double_eq_self d
  | list elements => beqAll_self elements
  | map members => beqMembers_self members

theorem beqAll_self : ∀ vs : List ValueTree, beqAll vs vs = true
  | [] => rfl
  | v :: vs => by rw [beqAll, beq_self v, beqAll_self vs, Bool.and_self]

theorem beqMembers_self : ∀ ms : List (Text × ValueTree), beqMembers ms ms = true
  | [] => rfl
  | (key, v) :: ms => by simp [beqMembers, beq_self v, beqMembers_self ms]

end

mutual

/-- The canonical form of a tree is equal to it only when it is the same. -/
theorem canonical_of_beq : ∀ t : ValueTree, beq (canonical t) t = true → canonical t = t
  | null, _ | bool _, _ | int _, _ | double _, _ | string _, _ | bytes _, _ => rfl
  | uint u, h => by
    rw [canonical, Value.makeUint] at h ⊢
    split_ifs at h ⊢
    · cases h
    · rfl
  | list elements, h => by
    rw [canonical, beq] at h
    rw [canonical, canonicalAll_of_beq elements h]
  | map members, h => by
    rw [canonical] at h ⊢
    cases htag : tagged? members with
    | some raw =>
      rw [htag] at h
      cases h
    | none =>
      simp only [htag] at h ⊢
      rw [beq] at h
      rw [canonicalMembers_of_beq members h]

theorem canonicalAll_of_beq : ∀ vs : List ValueTree, beqAll (canonicalAll vs) vs = true → canonicalAll vs = vs
  | [], _ => rfl
  | v :: vs, h => by
    rw [canonicalAll, beqAll, Bool.and_eq_true] at h
    rw [canonicalAll, canonical_of_beq v h.1, canonicalAll_of_beq vs h.2]

theorem canonicalMembers_of_beq : ∀ ms : List (Text × ValueTree),
    beqMembers (canonicalMembers ms) ms = true → canonicalMembers ms = ms
  | [], _ => rfl
  | (key, v) :: ms, h => by
    rw [canonicalMembers, beqMembers, Bool.and_eq_true, Bool.and_eq_true] at h
    rw [canonicalMembers, canonical_of_beq v h.1.2, canonicalMembers_of_beq ms h.2]

end

/-! ### What the codec needs beyond validation -/

mutual

/-- No map looks like a tagged byte string or has too many members, every byte string leaves room for its tag, and
    unsigned numbers are above the signed range, as `MakeUint` stores them. -/
def Speakable (limits : RuntimeLimits) : Nat → ValueTree → Prop
  | depth, list elements => SpeakableAll limits (depth + 1) elements
  | depth, map members => members.length ≤ limits.maxFieldsPerObject ∧ (∀ v, members ≠ [(Json.kBytesMember, v)]) ∧
      SpeakableMembers limits (depth + 1) members
  | depth, bytes raw => depth + 1 ≤ limits.maxValueDepth ∧ 6 ≤ limits.maxLeafBytes ∧
      2 * raw.length ≤ limits.maxLeafBytes ∧ 1 ≤ limits.maxFieldsPerObject
  | _, uint u => 2 ^ 63 ≤ u.toNat
  | _, _ => True

def SpeakableAll (limits : RuntimeLimits) : Nat → List ValueTree → Prop
  | _, [] => True
  | depth, v :: rest => Speakable limits depth v ∧ SpeakableAll limits depth rest

def SpeakableMembers (limits : RuntimeLimits) : Nat → List (Text × ValueTree) → Prop
  | _, [] => True
  | depth, (_, v) :: rest => Speakable limits depth v ∧ SpeakableMembers limits depth rest

end

variable {limits : RuntimeLimits}

theorem ok_require_limit {condition : Bool} {reason : ReasonCode} {detail : Text} :
    (Status.require condition (.limit reason detail)).ok = true ↔ condition = true := Status.ok_require rfl

theorem ok_require_rejected {condition : Bool} {reason : ReasonCode} {detail : Text} :
    (Status.require condition (.rejected reason detail)).ok = true ↔ condition = true := Status.ok_require rfl

theorem ok_validateDepth {depth : Nat} (h : (validateDepth limits depth).ok = true) : depth ≤ limits.maxValueDepth := by
  rw [validateDepth, ok_require_limit, Bool.and_eq_true, decide_eq_true_eq] at h
  exact h.1

theorem canonical_uint_eq {u : UInt64} : canonical (uint u) = uint u ↔ 2 ^ 63 ≤ u.toNat := by
  rw [canonical, Value.makeUint]
  split_ifs with h
  · simp
    omega
  · simp
    omega

mutual

/-- A validated tree is read back as itself exactly when the codec can spell it. -/
theorem settled_iff_speakable : ∀ (t : ValueTree) {depth : Nat}, (∀ s ∈ validateValue limits depth t, s.ok = true) →
    (Settled limits depth t ↔ Speakable limits depth t)
  | null, depth, h | bool _, depth, h | int _, depth, h | double _, depth, h => by
    have hdeep := ok_validateDepth (h _ List.mem_cons_self)
    exact ⟨fun _ => trivial, fun _ => ⟨hdeep, trivial, rfl⟩⟩
  | uint u, depth, h => by
    have hdeep := ok_validateDepth (h _ List.mem_cons_self)
    exact ⟨fun hs => canonical_uint_eq.mp hs.canonical_eq, fun hu => ⟨hdeep, trivial, canonical_uint_eq.mpr hu⟩⟩
  | string text, depth, h => by
    simp only [validateValue, validateLeaf, List.forall_mem_cons, Status.ok_firstFailing, ok_require_limit,
      ok_require_rejected, decide_eq_true_eq] at h
    exact ⟨fun _ => trivial, fun _ => ⟨⟨ok_validateDepth h.1, h.2.1.1⟩, h.2.1.2.1, rfl⟩⟩
  | bytes raw, depth, h =>
    ⟨fun hs => hs.fits, fun hs => ⟨hs, trivial, rfl⟩⟩
  | list elements, depth, h => by
    simp only [validateValue, List.forall_mem_cons] at h
    rw [settled_list, Speakable, ← settledAll_iff_speakable elements h.2.2]
    exact ⟨fun hs => hs.2, fun hs => ⟨ok_validateDepth h.1, hs⟩⟩
  | map members, depth, h => by
    simp only [validateValue, List.forall_mem_cons] at h
    rw [settled_map, Speakable, ← settledMembers_iff_speakable members h.2.2]
    exact ⟨fun hs => hs.2, fun hs => ⟨ok_validateDepth h.1, hs⟩⟩

theorem settledAll_iff_speakable : ∀ (vs : List ValueTree) {depth : Nat},
    (∀ s ∈ validateList limits depth vs, s.ok = true) →
      ((∀ v ∈ vs, Settled limits depth v) ↔ SpeakableAll limits depth vs)
  | [], _, _ => ⟨fun _ => trivial, fun _ v hv => absurd hv List.not_mem_nil⟩
  | v :: vs, depth, h => by
    rw [validateList, List.forall_mem_append] at h
    rw [List.forall_mem_cons, SpeakableAll, settled_iff_speakable v h.1, settledAll_iff_speakable vs h.2]

theorem settledMembers_iff_speakable : ∀ (ms : List (Text × ValueTree)) {depth : Nat},
    (∀ s ∈ validateMembers limits depth ms, s.ok = true) →
      ((∀ m ∈ ms, m.1.length ≤ limits.maxLeafBytes ∧ isValidUtf8 m.1 = true ∧ Settled limits depth m.2) ↔
        SpeakableMembers limits depth ms)
  | [], _, _ => ⟨fun _ => trivial, fun _ v hv => absurd hv List.not_mem_nil⟩
  | (key, v) :: ms, depth, h => by
    simp only [validateMembers, List.forall_mem_cons, List.forall_mem_append, ok_require_limit,
      ok_require_rejected, decide_eq_true_eq] at h
    obtain ⟨hlen, hutf, hv, hms⟩ := h
    rw [List.forall_mem_cons, SpeakableMembers, settled_iff_speakable v hv, settledMembers_iff_speakable ms hms]
    simp [hlen, hutf]

end

end ValueTree

open ValueTree Outcome

namespace Json
variable [DoubleChars] [LawfulDoubleChars] {limits : RuntimeLimits}

/-- A validated value whose canonical text fits a document is read back as an equal value exactly when the codec can
    spell it, with its byte strings counted as the objects that tag them. -/
theorem admitted_fidelity_iff {v : Value} (hvalid : (v.validate limits).ok = true)
    (hfit : (writeCanonicalJson v).length ≤ limits.maxDocumentBytes) :
    (∃ w, parseJson limits (writeCanonicalJson v) = .ok w ∧ w.beq v = true) ↔
      Speakable limits 0 v.tree ∧ weight v.tree ≤ limits.maxValueNodes := by
  rw [Value.validate, ValueTree.validate, Status.ok_firstFailing, List.forall_mem_cons] at hvalid
  rw [← settled_iff_speakable v.tree hvalid.2, parseJson, if_neg (not_lt.mpr hfit)]
  constructor
  · rintro ⟨w, hparse, hbeq⟩
    obtain ⟨hfits, hencoded, hweight, rfl⟩ := parse_written_eq_ok.mp hparse
    exact ⟨⟨hfits, hencoded, canonical_of_beq v.tree hbeq⟩, hweight⟩
  · rintro ⟨hsettled, hweight⟩
    have hcanonical : v = v.canonical := tree_injective hsettled.canonical_eq.symm
    exact ⟨v, parse_written_eq_ok.mpr ⟨hsettled.fits, hsettled.encoded, hweight, hcanonical⟩, beq_self v.tree⟩

end Json

namespace Sample

/-- A map that looks like a tagged byte string. -/
def lookalike : Value := .makeMap (OrdMap.ofList [(Json.kBytesMember, .makeString (ascii "00"))])

/-- A map whose members are a list and a byte string. -/
def spoken : Value := .makeMap (OrdMap.ofList
  [(ascii "list", .makeList [.makeNull, .makeInt 7]), (ascii "raw", .makeBytes [0, 255])])

end Sample

/-- An admitted map is read back as a byte string. -/
theorem Json.admitted_lookalike_changed :
    (Sample.lookalike.validate {}).ok = true ∧
      (@writeCanonicalJson Sample.bitDoubles Sample.lookalike).length ≤ ({} : RuntimeLimits).maxDocumentBytes ∧
      ¬ ∃ w, @parseJson Sample.bitDoubles {} (@writeCanonicalJson Sample.bitDoubles Sample.lookalike) = .ok w ∧
        w.beq Sample.lookalike = true := by
  have hread : (match @parseJson Sample.bitDoubles {} (@writeCanonicalJson Sample.bitDoubles Sample.lookalike) with
      | .ok w => w.beq Sample.lookalike
      | .error _ => false) = false := by decide +kernel
  refine ⟨by decide +kernel, by decide +kernel, fun ⟨w, hw, hbeq⟩ => ?_⟩
  rw [hw] at hread
  exact Bool.false_ne_true (hread.symm.trans hbeq)

theorem Json.admitted_fidelity_iff_spoken :
    (Sample.spoken.validate {}).ok = true ∧
      ((∃ w, @parseJson Sample.bitDoubles {} (@writeCanonicalJson Sample.bitDoubles Sample.spoken) = .ok w ∧
          w.beq Sample.spoken = true) ↔
        Speakable {} 0 Sample.spoken.tree ∧ weight Sample.spoken.tree ≤ 4096) := by
  have hvalid : (Sample.spoken.validate {}).ok = true := by decide +kernel
  exact ⟨hvalid, @admitted_fidelity_iff Sample.bitDoubles Sample.lawful_bitDoubles {} Sample.spoken hvalid
    (by decide +kernel)⟩

end DriftObservatory
