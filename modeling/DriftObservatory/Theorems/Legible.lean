import DriftObservatory.Theorems.Reading
import DriftObservatory.Lib.Outcome

/-! Which trees are read back, and as what. Reading succeeds exactly for the trees that are encoded properly and fit
    the envelope, and it returns the canonical form of the tree. -/

namespace DriftObservatory

/-! ### Text without bytes beyond ASCII -/

theorem utf8Step_ascii {c : UInt8} (h : c.toNat < 0x80) (rest : Text) : utf8Step (c :: rest) = some rest := by
  simp [utf8Step, h]

theorem isValidUtf8_ascii {text : Text} (h : ∀ c ∈ text, c.toNat < 0x80) : isValidUtf8 text = true := by
  rw [isValidUtf8]
  induction text with
  | nil => rfl
  | cons c text ih =>
    simp only [List.length_cons, isValidUtf8From, utf8Step_ascii (h c List.mem_cons_self)]
    exact ih fun d hd => h d (List.mem_cons_of_mem c hd)

namespace ValueTree

/-- The byte string a map of one member tags, if it does. -/
def tagged? : List (Text × ValueTree) → Option Text
  | [(key, string hex)] => if key = Json.kBytesMember then Json.fromHex hex else none
  | _ => none

mutual

/-- The form a tree has after it was written and read back. -/
def canonical : ValueTree → ValueTree
  | uint u => (Value.makeUint u).tree
  | list elements => list (canonicalAll elements)
  | map members => match tagged? members with
    | some raw => bytes raw
    | none => map (canonicalMembers members)
  | t => t

def canonicalAll : List ValueTree → List ValueTree
  | [] => []
  | v :: rest => canonical v :: canonicalAll rest

def canonicalMembers : List (Text × ValueTree) → List (Text × ValueTree)
  | [] => []
  | (key, v) :: rest => (key, canonical v) :: canonicalMembers rest

end

mutual

/-- The values the parser counts for a tree; a byte string is an object with one member. -/
def weight : ValueTree → Nat
  | list elements => 1 + weightAll elements
  | map members => 1 + weightMembers members
  | bytes _ => 2
  | _ => 1

def weightAll : List ValueTree → Nat
  | [] => 0
  | v :: rest => weight v + weightAll rest

def weightMembers : List (Text × ValueTree) → Nat
  | [] => 0
  | (_, v) :: rest => weight v + weightMembers rest

end

mutual

/-- The nesting, the leaves and the member counts of a tree are within the envelope. A byte string takes one more
    level, and two bytes of a leaf for each of its own. -/
def Fits (limits : RuntimeLimits) : Nat → ValueTree → Prop
  | depth, list elements => depth ≤ limits.maxValueDepth ∧ FitsAll limits (depth + 1) elements
  | depth, map members => depth ≤ limits.maxValueDepth ∧ members.length ≤ limits.maxFieldsPerObject ∧
      FitsMembers limits (depth + 1) members
  | depth, bytes raw => depth + 1 ≤ limits.maxValueDepth ∧ Json.kBytesMember.length ≤ limits.maxLeafBytes ∧
      2 * raw.length ≤ limits.maxLeafBytes ∧ 1 ≤ limits.maxFieldsPerObject
  | depth, string text => depth ≤ limits.maxValueDepth ∧ text.length ≤ limits.maxLeafBytes
  | depth, _ => depth ≤ limits.maxValueDepth

def FitsAll (limits : RuntimeLimits) : Nat → List ValueTree → Prop
  | _, [] => True
  | depth, v :: rest => Fits limits depth v ∧ FitsAll limits depth rest

def FitsMembers (limits : RuntimeLimits) : Nat → List (Text × ValueTree) → Prop
  | _, [] => True
  | depth, (key, v) :: rest =>
    key.length ≤ limits.maxLeafBytes ∧ Fits limits depth v ∧ FitsMembers limits depth rest

end

/-- A map that would be taken for a byte string is the tag of one. -/
def ProperTag (members : List (Text × ValueTree)) : Prop :=
  ∀ v, members = [(Json.kBytesMember, v)] → (tagged? members).isSome = true

mutual

/-- The texts of a tree are UTF-8, and no map is mistaken for a malformed byte string. -/
def Encoded : ValueTree → Prop
  | list elements => EncodedAll elements
  | map members => EncodedMembers members ∧ ProperTag members
  | string text => isValidUtf8 text = true
  | _ => True

def EncodedAll : List ValueTree → Prop
  | [] => True
  | v :: rest => Encoded v ∧ EncodedAll rest

def EncodedMembers : List (Text × ValueTree) → Prop
  | [] => True
  | (key, v) :: rest => isValidUtf8 key = true ∧ Encoded v ∧ EncodedMembers rest

end

theorem weight_pos (t : ValueTree) : 0 < weight t := by
  cases t with
  | list elements =>
    rw [weight]
    omega
  | map members =>
    rw [weight]
    omega
  | _ => exact Nat.succ_pos _

theorem length_canonicalMembers (members : List (Text × ValueTree)) :
    (canonicalMembers members).length = members.length := by
  induction members with
  | nil => rfl
  | cons m rest ih => exact congrArg (· + 1) ih

theorem keys_canonicalMembers (members : List (Text × ValueTree)) :
    (canonicalMembers members).map Prod.fst = members.map Prod.fst := by
  induction members with
  | nil => rfl
  | cons m rest ih => exact congrArg (m.1 :: ·) ih

mutual

theorem wellFormed_canonical : ∀ t : ValueTree, WellFormed t → WellFormed (canonical t)
  | null, _ | bool _, _ | int _, _ | double _, _ | string _, _ | bytes _, _ => trivial
  | uint u, _ => (Value.makeUint u).wellFormed
  | list elements, h => wellFormedAll_canonical elements h
  | map members, h => by
    rw [canonical]
    cases tagged? members with
    | some raw => trivial
    | none =>
      refine ⟨?_, wellFormedMembers_canonical members h.2⟩
      rw [← List.pairwise_map (f := Prod.fst) (R := (· < ·)), keys_canonicalMembers, List.pairwise_map]
      exact h.1

theorem wellFormedAll_canonical : ∀ vs : List ValueTree, WellFormedAll vs → WellFormedAll (canonicalAll vs)
  | [], _ => trivial
  | v :: vs, h => ⟨wellFormed_canonical v h.1, wellFormedAll_canonical vs h.2⟩

theorem wellFormedMembers_canonical :
    ∀ ms : List (Text × ValueTree), WellFormedMembers ms → WellFormedMembers (canonicalMembers ms)
  | [], _ => trivial
  | (_, v) :: ms, h => ⟨wellFormed_canonical v h.1, wellFormedMembers_canonical ms h.2⟩

end

end ValueTree

/-! ### The steps of reading -/

namespace Json
variable {limits : RuntimeLimits}

open Outcome

theorem admitNode_eq_ok {depth nodes n : Nat} :
    admitNode limits depth nodes = .ok n ↔
      depth ≤ limits.maxValueDepth ∧ nodes + 1 ≤ limits.maxValueNodes ∧ n = nodes + 1 := by
  rw [admitNode, exceed, exceed, ite_error_eq_ok, ite_error_eq_ok, not_lt, not_lt, Except.ok.injEq, eq_comm]

theorem rereadText_eq_ok {text read : Text} :
    rereadText limits text = .ok read ↔
      text.length ≤ limits.maxLeafBytes ∧ isValidUtf8 text = true ∧ read = text := by
  rw [rereadText, exceed, fail, ite_error_eq_ok, ite_error_eq_ok, not_lt, Except.ok.injEq, eq_comm (a := read)]
  simp

theorem addElement_eq_ok {list read : List Value} {element : Value} :
    addElement limits list element = .ok read ↔
      list.length + 1 ≤ limits.maxValueNodes ∧ read = list ++ [element] := by
  rw [addElement, exceed, ite_error_eq_ok, not_lt, Except.ok.injEq, eq_comm, List.length_append]
  rfl

theorem addMember_eq_ok {map read : OrdMap Text Value} {key : Text} {member : Value} :
    addMember limits map key member = .ok read ↔ map.contains key = false ∧
      (map.insert key member).size ≤ limits.maxFieldsPerObject ∧ read = map.insert key member := by
  rw [addMember, exceed, fail, ite_error_eq_ok, ite_error_eq_ok, not_lt, Except.ok.injEq, eq_comm (a := read)]
  simp

theorem length_of_fromHex : ∀ {hex raw : Text}, fromHex hex = some raw → hex.length = 2 * raw.length
  | [], raw, h => by
    cases h
    rfl
  | [_], _, h => by cases h
  | high :: low :: rest, raw, h => by
    simp only [fromHex, Option.bind_eq_bind, Option.bind_eq_some_iff] at h
    obtain ⟨_, -, _, -, tail, htail, heq⟩ := h
    have := length_of_fromHex htail
    rw [← Option.some.inj heq]
    simp only [List.length_cons]
    omega

theorem tree_injective : Function.Injective Value.tree := fun a b h => by
  cases a
  cases b
  simpa using h

/-- Only a string is read back as a string. -/
theorem asString_eq_some {w : Value} {v : ValueTree} {hex : Text} (hw : w.tree = v.canonical) :
    w.asString = some hex ↔ v = .string hex := by
  rw [Value.asString, hw]
  rcases v with _ | _ | _ | u | _ | text | _ | _ | members
  case uint =>
    simp only [ValueTree.canonical, Value.makeUint]
    split_ifs <;> simp
  case map =>
    simp only [ValueTree.canonical]
    cases ValueTree.tagged? members <;> simp
  all_goals simp [ValueTree.canonical]

/-- What a completed object is taken for, when its members are read back. -/
theorem finishObject_eq_ok {map : OrdMap Text Value} {members : List (Text × ValueTree)} {value : Value}
    (hmap : (map.entries.map fun e => (e.1, e.2.tree)) = ValueTree.canonicalMembers members)
    (hfit : ∀ hex, members = [(kBytesMember, .string hex)] → hex.length ≤ limits.maxLeafBytes) :
    finishObject limits map = .ok value ↔
      ValueTree.ProperTag members ∧ value.tree = ValueTree.canonical (.map members) := by
  have hplain : (∀ v, members ≠ [(kBytesMember, v)]) → (finishObject limits map = .ok (.makeMap map)) →
      (finishObject limits map = .ok value ↔
        ValueTree.ProperTag members ∧ value.tree = ValueTree.canonical (.map members)) := by
    intro hmembers hfinish
    have htag : ValueTree.tagged? members = none := by
      rw [ValueTree.tagged?.eq_def]
      split
      · next key hex =>
        exact if_neg fun hkey => hmembers (.string hex) (by rw [hkey])
      · rfl
    have hcanonical : (Value.makeMap map).tree = ValueTree.canonical (.map members) := by
      rw [ValueTree.canonical, htag]
      exact congrArg ValueTree.map hmap
    rw [hfinish, Except.ok.injEq, ← hcanonical]
    exact ⟨fun h => ⟨fun v hv => absurd hv (hmembers v), congrArg _ h.symm⟩, fun h => (tree_injective h.2).symm⟩
  have hlen : map.size = members.length := by
    rw [← ValueTree.length_canonicalMembers, ← hmap, List.length_map]
    rfl
  by_cases hone : map.size = 1
  · obtain ⟨⟨key, v⟩, hv⟩ := List.length_eq_one_iff.mp (hlen.symm.trans hone)
    obtain ⟨⟨key', w⟩, hw⟩ := List.length_eq_one_iff.mp hone
    rw [hw, hv] at hmap
    simp only [List.map_cons, List.map_nil, ValueTree.canonicalMembers, List.cons.injEq, Prod.mk.injEq, and_true] at hmap
    obtain ⟨rfl, htree⟩ := hmap
    by_cases hkey : key' = kBytesMember
    · subst hkey
      have hfind : map.find? kBytesMember = some w := by
        rw [← OrdMap.mem_entries_iff, hw]
        exact List.mem_cons_self
      have hproper : ValueTree.ProperTag members ↔ (ValueTree.tagged? members).isSome = true :=
        ⟨fun h => h v hv, fun h _ _ => h⟩
      rw [finishObject, if_pos hone, hfind, hproper]
      simp only
      rcases hstring : w.asString with _ | hex
      · have hnot : ∀ hex, v ≠ .string hex := fun hex hhex => by
          rw [(asString_eq_some htree).mpr hhex] at hstring
          cases hstring
        have htag : ValueTree.tagged? members = none := by
          rw [hv, ValueTree.tagged?.eq_def]
          split
          · next hhex =>
            simp only [List.cons.injEq, Prod.mk.injEq, and_true] at hhex
            exact absurd hhex.2 (hnot _)
          · rfl
        simp [fail, htag]
      · obtain rfl := (asString_eq_some htree).mp hstring
        have htag : ValueTree.tagged? members = fromHex hex := by
          rw [hv, ValueTree.tagged?, if_pos rfl]
        rcases hhex : fromHex hex with _ | raw
        · simp [fail, htag, hhex]
        · have hraw : ¬ limits.maxLeafBytes < raw.length := by
            have := length_of_fromHex hhex
            have := hfit hex hv
            omega
          simp only [hraw, if_false, htag, hhex, Option.isSome_some, true_and, Except.ok.injEq, ValueTree.canonical]
          exact ⟨fun h => congrArg _ h.symm, fun h => (tree_injective h).symm⟩
    · have hfind : map.find? kBytesMember = none := by
        rw [Option.eq_none_iff_forall_ne_some]
        intro u hu
        rw [← OrdMap.mem_entries_iff, hw, List.mem_singleton, Prod.mk.injEq] at hu
        exact hkey hu.1.symm
      apply hplain
      · rw [hv]
        rintro u hu
        simp only [List.cons.injEq, Prod.mk.injEq, and_true] at hu
        exact hkey hu.1
      · rw [finishObject, if_pos hone, hfind]
  · apply hplain
    · rintro v rfl
      exact hone hlen
    · rw [finishObject, if_neg hone]

theorem hexDigit_lt : ∀ n < 16, (Char8.hexDigit n).toNat < 0x80 := by decide

theorem isValidUtf8_toHex (raw : Text) : isValidUtf8 (toHex raw) = true := by
  refine isValidUtf8_ascii fun c hc => ?_
  obtain ⟨b, -, hb⟩ := List.mem_flatMap.mp hc
  have hlt : b.toNat < 256 := b.toNat_lt
  rcases List.mem_cons.mp hb with rfl | hb
  · exact hexDigit_lt _ (by omega)
  · rw [List.mem_singleton.mp hb]
    exact hexDigit_lt _ (by omega)

theorem finishObject_bytes {raw : Text} {value : Value} (h : 2 * raw.length ≤ limits.maxLeafBytes) :
    finishObject limits ((∅ : OrdMap Text Value).insert kBytesMember (.makeString (toHex raw))) = .ok value ↔
      value = .makeBytes raw := by
  have htag : ValueTree.tagged? [(kBytesMember, .string (toHex raw))] = some raw := by
    rw [ValueTree.tagged?, if_pos rfl, fromHex_toHex]
  have hproper : ValueTree.ProperTag [(kBytesMember, .string (toHex raw))] := fun v _ => by
    rw [htag]
    rfl
  have hread : finishObject limits ((∅ : OrdMap Text Value).insert kBytesMember (.makeString (toHex raw))) = .ok value ↔
      ValueTree.ProperTag [(kBytesMember, .string (toHex raw))] ∧
        value.tree = ValueTree.canonical (.map [(kBytesMember, .string (toHex raw))]) := by
    refine finishObject_eq_ok rfl fun hex hhex => ?_
    simp only [List.cons.injEq, Prod.mk.injEq, ValueTree.string.injEq, and_true, true_and] at hhex
    rw [← hhex, length_toHex]
    exact h
  rw [hread, ValueTree.canonical, htag]
  exact ⟨fun h => tree_injective h.2, fun h => ⟨hproper, congrArg _ h⟩⟩

theorem fitsMembers_tag {members : List (Text × ValueTree)} {depth : Nat}
    (h : ValueTree.FitsMembers limits depth members) :
    ∀ hex, members = [(kBytesMember, .string hex)] → hex.length ≤ limits.maxLeafBytes := by
  rintro hex rfl
  exact h.2.1.2

end Json

theorem contains_of_above {done : OrdMap Text Value} {key : Text} (h : ∀ e ∈ done.entries, e.1 < key) :
    done.contains key = false := by
  rw [OrdMap.contains_eq_false_iff, Option.eq_none_iff_forall_ne_some]
  intro w hw
  exact absurd (h _ (OrdMap.mem_entries_iff.mpr hw)) (lt_irrefl _)

theorem below_insert_last {done : OrdMap Text Value} {key : Text} {member : Value} {v : ValueTree}
    {ms : List (Text × ValueTree)} (habove : ∀ e ∈ done.entries, e.1 < key)
    (hbelow : ∀ e ∈ done.entries, ∀ m ∈ (key, v) :: ms, e.1 < m.1) (hkey : ∀ m ∈ ms, key < m.1) :
    ∀ e ∈ (done.insert key member).entries, ∀ m ∈ ms, e.1 < m.1 := by
  intro e he m hm
  rw [OrdMap.entries_insert_last habove, List.mem_append, List.mem_singleton] at he
  rcases he with he | rfl
  · exact hbelow e he m (List.mem_cons_of_mem _ hm)
  · exact hkey m hm

open Json Outcome ValueTree

mutual

theorem reread_sound {limits : RuntimeLimits} : ∀ (t : ValueTree) {depth nodes n : Nat} {v : Value}, WellFormed t →
    reread limits depth nodes t = .ok (v, n) →
      Fits limits depth t ∧ Encoded t ∧ n = nodes + weight t ∧ n ≤ limits.maxValueNodes ∧ v.tree = canonical t
  | .null, depth, nodes, n, v, _, h => by
    simp only [reread, bind_eq_ok, admitNode_eq_ok, Except.ok.injEq, Prod.mk.injEq] at h
    obtain ⟨_, ⟨hdepth, hnodes, rfl⟩, rfl, rfl⟩ := h
    exact ⟨hdepth, trivial, rfl, hnodes, rfl⟩
  | .bool b, depth, nodes, n, v, _, h => by
    simp only [reread, bind_eq_ok, admitNode_eq_ok, Except.ok.injEq, Prod.mk.injEq] at h
    obtain ⟨_, ⟨hdepth, hnodes, rfl⟩, rfl, rfl⟩ := h
    exact ⟨hdepth, trivial, rfl, hnodes, rfl⟩
  | .int i, depth, nodes, n, v, _, h => by
    simp only [reread, bind_eq_ok, admitNode_eq_ok, Except.ok.injEq, Prod.mk.injEq] at h
    obtain ⟨_, ⟨hdepth, hnodes, rfl⟩, rfl, rfl⟩ := h
    exact ⟨hdepth, trivial, rfl, hnodes, rfl⟩
  | .uint u, depth, nodes, n, v, _, h => by
    simp only [reread, bind_eq_ok, admitNode_eq_ok, Except.ok.injEq, Prod.mk.injEq] at h
    obtain ⟨_, ⟨hdepth, hnodes, rfl⟩, rfl, rfl⟩ := h
    exact ⟨hdepth, trivial, rfl, hnodes, rfl⟩
  | .double d, depth, nodes, n, v, _, h => by
    simp only [reread, bind_eq_ok, admitNode_eq_ok, Except.ok.injEq, Prod.mk.injEq] at h
    obtain ⟨_, ⟨hdepth, hnodes, rfl⟩, rfl, rfl⟩ := h
    exact ⟨hdepth, trivial, rfl, hnodes, rfl⟩
  | .string text, depth, nodes, n, v, _, h => by
    simp only [reread, bind_eq_ok, admitNode_eq_ok, rereadText_eq_ok, Except.ok.injEq, Prod.mk.injEq] at h
    obtain ⟨_, ⟨hdepth, hnodes, rfl⟩, _, ⟨hlen, hutf, rfl⟩, rfl, rfl⟩ := h
    exact ⟨⟨hdepth, hlen⟩, hutf, rfl, hnodes, rfl⟩
  | .bytes raw, depth, nodes, n, v, _, h => by
    simp only [reread, bind_eq_ok, admitNode_eq_ok, rereadText_eq_ok, addMember_eq_ok, Except.ok.injEq,
      Prod.mk.injEq] at h
    obtain ⟨_, ⟨-, -, rfl⟩, _, ⟨hname, -, rfl⟩, _, ⟨hdepth, hnodes, rfl⟩, _, ⟨hhex, -, rfl⟩, _, ⟨-, hsize, rfl⟩, _,
      hfinish, rfl, rfl⟩ := h
    have hlen := length_toHex raw
    refine ⟨⟨hdepth, hname, by omega, hsize⟩, trivial, rfl, hnodes, ?_⟩
    rw [((finishObject_bytes (by omega)).mp hfinish)]
    rfl
  | .list elements, depth, nodes, n, v, hwf, h => by
    simp only [reread, bind_eq_ok, admitNode_eq_ok, Except.ok.injEq, Prod.mk.injEq, Prod.exists] at h
    obtain ⟨_, ⟨hdepth, hnodes, rfl⟩, done, m, hread, rfl, rfl⟩ := h
    obtain ⟨hfits, henc, hn, hmax, htrees⟩ := rereadElements_sound elements hwf hnodes hread
    refine ⟨⟨hdepth, hfits⟩, henc, ?_, hmax, ?_⟩
    · rw [hn, weight]
      omega
    · rw [canonical]
      exact congrArg ValueTree.list htrees
  | .map members, depth, nodes, n, v, hwf, h => by
    simp only [reread, bind_eq_ok, admitNode_eq_ok, Except.ok.injEq, Prod.mk.injEq, Prod.exists] at h
    obtain ⟨_, ⟨hdepth, hnodes, rfl⟩, read, m, hread, value, hfinish, rfl, rfl⟩ := h
    obtain ⟨hfits, henc, hn, hmax, hcount, htrees⟩ := rereadMembers_sound members hwf.2 hwf.1
      (fun e he => absurd he List.not_mem_nil) hnodes (Nat.zero_le _) hread
    obtain ⟨htag, htree⟩ := (finishObject_eq_ok htrees (fitsMembers_tag hfits)).mp hfinish
    refine ⟨⟨hdepth, ?_, hfits⟩, ⟨henc, htag⟩, ?_, hmax, htree⟩
    · exact (Nat.zero_add _).symm.trans_le hcount
    · rw [hn, weight]
      omega

theorem rereadElements_sound {limits : RuntimeLimits} : ∀ (vs : List ValueTree) {depth nodes n : Nat}
    {done read : List Value}, WellFormedAll vs → nodes ≤ limits.maxValueNodes →
    rereadElements limits depth nodes done vs = .ok (read, n) →
      FitsAll limits depth vs ∧ EncodedAll vs ∧ n = nodes + weightAll vs ∧ n ≤ limits.maxValueNodes ∧
        read.map Value.tree = done.map Value.tree ++ canonicalAll vs
  | [], depth, nodes, n, done, read, _, hnodes, h => by
    simp only [rereadElements, Except.ok.injEq, Prod.mk.injEq] at h
    obtain ⟨rfl, rfl⟩ := h
    exact ⟨trivial, trivial, rfl, hnodes, (List.append_nil _).symm⟩
  | v :: vs, depth, nodes, n, done, read, hwf, hnodes, h => by
    simp only [rereadElements, bind_eq_ok, addElement_eq_ok, Prod.exists] at h
    obtain ⟨element, m, hread, _, ⟨hlen, rfl⟩, hrest⟩ := h
    obtain ⟨hfit, henc, hm, hmax, htree⟩ := reread_sound v hwf.1 hread
    obtain ⟨hfits, hencs, hn, hmax', htrees⟩ := rereadElements_sound vs hwf.2 hmax hrest
    refine ⟨⟨hfit, hfits⟩, ⟨henc, hencs⟩, ?_, hmax', ?_⟩
    · rw [hn, hm, weightAll]
      omega
    · rw [htrees, List.map_append, List.append_assoc, canonicalAll, ← htree]
      rfl

theorem rereadMembers_sound {limits : RuntimeLimits} : ∀ (ms : List (Text × ValueTree)) {depth nodes n : Nat}
    {done read : OrdMap Text Value}, WellFormedMembers ms → ms.Pairwise (fun a b => a.1 < b.1) →
    (∀ e ∈ done.entries, ∀ m ∈ ms, e.1 < m.1) → nodes ≤ limits.maxValueNodes →
    done.size ≤ limits.maxFieldsPerObject →
    rereadMembers limits depth nodes done ms = .ok (read, n) →
      FitsMembers limits depth ms ∧ EncodedMembers ms ∧ n = nodes + weightMembers ms ∧ n ≤ limits.maxValueNodes ∧
        done.size + ms.length ≤ limits.maxFieldsPerObject ∧
        (read.entries.map fun e => (e.1, e.2.tree)) =
          (done.entries.map fun e => (e.1, e.2.tree)) ++ canonicalMembers ms
  | [], depth, nodes, n, done, read, _, _, _, hnodes, hsize, h => by
    simp only [rereadMembers, Except.ok.injEq, Prod.mk.injEq] at h
    obtain ⟨rfl, rfl⟩ := h
    exact ⟨trivial, trivial, rfl, hnodes, hsize, (List.append_nil _).symm⟩
  | (key, v) :: ms, depth, nodes, n, done, read, hwf, hsorted, hbelow, hnodes, hsize, h => by
    simp only [rereadMembers, bind_eq_ok, rereadText_eq_ok, addMember_eq_ok, Prod.exists] at h
    obtain ⟨name, ⟨hlen, hutf, hname⟩, member, m, hread, _, ⟨-, hfields, rfl⟩, hrest⟩ := h
    rw [hname] at hfields hrest
    obtain ⟨hfit, henc, hm, hmax, htree⟩ := reread_sound v hwf.1 hread
    rw [List.pairwise_cons] at hsorted
    have habove : ∀ e ∈ done.entries, e.1 < key := fun e he => hbelow e he (key, v) List.mem_cons_self
    have hlast : (done.insert key member).entries = done.entries ++ [(key, member)] :=
      OrdMap.entries_insert_last habove
    obtain ⟨hfits, hencs, hn, hmax', hcount, htrees⟩ := rereadMembers_sound ms hwf.2 hsorted.2
      (below_insert_last habove hbelow hsorted.1) hmax hfields hrest
    refine ⟨⟨hlen, hfit, hfits⟩, ⟨hutf, henc, hencs⟩, ?_, hmax', ?_, ?_⟩
    · rw [hn, hm, weightMembers]
      omega
    · simp only [OrdMap.size, hlast, List.length_append, List.length_cons, List.length_nil] at hcount ⊢
      omega
    · rw [htrees, hlast, List.map_append, List.append_assoc, canonicalMembers, ← htree]
      rfl

end

mutual

theorem reread_complete {limits : RuntimeLimits} : ∀ (t : ValueTree) {depth : Nat} (nodes : Nat), WellFormed t →
    Fits limits depth t → Encoded t → nodes + weight t ≤ limits.maxValueNodes →
      ∃ v, reread limits depth nodes t = .ok (v, nodes + weight t)
  | .null, _, _, _, hfits, _, hnodes | .bool _, _, _, _, hfits, _, hnodes | .int _, _, _, _, hfits, _, hnodes
  | .uint _, _, _, _, hfits, _, hnodes | .double _, _, _, _, hfits, _, hnodes => by
    simp only [reread, bind_eq_ok, admitNode_eq_ok, Except.ok.injEq, Prod.mk.injEq]
    exact ⟨_, _, ⟨hfits, hnodes, rfl⟩, rfl, rfl⟩
  | .string text, depth, nodes, _, hfits, henc, hnodes => by
    simp only [reread, bind_eq_ok, admitNode_eq_ok, rereadText_eq_ok, Except.ok.injEq, Prod.mk.injEq]
    exact ⟨_, _, ⟨hfits.1, hnodes, rfl⟩, _, ⟨hfits.2, henc, rfl⟩, rfl, rfl⟩
  | .bytes raw, depth, nodes, _, hfits, _, hnodes => by
    obtain ⟨hdepth, hname, hlen, hfields⟩ := hfits
    simp only [weight] at hnodes ⊢
    simp only [reread, bind_eq_ok, admitNode_eq_ok, rereadText_eq_ok, addMember_eq_ok, Except.ok.injEq,
      Prod.mk.injEq]
    have hhex := length_toHex raw
    exact ⟨_, _, ⟨by omega, by omega, rfl⟩, _, ⟨hname, by decide, rfl⟩, _, ⟨hdepth, by omega, rfl⟩, _,
      ⟨by omega, isValidUtf8_toHex raw, rfl⟩, _, ⟨rfl, hfields, rfl⟩, _, (finishObject_bytes hlen).mpr rfl, rfl, rfl⟩
  | .list elements, depth, nodes, hwf, hfits, henc, hnodes => by
    simp only [weight] at hnodes ⊢
    obtain ⟨read, hread⟩ := rereadElements_complete elements (nodes + 1) [] hwf hfits.2 henc (by omega)
      (Nat.zero_le _)
    simp only [reread, bind_eq_ok, admitNode_eq_ok, Except.ok.injEq, Prod.mk.injEq, Prod.exists]
    exact ⟨_, _, ⟨hfits.1, by omega, rfl⟩, _, _, hread, rfl, by omega⟩
  | .map members, depth, nodes, hwf, hfits, henc, hnodes => by
    simp only [weight] at hnodes ⊢
    obtain ⟨hdepth, hcount, hfits⟩ := hfits
    obtain ⟨read, hread⟩ := rereadMembers_complete members (nodes + 1) ∅ hwf.2 hwf.1
      (fun e he => absurd he List.not_mem_nil) hfits henc.1 (by omega) ((Nat.zero_add _).trans_le hcount)
    obtain ⟨-, -, -, -, -, htrees⟩ := rereadMembers_sound members hwf.2 hwf.1
      (fun e he => absurd he List.not_mem_nil) (by omega) (Nat.zero_le _) hread
    simp only [reread, bind_eq_ok, admitNode_eq_ok, Except.ok.injEq, Prod.mk.injEq, Prod.exists]
    exact ⟨_, _, ⟨hdepth, by omega, rfl⟩, _, _, hread, ⟨canonical (.map members), wellFormed_canonical _ hwf⟩,
      (finishObject_eq_ok htrees (fitsMembers_tag hfits)).mpr ⟨henc.2, rfl⟩, rfl, by omega⟩

theorem rereadElements_complete {limits : RuntimeLimits} : ∀ (vs : List ValueTree) {depth : Nat} (nodes : Nat)
    (done : List Value), WellFormedAll vs → FitsAll limits depth vs → EncodedAll vs →
    nodes + weightAll vs ≤ limits.maxValueNodes → done.length ≤ nodes →
      ∃ read, rereadElements limits depth nodes done vs = .ok (read, nodes + weightAll vs)
  | [], _, _, done, _, _, _, _, _ => ⟨done, rfl⟩
  | v :: vs, depth, nodes, done, hwf, hfits, henc, hnodes, hdone => by
    simp only [weightAll] at hnodes ⊢
    have hpos := weight_pos v
    obtain ⟨element, helement⟩ := reread_complete v nodes hwf.1 hfits.1 henc.1 (by omega)
    obtain ⟨read, hread⟩ := rereadElements_complete vs (nodes + weight v) (done ++ [element]) hwf.2 hfits.2
      henc.2 (by omega) (by simp only [List.length_append, List.length_singleton]; omega)
    refine ⟨read, ?_⟩
    simp only [rereadElements, bind_eq_ok, addElement_eq_ok, Prod.exists]
    exact ⟨_, _, helement, _, ⟨by omega, rfl⟩, by rw [hread, Nat.add_assoc]⟩

theorem rereadMembers_complete {limits : RuntimeLimits} : ∀ (ms : List (Text × ValueTree)) {depth : Nat} (nodes : Nat)
    (done : OrdMap Text Value), WellFormedMembers ms → ms.Pairwise (fun a b => a.1 < b.1) →
    (∀ e ∈ done.entries, ∀ m ∈ ms, e.1 < m.1) → FitsMembers limits depth ms → EncodedMembers ms →
    nodes + weightMembers ms ≤ limits.maxValueNodes → done.size + ms.length ≤ limits.maxFieldsPerObject →
      ∃ read, rereadMembers limits depth nodes done ms = .ok (read, nodes + weightMembers ms)
  | [], _, _, done, _, _, _, _, _, _, _ => ⟨done, rfl⟩
  | (key, v) :: ms, depth, nodes, done, hwf, hsorted, hbelow, hfits, henc, hnodes, hcount => by
    simp only [weightMembers, List.length_cons] at hnodes hcount ⊢
    rw [List.pairwise_cons] at hsorted
    obtain ⟨member, hmember⟩ := reread_complete v nodes hwf.1 hfits.2.1 henc.2.1 (by omega)
    have habove : ∀ e ∈ done.entries, e.1 < key := fun e he => hbelow e he (key, v) List.mem_cons_self
    have hlast : (done.insert key member).entries = done.entries ++ [(key, member)] :=
      OrdMap.entries_insert_last habove
    have hsize : (done.insert key member).size = done.size + 1 := by
      simp only [OrdMap.size, hlast, List.length_append, List.length_singleton]
    obtain ⟨read, hread⟩ := rereadMembers_complete ms (nodes + weight v) (done.insert key member) hwf.2 hsorted.2
      (below_insert_last habove hbelow hsorted.1) hfits.2.2 henc.2.2 (by omega) (by omega)
    refine ⟨read, ?_⟩
    simp only [rereadMembers, bind_eq_ok, rereadText_eq_ok, addMember_eq_ok, Prod.exists]
    exact ⟨_, ⟨hfits.1, henc.1, rfl⟩, _, _, hmember, _, ⟨contains_of_above habove, by omega, rfl⟩,
      by rw [hread, Nat.add_assoc]⟩

end

/-! ### Values -/

/-- The form a value has after it was written and read back. -/
def Value.canonical (v : Value) : Value := ⟨v.tree.canonical, wellFormed_canonical v.tree v.wellFormed⟩

namespace Json
variable [DoubleChars] [LawfulDoubleChars] {limits : RuntimeLimits} {v w : Value}

theorem parse_written_eq_ok : parse limits (writeCanonicalJson v) = .ok w ↔
    Fits limits 0 v.tree ∧ Encoded v.tree ∧ weight v.tree ≤ limits.maxValueNodes ∧ w = v.canonical := by
  rw [parse_written, map_eq_ok]
  refine ⟨fun ⟨⟨u, n⟩, hread, hu⟩ => ?_, fun ⟨hfits, henc, hnodes, hw⟩ => ?_⟩
  · obtain ⟨hfits, henc, hn, hmax, htree⟩ := reread_sound v.tree v.wellFormed hread
    exact ⟨hfits, henc, by omega, tree_injective (by rw [← hu]; exact htree)⟩
  · obtain ⟨u, hread⟩ := reread_complete v.tree 0 v.wellFormed hfits henc (by omega)
    obtain ⟨-, -, -, -, htree⟩ := reread_sound v.tree v.wellFormed hread
    exact ⟨_, hread, tree_injective (by rw [hw]; exact htree)⟩

end Json

end DriftObservatory
