import DriftObservatory.Value

/-! Induction over value trees, and the nesting within which no traversal meets the recursion guard. -/

namespace DriftObservatory

namespace ValueTree

def isContainer : ValueTree → Bool
  | list _ | map _ => true
  | _ => false

/-! ### Induction -/

section Induction
variable {P : ValueTree → Prop} (leaf : ∀ v, isContainer v = false → P v)
  (list : ∀ elements, (∀ v ∈ elements, P v) → P (list elements))
  (map : ∀ members, (∀ m ∈ members, P m.2) → P (map members))

include leaf list map

set_option linter.unusedSectionVars false in
mutual

theorem induction : ∀ v : ValueTree, P v
  | .null => leaf _ rfl
  | .bool _ => leaf _ rfl
  | .int _ => leaf _ rfl
  | .uint _ => leaf _ rfl
  | .double _ => leaf _ rfl
  | .string _ => leaf _ rfl
  | .bytes _ => leaf _ rfl
  | .list elements => list elements (inductionAll elements)
  | .map members => map members (inductionMembers members)

theorem inductionAll : ∀ elements : List ValueTree, ∀ v ∈ elements, P v
  | [] => List.forall_mem_nil _
  | v :: rest => List.forall_mem_cons.mpr ⟨induction v, inductionAll rest⟩

theorem inductionMembers : ∀ members : List (Text × ValueTree), ∀ m ∈ members, P m.2
  | [] => List.forall_mem_nil _
  | (_, v) :: rest => List.forall_mem_cons.mpr ⟨induction v, inductionMembers rest⟩

end

end Induction

/-! ### Nesting -/

theorem countDepthList_le {bound depth : Nat} : ∀ {vs : List ValueTree} {deepest : Nat},
    countDepthList deepest depth vs ≤ bound ↔ deepest ≤ bound ∧ ∀ v ∈ vs, countDepth depth v ≤ bound
  | [], _ => by simp [countDepthList]
  | v :: rest, deepest => by
    rw [countDepthList, countDepthList_le, max_le_iff, List.forall_mem_cons, and_assoc]

theorem countDepthMembers_le {bound depth : Nat} : ∀ {members : List (Text × ValueTree)} {deepest : Nat},
    countDepthMembers deepest depth members ≤ bound ↔ deepest ≤ bound ∧ ∀ m ∈ members, countDepth depth m.2 ≤ bound
  | [], _ => by simp [countDepthMembers]
  | (key, v) :: rest, deepest => by
    rw [countDepthMembers, countDepthMembers_le, max_le_iff, List.forall_mem_cons, and_assoc]

/-- No level below a value at a depth lies past the recursion guard. -/
def Shallow (depth : Nat) (v : ValueTree) : Prop := countDepth depth v ≤ kHardRecursionLimit

theorem shallow_list {depth : Nat} {elements : List ValueTree} :
    Shallow depth (list elements) ↔ depth ≤ kHardRecursionLimit ∧ ∀ v ∈ elements, Shallow (depth + 1) v := by
  rw [Shallow, countDepth, guarded]
  split_ifs with hdeep
  · exact iff_of_false (not_le.mpr hdeep) fun h => absurd h.1 (not_le.mpr hdeep)
  · exact countDepthList_le

theorem shallow_map {depth : Nat} {members : List (Text × ValueTree)} :
    Shallow depth (map members) ↔ depth ≤ kHardRecursionLimit ∧ ∀ m ∈ members, Shallow (depth + 1) m.2 := by
  rw [Shallow, countDepth, guarded]
  split_ifs with hdeep
  · exact iff_of_false (not_le.mpr hdeep) fun h => absurd h.1 (not_le.mpr hdeep)
  · exact countDepthMembers_le

theorem shallow_leaf {depth : Nat} {v : ValueTree} (h : isContainer v = false) :
    Shallow depth v ↔ depth ≤ kHardRecursionLimit := by
  cases v <;> first | rfl | cases h

theorem Shallow.depth_le {depth : Nat} {v : ValueTree} (h : Shallow depth v) : depth ≤ kHardRecursionLimit := by
  cases v with
  | list elements => exact (shallow_list.mp h).1
  | map members => exact (shallow_map.mp h).1
  | _ => exact h

theorem Shallow.of_le {depth : Nat} {v : ValueTree} (h : Shallow depth v) : ∀ {other : Nat}, other ≤ depth →
    Shallow other v := by
  induction v using induction generalizing depth with
  | leaf v hv =>
    intro other hle
    exact (shallow_leaf hv).mpr (hle.trans h.depth_le)
  | list elements ih =>
    intro other hle
    obtain ⟨hdepth, hall⟩ := shallow_list.mp h
    exact shallow_list.mpr ⟨hle.trans hdepth, fun v hv => ih v hv (hall v hv) (Nat.succ_le_succ hle)⟩
  | map members ih =>
    intro other hle
    obtain ⟨hdepth, hall⟩ := shallow_map.mp h
    exact shallow_map.mpr ⟨hle.trans hdepth, fun m hm => ih m hm (hall m hm) (Nat.succ_le_succ hle)⟩

/-- Within the guard a traversal yields its value. -/
theorem guarded_of_le {α : Type} {depth : Nat} {refused value : α} (h : depth ≤ kHardRecursionLimit) :
    guarded depth refused value = value := if_neg (not_lt.mpr h)

end ValueTree

end DriftObservatory
