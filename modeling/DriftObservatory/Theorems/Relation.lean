import DriftObservatory.Value

/-! The relation between two values does not depend on their order. -/

namespace DriftObservatory

namespace ValueTree
variable {equivalence : NumericEquivalence}

theorem relateNumerics_comm (a b : ValueTree) : relateNumerics a b = relateNumerics b a := by
  cases a <;> cases b <;> simp [relateNumerics, Bool.beq_comm, Double.eq, Bool.and_comm]

theorem relateScalars_comm (a b : ValueTree) : relateScalars equivalence a b = relateScalars equivalence b a := by
  unfold relateScalars
  rw [relateNumerics_comm a b, Bool.and_comm a.kind.isNumeric, bne_comm (a := a.kind)]
  cases a <;> cases b <;> simp [relationOf, Bool.beq_comm]

/-- The loops stop where either list ends, whichever comes first. -/
theorem relateElements_of_end {depth : Nat} {incomparable : Bool} {as bs : List ValueTree}
    (h : ∀ a as' b bs', as = a :: as' → bs = b :: bs' → False) :
    relateElements equivalence depth incomparable as bs = if incomparable then .incomparable else .equal :=
  relateElements.eq_2 equivalence depth incomparable as bs h

theorem relateMembers_of_end {depth : Nat} {incomparable : Bool} {as bs : List (Text × ValueTree)}
    (h : ∀ k a as' l b bs', as = (k, a) :: as' → bs = (l, b) :: bs' → False) :
    relateMembers equivalence depth incomparable as bs = if incomparable then .incomparable else .equal :=
  relateMembers.eq_2 equivalence depth incomparable as bs h

theorem relateValuesAt_comm (depth : Nat) (a b : ValueTree) :
    relateValuesAt equivalence depth a b = relateValuesAt equivalence depth b a := by
  -- Induction along the recursion of the relation: one motive for each of its three functions.
  refine (relateValuesAt.mutual_induct equivalence
    (fun d a b => relateValuesAt equivalence d a b = relateValuesAt equivalence d b a)
    (fun d i as bs => relateMembers equivalence d i as bs = relateMembers equivalence d i bs as)
    (fun d i as bs => relateElements equivalence d i as bs = relateElements equivalence d i bs as)
    ?list ?map ?scalar ?elementsDifferent ?elements ?elementsEnd ?elementsEnd' ?membersDifferent ?members
    ?membersKey ?membersEnd ?membersEnd').1 depth a b
  case list =>
    intro d as bs ih
    simp only [relateValuesAt, ih, eq_comm]
  case map =>
    intro d as bs ih
    simp only [relateValuesAt, ih, eq_comm]
  case scalar =>
    intro d a b hl hm
    rw [relateValuesAt.eq_3 equivalence d a b hl hm,
      relateValuesAt.eq_3 equivalence d b a (fun x y hx hy => hl y x hy hx) (fun x y hx hy => hm y x hy hx),
      relateScalars_comm]
  case elementsDifferent =>
    intro d i a as b bs h ih
    simp only [relateElements, ← ih, h]
  case elements =>
    intro d i a as b bs h ih ihrest
    simp only [relateElements, ← ih, ihrest]
  case elementsEnd =>
    intro as d bs h
    rw [relateElements_of_end h, relateElements_of_end fun a as' b bs' ha hb => h b bs' a as' hb ha]
  case elementsEnd' =>
    intro as d i bs _ h
    rw [relateElements_of_end h, relateElements_of_end fun a as' b bs' ha hb => h b bs' a as' hb ha]
  case membersDifferent =>
    intro d i a as l b bs h ih
    simp only [relateMembers, ← ih, h]
  case members =>
    intro d i a as l b bs h ih ihrest
    simp only [relateMembers, if_true, ← ih, ihrest]
  case membersKey =>
    intro d i k a as l b bs h
    simp only [relateMembers, h, Ne.symm h, if_false]
  case membersEnd =>
    intro as d bs h
    rw [relateMembers_of_end h, relateMembers_of_end fun k a as' l b bs' ha hb => h l b bs' k a as' hb ha]
  case membersEnd' =>
    intro as d i bs _ h
    rw [relateMembers_of_end h, relateMembers_of_end fun k a as' l b bs' ha hb => h l b bs' k a as' hb ha]

end ValueTree

theorem relateValues_comm (a b : Value) (equivalence : NumericEquivalence) :
    relateValues a b equivalence = relateValues b a equivalence :=
  ValueTree.relateValuesAt_comm 0 a.tree b.tree

theorem relateValues_makeString {a b : Text} {equivalence : NumericEquivalence} (h : a ≠ b) :
    relateValues (.makeString a) (.makeString b) equivalence = .different := by
  have hrelation : relateValues (.makeString a) (.makeString b) equivalence = ValueTree.relationOf (a == b) := rfl
  rw [hrelation, beq_eq_false_iff_ne.mpr h]
  rfl

end DriftObservatory
