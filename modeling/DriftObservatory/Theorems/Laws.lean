import DriftObservatory.Theorems.Fidelity
import DriftObservatory.Theorems.Numbers
import DriftObservatory.Theorems.Relation
import DriftObservatory.Theorems.Trees

/-! The laws of the relation between two values: an equivalence that is equality of values or of the numbers they stand
    for, and on containers the outcome of their children. -/

namespace DriftObservatory

/-! ### The loops over children -/

namespace ValueRelation

/-- What the relations of the children come to, once the shapes agree; `seen` tells whether a pair of children before
    could not be compared. -/
def joined : Bool → List ValueRelation → ValueRelation
  | seen, [] => if seen then .incomparable else .equal
  | _, .different :: _ => .different
  | seen, .equal :: rest => joined seen rest
  | _, .incomparable :: rest => joined true rest

theorem joined_eq_different : ∀ {seen : Bool} {relations : List ValueRelation},
    joined seen relations = .different ↔ .different ∈ relations
  | seen, [] => by cases seen <;> simp [joined]
  | _, .different :: _ => by simp [joined]
  | _, .equal :: rest => by simp [joined, joined_eq_different]
  | _, .incomparable :: rest => by simp [joined, joined_eq_different]

theorem joined_eq_equal : ∀ {seen : Bool} {relations : List ValueRelation},
    joined seen relations = .equal ↔ seen = false ∧ ∀ r ∈ relations, r = .equal
  | seen, [] => by cases seen <;> simp [joined]
  | _, .different :: _ => by simp [joined]
  | _, .equal :: rest => by simp [joined, joined_eq_equal]
  | _, .incomparable :: rest => by simp [joined, joined_eq_equal]

end ValueRelation

namespace ValueTree
variable {equivalence : NumericEquivalence}

open ValueRelation

theorem relateElements_eq {depth : Nat} : ∀ {seen : Bool} {as bs : List ValueTree}, as.length = bs.length →
    relateElements equivalence depth seen as bs =
      joined seen ((as.zip bs).map fun pair => relateValuesAt equivalence depth pair.1 pair.2)
  | seen, [], [], _ => rfl
  | seen, a :: as, b :: bs, hlength => by
    have hlength := Nat.succ.inj hlength
    rw [relateElements, List.zip_cons_cons, List.map_cons]
    cases hrelation : relateValuesAt equivalence depth a b with
    | equal =>
      rw [joined, ← relateElements_eq hlength]
      cases seen <;> rfl
    | different => rfl
    | incomparable =>
      rw [joined, ← relateElements_eq hlength]
      cases seen <;> rfl

/-- The values of two member sets, side by side. -/
def memberPairs (as bs : List (Text × ValueTree)) : List (ValueTree × ValueTree) :=
  (as.map Prod.snd).zip (bs.map Prod.snd)

theorem relateMembers_eq {depth : Nat} : ∀ {seen : Bool} {as bs : List (Text × ValueTree)}, as.length = bs.length →
    relateMembers equivalence depth seen as bs =
      if as.map Prod.fst = bs.map Prod.fst then
        joined seen ((memberPairs as bs).map fun pair => relateValuesAt equivalence depth pair.1 pair.2)
      else .different
  | seen, [], [], _ => rfl
  | seen, (k, a) :: as, (l, b) :: bs, hlength => by
    have hlength := Nat.succ.inj hlength
    rw [relateMembers]
    simp only [memberPairs, List.map_cons, List.zip_cons_cons, List.cons.injEq]
    by_cases hkey : k = l
    · rw [if_pos hkey]
      simp only [hkey, true_and]
      cases hrelation : relateValuesAt equivalence depth a b with
      | equal =>
        simp only [joined]
        rw [relateMembers_eq hlength]
        cases seen <;> rfl
      | different => exact (ite_self _).symm
      | incomparable =>
        simp only [joined]
        rw [relateMembers_eq hlength]
        cases seen <;> rfl
    · rw [if_neg hkey, if_neg fun h => hkey h.1]

/-! ### One level of the relation -/

section Level
variable {depth : Nat} (hdepth : depth ≤ kHardRecursionLimit)
include hdepth

theorem relate_list (as bs : List ValueTree) : relateValuesAt equivalence depth (list as) (list bs) =
    if as.length = bs.length then
      joined false ((as.zip bs).map fun pair => relateValuesAt equivalence (depth + 1) pair.1 pair.2)
    else .different := by
  rw [relateValuesAt, guarded_of_le hdepth]
  split_ifs with hlength
  · exact relateElements_eq hlength
  · rfl

theorem relate_map (as bs : List (Text × ValueTree)) : relateValuesAt equivalence depth (map as) (map bs) =
    if as.map Prod.fst = bs.map Prod.fst then
      joined false ((memberPairs as bs).map fun pair => relateValuesAt equivalence (depth + 1) pair.1 pair.2)
    else .different := by
  rw [relateValuesAt, guarded_of_le hdepth]
  by_cases hlength : as.length = bs.length
  · rw [if_pos hlength, relateMembers_eq hlength]
  · rw [if_neg hlength, if_neg]
    intro hkeys
    have := congrArg List.length hkeys
    rw [List.length_map, List.length_map] at this
    exact hlength this

theorem relate_scalar {a b : ValueTree} (hlist : ∀ as bs, a = list as → b = list bs → False)
    (hmap : ∀ as bs, a = map as → b = map bs → False) :
    relateValuesAt equivalence depth a b = relateScalars equivalence a b := by
  rw [relateValuesAt.eq_3 equivalence depth a b hlist hmap, guarded_of_le hdepth]

end Level

/-- Within the guard the relation does not depend on the depth it starts at. -/
theorem relateValuesAt_depth {depth other : Nat} {a : ValueTree} (h : Shallow depth a) (h' : Shallow other a)
    (b : ValueTree) : relateValuesAt equivalence depth a b = relateValuesAt equivalence other a b := by
  induction a using induction generalizing depth other b with
  | leaf a ha =>
    have hlist : ∀ as bs, a = list as → b = list bs → False := by
      rintro as bs rfl -
      cases ha
    have hmap : ∀ as bs, a = map as → b = map bs → False := by
      rintro as bs rfl -
      cases ha
    rw [relate_scalar h.depth_le hlist hmap, relate_scalar h'.depth_le hlist hmap]
  | list as ih =>
    by_cases hb : ∃ bs, b = list bs
    · obtain ⟨bs, rfl⟩ := hb
      rw [relate_list h.depth_le, relate_list h'.depth_le]
      refine if_congr Iff.rfl ?_ rfl
      refine congrArg _ (List.map_congr_left fun pair hpair => ?_)
      have hmem := (List.of_mem_zip hpair).1
      exact ih _ hmem ((shallow_list.mp h).2 _ hmem) ((shallow_list.mp h').2 _ hmem) _
    · have hlist : ∀ as' bs, list as = list as' → b = list bs → False := fun _ bs _ heq => hb ⟨bs, heq⟩
      have hmap : ∀ as' bs, list as = map as' → b = map bs → False := fun _ _ heq _ => by cases heq
      rw [relate_scalar h.depth_le hlist hmap, relate_scalar h'.depth_le hlist hmap]
  | map as ih =>
    by_cases hb : ∃ bs, b = map bs
    · obtain ⟨bs, rfl⟩ := hb
      rw [relate_map h.depth_le, relate_map h'.depth_le]
      refine if_congr Iff.rfl ?_ rfl
      refine congrArg _ (List.map_congr_left fun pair hpair => ?_)
      obtain ⟨m, hm, hvalue⟩ := List.mem_map.mp (List.of_mem_zip hpair).1
      rw [← hvalue]
      exact ih m hm ((shallow_map.mp h).2 m hm) ((shallow_map.mp h').2 m hm) _
    · have hlist : ∀ as' bs, map as = list as' → b = list bs → False := fun _ _ heq _ => by cases heq
      have hmap : ∀ as' bs, map as = map as' → b = map bs → False := fun _ bs _ heq => hb ⟨bs, heq⟩
      rw [relate_scalar h.depth_le hlist hmap, relate_scalar h'.depth_le hlist hmap]

/-- The relation of two values as a whole. -/
def relate (equivalence : NumericEquivalence) (a b : ValueTree) : ValueRelation := relateValuesAt equivalence 0 a b

theorem shallow_children {elements : List ValueTree} (h : Shallow 0 (list elements)) :
    ∀ v ∈ elements, Shallow 0 v ∧ Shallow 1 v := fun v hv =>
  ⟨((shallow_list.mp h).2 v hv).of_le (Nat.zero_le _), (shallow_list.mp h).2 v hv⟩

theorem shallow_memberValues {members : List (Text × ValueTree)} (h : Shallow 0 (map members)) :
    ∀ m ∈ members, Shallow 0 m.2 ∧ Shallow 1 m.2 := fun m hm =>
  ⟨((shallow_map.mp h).2 m hm).of_le (Nat.zero_le _), (shallow_map.mp h).2 m hm⟩

/-- Two sequences by their elements. -/
theorem relate_list_eq {as : List ValueTree} (h : Shallow 0 (list as)) (bs : List ValueTree) :
    relate equivalence (list as) (list bs) =
      if as.length = bs.length then joined false ((as.zip bs).map fun pair => relate equivalence pair.1 pair.2)
      else .different := by
  rw [relate, relate_list (Nat.zero_le _)]
  refine if_congr Iff.rfl (congrArg _ (List.map_congr_left fun pair hpair => ?_)) rfl
  obtain ⟨hzero, hone⟩ := shallow_children h _ (List.of_mem_zip hpair).1
  exact relateValuesAt_depth hone hzero _

/-- Two member sets by their names and the values under them. -/
theorem relate_map_eq {as : List (Text × ValueTree)} (h : Shallow 0 (map as)) (bs : List (Text × ValueTree)) :
    relate equivalence (map as) (map bs) =
      if as.map Prod.fst = bs.map Prod.fst then
        joined false ((memberPairs as bs).map fun pair => relate equivalence pair.1 pair.2)
      else .different := by
  rw [relate, relate_map (Nat.zero_le _)]
  refine if_congr Iff.rfl (congrArg _ (List.map_congr_left fun pair hpair => ?_)) rfl
  obtain ⟨m, hm, hvalue⟩ := List.mem_map.mp (List.of_mem_zip hpair).1
  obtain ⟨hzero, hone⟩ := shallow_memberValues h m hm
  rw [← hvalue]
  exact relateValuesAt_depth hone hzero _

theorem relate_scalars {a b : ValueTree} (hlist : ∀ as bs, a = list as → b = list bs → False)
    (hmap : ∀ as bs, a = map as → b = map bs → False) : relate equivalence a b = relateScalars equivalence a b :=
  relate_scalar (Nat.zero_le _) hlist hmap

/-! ### Containers -/

/-- The relation of two containers is the outcome of their children, and of their shapes first. -/
structure OutcomeOf (equivalence : NumericEquivalence) (relation : ValueRelation) (sameShape : Prop)
    (children : List (ValueTree × ValueTree)) : Prop where
  equal : relation = .equal ↔ sameShape ∧ ∀ pair ∈ children, relate equivalence pair.1 pair.2 = .equal
  different : relation = .different ↔ ¬sameShape ∨ ∃ pair ∈ children, relate equivalence pair.1 pair.2 = .different
  incomparable : relation = .incomparable ↔ sameShape ∧
    (∀ pair ∈ children, relate equivalence pair.1 pair.2 ≠ .different) ∧
    ∃ pair ∈ children, relate equivalence pair.1 pair.2 = .incomparable

theorem outcomeOf_joined {sameShape : Prop} [Decidable sameShape] (children : List (ValueTree × ValueTree)) :
    OutcomeOf equivalence (if sameShape then
      joined false (children.map fun pair => relate equivalence pair.1 pair.2) else .different) sameShape children := by
  by_cases hshape : sameShape
  · rw [if_pos hshape]
    have hequal : joined false (children.map fun pair => relate equivalence pair.1 pair.2) = .equal ↔
        ∀ pair ∈ children, relate equivalence pair.1 pair.2 = .equal := by
      rw [joined_eq_equal]
      simp only [true_and, List.forall_mem_map]
    have hdifferent : joined false (children.map fun pair => relate equivalence pair.1 pair.2) = .different ↔
        ∃ pair ∈ children, relate equivalence pair.1 pair.2 = .different := by
      rw [joined_eq_different, List.mem_map]
    refine ⟨hequal.trans ?_, hdifferent.trans ?_, ?_⟩
    · simp only [hshape, true_and]
    · simp only [hshape, not_true_eq_false, false_or]
    · simp only [hshape, true_and]
      constructor
      · intro h
        have hnone : ∀ pair ∈ children, relate equivalence pair.1 pair.2 ≠ .different := by
          intro pair hpair heq
          rw [hdifferent.mpr ⟨pair, hpair, heq⟩] at h
          cases h
        refine ⟨hnone, ?_⟩
        by_contra hall
        rw [hequal.mpr fun pair hpair => ?_] at h
        · cases h
        cases hrelation : relate equivalence pair.1 pair.2 with
        | equal => rfl
        | different => exact absurd hrelation (hnone pair hpair)
        | incomparable => exact absurd ⟨pair, hpair, hrelation⟩ hall
      · rintro ⟨hnone, pair, hpair, hrelation⟩
        cases hjoined : joined false (children.map fun pair => relate equivalence pair.1 pair.2) with
        | equal =>
          rw [hequal.mp hjoined pair hpair] at hrelation
          cases hrelation
        | different =>
          obtain ⟨other, hother, heq⟩ := hdifferent.mp hjoined
          exact absurd heq (hnone other hother)
        | incomparable => rfl
  · rw [if_neg hshape]
    refine ⟨?_, ?_, ?_⟩ <;> simp [hshape]

theorem outcomeOf_list {as : List ValueTree} (h : Shallow 0 (list as)) (bs : List ValueTree) :
    OutcomeOf equivalence (relate equivalence (list as) (list bs)) (as.length = bs.length) (as.zip bs) := by
  rw [relate_list_eq h]
  exact outcomeOf_joined _

theorem outcomeOf_map {as : List (Text × ValueTree)} (h : Shallow 0 (map as)) (bs : List (Text × ValueTree)) :
    OutcomeOf equivalence (relate equivalence (map as) (map bs)) (as.map Prod.fst = bs.map Prod.fst)
      (memberPairs as bs) := by
  rw [relate_map_eq h]
  exact outcomeOf_joined _

/-! ### Equal values -/

/-- The sequences agree element by element. -/
theorem relate_list_equal {as : List ValueTree} (h : Shallow 0 (list as)) (bs : List ValueTree) :
    relate equivalence (list as) (list bs) = .equal ↔ List.Forall₂ (fun a b => relate equivalence a b = .equal) as bs := by
  rw [(outcomeOf_list h bs).equal, List.forall₂_iff_zip]
  exact and_congr_right fun _ => ⟨fun hall a b hab => hall (a, b) hab, fun hall pair hpair => hall hpair⟩

theorem relate_map_equal {as : List (Text × ValueTree)} (h : Shallow 0 (map as)) (bs : List (Text × ValueTree)) :
    relate equivalence (map as) (map bs) = .equal ↔
      List.Forall₂ (fun a b => a.1 = b.1 ∧ relate equivalence a.2 b.2 = .equal) as bs := by
  rw [(outcomeOf_map h bs).equal, memberPairs]
  clear h
  induction as generalizing bs with
  | nil => cases bs <;> simp
  | cons a as ih =>
    cases bs with
    | nil => simp
    | cons b bs =>
      rw [List.forall₂_cons, ← ih bs]
      simp only [List.map_cons, List.cons.injEq, List.zip_cons_cons, List.forall_mem_cons]
      tauto

theorem relate_self {a : ValueTree} (h : Shallow 0 a) : relate equivalence a a = .equal := by
  induction a using induction with
  | leaf a ha =>
    rw [relate_scalars (by rintro as bs rfl -; cases ha) (by rintro as bs rfl -; cases ha)]
    cases a <;>
      first
      | simp [relateScalars, relateNumerics, relationOf, kind, double_eq_self]
        done
      | cases ha
  | list as ih =>
    refine (relate_list_equal h as).mpr (List.forall₂_same.mpr fun a ha => ih a ha (shallow_children h a ha).1)
  | map as ih =>
    refine (relate_map_equal h as).mpr (List.forall₂_same.mpr fun m hm => ⟨rfl, ih m hm (shallow_memberValues h m hm).1⟩)

/-! ### Exact equality -/

theorem beqAll_iff : ∀ {as bs : List ValueTree}, beqAll as bs = true ↔ List.Forall₂ (fun a b => beq a b = true) as bs
  | [], [] => by simp [beqAll]
  | [], _ :: _ => by simp [beqAll]
  | _ :: _, [] => by simp [beqAll]
  | a :: as, b :: bs => by rw [beqAll, Bool.and_eq_true, beqAll_iff, List.forall₂_cons]

theorem beqMembers_iff : ∀ {as bs : List (Text × ValueTree)},
    beqMembers as bs = true ↔ List.Forall₂ (fun a b => a.1 = b.1 ∧ beq a.2 b.2 = true) as bs
  | [], [] => by simp [beqMembers]
  | [], _ :: _ => by simp [beqMembers]
  | _ :: _, [] => by simp [beqMembers]
  | (k, a) :: as, (l, b) :: bs => by
    rw [beqMembers, Bool.and_eq_true, Bool.and_eq_true, beqMembers_iff, List.forall₂_cons, beq_iff_eq]

theorem forall₂_congr_mem {α β : Type} {R S : α → β → Prop} : ∀ {as : List α} {bs : List β},
    (∀ a ∈ as, ∀ b, R a b ↔ S a b) → (List.Forall₂ R as bs ↔ List.Forall₂ S as bs)
  | [], bs, _ => by cases bs <;> simp
  | a :: as, [], _ => by simp
  | a :: as, b :: bs, h => by
    rw [List.forall₂_cons, List.forall₂_cons, h a List.mem_cons_self,
      forall₂_congr_mem fun a' ha' => h a' (List.mem_cons_of_mem _ ha')]

theorem relateScalars_exact {a b : ValueTree} (ha : isContainer a = false) :
    relateScalars .exact a b = .equal ↔ beq a b = true := by
  cases a <;>
    first
    | cases b <;> simp [relateScalars, relateNumerics, relationOf, kind, ValueKind.isNumeric, beq]
      done
    | cases ha

/-- Exactly equal values are the ones the built-in comparison holds equal. -/
theorem relate_exact {a : ValueTree} (h : Shallow 0 a) (b : ValueTree) :
    relate .exact a b = .equal ↔ beq a b = true := by
  induction a using induction generalizing b with
  | leaf a ha =>
    rw [relate_scalars (by rintro as bs rfl -; cases ha) (by rintro as bs rfl -; cases ha)]
    exact relateScalars_exact ha
  | list as ih =>
    by_cases hb : ∃ bs, b = list bs
    · obtain ⟨bs, rfl⟩ := hb
      rw [relate_list_equal h, beq, beqAll_iff]
      exact forall₂_congr_mem fun a ha b => ih a ha (shallow_children h a ha).1 b
    · rw [relate_scalars (fun _ bs _ heq => hb ⟨bs, heq⟩) fun _ _ heq _ => by cases heq]
      cases b <;> simp [relateScalars, relateNumerics, kind, ValueKind.isNumeric, beq] at hb ⊢
  | map as ih =>
    by_cases hb : ∃ bs, b = map bs
    · obtain ⟨bs, rfl⟩ := hb
      rw [relate_map_equal h, beq, beqMembers_iff]
      exact forall₂_congr_mem fun m hm n => and_congr_right fun _ => ih m hm (shallow_memberValues h m hm).1 n.2
    · rw [relate_scalars (fun _ _ heq _ => by cases heq) fun _ bs _ heq => hb ⟨bs, heq⟩]
      cases b <;> simp [relateScalars, relateNumerics, kind, ValueKind.isNumeric, beq] at hb ⊢

/-! ### Numeric equality -/

/-- Scalars equal up to their numeric kind. -/
def SameScalar (a b : ValueTree) : Prop :=
  (∃ x, a.toRat? = some x ∧ b.toRat? = some x) ∨ a.toRat? = none ∧ a = b

theorem SameScalar.trans {a b c : ValueTree} (hab : SameScalar a b) (hbc : SameScalar b c) : SameScalar a c := by
  rcases hab with ⟨x, ha, hb⟩ | ⟨ha, rfl⟩
  · rcases hbc with ⟨y, hb', hc⟩ | ⟨hb', rfl⟩
    · rw [hb] at hb'
      exact .inl ⟨x, ha, hb' ▸ hc⟩
    · exact .inl ⟨x, ha, hb⟩
  · exact hbc

theorem SameScalar.isContainer {a b : ValueTree} (h : SameScalar a b) (ha : a.isContainer = false) :
    b.isContainer = false := by
  rcases h with ⟨x, -, hb⟩ | ⟨-, rfl⟩
  · cases b <;> first | rfl | cases hb
  · exact ha

theorem relateScalars_of_numbers {a b : ValueTree} {x y : ℚ} (ha : a.toRat? = some x) (hb : b.toRat? = some y) :
    relateScalars .numeric a b = .equal ↔ x = y := by
  obtain ⟨equal, hrelation, hequal⟩ := relateNumerics_iff ha hb
  rw [← hequal]
  unfold relateScalars
  rw [hrelation, if_neg (by simp)]
  cases equal <;> simp [relationOf]

theorem relateScalars_numeric {a b : ValueTree} (ha : isContainer a = false) :
    relateScalars .numeric a b = .equal ↔ SameScalar a b := by
  rw [SameScalar]
  cases hx : a.toRat? with
  | none =>
    cases a <;>
      first
      | cases hx
        done
      | cases b <;> simp [relateScalars, relateNumerics, relationOf, kind, ValueKind.isNumeric]
        done
      | cases ha
  | some x =>
    cases hy : b.toRat? with
    | none =>
      cases a <;>
        first
        | cases hx
          done
        | cases b <;> simp [toRat?, relateScalars, relateNumerics, kind, ValueKind.isNumeric] at hy ⊢
    | some y =>
      rw [relateScalars_of_numbers hx hy]
      simp [eq_comm]

theorem relate_leaf {a b : ValueTree} (ha : a.isContainer = false) :
    relate equivalence a b = relateScalars equivalence a b :=
  relate_scalars (by rintro as bs rfl -; cases ha) (by rintro as bs rfl -; cases ha)

/-- A sequence equals nothing but a sequence, and a member set nothing but a member set. -/
theorem list_of_relate_equal {as : List ValueTree} {b : ValueTree} (h : relate equivalence (list as) b = .equal) :
    ∃ bs, b = list bs := by
  by_contra hb
  rw [relate_scalars (fun _ bs _ heq => hb ⟨bs, heq⟩) fun _ _ heq _ => by cases heq] at h
  cases b <;> simp [relateScalars, relateNumerics, kind, ValueKind.isNumeric] at hb h

theorem map_of_relate_equal {as : List (Text × ValueTree)} {b : ValueTree}
    (h : relate equivalence (map as) b = .equal) : ∃ bs, b = map bs := by
  by_contra hb
  rw [relate_scalars (fun _ _ heq _ => by cases heq) fun _ bs _ heq => hb ⟨bs, heq⟩] at h
  cases b <;> simp [relateScalars, relateNumerics, kind, ValueKind.isNumeric] at hb h

theorem forall₂_trans_mem {α : Type} {R : α → α → Prop} : ∀ {as bs cs : List α},
    (∀ a ∈ as, ∀ b ∈ bs, ∀ c, R a b → R b c → R a c) → List.Forall₂ R as bs → List.Forall₂ R bs cs →
      List.Forall₂ R as cs
  | [], _, _, _, .nil, .nil => .nil
  | a :: _, b :: _, c :: _, h, .cons hab habs, .cons hbc hbcs =>
    .cons (h a List.mem_cons_self b List.mem_cons_self c hab hbc)
      (forall₂_trans_mem (fun a' ha' b' hb' => h a' (List.mem_cons_of_mem _ ha') b' (List.mem_cons_of_mem _ hb'))
        habs hbcs)

/-- Numerically equal values are equal up to the numeric kinds of their leaves, which is transitive. -/
theorem relate_numeric_trans {a b c : ValueTree} (ha : Shallow 0 a) (hb : Shallow 0 b)
    (hab : relate .numeric a b = .equal) (hbc : relate .numeric b c = .equal) : relate .numeric a c = .equal := by
  induction a using induction generalizing b c with
  | leaf a hleaf =>
    rw [relate_leaf hleaf, relateScalars_numeric hleaf] at hab
    have hleaf' := hab.isContainer hleaf
    rw [relate_leaf hleaf', relateScalars_numeric hleaf'] at hbc
    rw [relate_leaf hleaf, relateScalars_numeric hleaf]
    exact hab.trans hbc
  | list as ih =>
    obtain ⟨bs, rfl⟩ := list_of_relate_equal hab
    obtain ⟨cs, rfl⟩ := list_of_relate_equal hbc
    rw [relate_list_equal ha] at hab ⊢
    rw [relate_list_equal hb] at hbc
    exact forall₂_trans_mem (fun x hx y hy _ hxy hyz =>
      ih x hx (shallow_children ha x hx).1 (shallow_children hb y hy).1 hxy hyz) hab hbc
  | map as ih =>
    obtain ⟨bs, rfl⟩ := map_of_relate_equal hab
    obtain ⟨cs, rfl⟩ := map_of_relate_equal hbc
    rw [relate_map_equal ha] at hab ⊢
    rw [relate_map_equal hb] at hbc
    exact forall₂_trans_mem (fun x hx y hy _ hxy hyz => ⟨hxy.1.trans hyz.1,
      ih x hx (shallow_memberValues ha x hx).1 (shallow_memberValues hb y hy).1 hxy.2 hyz.2⟩) hab hbc

end ValueTree

/-! ### The laws -/

open ValueTree in
/-- The relation is symmetric and reflexive; exactly equal is equal to the built-in comparison, numerically equal is
    transitive and means one number on numeric scalars; and containers are related as their shapes and children are. -/
theorem relateValues_laws {a b c : Value} (ha : a.tree.maxDepth ≤ kHardRecursionLimit)
    (hb : b.tree.maxDepth ≤ kHardRecursionLimit) (equivalence : NumericEquivalence) :
    relateValues a b equivalence = relateValues b a equivalence ∧
      relateValues a a equivalence = .equal ∧
      (relateValues a b .exact = .equal ↔ a.beq b = true) ∧
      (relateValues a b .numeric = .equal → relateValues b c .numeric = .equal → relateValues a c .numeric = .equal) ∧
      (∀ x y, a.tree.toRat? = some x → b.tree.toRat? = some y →
        (relateValues a b .numeric = .equal ↔ x = y)) ∧
      (∀ as bs, a.tree = .list as → b.tree = .list bs →
        OutcomeOf equivalence (relateValues a b equivalence) (as.length = bs.length) (as.zip bs)) ∧
      ∀ as bs, a.tree = .map as → b.tree = .map bs →
        OutcomeOf equivalence (relateValues a b equivalence) (as.map Prod.fst = bs.map Prod.fst) (memberPairs as bs) := by
  refine ⟨relateValues_comm a b equivalence, relate_self ha, relate_exact ha b.tree, relate_numeric_trans ha hb, ?_, ?_,
    ?_⟩
  · intro x y hx hy
    have hleaf : a.tree.isContainer = false := by
      cases htree : a.tree <;> rw [htree] at hx <;> first | rfl | cases hx
    have hscalars : relateValues a b .numeric = relateScalars .numeric a.tree b.tree := relate_leaf hleaf
    rw [hscalars]
    exact relateScalars_of_numbers hx hy
  · intro as bs hlist hlist'
    have hrelate : relateValues a b equivalence = relate equivalence a.tree b.tree := rfl
    rw [hrelate, hlist, hlist']
    rw [hlist] at ha
    exact outcomeOf_list ha bs
  · intro as bs hmap hmap'
    have hrelate : relateValues a b equivalence = relate equivalence a.tree b.tree := rfl
    rw [hrelate, hmap, hmap']
    rw [hmap] at ha
    exact outcomeOf_map ha bs

/-- The integer one and the double of its bits. -/
theorem relateValues_laws_one :
    relateValues ⟨.int 1, trivial⟩ ⟨.double ⟨0x3FF0000000000000, by decide⟩, trivial⟩ .numeric = .equal ↔
      ((1 : Int64).toInt : ℚ) = Double.toRat ⟨0x3FF0000000000000, by decide⟩ :=
  (@relateValues_laws ⟨.int 1, trivial⟩ ⟨.double ⟨0x3FF0000000000000, by decide⟩, trivial⟩ default (by decide) (by decide)
    .numeric).2.2.2.2.1 _ _ rfl rfl

end DriftObservatory
