import Mathlib.Data.List.TakeWhile
import Mathlib.Order.Lattice

/-! Lists whose keys ascend up to a greatest last one: insertion at the lower bound, eviction before the last item. -/

universe u v

namespace Ascending
variable {α : Type u} {κ : Type v} [LinearOrder κ] {key : α → κ} {less : α → α → Bool} {x last : α}
  {xs front : List α}

/-- The list with the item inserted before the first one that is not less. -/
def insertLower (less : α → α → Bool) (x : α) (xs : List α) : List α :=
  (xs.takeWhile fun a => less a x) ++ x :: xs.dropWhile fun a => less a x

/-- The keys of the list ascend, and the last key is above all others. -/
structure Peaked (key : α → κ) (front : List α) (last : α) : Prop where
  ascending : front.Pairwise fun a b => key a ≤ key b
  below : ∀ a ∈ front, key a < key last

theorem Peaked.pairwise (h : Peaked key front last) : (front ++ [last]).Pairwise fun a b => key a ≤ key b := by
  refine List.pairwise_append.mpr ⟨h.ascending, List.pairwise_singleton _ _, fun a ha b hb => ?_⟩
  rw [List.mem_singleton.mp hb]
  exact le_of_lt (h.below a ha)

theorem Peaked.sublist {front' : List α} (h : Peaked key front last) (hsub : front'.Sublist front) :
    Peaked key front' last :=
  ⟨h.ascending.sublist hsub, fun a ha => h.below a (hsub.subset ha)⟩

theorem mem_insertLower {a : α} : a ∈ insertLower less x xs ↔ a = x ∨ a ∈ xs := by
  have hparts : a ∈ xs ↔ a ∈ xs.takeWhile (fun a => less a x) ∨ a ∈ xs.dropWhile fun a => less a x := by
    rw [← List.mem_append, List.takeWhile_append_dropWhile]
  simp only [insertLower, hparts, List.mem_append, List.mem_cons]
  exact or_left_comm

theorem length_insertLower : (insertLower less x xs).length = xs.length + 1 := by
  have hlength := congrArg List.length (List.takeWhile_append_dropWhile (p := fun a => less a x) (l := xs))
  rw [List.length_append] at hlength
  rw [insertLower, List.length_append, List.length_cons]
  omega

/-- An item above the last one goes to the end. -/
theorem insertLower_of_above (hless : ∀ a b, less a b = true ↔ key a < key b) (h : Peaked key front last)
    (hx : key last < key x) : insertLower less x (front ++ [last]) = front ++ [last] ++ [x] := by
  have hall : ∀ a ∈ front ++ [last], less a x = true := fun a ha => by
    rw [hless]
    rcases List.mem_append.mp ha with ha | ha
    · exact (h.below a ha).trans hx
    · rw [List.mem_singleton.mp ha]
      exact hx
  rw [insertLower, List.takeWhile_eq_self_iff.mpr hall, List.dropWhile_eq_nil_iff.mpr hall]

theorem peaked_of_above (h : Peaked key front last) (hx : key last < key x) : Peaked key (front ++ [last]) x := by
  refine ⟨h.pairwise, fun a ha => ?_⟩
  rcases List.mem_append.mp ha with ha | ha
  · exact (h.below a ha).trans hx
  · rw [List.mem_singleton.mp ha]
    exact hx

/-- An item below the last one goes before it. -/
theorem insertLower_of_below (hless : ∀ a b, less a b = true ↔ key a < key b) (hx : key x < key last) :
    insertLower less x (front ++ [last]) = insertLower less x front ++ [last] := by
  have hlast : less last x = false := by
    rw [← Bool.not_eq_true, hless, not_lt]
    exact le_of_lt hx
  by_cases hall : ∀ a ∈ front, less a x = true
  · rw [insertLower, insertLower, List.takeWhile_append_of_pos hall, List.dropWhile_append_of_pos hall,
      List.takeWhile_cons_of_neg (by simp [hlast]), List.dropWhile_cons_of_neg (by simp [hlast]), List.append_nil,
      List.takeWhile_eq_self_iff.mpr hall, List.dropWhile_eq_nil_iff.mpr hall, List.append_assoc]
    rfl
  · have hrest : front.dropWhile (fun a => less a x) ≠ [] := fun hnil => hall (List.dropWhile_eq_nil_iff.mp hnil)
    rw [insertLower, insertLower, List.dropWhile_append, if_neg (by simpa using hrest), List.takeWhile_append,
      if_neg fun hlength => hall (List.takeWhile_eq_self_iff.mp ((List.takeWhile_prefix _).eq_of_length hlength)),
      List.append_assoc]
    rfl

theorem pairwise_insertLower (hless : ∀ a b, less a b = true ↔ key a < key b)
    (h : xs.Pairwise fun a b => key a ≤ key b) : (insertLower less x xs).Pairwise fun a b => key a ≤ key b := by
  induction xs with
  | nil => exact List.pairwise_singleton _ _
  | cons y ys ih =>
    rw [List.pairwise_cons] at h
    unfold insertLower at ih ⊢
    cases hy : less y x with
    | true =>
      rw [List.takeWhile_cons, if_pos hy, List.dropWhile_cons, if_pos hy, List.cons_append, List.pairwise_cons]
      refine ⟨fun a ha => ?_, ih h.2⟩
      rcases mem_insertLower.mp ha with rfl | ha
      · exact le_of_lt ((hless y a).mp hy)
      · exact h.1 a ha
    | false =>
      have hle : key x ≤ key y := by
        rw [← not_lt, ← hless, hy]
        exact Bool.false_ne_true
      rw [List.takeWhile_cons_of_neg (by simp [hy]), List.dropWhile_cons_of_neg (by simp [hy]), List.nil_append]
      refine List.pairwise_cons.mpr ⟨fun a ha => ?_, List.pairwise_cons.mpr h⟩
      rcases List.mem_cons.mp ha with rfl | ha
      · exact hle
      · exact hle.trans (h.1 a ha)

theorem peaked_of_below (hless : ∀ a b, less a b = true ↔ key a < key b) (h : Peaked key front last)
    (hx : key x < key last) : Peaked key (insertLower less x front) last := by
  refine ⟨pairwise_insertLower hless h.ascending, fun a ha => ?_⟩
  rcases mem_insertLower.mp ha with rfl | ha
  · exact hx
  · exact h.below a ha

/-- No two items have the same key once an item with a new key is inserted. -/
theorem strict_insertLower (hless : ∀ a b, less a b = true ↔ key a < key b)
    (h : xs.Pairwise fun a b => key a < key b) (hnew : ∀ a ∈ xs, key a ≠ key x) :
    (insertLower less x xs).Pairwise fun a b => key a < key b := by
  have hle := @pairwise_insertLower _ _ _ key less x xs hless (h.imp le_of_lt)
  have hne : (insertLower less x xs).Pairwise fun a b => key a ≠ key b := by
    have hparts := h.imp fun hab => ne_of_lt hab
    rw [← List.takeWhile_append_dropWhile (p := fun a => less a x) (l := xs), List.pairwise_append] at hparts
    refine List.pairwise_append.mpr ⟨hparts.1, List.pairwise_cons.mpr ⟨fun a ha => ?_, hparts.2.1⟩, fun a ha b hb => ?_⟩
    · exact (hnew a ((List.dropWhile_sublist _).subset ha)).symm
    · rcases List.mem_cons.mp hb with rfl | hb
      · exact hnew a ((List.takeWhile_sublist _).subset ha)
      · exact hparts.2.2 a ha b hb
  exact hle.imp₂ (fun _ _ hab hne => lt_of_le_of_ne hab hne) hne

end Ascending
