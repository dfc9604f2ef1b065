import Mathlib.Algebra.Order.BigOperators.Group.List
import Mathlib.Algebra.Order.Ring.Nat
import Mathlib.Data.List.Sort

/-! Lists sorted by a Boolean comparator, and pages of a list. A comparator that decides a linear key sorts by that key; a
    page holds the items at the positions of an interval, or those an end leaves that wraps around a modulus. -/

universe u v

/-! ### Sorting -/

/-- The list sorted by the strict order `less`; equivalent items keep their order. -/
def sortBy {α : Type u} (less : α → α → Bool) (items : List α) : List α :=
  items.insertionSort fun a b => less b a = false

namespace sortBy
variable {α : Type u} {κ : Type v} [LinearOrder κ] {less : α → α → Bool} {key : α → κ}

theorem perm (less : α → α → Bool) (items : List α) : (sortBy less items).Perm items :=
  List.perm_insertionSort _ _

theorem mem_iff {items : List α} {x : α} : x ∈ sortBy less items ↔ x ∈ items := List.mem_insertionSort _

theorem pairwise (hkey : ∀ a b, less a b = true ↔ key a < key b) (items : List α) :
    (sortBy less items).Pairwise fun a b => key a ≤ key b := by
  have hle : ∀ a b, less b a = false ↔ key a ≤ key b := fun a b => by
    rw [← Bool.not_eq_true, hkey, not_lt]
  have : Std.Total fun a b => less b a = false := ⟨fun a b => by
    rw [hle, hle]
    exact le_total _ _⟩
  have : IsTrans α fun a b => less b a = false := ⟨fun a b c hab hbc => by
    rw [hle] at hab hbc ⊢
    exact hab.trans hbc⟩
  exact (List.pairwise_insertionSort (fun a b => less b a = false) items).imp fun h => (hle _ _).mp h

/-- Items with distinct keys have one sorted rearrangement. -/
theorem unique (hkey : ∀ a b, less a b = true ↔ key a < key b) {items sorted : List α}
    (hinj : ∀ a ∈ items, ∀ b ∈ items, key a = key b → a = b) (hperm : sorted.Perm items)
    (hsorted : sorted.Pairwise fun a b => less b a = false) : sorted = sortBy less items := by
  have hle : sorted.Pairwise fun a b => key a ≤ key b := hsorted.imp fun h => by
    rw [← not_lt, ← hkey, h]
    exact Bool.false_ne_true
  refine List.Perm.eq_of_pairwise (fun a b ha hb hab hba => ?_) hle (pairwise hkey items)
    (hperm.trans (perm less items).symm)
  exact hinj a (hperm.mem_iff.mp ha) b (mem_iff.mp hb) (le_antisymm hab hba)

/-- Sorting forgets the order of items with distinct keys. -/
theorem eq_of_perm (hkey : ∀ a b, less a b = true ↔ key a < key b) {items items' : List α}
    (hinj : ∀ a ∈ items, ∀ b ∈ items, key a = key b → a = b) (hperm : items.Perm items') :
    sortBy less items = sortBy less items' := by
  refine (unique hkey hinj ((perm less items').trans hperm.symm) ?_).symm
  exact (pairwise hkey items').imp fun h => by rwa [← Bool.not_eq_true, hkey, not_lt]

/-- Sorting commutes with a map that keeps the order. -/
theorem map {β : Type v} {less' : β → β → Bool} (f : α → β) (h : ∀ a b, less' (f a) (f b) = less a b)
    (items : List α) : (sortBy less items).map f = sortBy less' (items.map f) :=
  List.map_insertionSort _ _ f items fun a _ b _ => by rw [h]

end sortBy

/-! ### Pages -/

/-- The items at the positions from `offset` on, at most `limit` of them. -/
def slice {α : Type u} (items : List α) (offset limit : Nat) : List α := (items.drop offset).take limit

namespace slice
variable {α : Type u} {items : List α} {offset limit modulus : Nat}

theorem length_eq : (slice items offset limit).length = min limit (items.length - offset) := by
  rw [slice, List.length_take, List.length_drop]

theorem eq_nil (h : items.length ≤ offset) : slice items offset limit = [] := by
  rw [slice, List.drop_eq_nil_of_le h, List.take_nil]

theorem ne_nil (hpos : 0 < limit) (h : offset < items.length) : slice items offset limit ≠ [] := by
  intro hnil
  have hlen : (slice items offset limit).length = min limit (items.length - offset) := length_eq
  rw [hnil, List.length_nil] at hlen
  omega

/-- Consecutive slices are a front of the list. -/
theorem flatMap_range (items : List α) (limit : Nat) : ∀ pages,
    ((List.range pages).flatMap fun k => slice items (k * limit) limit) = items.take (pages * limit)
  | 0 => by simp
  | pages + 1 => by
    rw [List.range_succ, List.flatMap_append, flatMap_range items limit pages, List.flatMap_singleton, slice,
      Nat.succ_mul, List.take_add]

end slice

/-- The page between two positions clipped to the list, the second of which is a sum modulo `modulus`. -/
def wrappedSlice {α : Type u} (modulus : Nat) (items : List α) (offset limit : Nat) : List α :=
  let first := min offset items.length
  let last := min ((first + limit) % modulus) items.length
  (items.drop first).take (last - first)

namespace wrappedSlice
variable {α : Type u} {items : List α} {offset limit modulus : Nat}

theorem eq_nil (h : items.length ≤ offset) : wrappedSlice modulus items offset limit = [] := by
  rw [wrappedSlice, Nat.min_eq_right h, List.drop_length, List.take_nil]

theorem eq_slice (h : offset + limit < modulus) : wrappedSlice modulus items offset limit = slice items offset limit := by
  rcases le_or_gt items.length offset with hle | hlt
  · rw [eq_nil hle, slice.eq_nil hle]
  · rw [wrappedSlice, Nat.min_eq_left hlt.le, Nat.mod_eq_of_lt h, slice, List.take_eq_take_iff, List.length_drop]
    omega

/-- An end that wraps around comes before the start, which leaves nothing. -/
theorem eq_nil_of_wrap (hlimit : limit < modulus) (hoffset : offset < modulus) (h : modulus ≤ offset + limit) :
    wrappedSlice modulus items offset limit = [] := by
  rcases le_or_gt items.length offset with hle | hlt
  · exact eq_nil hle
  · have hwrap : (offset + limit) % modulus = offset + limit - modulus := by
      rw [Nat.mod_eq_sub_mod h, Nat.mod_eq_of_lt (by omega)]
    rw [wrappedSlice, Nat.min_eq_left hlt.le, hwrap, Nat.sub_eq_zero_of_le (by omega), List.take_zero]

/-- The page is the slice asked for, unless its end wraps around while there are items left. -/
theorem eq_slice_iff (hpos : 0 < limit) (hlimit : limit < modulus) (hoffset : offset < modulus) :
    wrappedSlice modulus items offset limit = slice items offset limit ↔
      items.length ≤ offset ∨ offset + limit < modulus := by
  constructor
  · intro h
    by_contra! hnot
    rw [eq_nil_of_wrap hlimit hoffset hnot.2] at h
    exact slice.ne_nil hpos hnot.1 h.symm
  · rintro (hle | hlt)
    · rw [eq_nil hle, slice.eq_nil hle]
    · exact eq_slice hlt

theorem length_le (hlimit : limit < modulus) (hoffset : offset < modulus) :
    (wrappedSlice modulus items offset limit).length ≤ (slice items offset limit).length := by
  rcases lt_or_ge (offset + limit) modulus with hlt | hge
  · rw [eq_slice hlt]
  · rw [eq_nil_of_wrap hlimit hoffset hge]
    exact Nat.zero_le _

/-- Consecutive pages make up the list, each item once, exactly when each of them is the slice it should be. -/
theorem flatMap_range_eq_iff {pages : Nat} (hlimit : limit < modulus) (hoffset : ∀ k < pages, k * limit < modulus)
    (hall : items.length ≤ pages * limit) :
    ((List.range pages).flatMap fun k => wrappedSlice modulus items (k * limit) limit) = items ↔
      ∀ k < pages, wrappedSlice modulus items (k * limit) limit = slice items (k * limit) limit := by
  have hslices := slice.flatMap_range items limit pages
  rw [List.take_of_length_le hall] at hslices
  constructor
  · intro h k hk
    by_contra hne
    have hless : ((List.range pages).map fun k => (wrappedSlice modulus items (k * limit) limit).length).sum <
        ((List.range pages).map fun k => (slice items (k * limit) limit).length).sum := by
      refine List.sum_lt_sum _ _ (fun j hj => length_le hlimit (hoffset j (List.mem_range.mp hj)))
        ⟨k, List.mem_range.mpr hk, ?_⟩
      rcases lt_or_ge (k * limit + limit) modulus with hlt | hge
      · exact absurd (eq_slice hlt) hne
      · rw [eq_nil_of_wrap hlimit (hoffset k hk) hge] at hne ⊢
        exact List.length_pos_of_ne_nil (Ne.symm hne)
    rw [← List.length_flatMap, ← List.length_flatMap, h, hslices] at hless
    exact lt_irrefl _ hless
  · intro h
    exact (List.flatMap_congr fun k hk => h k (List.mem_range.mp hk)).trans hslices

end wrappedSlice
