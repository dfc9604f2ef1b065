import Mathlib.Order.Basic
import Mathlib.Data.Finset.Card
import Mathlib.Tactic.Common

/-! Finite maps with keys in order: an association list that carries the proof that its keys strictly
    increase. Two maps with the same bindings are equal, and traversal is by ascending key. -/

universe u v w

/-- A finite map from `K` to `V`, listed by strictly ascending key. -/
structure OrdMap (K : Type u) (V : Type v) [LinearOrder K] where
  entries : List (K × V)
  sorted : entries.Pairwise (fun a b => a.1 < b.1)

namespace OrdMap
variable {K : Type u} {V : Type v} {W : Type w} [LinearOrder K]

/-! ### Sorted association lists -/

/-- The value bound to `k`. -/
def lookup (k : K) : List (K × V) → Option V
  | [] => none
  | e :: es => if e.1 = k then some e.2 else lookup k es

/-- Binds `k` to `v`, replacing an earlier binding. -/
def insertEntry (k : K) (v : V) : List (K × V) → List (K × V)
  | [] => [(k, v)]
  | e :: es =>
    if k < e.1 then (k, v) :: e :: es
    else if e.1 = k then (k, v) :: es
    else e :: insertEntry k v es

theorem lookup_eq_none_of_lt {k : K} {es : List (K × V)} (h : ∀ e ∈ es, k < e.1) : lookup k es = none := by
  induction es with
  | nil => rfl
  | cons e es ih =>
    have hne : e.1 ≠ k := (h e List.mem_cons_self).ne'
    simp only [lookup, hne, if_false]
    exact ih fun e' he' => h e' (List.mem_cons_of_mem _ he')

theorem mem_of_lookup {k : K} {v : V} {es : List (K × V)} (h : lookup k es = some v) : (k, v) ∈ es := by
  induction es with
  | nil => cases h
  | cons e es ih =>
    by_cases hk : e.1 = k
    · simp only [lookup, hk, if_true, Option.some.injEq] at h
      exact List.mem_cons.mpr (Or.inl (Prod.ext hk.symm h.symm))
    · simp only [lookup, hk, if_false] at h
      exact List.mem_cons_of_mem _ (ih h)

theorem lookup_of_mem {es : List (K × V)} (hs : es.Pairwise (fun a b => a.1 < b.1)) {k : K} {v : V}
    (h : (k, v) ∈ es) : lookup k es = some v := by
  induction es with
  | nil => cases h
  | cons e es ih =>
    rw [List.pairwise_cons] at hs
    rcases List.mem_cons.mp h with rfl | h'
    · simp [lookup]
    · have hne : e.1 ≠ k := (hs.1 _ h').ne
      simp only [lookup, hne, if_false]
      exact ih hs.2 h'

theorem lookup_insertEntry (k k' : K) (v : V) (es : List (K × V)) :
    lookup k' (insertEntry k v es) = if k = k' then some v else lookup k' es := by
  induction es with
  | nil => simp [insertEntry, lookup]
  | cons e es ih =>
    by_cases hlt : k < e.1
    · simp only [insertEntry, hlt, if_true, lookup]
    · by_cases heq : e.1 = k
      · subst heq
        simp only [insertEntry, lt_irrefl, if_false, if_true, lookup]
        by_cases hk : e.1 = k' <;> simp [hk]
      · simp only [insertEntry, hlt, heq, if_false, lookup, ih]
        by_cases hk : e.1 = k'
        · have hne : k ≠ k' := fun h => heq (hk.trans h.symm)
          simp [hk, hne]
        · simp [hk]

theorem mem_insertEntry {k : K} {v : V} {es : List (K × V)} {e : K × V} (h : e ∈ insertEntry k v es) :
    e = (k, v) ∨ e ∈ es := by
  induction es with
  | nil => exact Or.inl (List.mem_singleton.mp h)
  | cons d es ih =>
    simp only [insertEntry] at h
    split_ifs at h
    · rcases List.mem_cons.mp h with h | h
      · exact Or.inl h
      · exact Or.inr h
    · rcases List.mem_cons.mp h with h | h
      · exact Or.inl h
      · exact Or.inr (List.mem_cons_of_mem _ h)
    · rcases List.mem_cons.mp h with h | h
      · exact Or.inr (List.mem_cons.mpr (Or.inl h))
      · exact (ih h).imp_right (List.mem_cons_of_mem _)

theorem sorted_insertEntry {k : K} {v : V} {es : List (K × V)} (hs : es.Pairwise (fun a b => a.1 < b.1)) :
    (insertEntry k v es).Pairwise (fun a b => a.1 < b.1) := by
  induction es with
  | nil => simp [insertEntry]
  | cons d es ih =>
    rw [List.pairwise_cons] at hs
    simp only [insertEntry]
    split_ifs with hlt heq
    · refine List.pairwise_cons.mpr ⟨fun e he => ?_, List.pairwise_cons.mpr hs⟩
      rcases List.mem_cons.mp he with rfl | he
      · exact hlt
      · exact hlt.trans (hs.1 e he)
    · subst heq
      exact List.pairwise_cons.mpr hs
    · refine List.pairwise_cons.mpr ⟨fun e he => ?_, ih hs.2⟩
      rcases mem_insertEntry he with rfl | he
      · exact lt_of_le_of_ne (not_lt.mp hlt) heq
      · exact hs.1 e he

/-! ### The map operations -/

/-- The map with no binding. -/
def empty : OrdMap K V := ⟨[], List.Pairwise.nil⟩

instance : EmptyCollection (OrdMap K V) := ⟨empty⟩
instance : Inhabited (OrdMap K V) := ⟨empty⟩

/-- The value bound to `k`. -/
def find? (m : OrdMap K V) (k : K) : Option V := lookup k m.entries

/-- Whether `k` is bound. -/
def contains (m : OrdMap K V) (k : K) : Bool := (m.find? k).isSome

/-- The keys in ascending order. -/
def keys (m : OrdMap K V) : List K := m.entries.map Prod.fst

/-- The values by ascending key. -/
def values (m : OrdMap K V) : List V := m.entries.map Prod.snd

/-- The number of bindings. -/
def size (m : OrdMap K V) : Nat := m.entries.length

/-- Binds `k` to `v`, replacing an earlier binding. -/
def insert (m : OrdMap K V) (k : K) (v : V) : OrdMap K V := ⟨insertEntry k v m.entries, sorted_insertEntry m.sorted⟩

/-- Binds `k` to `v` unless it is bound already. -/
def emplace (m : OrdMap K V) (k : K) (v : V) : OrdMap K V := if m.contains k then m else m.insert k v

/-- Keeps the bindings that satisfy `p`. -/
def filter (m : OrdMap K V) (p : K → V → Bool) : OrdMap K V :=
  ⟨m.entries.filter fun e => p e.1 e.2, m.sorted.filter _⟩

/-- Removes the binding of `k`. -/
def erase (m : OrdMap K V) (k : K) : OrdMap K V := m.filter fun k' _ => decide (k' ≠ k)

/-- Updates every value in place. -/
def mapValues (m : OrdMap K V) (f : K → V → W) : OrdMap K W :=
  ⟨m.entries.map fun e => (e.1, f e.1 e.2), by
    rw [List.pairwise_map]
    exact m.sorted⟩

/-- Updates the value of `k`, if there is one. -/
def modify (m : OrdMap K V) (k : K) (f : V → V) : OrdMap K V :=
  m.mapValues fun k' v => if k' = k then f v else v

/-- The map that binds each listed key to its last listed value. -/
def ofList (es : List (K × V)) : OrdMap K V := es.foldl (fun m e => m.insert e.1 e.2) empty

/-- The map that binds each listed key to its first listed value. -/
def emplaceAll (es : List (K × V)) : OrdMap K V := es.foldl (fun m e => m.emplace e.1 e.2) empty

instance [DecidableEq V] : DecidableEq (OrdMap K V) := fun a b =>
  decidable_of_iff (a.entries = b.entries) (by cases a; cases b; simp)

/-! ### Lookup after each operation -/

section Lookup
variable {m m' : OrdMap K V} {k k' : K} {v : V}

theorem mem_entries_iff : (k, v) ∈ m.entries ↔ m.find? k = some v :=
  ⟨lookup_of_mem m.sorted, mem_of_lookup⟩

@[simp] theorem find?_empty : (empty : OrdMap K V).find? k = none := rfl

@[simp] theorem find?_emptyCollection : (∅ : OrdMap K V).find? k = none := rfl

theorem find?_insert : (m.insert k v).find? k' = if k = k' then some v else m.find? k' :=
  lookup_insertEntry k k' v m.entries

@[simp] theorem find?_insert_self : (m.insert k v).find? k = some v := by rw [find?_insert, if_pos rfl]

theorem find?_insert_of_ne (h : k ≠ k') : (m.insert k v).find? k' = m.find? k' := by
  rw [find?_insert, if_neg h]

theorem find?_ofList_singleton : (ofList [(k, v)]).find? k' = if k = k' then some v else none := find?_insert

theorem find?_filter {p : K → V → Bool} : (m.filter p).find? k = (m.find? k).filter (p k) := by
  apply Option.ext
  intro v
  rw [← mem_entries_iff, Option.filter_eq_some_iff, ← mem_entries_iff]
  exact List.mem_filter

theorem find?_erase : (m.erase k).find? k' = if k = k' then none else m.find? k' := by
  rw [erase, find?_filter]
  by_cases h : k = k'
  · subst h
    cases m.find? k <;> simp
  · cases hf : m.find? k' <;> simp [h, Ne.symm h]

@[simp] theorem find?_erase_self : (m.erase k).find? k = none := by rw [find?_erase, if_pos rfl]

@[simp] theorem find?_mapValues {f : K → V → W} : (m.mapValues f).find? k = (m.find? k).map (f k) := by
  show lookup k (m.entries.map fun e => (e.1, f e.1 e.2)) = (lookup k m.entries).map (f k)
  induction m.entries with
  | nil => rfl
  | cons e es ih =>
    by_cases hk : e.1 = k
    · subst hk
      simp [lookup]
    · simp only [List.map_cons, lookup, hk, if_false]
      exact ih

theorem keys_mapValues {f : K → V → W} : (m.mapValues f).keys = m.keys := by
  rw [keys, mapValues, List.map_map]
  rfl

theorem values_mapValues {f : V → W} : (m.mapValues fun _ v => f v).values = m.values.map f := by
  rw [values, values, List.map_map]
  exact List.map_map

theorem find?_modify {f : V → V} :
    (m.modify k f).find? k' = if k' = k then (m.find? k').map f else m.find? k' := by
  rw [modify, find?_mapValues]
  by_cases h : k' = k <;> simp [h]

theorem contains_iff : m.contains k = true ↔ ∃ v, m.find? k = some v := Option.isSome_iff_exists

theorem contains_eq_false_iff : m.contains k = false ↔ m.find? k = none := by
  rw [contains, Option.isSome_eq_false_iff, Option.isNone_iff_eq_none]

theorem contains_insert : (m.insert k v).contains k' = true ↔ k = k' ∨ m.contains k' = true := by
  rw [contains, contains, find?_insert]
  split_ifs with h <;> simp [h]

@[simp] theorem mem_keys : k ∈ m.keys ↔ m.contains k = true := by
  rw [contains_iff, keys, List.mem_map]
  refine ⟨fun ⟨e, he, hk⟩ => ⟨e.2, mem_entries_iff.mp ?_⟩, fun ⟨v, hv⟩ => ⟨(k, v), mem_entries_iff.mpr hv, rfl⟩⟩
  rw [← hk]
  exact he

theorem mem_values : v ∈ m.values ↔ ∃ k, m.find? k = some v := by
  rw [values, List.mem_map]
  refine ⟨fun ⟨e, he, hv⟩ => ⟨e.1, mem_entries_iff.mp ?_⟩, fun ⟨k, hk⟩ => ⟨(k, v), mem_entries_iff.mpr hk, rfl⟩⟩
  rw [← hv]
  exact he

@[simp] theorem length_values : m.values.length = m.size := List.length_map _

/-- Maps with the same bindings are equal. -/
theorem ext_find? (h : ∀ k, m.find? k = m'.find? k) : m = m' := by
  have hmem : ∀ e, e ∈ m.entries ↔ e ∈ m'.entries := fun e => by
    rw [show e = (e.1, e.2) from rfl, mem_entries_iff, mem_entries_iff, h]
  have hperm : m.entries.Perm m'.entries :=
    (List.perm_ext_iff_of_nodup (m.sorted.imp fun h e => absurd (e ▸ h) (lt_irrefl _))
      (m'.sorted.imp fun h e => absurd (e ▸ h) (lt_irrefl _))).mpr hmem
  have heq := hperm.eq_of_pairwise (fun _ _ _ _ h₁ h₂ => absurd h₁ h₂.asymm) m.sorted m'.sorted
  cases m
  cases m'
  simpa using heq

/-- A key above all others is added at the end. -/
theorem entries_insert_last (h : ∀ e ∈ m.entries, e.1 < k) : (m.insert k v).entries = m.entries ++ [(k, v)] := by
  show insertEntry k v m.entries = m.entries ++ [(k, v)]
  revert h
  induction m.entries with
  | nil => exact fun _ => rfl
  | cons e es ih =>
    intro h
    have he := h e List.mem_cons_self
    rw [insertEntry, if_neg he.asymm, if_neg he.ne, ih fun d hd => h d (List.mem_cons_of_mem e hd), List.cons_append]

theorem size_insert : (m.insert k v).size = if m.contains k then m.size else m.size + 1 := by
  have hlength : ∀ es : List (K × V), es.Pairwise (fun a b => a.1 < b.1) →
      (insertEntry k v es).length = if (lookup k es).isSome then es.length else es.length + 1 := by
    intro es hs
    induction es with
    | nil => rfl
    | cons e es ih =>
      rw [List.pairwise_cons] at hs
      by_cases hlt : k < e.1
      · have hnone : lookup k (e :: es) = none := lookup_eq_none_of_lt fun d hd => by
          rcases List.mem_cons.mp hd with rfl | hd
          · exact hlt
          · exact hlt.trans (hs.1 d hd)
        simp [insertEntry, hlt, hnone]
      · by_cases heq : e.1 = k
        · simp [insertEntry, lookup, heq]
        · simp only [insertEntry, lookup, hlt, heq, if_false, List.length_cons, ih hs.2]
          split_ifs <;> rfl
  exact hlength m.entries m.sorted

theorem size_le_insert : m.size ≤ (m.insert k v).size := by
  rw [size_insert]
  split_ifs <;> omega

/-! ### Counting values -/

/-- A binding adds its value to the count and takes away the value it replaces. -/
theorem countP_values_insert (p : V → Bool) : (m.insert k v).values.countP p + ((m.find? k).any p).toNat =
    m.values.countP p + (p v).toNat := by
  have hcount : ∀ es : List (K × V), es.Pairwise (fun a b => a.1 < b.1) →
      ((insertEntry k v es).map Prod.snd).countP p + ((lookup k es).any p).toNat =
        (es.map Prod.snd).countP p + (p v).toNat := by
    intro es hs
    induction es with
    | nil => cases hv : p v <;> simp [insertEntry, lookup, hv]
    | cons e es ih =>
      rw [List.pairwise_cons] at hs
      by_cases hlt : k < e.1
      · have hnone : lookup k (e :: es) = none := lookup_eq_none_of_lt fun d hd => by
          rcases List.mem_cons.mp hd with rfl | hd
          · exact hlt
          · exact hlt.trans (hs.1 d hd)
        cases hv : p v <;> simp [insertEntry, hlt, hnone, hv, List.countP_cons]
      · by_cases heq : e.1 = k
        · cases hv : p v <;> cases he : p e.2 <;> simp [insertEntry, lookup, heq, hv, he]
        · have hrest := ih hs.2
          simp only [insertEntry, lookup, hlt, heq, if_false, List.map_cons, List.countP_cons] at hrest ⊢
          omega
  exact hcount m.entries m.sorted

theorem countP_values_eq (p : V → Bool) : m.values.countP p = (m.filter fun _ v => p v).keys.length := by
  rw [values, List.countP_map, List.countP_eq_length_filter, keys, List.length_map]
  rfl

theorem mem_keys_filter {p : V → Bool} : k ∈ (m.filter fun _ v => p v).keys ↔ (m.find? k).any p = true := by
  rw [mem_keys, contains, find?_filter]
  cases m.find? k <;> simp

/-- The count depends on which keys have a value that counts. -/
theorem countP_values_congr {n : OrdMap K W} {p : V → Bool} {q : W → Bool}
    (h : ∀ k, (m.find? k).any p = (n.find? k).any q) : m.values.countP p = n.values.countP q := by
  rw [countP_values_eq, countP_values_eq]
  refine List.Perm.length_eq ((List.perm_ext_iff_of_nodup ?_ ?_).mpr fun k => by
    rw [mem_keys_filter, mem_keys_filter, h])
  · exact (List.pairwise_map.mpr (m.filter fun _ v => p v).sorted).imp ne_of_lt
  · exact (List.pairwise_map.mpr (n.filter fun _ v => q v).sorted).imp ne_of_lt

/-- A loop that binds keys in ascending order lists its bindings in the order of the loop. -/
theorem entries_foldl_insert {α : Type w} (key : α → K) (value : α → V) : ∀ {xs : List α} {m : OrdMap K V},
    xs.Pairwise (fun a b => key a < key b) → (∀ e ∈ m.entries, ∀ x ∈ xs, e.1 < key x) →
      (xs.foldl (fun m x => m.insert (key x) (value x)) m).entries =
        m.entries ++ xs.map fun x => (key x, value x)
  | [], _, _, _ => (List.append_nil _).symm
  | x :: xs, m, hs, hm => by
    rw [List.pairwise_cons] at hs
    have hlast := @entries_insert_last _ _ _ m (key x) (value x) fun e he => hm e he x List.mem_cons_self
    rw [List.foldl_cons, entries_foldl_insert key value hs.2, hlast, List.append_assoc, List.map_cons,
      List.singleton_append]
    intro e he y hy
    rw [hlast] at he
    rcases List.mem_append.mp he with he | he
    · exact hm e he y (List.mem_cons_of_mem x hy)
    · rw [List.mem_singleton.mp he]
      exact hs.1 y hy

theorem values_foldl_insert {key : V → K} {xs : List V} (hs : xs.Pairwise fun a b => key a < key b) :
    (xs.foldl (fun m x => m.insert (key x) x) (∅ : OrdMap K V)).values = xs := by
  rw [values, entries_foldl_insert key (fun x => x) hs fun e he => absurd he List.not_mem_nil, List.map_append,
    List.map_map]
  exact List.map_id xs

/-- What a loop over values binds is one of the values, under its key, or was there before. -/
theorem find?_foldl_insert {key : V → K} {xs : List V} {v : V}
    (h : (xs.foldl (fun m x => m.insert (key x) x) m).find? k = some v) : (v ∈ xs ∧ key v = k) ∨ m.find? k = some v := by
  induction xs generalizing m with
  | nil => exact .inr h
  | cons x xs ih =>
    rcases ih h with ⟨hmem, hkey⟩ | hfind
    · exact .inl ⟨List.mem_cons_of_mem x hmem, hkey⟩
    · rw [find?_insert] at hfind
      split_ifs at hfind with hkey
      · obtain rfl := Option.some.inj hfind
        exact .inl ⟨List.mem_cons_self, hkey⟩
      · exact .inr hfind

/-- The values of a map whose keys are read off the values ascend. -/
theorem pairwise_values {key : V → K} (h : ∀ k v, m.find? k = some v → key v = k) :
    m.values.Pairwise fun a b => key a < key b := by
  refine List.pairwise_map.mpr (m.sorted.imp_of_mem fun {a b} ha hb hlt => ?_)
  rwa [h a.1 a.2 (mem_entries_iff.mp ha), h b.1 b.2 (mem_entries_iff.mp hb)]

end Lookup

/-- A loop that binds one key a round, and is refused when a new key finds the map full, ends within the bound. -/
theorem foldlM_bounded {σ : Type u} {α : Type v} {ε : Type w} (step : σ → α → Except ε σ) (next : σ → α → σ)
    (view : σ → OrdMap K V) (key : α → K) (bound : Nat) (I : σ → Prop) (p : α → Prop)
    (hstep : ∀ s a t, I s → (step s a = .ok t ↔
      ¬ (bound ≤ (view s).size ∧ (view s).contains (key a) = false) ∧ p a ∧ t = next s a))
    (hview : ∀ s a, ∃ v, view (next s a) = (view s).insert (key a) v) (hinv : ∀ s a, I s → I (next s a)) :
    ∀ (xs : List α) {s t : σ}, I s → (view s).size ≤ bound → (xs.foldlM step s = .ok t ↔
      (view (xs.foldl next s)).size ≤ bound ∧ (∀ a ∈ xs, p a) ∧ t = xs.foldl next s)
  | [], s, t, _, hsize => by
    rw [List.foldlM_nil, List.foldl_nil]
    exact ⟨fun h => ⟨hsize, fun _ ha => absurd ha List.not_mem_nil, (Except.ok.inj h).symm⟩,
      fun h => congrArg _ h.2.2.symm⟩
  | x :: xs, s, t, hI, hsize => by
    have hgrows : ∀ (ys : List α) (u : σ), (view u).size ≤ (view (ys.foldl next u)).size := by
      intro ys
      induction ys with
      | nil => exact fun u => Nat.le_refl _
      | cons y ys ih =>
        intro u
        obtain ⟨v, hv⟩ := hview u y
        exact (hv ▸ size_le_insert).trans (ih (next u y))
    obtain ⟨v, hv⟩ := hview s x
    have hroom : (view (next s x)).size ≤ bound ↔ ¬ (bound ≤ (view s).size ∧ (view s).contains (key x) = false) := by
      rw [hv, size_insert]
      cases (view s).contains (key x) with
      | false =>
        simp only [Bool.false_eq_true, if_false, and_true]
        omega
      | true =>
        simp only [if_true, Bool.true_eq_false, and_false, not_false_eq_true, iff_true]
        omega
    rw [List.foldlM_cons, List.foldl_cons, List.forall_mem_cons]
    constructor
    · intro h
      rcases hx : step s x with e | u
      · rw [hx] at h
        cases h
      · obtain ⟨hfit, hpx, rfl⟩ := (hstep s x u hI).mp hx
        rw [hx] at h
        obtain ⟨hrest, hps, ht⟩ :=
          (foldlM_bounded step next view key bound I p hstep hview hinv xs (hinv s x hI) (hroom.mpr hfit)).mp h
        exact ⟨hrest, ⟨hpx, hps⟩, ht⟩
    · rintro ⟨hrest, ⟨hpx, hps⟩, ht⟩
      have hfit := hroom.mp ((hgrows xs (next s x)).trans hrest)
      rw [(hstep s x _ hI).mpr ⟨hfit, hpx, rfl⟩]
      exact (foldlM_bounded step next view key bound I p hstep hview hinv xs (hinv s x hI) (hroom.mpr hfit)).mpr ⟨hrest, hps, ht⟩

theorem nodup_keys (m : OrdMap K V) : m.keys.Nodup :=
  (List.pairwise_map.mpr m.sorted).imp ne_of_lt

theorem nodup_entries (m : OrdMap K V) : m.entries.Nodup := m.nodup_keys.of_map _

/-- A new binding stands somewhere among the others. -/
theorem perm_entries_insert {m : OrdMap K V} {k : K} {v : V} (h : m.contains k = false) :
    (m.insert k v).entries.Perm ((k, v) :: m.entries) := by
  have hnone := contains_eq_false_iff.mp h
  have hnew : (k, v) ∉ m.entries := fun hmem => by
    rw [mem_entries_iff, hnone] at hmem
    cases hmem
  refine (List.perm_ext_iff_of_nodup (nodup_entries _) (List.nodup_cons.mpr ⟨hnew, nodup_entries m⟩)).mpr ?_
  rintro ⟨k', v'⟩
  rw [mem_entries_iff, find?_insert, List.mem_cons, mem_entries_iff, Prod.mk.injEq]
  by_cases hk : k = k'
  · subst hk
    simp [hnone, eq_comm]
  · simp [hk, Ne.symm hk]

/-- A map made of distinct keys holds what was listed. -/
theorem perm_entries_foldl_insert_of_nodup : ∀ {es : List (K × V)} {m : OrdMap K V}, (es.map Prod.fst).Nodup →
    (∀ e ∈ es, m.contains e.1 = false) → (es.foldl (fun m e => m.insert e.1 e.2) m).entries.Perm (es ++ m.entries)
  | [], m, _, _ => .refl _
  | e :: es, m, hnodup, hnew => by
    rw [List.map_cons, List.nodup_cons] at hnodup
    have hrest : ∀ d ∈ es, (m.insert e.1 e.2).contains d.1 = false := by
      intro d hd
      rw [← Bool.not_eq_true, contains_insert, not_or, Bool.not_eq_true]
      exact ⟨fun heq => hnodup.1 (heq ▸ List.mem_map_of_mem hd), hnew d (List.mem_cons_of_mem e hd)⟩
    have hfold := perm_entries_foldl_insert_of_nodup hnodup.2 hrest
    have hfirst := (perm_entries_insert (v := e.2) (hnew e List.mem_cons_self)).append_left es
    exact hfold.trans (hfirst.trans List.perm_middle)

/-- A map that has no keys but those of another one and listed ones is larger by the listed ones that are new at most. -/
theorem size_le_add_countP {m m' : OrdMap K V} {ks : List K}
    (h : ∀ k, m'.contains k = true → m.contains k = true ∨ k ∈ ks) :
    m'.size ≤ m.size + ks.countP fun k => !m.contains k := by
  have hsub : m'.keys ⊆ m.keys ++ ks.filter fun k => !m.contains k := by
    intro k hk
    rw [List.mem_append, mem_keys, List.mem_filter]
    cases hm : m.contains k with
    | true => exact .inl rfl
    | false =>
      refine .inr ⟨(h k (mem_keys.mp hk)).resolve_left (by simp [hm]), ?_⟩
      rfl
  have hlength := (m'.nodup_keys.subperm hsub).length_le
  rw [List.length_append] at hlength
  simp only [keys, List.length_map] at hlength
  rw [List.countP_eq_length_filter]
  exact hlength

/-- What is made of the entries of a map is told apart by the keys, and within an entry by itself. -/
theorem pairwise_flatMap_entries {m : OrdMap K V} {β : Type*} {f : K × V → List β} {R : β → β → Prop} (tag : β → K)
    (htag : ∀ e ∈ m.entries, ∀ b ∈ f e, tag b = e.1) (hR : ∀ b b', tag b ≠ tag b' → R b b')
    (hf : ∀ e ∈ m.entries, (f e).Pairwise R) : (m.entries.flatMap f).Pairwise R := by
  refine List.pairwise_flatMap.mpr ⟨hf, m.sorted.imp_of_mem fun ha hb hlt b hmem b' hmem' => hR b b' ?_⟩
  rw [htag _ ha b hmem, htag _ hb b' hmem']
  exact hlt.ne

/-- A map that has the keys of another one and listed ones is larger by the listed ones that are new. -/
theorem size_eq_add_countP {m m' : OrdMap K V} {ks : List K} (hks : ks.Nodup)
    (h : ∀ k, m'.contains k = true ↔ m.contains k = true ∨ k ∈ ks) :
    m'.size = m.size + ks.countP fun k => !m.contains k := by
  have hnodup : (m.keys ++ ks.filter fun k => !m.contains k).Nodup := by
    refine List.nodup_append.mpr ⟨m.nodup_keys, hks.filter _, fun k hk k' hk' heq => ?_⟩
    have hnew := (List.mem_filter.mp hk').2
    rw [← heq, mem_keys.mp hk] at hnew
    cases hnew
  have hperm : m'.keys.Perm (m.keys ++ ks.filter fun k => !m.contains k) := by
    refine (List.perm_ext_iff_of_nodup m'.nodup_keys hnodup).mpr fun k => ?_
    rw [mem_keys, h, List.mem_append, mem_keys, List.mem_filter]
    cases m.contains k <;> simp
  have hlength := hperm.length_eq
  rw [List.length_append, ← List.countP_eq_length_filter] at hlength
  simp only [keys, List.length_map] at hlength
  exact hlength

theorem size_eq_card [DecidableEq K] (m : OrdMap K V) : m.size = m.keys.toFinset.card := by
  rw [List.toFinset_card_of_nodup m.nodup_keys]
  exact (List.length_map _).symm

/-! ### Listed bindings, the first of each key kept -/

section EmplaceAll
variable {K : Type u} {V : Type v} [LinearOrder K] {es : List (K × V)} {k : K} {v : V}

theorem find?_emplace {m : OrdMap K V} {k' : K} :
    (m.emplace k v).find? k' = (m.find? k').or (if k = k' then some v else none) := by
  rw [emplace]
  by_cases hk : k = k'
  · subst hk
    cases hfind : m.find? k <;> simp [contains, hfind]
  · by_cases hin : m.contains k = true
    · simp [hin, hk]
    · simp [hin, hk, find?_insert_of_ne hk]

theorem find?_foldl_emplace : ∀ (es : List (K × V)) {m : OrdMap K V},
    (es.foldl (fun m e => m.emplace e.1 e.2) m).find? k =
      (m.find? k).or ((es.find? fun e => decide (e.1 = k)).map Prod.snd)
  | [], m => by simp
  | e :: es, m => by
    rw [List.foldl_cons, find?_foldl_emplace es, find?_emplace, Option.or_assoc]
    by_cases he : e.1 = k <;> simp [he]

/-- The first binding of a key is the one that stays. -/
theorem find?_emplaceAll : (emplaceAll es).find? k = (es.find? fun e => decide (e.1 = k)).map Prod.snd := by
  rw [emplaceAll, find?_foldl_emplace]
  rfl

theorem mem_of_find?_emplaceAll (h : (emplaceAll es).find? k = some v) : (k, v) ∈ es := by
  rw [find?_emplaceAll, Option.map_eq_some_iff] at h
  obtain ⟨⟨k', v'⟩, hfind, rfl⟩ := h
  have hk := List.find?_some hfind
  simp only [decide_eq_true_eq] at hk
  exact hk ▸ List.mem_of_find?_eq_some hfind

theorem contains_emplaceAll : (emplaceAll es).contains k = true ↔ k ∈ es.map Prod.fst := by
  rw [contains, find?_emplaceAll, Option.isSome_map, List.find?_isSome]
  simp

theorem find?_emplaceAll_of_mem (hnodup : (es.map Prod.fst).Nodup) (h : (k, v) ∈ es) :
    (emplaceAll es).find? k = some v := by
  obtain ⟨w, hw⟩ := contains_iff.mp (contains_emplaceAll.mpr (List.mem_map_of_mem h))
  have hkey := List.inj_on_of_nodup_map hnodup (mem_of_find?_emplaceAll hw) h rfl
  rw [hw, (Prod.mk.inj hkey).2]

theorem emplaceAll_entries (m : OrdMap K V) : emplaceAll m.entries = m := by
  refine ext_find? fun k => ?_
  cases hfind : m.find? k with
  | none =>
    rw [← contains_eq_false_iff, ← Bool.not_eq_true, contains_emplaceAll]
    intro hk
    have hin := contains_iff.mp (mem_keys.mp hk)
    rw [hfind] at hin
    obtain ⟨v, hv⟩ := hin
    cases hv
  | some v => exact find?_emplaceAll_of_mem m.nodup_keys (mem_entries_iff.mpr hfind)

theorem keys_emplaceAll_toFinset : (emplaceAll es).keys.toFinset = (es.map Prod.fst).toFinset := by
  ext k
  rw [List.mem_toFinset, List.mem_toFinset, mem_keys, contains_emplaceAll]

theorem size_emplaceAll_le : (emplaceAll es).size ≤ es.length := by
  have h := List.toFinset_card_le (es.map Prod.fst)
  rwa [← keys_emplaceAll_toFinset, ← size_eq_card, List.length_map] at h

/-- No binding is dropped exactly when no key is listed twice. -/
theorem size_emplaceAll_eq_iff : (emplaceAll es).size = es.length ↔ (es.map Prod.fst).Nodup := by
  have h := Multiset.toFinset_card_eq_card_iff_nodup (m := ((es.map Prod.fst : List K) : Multiset K))
  rw [Multiset.coe_nodup, Multiset.coe_card, List.length_map] at h
  rw [← h, size_eq_card, keys_emplaceAll_toFinset]
  rfl

end EmplaceAll

end OrdMap
