import Mathlib.Data.List.Basic
import Mathlib.Data.List.DropRight
import DriftObservatory.Lib.Run

/-! A log whose entries are numbered from a counter and trimmed at the front: what is retained ascends and stays below
    the counter, and a counter that never goes back hands out no number twice. And what a log holds since an entry that
    ended something. -/

universe u v

namespace Log

/-! ### The retained entries -/

section Retained
variable {α : Type u} {number : α → Nat} {n m k : Nat} {log log' log'' : List α}

/-- The numbers of the log ascend, from 1 on and up to the counter. -/
structure Ordered (number : α → Nat) (n : Nat) (log : List α) : Prop where
  ascending : (log.map number).Pairwise (· < ·)
  positive : ∀ a ∈ log, 0 < number a
  bounded : ∀ a ∈ log, number a ≤ n

/-- From the first counter and log to the second by appending entries under the next numbers and trimming. -/
def Continues (number : α → Nat) (n : Nat) (log : List α) (m : Nat) (log' : List α) : Prop :=
  ∃ added, added.map number = List.range' (n + 1) added.length ∧ m = n + added.length ∧ log' <:+ log ++ added

theorem ordered_nil : Ordered number n [] :=
  ⟨List.Pairwise.nil, fun _ h => absurd h List.not_mem_nil, fun _ h => absurd h List.not_mem_nil⟩

theorem Continues.refl (n : Nat) (log : List α) : Continues number n log n log :=
  ⟨[], rfl, rfl, (List.append_nil log).symm ▸ List.suffix_rfl⟩

theorem Continues.trim (h : log' <:+ log) : Continues number n log n log' := ⟨[], rfl, rfl, by rwa [List.append_nil]⟩

theorem Continues.trans (h : Continues number n log m log') (h' : Continues number m log' k log'') :
    Continues number n log k log'' := by
  obtain ⟨added, hnumbers, rfl, hlog⟩ := h
  obtain ⟨added', hnumbers', rfl, hlog'⟩ := h'
  refine ⟨added ++ added', ?_, ?_, ?_⟩
  · rw [List.map_append, hnumbers, hnumbers', List.length_append, show n + added.length + 1 = n + 1 + added.length by omega,
      List.range'_append_1]
  · rw [List.length_append, Nat.add_assoc]
  · obtain ⟨front, hfront⟩ := hlog
    refine hlog'.trans ⟨front, ?_⟩
    rw [← List.append_assoc, hfront, List.append_assoc]

theorem Continues.le (h : Continues number n log m log') : n ≤ m := by
  obtain ⟨added, -, rfl, -⟩ := h
  exact Nat.le_add_right _ _

theorem Ordered.sublist (h : Ordered number n log) (hsub : log'.Sublist log) : Ordered number n log' :=
  ⟨h.ascending.sublist (hsub.map number), fun a ha => h.positive a (hsub.subset ha),
    fun a ha => h.bounded a (hsub.subset ha)⟩

theorem Ordered.mono (h : Ordered number n log) (hle : n ≤ m) : Ordered number m log :=
  ⟨h.ascending, h.positive, fun a ha => Nat.le_trans (h.bounded a ha) hle⟩

theorem Ordered.continues (h : Ordered number n log) (hc : Continues number n log m log') :
    Ordered number m log' := by
  obtain ⟨added, hnumbers, rfl, hlog⟩ := hc
  have hadded : ∀ a ∈ added, n < number a ∧ number a ≤ n + added.length := fun a ha => by
    have hmem := List.mem_map_of_mem (f := number) ha
    rw [hnumbers, List.mem_range'_1] at hmem
    omega
  have hall : Ordered number (n + added.length) (log ++ added) := by
    refine ⟨?_, fun a ha => ?_, fun a ha => ?_⟩
    · rw [List.map_append, List.pairwise_append, hnumbers]
      refine ⟨h.ascending, List.pairwise_lt_range', fun x hx y hy => ?_⟩
      obtain ⟨a, ha, rfl⟩ := List.mem_map.mp hx
      have hlow := h.bounded a ha
      have hhigh := (List.mem_range'_1.mp hy).1
      omega
    · rcases List.mem_append.mp ha with ha | ha
      · exact h.positive a ha
      · exact Nat.zero_lt_of_lt (hadded a ha).1
    · rcases List.mem_append.mp ha with ha | ha
      · exact Nat.le_trans (h.bounded a ha) (Nat.le_add_right _ _)
      · exact (hadded a ha).2
  exact hall.sublist hlog.sublist

end Retained

/-! ### The numbers of a run -/

section Taken
variable {σ : Type u} {α : Type v} (step : σ → α → σ) (counter : σ → Nat)

/-- The numbers a step takes from the counter. -/
def taken (s : σ) (a : α) : List Nat := List.range' (counter s + 1) (counter (step s a) - counter s)

/-- The numbers the steps of a run take, in order. -/
def takenIn : σ → List α → List Nat
  | _, [] => []
  | s, a :: rest => taken step counter s a ++ takenIn (step s a) rest

variable {step counter}

theorem takenIn_append : ∀ {front : List α} {s : σ} {rest : List α}, takenIn step counter s (front ++ rest) =
    takenIn step counter s front ++ takenIn step counter (Run.exec step s front) rest
  | [], _, _ => rfl
  | a :: front, s, rest => by
    simp only [List.cons_append, takenIn, takenIn_append, Run.exec_cons, List.append_assoc]

/-- A counter that goes forward below a bound hands out the numbers in order as long as it stays below. -/
theorem takenIn_eq {bound : Nat} (hforward : ∀ s a, counter s < bound → counter s ≤ counter (step s a)) :
    ∀ {actions : List α} {s : σ}, counter s + (takenIn step counter s actions).length < bound →
      takenIn step counter s actions = List.range' (counter s + 1) (takenIn step counter s actions).length ∧
        counter (Run.exec step s actions) = counter s + (takenIn step counter s actions).length
  | [], _, _ => ⟨rfl, rfl⟩
  | a :: rest, s, h => by
    simp only [takenIn, taken, List.length_append, List.length_range', Run.exec_cons] at h ⊢
    have hle := hforward s a (by omega)
    obtain ⟨hrest, hend⟩ := @takenIn_eq bound hforward rest (step s a) (by omega)
    refine ⟨?_, by omega⟩
    generalize takenIn step counter (step s a) rest = numbers at hrest hend h
    rw [hrest, List.length_range', show counter (step s a) + 1 = counter s + 1 + (counter (step s a) - counter s) by omega,
      List.range'_append_1]

end Taken

end Log

/-! ### What a log holds since the last entry that ended something, and which of that counts -/

namespace Since
variable {α : Type u} (ends counts : α → Bool) (log : List α)

/-- The entries after the last one that ends. -/
def tail : List α := log.rtakeWhile fun a => !ends a

/-- The entries among them that count. -/
def counted : List α := (tail ends log).filter counts

/-- The entries from the first one that counts on. -/
def span : List α := (tail ends log).dropWhile fun a => !counts a

variable {ends counts log} {a : α}

theorem tail_concat (h : ends a = false) : tail ends (log ++ [a]) = tail ends log ++ [a] :=
  List.rtakeWhile_concat_pos _ _ _ (by rw [h]; rfl)

theorem tail_concat_of_ends (h : ends a = true) : tail ends (log ++ [a]) = [] :=
  List.rtakeWhile_concat_neg _ _ _ (by rw [h]; exact Bool.false_ne_true)

theorem counted_concat (h : ends a = false) :
    counted ends counts (log ++ [a]) = counted ends counts log ++ if counts a then [a] else [] := by
  rw [counted, tail_concat h, List.filter_append, List.filter_singleton, Bool.cond_eq_ite]
  rfl

theorem counted_concat_of_ends (h : ends a = true) : counted ends counts (log ++ [a]) = [] := by
  rw [counted, tail_concat_of_ends h, List.filter_nil]

theorem span_concat_of_ends (h : ends a = true) : span ends counts (log ++ [a]) = [] := by
  rw [span, tail_concat_of_ends h, List.dropWhile_nil]

/-- An entry joins the span if one has counted before, or if it counts. -/
theorem mem_span_concat (h : ends a = false) {b : α} (hb : b ∈ span ends counts (log ++ [a])) :
    b ∈ span ends counts log ∨ b = a ∧ (counted ends counts log ≠ [] ∨ counts a = true) := by
  rw [span, tail_concat h, List.dropWhile_append] at hb
  split_ifs at hb with hnone
  · -- Nothing has counted before.
    rw [List.dropWhile_cons] at hb
    split_ifs at hb with hcounts
    · cases hb
    · exact .inr ⟨List.mem_singleton.mp hb, .inr (by simpa using hcounts)⟩
  · rcases List.mem_append.mp hb with hb | hb
    · exact .inl hb
    · refine .inr ⟨List.mem_singleton.mp hb, .inl fun hempty => hnone ?_⟩
      rw [List.isEmpty_iff, List.dropWhile_eq_nil_iff]
      intro c hc
      rw [Bool.not_eq_true', Bool.eq_false_iff]
      exact fun hcounts => List.filter_eq_nil_iff.mp hempty c hc hcounts

end Since
