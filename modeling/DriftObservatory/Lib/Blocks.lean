import DriftObservatory.Lib.Lists

/-! A compression function chained over the whole blocks of a list, and the same chain as the list arrives in parts. -/

universe u v

namespace Blocks
variable {σ : Type u} {α : Type v} {n : Nat} {compress : σ → List α → σ} {s : σ} {xs ys : List α}

/-- The blocks of length `n` one after the other; what is left over does not count. -/
def chain (n : Nat) (compress : σ → List α → σ) (s : σ) (xs : List α) : σ :=
  (List.range (xs.length / n)).foldl (fun s i => compress s (slice xs (i * n) n)) s

/-- What is left over. -/
def rest (n : Nat) (xs : List α) : List α := xs.drop (xs.length / n * n)

theorem length_rest : (rest n xs).length = xs.length % n := by
  rw [rest, List.length_drop, Nat.mul_comm, ← Nat.mod_eq_sub_mul_div]

theorem length_rest_lt (hn : 0 < n) : (rest n xs).length < n := by
  rw [length_rest]
  exact Nat.mod_lt _ hn

theorem chain_short (h : xs.length < n) : chain n compress s xs = s := by
  rw [chain, Nat.div_eq_of_lt h, List.range_zero, List.foldl_nil]

theorem rest_short (h : xs.length < n) : rest n xs = xs := by
  rw [rest, Nat.div_eq_of_lt h, Nat.zero_mul, List.drop_zero]

section Step
variable (hn : 0 < n) (h : n ≤ xs.length)
include hn h

theorem length_div_step : xs.length / n = (xs.drop n).length / n + 1 := by
  rw [List.length_drop, ← Nat.div_eq_sub_div hn h]

theorem chain_step : chain n compress s xs = chain n compress (compress s (xs.take n)) (xs.drop n) := by
  rw [chain, chain, length_div_step hn h, List.range_succ_eq_map, List.foldl_cons, List.foldl_map, Nat.zero_mul]
  simp only [slice, List.drop_drop, List.drop_zero, Nat.succ_mul, Nat.add_comm n]

theorem rest_step : rest n xs = rest n (xs.drop n) := by
  rw [rest, rest, length_div_step hn h, List.drop_drop, Nat.succ_mul, Nat.add_comm n]

end Step

/-- A chain goes on where the blocks so far end, with what they left over in front. -/
theorem chain_append (hn : 0 < n) (s : σ) (xs ys : List α) :
    chain n compress s (xs ++ ys) = chain n compress (chain n compress s xs) (rest n xs ++ ys) ∧
      rest n (xs ++ ys) = rest n (rest n xs ++ ys) := by
  rcases Nat.lt_or_ge xs.length n with hlt | hge
  · rw [chain_short hlt, rest_short hlt]
    exact ⟨rfl, rfl⟩
  · have happend : n ≤ (xs ++ ys).length := by
      rw [List.length_append]
      omega
    have htake : (xs ++ ys).take n = xs.take n := List.take_append_of_le_length hge
    have hdrop : (xs ++ ys).drop n = xs.drop n ++ ys := List.drop_append_of_le_length hge
    obtain ⟨ihchain, ihrest⟩ := chain_append hn (compress s (xs.take n)) (xs.drop n) ys
    rw [chain_step hn happend, rest_step hn happend, chain_step hn hge, rest_step hn hge, htake, hdrop]
    exact ⟨ihchain, ihrest⟩
termination_by xs.length
decreasing_by
  rw [List.length_drop]
  omega

end Blocks
