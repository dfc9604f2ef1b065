import Mathlib.Data.List.Basic
import Mathlib.Tactic.Common

/-! A stream that arrives in pieces, with interruptions in between. One read takes at most the next piece; a loop of
    reads for a number of elements sees the elements and the interruptions, but not where the pieces were cut. -/

universe u v

namespace Pieces
variable {α : Type u} {ε : Type v}

/-- What a reader meets next. A piece is not empty: a read without elements is the end of the stream. -/
inductive Arrival (α : Type u) (ε : Type v)
  | piece (elements : List α) (nonempty : elements ≠ [])
  | interruption (cause : ε)

/-- The elements and the interruptions one by one. -/
abbrev Tape (α : Type u) (ε : Type v) := List (α ⊕ ε)

/-- A stream without its cuts. -/
def flatten : List (Arrival α ε) → Tape α ε
  | [] => []
  | .piece elements _ :: rest => elements.map .inl ++ flatten rest
  | .interruption cause :: rest => .inr cause :: flatten rest

theorem ne_nil_drop {n : Nat} {elements : List α} (h : n < elements.length) : elements.drop n ≠ [] :=
  fun hnil => Nat.not_le.mpr h (List.drop_eq_nil_iff.mp hnil)

/-- One read of at most `n` elements. At the end of the stream it returns none. -/
def readSome (n : Nat) : List (Arrival α ε) → Except ε (List α) × List (Arrival α ε)
  | [] => (.ok [], [])
  | .interruption cause :: rest => (.error cause, rest)
  | .piece elements _ :: rest =>
    if h : n < elements.length then
      (.ok (elements.take n), .piece (elements.drop n) (ne_nil_drop h) :: rest)
    else (.ok elements, rest)

/-- Reads until `n` more elements are there, behind those that are filled in, `cap + 1` at most at a time. The error
    `none` is an early end. -/
def readLoop (cap n : Nat) (filled : List α) (s : List (Arrival α ε)) :
    Except (Option ε) (List α) × List (Arrival α ε) :=
  match n with
  | 0 => (.ok filled, s)
  | n + 1 =>
    match readSome (min n cap + 1) s with
    | (.error cause, rest) => (.error (some cause), rest)
    | (.ok [], rest) => (.error none, rest)
    | (.ok (a :: got), rest) => readLoop cap (n + 1 - (got.length + 1)) (filled ++ a :: got) rest
termination_by n

/-- The first `n` elements of a tape. -/
def takeExact : Nat → Tape α ε → Except (Option ε) (List α) × Tape α ε
  | 0, tape => (.ok [], tape)
  | _ + 1, [] => (.error none, [])
  | _ + 1, .inr cause :: rest => (.error (some cause), rest)
  | n + 1, .inl a :: rest => ((takeExact n rest).1.map (a :: ·), (takeExact n rest).2)

/-- The elements up to the end or the first interruption. -/
def front : Tape α ε → List α
  | .inl a :: rest => a :: front rest
  | _ => []

/-! ### Tapes -/

section Tapes
variable {n : Nat} {xs : List α} {tape rest : Tape α ε}

@[simp] theorem front_append : ∀ {xs : List α}, front (xs.map Sum.inl ++ tape) = xs ++ front tape
  | [] => rfl
  | a :: _ => congrArg (a :: ·) front_append

theorem takeExact_append : ∀ {xs : List α}, takeExact xs.length (xs.map Sum.inl ++ tape) = (.ok xs, tape)
  | [] => by rw [List.length_nil, takeExact, List.map_nil, List.nil_append]
  | a :: xs => by
    rw [List.length_cons, List.map_cons, List.cons_append, takeExact, takeExact_append]
    rfl

theorem takeExact_add (m : Nat) : ∀ {xs : List α}, takeExact (xs.length + m) (xs.map Sum.inl ++ tape) =
    ((takeExact m tape).1.map (xs ++ ·), (takeExact m tape).2)
  | [] => by
    rw [List.length_nil, Nat.zero_add, List.map_nil, List.nil_append]
    cases hresult : takeExact m tape with
    | mk result rest => cases result <;> rfl
  | a :: xs => by
    rw [List.length_cons, Nat.add_right_comm, List.map_cons, List.cons_append, takeExact, takeExact_add m]
    cases (takeExact m tape).1 <;> rfl

/-- What was taken stood at the front. -/
theorem takeExact_eq_ok : ∀ {n : Nat} {tape : Tape α ε},
    takeExact n tape = (.ok xs, rest) ↔ xs.length = n ∧ tape = xs.map .inl ++ rest := by
  intro n tape
  constructor
  · intro h
    induction n generalizing tape xs with
    | zero =>
      rw [takeExact, Prod.mk.injEq, Except.ok.injEq] at h
      obtain ⟨rfl, rfl⟩ := h
      exact ⟨rfl, rfl⟩
    | succ n ih =>
      match tape with
      | [] => cases h
      | .inr cause :: tape => cases h
      | .inl a :: tape =>
        rw [takeExact, Prod.mk.injEq] at h
        obtain ⟨hresult, hrest⟩ := h
        rcases htail : (takeExact n tape).1 with cause | ys
        · rw [htail] at hresult
          cases hresult
        · rw [htail] at hresult
          cases hresult
          obtain ⟨hlength, heq⟩ := ih (Prod.ext htail hrest)
          exact ⟨congrArg (· + 1) hlength, congrArg (Sum.inl a :: ·) heq⟩
  · rintro ⟨rfl, rfl⟩
    exact takeExact_append

/-- Too few elements before the end. -/
theorem takeExact_short : ∀ {xs : List α} {n : Nat}, xs.length < n → takeExact n (xs.map Sum.inl : Tape α ε) =
    (.error none, [])
  | [], n + 1, _ => rfl
  | a :: xs, n + 1, h => by
    rw [List.map_cons, takeExact, takeExact_short (Nat.lt_of_succ_lt_succ h)]
    rfl

end Tapes

/-! ### Reads -/

section Reads
variable {cap n : Nat} {filled : List α} {s : List (Arrival α ε)}

theorem flatten_piece {elements : List α} {nonempty : elements ≠ []} :
    flatten (.piece elements nonempty :: s) = elements.map .inl ++ flatten s := rfl

@[simp] theorem flatten_append : ∀ {s s' : List (Arrival α ε)}, flatten (s ++ s') = flatten s ++ flatten s'
  | [], _ => rfl
  | .piece elements nonempty :: s, s' => by
    rw [List.cons_append, flatten_piece, flatten_piece, flatten_append, List.append_assoc]
  | .interruption cause :: s, s' => congrArg (Sum.inr cause :: ·) (flatten_append (s := s))

theorem flatten_eq_nil : ∀ {s : List (Arrival α ε)}, flatten s = [] ↔ s = []
  | [] => ⟨fun _ => rfl, fun _ => rfl⟩
  | .piece [] nonempty :: _ => absurd rfl nonempty
  | .piece (_ :: _) _ :: _ => ⟨fun h => (by cases h), fun h => (by cases h)⟩
  | .interruption _ :: _ => ⟨fun h => (by cases h), fun h => (by cases h)⟩

/-- One read takes from the front, and takes something unless the stream has ended. -/
theorem readSome_cases (n : Nat) (s : List (Arrival α ε)) :
    (s = [] ∧ readSome (n + 1) s = (.ok [], [])) ∨
    (∃ cause rest, s = .interruption cause :: rest ∧ readSome (n + 1) s = (.error cause, rest)) ∨
    ∃ a got rest, readSome (n + 1) s = (.ok (a :: got), rest) ∧ got.length ≤ n ∧
      flatten s = (a :: got).map .inl ++ flatten rest := by
  match s with
  | [] => exact .inl ⟨rfl, rfl⟩
  | .interruption cause :: rest => exact .inr (.inl ⟨cause, rest, rfl, rfl⟩)
  | .piece [] nonempty :: rest => exact absurd rfl nonempty
  | .piece (a :: elements) nonempty :: rest =>
    refine .inr (.inr ?_)
    by_cases h : n + 1 < (a :: elements).length
    · refine ⟨a, elements.take n, .piece ((a :: elements).drop (n + 1)) (ne_nil_drop h) :: rest, ?_, List.length_take_le _ _, ?_⟩
      · rw [readSome, dif_pos h]
        rfl
      · rw [flatten_piece, flatten_piece, ← List.append_assoc, ← List.map_append, List.drop_succ_cons, List.cons_append,
          List.take_append_drop]
    · refine ⟨a, elements, rest, ?_, by simpa using h, flatten_piece⟩
      rw [readSome, dif_neg h]

@[simp] theorem readLoop_zero : readLoop cap 0 filled s = (.ok filled, s) := by rw [readLoop]

/-- A loop goes on behind its first read. -/
theorem readLoop_of_some {a : α} {got : List α} {rest : List (Arrival α ε)}
    (h : readSome (min n cap + 1) s = (.ok (a :: got), rest)) :
    readLoop cap (n + 1) filled s = readLoop cap (n + 1 - (got.length + 1)) (filled ++ a :: got) rest := by
  rw [readLoop, h]

/-- **A loop of reads does not see the cuts**: it takes from the tape what a read of single elements takes. -/
theorem readLoop_flatten : (readLoop cap n filled s).1 = (takeExact n (flatten s)).1.map (filled ++ ·) ∧
    flatten (readLoop cap n filled s).2 = (takeExact n (flatten s)).2 := by
  induction n using Nat.strongRecOn generalizing filled s with
  | ind n ih =>
    cases n with
    | zero =>
      rw [readLoop, takeExact]
      exact ⟨congrArg Except.ok (List.append_nil filled).symm, rfl⟩
    | succ n =>
      rw [readLoop]
      rcases readSome_cases (min n cap) s with ⟨rfl, hread⟩ | ⟨cause, rest, rfl, hread⟩ | ⟨a, got, rest, hread, hgot, hflat⟩
      · rw [hread]
        exact ⟨rfl, rfl⟩
      · rw [hread]
        exact ⟨rfl, rfl⟩
      · rw [hread, hflat]
        dsimp only
        have hsplit : n + 1 = (a :: got).length + (n + 1 - (got.length + 1)) := by
          have hcap := Nat.min_le_left n cap
          rw [List.length_cons]
          omega
        obtain ⟨hresult, hrest⟩ := @ih (n + 1 - (got.length + 1)) (by omega) (filled ++ a :: got) rest
        have htape := @takeExact_add _ _ (flatten rest) (n + 1 - (got.length + 1)) (a :: got)
        rw [← hsplit] at htape
        rw [htape, hresult, hrest]
        refine ⟨?_, rfl⟩
        cases (takeExact (n + 1 - (got.length + 1)) (flatten rest)).1 with
        | error cause => rfl
        | ok xs => exact congrArg Except.ok (List.append_assoc _ _ _)

end Reads

end Pieces
