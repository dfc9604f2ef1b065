import Mathlib.Data.List.Forall2
import Mathlib.Tactic.Common

/-! Successful outcomes of computations that may fail: what a chain of steps that returned went through. -/

universe u v w

namespace Outcome
variable {ε : Type u} {α β : Type v}

@[simp] theorem ok_bind {a : α} {f : α → Except ε β} : (Except.ok a >>= f) = f a := rfl

@[simp] theorem error_bind {e : ε} {f : α → Except ε β} : (Except.error e >>= f) = .error e := rfl

theorem bind_eq_ok {x : Except ε α} {f : α → Except ε β} {b : β} :
    (x >>= f) = .ok b ↔ ∃ a, x = .ok a ∧ f a = .ok b := by
  cases x with
  | error e => simp
  | ok a => simp

theorem map_eq_ok {x : Except ε α} {f : α → β} {b : β} : x.map f = .ok b ↔ ∃ a, x = .ok a ∧ f a = b := by
  cases x with
  | error e => simp [Except.map]
  | ok a => simp [Except.map]

theorem ite_error_eq_ok {p : Prop} [Decidable p] {e : ε} {x : Except ε α} {a : α} :
    (if p then .error e else x) = .ok a ↔ ¬ p ∧ x = .ok a := by
  by_cases h : p <;> simp [h]

theorem ite_ok_eq_ok {p : Prop} [Decidable p] {e : ε} {a b : α} :
    (if p then .ok a else .error e) = Except.ok b ↔ p ∧ a = b := by
  by_cases h : p <;> simp [h]

theorem ok_of_toOption {x : Except ε α} {a : α} (h : x.toOption = some a) : x = .ok a := by
  cases x with
  | error e => cases h
  | ok b => exact congrArg _ (Option.some.inj h)

/-- A list is read when each of its elements is. -/
theorem mapM_eq_ok_iff {g : α → Except ε β} : ∀ {xs : List α} {ys : List β},
    xs.mapM g = .ok ys ↔ List.Forall₂ (fun x y => g x = .ok y) xs ys
  | [], ys => by
    rw [List.mapM_nil, List.forall₂_nil_left_iff]
    exact ⟨fun h => (Except.ok.inj h).symm, fun h => congrArg _ h.symm⟩
  | x :: xs, ys => by
    rw [List.mapM_cons, List.forall₂_cons_left_iff]
    simp only [bind_eq_ok, mapM_eq_ok_iff]
    constructor
    · rintro ⟨y, hy, zs, hzs, h⟩
      exact ⟨y, zs, hy, hzs, (Except.ok.inj h).symm⟩
    · rintro ⟨y, zs, hy, hzs, rfl⟩
      exact ⟨y, hy, zs, hzs, rfl⟩

theorem exists_mem_of_forall₂ {R : α → β → Prop} {xs : List α} {ys : List β} (h : List.Forall₂ R xs ys) :
    ∀ y ∈ ys, ∃ x ∈ xs, R x y := by
  induction h with
  | nil => exact fun _ hy => absurd hy List.not_mem_nil
  | cons hx hrest ih =>
    rintro y (_ | ⟨_, hy⟩)
    · exact ⟨_, List.mem_cons_self, hx⟩
    · obtain ⟨x, hmem, hxy⟩ := ih y hy
      exact ⟨x, List.mem_cons_of_mem _ hmem, hxy⟩

theorem exists_read_of_mem {R : α → β → Prop} {xs : List α} {ys : List β} (h : List.Forall₂ R xs ys) :
    ∀ x ∈ xs, ∃ y ∈ ys, R x y := exists_mem_of_forall₂ h.flip

theorem exists_of_mapM_eq_ok {g : α → Except ε β} {xs : List α} {ys : List β} (h : xs.mapM g = .ok ys) :
    ∀ y ∈ ys, ∃ x ∈ xs, g x = .ok y := exists_mem_of_forall₂ (mapM_eq_ok_iff.mp h)

/-- A list of written items is read back when each of them is. -/
theorem mapM_map_ok {f : α → β} {g : β → Except ε α} {xs : List α} (h : ∀ a ∈ xs, g (f a) = .ok a) :
    (xs.map f).mapM g = .ok xs := by
  rw [mapM_eq_ok_iff, List.forall₂_map_left_iff, List.forall₂_same]
  exact h

/-- A list of written items is read back item by item. -/
theorem mapM_map_eq_ok {γ : Type v} {f : α → β} {g : β → Except ε γ} {p : α → Prop} {h : α → γ}
    (hg : ∀ a c, g (f a) = .ok c ↔ p a ∧ c = h a) :
    ∀ {xs : List α} {ys : List γ}, (xs.map f).mapM g = .ok ys ↔ (∀ a ∈ xs, p a) ∧ ys = xs.map h
  | [], ys => by
    rw [List.map_nil, List.mapM_nil]
    exact ⟨fun h => ⟨fun _ ha => absurd ha List.not_mem_nil, (Except.ok.inj h).symm⟩, fun h => congrArg _ h.2.symm⟩
  | x :: xs, ys => by
    rw [List.map_cons, List.mapM_cons]
    simp only [bind_eq_ok, hg, mapM_map_eq_ok hg, List.forall_mem_cons, List.map_cons]
    constructor
    · rintro ⟨_, ⟨hx, rfl⟩, _, ⟨hxs, rfl⟩, hys⟩
      exact ⟨⟨hx, hxs⟩, (Except.ok.inj hys).symm⟩
    · rintro ⟨⟨hx, hxs⟩, rfl⟩
      exact ⟨_, ⟨hx, rfl⟩, _, ⟨hxs, rfl⟩, rfl⟩

/-- A loop over written items reads each of them and goes on with what it read. -/
theorem foldlM_map_eq_ok {γ σ : Type v} {f : α → β} {g : β → Except ε γ} {p : α → Prop} {h : α → γ}
    {k : σ → γ → Except ε σ} (hg : ∀ a c, g (f a) = .ok c ↔ p a ∧ c = h a) :
    ∀ {xs : List α} {s t : σ}, (xs.map f).foldlM (fun s b => g b >>= k s) s = .ok t ↔
      (∀ a ∈ xs, p a) ∧ (xs.map h).foldlM k s = .ok t
  | [], s, t => by simp
  | x :: xs, s, t => by
    rw [List.map_cons, List.map_cons, List.foldlM_cons, List.foldlM_cons]
    simp only [bind_eq_ok, hg, foldlM_map_eq_ok hg, List.forall_mem_cons]
    constructor
    · rintro ⟨u, ⟨_, ⟨hx, rfl⟩, hk⟩, hxs, hrest⟩
      exact ⟨⟨hx, hxs⟩, u, hk, hrest⟩
    · rintro ⟨⟨hx, hxs⟩, u, hk, hrest⟩
      exact ⟨u, ⟨_, ⟨hx, rfl⟩, hk⟩, hxs, hrest⟩

/-- An invariant that every successful round keeps. -/
theorem foldlM_invariant {σ : Type v} {step : σ → α → Except ε σ} {I : σ → Prop}
    (hstep : ∀ s a t, I s → step s a = .ok t → I t) : ∀ {xs : List α} {s t : σ}, I s → xs.foldlM step s = .ok t → I t
  | [], s, t, h, hrun => by
    rw [List.foldlM_nil] at hrun
    cases hrun
    exact h
  | x :: xs, s, t, h, hrun => by
    rw [List.foldlM_cons, bind_eq_ok] at hrun
    obtain ⟨u, hu, hrest⟩ := hrun
    exact foldlM_invariant hstep (hstep s x u h hu) hrest

theorem foldlM_ok {σ : Type v} {k : σ → α → σ} : ∀ {xs : List α} {s : σ},
    xs.foldlM (fun s a => (.ok (k s a) : Except ε σ)) s = .ok (xs.foldl k s)
  | [], _ => rfl
  | x :: xs, s => by
    rw [List.foldlM_cons, ok_bind, List.foldl_cons]
    exact foldlM_ok

end Outcome
