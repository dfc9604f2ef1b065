import Mathlib.Tactic.Common

/-! Runs of a deterministic step function: the rule of invariants for them, loops over distinct keys, and the simulation
    rule for runs whose silent actions are left out. -/

universe u v

namespace Run
variable {σ : Type u} {α : Type v} (step : σ → α → σ)

/-- The state after a list of actions. -/
def exec (s : σ) (actions : List α) : σ := actions.foldl step s

/-- Every action of the run is permitted in the state in which it is taken. -/
def Permits (permitted : σ → α → Prop) : σ → List α → Prop
  | _, [] => True
  | s, a :: rest => permitted s a ∧ Permits permitted (step s a) rest

instance decidablePermits (permitted : σ → α → Prop) [∀ s a, Decidable (permitted s a)] :
    ∀ (s : σ) (actions : List α), Decidable (Permits step permitted s actions)
  | _, [] => .isTrue trivial
  | s, a :: rest =>
    have := decidablePermits permitted (step s a) rest
    inferInstanceAs (Decidable (permitted s a ∧ Permits step permitted (step s a) rest))

variable {step} {permitted : σ → α → Prop}

@[simp] theorem exec_nil {s : σ} : exec step s [] = s := rfl

@[simp] theorem exec_cons {s : σ} {a : α} {rest : List α} : exec step s (a :: rest) = exec step (step s a) rest := rfl

theorem exec_append {s : σ} {front rest : List α} : exec step s (front ++ rest) = exec step (exec step s front) rest :=
  List.foldl_append

theorem permits_append : ∀ {front : List α} {s : σ} {rest : List α},
    Permits step permitted s (front ++ rest) ↔
      Permits step permitted s front ∧ Permits step permitted (exec step s front) rest
  | [], _, _ => by simp [Permits]
  | a :: front, s, rest => by
    simp only [List.cons_append, Permits, exec_cons, permits_append, and_assoc]

/-- An invariant that every permitted step keeps holds at the end of every permitted run. -/
theorem invariant {I : σ → Prop} (hstep : ∀ s a, I s → permitted s a → I (step s a)) {actions : List α} {s : σ}
    (h : I s) (hp : Permits step permitted s actions) : I (exec step s actions) := by
  induction actions generalizing s with
  | nil => exact h
  | cons a rest ih => exact ih (hstep s a h hp.1) hp.2

/-- An invariant that every step keeps. -/
theorem always {I : σ → Prop} (hstep : ∀ s a, I s → I (step s a)) {actions : List α} {s : σ} (h : I s) :
    I (exec step s actions) := by
  induction actions generalizing s with
  | nil => exact h
  | cons a rest ih => exact ih (hstep s a h)

theorem permits_of_mem : ∀ {actions : List α} {s : σ}, (∀ a ∈ actions, ∀ s, permitted s a) →
    Permits step permitted s actions
  | [], _, _ => trivial
  | a :: _, s, h => ⟨h a List.mem_cons_self s, permits_of_mem fun b hb => h b (List.mem_cons_of_mem a hb)⟩

/-- What is permitted wherever an invariant of all steps holds. -/
theorem permits_of_kept {I : σ → Prop} (hkeep : ∀ s a, I s → I (step s a)) : ∀ {actions : List α} {s : σ}, I s →
    (∀ a ∈ actions, ∀ s, I s → permitted s a) → Permits step permitted s actions
  | [], _, _, _ => trivial
  | a :: _, s, hs, h =>
    ⟨h a List.mem_cons_self s hs, permits_of_kept hkeep (hkeep s a hs) fun b hb => h b (List.mem_cons_of_mem a hb)⟩

theorem Permits.and {permitted' : σ → α → Prop} : ∀ {actions : List α} {s : σ}, Permits step permitted s actions →
    Permits step permitted' s actions → Permits step (fun s a => permitted s a ∧ permitted' s a) s actions
  | [], _, _, _ => trivial
  | _ :: _, _, h, h' => ⟨⟨h.1, h'.1⟩, h.2.and h'.2⟩

theorem Permits.imp {permitted' : σ → α → Prop} (himp : ∀ s a, permitted s a → permitted' s a) :
    ∀ {actions : List α} {s : σ}, Permits step permitted s actions → Permits step permitted' s actions
  | [], _, _ => trivial
  | _ :: _, _, h => ⟨himp _ _ h.1, h.2.imp himp⟩

/-! ### What a run emits -/

section Outputs
universe w
variable {γ : Type w}

/-- What the steps of a run emit, in order. -/
def outputs (step : σ → α → σ) (emit : σ → α → Option γ) : σ → List α → List γ
  | _, [] => []
  | s, a :: rest => (emit s a).toList ++ outputs step emit (step s a) rest

variable {emit : σ → α → Option γ}

theorem outputs_append : ∀ {front : List α} {s : σ} {rest : List α},
    outputs step emit s (front ++ rest) = outputs step emit s front ++ outputs step emit (exec step s front) rest
  | [], _, _ => rfl
  | a :: front, s, rest => by
    simp only [List.cons_append, outputs, outputs_append, exec_cons, List.append_assoc]

/-- An invariant between the state and what has been emitted so far. -/
theorem invariant_outputs {I : σ → List γ → Prop}
    (hstep : ∀ s a out, I s out → permitted s a → I (step s a) (out ++ (emit s a).toList)) {actions : List α} {s : σ}
    {out : List γ} (h : I s out) (hp : Permits step permitted s actions) :
    I (exec step s actions) (out ++ outputs step emit s actions) := by
  induction actions generalizing s out with
  | nil => simpa [outputs] using h
  | cons a rest ih =>
    have hrest := ih (hstep s a out h hp.1) hp.2
    rwa [List.append_assoc] at hrest

/-- A condition on all that a run emits is one on what each of its steps emits. -/
theorem permits_of_outputs {Q : γ → Prop} : ∀ {actions : List α} {s : σ}, (∀ x ∈ outputs step emit s actions, Q x) →
    Permits step (fun s a => ∀ x, emit s a = some x → Q x) s actions
  | [], _, _ => trivial
  | a :: rest, s, h => by
    refine ⟨fun x hx => h x (List.mem_append_left _ ?_), permits_of_outputs fun x hx => h x (List.mem_append_right _ hx)⟩
    rw [hx]
    exact List.mem_cons_self

end Outputs

/-! ### Loops over distinct keys

    A loop whose rounds each update the part of the state under their own key. What a round reads of the rest of the
    state is an invariant of the loop. -/

section Pointwise
universe w x y
variable {ι : Type v} {κ : Type w} {β : Type x} {γ : Type y} {round : σ → ι → σ} {key : ι → κ} {part : σ → κ → β}
  {I : σ → Prop} {next : ι → β → β} {items : List ι}

/-- Each round updates its own part, and the parts without a round stay. -/
theorem exec_part (hinv : ∀ s, ∀ i ∈ items, I s → I (round s i))
    (hself : ∀ s, ∀ i ∈ items, I s → part (round s i) (key i) = next i (part s (key i)))
    (hother : ∀ s i k, key i ≠ k → part (round s i) k = part s k) {s : σ} (h : I s)
    (hd : (items.map key).Nodup) :
    (∀ i ∈ items, part (exec round s items) (key i) = next i (part s (key i))) ∧
      ∀ k, k ∉ items.map key → part (exec round s items) k = part s k := by
  induction items generalizing s with
  | nil => exact ⟨fun i hi => absurd hi List.not_mem_nil, fun _ _ => rfl⟩
  | cons i rest ih =>
    rw [List.map_cons, List.nodup_cons] at hd
    have hi : i ∈ i :: rest := List.mem_cons_self
    obtain ⟨hin, hout⟩ := ih (fun s j hj => hinv s j (List.mem_cons_of_mem i hj))
      (fun s j hj => hself s j (List.mem_cons_of_mem i hj)) (hinv s i hi h) hd.2
    refine ⟨fun j hj => ?_, fun k hk => ?_⟩
    · rcases List.mem_cons.mp hj with rfl | hj
      · rw [exec_cons, hout _ hd.1, hself s j hi h]
      · have hne : key i ≠ key j := fun heq => hd.1 (heq ▸ List.mem_map_of_mem hj)
        rw [exec_cons, hin j hj, hother s i _ hne]
    · rw [List.map_cons, List.mem_cons, not_or] at hk
      rw [exec_cons, hout k hk.2, hother s i k (Ne.symm hk.1)]

/-- What the rounds append, each from its own part of the initial state. -/
theorem exec_output {out : σ → List γ} {emit : ι → β → List γ} (hinv : ∀ s, ∀ i ∈ items, I s → I (round s i))
    (hout : ∀ s, ∀ i ∈ items, I s → out (round s i) = out s ++ emit i (part s (key i)))
    (hother : ∀ s i k, key i ≠ k → part (round s i) k = part s k) {s : σ} (h : I s)
    (hd : (items.map key).Nodup) :
    out (exec round s items) = out s ++ items.flatMap fun i => emit i (part s (key i)) := by
  induction items generalizing s with
  | nil => exact (List.append_nil _).symm
  | cons i rest ih =>
    rw [List.map_cons, List.nodup_cons] at hd
    have hi : i ∈ i :: rest := List.mem_cons_self
    rw [exec_cons, ih (fun s j hj => hinv s j (List.mem_cons_of_mem i hj))
      (fun s j hj => hout s j (List.mem_cons_of_mem i hj)) (hinv s i hi h) hd.2, hout s i hi h,
      List.flatMap_cons, List.append_assoc]
    have hrest : rest.map (fun j => emit j (part (round s i) (key j))) =
        rest.map fun j => emit j (part s (key j)) := List.map_congr_left fun j hj => by
      have hne : key i ≠ key j := fun heq => hd.1 (heq ▸ List.mem_map_of_mem hj)
      rw [hother s i _ hne]
    rw [List.flatMap_def, List.flatMap_def, hrest]

end Pointwise

/-! ### Runs with their silent actions left out -/

section Audible
universe w
variable {γ : Type w} {silent : σ → α → Bool} {emit : σ → α → Option γ} {R : σ → σ → Prop}

/-- The actions of a run that are not silent where they are taken. -/
def audible (step : σ → α → σ) (silent : σ → α → Bool) : σ → List α → List α
  | _, [] => []
  | s, a :: rest =>
    if silent s a then audible step silent (step s a) rest else a :: audible step silent (step s a) rest

/-- A relation that silent actions keep on one side, and all others on both, holds of the run and what is audible of
    it. -/
theorem audible_related (hsilent : ∀ s t a, R s t → silent s a = true → R (step s a) t)
    (hstep : ∀ s t a, R s t → R (step s a) (step t a)) : ∀ {actions : List α} {s t : σ}, R s t →
      R (exec step s actions) (exec step t (audible step silent s actions))
  | [], _, _, h => h
  | a :: rest, s, t, h => by
    rw [audible]
    split_ifs with ha
    · exact audible_related hsilent hstep (hsilent s t a h ha)
    · exact audible_related hsilent hstep (hstep s t a h)

/-- Silent actions emit nothing, so the outputs of the audible ones are those of the run. -/
theorem outputs_audible {δ : Type*} {f : γ → δ} (hsilent : ∀ s t a, R s t → silent s a = true → R (step s a) t)
    (hstep : ∀ s t a, R s t → R (step s a) (step t a)) (hnone : ∀ s a, silent s a = true → emit s a = none)
    (hemit : ∀ s t a, R s t → (emit s a).map f = (emit t a).map f) : ∀ {actions : List α} {s t : σ}, R s t →
      (outputs step emit s actions).map f = (outputs step emit t (audible step silent s actions)).map f
  | [], _, _, _ => rfl
  | a :: rest, s, t, h => by
    rw [audible]
    split_ifs with ha
    · rw [outputs, hnone s a ha, Option.toList_none, List.nil_append]
      exact outputs_audible hsilent hstep hnone hemit (hsilent s t a h ha)
    · rw [outputs, outputs, List.map_append, List.map_append,
        outputs_audible hsilent hstep hnone hemit (hstep s t a h)]
      refine congrArg (· ++ _) ?_
      have hboth := congrArg Option.toList (hemit s t a h)
      rw [Option.toList_map, Option.toList_map] at hboth
      exact hboth

end Audible

end Run
