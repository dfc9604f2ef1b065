import Mathlib.Data.List.TakeWhile

/-! Codes that a reader can tell apart. A code is separable when the code of a value and the text behind it can be
    told from what they make together. -/

universe u v w

namespace Codes
variable {α : Type u} {β : Type v} {γ : Type w}

/-- The codes of the given values determine the value and the text behind, whenever that text is of a given kind. -/
def SeparableBefore (behind : List γ → Prop) (values : α → Prop) (code : α → List γ) : Prop :=
  ∀ ⦃a b : α⦄ ⦃s t : List γ⦄, values a → values b → behind s → behind t → code a ++ s = code b ++ t → a = b ∧ s = t

/-- The same before any text. -/
def Separable (values : α → Prop) (code : α → List γ) : Prop :=
  ∀ ⦃a b : α⦄ ⦃s t : List γ⦄, values a → values b → code a ++ s = code b ++ t → a = b ∧ s = t

variable {values : α → Prop} {behind : List γ → Prop} {code : α → List γ} {a b : α} {s t : List γ}

theorem Separable.before (h : Separable values code) (behind : List γ → Prop) : SeparableBefore behind values code :=
  fun _ _ _ _ ha hb _ _ heq => h ha hb heq

theorem SeparableBefore.injective (h : SeparableBefore behind values code) (hnil : behind []) (ha : values a)
    (hb : values b) (heq : code a = code b) : a = b :=
  (h ha hb hnil hnil (congrArg (· ++ []) heq)).1

theorem Separable.injective (h : Separable values code) (ha : values a) (hb : values b) (heq : code a = code b) :
    a = b :=
  (h ha hb (congrArg (· ++ []) heq)).1

/-- No code is a proper prefix of another. -/
theorem Separable.eq_of_prefix (h : Separable values code) (ha : values a) (hb : values b)
    (hfront : code a <+: code b) : a = b := by
  obtain ⟨rest, hrest⟩ := hfront
  rw [← List.append_nil (code b)] at hrest
  exact (h ha hb hrest).1

/-- A code of what determines the value. -/
theorem Separable.comp {other : β → Prop} {f : β → α} (h : Separable values code) (hvalues : ∀ b, other b → values (f b))
    (hf : ∀ b c, other b → other c → f b = f c → b = c) : Separable other fun b => code (f b) := by
  intro b c s t hb hc heq
  obtain ⟨hfeq, hst⟩ := h (hvalues b hb) (hvalues c hc) heq
  exact ⟨hf b c hb hc hfeq, hst⟩

/-- Codes of one length are separable when they are distinct. -/
theorem separable_of_length {n : Nat} (hlength : ∀ a, values a → (code a).length = n)
    (hinj : ∀ a b, values a → values b → code a = code b → a = b) : Separable values code := by
  intro a b s t ha hb heq
  obtain ⟨hcode, hst⟩ := List.append_inj heq ((hlength a ha).trans (hlength b hb).symm)
  exact ⟨hinj a b ha hb hcode, hst⟩

/-- What ends at the first symbol of a kind. -/
theorem append_inj_of_stop (stop : γ → Prop) {front front' : List γ} (hfront : ∀ c ∈ front, ¬stop c)
    (hfront' : ∀ c ∈ front', ¬stop c) (hs : ∀ c ∈ s.head?, stop c) (ht : ∀ c ∈ t.head?, stop c)
    (heq : front ++ s = front' ++ t) : front = front' ∧ s = t := by
  induction front generalizing front' with
  | nil =>
    cases front' with
    | nil => exact ⟨rfl, heq⟩
    | cons c rest =>
      rw [List.nil_append, List.cons_append] at heq
      exact absurd (hs c (by rw [heq]; rfl)) (hfront' c List.mem_cons_self)
  | cons c rest ih =>
    cases front' with
    | nil =>
      rw [List.nil_append, List.cons_append] at heq
      exact absurd (ht c (by rw [← heq]; rfl)) (hfront c List.mem_cons_self)
    | cons d rest' =>
      rw [List.cons_append, List.cons_append, List.cons.injEq] at heq
      obtain ⟨rfl, heq⟩ := heq
      obtain ⟨rfl, hst⟩ := ih (fun e he => hfront e (List.mem_cons_of_mem _ he))
        (fun e he => hfront' e (List.mem_cons_of_mem _ he)) heq
      exact ⟨rfl, hst⟩

/-- Codes of as many values one behind the other. -/
theorem Separable.flatMap (h : Separable values code) : ∀ {as bs : List α}, as.length = bs.length →
    (∀ a ∈ as, values a) → (∀ b ∈ bs, values b) → as.flatMap code ++ s = bs.flatMap code ++ t → as = bs ∧ s = t
  | [], [], _, _, _, heq => ⟨rfl, heq⟩
  | a :: as, b :: bs, hlength, has, hbs, heq => by
    rw [List.flatMap_cons, List.flatMap_cons, List.append_assoc, List.append_assoc] at heq
    obtain ⟨hab, hrest⟩ := h (has a List.mem_cons_self) (hbs b List.mem_cons_self) heq
    obtain ⟨hall, hst⟩ := Separable.flatMap h (Nat.succ.inj hlength) (fun c hc => has c (List.mem_cons_of_mem _ hc))
      (fun c hc => hbs c (List.mem_cons_of_mem _ hc)) hrest
    exact ⟨congrArg₂ List.cons hab hall, hst⟩

/-- Codes of any number of values one behind the other, when none is empty. -/
theorem Separable.flatMap_injective (h : Separable values code) (hne : ∀ a, values a → code a ≠ []) :
    ∀ {as bs : List α}, (∀ a ∈ as, values a) → (∀ b ∈ bs, values b) → as.flatMap code = bs.flatMap code → as = bs
  | [], [], _, _, _ => rfl
  | [], b :: _, _, hbs, heq => by
    rw [List.flatMap_nil, List.flatMap_cons, eq_comm, List.append_eq_nil_iff] at heq
    exact absurd heq.1 (hne b (hbs b List.mem_cons_self))
  | a :: _, [], has, _, heq => by
    rw [List.flatMap_nil, List.flatMap_cons, List.append_eq_nil_iff] at heq
    exact absurd heq.1 (hne a (has a List.mem_cons_self))
  | a :: as, b :: bs, has, hbs, heq => by
    rw [List.flatMap_cons, List.flatMap_cons] at heq
    obtain ⟨hab, hrest⟩ := h (has a List.mem_cons_self) (hbs b List.mem_cons_self) heq
    have hall := Separable.flatMap_injective h hne (fun c hc => has c (List.mem_cons_of_mem _ hc))
      (fun c hc => hbs c (List.mem_cons_of_mem _ hc)) hrest
    exact congrArg₂ List.cons hab hall

/-- As many values whose codes are told apart only before some texts, of which every code is the beginning of one. -/
theorem SeparableBefore.flatMap (h : SeparableBefore behind values code)
    (hbegin : ∀ a s, values a → behind (code a ++ s)) (hs : behind s) (ht : behind t) : ∀ {as bs : List α},
    as.length = bs.length → (∀ a ∈ as, values a) → (∀ b ∈ bs, values b) →
      as.flatMap code ++ s = bs.flatMap code ++ t → as = bs ∧ s = t
  | [], [], _, _, _, heq => ⟨rfl, heq⟩
  | a :: as, b :: bs, hlength, has, hbs, heq => by
    have hbehind : ∀ {cs : List α} {u : List γ}, behind u → (∀ c ∈ cs, values c) → behind (cs.flatMap code ++ u) := by
      intro cs u hu hcs
      cases cs with
      | nil => exact hu
      | cons c cs =>
        rw [List.flatMap_cons, List.append_assoc]
        exact hbegin c _ (hcs c List.mem_cons_self)
    rw [List.flatMap_cons, List.flatMap_cons, List.append_assoc, List.append_assoc] at heq
    have has' : ∀ c ∈ as, values c := fun c hc => has c (List.mem_cons_of_mem _ hc)
    have hbs' : ∀ c ∈ bs, values c := fun c hc => hbs c (List.mem_cons_of_mem _ hc)
    obtain ⟨hab, hrest⟩ := h (has a List.mem_cons_self) (hbs b List.mem_cons_self) (hbehind hs has') (hbehind ht hbs') heq
    obtain ⟨hall, hst⟩ := SeparableBefore.flatMap h hbegin hs ht (Nat.succ.inj hlength) has' hbs' hrest
    exact ⟨congrArg₂ List.cons hab hall, hst⟩

/-- A code that is told apart before a symbol, closed by the symbol. -/
theorem SeparableBefore.closed (h : SeparableBefore behind values code) {c : γ} (hc : ∀ s, behind (c :: s)) :
    Separable values fun a => code a ++ [c] := by
  intro a b s t ha hb heq
  simp only [List.append_assoc, List.singleton_append] at heq
  obtain ⟨rfl, hst⟩ := h ha hb (hc s) (hc t) heq
  exact ⟨rfl, List.tail_eq_of_cons_eq hst⟩

/-- One code behind another. -/
theorem Separable.pair {others : β → Prop} {code' : β → List γ} (h : Separable values code)
    (h' : Separable others code') :
    Separable (fun p : α × β => values p.1 ∧ others p.2) fun p => code p.1 ++ code' p.2 := by
  rintro ⟨a, b⟩ ⟨c, d⟩ s t ⟨ha, hb⟩ ⟨hc, hd⟩ heq
  simp only [List.append_assoc] at heq
  obtain ⟨hac, hrest⟩ := h ha hc heq
  obtain ⟨hbd, hst⟩ := h' hb hd hrest
  exact ⟨Prod.ext hac hbd, hst⟩

/-- A list behind the code of its length. -/
theorem Separable.counted {sized : Nat → Prop} {count : Nat → List γ} (hcount : Separable sized count)
    (h : Separable values code) :
    Separable (fun as : List α => sized as.length ∧ ∀ a ∈ as, values a) fun as => count as.length ++ as.flatMap code := by
  intro as bs s t has hbs heq
  simp only [List.append_assoc] at heq
  obtain ⟨hlength, heq⟩ := hcount has.1 hbs.1 heq
  exact h.flatMap hlength has.2 hbs.2 heq

end Codes
