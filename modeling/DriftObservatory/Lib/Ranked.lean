import Mathlib.Algebra.Order.Ring.Int
import Mathlib.Data.List.Induction
import Mathlib.Data.List.Perm.Basic

/-! A loop over ranked rules. A rule that applies to the value so far replaces it, unless a rule of a higher rank has. The
    order of rules of different ranks does not matter as long as no rule reacts to what rules of lower ranks do. -/

universe u v

namespace Ranked
variable {R : Type u} {S : Type v} (rank : R → Nat) (applies : R → S → Bool) (value : R → S)

/-! ### The loop -/

/-- One round: the value so far and the best rank so far, which starts below every rank. -/
def step (acc : S × Int) (r : R) : S × Int := if applies r acc.1 && acc.2 ≤ (rank r : Int) then (value r, rank r) else acc

def run (start : S) (rules : List R) : S × Int := rules.foldl (step rank applies value) (start, -1)

/-- The rules of one rank, in their order. -/
def ofRank (k : Nat) (rules : List R) : List R := rules.filter fun r => rank r = k

/-- The loop without ranks. -/
def alone (start : S) (rules : List R) : S := rules.foldl (fun s r => if applies r s then value r else s) start

/-- No rule applies. -/
def Silent (s : S) (rules : List R) : Prop := ∀ r ∈ rules, applies r s = false

/-- The same rules in an order that agrees on the rules of each rank. -/
structure Reorders (rules' rules : List R) : Prop where
  perm : rules'.Perm rules
  ofRank : ∀ k, ofRank rank k rules' = ofRank rank k rules

/-- No rule, behind rules of its rank that do not apply to the start, tells from the start what rules of a lower rank
    make of it. -/
def Uncontested (start : S) (rules : List R) : Prop :=
  ∀ k pre r post, ofRank rank k rules = pre ++ r :: post → Silent applies start pre → ∀ lower < k, ∀ front,
    front <+: ofRank rank lower rules → applies r (alone applies value start front) = applies r start

/-- Wherever a rule stands in a reordering, unless outranked there, it applies or not. -/
def AppliesAlike (start : S) (rules : List R) : Prop :=
  ∀ front r back front' back', Reorders rank (front ++ r :: back) rules → Reorders rank (front' ++ r :: back') rules →
    ofRank rank (rank r) front = ofRank rank (rank r) front' → (run rank applies value start front).2 ≤ rank r →
      (run rank applies value start front').2 ≤ rank r →
        applies r (run rank applies value start front).1 = applies r (run rank applies value start front').1

variable {rank applies value} {start : S} {rules rules' front back pre : List R} {r : R} {k : Nat} {acc : S × Int}

theorem run_append : run rank applies value start (front ++ back) =
    back.foldl (step rank applies value) (run rank applies value start front) := List.foldl_append

theorem run_concat : run rank applies value start (front ++ [r]) =
    step rank applies value (run rank applies value start front) r := run_append

theorem alone_concat : alone applies value start (front ++ [r]) =
    if applies r (alone applies value start front) then value r else alone applies value start front := by
  rw [alone, List.foldl_append]
  rfl

theorem Silent.append (h : Silent applies start front) (h' : Silent applies start back) :
    Silent applies start (front ++ back) := fun r hr => (List.mem_append.mp hr).elim (h r) (h' r)

theorem Silent.ofRank (h : Silent applies start rules) (k : Nat) : Silent applies start (ofRank rank k rules) :=
  fun r hr => h r (List.mem_filter.mp hr).1

theorem alone_of_silent (h : Silent applies start rules) : alone applies value start rules = start := by
  induction rules with
  | nil => rfl
  | cons r rest ih =>
    rw [alone, List.foldl_cons, h r List.mem_cons_self, if_neg Bool.false_ne_true]
    exact ih fun x hx => h x (List.mem_cons_of_mem _ hx)

theorem foldl_of_silent (h : Silent applies acc.1 rules) : rules.foldl (step rank applies value) acc = acc := by
  induction rules with
  | nil => rfl
  | cons r rest ih =>
    rw [List.foldl_cons, step, h r List.mem_cons_self, Bool.false_and, if_neg Bool.false_ne_true]
    exact ih fun x hx => h x (List.mem_cons_of_mem _ hx)

/-! ### The rules of a rank -/

theorem mem_ofRank : r ∈ ofRank rank k rules ↔ r ∈ rules ∧ rank r = k := by
  rw [ofRank, List.mem_filter, decide_eq_true_eq]

theorem ofRank_append : ofRank rank k (front ++ back) = ofRank rank k front ++ ofRank rank k back :=
  List.filter_append _ _

theorem ofRank_concat_self : ofRank rank (rank r) (front ++ [r]) = ofRank rank (rank r) front ++ [r] := by
  rw [ofRank_append]
  simp [ofRank]

theorem ofRank_concat_of_ne (front : List R) (h : rank r ≠ k) : ofRank rank k (front ++ [r]) = ofRank rank k front := by
  rw [ofRank_append]
  simp [ofRank, h]

theorem ofRank_of_rank (h : ∀ r ∈ rules, rank r = k) : ofRank rank k rules = rules :=
  List.filter_eq_self.mpr fun r hr => decide_eq_true (h r hr)

theorem ofRank_of_ne {j : Nat} (h : ∀ r ∈ rules, rank r = k) (hne : j ≠ k) : ofRank rank j rules = [] :=
  List.filter_eq_nil_iff.mpr fun r hr hj => hne ((of_decide_eq_true hj).symm.trans (h r hr))

theorem ofRank_filter_none {p : R → Bool} (h : ∀ x, rank x = k → p x = false) : ofRank rank k (rules.filter p) = [] := by
  refine List.filter_eq_nil_iff.mpr fun x hx hk => ?_
  exact Bool.false_ne_true ((h x (of_decide_eq_true hk)).symm.trans (List.mem_filter.mp hx).2)

theorem ofRank_filter_all {p : R → Bool} (h : ∀ x, rank x = k → p x = true) :
    ofRank rank k (rules.filter p) = ofRank rank k rules := by
  rw [ofRank, List.filter_filter]
  refine List.filter_congr fun x _ => ?_
  by_cases hx : rank x = k <;> simp [hx, h]

theorem ofRank_prefix (h : front <+: rules) : ofRank rank k front <+: ofRank rank k rules := by
  obtain ⟨rest, rfl⟩ := h
  exact ⟨ofRank rank k rest, ofRank_append.symm⟩

theorem reorders_of_ofRank (h : ∀ k, ofRank rank k rules' = ofRank rank k rules) : Reorders rank rules' rules := by
  classical
  refine ⟨List.perm_iff_count.mpr fun r => ?_, h⟩
  have hcount : ∀ rs : List R, (ofRank rank (rank r) rs).count r = rs.count r := fun rs =>
    List.count_filter (decide_eq_true rfl)
  rw [← hcount, h, hcount]

/-! ### What decides -/

/-- The outcome of a run: the start when no rule applies to it, and else what the rules of the highest rank with a rule
    that applies to the start make of it on their own. -/
inductive Decides (rank : R → Nat) (applies : R → S → Bool) (value : R → S) (start : S) (rules : List R) :
    S × Int → Prop
  | silent (hsilent : Silent applies start rules) : Decides rank applies value start rules (start, -1)
  | ranked (k : Nat) (hloud : ¬Silent applies start (ofRank rank k rules))
      (habove : ∀ r ∈ rules, k < rank r → applies r start = false) :
      Decides rank applies value start rules (alone applies value start (ofRank rank k rules), k)

theorem Decides.unique {acc' : S × Int} (h : Decides rank applies value start rules acc)
    (h' : Decides rank applies value start rules' acc') (heq : ∀ k, Ranked.ofRank rank k rules' = Ranked.ofRank rank k rules) :
    acc = acc' := by
  have hbelow : ∀ {as bs : List R} {j k : Nat}, (∀ k, Ranked.ofRank rank k as = Ranked.ofRank rank k bs) →
      ¬Silent applies start (Ranked.ofRank rank j as) → (∀ r ∈ bs, k < rank r → applies r start = false) → j ≤ k := by
    intro as bs j k hsame hloud habove
    by_contra hlt
    refine hloud fun r hr => ?_
    rw [hsame] at hr
    obtain ⟨hmem, hrank⟩ := mem_ofRank.mp hr
    exact habove r hmem (by omega)
  cases h with
  | silent hsilent =>
    cases h' with
    | silent => rfl
    | ranked k hloud => exact absurd (heq k ▸ hsilent.ofRank k) hloud
  | ranked k hloud habove =>
    cases h' with
    | silent hsilent => exact absurd (heq k ▸ hsilent.ofRank k) hloud
    | ranked j hloud' habove' =>
      have hkj : k = j := le_antisymm (hbelow (fun i => (heq i).symm) hloud habove') (hbelow heq hloud' habove)
      rw [hkj, heq]

theorem above_concat (habove : ∀ x ∈ rules, k < rank x → applies x start = false)
    (hr : k < rank r → applies r start = false) : ∀ x ∈ rules ++ [r], k < rank x → applies x start = false := by
  intro x hx hlt
  rcases List.mem_append.mp hx with hx | hx
  · exact habove x hx hlt
  · cases List.mem_singleton.mp hx
    exact hr hlt

/-- One round: rules of the best rank go on as on their own, and a rule of a higher rank meets the value of lower ones. -/
theorem Decides.step (h : Decides rank applies value start rules acc)
    (hmeets : Silent applies start (Ranked.ofRank rank (rank r) rules) → ∀ lower < rank r,
      applies r (alone applies value start (Ranked.ofRank rank lower rules)) = applies r start) :
    Decides rank applies value start (rules ++ [r]) (Ranked.step rank applies value acc r) := by
  have htakes : Silent applies start (Ranked.ofRank rank (rank r) rules) → applies r start = true →
      (∀ x ∈ rules, rank r < rank x → applies x start = false) →
        Decides rank applies value start (rules ++ [r]) (value r, (rank r : Int)) := by
    intro hsilent hr habove
    have hvalue : value r = alone applies value start (Ranked.ofRank rank (rank r) (rules ++ [r])) := by
      rw [ofRank_concat_self, alone_concat, alone_of_silent hsilent, if_pos hr]
    rw [hvalue]
    refine .ranked (rank r) (fun hall => ?_) (above_concat habove fun hlt => absurd hlt (lt_irrefl _))
    rw [ofRank_concat_self] at hall
    exact Bool.false_ne_true ((hall r (List.mem_append_right _ List.mem_cons_self)).symm.trans hr)
  cases h with
  | silent hsilent =>
    rw [Ranked.step]
    cases hr : applies r start with
    | true =>
      rw [Bool.true_and, if_pos (decide_eq_true (by omega))]
      exact htakes (hsilent.ofRank _) hr fun x hx _ => hsilent x hx
    | false =>
      rw [Bool.false_and, if_neg Bool.false_ne_true]
      exact .silent (hsilent.append fun x hx => List.mem_singleton.mp hx ▸ hr)
  | ranked k hloud habove =>
    rw [Ranked.step]
    rcases lt_trichotomy (rank r) k with hlt | heq | hgt
    · -- outranked
      rw [if_neg (by simp; omega), ← ofRank_concat_of_ne rules hlt.ne]
      exact .ranked k (by rwa [ofRank_concat_of_ne _ hlt.ne]) (above_concat habove fun hgt => absurd hlt hgt.not_gt)
    · -- the rank goes on
      subst heq
      have hgoes : (if applies r (alone applies value start (Ranked.ofRank rank (rank r) rules)) &&
          decide ((rank r : Int) ≤ rank r) then (value r, (rank r : Int))
          else (alone applies value start (Ranked.ofRank rank (rank r) rules), (rank r : Int))) =
          (alone applies value start (Ranked.ofRank rank (rank r) (rules ++ [r])), (rank r : Int)) := by
        rw [ofRank_concat_self, alone_concat]
        simp only [le_refl, decide_true, Bool.and_true]
        split_ifs <;> rfl
      rw [hgoes]
      refine .ranked (rank r) (fun hall => hloud fun x hx => hall x ?_)
        (above_concat habove fun hlt => absurd hlt (lt_irrefl _))
      rw [ofRank_concat_self]
      exact List.mem_append_left _ hx
    · -- a rule of a higher rank meets what the best rank has made of the start
      have hsilent : Silent applies start (Ranked.ofRank rank (rank r) rules) := by
        intro x hx
        obtain ⟨hmem, hrank⟩ := mem_ofRank.mp hx
        exact habove x hmem (hrank ▸ hgt)
      rw [hmeets hsilent k hgt]
      cases hr : applies r start with
      | true =>
        rw [Bool.true_and, if_pos (decide_eq_true (by omega))]
        exact htakes hsilent hr fun x hx hlt => habove x hx (hgt.trans hlt)
      | false =>
        rw [Bool.false_and, if_neg Bool.false_ne_true, ← ofRank_concat_of_ne rules hgt.ne']
        exact .ranked k (by rwa [ofRank_concat_of_ne _ hgt.ne']) (above_concat habove fun _ => hr)

/-- A whole run, of a beginning of a reordering. -/
theorem decides_run (hfree : Uncontested rank applies value start rules) : ∀ {front back : List R},
    Reorders rank (front ++ back) rules → Decides rank applies value start front (run rank applies value start front) := by
  intro front
  induction front using List.reverseRecOn with
  | nil => exact fun _ => .silent (List.forall_mem_nil _)
  | append_singleton front r ih =>
    intro back h
    rw [List.append_assoc] at h
    rw [run_concat]
    refine (ih h).step fun hsilent lower hlower => ?_
    refine hfree (rank r) (ofRank rank (rank r) front) r (ofRank rank (rank r) back) ?_ hsilent lower hlower _ ?_
    · rw [← h.ofRank, ← List.append_assoc, ofRank_append, ofRank_concat_self, List.append_assoc]
      rfl
    · rw [← h.ofRank]
      exact ofRank_prefix (List.prefix_append _ _)

theorem decides_reorders (hfree : Uncontested rank applies value start rules) (h : Reorders rank rules' rules) :
    Decides rank applies value start rules' (run rank applies value start rules') := by
  rw [← List.append_nil rules'] at h
  exact decides_run hfree h

/-- The order of rules of different ranks does not matter. -/
theorem run_reorders (hfree : Uncontested rank applies value start rules) (h : Reorders rank rules' rules) :
    run rank applies value start rules' = run rank applies value start rules := by
  have hown := decides_reorders hfree ⟨.refl rules, fun _ => rfl⟩
  exact (decides_reorders hfree h).unique hown fun k => (h.ofRank k).symm

/-- The most specific rules decide, on their own. -/
theorem run_decided (hfree : Uncontested rank applies value start rules) (h : Reorders rank rules' rules)
    (hloud : ¬Silent applies start (ofRank rank k rules)) (habove : ∀ r ∈ rules, k < rank r → applies r start = false) :
    (run rank applies value start rules').1 = alone applies value start (ofRank rank k rules) := by
  exact congrArg Prod.fst ((decides_reorders hfree h).unique (.ranked k hloud habove) fun j => (h.ofRank j).symm)

/-! ### What contested rules do -/

/-- A rule that is not outranked meets the start, or what the rules of its own rank have made of it. -/
theorem Decides.meets (h : Decides rank applies value start front acc) (hbest : acc.2 ≤ rank r)
    (hmeets : Silent applies start (Ranked.ofRank rank (rank r) front) → ∀ lower < rank r,
      applies r (alone applies value start (Ranked.ofRank rank lower front)) = applies r start) :
    applies r acc.1 = applies r (alone applies value start (Ranked.ofRank rank (rank r) front)) := by
  cases h with
  | silent hsilent => rw [alone_of_silent (hsilent.ofRank _)]
  | ranked k hloud habove =>
    rcases eq_or_lt_of_le (Int.ofNat_le.mp hbest) with rfl | hlt
    · rfl
    have hsilent : Silent applies start (Ranked.ofRank rank (rank r) front) := by
      intro x hx
      obtain ⟨hmem, hrank⟩ := mem_ofRank.mp hx
      exact habove x hmem (hrank ▸ hlt)
    rw [hmeets hsilent k hlt, alone_of_silent hsilent]

/-- Rules of one rank in front make what they make on their own. -/
theorem run_of_rank (start : S) (h : ∀ x ∈ front, rank x = k) :
    (run rank applies value start front).1 = alone applies value start front ∧
      (run rank applies value start front).2 ≤ k := by
  induction front using List.reverseRecOn with
  | nil => exact ⟨rfl, by simp [run]⟩
  | append_singleton front r ih =>
    obtain ⟨hvalue, hbest⟩ := ih fun x hx => h x (List.mem_append_left _ hx)
    have hr := h r (List.mem_append_right _ List.mem_cons_self)
    rw [run_concat, alone_concat, step, hvalue, hr, decide_eq_true hbest, Bool.and_true]
    split_ifs
    · exact ⟨rfl, le_refl _⟩
    · exact ⟨hvalue, hbest⟩

/-- Rules of one rank are first in some order. -/
theorem reorders_first (hsplit : ofRank rank k rules = pre ++ r :: back) :
    Reorders rank (pre ++ r :: (back ++ rules.filter fun x => rank x ≠ k)) rules := by
  have hrank : ∀ x ∈ pre ++ r :: back, rank x = k := fun x hx => (mem_ofRank.mp (hsplit ▸ hx)).2
  have hregroup : pre ++ r :: (back ++ rules.filter fun x => rank x ≠ k) =
      (pre ++ r :: back) ++ rules.filter fun x => rank x ≠ k := by simp
  rw [hregroup]
  refine reorders_of_ofRank fun j => ?_
  rw [ofRank_append]
  rcases eq_or_ne j k with rfl | hne
  · rw [ofRank_of_rank hrank, ofRank_filter_none fun x hx => by simp [hx], List.append_nil, hsplit]
  · rw [ofRank_of_ne hrank hne, ofRank_filter_all fun x hx => by simp [hx, hne], List.nil_append]

/-- Behind a beginning of the rules of another rank, too. -/
theorem reorders_second {lower : Nat} {tail : List R} (hlower : ofRank rank lower rules = front ++ tail)
    (hsplit : ofRank rank k rules = pre ++ r :: back) (hne : lower ≠ k) :
    Reorders rank (front ++ pre ++ r :: (back ++ tail ++ rules.filter fun x => rank x ≠ k ∧ rank x ≠ lower)) rules := by
  have hk : ∀ x ∈ ofRank rank k rules, rank x = k := fun x hx => (mem_ofRank.mp hx).2
  have hl : ∀ x ∈ front ++ tail, rank x = lower := fun x hx => (mem_ofRank.mp (hlower ▸ hx)).2
  have hfront : ∀ x ∈ front, rank x = lower := fun x hx => hl x (List.mem_append_left _ hx)
  have htail : ∀ x ∈ tail, rank x = lower := fun x hx => hl x (List.mem_append_right _ hx)
  have hregroup : front ++ pre ++ r :: (back ++ tail ++ rules.filter fun x => rank x ≠ k ∧ rank x ≠ lower) =
      front ++ (ofRank rank k rules ++ (tail ++ rules.filter fun x => rank x ≠ k ∧ rank x ≠ lower)) := by
    rw [hsplit]
    simp
  rw [hregroup]
  refine reorders_of_ofRank fun j => ?_
  rw [ofRank_append, ofRank_append, ofRank_append]
  rcases eq_or_ne j k with rfl | hjk
  · rw [ofRank_of_ne hfront hne.symm, ofRank_of_rank hk, ofRank_of_ne htail hne.symm,
      ofRank_filter_none fun x hx => by simp [hx]]
    simp
  rcases eq_or_ne j lower with rfl | hjl
  · rw [ofRank_of_rank hfront, ofRank_of_ne hk hjk, ofRank_of_rank htail, ofRank_filter_none fun x hx => by simp [hx],
      hlower]
    simp
  · rw [ofRank_of_ne hfront hjl, ofRank_of_ne hk hjk, ofRank_of_ne htail hjl,
      ofRank_filter_all fun x hx => by simp [hx, hjk, hjl]]
    rfl

/-- No rule is contested exactly when every rule applies, or not, in all orders alike. -/
theorem uncontested_iff :
    Uncontested rank applies value start rules ↔ AppliesAlike rank applies value start rules := by
  constructor
  · intro hfree
    have hmeets : ∀ {front r back}, Reorders rank (front ++ r :: back) rules →
        (run rank applies value start front).2 ≤ rank r → applies r (run rank applies value start front).1 =
          applies r (alone applies value start (ofRank rank (rank r) front)) := by
      intro front r back h hbest
      refine (decides_run hfree h).meets hbest fun hsilent lower hlower => ?_
      refine hfree (rank r) (ofRank rank (rank r) front) r (ofRank rank (rank r) back) ?_ hsilent lower hlower _ ?_
      · rw [← h.ofRank, ofRank_append]
        simp [ofRank]
      · rw [← h.ofRank]
        exact ofRank_prefix (List.prefix_append _ _)
    intro front r back front' back' h h' hgroup hbest hbest'
    rw [hmeets h hbest, hmeets h' hbest', hgroup]
  · intro halike k pre r post hsplit hsilent lower hlower front hfront
    induction hlength : pre.length using Nat.strong_induction_on generalizing pre r post with
    | _ n ih =>
      -- the rules before it meet the two values alike, so that they leave both alone
      have hquiet : Silent applies (alone applies value start front) pre := by
        intro x hx
        obtain ⟨before, behind, rfl⟩ := List.append_of_mem hx
        rw [ih before.length (by rw [← hlength]; simp) before x (behind ++ r :: post) (by rw [hsplit]; simp)
          (fun y hy => hsilent y (List.mem_append_left _ hy)) rfl]
        exact hsilent x hx
      obtain ⟨tail, htail⟩ := hfront
      have hrank : ∀ x ∈ pre ++ r :: post, rank x = k := fun x hx => (mem_ofRank.mp (hsplit ▸ hx)).2
      have hpre : ∀ x ∈ pre, rank x = k := fun x hx => hrank x (List.mem_append_left _ hx)
      have hr : rank r = k := hrank r (List.mem_append_right _ List.mem_cons_self)
      have hlow : ∀ x ∈ front, rank x = lower := fun x hx =>
        (mem_ofRank.mp (htail ▸ List.mem_append_left tail hx)).2
      obtain ⟨hvalue, hbest⟩ := @run_of_rank _ _ rank applies value _ _ start hlow
      have hfirst : run rank applies value start pre = (start, -1) := foldl_of_silent hsilent
      have hsecond : run rank applies value start (front ++ pre) = run rank applies value start front := by
        rw [run_append]
        exact foldl_of_silent (hvalue ▸ hquiet)
      have hgroup : ofRank rank (rank r) (front ++ pre) = ofRank rank (rank r) pre := by
        rw [ofRank_append, ofRank_of_ne hlow (hr ▸ hlower.ne'), List.nil_append]
      have hsame := halike (front ++ pre) r _ pre _ (reorders_second htail.symm hsplit hlower.ne) (reorders_first hsplit)
        hgroup (by rw [hsecond]; omega) (by rw [hfirst]; omega)
      rwa [hsecond, hvalue, hfirst] at hsame

end Ranked
