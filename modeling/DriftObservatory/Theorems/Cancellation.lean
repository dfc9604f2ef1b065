import DriftObservatory.Theorems.Flight
import DriftObservatory.Theorems.Atomicity

/-! An evaluation is published only when every target was compared, as long as the flag that made a worker give up is
    not taken back before the evaluation has ended. -/

namespace DriftObservatory

/-! ### The flags -/

namespace Observatory
variable {o o' : Observatory}

/-- The flags that stop a publication. -/
def Blocked (o : Observatory) : Prop := o.cancelled ∨ o.stopping ∨ (o.config.requireStarted ∧ o.started = false)

theorem SameFlags.blocked (h : SameFlags o o') : o'.Blocked ↔ o.Blocked := by
  simp only [Blocked, h.cancelled, h.stopping, h.started, h.requireStarted]

theorem start_refused (h : o.start.1.ok = false) : o.start.2 = o := by
  revert h
  unfold start
  dsimp only
  repeat' split
  all_goals first | exact fun _ => rfl | (intro h; cases h)

variable [DoubleChars] {input : EvaluationInput} {policy : ObservatoryPolicy} {targets : List TargetEvaluation}
  {apply : Bool}

theorem publishEvaluation_blocked (h : o.Blocked) :
    (∀ outcome, (o.publishEvaluation input policy targets apply).1 ≠ .ok outcome) ∧
      (o.publishEvaluation input policy targets apply).2.ledger = o.ledger := by
  unfold publishEvaluation
  dsimp only
  split
  · exact ⟨fun _ h => (by cases h), rfl⟩
  · rename_i hc
    have hstop : (o.stopping || o.config.requireStarted && !o.started) = true := by
      rcases h with h | h | ⟨h, h'⟩
      · exact absurd h hc
      · simp [h]
      · simp [h, h']
    rw [if_pos hstop]
    exact ⟨fun _ h => (by cases h), rfl⟩

end Observatory

/-! ### The ranges of the workers -/

/-- The ranges laid end to end are the targets in order. -/
theorem workerRanges_partition (workers targets : Nat) :
    (workerRanges workers targets).flatMap (fun w => List.range' w.next (w.last - w.next)) = List.range targets := by
  unfold workerRanges
  dsimp only
  generalize hn : min (if workers = 0 then 1 else workers) (if targets = 0 then 1 else targets) = n
  split_ifs with hsingle
  · rw [List.flatMap_singleton, List.range_eq_range', Nat.sub_zero]
  · generalize hper : (targets + n - 1) / n = per
    have hslices : targets ≤ n * per := by
      have h := Nat.div_add_mod (targets + n - 1) n
      have h' := Nat.mod_lt (targets + n - 1) (y := n) (by omega)
      rw [hper] at h
      omega
    have hfront : ∀ k, ((List.range k).filterMap fun worker =>
        if min (worker * per + per) targets ≤ worker * per then none
        else some ({ next := worker * per, last := min (worker * per + per) targets } : Worker)).flatMap
          (fun w => List.range' w.next (w.last - w.next)) = List.range (min (k * per) targets) := by
      intro k
      induction k with
      | zero => simp
      | succ k ih =>
        rw [List.range_succ, List.filterMap_append, List.flatMap_append, ih, Nat.succ_mul]
        by_cases hempty : min (k * per + per) targets ≤ k * per
        · simp only [List.filterMap_cons, if_pos hempty, List.filterMap_nil, List.flatMap_nil, List.append_nil]
          congr 1
          omega
        · simp only [List.filterMap_cons, if_neg hempty, List.filterMap_nil, List.flatMap_singleton]
          have hfull : min (k * per) targets = k * per := by omega
          rw [hfull, List.range_eq_range', List.range_eq_range']
          have happend := @List.range'_append_1 0 (k * per) (min (k * per + per) targets - k * per)
          rw [Nat.zero_add] at happend
          rw [happend]
          congr 1
          omega
    rw [hfront, Nat.min_eq_right hslices]

/-- No range ends past the targets. -/
theorem workerRanges_bounded {workers targets : Nat} : ∀ w ∈ workerRanges workers targets, w.last ≤ targets := by
  intro w hw
  unfold workerRanges at hw
  dsimp only at hw
  generalize min (if workers = 0 then 1 else workers) (if targets = 0 then 1 else targets) = n at hw
  split at hw
  · rw [List.mem_singleton.mp hw]
  · obtain ⟨index, -, h⟩ := List.mem_filterMap.mp hw
    split at h
    · cases h
    · obtain rfl := Option.some.inj h
      exact Nat.min_le_right _ _

theorem workerRanges_cover {workers targets i : Nat} (hi : i < targets) :
    ∃ w ∈ workerRanges workers targets, w.next ≤ i ∧ i < w.last := by
  rw [← List.mem_range, ← workerRanges_partition workers targets, List.mem_flatMap] at hi
  obtain ⟨w, hw, hi⟩ := hi
  rw [List.mem_range'_1] at hi
  exact ⟨w, hw, hi.1, by omega⟩

theorem workerRanges_fresh {workers targets : Nat} : ∀ w ∈ workerRanges workers targets, w.gaveUp = false := by
  intro w hw
  unfold workerRanges at hw
  dsimp only at hw
  generalize min (if workers = 0 then 1 else workers) (if targets = 0 then 1 else targets) = n at hw
  split at hw
  · obtain rfl := List.mem_singleton.mp hw
    rfl
  · obtain ⟨index, -, h⟩ := List.mem_filterMap.mp hw
    split at h
    · cases h
    · obtain rfl := Option.some.inj h
      rfl

/-! ### The invariant -/

namespace Evaluation
variable {o o' : Observatory} {e e' : Evaluation} {i : Nat} {w w' : Worker}

/-- Every target was compared, under the policy the evaluation copied. -/
def AllCompared (limits : RuntimeLimits) (e : Evaluation) (targets : List TargetEvaluation) : Prop :=
  ∃ policy, e.policy = some policy ∧ targets = e.input.targets.map (compareTarget · policy limits)

structure Sound (o : Observatory) (e : Evaluation) : Prop where
  length : e.targets.length = e.input.targets.length
  covered : ∀ policy, e.policy = some policy → ∀ i input, e.input.targets[i]? = some input →
    (∃ w ∈ e.workers, w.next ≤ i ∧ i < w.last) ∨
      e.targets[i]? = some (compareTarget input policy o.config.limits)
  blocked : e.inFlight → ∀ w ∈ e.workers, w.gaveUp → o.Blocked
  joined : e.inFlight = false → e.joined
  published : ∀ outcome, e.result = some (.ok outcome) → AllCompared o.config.limits e outcome.targets

theorem launched_sound {now : NdoTime} {apply : Bool} : Sound o (System.launched o now apply) where
  length := List.length_replicate
  covered _ h := by cases h
  blocked _ w hw := by cases hw
  joined h := by cases h
  published _ h := by cases h

/-- Where all workers are done and none gave up, every target was compared. -/
theorem Sound.complete (h : Sound o e) (hj : e.joined) (hw : ∀ w ∈ e.workers, w.gaveUp = false) :
    AllCompared o.config.limits e e.targets := by
  unfold Evaluation.joined at hj
  rw [Bool.and_eq_true, Option.isSome_iff_exists, List.all_eq_true] at hj
  obtain ⟨⟨policy, hpolicy⟩, hdone⟩ := hj
  refine ⟨policy, hpolicy, List.ext_getElem? fun i => ?_⟩
  rw [List.getElem?_map]
  cases hin : e.input.targets[i]? with
  | none =>
    rw [List.getElem?_eq_none_iff, ← h.length] at hin
    exact List.getElem?_eq_none hin
  | some input =>
    rcases h.covered policy hpolicy i input hin with ⟨w, hmem, hlow, hhigh⟩ | hcmp
    · have hd := hdone w hmem
      simp only [Worker.done, hw w hmem, Bool.false_or, decide_eq_true_eq] at hd
      omega
    · exact hcmp

/-- A property of some worker survives the update of a worker that keeps it. -/
theorem exists_set {P : Worker → Prop} (hw : e.workers[i]? = some w) (hP : P w → P w')
    (h : ∃ v ∈ e.workers, P v) : ∃ v ∈ e.workers.set i w', P v := by
  obtain ⟨v, hv, hPv⟩ := h
  obtain ⟨j, hj⟩ := List.getElem?_of_mem hv
  by_cases hij : i = j
  · subst hij
    rw [hw] at hj
    obtain rfl := Option.some.inj hj
    refine ⟨w', List.mem_iff_getElem?.mpr ⟨i, ?_⟩, hP hPv⟩
    exact List.getElem?_set_self (List.getElem?_eq_some_iff.mp hw).1
  · refine ⟨v, List.mem_iff_getElem?.mpr ⟨j, ?_⟩, hPv⟩
    rw [List.getElem?_set_ne hij, hj]

theorem gaveUp_set (hi : e.workers[i]? = some w) (hw : w'.gaveUp = true → w.gaveUp = true)
    (h : ∀ v ∈ e.workers, v.gaveUp → o.Blocked) : ∀ v ∈ e.workers.set i w', v.gaveUp → o.Blocked := by
  intro v hv hgave
  rcases List.mem_or_eq_of_mem_set hv with hv | rfl
  · exact h v hv hgave
  · exact h w (List.mem_of_getElem? hi) (hw hgave)

theorem Sound.moved [DoubleChars] (h : Sound o e) (hm : Moved o e e') : Sound o e' := by
  cases hm with
  | same => exact h
  | copied hfly hfresh =>
    refine ⟨h.length, ?_, ?_, ?_, ?_⟩
    · intro policy hpolicy i input hin
      exact .inl (workerRanges_cover (List.getElem?_eq_some_iff.mp hin).1)
    · intro _ w hw hgave
      rw [workerRanges_fresh w hw] at hgave
      cases hgave
    · exact fun hend => (not_landed hfly hend).elim
    · exact fun outcome hres => (not_landed hfly (landed hres)).elim
  | @tested i w hw hbusy =>
    have hfly := busy_flying h.joined hw hbusy
    refine ⟨h.length, ?_, fun _ => gaveUp_set hw id (h.blocked hfly), ?_, ?_⟩
    · intro policy hpolicy j input hin
      exact (h.covered policy hpolicy j input hin).imp (exists_set hw id) id
    · exact fun hend => (not_landed hfly hend).elim
    · intro outcome hres
      exact h.published outcome hres
  | @gaveUp i w hw hbusy hflag =>
    have hfly := busy_flying h.joined hw hbusy
    refine ⟨h.length, ?_, ?_, ?_, ?_⟩
    · intro policy hpolicy j input hin
      exact (h.covered policy hpolicy j input hin).imp (exists_set hw id) id
    · intro _ v hv hgave
      rcases List.mem_or_eq_of_mem_set hv with hv | rfl
      · exact h.blocked hfly v hv hgave
      · exact hflag.imp id .inl
    · exact fun hend => (not_landed hfly hend).elim
    · intro outcome hres
      exact h.published outcome hres
  | @compared i w policy input hw hbusy hpolicy hin =>
    have hfly := busy_flying h.joined hw hbusy
    have hnext : w.next < e.targets.length := by
      rw [h.length]
      exact (List.getElem?_eq_some_iff.mp hin).1
    refine ⟨List.length_set.trans h.length, ?_, fun _ => gaveUp_set hw id (h.blocked hfly), ?_, ?_⟩
    · intro policy' hpolicy' j input' hin'
      obtain rfl : policy = policy' := Option.some.inj (hpolicy.symm.trans hpolicy')
      by_cases hj : w.next = j
      · subst hj
        obtain rfl : input = input' := Option.some.inj (hin.symm.trans hin')
        exact .inr (List.getElem?_set_self hnext)
      · refine (h.covered policy hpolicy j input' hin').imp (exists_set hw ?_) ?_
        · rintro ⟨hlow, hhigh⟩
          exact ⟨by show w.next + 1 ≤ j; omega, hhigh⟩
        · intro hcmp
          rw [← hcmp]
          exact List.getElem?_set_ne hj
    · exact fun hend => (not_landed hfly hend).elim
    · exact fun outcome hres => (not_landed hfly (landed hres)).elim
  | published hfly hpolicy hjoined =>
    refine ⟨h.length, h.covered, ?_, fun _ => hjoined, ?_⟩
    · intro hend
      cases hend
    · intro outcome hres
      have hok := Option.some.inj hres
      obtain rfl := Observatory.publishEvaluation_ok hok
      refine h.complete hjoined fun w hw => ?_
      cases hgave : w.gaveUp with
      | false => rfl
      | true => exact absurd hok ((Observatory.publishEvaluation_blocked (h.blocked hfly w hw hgave)).1 _)

/-- The invariant does not see a step that keeps the limits and leaves what is blocked blocked. -/
theorem Sound.framed (h : Sound o e) (hl : o'.config.limits = o.config.limits)
    (hb : e.inFlight → (∃ w ∈ e.workers, w.gaveUp) → o.Blocked → o'.Blocked) : Sound o' e where
  length := h.length
  covered := by rw [hl]; exact h.covered
  blocked hf w hw hg := hb hf ⟨w, hw, hg⟩ (h.blocked hf w hw hg)
  joined := h.joined
  published := by rw [hl]; exact h.published

end Evaluation

/-! ### Runs -/

namespace System
variable [DoubleChars] {s : System} {a : Action} {o : Observatory}

/-- A step after which no flag stops a publication any more. -/
def Lifts (o : Observatory) : Action → Prop
  | .clearCancellation => o.stopping = false ∧ (o.config.requireStarted → o.started)
  | .start => o.start.1.ok
  | _ => False

/-- The last flag is not taken back while an evaluation is in flight that a worker has given up on. -/
def Patient (s : System) (a : Action) : Prop :=
  Lifts s.observatory a → ∀ e ∈ s.evaluations, e.inFlight → ∀ w ∈ e.workers, w.gaveUp = false

theorem blocked_step (hb : s.observatory.Blocked) (hl : ¬ Lifts s.observatory a) :
    (s.step a).observatory.Blocked := by
  cases a with
  | start =>
    have hrefused := Observatory.start_refused (Bool.eq_false_iff.mpr hl)
    simpa only [step, hrefused] using hb
  | stop => exact .inr (.inl rfl)
  | requestCancellation => exact .inl rfl
  | clearCancellation =>
    by_cases hstop : s.observatory.stopping
    · exact .inr (.inl hstop)
    · refine .inr (.inr ?_)
      simp only [Lifts, Bool.eq_false_iff.mpr hstop, true_and, Classical.not_imp, Bool.not_eq_true] at hl
      exact hl
  | _ => exact (step_sameFlags id).blocked.mpr hb

/-- A step that lifts the flags moves no evaluation. -/
theorem lifts_evaluations (hl : Lifts s.observatory a) : (s.step a).evaluations = s.evaluations := by
  cases a <;> first | rfl | exact hl.elim

def Sound (s : System) : Prop := ∀ e ∈ s.evaluations, e.Sound s.observatory

theorem Sound.step (h : Sound s) (hp : Patient s a) : Sound (s.step a) := by
  intro e' he'
  obtain ⟨i, hi⟩ := List.getElem?_of_mem he'
  by_cases hl : Lifts s.observatory a
  · rw [lifts_evaluations hl] at he'
    refine (h e' he').framed step_configured.limits fun hfly hgave _ => ?_
    obtain ⟨w, hw, hgave⟩ := hgave
    rw [hp hl e' he' hfly w hw] at hgave
    cases hgave
  · have hsound : e'.Sound s.observatory := by
      rcases evaluations_step hi with ⟨e, he, hm⟩ | ⟨now, apply, rfl, -, rfl⟩
      · exact (h e (List.mem_of_getElem? he)).moved hm
      · exact Evaluation.launched_sound
    exact hsound.framed step_configured.limits fun _ _ hb => blocked_step hb hl

/-- A publication that writes the ledger finds all targets compared. -/
theorem Sound.applied {index : Nat} {e : Evaluation} (h : Sound s) (he : s.evaluations[index]? = some e)
    (hw : (s.step (.publish index)).observatory.ledger ≠ s.observatory.ledger) :
    e.AllCompared s.observatory.config.limits e.targets := by
  have hsound := h e (List.mem_of_getElem? he)
  rcases publish_spec he with ⟨hsame, -⟩ | ⟨policy, -, hfly, hjoined, hpub, -⟩
  · exact absurd hsame hw
  · refine hsound.complete hjoined fun w hmem => ?_
    cases hgave : w.gaveUp with
    | false => rfl
    | true =>
      rw [hpub] at hw
      exact absurd (Observatory.publishEvaluation_blocked (hsound.blocked hfly w hmem hgave)).2 hw

/-- In every run in which the last flag is never taken back while an evaluation in flight has lost a worker to it, an
    evaluation succeeds or writes the ledger only with every target compared. -/
theorem publish_compared (o : Observatory) (actions : List Action)
    (h : Run.Permits System.step Patient ⟨o, []⟩ actions) :
    let s := Run.exec System.step ⟨o, []⟩ actions
    (∀ e ∈ s.evaluations, ∀ outcome, e.result = some (.ok outcome) →
      e.AllCompared s.observatory.config.limits outcome.targets) ∧
    (∀ index e, s.evaluations[index]? = some e →
      (s.step (.publish index)).observatory.ledger ≠ s.observatory.ledger →
      e.AllCompared s.observatory.config.limits e.targets) := by
  intro s
  have hs : Sound s := Run.invariant (fun _ _ => Sound.step) (fun e he => by cases he) h
  exact ⟨fun e he => (hs e he).published, fun index e => hs.applied⟩

end System

namespace Sample

/-- An observatory whose policy requires one target. -/
def observatory : Observatory := .make
  { policy := { requiredTargets := [target], evidence := .synthetic }, epoch := ⟨1⟩, incarnation := ⟨1⟩ }

/-- An evaluation that nobody disturbs. -/
def undisturbed : List Action :=
  [.start, .evaluateAt ⟨1⟩ true, .copyPolicy 0, .testCancelled 0 0, .compareNext 0 0, .publish 0]

/-- The worker sees a cancellation that is cleared before the evaluation publishes. -/
def cleared : List Action :=
  [.start, .evaluateAt ⟨1⟩ true, .copyPolicy 0, .requestCancellation, .testCancelled 0 0, .clearCancellation,
    .publish 0]

/-- The names of the targets an evaluation has published. -/
def publishedNames (e : Evaluation) : Option (List TargetId) :=
  (e.result.bind Except.toOption).map fun outcome => outcome.targets.map TargetEvaluation.target

end Sample

theorem System.publish_compared_undisturbed :
    ((Run.exec (@System.step Sample.noDoubles) ⟨Sample.observatory, []⟩ Sample.undisturbed).evaluations.map
        Sample.publishedNames = [some [Sample.target]]) ∧
      ∀ e ∈ (Run.exec (@System.step Sample.noDoubles) ⟨Sample.observatory, []⟩ Sample.undisturbed).evaluations,
        ∀ outcome, e.result = some (.ok outcome) →
          e.AllCompared (Run.exec (@System.step Sample.noDoubles) ⟨Sample.observatory, []⟩
            Sample.undisturbed).observatory.config.limits outcome.targets := by
  refine ⟨by decide +kernel, (@System.publish_compared Sample.noDoubles Sample.observatory Sample.undisturbed ?_).1⟩
  exact ⟨fun _ _ he => (by cases he), fun h => h.elim, fun h => h.elim, fun h => h.elim, fun h => h.elim,
    fun h => h.elim, trivial⟩

theorem System.publish_cleared_uncompared :
    ¬ ∀ (o : Observatory) (actions : List Action),
      ∀ e ∈ (Run.exec (@System.step Sample.noDoubles) ⟨o, []⟩ actions).evaluations, ∀ outcome,
        e.result = some (.ok outcome) → e.AllCompared o.config.limits outcome.targets := by
  intro h
  have hrun := h Sample.observatory Sample.cleared
  have hnames : (Run.exec (@System.step Sample.noDoubles) ⟨Sample.observatory, []⟩ Sample.cleared).evaluations.map
      (fun e => (Sample.publishedNames e, e.policy.map fun policy =>
        (e.input.targets.map (compareTarget · policy Sample.observatory.config.limits)).map TargetEvaluation.target)) =
      [(some [default], some [Sample.target])] := by decide +kernel
  obtain ⟨e, he, hpair⟩ := List.exists_of_mem_map (hnames ▸ List.mem_singleton.mpr rfl)
  rw [Prod.mk.injEq] at hpair
  obtain ⟨outcome, hok, htargets⟩ := Option.map_eq_some_iff.mp hpair.1
  obtain ⟨result, hres, hok⟩ := Option.bind_eq_some_iff.mp hok
  obtain ⟨policy, hpolicy, hcmp⟩ := hrun e he outcome (by
    cases result with
    | error _ => cases hok
    | ok r => rw [hres, show r = outcome from Option.some.inj hok])
  rw [hpolicy, Option.map_some, ← hcmp, htargets] at hpair
  exact absurd hpair.2 (by decide)

end DriftObservatory
