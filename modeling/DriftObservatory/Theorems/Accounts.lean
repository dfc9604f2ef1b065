import DriftObservatory.Lib.Run
import DriftObservatory.Theorems.Cancellation
import DriftObservatory.Theorems.Flight
import DriftObservatory.Theorems.Phases

/-! The engine's books. However evaluations, lifecycle calls and ingestion interleave, the count of active evaluations is
    the number in flight, and every evaluation that was launched is in flight, was counted as published, cancelled or
    fenced, or was turned away by the ledger. The authority of the engine only grows, and a published evaluation has
    seen one of it. -/

namespace DriftObservatory

/-! ### How evaluations end -/

def succeeded : Option (Except Status EvaluationOutcome) → Bool
  | some (.ok _) => true
  | _ => false

/-- The evaluation was refused with the code. -/
def refusedWith (code : StatusCode) : Option (Except Status EvaluationOutcome) → Bool
  | some (.error status) => status.code == code
  | _ => false

namespace FindingLedger
variable [DoubleChars] {L : FindingLedger} {outcome : EvaluationOutcome} {policy : ObservatoryPolicy} {now : NdoTime}

theorem applyTargets_status {targets : List TargetEvaluation} {report : LedgerApplyReport} :
    (applyTargets outcome policy now targets L report).1.ok = true ∨
      (applyTargets outcome policy now targets L report).1.code = .limitExceeded := by
  induction targets generalizing L report with
  | nil => exact .inl rfl
  | cons e rest ih =>
    have hspec := @applyTarget_spec _ outcome policy now L report e
    rw [applyTargets]
    generalize applyTarget outcome policy now L report e = applied at hspec ⊢
    obtain ⟨status, M, made⟩ := applied
    dsimp only at hspec ⊢
    split_ifs with hrefused
    · rcases hspec with ⟨-, rfl, -⟩ | ⟨-, rfl, -⟩
      · exact .inl rfl
      · exact .inr rfl
    · exact ih

/-- The ledger turns an outcome away for an envelope only. -/
theorem applyEvaluation_status : (L.applyEvaluation outcome policy now).1.ok = true ∨
    (L.applyEvaluation outcome policy now).1.code = .limitExceeded := by
  have hstatus := @applyTargets_status _ L outcome policy now (outcome.targets.filter L.accepts)
    { fencedTargets := outcome.targets.length - (outcome.targets.filter L.accepts).length }
  rw [applyEvaluation]
  generalize applyTargets outcome policy now (outcome.targets.filter L.accepts) L _ = applied at hstatus ⊢
  obtain ⟨status, M, report⟩ := applied
  dsimp only at hstatus ⊢
  split_ifs
  · exact .inr rfl
  · exact hstatus
  · exact .inl rfl

end FindingLedger

/-! ### What an operation counts -/

namespace Observatory
variable {o o' : Observatory}

/-- The part of an observatory that counts evaluations. -/
structure Books where
  active : Nat
  evaluations : UInt64
  cancelled : UInt64
  fenced : UInt64

/-- One evaluation less is active, and its end is counted. -/
def Books.landed (b : Books) (result : Except Status EvaluationOutcome) : Books where
  active := b.active - 1
  evaluations := if succeeded (some result) then b.evaluations + 1 else b.evaluations
  cancelled := if refusedWith .cancelled (some result) then b.cancelled + 1 else b.cancelled
  fenced := if refusedWith .staleAuthority (some result) then b.fenced + 1 else b.fenced

def books (o : Observatory) : Books :=
  ⟨o.activeEvaluations, o.counters.evaluations, o.counters.evaluationsCancelled, o.counters.evaluationsFenced⟩

theorem books_start : o.start.2.books = o.books := by
  unfold start
  dsimp only
  repeat' split
  all_goals rfl

theorem books_rotateIncarnation {incarnation : Incarnation} {epoch : FabricEpoch} {now : NdoTime} :
    (o.rotateIncarnation incarnation epoch now).2.books = o.books := by
  unfold rotateIncarnation
  repeat' split
  all_goals rfl

theorem books_registerSource {descriptor : SourceDescriptor} : (o.registerSource descriptor).2.books = o.books := by
  unfold registerSource
  dsimp only
  repeat' split
  all_goals rfl

theorem books_ingestObservation {snapshot : ObservationSnapshot} {receiveTime : NdoTime} :
    (o.ingestObservation snapshot receiveTime).2.1.books = o.books := by
  unfold ingestObservation
  dsimp only
  repeat' split
  all_goals rfl

theorem books_setPolicy {policy : ObservatoryPolicy} {now : NdoTime} : (o.setPolicy policy now).2.books = o.books := by
  unfold setPolicy
  dsimp only
  split <;> rfl

/-- An admitted evaluation is active; one that is refused for a cancellation is counted. -/
theorem admitEvaluation_cases {now : NdoTime} :
    (∃ status, (o.admitEvaluation now).1 = .error status ∧ status.code ≠ .cancelled ∧ (o.admitEvaluation now).2 = o) ∨
    (∃ status, (o.admitEvaluation now).1 = .error status ∧ status.code = .cancelled ∧
      (o.admitEvaluation now).2.books = { o.books with cancelled := o.books.cancelled + 1 }) ∨
    (o.admitEvaluation now).1 = .ok (o.buildEvaluationInput now) ∧
      (o.admitEvaluation now).2.books = { o.books with active := o.books.active + 1 } := by
  unfold admitEvaluation
  split_ifs
  · exact .inl ⟨_, rfl, fun h => (by cases h), rfl⟩
  · exact .inr (.inl ⟨_, rfl, rfl, rfl⟩)
  · exact .inr (.inr ⟨rfl, rfl⟩)

variable [DoubleChars]

theorem books_publishIntent {document : IntentGenerationDocument} {stamp : NdoTime} :
    (o.publishIntent document stamp).2.1.books = o.books := by
  unfold publishIntent
  dsimp only
  repeat' split
  all_goals rfl

section Publish
variable {input : EvaluationInput} {policy : ObservatoryPolicy} {targets : List TargetEvaluation} {apply : Bool}

/-- A publication succeeds or is refused for a cancellation, a fence or an envelope. -/
theorem publishEvaluation_ends : let result := some (o.publishEvaluation input policy targets apply).1
    succeeded result || refusedWith .cancelled result || refusedWith .staleAuthority result ||
      refusedWith .limitExceeded result := by
  have hstatus := @FindingLedger.applyEvaluation_status _ o.ledger (input.outcome targets) policy input.now
  unfold publishEvaluation
  dsimp only
  generalize o.ledger.applyEvaluation (input.outcome targets) policy input.now = applied at hstatus ⊢
  obtain ⟨status, M, report⟩ := applied
  dsimp only at hstatus ⊢
  repeat' split
  all_goals first | rfl | skip
  rename_i hrefused
  rw [Bool.not_eq_true'] at hrefused
  have hcode : status.code = .limitExceeded := hstatus.resolve_left (hrefused ▸ Bool.false_ne_true)
  simp [refusedWith, hcode]

theorem publishEvaluation_books : (o.publishEvaluation input policy targets apply).2.books =
    o.books.landed (o.publishEvaluation input policy targets apply).1 := by
  have hstatus := @FindingLedger.applyEvaluation_status _ o.ledger (input.outcome targets) policy input.now
  unfold publishEvaluation
  dsimp only
  generalize o.ledger.applyEvaluation (input.outcome targets) policy input.now = applied at hstatus ⊢
  obtain ⟨status, M, report⟩ := applied
  dsimp only at hstatus ⊢
  repeat' split
  all_goals first | rfl | skip
  rename_i hrefused
  rw [Bool.not_eq_true'] at hrefused
  have hcode : status.code = .limitExceeded := hstatus.resolve_left (hrefused ▸ Bool.false_ne_true)
  simp [Books.landed, books, succeeded, refusedWith, hcode]

end Publish

end Observatory

/-! ### The books along a run -/

namespace System
variable [DoubleChars] {s : System} {a : Action} {refusals : List Unit}

def results (s : System) : List (Option (Except Status EvaluationOutcome)) := s.evaluations.map Evaluation.result

/-- A call of `EvaluateAt` that is refused because a cancellation is requested. -/
def refusal (s : System) : Action → Option Unit
  | .evaluateAt now _ => match (s.observatory.admitEvaluation now).1 with
    | .error status => if status.code = .cancelled then some () else none
    | .ok _ => none
  | _ => none

omit [DoubleChars] in
/-- The ways in which evaluations end exclude each other. -/
theorem length_eq_ends : ∀ {results : List (Option (Except Status EvaluationOutcome))},
    (∀ r ∈ results, r.isNone || succeeded r || refusedWith .cancelled r || refusedWith .staleAuthority r ||
      refusedWith .limitExceeded r) →
    results.length = results.countP Option.isNone + results.countP succeeded +
      results.countP (refusedWith .cancelled) + results.countP (refusedWith .staleAuthority) +
      results.countP (refusedWith .limitExceeded)
  | [], _ => rfl
  | r :: rest, h => by
    have ih := length_eq_ends fun r hr => h r (List.mem_cons_of_mem _ hr)
    have hone := h r List.mem_cons_self
    simp only [List.length_cons, List.countP_cons, ih]
    match r with
    | none => simp [succeeded, refusedWith]; omega
    | some (.ok outcome) => simp [succeeded, refusedWith]; omega
    | some (.error status) =>
      rcases status with ⟨code, reason, message⟩
      cases code <;> simp [succeeded, refusedWith] at hone ⊢ <;> omega

/-- The books agree with how the evaluations stand. -/
structure Accounted (s : System) (refusals : List Unit) : Prop where
  active : s.observatory.books.active = s.results.countP Option.isNone
  evaluations : s.observatory.books.evaluations = UInt64.ofNat (s.results.countP succeeded)
  cancelled : s.observatory.books.cancelled =
    UInt64.ofNat (s.results.countP (refusedWith .cancelled) + refusals.length)
  fenced : s.observatory.books.fenced = UInt64.ofNat (s.results.countP (refusedWith .staleAuthority))
  ends : ∀ r ∈ s.results, r.isNone || succeeded r || refusedWith .cancelled r || refusedWith .staleAuthority r ||
    refusedWith .limitExceeded r

omit [DoubleChars] in
theorem Accounted.congr (h : Accounted s refusals) {t : System} (hbooks : t.observatory.books = s.observatory.books)
    (hresults : t.results = s.results) : Accounted t refusals := by
  obtain ⟨hactive, hevaluations, hcancelled, hfenced, hends⟩ := h
  rw [← hbooks, ← hresults] at *
  exact ⟨hactive, hevaluations, hcancelled, hfenced, hends⟩

omit [DoubleChars] in
theorem results_modify {f : Evaluation → Evaluation} (hf : ∀ e, (f e).result = e.result) {index : Nat} :
    (s.evaluations.modify index f).map Evaluation.result = s.results := by
  apply List.ext_getElem?
  intro i
  rw [results, List.getElem?_map, List.getElem?_map, List.getElem?_modify]
  rcases s.evaluations[i]? with _ | e
  · rfl
  · refine congrArg some ?_
    dsimp only
    split_ifs
    · exact hf e
    · rfl

omit [DoubleChars] in
theorem result_copyPolicy {o : Observatory} {e : Evaluation} : (e.copyPolicy o).result = e.result := by
  unfold Evaluation.copyPolicy
  split_ifs <;> rfl

omit [DoubleChars] in
theorem result_testCancelled {o : Observatory} {worker : Nat} {e : Evaluation} :
    (e.testCancelled o worker).result = e.result := by
  unfold Evaluation.testCancelled
  repeat' split
  all_goals rfl

omit [DoubleChars] in
theorem result_compareNext {o : Observatory} {worker : Nat} {e : Evaluation} :
    (e.compareNext o worker).result = e.result := by
  unfold Evaluation.compareNext
  repeat' split
  all_goals rfl

/-- Launching adds an evaluation in flight, or counts a refusal, or does nothing. -/
theorem Accounted.evaluateAt (h : Accounted s refusals) (now : NdoTime) (apply : Bool) :
    Accounted (s.step (.evaluateAt now apply)) (refusals ++ (s.refusal (.evaluateAt now apply)).toList) := by
  rw [step, System.evaluateAt, refusal]
  obtain ⟨hactive, hevaluations, hcancelled, hfenced, hends⟩ := h
  rcases hadmits : s.observatory.admitEvaluation now with ⟨verdict, observatory⟩
  have hcases := @Observatory.admitEvaluation_cases s.observatory now
  rw [hadmits] at hcases
  dsimp only at hcases ⊢
  rcases hcases with ⟨status, rfl, hcode, rfl⟩ | ⟨status, rfl, hcode, hbooks⟩ | ⟨rfl, hbooks⟩
  · dsimp only
    rw [if_neg hcode, Option.toList_none, List.append_nil]
    exact ⟨hactive, hevaluations, hcancelled, hfenced, hends⟩
  · dsimp only
    rw [if_pos hcode, Option.toList_some]
    refine ⟨?_, ?_, ?_, ?_, hends⟩
    all_goals dsimp only [results]
    all_goals rw [hbooks]
    · exact hactive
    · exact hevaluations
    · rw [List.length_append, List.length_singleton, ← Nat.add_assoc, UInt64.ofNat_add]
      exact congrArg (· + 1) hcancelled
    · exact hfenced
  · dsimp only
    rw [Option.toList_none, List.append_nil]
    have hresults : ∀ e : Evaluation, (s.evaluations ++ [e]).map Evaluation.result = s.results ++ [e.result] := fun e =>
      List.map_append
    refine ⟨?_, ?_, ?_, ?_, ?_⟩
    all_goals dsimp only [results]
    all_goals rw [hresults]
    · rw [hbooks, List.countP_append]
      exact congrArg (· + 1) hactive
    · rw [hbooks, List.countP_append]
      exact hevaluations
    · rw [hbooks, List.countP_append]
      exact hcancelled
    · rw [hbooks, List.countP_append]
      exact hfenced
    · intro r hr
      rcases List.mem_append.mp hr with hr | hr
      · exact hends r hr
      · rw [List.mem_singleton.mp hr]
        rfl

omit [DoubleChars] in
/-- An evaluation in flight that ends is counted where its result is. -/
theorem countP_landed {results : List (Option (Except Status EvaluationOutcome))} {index : Nat}
    (h : results[index]? = some none) (result : Except Status EvaluationOutcome)
    {p : Option (Except Status EvaluationOutcome) → Bool} (hp : p none = false) :
    (results.set index (some result)).countP p = results.countP p + if p (some result) then 1 else 0 := by
  obtain ⟨hlt, hnone⟩ := List.getElem?_eq_some_iff.mp h
  rw [List.countP_set hlt, hnone, hp]
  rfl

omit [DoubleChars] in
theorem ofNat_counted {n : Nat} {counts : Bool} :
    UInt64.ofNat (n + if counts then 1 else 0) = if counts then UInt64.ofNat n + 1 else UInt64.ofNat n := by
  cases counts with
  | false => rfl
  | true => exact UInt64.ofNat_add n 1

omit [DoubleChars] in
theorem Accounted.landed (h : Accounted s refusals) {index : Nat} (hflying : s.results[index]? = some none)
    {result : Except Status EvaluationOutcome} {t : System} (hresults : t.results = s.results.set index (some result))
    (hbooks : t.observatory.books = s.observatory.books.landed result)
    (hends : succeeded (some result) || refusedWith .cancelled (some result) ||
      refusedWith .staleAuthority (some result) || refusedWith .limitExceeded (some result)) :
    Accounted t refusals where
  active := by
    obtain ⟨hlt, hnone⟩ := List.getElem?_eq_some_iff.mp hflying
    rw [hresults, hbooks, List.countP_set hlt, hnone, ← h.active]
    rfl
  evaluations := by
    rw [hresults, hbooks, countP_landed hflying _ rfl, ofNat_counted, ← h.evaluations]
    rfl
  cancelled := by
    rw [hresults, hbooks, countP_landed hflying _ rfl, Nat.add_right_comm, ofNat_counted, ← h.cancelled]
    rfl
  fenced := by
    rw [hresults, hbooks, countP_landed hflying _ rfl, ofNat_counted, ← h.fenced]
    rfl
  ends := by
    intro r hr
    rw [hresults] at hr
    rcases List.mem_or_eq_of_mem_set hr with hr | rfl
    · exact h.ends r hr
    · simpa using hends

/-- Publishing takes an evaluation out of flight and counts how it ends. -/
theorem Accounted.publish (h : Accounted s refusals) (index : Nat) : Accounted (s.step (.publish index)) refusals := by
  rw [System.step, System.publish]
  split
  · exact h
  · rename_i e he
    split
    · exact h
    · split_ifs with hready
      · rw [Bool.and_eq_true] at hready
        have hflying : s.results[index]? = some none := by
          rw [results, List.getElem?_map, he]
          exact congrArg some (Option.isNone_iff_eq_none.mp hready.1)
        exact h.landed hflying List.map_set Observatory.publishEvaluation_books Observatory.publishEvaluation_ends
      · exact h

theorem Accounted.step (h : Accounted s refusals) (a : Action) :
    Accounted (s.step a) (refusals ++ (s.refusal a).toList) := by
  have hquiet : s.refusal a = none → Accounted (s.step a) refusals →
      Accounted (s.step a) (refusals ++ (s.refusal a).toList) := by
    intro hnone hs
    rwa [hnone, Option.toList_none, List.append_nil]
  cases a with
  | evaluateAt now apply => exact h.evaluateAt now apply
  | publish index => exact hquiet rfl (h.publish index)
  | start => exact hquiet rfl (h.congr Observatory.books_start rfl)
  | rotateIncarnation => exact hquiet rfl (h.congr Observatory.books_rotateIncarnation rfl)
  | registerSource => exact hquiet rfl (h.congr Observatory.books_registerSource rfl)
  | publishIntent => exact hquiet rfl (h.congr Observatory.books_publishIntent rfl)
  | ingestObservation => exact hquiet rfl (h.congr Observatory.books_ingestObservation rfl)
  | setPolicy => exact hquiet rfl (h.congr Observatory.books_setPolicy rfl)
  | copyPolicy index => exact hquiet rfl (h.congr rfl (results_modify fun _ => result_copyPolicy))
  | testCancelled index worker => exact hquiet rfl (h.congr rfl (results_modify fun _ => result_testCancelled))
  | compareNext index worker => exact hquiet rfl (h.congr rfl (results_modify fun _ => result_compareNext))
  | suppressFinding | acknowledgeFinding =>
    refine hquiet rfl (h.congr ?_ rfl)
    dsimp only [System.step, Observatory.suppressFinding, Observatory.acknowledgeFinding, Observatory.books]
    split_ifs <;> rfl
  | _ => exact hquiet rfl (h.congr rfl rfl)

/-- **The engine's books balance.** In every state of every run, as many evaluations are active as are in flight, the
    64-bit counters are the evaluations that have ended so (and the calls refused for a cancellation), and the evaluations
    that are launched are these and the ones an envelope of the ledger has turned away. -/
theorem evaluations_accounted (config : ObservatoryConfig) (actions : List Action) :
    let start : System := ⟨.make config, []⟩
    let s := Run.exec step start actions
    let o := s.observatory
    o.activeEvaluations = s.evaluations.countP Evaluation.inFlight ∧
    o.counters.evaluations = UInt64.ofNat (s.results.countP succeeded) ∧
    o.counters.evaluationsCancelled =
      UInt64.ofNat (s.results.countP (refusedWith .cancelled) + (Run.outputs step refusal start actions).length) ∧
    o.counters.evaluationsFenced = UInt64.ofNat (s.results.countP (refusedWith .staleAuthority)) ∧
    s.evaluations.length = s.evaluations.countP Evaluation.inFlight + s.results.countP succeeded +
      s.results.countP (refusedWith .cancelled) + s.results.countP (refusedWith .staleAuthority) +
      s.results.countP (refusedWith .limitExceeded) := by
  intro start s o
  have hstart : Accounted start [] := ⟨rfl, rfl, rfl, rfl, fun r hr => (by cases hr)⟩
  have h : Accounted s (Run.outputs step refusal start actions) :=
    @Run.invariant_outputs _ _ _ (fun _ _ => True) _ _ _ (fun _ a _ h _ => h.step a) _ _ _ hstart
      (Run.permits_of_mem fun _ _ _ => trivial)
  have hflying : s.evaluations.countP Evaluation.inFlight = s.results.countP Option.isNone := List.countP_map.symm
  refine ⟨h.active.trans hflying.symm, h.evaluations, h.cancelled, h.fenced, ?_⟩
  rw [hflying, ← List.length_map Evaluation.result]
  exact length_eq_ends h.ends

end System

/-! ### Authority -/

namespace Observatory
variable {o o' o'' : Observatory}

/-- The authority has not gone back, and there is one epoch to each incarnation. -/
structure Advances (o o' : Observatory) : Prop where
  epoch : o.config.epoch ≤ o'.config.epoch
  incarnation : o.config.incarnation ≤ o'.config.incarnation
  moves : o'.config.incarnation = o.config.incarnation → o'.config.epoch = o.config.epoch

theorem Advances.of_config (h : o'.config.epoch = o.config.epoch)
    (h' : o'.config.incarnation = o.config.incarnation) : Advances o o' := ⟨h.ge, h'.ge, fun _ => h⟩

theorem Advances.trans (h : Advances o o') (h' : Advances o' o'') : Advances o o'' where
  epoch := h.epoch.trans h'.epoch
  incarnation := h.incarnation.trans h'.incarnation
  moves hsame := by
    have hmid : o'.config.incarnation = o.config.incarnation :=
      le_antisymm (hsame ▸ h'.incarnation) h.incarnation
    rw [h'.moves (hsame.trans hmid.symm), h.moves hmid]

/-- An authority between two equal ones is the same. -/
theorem Advances.between (h : Advances o o') (h' : Advances o' o'')
    (hsame : o''.config.incarnation = o.config.incarnation) :
    o'.config.epoch = o.config.epoch ∧ o'.config.incarnation = o.config.incarnation := by
  have hmid : o'.config.incarnation = o.config.incarnation := le_antisymm (hsame ▸ h'.incarnation) h.incarnation
  exact ⟨h.moves hmid, hmid⟩

theorem advances_rotateIncarnation {incarnation : Incarnation} {epoch : FabricEpoch} {now : NdoTime} :
    Advances o (o.rotateIncarnation incarnation epoch now).2 := by
  unfold rotateIncarnation
  split_ifs with hset hnext hepoch
  · exact .of_config rfl rfl
  · exact .of_config rfl rfl
  · exact .of_config rfl rfl
  · exact ⟨not_lt.mp hepoch, (not_le.mp hnext).le, fun hsame => absurd hsame (not_le.mp hnext).ne'⟩

theorem publishEvaluation_authority [DoubleChars] {input : EvaluationInput} {policy : ObservatoryPolicy}
    {targets : List TargetEvaluation} {apply : Bool} {outcome : EvaluationOutcome}
    (h : (o.publishEvaluation input policy targets apply).1 = .ok outcome) :
    input.epoch = o.config.epoch ∧ input.incarnation = o.config.incarnation := by
  unfold publishEvaluation at h
  dsimp only at h
  split_ifs at h with hcancelled hstopped hfenced
  all_goals rw [not_or, not_not, not_not] at hfenced
  all_goals exact hfenced

end Observatory

namespace System
variable [DoubleChars] {s : System} {a : Action} {index : Nat} {e e' : Evaluation}

theorem advances_step : s.observatory.Advances (s.step a).observatory := by
  by_cases hc : Configures a
  · cases a with
    | rotateIncarnation => exact Observatory.advances_rotateIncarnation
    | setPolicy policy now =>
      rcases @Observatory.setPolicy_cases s.observatory policy now with ⟨-, hset⟩ | ⟨-, hset⟩
      · exact .of_config (by rw [step, hset]) (by rw [step, hset])
      · exact .of_config (by rw [step, hset]) (by rw [step, hset])
    | _ => exact hc.elim
  · exact .of_config (by rw [step_config hc]) (by rw [step_config hc])

theorem advances_exec {actions : List Action} : s.observatory.Advances (Run.exec step s actions).observatory :=
  Run.always (I := fun t : System => s.observatory.Advances t.observatory) (fun _ _ h => h.trans advances_step)
    (.of_config rfl rfl)

theorem result_kept {o : Observatory} (hm : Evaluation.Moved o e e') (hend : e.inFlight = false) :
    e'.result = e.result := by
  cases hm with
  | published hfly => exact (Evaluation.not_landed hfly hend).elim
  | _ => rfl

/-- An evaluation ends in its own publication. -/
theorem landed_step (he : s.evaluations[index]? = some e) (hfly : e.result = none)
    (he' : (s.step a).evaluations[index]? = some e') (hland : e'.result ≠ none) :
    a = .publish index ∧ ∃ policy, e'.result = some (s.observatory.publishEvaluation e.input policy e.targets e.apply).1 := by
  have hresult : ∀ {t : System}, t.results[index]? = s.results[index]? → t.evaluations[index]? = some e' → False := by
    intro t hsame ht
    rw [results, results, List.getElem?_map, List.getElem?_map, he, ht] at hsame
    exact hland ((Option.some.inj hsame).trans hfly)
  have hmodify : ∀ {f : Evaluation → Evaluation} {i : Nat}, (∀ e, (f e).result = e.result) →
      (s.evaluations.modify i f)[index]? = some e' → False := by
    intro f i hf ht
    exact hresult (t := ⟨s.observatory, s.evaluations.modify i f⟩) (congrArg (·[index]?) (results_modify hf)) ht
  cases a with
  | publish i =>
    by_cases hi : i = index
    · subst hi
      refine ⟨rfl, ?_⟩
      rcases publish_spec he with ⟨-, hstay⟩ | ⟨policy, -, -, -, -, hset⟩
      · rw [he'] at hstay
        exact absurd ((congrArg Evaluation.result (Option.some.inj hstay)).trans hfly) hland
      · rw [he'] at hset
        exact ⟨policy, congrArg Evaluation.result (Option.some.inj hset)⟩
    · refine (hresult (t := s.step (.publish i)) ?_ he').elim
      rw [results, results, List.getElem?_map, List.getElem?_map, step, publish]
      repeat' split
      all_goals first | rfl | exact congrArg _ (List.getElem?_set_ne hi)
  | copyPolicy i => exact (hmodify (fun _ => result_copyPolicy) he').elim
  | testCancelled i worker => exact (hmodify (fun _ => result_testCancelled) he').elim
  | compareNext i worker => exact (hmodify (fun _ => result_compareNext) he').elim
  | evaluateAt now apply =>
    refine (hresult (t := s.step (.evaluateAt now apply)) ?_ he').elim
    have hlt : index < s.evaluations.length := (List.getElem?_eq_some_iff.mp he).1
    rw [results, results, List.getElem?_map, List.getElem?_map, step]
    rcases @evaluateAt_cases s now apply with hs | hs
    · rw [hs]
    · rw [hs, List.getElem?_append_left hlt]
  | _ => exact (hresult rfl he').elim

/-- Every evaluation was launched somewhere in the run. -/
theorem launched_exec {o : Observatory} {actions : List Action}
    (he : (Run.exec step ⟨o, []⟩ actions).evaluations[index]? = some e) :
    ∃ front now apply rest, actions = front ++ .evaluateAt now apply :: rest ∧
      index = (Run.exec step ⟨o, []⟩ front).evaluations.length ∧
      e.input = (Run.exec step ⟨o, []⟩ front).observatory.buildEvaluationInput now := by
  induction actions using List.reverseRecOn generalizing e with
  | nil => cases he
  | append_singleton actions a ih =>
    rw [Run.exec_append] at he
    rcases evaluations_step he with ⟨e₀, he₀, hm⟩ | ⟨now, apply, rfl, hindex, rfl⟩
    · obtain ⟨front, now, apply, rest, rfl, hindex, hinput⟩ := ih he₀
      exact ⟨front, now, apply, rest ++ [a], by simp, hindex, hm.input.1.trans hinput⟩
    · exact ⟨actions, now, apply, [], rfl, hindex, rfl⟩

/-- **A published evaluation has seen one authority.** It was launched and later published; its outcome carries the
    epoch and the incarnation of its launch, and at no moment in between were there others. -/
theorem published_under_one_authority (o : Observatory) (actions : List Action) {index : Nat} {e : Evaluation}
    {outcome : EvaluationOutcome} (he : (Run.exec step ⟨o, []⟩ actions).evaluations[index]? = some e)
    (hok : e.result = some (.ok outcome)) :
    ∃ front now apply between after,
      actions = front ++ .evaluateAt now apply :: between ++ .publish index :: after ∧
      let s := Run.exec step ⟨o, []⟩ front
      index = s.evaluations.length ∧ outcome.epoch = s.observatory.config.epoch ∧
      outcome.incarnation = s.observatory.config.incarnation ∧
      ∀ part, part <+: between →
        let t := Run.exec step s (.evaluateAt now apply :: part)
        t.observatory.config.epoch = outcome.epoch ∧ t.observatory.config.incarnation = outcome.incarnation := by
  induction actions using List.reverseRecOn generalizing e with
  | nil => cases he
  | append_singleton actions a ih =>
    rw [Run.exec_append] at he
    rcases evaluations_step he with ⟨e₀, he₀, hm⟩ | ⟨now, apply, rfl, hindex, rfl⟩
    · rcases hflight : e₀.result with _ | result
      · -- The last step of the run is the publication.
        obtain ⟨rfl, policy, hpublished⟩ := landed_step he₀ hflight he (by rw [hok]; exact Option.some_ne_none _)
        have hresult := Option.some.inj (hok.symm.trans hpublished)
        obtain ⟨hepoch, hincarnation⟩ := Observatory.publishEvaluation_authority hresult.symm
        have houtcome := Observatory.publishEvaluation_ok hresult.symm
        obtain ⟨front, now, apply, rest, rfl, hindex, hinput⟩ := launched_exec he₀
        rw [hinput] at hepoch hincarnation houtcome
        subst houtcome
        refine ⟨front, now, apply, rest, [], by simp, hindex, rfl, rfl, fun part hpart => ?_⟩
        obtain ⟨later, rfl⟩ := hpart
        rw [Run.exec_append, ← List.cons_append, Run.exec_append] at hincarnation
        exact advances_exec.between advances_exec hincarnation.symm
      · have hsame : e.result = e₀.result := result_kept hm (Evaluation.landed hflight)
        obtain ⟨front, now, apply, between, after, rfl, hrest⟩ := ih he₀ (hsame ▸ hok)
        exact ⟨front, now, apply, between, after ++ [a], by simp, hrest⟩
    · cases hok

end System

namespace Sample

/-- An evaluation that is published while the next incarnation is refused. -/
def contested : List Action :=
  [.start, .evaluateAt ⟨1⟩ true, .copyPolicy 0, .rotateIncarnation ⟨1⟩ ⟨2⟩ ⟨1⟩, .testCancelled 0 0, .compareNext 0 0,
    .publish 0, .rotateIncarnation ⟨2⟩ ⟨2⟩ ⟨1⟩]

end Sample

theorem System.published_under_one_authority_contested :
    let run := Run.exec (@System.step Sample.noDoubles) ⟨Sample.observatory, []⟩
    ∃ e outcome, (run Sample.contested).evaluations[0]? = some e ∧ e.result = some (.ok outcome) ∧
      ∃ front now apply between after,
        Sample.contested = front ++ .evaluateAt now apply :: between ++ .publish 0 :: after ∧
        0 = (run front).evaluations.length ∧ outcome.epoch = (run front).observatory.config.epoch ∧
        outcome.incarnation = (run front).observatory.config.incarnation ∧
        ∀ part, part <+: between →
          let t := Run.exec (@System.step Sample.noDoubles) (run front) (.evaluateAt now apply :: part)
          t.observatory.config.epoch = outcome.epoch ∧ t.observatory.config.incarnation = outcome.incarnation := by
  intro run
  have hpublished : ((run Sample.contested).evaluations[0]?.bind fun e => e.result.bind Except.toOption).isSome = true := by
    decide +kernel
  obtain ⟨outcome, hsome⟩ := Option.isSome_iff_exists.mp hpublished
  obtain ⟨e, he, hresult⟩ := Option.bind_eq_some_iff.mp hsome
  obtain ⟨result, hres, hok⟩ := Option.bind_eq_some_iff.mp hresult
  cases result with
  | error _ => cases hok
  | ok published =>
    exact ⟨e, published, he, hres,
      @System.published_under_one_authority Sample.noDoubles Sample.observatory Sample.contested _ _ _ he hres⟩

end DriftObservatory
