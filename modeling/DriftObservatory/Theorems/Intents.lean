import DriftObservatory.Theorems.Lifetime
import DriftObservatory.Theorems.Staleness

/-! The committed intent of a target through a run: its generation and epoch only advance, and a generation keeps the
    content it was committed with. -/

namespace DriftObservatory

/-! ### The content of a document -/

namespace IntentGenerationDocument

/-- What a declared object says. -/
def objectContent (entry : ObjectId × IntentObject) :
    ObjectId × ObjectExistence × List (FieldPath × FieldComparability × Value) :=
  (entry.1, entry.2.existence,
    entry.2.fields.entries.map fun field => (field.1, field.2.comparability, field.2.intended))

/-- The documents say the same. -/
structure SameContent (d d' : IntentGenerationDocument) : Prop where
  target : d'.target = d.target
  generation : d'.generation = d.generation
  epoch : d'.epoch = d.epoch
  authority : d'.authority = d.authority
  policy : d'.policy = d.policy
  authoredAt : d'.authoredAt = d.authoredAt
  evidence : d'.evidence = d.evidence
  objects : d'.objects.entries.map objectContent = d.objects.entries.map objectContent

/-- The documents differ, and their content digests do not. -/
def Collides (d d' : IntentGenerationDocument) : Prop :=
  ¬ SameContent d d' ∧ d'.computeContentDigest = d.computeContentDigest

variable {d d' : IntentGenerationDocument}

theorem flatMap_eq_of_map_eq {α β γ : Type} {g : α → γ} {f : α → List β} (hf : ∀ a b, g a = g b → f a = f b) :
    ∀ {xs ys : List α}, xs.map g = ys.map g → xs.flatMap f = ys.flatMap f
  | [], [], _ => rfl
  | [], _ :: _, h => by cases h
  | _ :: _, [], h => by cases h
  | x :: xs, y :: ys, h => by
    rw [List.map_cons, List.map_cons, List.cons.injEq] at h
    rw [List.flatMap_cons, List.flatMap_cons, hf x y h.1, flatMap_eq_of_map_eq hf h.2]

/-- An object with the same content has the same identity, the same number of fields, and whatever is computed from
    the content of its fields. -/
theorem objectContent_eq {e e' : ObjectId × IntentObject} (h : objectContent e' = objectContent e) :
    e'.1 = e.1 ∧ e'.2.existence = e.2.existence ∧ e'.2.fields.size = e.2.fields.size ∧
      (e'.2.fields.entries.map fun field => (field.1, field.2.comparability, field.2.intended)) =
        e.2.fields.entries.map fun field => (field.1, field.2.comparability, field.2.intended) := by
  simp only [objectContent, Prod.mk.injEq] at h
  obtain ⟨hid, hexistence, hfields⟩ := h
  have hsize := congrArg List.length hfields
  rw [List.length_map, List.length_map] at hsize
  exact ⟨hid, hexistence, hsize, hfields⟩

theorem SameContent.size (h : SameContent d d') : d'.objects.size = d.objects.size := by
  have hsize := congrArg List.length h.objects
  rwa [List.length_map, List.length_map] at hsize

theorem SameContent.contentPreimage (h : SameContent d d') : d'.contentPreimage = d.contentPreimage := by
  have hobjects : (d'.objects.entries.flatMap fun entry => objectPreimage entry.1 entry.2) =
      d.objects.entries.flatMap fun entry => objectPreimage entry.1 entry.2 := by
    refine flatMap_eq_of_map_eq (fun e' e he => ?_) h.objects
    obtain ⟨hid, hexistence, hsize, hfields⟩ := objectContent_eq he
    rw [objectPreimage, objectPreimage, hid, hexistence, hsize]
    refine congrArg _ (flatMap_eq_of_map_eq (fun f' f hf => ?_) hfields)
    simp only [Prod.mk.injEq] at hf
    rw [hf.1, hf.2.1, hf.2.2]
  simp only [IntentGenerationDocument.contentPreimage, h.target, h.generation, h.epoch, h.authority, h.policy,
    h.authoredAt, h.evidence, h.size, hobjects]

theorem SameContent.computeContentDigest (h : SameContent d d') :
    d'.computeContentDigest = d.computeContentDigest := by
  rw [IntentGenerationDocument.computeContentDigest, IntentGenerationDocument.computeContentDigest, h.contentPreimage]

theorem SameContent.validate {limits : RuntimeLimits} (h : SameContent d d') : d'.validate limits = d.validate limits := by
  have hobjects : (d'.objects.entries.flatMap fun entry => validateObject limits entry.1 entry.2) =
      d.objects.entries.flatMap fun entry => validateObject limits entry.1 entry.2 := by
    refine flatMap_eq_of_map_eq (fun e' e he => ?_) h.objects
    obtain ⟨hid, -, hsize, hfields⟩ := objectContent_eq he
    rw [validateObject, validateObject, hid, hsize]
    refine congrArg _ (flatMap_eq_of_map_eq (fun f' f hf => ?_) hfields)
    simp only [Prod.mk.injEq] at hf
    rw [validateField, validateField, hf.1, hf.2.2]
  simp only [IntentGenerationDocument.validate, h.target, h.generation, h.epoch, h.authority, h.policy, h.size, hobjects]

end IntentGenerationDocument

/-! ### One commit -/

namespace FindingLedger

open IntentGenerationDocument

section Commit
variable [DoubleChars] {L : FindingLedger} {document : IntentGenerationDocument} {now : NdoTime}

omit [DoubleChars] in
theorem findings_sweep {step : Finding → Finding × List TimelineEntry} :
    (L.sweep step).findings = L.findings.mapValues fun _ f => (step f).1 := by
  rw [sweep, findings_appendAll]

/-- What a commit reports about a document that repeats the committed one. -/
def repeatedReport (document : IntentGenerationDocument) : IntentCommitReport where
  target := document.target
  epoch := document.epoch
  duplicateIdentical := true
  committedGeneration := document.generation

/-- A commit that is refused, or repeats the committed generation, leaves the ledger alone; another one puts the baseline
    of its document in place. -/
inductive Commits (L : FindingLedger) (document : IntentGenerationDocument) (now : NdoTime) :
    Status × FindingLedger × IntentCommitReport → Prop
  | refused {status : Status} {report : IntentCommitReport} (h : status.ok = false) :
      Commits L document now (status, L, report)
  | repeated {existing : IntentBaseline} (hb : L.findBaseline document.target = some existing)
      (hgeneration : document.generation = existing.generation)
      (hdigest : document.computeContentDigest = existing.contentDigest) :
      Commits L document now (.okay, L, repeatedReport document)
  | first {M : FindingLedger} {report : IntentCommitReport} (hb : L.findBaseline document.target = none)
      (hroom : L.baselines.size < L.limits.maxTargets) (hvalid : (document.validate L.limits).ok = true)
      (hreport : report.duplicateIdentical = false) (hlimits : M.limits = L.limits)
      (hbaselines : M.baselines = L.baselines.insert document.target (baselineOf document now))
      (hfindings : M.findings = L.findings) : Commits L document now (.okay, M, report)
  | advanced {M : FindingLedger} {report : IntentCommitReport} {existing : IntentBaseline}
      (hb : L.findBaseline document.target = some existing) (hvalid : (document.validate L.limits).ok = true)
      (hepoch : existing.epoch ≤ document.epoch) (hgeneration : existing.generation < document.generation)
      (hreport : report.duplicateIdentical = false) (hlimits : M.limits = L.limits)
      (hbaselines : M.baselines =
        L.baselines.insert document.target { baselineOf document now with target := existing.target })
      (hfindings : M.findings = L.findings.mapValues fun _ f =>
        (rebaseFinding L.limits (baselineOf document now) document.target document.generation now f).1) :
      Commits L document now (.okay, M, report)

theorem commits_commitIntent : Commits L document now (L.commitIntent document now) := by
  unfold commitIntent
  dsimp only
  split
  · rename_i hbad
    exact .refused (by simpa using hbad)
  · rename_i hgood
    have hvalid : (document.validate L.limits).ok = true := by simpa using hgood
    split
    · rename_i hb
      split
      · exact .refused rfl
      · rename_i hroom
        exact .first hb (not_le.mp hroom) hvalid rfl rfl rfl rfl
    · rename_i existing hb
      split
      · exact .refused rfl
      · rename_i hepoch
        split
        · exact .refused rfl
        · rename_i hold
          split
          · rename_i hsame
            split
            · rename_i hdigest
              rw [← hsame]
              exact .repeated hb hsame hdigest
            · exact .refused rfl
          · rename_i hne
            obtain ⟨baselines, hbaselines⟩ : ∃ baselines, baselines = L.baselines.insert document.target
                { baselineOf document now with target := existing.target } := ⟨_, rfl⟩
            have hsweep := @SameGround.sweep { L with baselines := baselines } _
              (rebaseFinding L.limits (baselineOf document now) document.target document.generation now)
              (SameGround.refl _)
            rw [← hbaselines]
            exact .advanced hb hvalid (not_lt.mp hepoch) (lt_of_le_of_ne (not_lt.mp hold) (Ne.symm hne)) rfl
              hsweep.limits (hsweep.baselines.trans hbaselines) findings_sweep

/-- A refused commit leaves the ledger alone. -/
theorem commitIntent_refused (h : (L.commitIntent document now).1.ok = false) : (L.commitIntent document now).2.1 = L := by
  have hcommits := @commits_commitIntent _ L document now
  generalize L.commitIntent document now = result at hcommits h ⊢
  cases hcommits with
  | refused | repeated => rfl
  | first | advanced => cases h

/-- A valid document with the generation, the epoch and the content digest of the baseline is accepted and changes
    nothing. -/
theorem commitIntent_repeated {existing : IntentBaseline} (hvalid : (document.validate L.limits).ok = true)
    (hb : L.findBaseline document.target = some existing) (hepoch : document.epoch = existing.epoch)
    (hgeneration : document.generation = existing.generation)
    (hdigest : document.computeContentDigest = existing.contentDigest) :
    L.commitIntent document now = (.okay, L, repeatedReport document) := by
  have hdigest' : (baselineOf document now).contentDigest = existing.contentDigest := hdigest
  unfold commitIntent
  dsimp only
  rw [hvalid, Bool.not_true, if_neg Bool.false_ne_true, hb]
  dsimp only
  rw [if_neg (by rw [hepoch]; exact lt_irrefl _), if_neg (by rw [hgeneration]; exact lt_irrefl _), if_pos hgeneration,
    if_pos hdigest', ← hgeneration]
  rfl

/-- An accepted document of the generation of the baseline has its content digest. -/
theorem digest_of_accepted {existing : IntentBaseline} (hb : L.findBaseline document.target = some existing)
    (hgeneration : document.generation = existing.generation) (h : (L.commitIntent document now).1.ok = true) :
    document.computeContentDigest = existing.contentDigest := by
  have hcommits := @commits_commitIntent _ L document now
  generalize L.commitIntent document now = result at hcommits h
  cases hcommits with
  | refused hbad =>
    rw [hbad] at h
    cases h
  | repeated hb' _ hdigest =>
    rw [hb] at hb'
    rw [hdigest, Option.some.inj hb']
  | first hb' =>
    rw [hb] at hb'
    cases hb'
  | advanced hb' _ _ hnew =>
    rw [hb] at hb'
    obtain rfl := Option.some.inj hb'
    rw [hgeneration] at hnew
    exact absurd hnew (lt_irrefl _)

end Commit

/-! ### Runs -/

section Runs
variable [DoubleChars] {L M : FindingLedger} {op : Operation} {target : TargetId}

/-- The later ledger has every baseline, at its generation unchanged or at a newer one. -/
def Advanced (L M : FindingLedger) : Prop :=
  ∀ target baseline, L.findBaseline target = some baseline → ∃ baseline', M.findBaseline target = some baseline' ∧
    baseline.epoch ≤ baseline'.epoch ∧ (baseline' = baseline ∨ baseline.generation < baseline'.generation)

omit [DoubleChars] in
theorem Advanced.refl (L : FindingLedger) : Advanced L L := fun _ baseline h => ⟨baseline, h, le_refl _, .inl rfl⟩

omit [DoubleChars] in
theorem Advanced.trans {N : FindingLedger} (h : Advanced L M) (h' : Advanced M N) : Advanced L N := by
  intro target baseline hb
  obtain ⟨b, hb, hepoch, hsame⟩ := h target baseline hb
  obtain ⟨b', hb', hepoch', hsame'⟩ := h' target b hb
  refine ⟨b', hb', hepoch.trans hepoch', ?_⟩
  rcases hsame with rfl | hnew
  · exact hsame'
  · rcases hsame' with rfl | hnew'
    · exact .inr hnew
    · exact .inr (hnew.trans hnew')

theorem advanced_commitIntent {document : IntentGenerationDocument} {now : NdoTime} :
    Advanced L (L.commitIntent document now).2.1 := by
  have hcommits := @commits_commitIntent _ L document now
  generalize L.commitIntent document now = result at hcommits ⊢
  cases hcommits with
  | refused | repeated => exact Advanced.refl L
  | first hb _ _ _ _ hbaselines _ =>
    intro target baseline hfind
    have hne : document.target ≠ target := fun heq => by
      rw [heq, hfind] at hb
      cases hb
    refine ⟨baseline, ?_, le_refl _, .inl rfl⟩
    rw [findBaseline, hbaselines, OrdMap.find?_insert_of_ne hne]
    exact hfind
  | @advanced M report existing hb hvalid hepoch hgeneration hreport hlimits hbaselines =>
    intro target baseline hfind
    by_cases htarget : document.target = target
    · subst htarget
      rw [hb] at hfind
      obtain rfl := Option.some.inj hfind
      refine ⟨{ baselineOf document now with target := existing.target }, ?_, hepoch, .inr hgeneration⟩
      rw [findBaseline, hbaselines, OrdMap.find?_insert_self]
    · refine ⟨baseline, ?_, le_refl _, .inl rfl⟩
      rw [findBaseline, hbaselines, OrdMap.find?_insert_of_ne htarget]
      exact hfind

theorem advanced_operate : Advanced L (L.operate op) := by
  have hsame := fun hcommit => @baselines_operate _ L op hcommit
  cases op with
  | commitIntent => exact advanced_commitIntent
  | _ =>
    intro target baseline hfind
    refine ⟨baseline, ?_, le_refl _, .inl rfl⟩
    rw [findBaseline, hsame fun _ _ heq => (by cases heq)]
    exact hfind

theorem advanced_exec (run : List Operation) : Advanced L (Run.exec operate L run) :=
  Run.always (fun _ _ hM => Advanced.trans hM advanced_operate) (Advanced.refl L)

/-- The document that an operation commits, with its time. -/
def commitment (L : FindingLedger) : Operation → Option (IntentGenerationDocument × NdoTime)
  | .commitIntent document now =>
    if (L.commitIntent document now).1.ok && !(L.commitIntent document now).2.2.duplicateIdentical then
      some (document, now)
    else none
  | _ => none

/-- Every baseline is the one of a committed document, which is still valid. -/
def Documented (L : FindingLedger) (committed : List (IntentGenerationDocument × NdoTime)) : Prop :=
  ∀ target baseline, L.findBaseline target = some baseline → ∃ document now, (document, now) ∈ committed ∧
    document.target = target ∧ (document.validate L.limits).ok = true ∧ baseline = baselineOf document now

theorem documented_commitIntent {committed : List (IntentGenerationDocument × NdoTime)}
    {document : IntentGenerationDocument} {now : NdoTime} (h : L.Documented committed) :
    (L.commitIntent document now).2.1.Documented
      (committed ++ (L.commitment (.commitIntent document now)).toList) := by
  have hcommits := @commits_commitIntent _ L document now
  have hcommitment : L.commitment (.commitIntent document now) =
      if (L.commitIntent document now).1.ok && !(L.commitIntent document now).2.2.duplicateIdentical then
        some (document, now)
      else none := rfl
  rw [hcommitment]
  have hold : ∀ M : FindingLedger, M.limits = L.limits → ∀ target baseline more, L.findBaseline target = some baseline →
      ∃ document now, (document, now) ∈ committed ++ more ∧ document.target = target ∧
        (document.validate M.limits).ok = true ∧ baseline = baselineOf document now := by
    intro M hlimits target baseline more hfind
    obtain ⟨d, time, hmem, htarget, hvalid, hbaseline⟩ := h target baseline hfind
    exact ⟨d, time, List.mem_append_left _ hmem, htarget, hlimits ▸ hvalid, hbaseline⟩
  generalize L.commitIntent document now = result at hcommits ⊢
  cases hcommits with
  | refused | repeated => exact fun target baseline hfind => hold L rfl target baseline _ hfind
  | first hb hroom hvalid hreport hlimits hbaselines =>
    intro target baseline hfind
    rw [findBaseline, hbaselines, OrdMap.find?_insert] at hfind
    split_ifs at hfind with htarget
    · refine ⟨document, now, ?_, htarget, hlimits ▸ hvalid, (Option.some.inj hfind).symm⟩
      rw [hreport]
      exact List.mem_append_right _ List.mem_cons_self
    · exact hold _ hlimits target baseline _ hfind
  | advanced hb hvalid hepoch hgeneration hreport hlimits hbaselines =>
    intro target baseline hfind
    rw [findBaseline, hbaselines, OrdMap.find?_insert] at hfind
    split_ifs at hfind with htarget
    · refine ⟨document, now, ?_, htarget, hlimits ▸ hvalid, ?_⟩
      · rw [hreport]
        exact List.mem_append_right _ List.mem_cons_self
      · -- The baseline that is replaced is the one of a document for the same target.
        obtain ⟨d, time, -, hd, -, rfl⟩ := h _ _ hb
        rw [← Option.some.inj hfind]
        exact congrArg (fun t => { baselineOf document now with target := t }) hd
    · exact hold _ hlimits target baseline _ hfind

theorem documented_operate {committed : List (IntentGenerationDocument × NdoTime)} (h : L.Documented committed) :
    (L.operate op).Documented (committed ++ (L.commitment op).toList) := by
  have hsame := fun hcommit => @baselines_operate _ L op hcommit
  have hlimits := @limits_operate _ L op
  cases op with
  | commitIntent => exact documented_commitIntent h
  | _ =>
    intro target baseline hfind
    rw [findBaseline, hsame fun _ _ heq => (by cases heq)] at hfind
    obtain ⟨document, now, hmem, htarget, hvalid, hbaseline⟩ := h target baseline hfind
    exact ⟨document, now, List.mem_append_left _ hmem, htarget, hlimits ▸ hvalid, hbaseline⟩

end Runs

/-- In every run: a commit that is refused changes nothing; each baseline keeps its document until a newer generation
    replaces it, at no older epoch; a document with the content of the committed one is accepted and changes nothing, and
    one of the committed generation with another content is refused, unless the content digests collide. -/
theorem intents_monotone [DoubleChars] (limits : RuntimeLimits) (run : List Operation) :
    (∀ document now, ((Run.exec operate { limits := limits } run).commitIntent document now).1.ok = false →
      ((Run.exec operate { limits := limits } run).commitIntent document now).2.1 =
        Run.exec operate { limits := limits } run) ∧
    ∀ target baseline, (Run.exec operate { limits := limits } run).findBaseline target = some baseline →
      (∀ more, ∃ baseline', (Run.exec operate { limits := limits } (run ++ more)).findBaseline target = some baseline' ∧
        baseline.epoch ≤ baseline'.epoch ∧ (baseline' = baseline ∨ baseline.generation < baseline'.generation)) ∧
      ∃ committed time, (committed, time) ∈ Run.outputs operate commitment { limits := limits } run ∧
        committed.target = target ∧ baseline = baselineOf committed time ∧
        (∀ document now, SameContent committed document →
          (Run.exec operate { limits := limits } run).commitIntent document now =
            (.okay, Run.exec operate { limits := limits } run, repeatedReport document)) ∧
        ∀ document now, document.target = target → document.generation = baseline.generation →
          ((Run.exec operate { limits := limits } run).commitIntent document now).1.ok = true →
            SameContent committed document ∨ Collides committed document := by
  have hdocumented := @Run.invariant_outputs _ _ operate (fun _ _ => True) _ commitment Documented
    (fun M op out hM _ => documented_operate hM) run { limits := limits } [] (fun _ _ hnone => (by cases hnone))
    (Run.permits_of_mem fun _ _ _ => trivial)
  have hmore := fun more => @advanced_exec _ (Run.exec operate { limits := limits } run) more
  rw [List.nil_append] at hdocumented
  simp only [Run.exec_append]
  generalize Run.outputs operate commitment { limits := limits } run = commitments at hdocumented ⊢
  generalize Run.exec operate { limits := limits } run = L at hdocumented hmore ⊢
  refine ⟨fun document now hrefused => commitIntent_refused hrefused, fun target baseline hfind => ?_⟩
  obtain ⟨committed, time, hmem, htarget, hvalid, rfl⟩ := hdocumented target baseline hfind
  refine ⟨fun more => hmore more target _ hfind, committed, time, hmem, htarget, rfl, fun document now hsame => ?_,
    fun document now htarget' hgeneration hok => ?_⟩
  · refine @commitIntent_repeated _ L document now (baselineOf committed time) ?_ ?_ hsame.epoch hsame.generation
      hsame.computeContentDigest
    · rw [hsame.validate]
      exact hvalid
    · rw [hsame.target, htarget]
      exact hfind
  · by_cases hsame : SameContent committed document
    · exact .inl hsame
    · rw [← htarget'] at hfind
      exact .inr ⟨hsame, digest_of_accepted hfind hgeneration hok⟩

end FindingLedger

theorem FindingLedger.intents_monotone_publish :
    ∃ baseline, (Run.exec (@operate Sample.bitDoubles) { limits := {} }
        [.commitIntent Sample.document ⟨1⟩]).findBaseline Sample.target = some baseline ∧
      baseline.generation = Sample.document.generation := by
  have hthere : ((Run.exec (@operate Sample.bitDoubles) { limits := {} }
      [.commitIntent Sample.document ⟨1⟩]).findBaseline Sample.target).isSome = true := by decide +kernel
  obtain ⟨baseline, hfind⟩ := Option.isSome_iff_exists.mp hthere
  refine ⟨baseline, hfind, ?_⟩
  obtain ⟨-, committed, time, hmem, -, rfl, -⟩ := (@intents_monotone Sample.bitDoubles {}
    [.commitIntent Sample.document ⟨1⟩]).2 Sample.target baseline hfind
  have hall : ((Run.outputs (@operate Sample.bitDoubles) (@commitment Sample.bitDoubles) { limits := {} }
      [.commitIntent Sample.document ⟨1⟩]).all fun c => c.1.generation == Sample.document.generation) = true := by
    decide +kernel
  exact eq_of_beq (List.all_eq_true.mp hall _ hmem)

end DriftObservatory
