import DriftObservatory.Lib.Ascending
import DriftObservatory.Theorems.Evidence
import DriftObservatory.Theorems.Suppression

/-! The observation windows through the life of a ledger: their order, their bound, and the newest observation of a
    source, which is the one the comparator keeps. -/

namespace DriftObservatory

open Json

/-! ### The order of a window -/

/-- What a window is ordered by. -/
def ObservationSnapshot.windowKey (s : ObservationSnapshot) : FabricEpoch ×ₗ Incarnation ×ₗ SourceSequence :=
  toLex (s.epoch, toLex (s.incarnation, s.sequence))

/-- The window of a snapshot. -/
def ObservationSnapshot.windowOf (s : ObservationSnapshot) : SourceWindowKey := ⟨s.target, s.source⟩

def RetainedObservation.windowKey (o : RetainedObservation) : FabricEpoch ×ₗ Incarnation ×ₗ SourceSequence :=
  o.snapshot.windowKey

namespace FindingLedger

open Ascending

theorem olderThan_iff (a b : RetainedObservation) : olderThan a b = true ↔ a.windowKey < b.windowKey := by
  simp only [olderThan, RetainedObservation.windowKey, ObservationSnapshot.windowKey, Prod.Lex.toLex_lt_toLex]
  by_cases he : a.snapshot.epoch = b.snapshot.epoch
  · by_cases hi : a.snapshot.incarnation = b.snapshot.incarnation
    · simp [he, hi]
    · simp [he, hi]
  · simp [he]

theorem windowKey_inj {s s' : ObservationSnapshot} : s.windowKey = s'.windowKey ↔
    s.epoch = s'.epoch ∧ s.incarnation = s'.incarnation ∧ s.sequence = s'.sequence := by
  simp only [ObservationSnapshot.windowKey, EmbeddingLike.apply_eq_iff_eq, Prod.mk.injEq]

/-- The window of an observation before it is recorded. -/
def windowFor (L : FindingLedger) (s : ObservationSnapshot) : List RetainedObservation :=
  (L.windows.find? s.windowOf).getD []

theorem mem_windowFor {L : FindingLedger} {s : ObservationSnapshot} {o : RetainedObservation} (h : o ∈ L.windowFor s) :
    ∃ window, L.windows.find? s.windowOf = some window ∧ o ∈ window := by
  unfold windowFor at h
  cases hfind : L.windows.find? s.windowOf with
  | none =>
    rw [hfind] at h
    cases h
  | some window =>
    rw [hfind] at h
    exact ⟨window, rfl, h⟩

section Record
variable {L : FindingLedger} {snapshot : ObservationSnapshot} {verdict : FreshnessVerdict} {recovered : Bool}
  {newest : RetainedObservation}

/-- What recording reports about an observation before it is compared with the newest one. -/
def admissionReport (snapshot : ObservationSnapshot) (verdict : FreshnessVerdict) : ObservationAdmission where
  snapshot := snapshot.snapshotId
  source := snapshot.source
  target := snapshot.target
  sequence := snapshot.sequence
  freshness := verdict.state

/-- An observation with the key of the newest one is a duplicate or a conflict. -/
theorem recordObservation_repeated (hvalid : (snapshot.validate L.limits).ok = true)
    (hnewest : (L.windowFor snapshot).getLast? = some newest) (hkey : snapshot.windowKey = newest.windowKey) :
    L.recordObservation snapshot verdict recovered =
      if snapshot.computeContentDigest = newest.snapshot.computeContentDigest then
        (.okay, L, { admissionReport snapshot verdict with duplicateIdentical := true })
      else
        (.conflict .observationDuplicateConflicting
          (ascii "two observations claim the same source sequence with different content"), L,
          admissionReport snapshot verdict) := by
  obtain ⟨hepoch, hincarnation, hsequence⟩ := windowKey_inj.mp hkey
  have hfence : fenceObservation newest.snapshot snapshot (admissionReport snapshot verdict) =
      if snapshot.computeContentDigest = newest.snapshot.computeContentDigest then
        .inl (.okay, { admissionReport snapshot verdict with duplicateIdentical := true })
      else
        .inl (.conflict .observationDuplicateConflicting
          (ascii "two observations claim the same source sequence with different content"),
          admissionReport snapshot verdict) := by
    rw [fenceObservation, if_neg (by rw [hincarnation]; exact lt_irrefl _), if_neg (by rw [hepoch]; exact lt_irrefl _),
      if_pos ⟨hincarnation, hsequence⟩]
  unfold recordObservation
  dsimp only
  rw [if_neg (by simp [hvalid])]
  rw [show ((L.windows.find? ⟨snapshot.target, snapshot.source⟩).getD []).getLast? = some newest from hnewest]
  dsimp only
  simp only [admissionReport] at hfence ⊢
  rw [hfence]
  split_ifs <;> rfl

theorem recordObservation_invalid (h : (snapshot.validate L.limits).ok = false) :
    L.recordObservation snapshot verdict recovered = (snapshot.validate L.limits, L, {}) := by
  unfold recordObservation
  dsimp only
  rw [if_pos (by simpa using h)]

/-- Recording leaves the ledger alone, or puts a valid observation with another key than the newest one into its
    window. -/
theorem recordObservation_spec :
    ((L.recordObservation snapshot verdict recovered).2.1 = L ∧
      ((L.recordObservation snapshot verdict recovered).1.ok = true →
        (L.recordObservation snapshot verdict recovered).2.2.duplicateIdentical = true)) ∨
    ((L.recordObservation snapshot verdict recovered).1.ok = true ∧
      (L.recordObservation snapshot verdict recovered).2.2.duplicateIdentical = false ∧
      (∀ newest, (L.windowFor snapshot).getLast? = some newest → snapshot.windowKey ≠ newest.windowKey) ∧
      (L.recordObservation snapshot verdict recovered).2.1 = { L with
        windows := L.windows.insert snapshot.windowOf
          (boundWindow L.limits.maxRetainedSnapshotsPerSource
            (insertLower olderThan ⟨snapshot, verdict, recovered⟩ (L.windowFor snapshot))) }.bumpRevision) := by
  rcases @recordObservation_cases L snapshot verdict recovered with hsame | ⟨hok, hdup, hwindow⟩
  · exact .inl hsame
  · refine .inr ⟨hok, hdup, fun newest hnewest hkey => ?_, hwindow⟩
    have hvalid : (snapshot.validate L.limits).ok = true := by
      by_contra hbad
      rw [recordObservation_invalid (by simpa using hbad)] at hok
      exact hbad hok
    have hrepeated := @recordObservation_repeated L snapshot verdict recovered newest hvalid hnewest hkey
    rw [hrepeated] at hok hdup
    by_cases hdigest : snapshot.computeContentDigest = newest.snapshot.computeContentDigest
    · rw [if_pos hdigest] at hdup
      cases hdup
    · rw [if_neg hdigest] at hok
      cases hok

end Record

/-! ### Eviction -/

/-- Eviction keeps the newest observation and brings the window back to its bound. -/
theorem boundWindow_eq {limit : Nat} {front : List RetainedObservation} {newest : RetainedObservation} (hlimit : 1 ≤ limit)
    (hlength : front.length ≤ limit) : ∃ front', boundWindow limit (front ++ [newest]) = front' ++ [newest] ∧
      front'.Sublist front ∧ (front' ++ [newest]).length ≤ limit := by
  unfold boundWindow
  split_ifs with hfull
  · have hvictim : victim (front ++ [newest]) < front.length := by
      rw [victim, List.dropLast_concat]
      rw [List.length_append, List.length_singleton] at hfull
      cases hfind : front.findIdx? RetainedObservation.recovered with
      | none =>
        show 0 < front.length
        omega
      | some i => exact (List.findIdx?_eq_some_iff_findIdx_eq.mp hfind).1
    refine ⟨front.eraseIdx (victim (front ++ [newest])), List.eraseIdx_append_of_lt_length hvictim _,
      List.eraseIdx_sublist _ _, ?_⟩
    rw [List.length_append, List.length_eraseIdx_of_lt hvictim, List.length_singleton]
    omega
  · exact ⟨front, rfl, List.Sublist.refl _, not_lt.mp hfull⟩

/-! ### Windows that are read back -/

section KeepLast
variable {α : Type} {limit : Nat} {xs ys : List α} {x : α}

theorem keepLast_of_le (h : xs.length ≤ limit) : keepLast limit xs = xs := by
  rw [keepLast, Nat.sub_eq_zero_of_le h, List.drop_zero]

theorem keepLast_keepLast_append : keepLast limit (keepLast limit xs ++ ys) = keepLast limit (xs ++ ys) := by
  rcases Nat.le_total xs.length limit with h | h
  · rw [keepLast_of_le h]
  · simp only [keepLast, List.length_append, List.length_drop, List.drop_append, List.drop_drop]
    congr 2 <;> omega

theorem keepLast_concat (hlimit : 1 ≤ limit) : keepLast limit (xs ++ [x]) = xs.drop (xs.length + 1 - limit) ++ [x] := by
  rw [keepLast, List.length_append, List.length_singleton, List.drop_append_of_le_length (by omega)]

/-- The window of a restored observation: the oldest record makes room. -/
theorem keepLast_room (hlimit : 1 ≤ limit) (h : xs.length ≤ limit) :
    (if limit ≤ xs.length then xs.tail else xs) ++ [x] = keepLast limit (xs ++ [x]) := by
  rw [keepLast_concat hlimit]
  split_ifs with hfull
  · rw [show xs.length + 1 - limit = 1 by omega, List.drop_one]
  · rw [show xs.length + 1 - limit = 0 by omega, List.drop_zero]

end KeepLast

theorem windowOf_reread {s : ObservationSnapshot} {limits : RuntimeLimits} :
    (s.reread limits).windowOf = s.windowOf := by
  unfold ObservationSnapshot.reread
  generalize (s.reassembled limits).computeSnapshotId = id
  rfl

theorem windowKey_reread {s : ObservationSnapshot} {limits : RuntimeLimits} :
    (s.reread limits).windowKey = s.windowKey := by
  unfold ObservationSnapshot.reread
  generalize (s.reassembled limits).computeSnapshotId = id
  rfl

/-- A snapshot that was read back. -/
def recalled (s : ObservationSnapshot) : RetainedObservation where
  snapshot := s
  freshness := { state := .recoveredNotFresh, reason := .evidenceRecoveredNotFresh }
  recovered := true

section Restored
variable {limits : RuntimeLimits} {key : SourceWindowKey}

theorem find?_retain {windows : OrdMap SourceWindowKey (List RetainedObservation)} {s : ObservationSnapshot} :
    (retain limits windows s).find? key = if s.windowOf = key then
      some ((if limits.maxRetainedSnapshotsPerSource ≤ ((windows.find? key).getD []).length then
        ((windows.find? key).getD []).tail else (windows.find? key).getD []) ++ [recalled s])
    else windows.find? key := by
  rw [retain, restoreObservation, OrdMap.find?_insert]
  by_cases hkey : s.windowOf = key
  · subst hkey
    rw [if_pos rfl]
    exact if_pos rfl
  · rw [if_neg hkey]
    exact if_neg hkey

theorem find?_foldl_retain (hlimit : 1 ≤ limits.maxRetainedSnapshotsPerSource) {ss : List ObservationSnapshot}
    {windows : OrdMap SourceWindowKey (List RetainedObservation)}
    (hwindow : ((windows.find? key).getD []).length ≤ limits.maxRetainedSnapshotsPerSource) :
    (ss.foldl (retain limits) windows).find? key =
      if (ss.filter fun s => s.windowOf = key) = [] then windows.find? key
      else some (keepLast limits.maxRetainedSnapshotsPerSource
        ((windows.find? key).getD [] ++ (ss.filter fun s => s.windowOf = key).map recalled)) := by
  induction ss generalizing windows with
  | nil => rfl
  | cons s ss ih =>
    rw [List.foldl_cons]
    by_cases hkey : s.windowOf = key
    · have hone : (retain limits windows s).find? key = some (keepLast limits.maxRetainedSnapshotsPerSource
          ((windows.find? key).getD [] ++ [recalled s])) := by
        rw [find?_retain, if_pos hkey, keepLast_room hlimit hwindow]
      have hlength : (((retain limits windows s).find? key).getD []).length ≤ limits.maxRetainedSnapshotsPerSource := by
        rw [hone, Option.getD_some, keepLast, List.length_drop]
        omega
      rw [ih hlength, hone, Option.getD_some, List.filter_cons_of_pos (by simpa using hkey),
        if_neg (List.cons_ne_nil _ _), keepLast_keepLast_append, List.append_assoc, List.map_cons]
      split_ifs with hnil
      · rw [hnil]
        rfl
      · rfl
    · have hsame : (retain limits windows s).find? key = windows.find? key := by rw [find?_retain, if_neg hkey]
      rw [ih (by rw [hsame]; exact hwindow), hsame, List.filter_cons_of_neg (by simpa using hkey)]

theorem flatMap_eq_of_unique {α β : Type} {f : α → List β} {a : α} : ∀ {xs : List α}, xs.Nodup → a ∈ xs →
    (∀ b ∈ xs, b ≠ a → f b = []) → xs.flatMap f = f a
  | [], _, hmem, _ => absurd hmem List.not_mem_nil
  | x :: xs, hnodup, hmem, hothers => by
    rw [List.nodup_cons] at hnodup
    rw [List.flatMap_cons]
    rcases List.mem_cons.mp hmem with rfl | hmem
    · have hrest : xs.flatMap f = [] := List.flatMap_eq_nil_iff.mpr fun b hb =>
        hothers b (List.mem_cons_of_mem a hb) fun hba => hnodup.1 (hba ▸ hb)
      rw [hrest, List.append_nil]
    · have hx : f x = [] := hothers x List.mem_cons_self fun hxa => hnodup.1 (hxa ▸ hmem)
      rw [hx, List.nil_append]
      exact flatMap_eq_of_unique hnodup.2 hmem fun b hb => hothers b (List.mem_cons_of_mem x hb)

/-- Every retained observation is in the window of its source. -/
def Placed (L : FindingLedger) : Prop :=
  ∀ key window, L.windows.find? key = some window → ∀ o ∈ window, o.snapshot.windowOf = key

variable {L : FindingLedger}

theorem Placed.target_of_mem (h : L.Placed) {target : TargetId} {o : RetainedObservation}
    (ho : o ∈ L.observationsFor target) : o.snapshot.target = target := by
  obtain ⟨⟨key, window⟩, hentry, hmem⟩ := List.mem_flatMap.mp ho
  split_ifs at hmem with hkey
  · have hplace := h key window (OrdMap.mem_entries_iff.mp hentry) o hmem
    exact (congrArg SourceWindowKey.target hplace).trans hkey
  · cases hmem

theorem filter_observationsFor (h : L.Placed) (target : TargetId) :
    (L.observationsFor target).filter (fun o => o.snapshot.windowOf = key) =
      if key.target = target then (L.windows.find? key).getD [] else [] := by
  have hentry : ∀ entry ∈ L.windows.entries,
      ((if entry.1.target = target then entry.2 else []).filter fun o => o.snapshot.windowOf = key) =
        if entry.1 = key ∧ key.target = target then entry.2 else [] := by
    intro entry hentry
    have hplaced := h entry.1 entry.2 (OrdMap.mem_entries_iff.mp hentry)
    by_cases hkey : entry.1 = key
    · by_cases htarget : entry.1.target = target
      · rw [if_pos htarget, if_pos ⟨hkey, hkey ▸ htarget⟩, List.filter_eq_self]
        intro o ho
        simpa [← hkey] using hplaced o ho
      · rw [if_neg htarget, if_neg fun hboth => htarget (hkey ▸ hboth.2), List.filter_nil]
    · have hnot : ¬ (entry.1 = key ∧ key.target = target) := fun hboth => hkey hboth.1
      rw [if_neg hnot, List.filter_eq_nil_iff]
      intro o ho
      split_ifs at ho
      · simpa [hplaced o ho] using hkey
      · cases ho
  rw [observationsFor, List.filter_flatMap, List.flatMap_congr hentry]
  by_cases htarget : key.target = target
  · rw [if_pos htarget]
    cases hfind : L.windows.find? key with
    | none =>
      refine List.flatMap_eq_nil_iff.mpr fun entry hmem => if_neg fun hboth => ?_
      rw [← hboth.1, OrdMap.mem_entries_iff.mp hmem] at hfind
      cases hfind
    | some window =>
      have hnodup : L.windows.entries.Nodup := L.windows.nodup_keys.of_map
      rw [flatMap_eq_of_unique hnodup (OrdMap.mem_entries_iff.mpr hfind), if_pos ⟨rfl, htarget⟩]
      · rfl
      · intro entry hmem hne
        refine if_neg fun hboth => hne ?_
        have hsame := OrdMap.mem_entries_iff.mp hmem
        rw [hboth.1, hfind] at hsame
        exact Prod.ext hboth.1 (Option.some.inj hsame).symm
  · rw [if_neg htarget]
    exact List.flatMap_eq_nil_iff.mpr fun entry _ => if_neg fun hboth => htarget hboth.2

/-- The payload lists each window in its order. -/
theorem filter_listedObservations (h : L.Placed) :
    L.listedObservations.filter (fun o => o.snapshot.windowOf = key) = (L.windows.find? key).getD [] := by
  rw [listedObservations, List.filter_flatMap]
  have hnodup : L.targets.Nodup := List.nodup_dedup _
  by_cases hmem : key.target ∈ L.targets
  · rw [flatMap_eq_of_unique hnodup hmem, filter_observationsFor h, if_pos rfl]
    intro target _ hne
    rw [filter_observationsFor h, if_neg (Ne.symm hne)]
  · have hnone : L.windows.find? key = none := by
      by_contra hsome
      obtain ⟨window, hwindow⟩ := Option.ne_none_iff_exists'.mp hsome
      refine hmem ?_
      rw [targets, List.mem_dedup, List.mem_insertionSort, List.mem_append]
      exact .inr (List.mem_map.mpr ⟨key, OrdMap.mem_keys.mpr (OrdMap.contains_iff.mpr ⟨window, hwindow⟩), rfl⟩)
    rw [hnone]
    refine List.flatMap_eq_nil_iff.mpr fun target htarget => ?_
    have hne : key.target ≠ target := fun heq => hmem (heq ▸ htarget)
    rw [filter_observationsFor h, if_neg hne]

theorem filter_reread (h : L.Placed) :
    ((L.listedObservations.map fun o => o.snapshot.reread limits).filter fun s => s.windowOf = key) =
      ((L.windows.find? key).getD []).map fun o => o.snapshot.reread limits := by
  rw [List.filter_map, ← filter_listedObservations h]
  refine congrArg (List.map _) (List.filter_congr fun o _ => ?_)
  rw [Function.comp_apply, windowOf_reread]

/-- A restart reads each window back, down to the newest records its limits allow. -/
theorem find?_restored_windows (hlimit : 1 ≤ limits.maxRetainedSnapshotsPerSource) (h : L.Placed) :
    (L.restored limits).windows.find? key = if (L.windows.find? key).getD [] = [] then none
      else some (keepLast limits.maxRetainedSnapshotsPerSource (((L.windows.find? key).getD []).map fun o =>
        recalled (o.snapshot.reread (ledgerPayloadLimits limits)))) := by
  show ((L.listedObservations.map fun o => o.snapshot.reread (ledgerPayloadLimits limits)).foldl (retain limits)
    ∅).find? key = _
  rw [find?_foldl_retain hlimit (Nat.zero_le _), filter_reread h]
  simp only [List.map_eq_nil_iff, List.map_map, show (∅ : OrdMap SourceWindowKey (List RetainedObservation)).find? key =
    none from rfl, Option.getD_none, List.nil_append, Function.comp_def]

end Restored

/-! ### Records stay in their windows -/

section Placed
variable {L M : FindingLedger} {snapshot : ObservationSnapshot} {verdict : FreshnessVerdict} {recovered : Bool}
  {key : SourceWindowKey}

theorem Placed.of_windowFor {o : RetainedObservation} (h : L.Placed) (ho : o ∈ L.windowFor snapshot) :
    o.snapshot.windowOf = snapshot.windowOf := by
  obtain ⟨window, hfind, ho⟩ := mem_windowFor ho
  exact h _ window hfind o ho

theorem placed_recordObservation (h : L.Placed) : (L.recordObservation snapshot verdict recovered).2.1.Placed := by
  rcases @recordObservation_spec L snapshot verdict recovered with ⟨hsame, -⟩ | ⟨-, -, -, hledger⟩
  · rw [hsame]
    exact h
  · rw [hledger]
    intro key window hfind o ho
    simp only [bumpRevision, OrdMap.find?_insert] at hfind
    split_ifs at hfind with hkey
    · obtain rfl := Option.some.inj hfind
      rcases mem_insertLower.mp (mem_boundWindow ho) with rfl | ho
      · exact hkey
      · exact (h.of_windowFor ho).trans hkey
    · exact h key window hfind o ho

theorem placed_invalidateRetainedEvidence {reason : ReasonCode} {now : NdoTime} (h : L.Placed) :
    (L.invalidateRetainedEvidence reason now).Placed := by
  intro key window hfind o ho
  rw [windows_invalidateRetainedEvidence, OrdMap.find?_mapValues] at hfind
  obtain ⟨before, hbefore, rfl⟩ := Option.map_eq_some_iff.mp hfind
  obtain ⟨o', ho', rfl⟩ := List.mem_map.mp ho
  exact h key before hbefore o' ho'

/-- Whatever the limits, a restart brings no record into a window that was not there. -/
theorem restored_sublist {limits : RuntimeLimits} (h : L.Placed) :
    (((L.restored limits).windows.find? key).getD []).Sublist (((L.windows.find? key).getD []).map fun o =>
      recalled (o.snapshot.reread (ledgerPayloadLimits limits))) := by
  have hfold : ∀ (ss : List ObservationSnapshot) (windows : OrdMap SourceWindowKey (List RetainedObservation)),
      (((ss.foldl (retain limits) windows).find? key).getD []).Sublist
        ((windows.find? key).getD [] ++ (ss.filter fun s => s.windowOf = key).map recalled) := by
    intro ss
    induction ss with
    | nil => exact fun windows => by rw [List.filter_nil, List.map_nil, List.append_nil]; exact List.Sublist.refl _
    | cons s ss ih =>
      intro windows
      refine (ih (retain limits windows s)).trans ?_
      rw [find?_retain]
      by_cases hkey : s.windowOf = key
      · rw [if_pos hkey, Option.getD_some, List.filter_cons_of_pos (by simpa using hkey), List.map_cons,
          List.append_assoc]
        refine List.Sublist.append ?_ (List.Sublist.refl _)
        split_ifs
        · exact List.tail_sublist _
        · exact List.Sublist.refl _
      · rw [if_neg hkey, List.filter_cons_of_neg (by simpa using hkey)]
  have hlisted := hfold (L.listedObservations.map fun o => o.snapshot.reread (ledgerPayloadLimits limits)) ∅
  rw [filter_reread h, List.map_map] at hlisted
  exact hlisted

/-- A window is restored only where there was one. -/
theorem window_of_restored {limits : RuntimeLimits} {window : List RetainedObservation} (h : L.Placed)
    (hfind : (L.restored limits).windows.find? key = some window) : ∃ before, L.windows.find? key = some before := by
  have hfold : ∀ (ss : List ObservationSnapshot) (windows : OrdMap SourceWindowKey (List RetainedObservation)),
      (ss.foldl (retain limits) windows).find? key = some window →
        (∃ s ∈ ss, s.windowOf = key) ∨ windows.find? key = some window := by
    intro ss
    induction ss with
    | nil => exact fun _ hfind => .inr hfind
    | cons s ss ih =>
      intro windows hfind
      rcases ih (retain limits windows s) hfind with ⟨s', hs', hkey⟩ | hfind
      · exact .inl ⟨s', List.mem_cons_of_mem s hs', hkey⟩
      · by_cases hkey : s.windowOf = key
        · exact .inl ⟨s, List.mem_cons_self, hkey⟩
        · rw [find?_retain, if_neg hkey] at hfind
          exact .inr hfind
  rcases hfold _ _ hfind with ⟨s, hs, hkey⟩ | hnone
  · have hmem : s ∈ (L.listedObservations.map fun o => o.snapshot.reread (ledgerPayloadLimits limits)).filter
        fun s => s.windowOf = key := List.mem_filter.mpr ⟨hs, by simpa using hkey⟩
    rw [filter_reread h] at hmem
    cases hbefore : L.windows.find? key with
    | none =>
      rw [hbefore] at hmem
      cases hmem
    | some before => exact ⟨before, rfl⟩
  · cases hnone

theorem placed_restored {limits : RuntimeLimits} (h : L.Placed) : (L.restored limits).Placed := by
  intro key window hfind o ho
  have hsub := @restored_sublist L key limits h
  rw [hfind, Option.getD_some] at hsub
  obtain ⟨o', ho', rfl⟩ := List.mem_map.mp (hsub.subset ho)
  cases hbefore : L.windows.find? key with
  | none =>
    rw [hbefore] at ho'
    cases ho'
  | some before =>
    rw [hbefore] at ho'
    exact windowOf_reread.trans (h key before hbefore o' ho')

/-- Through its whole life a ledger keeps each observation in the window of its target and source. -/
theorem placed_advance [DoubleChars] [LawfulDoubleChars] {step : LedgerStep} (h : L.Placed) : (L.advance step).Placed := by
  cases step with
  | restart limits epoch incarnation liveEpoch =>
    rw [advance]
    rcases @recover_cases _ L _ limits epoch liveEpoch incarnation with hsame | ⟨-, hrestart⟩
    · rw [hsame]
      exact h
    · rw [hrestart]
      exact placed_restored h
  | operate op =>
    have hsame := fun hrecord hinvalidate => @windows_operate _ L op hrecord hinvalidate
    rw [advance]
    cases op with
    | recordObservation => exact placed_recordObservation h
    | invalidateRetainedEvidence => exact placed_invalidateRetainedEvidence h
    | _ =>
      rw [Placed, hsame (fun _ _ _ heq => (by cases heq)) fun _ _ heq => (by cases heq)]
      exact h

end Placed

/-! ### The newest observation of a source -/

/-- The snapshot is the admitted one, as restarts have read it back since. -/
inductive Recalls (s : ObservationSnapshot) : ObservationSnapshot → Prop
  | admitted : Recalls s s
  | reread {s' : ObservationSnapshot} (limits : RuntimeLimits) (h : Recalls s s') : Recalls s (s'.reread limits)

theorem Recalls.windowOf {s s' : ObservationSnapshot} (h : Recalls s s') : s'.windowOf = s.windowOf := by
  induction h with
  | admitted => rfl
  | reread limits _ ih => rw [windowOf_reread, ih]

theorem Recalls.windowKey {s s' : ObservationSnapshot} (h : Recalls s s') : s'.windowKey = s.windowKey := by
  induction h with
  | admitted => rfl
  | reread limits _ ih => rw [windowKey_reread, ih]

/-- A window in order, within its bound, whose last record is the newest observation ever admitted to it. -/
structure Kept (limit : Nat) (admitted : List ObservationSnapshot) (key : SourceWindowKey)
    (window : List RetainedObservation) : Prop where
  placed : ∀ o ∈ window, o.snapshot.windowOf = key
  bounded : window.length ≤ limit
  newest : ∃ front newest, window = front ++ [newest] ∧ Peaked RetainedObservation.windowKey front newest ∧
    (∃ s ∈ admitted, Recalls s newest.snapshot) ∧
      ∀ s ∈ admitted, s.windowOf = key → s.windowKey ≤ newest.windowKey

/-- Every window is such a window, and nothing was admitted to a window that is not there. -/
structure WindowsKept (L : FindingLedger) (admitted : List ObservationSnapshot) : Prop where
  retains : 1 ≤ L.limits.maxRetainedSnapshotsPerSource
  kept : ∀ key window, L.windows.find? key = some window →
    Kept L.limits.maxRetainedSnapshotsPerSource admitted key window
  absent : ∀ key, L.windows.find? key = none → ∀ s ∈ admitted, s.windowOf ≠ key

section Kept
variable {limit : Nat} {admitted : List ObservationSnapshot} {key : SourceWindowKey} {window : List RetainedObservation}
  {L M : FindingLedger} {snapshot : ObservationSnapshot} {verdict : FreshnessVerdict} {recovered : Bool}

theorem WindowsKept.placed (h : L.WindowsKept admitted) : L.Placed := fun key window hfind =>
  (h.kept key window hfind).placed

theorem WindowsKept.congr (h : L.WindowsKept admitted) (hlimits : M.limits = L.limits) (hwindows : M.windows = L.windows) :
    M.WindowsKept admitted := by
  refine ⟨?_, ?_, ?_⟩
  · rw [hlimits]
    exact h.retains
  · rw [hlimits, hwindows]
    exact h.kept
  · rw [hwindows]
    exact h.absent

theorem Kept.mono (h : Kept limit admitted key window) (hother : snapshot.windowOf ≠ key) :
    Kept limit (admitted ++ [snapshot]) key window := by
  obtain ⟨front, newest, rfl, hpeaked, ⟨s, hs, hrecalls⟩, hgreatest⟩ := h.newest
  refine ⟨h.placed, h.bounded, front, newest, rfl, hpeaked, ⟨s, List.mem_append_left _ hs, hrecalls⟩,
    fun s hs hkey => ?_⟩
  rcases List.mem_append.mp hs with hs | hs
  · exact hgreatest s hs hkey
  · rw [List.mem_singleton.mp hs] at hkey
    exact absurd hkey hother

/-- The record is the newest of its window, or it goes before the newest. -/
theorem Kept.insert (hlimit : 1 ≤ limit) (h : Kept limit admitted snapshot.windowOf window)
    (hnew : ∀ newest, window.getLast? = some newest → snapshot.windowKey ≠ newest.windowKey) :
    Kept limit (admitted ++ [snapshot]) snapshot.windowOf
      (boundWindow limit (insertLower olderThan ⟨snapshot, verdict, recovered⟩ window)) := by
  obtain ⟨front, newest, rfl, hpeaked, ⟨s, hs, hrecalls⟩, hgreatest⟩ := h.newest
  have hne := hnew newest (by rw [List.getLast?_append, List.getLast?_singleton]; rfl)
  have hbounded := h.bounded
  rw [List.length_append, List.length_singleton] at hbounded
  have hplaced : ∀ o ∈ boundWindow limit (insertLower olderThan ⟨snapshot, verdict, recovered⟩ (front ++ [newest])),
      o.snapshot.windowOf = snapshot.windowOf := fun o ho => by
    rcases mem_insertLower.mp (mem_boundWindow ho) with rfl | ho
    · rfl
    · exact h.placed o ho
  obtain ⟨record, hrecord⟩ : ∃ record : RetainedObservation, record = ⟨snapshot, verdict, recovered⟩ := ⟨_, rfl⟩
  have hsnapshot : record.snapshot = snapshot := by rw [hrecord]
  rw [← hrecord] at hplaced ⊢
  have hwindowKey : record.windowKey = snapshot.windowKey := by rw [RetainedObservation.windowKey, hsnapshot]
  rw [← hwindowKey] at hne
  rcases lt_or_gt_of_ne hne with hbelow | habove
  · -- Out of order: the newest observation stays.
    rw [insertLower_of_below olderThan_iff hbelow] at hplaced ⊢
    obtain ⟨front', hwindow, hsub, hlength⟩ := @boundWindow_eq limit (insertLower olderThan record front) newest hlimit
      (by rw [length_insertLower]; omega)
    rw [hwindow] at hplaced ⊢
    refine ⟨hplaced, hlength, front', newest, rfl, (peaked_of_below olderThan_iff hpeaked hbelow).sublist hsub,
      ⟨s, List.mem_append_left _ hs, hrecalls⟩, fun s hs hkey => ?_⟩
    rcases List.mem_append.mp hs with hs | hs
    · exact hgreatest s hs hkey
    · rw [List.mem_singleton.mp hs, ← hwindowKey]
      exact le_of_lt hbelow
  · rw [insertLower_of_above olderThan_iff hpeaked habove] at hplaced ⊢
    obtain ⟨front', hwindow, hsub, hlength⟩ := @boundWindow_eq limit (front ++ [newest]) record hlimit
      (by rw [List.length_append, List.length_singleton]; exact hbounded)
    rw [hwindow] at hplaced ⊢
    refine ⟨hplaced, hlength, front', record, rfl, (peaked_of_above hpeaked habove).sublist hsub,
      ⟨snapshot, List.mem_append_right _ List.mem_cons_self, hsnapshot ▸ .admitted⟩, fun s hs hkey => ?_⟩
    rcases List.mem_append.mp hs with hs | hs
    · exact (hgreatest s hs hkey).trans (le_of_lt habove)
    · rw [List.mem_singleton.mp hs, hwindowKey]

theorem kept_first (hlimit : 1 ≤ limit) (hnone : ∀ s ∈ admitted, s.windowOf ≠ snapshot.windowOf) :
    Kept limit (admitted ++ [snapshot]) snapshot.windowOf
      (boundWindow limit (insertLower olderThan ⟨snapshot, verdict, recovered⟩ [])) := by
  have hwindow : boundWindow limit (insertLower olderThan ⟨snapshot, verdict, recovered⟩ []) =
      [⟨snapshot, verdict, recovered⟩] := if_neg (not_lt.mpr hlimit)
  rw [hwindow]
  refine ⟨fun o ho => by rw [List.mem_singleton.mp ho], hlimit, [], _, rfl,
    ⟨List.Pairwise.nil, fun o ho => absurd ho List.not_mem_nil⟩,
    ⟨snapshot, List.mem_append_right _ List.mem_cons_self, .admitted⟩, fun s hs hkey => ?_⟩
  rcases List.mem_append.mp hs with hs | hs
  · exact absurd hkey (hnone s hs)
  · rw [List.mem_singleton.mp hs]
    exact le_refl _

/-- The observation that a step newly admits. -/
def admission (L : FindingLedger) : LedgerStep → Option ObservationSnapshot
  | .operate (.recordObservation snapshot verdict recovered) =>
    if (L.recordObservation snapshot verdict recovered).1.ok &&
        !(L.recordObservation snapshot verdict recovered).2.2.duplicateIdentical then some snapshot
    else none
  | _ => none

theorem windowsKept_recordObservation (h : L.WindowsKept admitted) :
    (L.recordObservation snapshot verdict recovered).2.1.WindowsKept
      (admitted ++ (L.admission (.operate (.recordObservation snapshot verdict recovered))).toList) := by
  rcases @recordObservation_spec L snapshot verdict recovered with ⟨hsame, hdup⟩ | ⟨hok, hdup, hnew, hledger⟩
  · have hnone : L.admission (.operate (.recordObservation snapshot verdict recovered)) = none := by
      rw [admission]
      refine if_neg fun hboth => ?_
      rw [Bool.and_eq_true, Bool.not_eq_true'] at hboth
      rw [hdup hboth.1] at hboth
      cases hboth.2
    rw [hnone, hsame, Option.toList_none, List.append_nil]
    exact h
  · have hsome : L.admission (.operate (.recordObservation snapshot verdict recovered)) = some snapshot := by
      rw [admission, hok, hdup]
      rfl
    rw [hsome, hledger, Option.toList_some]
    have hlimit := h.retains
    refine ⟨h.retains, fun key window hfind => ?_, fun key hfind s hs => ?_⟩
    · simp only [bumpRevision, OrdMap.find?_insert] at hfind
      split_ifs at hfind with hkey
      · subst hkey
        obtain rfl := Option.some.inj hfind
        unfold windowFor at hnew ⊢
        cases hwindow : L.windows.find? snapshot.windowOf with
        | none => exact kept_first hlimit (h.absent _ hwindow)
        | some window =>
          rw [hwindow] at hnew
          exact (h.kept _ window hwindow).insert hlimit hnew
      · exact (h.kept key window hfind).mono hkey
    · simp only [bumpRevision, OrdMap.find?_insert] at hfind
      split_ifs at hfind with hkey
      rcases List.mem_append.mp hs with hs | hs
      · exact h.absent key hfind s hs
      · rw [List.mem_singleton.mp hs]
        exact hkey

/-- Records that keep their snapshots, or have them read back, down to the newest. -/
theorem Kept.map {g : RetainedObservation → RetainedObservation} {limit' : Nat} (hlimit : 1 ≤ limit')
    (h : Kept limit admitted key window) (hof : ∀ o, (g o).snapshot.windowOf = o.snapshot.windowOf)
    (hkey : ∀ o, (g o).windowKey = o.windowKey) (hrecalls : ∀ s o, Recalls s o.snapshot → Recalls s (g o).snapshot) :
    Kept limit' admitted key (keepLast limit' (window.map g)) := by
  obtain ⟨front, newest, rfl, hpeaked, ⟨s, hs, hrecalled⟩, hgreatest⟩ := h.newest
  have hmapped : Peaked RetainedObservation.windowKey (front.map g) (g newest) := by
    refine ⟨List.pairwise_map.mpr (hpeaked.ascending.imp fun hab => ?_), fun o ho => ?_⟩
    · rw [hkey, hkey]
      exact hab
    · obtain ⟨o', ho', rfl⟩ := List.mem_map.mp ho
      rw [hkey, hkey]
      exact hpeaked.below o' ho'
  refine ⟨fun o ho => ?_, ?_, (front.map g).drop ((front.map g).length + 1 - limit'), g newest, ?_,
    hmapped.sublist (List.drop_sublist _ _), ⟨s, hs, hrecalls s newest hrecalled⟩, fun s hs hof => ?_⟩
  · obtain ⟨o', ho', rfl⟩ := List.mem_map.mp (List.mem_of_mem_drop ho)
    rw [hof]
    exact h.placed o' ho'
  · rw [keepLast, List.length_drop]
    omega
  · rw [List.map_append, List.map_singleton, keepLast_concat hlimit]
  · rw [hkey]
    exact hgreatest s hs hof

theorem windowsKept_invalidateRetainedEvidence {reason : ReasonCode} {now : NdoTime} (h : L.WindowsKept admitted) :
    (L.invalidateRetainedEvidence reason now).WindowsKept admitted := by
  have hlimits : (L.invalidateRetainedEvidence reason now).limits = L.limits := by
    unfold invalidateRetainedEvidence
    dsimp only
    split_ifs <;> rfl
  refine ⟨by rw [hlimits]; exact h.retains, fun key window hfind => ?_, fun key hfind => ?_⟩
  · rw [windows_invalidateRetainedEvidence, OrdMap.find?_mapValues] at hfind
    obtain ⟨before, hbefore, rfl⟩ := Option.map_eq_some_iff.mp hfind
    have hkept := h.kept key before hbefore
    have hmap := hkept.map h.retains (g := invalidate reason now) (fun _ => rfl) (fun _ => rfl) fun _ _ hr => hr
    rw [keepLast_of_le (by rw [List.length_map]; exact hkept.bounded)] at hmap
    rw [hlimits]
    exact hmap
  · rw [windows_invalidateRetainedEvidence, OrdMap.find?_mapValues, Option.map_eq_none_iff] at hfind
    exact h.absent key hfind

theorem windowsKept_restored {limits : RuntimeLimits} (hlimit : 1 ≤ limits.maxRetainedSnapshotsPerSource)
    (h : L.WindowsKept admitted) : (L.restored limits).WindowsKept admitted := by
  have hnonempty : ∀ key window, L.windows.find? key = some window → window ≠ [] := fun key window hfind hnil => by
    obtain ⟨front, newest, hwindow, -⟩ := (h.kept key window hfind).newest
    rw [hnil] at hwindow
    exact absurd hwindow.symm (List.append_ne_nil_of_right_ne_nil _ (List.cons_ne_nil _ _))
  refine ⟨hlimit, fun key window hfind => ?_, fun key hfind => ?_⟩
  · rw [find?_restored_windows hlimit h.placed] at hfind
    split_ifs at hfind
    cases hwindow : L.windows.find? key with
    | none =>
      rw [hwindow] at hfind
      rename_i hnil
      exact absurd (by rw [hwindow]; rfl) hnil
    | some before =>
      rw [hwindow] at hfind
      obtain rfl := Option.some.inj hfind
      exact (h.kept key before hwindow).map hlimit (fun _ => windowOf_reread) (fun _ => windowKey_reread)
        fun _ _ hr => .reread _ hr
  · rw [find?_restored_windows hlimit h.placed] at hfind
    split_ifs at hfind with hnil
    refine h.absent key ?_
    cases hwindow : L.windows.find? key with
    | none => rfl
    | some before =>
      rw [hwindow] at hnil
      exact absurd hnil (hnonempty key before hwindow)

/-- The limits that a restart is given retain an observation of each source. -/
def Retains : LedgerStep → Prop
  | .operate _ => True
  | .restart limits .. => 1 ≤ limits.maxRetainedSnapshotsPerSource

theorem windowsKept_advance [DoubleChars] [LawfulDoubleChars] {step : LedgerStep} (h : L.WindowsKept admitted)
    (hstep : Retains step) : (L.advance step).WindowsKept (admitted ++ (L.admission step).toList) := by
  cases step with
  | restart limits epoch incarnation liveEpoch =>
    show (L.recover limits epoch incarnation liveEpoch).WindowsKept (admitted ++ [])
    rw [List.append_nil]
    rcases @recover_cases _ L _ limits epoch liveEpoch incarnation with hsame | ⟨-, hrestart⟩
    · rw [hsame]
      exact h
    · rw [hrestart]
      exact windowsKept_restored hstep h
  | operate op =>
    have hsame := fun hrecord hinvalidate =>
      h.congr (@limits_operate _ L op) (@windows_operate _ L op hrecord hinvalidate)
    rw [advance]
    cases op with
    | recordObservation => exact windowsKept_recordObservation h
    | invalidateRetainedEvidence reason now =>
      show (L.invalidateRetainedEvidence reason now).WindowsKept (admitted ++ [])
      rw [List.append_nil]
      exact windowsKept_invalidateRetainedEvidence h
    | _ =>
      simp only [admission, Option.toList_none, List.append_nil]
      exact hsame (fun _ _ _ heq => (by cases heq)) fun _ _ heq => (by cases heq)

end Kept

/-! ### The view of a source -/

section View
variable {L : FindingLedger} {admitted : List ObservationSnapshot} {key : SourceWindowKey}
  {front : List RetainedObservation} {newest : RetainedObservation} {policy : ObservatoryPolicy}
  {input : TargetComparisonInput} {verdict : RetainedObservation → FreshnessVerdict}

/-- Of the views of a window with a greatest last record, the comparator keeps the one of that record. -/
theorem view_of_newest (hplaced : L.Placed) (hwindow : L.windows.find? key = some (front ++ [newest]))
    (hpeaked : Peaked RetainedObservation.windowKey front newest)
    (hviews : collectViews policy input =
      (L.observationsFor key.target).map fun o => .make policy o.snapshot (verdict o)) {v : EvidenceView} :
    v ∈ orderedViews policy input ∧ v.snapshot.source = key.source ↔
      v = .make policy newest.snapshot (verdict newest) := by
  have hobserved : ∀ o, o ∈ L.observationsFor key.target ∧ o.snapshot.windowOf = key ↔ o ∈ front ++ [newest] := by
    intro o
    have hfilter := @filter_observationsFor key L hplaced key.target
    rw [if_pos rfl, hwindow, Option.getD_some] at hfilter
    rw [← hfilter, List.mem_filter, decide_eq_true_eq]
  obtain ⟨hlisted, hnewest⟩ := (hobserved newest).mpr (List.mem_append_right _ List.mem_cons_self)
  have hsource : (EvidenceView.make policy newest.snapshot (verdict newest)).snapshot.source = key.source :=
    congrArg SourceWindowKey.source hnewest
  rw [← hsource]
  refine mem_orderedViews_iff ?_ fun w hw hsame => ?_
  · rw [hviews]
    exact List.mem_map_of_mem hlisted
  · rw [hviews] at hw
    obtain ⟨o, ho, rfl⟩ := List.mem_map.mp hw
    have hkey : o.snapshot.windowOf = key := by
      have htarget := hplaced.target_of_mem ho
      rw [hsource] at hsame
      exact congrArg₂ SourceWindowKey.mk htarget hsame
    rcases List.mem_append.mp ((hobserved o).mp ⟨ho, hkey⟩) with hfront | hlast
    · refine .inr ?_
      rw [← olderThan_eq_newerThan, olderThan_iff]
      exact hpeaked.below o hfront
    · rw [List.mem_singleton.mp hlast]
      exact .inl rfl

theorem collectViews_comparisonInputOnce {policy' : ObservatoryPolicy} {epoch : FabricEpoch} {now : NdoTime}
    {target : TargetId} : collectViews policy' (comparisonInputOnce policy epoch now L target) =
      (L.observationsFor target).map fun o => .make policy' o.snapshot (verdictOnce policy epoch now target o) := by
  simp only [collectViews, comparisonInputOnce, List.zip_map', List.filterMap_map]
  exact congrFun List.filterMap_eq_map (L.observationsFor target)

end View

/-- In every life of a ledger whose limits retain an observation of each source, each window is in order and within its
    bound, its last record is the newest observation ever admitted to it, and the comparator keeps that record for the
    source. -/
theorem windows_kept [DoubleChars] [LawfulDoubleChars] {limits : RuntimeLimits}
    (hlimits : 1 ≤ limits.maxRetainedSnapshotsPerSource) {steps : List LedgerStep} (h : ∀ step ∈ steps, Retains step) :
    (∀ s ∈ Run.outputs advance admission { limits := limits } steps,
      ∃ window, (Run.exec advance { limits := limits } steps).windows.find? s.windowOf = some window) ∧
    ∀ key window, (Run.exec advance { limits := limits } steps).windows.find? key = some window →
      (window.Pairwise fun a b => a.windowKey ≤ b.windowKey) ∧
      window.length ≤ (Run.exec advance { limits := limits } steps).limits.maxRetainedSnapshotsPerSource ∧
      ∃ newest, window.getLast? = some newest ∧
        (∃ s ∈ Run.outputs advance admission { limits := limits } steps,
          s.windowOf = key ∧ s.windowKey = newest.windowKey ∧ Recalls s newest.snapshot) ∧
        (∀ s ∈ Run.outputs advance admission { limits := limits } steps,
          s.windowOf = key → s.windowKey ≤ newest.windowKey) ∧
        ∀ (policy policy' : ObservatoryPolicy) (epoch : FabricEpoch) (now : NdoTime) (v : EvidenceView),
          (v ∈ orderedViews policy' (Observatory.comparisonInput policy epoch now
              (Run.exec advance { limits := limits } steps) key.target) ∧ v.snapshot.source = key.source ↔
            v = .make policy' newest.snapshot (Observatory.verdictFor policy epoch now key.target newest)) ∧
          (v ∈ orderedViews policy' (comparisonInputOnce policy epoch now
              (Run.exec advance { limits := limits } steps) key.target) ∧ v.snapshot.source = key.source ↔
            v = .make policy' newest.snapshot (verdictOnce policy epoch now key.target newest)) := by
  have hkept := @Run.invariant_outputs _ _ advance (fun _ step => Retains step) _ admission WindowsKept
    (fun L step out hL hstep => windowsKept_advance hL hstep) steps { limits := limits } []
    ⟨hlimits, fun _ _ hnone => (by cases hnone), fun _ _ _ hs => absurd hs List.not_mem_nil⟩
    (Run.permits_of_mem fun step hstep _ => h step hstep)
  rw [List.nil_append] at hkept
  generalize Run.outputs advance admission { limits := limits } steps = admitted at hkept ⊢
  generalize Run.exec advance { limits := limits } steps = L at hkept ⊢
  refine ⟨fun s hs => ?_, fun key window hwindow => ?_⟩
  · rw [← Option.ne_none_iff_exists']
    exact fun hnone => hkept.absent _ hnone s hs rfl
  · obtain ⟨hplaced, hbounded, front, newest, rfl, hpeaked, ⟨s, hs, hrecalls⟩, hgreatest⟩ := hkept.kept key window hwindow
    have hnewest := hplaced newest (List.mem_append_right _ List.mem_cons_self)
    refine ⟨hpeaked.pairwise, hbounded, newest, ?_, ⟨s, hs, hrecalls.windowOf.symm.trans hnewest, hrecalls.windowKey.symm,
      hrecalls⟩, hgreatest, fun policy policy' epoch now v => ⟨?_, ?_⟩⟩
    · rw [List.getLast?_append, List.getLast?_singleton]
      rfl
    · exact view_of_newest hkept.placed hwindow hpeaked collectViews_comparisonInput
    · exact view_of_newest hkept.placed hwindow hpeaked collectViews_comparisonInputOnce

end FindingLedger

namespace Sample
open FindingLedger

def observe (sequence : UInt64) : LedgerStep := .operate (.recordObservation (empty sequence) {} false)

/-- Two observations come in the wrong order. -/
def swapped : FindingLedger :=
  Run.exec (@advance bitDoubles) { limits := {} } [observe 2, observe 1]

end Sample

theorem FindingLedger.windows_kept_swapped :
    ∃ window newest, Sample.swapped.windows.find? ⟨Sample.target, ⟨ascii "a"⟩⟩ = some window ∧
      window.getLast? = some newest ∧
      ∀ s ∈ Run.outputs (@advance Sample.bitDoubles) admission { limits := {} } [Sample.observe 2, Sample.observe 1],
        s.windowOf = ⟨Sample.target, ⟨ascii "a"⟩⟩ → s.windowKey ≤ newest.windowKey := by
  have hkept := @windows_kept Sample.bitDoubles Sample.lawful_bitDoubles {} (by decide) [Sample.observe 2, Sample.observe 1]
    (fun step hstep => by
      rcases List.mem_cons.mp hstep with rfl | hstep
      · exact trivial
      · rw [List.mem_singleton.mp hstep]
        exact trivial)
  have hthere : (Sample.swapped.windows.find? ⟨Sample.target, ⟨ascii "a"⟩⟩).isSome = true := by decide +kernel
  obtain ⟨window, hwindow⟩ := Option.isSome_iff_exists.mp hthere
  obtain ⟨-, -, newest, hnewest, -, hgreatest, -⟩ := hkept.2 _ window hwindow
  exact ⟨window, newest, hwindow, hnewest, hgreatest⟩

end DriftObservatory
