import DriftObservatory.Lib.Run
import DriftObservatory.Storage
import DriftObservatory.Theorems.Files
import DriftObservatory.Theorems.Refusal

/-! Saves are atomic. Whatever fails, wherever the process dies and whatever is loaded in between, a ledger file is what
    the last completed save has written, or what it was at first, and a load that succeeds reads the whole of it. -/

namespace DriftObservatory
open FindingLedger

namespace Installation
variable [DoubleChars] {start x : Installation} {path : Text} {out : List Saving} {event : Event} {saving : Saving}
  {loading : Loading}

/-- The save a path was completed by last. -/
def lastSave (path : Text) (out : List Saving) : Option Saving := (out.filter fun saving => saving.path = path).getLast?

omit [DoubleChars] in
theorem lastSave_append : lastSave path (out ++ [saving]) = if saving.path = path then some saving else lastSave path out := by
  rw [lastSave, List.filter_append]
  split_ifs with hpath
  · rw [List.filter_singleton]
    simp [hpath]
  · rw [List.filter_singleton]
    simp [hpath, lastSave]

/-- What is known of a path after a run with the completed saves `out`. -/
structure Stored (start : Installation) (path : Text) (x : Installation) (out : List Saving) : Prop where
  limits : x.limits = start.limits
  content : x.disk path = match lastSave path out with
    | some saving => some saving.bytes
    | none => start.disk path
  fits : ∀ saving, lastSave path out = some saving → saving.bytes.length ≤ start.limits.maxLedgerBytes
  writing : ∀ saving, x.saving = some saving → saving.bytes.length ≤ start.limits.maxLedgerBytes ∧
    x.disk (temporary saving.path) = some (saving.bytes.take saving.written)
  loading : ∀ loading ∈ x.loading, loading.path = path → ∀ content, x.disk path = some content →
    loading.size = content.length ∨ ∃ saving, lastSave path out = some saving

theorem Stored.beginSave (h : Stored start path x out) (hpath : ∀ target, temporary target ≠ path) (target : Text)
    (opens : Bool) : Stored start path (x.beginSave target opens).2 out := by
  rw [Installation.beginSave]
  split
  · exact h
  split
  · exact h
  · next bytes hbytes =>
    split_ifs
    · have hkept : Function.update x.disk (temporary target) (some []) path = x.disk path :=
        Function.update_of_ne (hpath target).symm _ _
      rw [saveLedgerFile] at hbytes
      split_ifs at hbytes with hfits
      refine ⟨h.limits, hkept.trans h.content, h.fits, ?_, fun loading hmem hloading content hcontent =>
        h.loading loading hmem hloading content (hkept ▸ hcontent)⟩
      rintro saving hsaving
      obtain rfl := Option.some.inj hsaving
      exact ⟨h.limits ▸ Nat.not_lt.mp hfits, Function.update_self _ _ _⟩
    · exact h

theorem Stored.write (h : Stored start path x out) (hpath : ∀ target, temporary target ≠ path) (count : Nat) :
    Stored start path (x.write count) out := by
  rw [Installation.write]
  split
  · exact h
  · next saving hsaving =>
    obtain ⟨hfits, -⟩ := h.writing saving hsaving
    have hkept : ∀ content, Function.update x.disk (temporary saving.path) content path = x.disk path := fun content =>
      Function.update_of_ne (hpath saving.path).symm _ _
    refine ⟨h.limits, (hkept _).trans h.content, h.fits, ?_, fun loading hmem hloading content hcontent =>
      h.loading loading hmem hloading content (hkept _ ▸ hcontent)⟩
    rintro other hother
    obtain rfl := Option.some.inj hother
    exact ⟨hfits, Function.update_self _ _ _⟩

/-- The rename is the moment at which a save takes effect. -/
theorem Stored.replaceFile (h : Stored start path x out) (hpath : ∀ target, temporary target ≠ path)
    (renames removes : Bool) : Stored start path (x.replaceFile renames removes).2
      (out ++ (x.completed (.replaceFile renames removes)).toList) := by
  have hkeep : ∀ disk : Disk, disk path = x.disk path → Stored start path { x with disk := disk, saving := none } out := by
    intro disk hdisk
    exact ⟨h.limits, hdisk.trans h.content, h.fits, fun saving hsaving => (by cases hsaving),
      fun loading hmem hloading content hcontent => h.loading loading hmem hloading content (hdisk ▸ hcontent)⟩
  rw [Installation.replaceFile]
  rcases hsaving : x.saving with _ | saving
  · have hnone : x.completed (.replaceFile renames removes) = none := by
      cases renames <;> simp [completed, hsaving]
    rw [hnone, Option.toList_none, List.append_nil]
    exact h
  dsimp only
  by_cases hunfinished : saving.written < saving.bytes.length
  · have hnone : x.completed (.replaceFile renames removes) = none := by
      cases renames <;> simp [completed, hsaving, hunfinished]
    rw [if_pos hunfinished, hnone, Option.toList_none, List.append_nil]
    exact h
  rw [if_neg hunfinished]
  cases renames with
  | false =>
    have hnone : x.completed (.replaceFile false removes) = none := rfl
    rw [hnone, Option.toList_none, List.append_nil]
    refine hkeep _ ?_
    split_ifs
    · exact Function.update_of_ne (hpath saving.path).symm _ _
    · rfl
  | true =>
    have hsome : x.completed (.replaceFile true removes) = some saving := by
      simp [completed, hsaving, Nat.not_lt.mp hunfinished]
    rw [hsome, Option.toList_some, if_pos rfl]
    obtain ⟨hfits, hwritten⟩ := h.writing saving hsaving
    rw [List.take_of_length_le (Nat.not_lt.mp hunfinished)] at hwritten
    have hdisk : Function.update (Function.update x.disk saving.path (x.disk (temporary saving.path)))
        (temporary saving.path) none path = if saving.path = path then some saving.bytes else x.disk path := by
      rw [Function.update_of_ne (hpath saving.path).symm, hwritten]
      split_ifs with hsame
      · rw [← hsame, Function.update_self]
      · rw [Function.update_of_ne (Ne.symm hsame)]
    refine ⟨h.limits, ?_, ?_, fun other hother => (by cases hother), ?_⟩
    · dsimp only
      rw [hdisk, lastSave_append]
      split_ifs
      · rfl
      · exact h.content
    · intro other hother
      rw [lastSave_append] at hother
      split_ifs at hother
      · exact Option.some.inj hother ▸ hfits
      · exact h.fits other hother
    · intro loading hmem hloading content hcontent
      dsimp only at hcontent
      rw [hdisk] at hcontent
      rw [lastSave_append]
      split_ifs at hcontent ⊢
      · exact .inr ⟨saving, rfl⟩
      · exact h.loading loading hmem hloading content hcontent

/-- A load that begins knows the size of the file. -/
theorem Stored.beginLoad (h : Stored start path x out) (hloading : x.beginLoad loading.path = .ok loading) :
    Stored start path { x with loading := x.loading ++ [loading] } out := by
  refine ⟨h.limits, h.content, h.fits, h.writing, fun other hmem hother content hcontent => ?_⟩
  rcases List.mem_append.mp hmem with hmem | hmem
  · exact h.loading other hmem hother content hcontent
  · obtain rfl := List.mem_singleton.mp hmem
    rw [Installation.beginLoad, hother, hcontent] at hloading
    dsimp only at hloading
    split_ifs at hloading
    exact .inl (congrArg Loading.size (Except.ok.inj hloading)).symm

theorem Stored.forget (h : Stored start path x out) {y : Installation} (hlimits : y.limits = x.limits)
    (hdisk : y.disk = x.disk) (hsaving : ∀ saving, y.saving = some saving → x.saving = some saving)
    (hloading : y.loading ⊆ x.loading) : Stored start path y out where
  limits := hlimits.trans h.limits
  content := hdisk ▸ h.content
  fits := h.fits
  writing := fun saving hsome => hdisk ▸ h.writing saving (hsaving saving hsome)
  loading := fun loading hmem hpath content hcontent => h.loading loading (hloading hmem) hpath content (hdisk ▸ hcontent)

theorem Stored.step (h : Stored start path x out) (hpath : ∀ target, temporary target ≠ path) (event : Event) :
    Stored start path (x.step event) (out ++ (x.completed event).toList) := by
  have hquiet : ∀ y, x.completed event = none → Stored start path y out →
      Stored start path y (out ++ (x.completed event).toList) := by
    intro y hnone hy
    rwa [hnone, Option.toList_none, List.append_nil]
  cases event with
  | beginSave target opens => exact hquiet _ rfl (h.beginSave hpath target opens)
  | write count => exact hquiet _ rfl (h.write hpath count)
  | failSave flushing =>
    exact hquiet _ rfl (h.forget rfl rfl (fun saving hsaving => (by cases hsaving)) (List.Subset.refl _))
  | replaceFile renames removes => exact h.replaceFile hpath renames removes
  | beginLoad target =>
    refine hquiet _ rfl ?_
    rw [Installation.step]
    rcases hbegin : x.beginLoad target with status | loading
    · exact h
    · have htarget : loading.path = target := by
        rw [Installation.beginLoad] at hbegin
        split at hbegin
        · cases hbegin
        · split_ifs at hbegin
          exact congrArg Loading.path (Except.ok.inj hbegin).symm
      exact h.beginLoad (htarget ▸ hbegin)
  | finishLoad index opens =>
    refine hquiet _ rfl ?_
    rw [Installation.step]
    rcases x.loading[index]? with _ | loading
    · exact h
    · dsimp only
      have hsubset : x.loading.eraseIdx index ⊆ x.loading := List.eraseIdx_subset
      rcases Installation.finishLoad _ loading opens with status | ⟨decoded, report⟩
      · exact h.forget rfl rfl (fun _ => id) hsubset
      · exact h.forget rfl rfl (fun _ => id) hsubset
  | operate observatory => exact hquiet _ rfl (h.forget rfl rfl (fun _ => id) (List.Subset.refl _))
  | crash observatory =>
    exact hquiet _ rfl (h.forget rfl rfl (fun saving hsaving => (by cases hsaving)) (List.nil_subset _))

/-- **A load that succeeds reads the whole file.** -/
theorem Stored.finishLoad (h : Stored start path x out) (hlimits : start.limits.maxLedgerBytes < 2 ^ 64)
    (hmem : loading ∈ x.loading) (hloading : loading.path = path) {opens : Bool}
    {read : FindingLedger × LedgerRecoveryReport} (hread : x.finishLoad loading opens = .ok read) :
    ∃ content, x.disk path = some content ∧ decodeLedger start.limits loading.epoch content = .ok read := by
  unfold Installation.finishLoad at hread
  rw [hloading, h.limits] at hread
  rcases hcontent : x.disk path with _ | content
  · rw [hcontent] at hread
    cases hread
  rw [hcontent] at hread
  cases opens with
  | false => cases hread
  | true =>
    refine ⟨content, rfl, ?_⟩
    dsimp only at hread
    split_ifs at hread with hshort hempty
    rcases h.loading loading hmem hloading content hcontent with hsize | ⟨saving, hsaving⟩
    · rwa [hsize, List.take_length] at hread
    · have hbytes : content = saving.bytes := by
        rw [h.content, hsaving] at hcontent
        exact (Option.some.inj hcontent).symm
      subst hbytes
      rcases Nat.lt_or_ge loading.size saving.bytes.length with hcut | hwhole
      · exact absurd hread (decodeLedger_cut (Nat.lt_of_le_of_lt (h.fits saving hsaving) hlimits) hcut)
      · rwa [List.take_of_length_le hwhole] at hread

/-- **A ledger file is what the last completed save has written**, or what it was at first: no save that fails or dies
    on its way touches it, and no other save either. A load that succeeds, whatever ran while it did, yields the ledger
    that this save began with as a restart restores it. -/
theorem ledger_files_atomic [Json.LawfulDoubleChars] {start : Installation} (hidle : start.saving = none)
    (hloads : start.loading = []) (hlimits : start.limits.maxLedgerBytes < 2 ^ 64) (events : List Event) {path : Text}
    (hpath : ¬ ascii ".tmp" <:+ path) :
    let x := Run.exec step start events
    let saves := Run.outputs step completed start events
    (x.disk path = match lastSave path saves with
      | some saving => some (saving.ledger.encodeLedger saving.epoch saving.incarnation)
      | none => start.disk path) ∧
    ∀ loading ∈ x.loading, loading.path = path → ∀ opens restored report,
      x.finishLoad loading opens = .ok (restored, report) → match lastSave path saves with
        | some saving => restored = saving.ledger.restored start.limits ∧ report = saving.ledger.recoveryReport
        | none => ∃ content, start.disk path = some content ∧
            decodeLedger start.limits loading.epoch content = .ok (restored, report) := by
  intro x saves
  have htemporary : ∀ target, temporary target ≠ path := fun target hsame =>
    hpath (hsame ▸ List.suffix_append target (ascii ".tmp"))
  have hstart : Stored start path start [] :=
    { limits := rfl
      content := rfl
      fits := fun saving h => by cases h
      writing := fun saving h => by
        rw [hidle] at h
        cases h
      loading := fun loading h => by
        rw [hloads] at h
        cases h }
  have hreached : Stored start path x saves :=
    @Run.invariant_outputs _ _ _ (fun _ _ => True) _ _ _ (fun x event out h _ => h.step htemporary event) _ _ _ hstart
      (Run.permits_of_mem fun _ _ _ => trivial)
  refine ⟨hreached.content, fun loading hmem hloading opens restored report hread => ?_⟩
  obtain ⟨content, hcontent, hdecoded⟩ := hreached.finishLoad hlimits hmem hloading hread
  rw [hreached.content] at hcontent
  cases hlast : lastSave path saves with
  | none =>
    rw [hlast] at hcontent
    exact ⟨content, hcontent, hdecoded⟩
  | some saving =>
    rw [hlast] at hcontent
    rw [← Option.some.inj hcontent] at hdecoded
    exact (decodeLedger_encodeLedger.mp hdecoded).2

end Installation

namespace Sample

/-- A process on an empty disk. -/
def deployed : Installation where
  observatory := .make { epoch := ⟨1⟩, incarnation := ⟨1⟩, requireStarted := false }
  disk _ := none

/-- The ledger is saved in two writes, and looked at by a load. -/
def saves : List Installation.Event :=
  [.beginSave (ascii "ledger") true, .write 100, .write 1000000, .replaceFile true true, .beginLoad (ascii "ledger")]

end Sample

/-- The save is completed and the file is read back. -/
theorem Installation.ledger_files_atomic_saved :
    let x := Run.exec (@step Sample.bitDoubles) Sample.deployed Sample.saves
    let saves := Run.outputs (@step Sample.bitDoubles) (@completed Sample.bitDoubles) Sample.deployed Sample.saves
    (saves.length == 1 && x.loading.any fun loading => loading.path == ascii "ledger" &&
      (@finishLoad Sample.bitDoubles x loading true).isOk) = true ∧
    (x.disk (ascii "ledger") = match lastSave (ascii "ledger") saves with
      | some saving => some (@encodeLedger Sample.bitDoubles saving.ledger saving.epoch saving.incarnation)
      | none => Sample.deployed.disk (ascii "ledger")) ∧
    ∀ loading ∈ x.loading, loading.path = ascii "ledger" → ∀ opens restored report,
      @finishLoad Sample.bitDoubles x loading opens = .ok (restored, report) →
        match lastSave (ascii "ledger") saves with
        | some saving => restored = saving.ledger.restored Sample.deployed.limits ∧
            report = saving.ledger.recoveryReport
        | none => ∃ content, Sample.deployed.disk (ascii "ledger") = some content ∧
            @decodeLedger Sample.bitDoubles Sample.deployed.limits loading.epoch content = .ok (restored, report) := by
  have hlimits : Sample.deployed.limits.maxLedgerBytes < 2 ^ 64 := by decide +kernel
  have hpath : ¬ ascii ".tmp" <:+ ascii "ledger" := by decide +kernel
  refine ⟨?_, @ledger_files_atomic Sample.bitDoubles Sample.lawful_bitDoubles Sample.deployed rfl rfl hlimits
    Sample.saves (ascii "ledger") hpath⟩
  decide +kernel

end DriftObservatory
