import DriftObservatory.Query
import DriftObservatory.Lib.Lists
import Mathlib.Data.Prod.Lex

/-! Pages of a query. The results have one order, whatever the order they came in, and a page is the interval of it
    that was asked for, as long as the end of the interval is a `size_t`. -/

namespace DriftObservatory

/-! ### One order -/

/-- Ties of a first key are broken by the rest. -/
theorem lex_lt_iff {ι α β : Type} [DecidableEq ι] [LinearOrder α] [LinearOrder β] {f : ι → α} {x y : ι} {c d : β}
    {first rest : Bool} (hf : Function.Injective f) (hfirst : first = true ↔ f x < f y)
    (hrest : rest = true ↔ c < d) :
    (if x ≠ y then first else rest) = true ↔ toLex (f x, c) < toLex (f y, d) := by
  rw [Prod.Lex.toLex_lt_toLex]
  by_cases h : x = y
  · subst h
    simp [hrest]
  · simp [h, hfirst, hf.ne h]

/-- Each order compares keys of one linear order, the last of which is the identity. -/
theorem exists_orderKey (order : QueryOrder) : ∃ (κ : Type) (_ : LinearOrder κ) (key : Finding → κ),
    (∀ a b, orderBefore order a b = true ↔ key a < key b) ∧ ∀ a b, key a = key b → a.id = b.id := by
  have hid : ∀ a b : Finding, decide (a.id < b.id) = true ↔ a.id < b.id := fun _ _ => decide_eq_true_iff
  have hseen : ∀ a b : Finding, decide (b.lastSeen < a.lastSeen) = true ↔
      OrderDual.toDual a.lastSeen < OrderDual.toDual b.lastSeen := fun _ _ => decide_eq_true_iff
  cases order with
  | severityDescending =>
    refine ⟨ℕᵒᵈ ×ₗ NdoTimeᵒᵈ ×ₗ FindingId, inferInstance,
      fun f => toLex (OrderDual.toDual f.severity.rank, toLex (OrderDual.toDual f.lastSeen, f.id)), fun a b => ?_, ?_⟩
    · exact lex_lt_iff (OrderDual.toDual.injective.comp Severity.rank_injective) decide_eq_true_iff
        (lex_lt_iff OrderDual.toDual.injective (hseen a b) (hid a b))
    · intro a b h
      exact (Prod.mk.inj (toLex.injective (Prod.mk.inj (toLex.injective h)).2)).2
  | firstSeenAscending =>
    refine ⟨NdoTime ×ₗ FindingId, inferInstance, fun f => toLex (f.firstSeen, f.id), fun a b => ?_, ?_⟩
    · exact lex_lt_iff Function.injective_id decide_eq_true_iff (hid a b)
    · intro a b h
      exact (Prod.mk.inj (toLex.injective h)).2
  | lastSeenDescending =>
    refine ⟨NdoTimeᵒᵈ ×ₗ FindingId, inferInstance, fun f => toLex (OrderDual.toDual f.lastSeen, f.id), fun a b => ?_, ?_⟩
    · exact lex_lt_iff OrderDual.toDual.injective (hseen a b) (hid a b)
    · intro a b h
      exact (Prod.mk.inj (toLex.injective h)).2
  | targetAscending =>
    refine ⟨TargetId ×ₗ ObjectId ×ₗ FieldPath ×ₗ FindingId, inferInstance,
      fun f => toLex (f.identity.target, toLex (f.identity.object, toLex (f.identity.path, f.id))), fun a b => ?_, ?_⟩
    · exact lex_lt_iff Function.injective_id decide_eq_true_iff (lex_lt_iff Function.injective_id decide_eq_true_iff
        (lex_lt_iff Function.injective_id decide_eq_true_iff (hid a b)))
    · intro a b h
      exact (Prod.mk.inj (toLex.injective (Prod.mk.inj (toLex.injective (Prod.mk.inj (toLex.injective h)).2)).2)).2
  | identityAscending =>
    exact ⟨FindingId, inferInstance, Finding.id, hid, fun a b h => h⟩

theorem entryBefore_iff (a b : TimelineEntry) :
    entryBefore a b = true ↔ toLex (a.sequence, a.at_) < toLex (b.sequence, b.at_) :=
  lex_lt_iff Function.injective_id decide_eq_true_iff decide_eq_true_iff

/-- A strict order that decides any two items under different names. -/
structure StrictlyOrders {α ι : Type} (less : α → α → Bool) (name : α → ι) : Prop where
  irrefl : ∀ a, less a a = false
  trans : ∀ a b c, less a b = true → less b c = true → less a c = true
  total : ∀ a b, name a ≠ name b → less a b = true ∨ less b a = true

/-- The items in the order of a comparator. -/
def Sorts {α : Type} (less : α → α → Bool) (items sorted : List α) : Prop :=
  sorted.Perm items ∧ sorted.Pairwise fun a b => less a b = true

theorem keys_distinct {α ι κ : Type} {key : α → κ} {name : α → ι} {items : List α}
    (hname : ∀ a b, key a = key b → name a = name b) (hnames : (items.map name).Nodup) :
    ∀ a ∈ items, ∀ b ∈ items, key a = key b → a = b := fun a ha b hb heq =>
  List.inj_on_of_nodup_map hnames ha hb (hname a b heq)

section Keyed
variable {α ι κ : Type} [LinearOrder κ] {less : α → α → Bool} {key : α → κ} {name : α → ι} {items : List α}

theorem strictlyOrders_of_key (hkey : ∀ a b, less a b = true ↔ key a < key b)
    (hname : ∀ a b, key a = key b → name a = name b) : StrictlyOrders less name where
  irrefl a := by
    rw [← Bool.not_eq_true, hkey]
    exact lt_irrefl _
  trans a b c hab hbc := (hkey a c).mpr (((hkey a b).mp hab).trans ((hkey b c).mp hbc))
  total a b hne := by
    rw [hkey, hkey]
    exact lt_or_gt_of_ne fun heq => hne (hname a b heq)

/-- Items under distinct names are sorted strictly. -/
theorem pairwise_sortBy (hkey : ∀ a b, less a b = true ↔ key a < key b)
    (hname : ∀ a b, key a = key b → name a = name b) (hnames : (items.map name).Nodup) :
    (sortBy less items).Pairwise fun a b => less a b = true := by
  have hperm := sortBy.perm less items
  have hnodup : (sortBy less items).Nodup := hperm.nodup_iff.mpr hnames.of_map
  refine (List.Pairwise.and (sortBy.pairwise hkey items) hnodup).imp_of_mem fun {a b} ha hb h => ?_
  rw [hkey]
  refine lt_of_le_of_ne h.1 fun heq => h.2 ?_
  exact keys_distinct hname hnames a (hperm.mem_iff.mp ha) b (hperm.mem_iff.mp hb) heq

/-- Items under distinct names have one sorted list. -/
theorem sorts_iff (hkey : ∀ a b, less a b = true ↔ key a < key b) (hname : ∀ a b, key a = key b → name a = name b)
    (hnames : (items.map name).Nodup) {sorted : List α} : Sorts less items sorted ↔ sorted = sortBy less items := by
  constructor
  · rintro ⟨hperm, hpairs⟩
    refine sortBy.unique hkey (keys_distinct hname hnames) hperm (hpairs.imp fun {a b} h => ?_)
    rw [← Bool.not_eq_true, hkey]
    exact ((hkey a b).mp h).asymm
  · rintro rfl
    exact ⟨sortBy.perm _ _, pairwise_sortBy hkey hname hnames⟩

end Keyed

/-! ### Pages -/

/-- A request is answered, the same for every order of the findings, by the slice of the sorted matches it asks for,
    and told the number of the matches. -/
def QueryPaged (findings : List Finding) (spec : QuerySpec) (now : NdoTime) : Prop :=
  StrictlyOrders (orderBefore spec.order) Finding.id ∧
    ∃ sorted result, Sorts (orderBefore spec.order) (findings.filter (spec.matchesFinding now)) sorted ∧
      (∀ findings', findings'.Perm findings → executeQuery findings' spec now = .ok result) ∧
      result.totalMatched = sorted.length ∧ result.findings = slice sorted spec.offset spec.limit

/-- The answers to the requests for consecutive pages hold each match once. -/
def QueryPartitioned (findings : List Finding) (spec : QuerySpec) (now : NdoTime) (pages : Nat) : Prop :=
  ∃ sorted, Sorts (orderBefore spec.order) (findings.filter (spec.matchesFinding now)) sorted ∧
    ∃ result : Nat → QueryResult,
      (∀ k < pages, executeQuery findings { spec with offset := k * spec.limit } now = .ok (result k)) ∧
      ((List.range pages).flatMap fun k => (result k).findings) = sorted

def TimelinePaged (entries : List TimelineEntry) (spec : TimelineSpec) : Prop :=
  StrictlyOrders entryBefore TimelineEntry.sequence ∧
    ∃ sorted page, Sorts entryBefore (entries.filter spec.matchesEntry) sorted ∧
      (∀ entries', entries'.Perm entries → executeTimelineQuery entries' spec = .ok page) ∧
      page.totalMatched = sorted.length ∧ page.entries = slice sorted spec.offset spec.limit

section Query
variable {findings : List Finding} {spec : QuerySpec} {now : NdoTime}

theorem executeQuery_eq_ok (findings : List Finding) (now : NdoTime) (hpos : 1 ≤ spec.limit) :
    ∃ result, executeQuery findings spec now = .ok result ∧
    result.totalMatched = (sortBy (orderBefore spec.order) (findings.filter (spec.matchesFinding now))).length ∧
    result.findings = wrappedSlice (2 ^ 64) (sortBy (orderBefore spec.order) (findings.filter (spec.matchesFinding now)))
      spec.offset spec.limit := by
  rw [executeQuery, if_neg (by omega)]
  exact ⟨_, rfl, rfl, rfl⟩

theorem names_matching (hids : (findings.map Finding.id).Nodup) :
    ((findings.filter (spec.matchesFinding now)).map Finding.id).Nodup :=
  hids.sublist (List.filter_sublist.map _)

/-- The order the matches came in does not matter. -/
theorem executeQuery_perm {findings' : List Finding} (hids : (findings.map Finding.id).Nodup)
    (hperm : findings'.Perm findings) : executeQuery findings' spec now = executeQuery findings spec now := by
  obtain ⟨κ, _, key, hkey, hname⟩ := exists_orderKey spec.order
  have hsorted : sortBy (orderBefore spec.order) (findings.filter (spec.matchesFinding now)) =
      sortBy (orderBefore spec.order) (findings'.filter (spec.matchesFinding now)) :=
    sortBy.eq_of_perm hkey (keys_distinct hname (names_matching hids)) (hperm.symm.filter _)
  simp only [executeQuery, hsorted]

theorem queryPaged_iff (hids : (findings.map Finding.id).Nodup) (hpos : 1 ≤ spec.limit) (hlimit : spec.limit < 2 ^ 64)
    (hoffset : spec.offset < 2 ^ 64) : QueryPaged findings spec now ↔
      (findings.filter (spec.matchesFinding now)).length ≤ spec.offset ∨ spec.offset + spec.limit < 2 ^ 64 := by
  obtain ⟨κ, _, key, hkey, hname⟩ := exists_orderKey spec.order
  obtain ⟨result, hresult, htotal, hpage⟩ := executeQuery_eq_ok findings now hpos
  rw [← (sortBy.perm (orderBefore spec.order) (findings.filter (spec.matchesFinding now))).length_eq,
    ← wrappedSlice.eq_slice_iff hpos hlimit hoffset]
  constructor
  · rintro ⟨-, sorted, read, hsorts, hread, -, hslice⟩
    rw [(sorts_iff hkey hname (names_matching hids)).mp hsorts] at hslice
    cases hresult.symm.trans (hread findings (List.Perm.refl _))
    exact hpage.symm.trans hslice
  · intro hslice
    exact ⟨strictlyOrders_of_key hkey hname, _, result, (sorts_iff hkey hname (names_matching hids)).mpr rfl,
      fun _ hperm => (executeQuery_perm hids hperm).trans hresult, htotal, hpage.trans hslice⟩

/-- The pages of consecutive requests are disjoint and complete exactly when none of their ends wraps around before the
    last match. -/
theorem queryPartitioned_iff (hids : (findings.map Finding.id).Nodup) (hpos : 1 ≤ spec.limit)
    (hlimit : spec.limit < 2 ^ 64) {pages : Nat} (hoffset : ∀ k < pages, k * spec.limit < 2 ^ 64)
    (hall : (findings.filter (spec.matchesFinding now)).length ≤ pages * spec.limit) :
    QueryPartitioned findings spec now pages ↔ ∀ k < pages,
      (findings.filter (spec.matchesFinding now)).length ≤ k * spec.limit ∨ k * spec.limit + spec.limit < 2 ^ 64 := by
  obtain ⟨κ, _, key, hkey, hname⟩ := exists_orderKey spec.order
  have hpages : ∀ k : Nat, 1 ≤ { spec with offset := k * spec.limit }.limit := fun _ => hpos
  choose result hresult _ hpage using fun k => executeQuery_eq_ok findings now (hpages k)
  have hlength := (sortBy.perm (orderBefore spec.order) (findings.filter (spec.matchesFinding now))).length_eq
  have hslices := wrappedSlice.flatMap_range_eq_iff hlimit hoffset (hlength.trans_le hall)
  rw [forall₂_congr fun k hk => wrappedSlice.eq_slice_iff hpos hlimit (hoffset k hk), hlength] at hslices
  rw [← hslices]
  constructor
  · rintro ⟨sorted, hsorts, read, hread, hflat⟩
    rw [(sorts_iff hkey hname (names_matching hids)).mp hsorts] at hflat
    refine Eq.trans (List.flatMap_congr fun k hk => ?_) hflat
    rw [← Except.ok.inj ((hresult k).symm.trans (hread k (List.mem_range.mp hk)))]
    exact (hpage k).symm
  · intro hflat
    refine ⟨_, (sorts_iff hkey hname (names_matching hids)).mpr rfl, result, fun k _ => hresult k, ?_⟩
    exact (List.flatMap_congr fun k _ => hpage k).trans hflat

end Query

section Timeline
variable {entries : List TimelineEntry} {spec : TimelineSpec}

theorem sequence_of_key (a b : TimelineEntry) (h : toLex (a.sequence, a.at_) = toLex (b.sequence, b.at_)) :
    a.sequence = b.sequence := (Prod.mk.inj (toLex.injective h)).1

theorem sequences_matching (hsequences : (entries.map TimelineEntry.sequence).Nodup) :
    ((entries.filter spec.matchesEntry).map TimelineEntry.sequence).Nodup :=
  hsequences.sublist (List.filter_sublist.map _)

theorem executeTimelineQuery_eq_ok (entries : List TimelineEntry) (hpos : 1 ≤ spec.limit) :
    ∃ page, executeTimelineQuery entries spec = .ok page ∧
    page.totalMatched = (sortBy entryBefore (entries.filter spec.matchesEntry)).length ∧
    page.entries = wrappedSlice (2 ^ 64) (sortBy entryBefore (entries.filter spec.matchesEntry))
      spec.offset spec.limit := by
  rw [executeTimelineQuery, if_neg (by omega)]
  exact ⟨_, rfl, rfl, rfl⟩

theorem executeTimelineQuery_perm {entries' : List TimelineEntry}
    (hsequences : (entries.map TimelineEntry.sequence).Nodup) (hperm : entries'.Perm entries) :
    executeTimelineQuery entries' spec = executeTimelineQuery entries spec := by
  have hsorted : sortBy entryBefore (entries.filter spec.matchesEntry) =
      sortBy entryBefore (entries'.filter spec.matchesEntry) :=
    sortBy.eq_of_perm entryBefore_iff (keys_distinct sequence_of_key (sequences_matching hsequences))
      (hperm.symm.filter _)
  simp only [executeTimelineQuery, hsorted]

theorem timelinePaged_iff (hsequences : (entries.map TimelineEntry.sequence).Nodup) (hpos : 1 ≤ spec.limit)
    (hlimit : spec.limit < 2 ^ 64) (hoffset : spec.offset < 2 ^ 64) : TimelinePaged entries spec ↔
      (entries.filter spec.matchesEntry).length ≤ spec.offset ∨ spec.offset + spec.limit < 2 ^ 64 := by
  have hsorts : ∀ sorted, Sorts entryBefore (entries.filter spec.matchesEntry) sorted ↔
      sorted = sortBy entryBefore (entries.filter spec.matchesEntry) := fun _ =>
    sorts_iff entryBefore_iff sequence_of_key (sequences_matching hsequences)
  obtain ⟨page, hresult, htotal, hpage⟩ := executeTimelineQuery_eq_ok entries hpos
  rw [← (sortBy.perm entryBefore (entries.filter spec.matchesEntry)).length_eq,
    ← wrappedSlice.eq_slice_iff hpos hlimit hoffset]
  constructor
  · rintro ⟨-, sorted, read, hsorted, hread, -, hslice⟩
    rw [(hsorts sorted).mp hsorted] at hslice
    cases hresult.symm.trans (hread entries (List.Perm.refl _))
    exact hpage.symm.trans hslice
  · intro hslice
    exact ⟨strictlyOrders_of_key entryBefore_iff sequence_of_key, _, page, (hsorts _).mpr rfl,
      fun _ hperm => (executeTimelineQuery_perm hsequences hperm).trans hresult, htotal, hpage.trans hslice⟩

end Timeline

/-- A page is the interval asked for unless its end wraps around `size_t` while there are matches left. -/
theorem pages_exact (findings : List Finding) (spec : QuerySpec) (now : NdoTime)
    (hids : (findings.map Finding.id).Nodup) (hpos : 1 ≤ spec.limit) (hlimit : spec.limit < 2 ^ 64)
    (hoffset : spec.offset < 2 ^ 64) :
    (QueryPaged findings spec now ↔
      (findings.filter (spec.matchesFinding now)).length ≤ spec.offset ∨ spec.offset + spec.limit < 2 ^ 64) ∧
    (∀ pages, (∀ k < pages, k * spec.limit < 2 ^ 64) →
      (findings.filter (spec.matchesFinding now)).length ≤ pages * spec.limit →
      (QueryPartitioned findings spec now pages ↔ ∀ k < pages,
        (findings.filter (spec.matchesFinding now)).length ≤ k * spec.limit ∨
          k * spec.limit + spec.limit < 2 ^ 64)) ∧
    ∀ (entries : List TimelineEntry) (spec : TimelineSpec), (entries.map TimelineEntry.sequence).Nodup →
      1 ≤ spec.limit → spec.limit < 2 ^ 64 → spec.offset < 2 ^ 64 →
      (TimelinePaged entries spec ↔
        (entries.filter spec.matchesEntry).length ≤ spec.offset ∨ spec.offset + spec.limit < 2 ^ 64) :=
  ⟨queryPaged_iff hids hpos hlimit hoffset,
    fun _ hoffsets hall => queryPartitioned_iff hids hpos hlimit hoffsets hall,
    fun _ _ hsequences hpos hlimit hoffset => timelinePaged_iff hsequences hpos hlimit hoffset⟩

namespace Sample

/-- A finding that is told from others by its identity only. -/
def listed (mark : UInt8) : Finding where
  id := ⟨⟨List.replicate 32 mark, rfl⟩⟩
  identity := ⟨⟨[0x74]⟩, ⟨[0x6F]⟩, [], .missing, ⟨1⟩, default⟩
  klass := .missing
  rawClass := .missing
  severity := .low
  state := .open
  reason := .none
  baselineGeneration := ⟨1⟩
  baselineEpoch := ⟨1⟩
  baselineAuthority := .localPolicy
  policy := ⟨[0x70]⟩
  policyDigest := default
  evidence := []
  evidenceFreshness := .fresh
  firstSeen := ⟨1⟩
  lastSeen := ⟨1⟩
  lastEvaluated := ⟨1⟩

/-- An entry under a sequence number. -/
def logged (sequence : Nat) : TimelineEntry where
  kind := .created
  target := ⟨[0x74]⟩
  object := ⟨[0x6F]⟩
  sequence := sequence
  at_ := ⟨1⟩
  stateAfter := .open
  klass := .missing
  severity := .low
  reason := .none
  baselineGeneration := ⟨1⟩
  baselineEpoch := ⟨1⟩
  detail := []

/-- A second page without a bound. -/
def unbounded : QuerySpec := { limit := 2 ^ 64 - 1, offset := 1 }

theorem listed_distinct : ([listed 1, listed 2].map Finding.id).Nodup := by decide

end Sample

/-- The second page is empty although the second finding was never shown. -/
theorem queryPaged_unbounded : ¬ QueryPaged [Sample.listed 1, Sample.listed 2] Sample.unbounded ⟨2⟩ := by
  rw [queryPaged_iff Sample.listed_distinct (by decide) (by decide) (by decide)]
  decide

theorem pages_exact_small :
    QueryPaged [Sample.listed 1, Sample.listed 2] { limit := 1, offset := 1 } ⟨2⟩ ∧
      QueryPartitioned [Sample.listed 1, Sample.listed 2] { limit := 1 } ⟨2⟩ 2 ∧
      TimelinePaged [Sample.logged 2, Sample.logged 1] { limit := 1, offset := 1 } := by
  obtain ⟨hquery, -, htimeline⟩ := pages_exact [Sample.listed 1, Sample.listed 2] { limit := 1, offset := 1 } ⟨2⟩
    Sample.listed_distinct (by decide) (by decide) (by decide)
  obtain ⟨-, hpartition, -⟩ := pages_exact [Sample.listed 1, Sample.listed 2] { limit := 1 } ⟨2⟩
    Sample.listed_distinct (by decide) (by decide) (by decide)
  refine ⟨hquery.mpr (by decide), (hpartition 2 (by decide) (by decide)).mpr (by decide), ?_⟩
  exact (htimeline _ _ (by decide) (by decide) (by decide) (by decide)).mpr (by decide)

end DriftObservatory
