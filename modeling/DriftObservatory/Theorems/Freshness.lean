import DriftObservatory.Observation
import Mathlib.Tactic.Linarith

/-! What the freshness decision comes to, and the same decision in the arithmetic of the machine, where no operation
    overflows. -/

namespace DriftObservatory

/-! ### The arithmetic of the machine -/

namespace Machine

/-- The result of a built-in operation on `std::int64_t`. There is none when it does not fit, which the language leaves
    undefined. -/
def word (z : Int) : Option Int64 := if -(2 ^ 63) ≤ z ∧ z < 2 ^ 63 then some (Int64.ofInt z) else none

/-- `CheckedAddSigned` operation by operation; what it refuses is an inner `none`. -/
def checkedAddSigned (a b : Int64) : Option (Option Int64) :=
  (if 0 < b then (word (Int64.maxValue.toInt - b.toInt)).map fun bound => decide (bound < a)
    else if b < 0 then (word (Int64.minValue.toInt - b.toInt)).map fun bound => decide (a < bound)
    else some false).bind fun refused =>
      if refused then some none else (word (a.toInt + b.toInt)).map some

def checkedSubSigned (a b : Int64) : Option (Option Int64) :=
  if b = Int64.minValue then some none else (word (-b.toInt)).bind fun negated => checkedAddSigned a negated

def tryDifference (later earlier : NdoTime) : Option (Option Int64) :=
  checkedSubSigned later.unixNanos earlier.unixNanos

def percent (policy : FreshnessPolicy) : Int := Max.max 0 (Min.min 100 policy.agingThresholdPercent.toInt)

def agingThreshold (policy : FreshnessPolicy) (ttl : Int64) : Option Int64 :=
  (word (ttl.toInt.tdiv 100)).bind fun hundredths => (word (hundredths.toInt * percent policy)).bind fun whole =>
    (word (ttl.toInt.tmod 100)).bind fun rest => (word (rest.toInt * percent policy)).bind fun scaled =>
      (word (scaled.toInt.tdiv 100)).bind fun part => word (whole.toInt + part.toInt)

/-- What an age since the receipt leaves of the verdict. -/
def heldBy (ttl : Int64) : Option Int64 → Option (FreshnessState × ReasonCode)
  | none => some (.unknown, .observationClockRegression)
  | some receiveAge => if ttl < receiveAge then some (.stale, .observationExpired) else none

def held (snapshot : ObservationSnapshot) (policy : FreshnessPolicy) (now : NdoTime) (ttl : Int64) :
    Option (Option (FreshnessState × ReasonCode)) :=
  if policy.ttlAppliesToReceiveTime ∧ snapshot.receivedAt.isSet then
    (tryDifference now snapshot.receivedAt).map (heldBy ttl)
  else some none

/-- `EvaluateFreshness` operation by operation. -/
def evaluateFreshness (snapshot : ObservationSnapshot) (policy : FreshnessPolicy) (now : NdoTime)
    (liveEpoch : FabricEpoch) (recoveredFromDurableState : Bool) : Option FreshnessVerdict :=
  let ttl := effectiveTtl snapshot policy
  let verdict : FreshnessVerdict := { effectiveTtlNanos := ttl }
  (if snapshot.collectedAt.isSet then tryDifference now snapshot.collectedAt else some none).bind fun
    | none => some { verdict with state := .unknown, reason := .noFreshEvidence }
    | some age =>
      let verdict := { verdict with ageNanos := age }
      if recoveredFromDurableState then
        some { verdict with state := .recoveredNotFresh, reason := .evidenceRecoveredNotFresh }
      else if liveEpoch.isSet ∧ snapshot.epoch ≠ liveEpoch then
        some { verdict with state := .expired, reason := .observationForeignEpoch }
      else (word (-policy.maxClockSkewNanos.toInt)).bind fun earliest =>
        if age < earliest then some { verdict with state := .future, reason := .observationClockRegression }
        else if ttl ≤ 0 then some { verdict with state := .expired, reason := .observationExpired }
        else if ttl < age then some { verdict with state := .stale, reason := .observationExpired }
        else (held snapshot policy now ttl).bind fun
            | some (state, reason) => some { verdict with state := state, reason := reason }
            | none => (agingThreshold policy ttl).map fun threshold =>
              { verdict with
                state := if threshold < age then .aging else .fresh
                reason := .none
                maySupportCompliance := true
                mayAssertAbsence := snapshot.capabilities.assertsAbsence }

theorem word_eq {z : Int} (hlow : -(2 ^ 63) ≤ z) (hhigh : z < 2 ^ 63) : word z = some (Int64.ofInt z) :=
  if_pos ⟨hlow, hhigh⟩

theorem toInt_ofInt {z : Int} (hlow : -(2 ^ 63) ≤ z) (hhigh : z < 2 ^ 63) : (Int64.ofInt z).toInt = z :=
  Int64.toInt_ofInt_of_le hlow hhigh

/-- The bounds the additions are guarded by fit, and so does a sum that passes them. -/
theorem checkedAddSigned_eq (a b : Int64) :
    checkedAddSigned a b = some (DriftObservatory.checkedAddSigned a b) := by
  have ha := a.toInt_lt
  have ha' := a.le_toInt
  have hb := b.toInt_lt
  have hb' := b.le_toInt
  have hmax : Int64.maxValue.toInt = 2 ^ 63 - 1 := by decide
  have hmin : Int64.minValue.toInt = -(2 ^ 63) := by decide
  have hzero : (0 : Int64).toInt = 0 := rfl
  have hsum : ∀ {refused : Bool}, (refused = true ↔ ¬(-(2 ^ 63) ≤ a.toInt + b.toInt ∧ a.toInt + b.toInt < 2 ^ 63)) →
      (if refused then some none else (word (a.toInt + b.toInt)).map some) =
        some (DriftObservatory.checkedAddSigned a b) := by
    intro refused hrefused
    rw [DriftObservatory.checkedAddSigned]
    cases refused with
    | true =>
      rw [if_pos rfl]
      rw [if_neg (hrefused.mp rfl)]
    | false =>
      have hfits := not_not.mp (mt hrefused.mpr Bool.false_ne_true)
      rw [if_neg Bool.false_ne_true, word_eq hfits.1 hfits.2]
      rw [if_pos hfits]
      rfl
  simp only [checkedAddSigned, Int64.lt_iff_toInt_lt, hzero, hmax, hmin]
  split_ifs with hpos hneg
  · rw [word_eq (by omega) (by omega), Option.map_some, Option.bind_some]
    refine hsum ?_
    rw [decide_eq_true_eq, toInt_ofInt (by omega) (by omega)]
    omega
  · rw [word_eq (by omega) (by omega), Option.map_some, Option.bind_some]
    refine hsum ?_
    rw [decide_eq_true_eq, toInt_ofInt (by omega) (by omega)]
    omega
  · rw [Option.bind_some]
    refine hsum ?_
    simp only [Bool.false_eq_true, false_iff, not_not]
    omega

theorem checkedSubSigned_eq (a b : Int64) :
    checkedSubSigned a b = some (DriftObservatory.checkedSubSigned a b) := by
  have hb := b.toInt_lt
  have hb' := b.le_toInt
  rw [checkedSubSigned, DriftObservatory.checkedSubSigned]
  split_ifs with hmin
  · rfl
  · have hne : b.toInt ≠ -(2 ^ 63) := fun heq => hmin (Int64.toInt_inj.mp heq)
    have hneg : Int64.ofInt (-b.toInt) = -b := by rw [Int64.ofInt_neg, Int64.ofInt_toInt]
    rw [word_eq (by omega) (by omega), Option.bind_some, checkedAddSigned_eq, hneg]

theorem tryDifference_eq (later earlier : NdoTime) :
    tryDifference later earlier = some (DriftObservatory.tryDifference later earlier) :=
  checkedSubSigned_eq later.unixNanos earlier.unixNanos

/-- A quotient and the rest of it, each scaled, make the exact share. -/
theorem split_share (n p : Int) : n / 100 * p + n % 100 * p / 100 = n * p / 100 := by
  have hn : n * p = n % 100 * p + n / 100 * p * 100 := by
    have hdiv : n = n % 100 + n / 100 * 100 := by omega
    conv_lhs => rw [hdiv]
    rw [Int.add_mul]
    congr 1
    exact Int.mul_right_comm _ _ _
  rw [hn, Int.add_mul_ediv_right _ _ (by decide), Int.add_comm]

theorem percent_bounds (policy : FreshnessPolicy) : 0 ≤ percent policy ∧ percent policy ≤ 100 := by
  refine ⟨le_max_left _ _, max_le (by decide) (min_le_left _ _)⟩

/-- For a positive lifetime the threshold is the given share of it, rounded down. -/
theorem agingThreshold_floor {policy : FreshnessPolicy} {ttl : Int64} (httl : 0 < ttl) :
    DriftObservatory.agingThreshold policy ttl = ttl.toInt * percent policy / 100 := by
  have hpos : 0 < ttl.toInt := Int64.lt_iff_toInt_lt.mp httl
  have hrest : 0 ≤ ttl.toInt % 100 * percent policy :=
    Int.mul_nonneg (Int.emod_nonneg _ (by decide)) (percent_bounds policy).1
  have hpercent : Max.max 0 (Min.min 100 policy.agingThresholdPercent.toInt) = percent policy := rfl
  simp only [DriftObservatory.agingThreshold, hpercent]
  rw [Int.tdiv_eq_ediv_of_nonneg hpos.le, Int.tmod_eq_emod_of_nonneg hpos.le, Int.tdiv_eq_ediv_of_nonneg hrest,
    split_share]

theorem agingThreshold_eq (policy : FreshnessPolicy) {ttl : Int64} (httl : 0 < ttl) :
    agingThreshold policy ttl = some (Int64.ofInt (DriftObservatory.agingThreshold policy ttl)) ∧
      (Int64.ofInt (DriftObservatory.agingThreshold policy ttl)).toInt = DriftObservatory.agingThreshold policy ttl := by
  have hpos : 0 < ttl.toInt := Int64.lt_iff_toInt_lt.mp httl
  have hmax := ttl.toInt_lt
  obtain ⟨hlow, hhigh⟩ := percent_bounds policy
  have hwhole : 0 ≤ ttl.toInt / 100 * percent policy := Int.mul_nonneg (by omega) hlow
  have hwhole' : ttl.toInt / 100 * percent policy ≤ ttl.toInt / 100 * 100 :=
    Int.mul_le_mul_of_nonneg_left hhigh (by omega)
  have hrest : 0 ≤ ttl.toInt % 100 * percent policy := Int.mul_nonneg (by omega) hlow
  have hrest' : ttl.toInt % 100 * percent policy ≤ ttl.toInt % 100 * 100 :=
    Int.mul_le_mul_of_nonneg_left hhigh (by omega)
  have hthreshold : DriftObservatory.agingThreshold policy ttl =
      ttl.toInt / 100 * percent policy + ttl.toInt % 100 * percent policy / 100 := by
    rw [agingThreshold_floor httl, split_share]
  rw [hthreshold]
  refine ⟨?_, toInt_ofInt (by omega) (by omega)⟩
  rw [agingThreshold, Int.tdiv_eq_ediv_of_nonneg hpos.le, Int.tmod_eq_emod_of_nonneg hpos.le]
  rw [word_eq (by omega) (by omega), Option.bind_some, toInt_ofInt (by omega) (by omega)]
  rw [word_eq (by omega) (by omega), Option.bind_some, toInt_ofInt (by omega) (by omega)]
  rw [word_eq (by omega) (by omega), Option.bind_some, toInt_ofInt (by omega) (by omega)]
  rw [word_eq (by omega) (by omega), Option.bind_some, toInt_ofInt (by omega) (by omega)]
  rw [Int.tdiv_eq_ediv_of_nonneg hrest]
  rw [word_eq (by omega) (by omega), Option.bind_some, toInt_ofInt (by omega) (by omega)]
  exact word_eq (by omega) (by omega)

theorem held_eq (snapshot : ObservationSnapshot) (policy : FreshnessPolicy) (now : NdoTime) (ttl : Int64) :
    held snapshot policy now ttl =
      some (if policy.ttlAppliesToReceiveTime ∧ snapshot.receivedAt.isSet then
        heldBy ttl (DriftObservatory.tryDifference now snapshot.receivedAt) else none) := by
  rw [held, tryDifference_eq]
  exact (apply_ite some _ _ _).symm

/-- With a skew that can be negated, the decision overflows nowhere and is the one on exact numbers. -/
theorem evaluateFreshness_eq {snapshot : ObservationSnapshot} {policy : FreshnessPolicy} (now : NdoTime)
    (liveEpoch : FabricEpoch) (recovered : Bool) (hskew : 0 ≤ policy.maxClockSkewNanos) :
    evaluateFreshness snapshot policy now liveEpoch recovered =
      some (DriftObservatory.evaluateFreshness snapshot policy now liveEpoch recovered) := by
  have hpos : 0 ≤ policy.maxClockSkewNanos.toInt := Int64.le_iff_toInt_le.mp hskew
  have hmax := policy.maxClockSkewNanos.toInt_lt
  have hfirst : (if snapshot.collectedAt.isSet then tryDifference now snapshot.collectedAt else some none) =
      some (if snapshot.collectedAt.isSet then DriftObservatory.tryDifference now snapshot.collectedAt else none) := by
    rw [tryDifference_eq]
    exact (apply_ite some _ _ _).symm
  have hearliest : word (-policy.maxClockSkewNanos.toInt) = some (Int64.ofInt (-policy.maxClockSkewNanos.toInt)) :=
    word_eq (by omega) (by omega)
  have hearlier : ∀ age : Int64, age < Int64.ofInt (-policy.maxClockSkewNanos.toInt) ↔
      age.toInt < -policy.maxClockSkewNanos.toInt := by
    intro age
    rw [Int64.lt_iff_toInt_lt, toInt_ofInt (by omega) (by omega)]
  rw [evaluateFreshness, DriftObservatory.evaluateFreshness]
  simp only [hfirst, Option.bind_some]
  cases if snapshot.collectedAt.isSet then DriftObservatory.tryDifference now snapshot.collectedAt else none with
  | none => rfl
  | some age =>
    simp only [hearliest, Option.bind_some, hearlier, held_eq]
    rcases Bool.eq_false_or_eq_true recovered with rfl | rfl
    · rfl
    rw [if_neg Bool.false_ne_true, if_neg Bool.false_ne_true]
    by_cases hepoch : liveEpoch.isSet = true ∧ snapshot.epoch ≠ liveEpoch
    · rw [if_pos hepoch, if_pos hepoch]
    rw [if_neg hepoch, if_neg hepoch]
    by_cases hfuture : age.toInt < -policy.maxClockSkewNanos.toInt
    · rw [if_pos hfuture, if_pos hfuture]
    rw [if_neg hfuture, if_neg hfuture]
    by_cases hexpired : effectiveTtl snapshot policy ≤ 0
    · rw [if_pos hexpired, if_pos hexpired]
    rw [if_neg hexpired, if_neg hexpired]
    by_cases hstale : effectiveTtl snapshot policy < age
    · rw [if_pos hstale, if_pos hstale]
    rw [if_neg hstale, if_neg hstale]
    obtain ⟨hthreshold, hexact⟩ := agingThreshold_eq policy (not_le.mp hexpired)
    have haging : ∀ age : Int64, Int64.ofInt (DriftObservatory.agingThreshold policy (effectiveTtl snapshot policy)) < age ↔
        DriftObservatory.agingThreshold policy (effectiveTtl snapshot policy) < age.toInt := by
      intro age
      rw [Int64.lt_iff_toInt_lt, hexact]
    simp only [hthreshold, Option.map_some, haging]
    by_cases happlies : policy.ttlAppliesToReceiveTime = true ∧ snapshot.receivedAt.isSet = true
    · rw [if_pos happlies, if_pos happlies]
      cases DriftObservatory.tryDifference now snapshot.receivedAt with
      | none => rfl
      | some receiveAge =>
        simp only [heldBy]
        split_ifs <;> rfl
    · rw [if_neg happlies, if_neg happlies]

end Machine

/-! ### What the decision comes to -/

/-- The lifetime in force, in exact numbers: the smaller of the policy's and a positive one of the source. -/
def lifetime (source policy : Int) : Int := if 0 < source then Min.min source policy else policy

/-- The share of a lifetime after which evidence is aging. -/
def agingShare (ttl percent : Int) : Int := ttl * Max.max 0 (Min.min 100 percent) / 100

/-- The age fits 64 bits. -/
def AgeFits (now earlier : NdoTime) : Prop :=
  -(2 ^ 63) ≤ now.unixNanos.toInt - earlier.unixNanos.toInt ∧ now.unixNanos.toInt - earlier.unixNanos.toInt < 2 ^ 63

/-- What makes evidence usable. -/
structure Usable (snapshot : ObservationSnapshot) (policy : FreshnessPolicy) (now : NdoTime) (liveEpoch : FabricEpoch)
    (recovered : Bool) : Prop where
  live : recovered = false
  collected : snapshot.collectedAt.isSet = true
  fits : AgeFits now snapshot.collectedAt
  epoch : liveEpoch.isSet = false ∨ snapshot.epoch = liveEpoch
  lasting : 0 < lifetime snapshot.ttlNanos.toInt policy.ttlNanos.toInt
  past : -policy.maxClockSkewNanos.toInt ≤ now.unixNanos.toInt - snapshot.collectedAt.unixNanos.toInt
  current : now.unixNanos.toInt - snapshot.collectedAt.unixNanos.toInt ≤
    lifetime snapshot.ttlNanos.toInt policy.ttlNanos.toInt
  received : policy.ttlAppliesToReceiveTime = true → snapshot.receivedAt.isSet = true →
    AgeFits now snapshot.receivedAt ∧ now.unixNanos.toInt - snapshot.receivedAt.unixNanos.toInt ≤
      lifetime snapshot.ttlNanos.toInt policy.ttlNanos.toInt

theorem toInt_effectiveTtl (snapshot : ObservationSnapshot) (policy : FreshnessPolicy) :
    (effectiveTtl snapshot policy).toInt = lifetime snapshot.ttlNanos.toInt policy.ttlNanos.toInt := by
  have hzero : (0 : Int64).toInt = 0 := rfl
  rw [effectiveTtl, lifetime]
  simp only [Int64.lt_iff_toInt_lt, hzero]
  split_ifs <;> omega

theorem agingThreshold_eq_share {snapshot : ObservationSnapshot} {policy : FreshnessPolicy}
    (httl : 0 < effectiveTtl snapshot policy) :
    agingThreshold policy (effectiveTtl snapshot policy) =
      agingShare (lifetime snapshot.ttlNanos.toInt policy.ttlNanos.toInt) policy.agingThresholdPercent.toInt := by
  rw [Machine.agingThreshold_floor httl, toInt_effectiveTtl]
  rfl

/-- A difference from a time that is not the least is refused exactly when it does not fit. -/
theorem tryDifference_eq_some {now earlier : NdoTime} {age : Int64} (h : earlier.unixNanos ≠ Int64.minValue) :
    tryDifference now earlier = some age ↔
      AgeFits now earlier ∧ age.toInt = now.unixNanos.toInt - earlier.unixNanos.toInt := by
  have hne : earlier.unixNanos.toInt ≠ -(2 ^ 63) := fun heq => h (Int64.toInt_inj.mp heq)
  have hlow := earlier.unixNanos.le_toInt
  have hhigh := earlier.unixNanos.toInt_lt
  have hneg : (-earlier.unixNanos).toInt = -earlier.unixNanos.toInt := by
    rw [← Int64.ofInt_toInt earlier.unixNanos, ← Int64.ofInt_neg, Int64.ofInt_toInt]
    exact Machine.toInt_ofInt (by omega) (by omega)
  rw [tryDifference, checkedSubSigned, if_neg h, checkedAddSigned, hneg, ← Int.sub_eq_add_neg]
  split_ifs with hfits
  · rw [Option.some.injEq]
    refine ⟨fun heq => ⟨hfits, ?_⟩, fun hage => ?_⟩
    · rw [← heq, Machine.toInt_ofInt hfits.1 hfits.2]
    · rw [← hage.2, Int64.ofInt_toInt]
  · exact ⟨fun hnone => (by cases hnone), fun hage => absurd hage.1 hfits⟩

theorem tryDifference_of_fits {now earlier : NdoTime} (h : earlier.unixNanos ≠ Int64.minValue)
    (hfits : AgeFits now earlier) : ∃ age, tryDifference now earlier = some age ∧
      age.toInt = now.unixNanos.toInt - earlier.unixNanos.toInt := by
  have hage := Machine.toInt_ofInt hfits.1 hfits.2
  exact ⟨_, (tryDifference_eq_some h).mpr ⟨hfits, hage⟩, hage⟩

section Decision
variable {snapshot : ObservationSnapshot} {policy : FreshnessPolicy} {now : NdoTime} {liveEpoch : FabricEpoch}
  {recovered : Bool}

/-- The verdict on usable evidence. -/
theorem evaluateFreshness_of_usable (hcollected : snapshot.collectedAt.unixNanos ≠ Int64.minValue)
    (hreceived : snapshot.receivedAt.unixNanos ≠ Int64.minValue)
    (h : Usable snapshot policy now liveEpoch recovered) :
    ∃ age : Int64, age.toInt = now.unixNanos.toInt - snapshot.collectedAt.unixNanos.toInt ∧
      evaluateFreshness snapshot policy now liveEpoch recovered =
        { state := if agingShare (lifetime snapshot.ttlNanos.toInt policy.ttlNanos.toInt)
              policy.agingThresholdPercent.toInt < age.toInt then .aging else .fresh
          reason := .none
          ageNanos := age
          effectiveTtlNanos := effectiveTtl snapshot policy
          maySupportCompliance := true
          mayAssertAbsence := snapshot.capabilities.assertsAbsence } := by
  have hzero : (0 : Int64).toInt = 0 := rfl
  obtain ⟨age, hdifference, hage⟩ := tryDifference_of_fits hcollected h.fits
  have hlasting : ¬effectiveTtl snapshot policy ≤ 0 := by
    rw [Int64.le_iff_toInt_le, toInt_effectiveTtl, hzero]
    exact not_le.mpr h.lasting
  have hcurrent : ¬effectiveTtl snapshot policy < age := by
    rw [Int64.lt_iff_toInt_lt, toInt_effectiveTtl, hage]
    exact not_lt.mpr h.current
  have hepoch : ¬(liveEpoch.isSet = true ∧ snapshot.epoch ≠ liveEpoch) := by
    rintro ⟨hset, hne⟩
    rcases h.epoch with hunset | heq
    · rw [hunset] at hset
      cases hset
    · exact hne heq
  refine ⟨age, hage, ?_⟩
  rw [evaluateFreshness, if_pos h.collected, hdifference]
  simp only
  rw [h.live, if_neg Bool.false_ne_true, if_neg hepoch, if_neg (by rw [hage]; exact not_lt.mpr h.past), if_neg hlasting,
    if_neg hcurrent]
  by_cases happlies : policy.ttlAppliesToReceiveTime = true ∧ snapshot.receivedAt.isSet = true
  · obtain ⟨hfits, hkept⟩ := h.received happlies.1 happlies.2
    obtain ⟨receiveAge, hreceive, hheld⟩ := tryDifference_of_fits hreceived hfits
    have hlate : ¬effectiveTtl snapshot policy < receiveAge := by
      rw [Int64.lt_iff_toInt_lt, toInt_effectiveTtl, hheld]
      exact not_lt.mpr hkept
    rw [if_pos happlies, hreceive]
    simp only
    rw [if_neg hlate, agingThreshold_eq_share (not_le.mp hlasting)]
  · rw [if_neg happlies, agingThreshold_eq_share (not_le.mp hlasting)]

/-- Evidence that supports compliance is usable. -/
theorem usable_of_maySupportCompliance (hcollected : snapshot.collectedAt.unixNanos ≠ Int64.minValue)
    (hreceived : snapshot.receivedAt.unixNanos ≠ Int64.minValue)
    (h : (evaluateFreshness snapshot policy now liveEpoch recovered).maySupportCompliance = true) :
    Usable snapshot policy now liveEpoch recovered := by
  have hzero : (0 : Int64).toInt = 0 := rfl
  rw [evaluateFreshness] at h
  simp only at h
  split at h
  · cases h
  rename_i age hage
  split_ifs at hage with hset
  obtain ⟨hfits, hage⟩ := (tryDifference_eq_some hcollected).mp hage
  by_cases hrecovered : recovered = true
  · rw [if_pos hrecovered] at h
    cases h
  rw [if_neg hrecovered] at h
  by_cases hepoch : liveEpoch.isSet = true ∧ snapshot.epoch ≠ liveEpoch
  · rw [if_pos hepoch] at h
    cases h
  rw [if_neg hepoch] at h
  by_cases hfuture : age.toInt < -policy.maxClockSkewNanos.toInt
  · rw [if_pos hfuture] at h
    cases h
  rw [if_neg hfuture] at h
  by_cases hexpired : effectiveTtl snapshot policy ≤ 0
  · rw [if_pos hexpired] at h
    cases h
  rw [if_neg hexpired] at h
  by_cases hstale : effectiveTtl snapshot policy < age
  · rw [if_pos hstale] at h
    cases h
  rw [if_neg hstale] at h
  rw [Int64.lt_iff_toInt_lt, toInt_effectiveTtl] at hstale
  rw [Int64.le_iff_toInt_le, toInt_effectiveTtl, hzero] at hexpired
  refine ⟨Bool.eq_false_iff.mpr hrecovered, hset, hfits, ?_, not_le.mp hexpired, hage ▸ not_lt.mp hfuture,
    hage ▸ not_lt.mp hstale, fun happlies hreceipt => ?_⟩
  · rcases Bool.eq_false_or_eq_true liveEpoch.isSet with hlive | hlive
    · exact .inr (not_not.mp fun hne => hepoch ⟨hlive, hne⟩)
    · exact .inl hlive
  · rw [if_pos ⟨happlies, hreceipt⟩] at h
    cases hreceive : tryDifference now snapshot.receivedAt with
    | none =>
      rw [hreceive] at h
      cases h
    | some receiveAge =>
      rw [hreceive] at h
      simp only at h
      by_cases hlate : effectiveTtl snapshot policy < receiveAge
      · rw [if_pos hlate] at h
        cases h
      · obtain ⟨hfits, hheld⟩ := (tryDifference_eq_some hreceived).mp hreceive
        rw [Int64.lt_iff_toInt_lt, toInt_effectiveTtl, hheld] at hlate
        exact ⟨hfits, not_lt.mp hlate⟩

/-- Evidence does not become usable by a source that asks for less, unless it stops asking for a lifetime at all. -/
theorem Usable.of_stricter {ttl : Int64} (hle : ttl ≤ snapshot.ttlNanos) (hasks : 0 < ttl ∨ snapshot.ttlNanos ≤ 0)
    (h : Usable { snapshot with ttlNanos := ttl } policy now liveEpoch recovered) :
    Usable snapshot policy now liveEpoch recovered := by
  have hzero : (0 : Int64).toInt = 0 := rfl
  have hlifetime : lifetime ttl.toInt policy.ttlNanos.toInt ≤
      lifetime snapshot.ttlNanos.toInt policy.ttlNanos.toInt := by
    rw [Int64.le_iff_toInt_le] at hle
    rw [Int64.lt_iff_toInt_lt, Int64.le_iff_toInt_le, hzero] at hasks
    rw [lifetime, lifetime]
    split_ifs <;> omega
  exact ⟨h.live, h.collected, h.fits, h.epoch, lt_of_lt_of_le h.lasting hlifetime, h.past, le_trans h.current hlifetime,
    fun happlies hset => ⟨(h.received happlies hset).1, le_trans (h.received happlies hset).2 hlifetime⟩⟩

/-- The freshness decision: when evidence may support compliance, from which age on it is aging, that no operation on
    the way overflows, and that a stricter request of the source makes nothing usable. -/
theorem evaluateFreshness_decides (hcollected : snapshot.collectedAt.unixNanos ≠ Int64.minValue)
    (hreceived : snapshot.receivedAt.unixNanos ≠ Int64.minValue) (hskew : 0 ≤ policy.maxClockSkewNanos) :
    ((evaluateFreshness snapshot policy now liveEpoch recovered).maySupportCompliance = true ↔
        Usable snapshot policy now liveEpoch recovered) ∧
      (0 < effectiveTtl snapshot policy → agingThreshold policy (effectiveTtl snapshot policy) =
        agingShare (lifetime snapshot.ttlNanos.toInt policy.ttlNanos.toInt) policy.agingThresholdPercent.toInt) ∧
      (Usable snapshot policy now liveEpoch recovered →
        (evaluateFreshness snapshot policy now liveEpoch recovered).state =
          if agingShare (lifetime snapshot.ttlNanos.toInt policy.ttlNanos.toInt) policy.agingThresholdPercent.toInt <
            now.unixNanos.toInt - snapshot.collectedAt.unixNanos.toInt then .aging else .fresh) ∧
      Machine.evaluateFreshness snapshot policy now liveEpoch recovered =
        some (evaluateFreshness snapshot policy now liveEpoch recovered) ∧
      ∀ ttl : Int64, ttl ≤ snapshot.ttlNanos → (0 < ttl ∨ snapshot.ttlNanos ≤ 0) →
        (evaluateFreshness { snapshot with ttlNanos := ttl } policy now liveEpoch recovered).maySupportCompliance =
            true →
          (evaluateFreshness snapshot policy now liveEpoch recovered).maySupportCompliance = true := by
  have husable : Usable snapshot policy now liveEpoch recovered →
      (evaluateFreshness snapshot policy now liveEpoch recovered).maySupportCompliance = true := by
    intro h
    obtain ⟨age, -, hverdict⟩ := evaluateFreshness_of_usable hcollected hreceived h
    rw [hverdict]
  refine ⟨⟨usable_of_maySupportCompliance hcollected hreceived, husable⟩, agingThreshold_eq_share, fun h => ?_,
    Machine.evaluateFreshness_eq now liveEpoch recovered hskew, fun ttl hle hasks h => ?_⟩
  · obtain ⟨age, hage, hverdict⟩ := evaluateFreshness_of_usable hcollected hreceived h
    rw [hverdict, ← hage]
  · exact husable (Usable.of_stricter hle hasks (usable_of_maySupportCompliance hcollected hreceived h))

end Decision

namespace Sample

/-- Collected and received at once by a source that asks for a lifetime of five nanoseconds. -/
def shortLived : ObservationSnapshot where
  snapshotId := default
  source := ⟨ascii "s"⟩
  epoch := ⟨1⟩
  incarnation := ⟨1⟩
  sequence := ⟨1⟩
  target := ⟨ascii "t"⟩
  collectedAt := ⟨100⟩
  receivedAt := ⟨100⟩
  ttlNanos := 5
  coverage := .complete
  unobserved := []
  objects := ∅
  capabilities := {}
  evidence := .synthetic

end Sample

theorem evaluateFreshness_decides_shortLived :
    ((evaluateFreshness Sample.shortLived {} ⟨104⟩ ⟨1⟩ false).maySupportCompliance = true ↔
        Usable Sample.shortLived {} ⟨104⟩ ⟨1⟩ false) ∧
      (evaluateFreshness Sample.shortLived {} ⟨104⟩ ⟨1⟩ false).maySupportCompliance = true :=
  ⟨(evaluateFreshness_decides (by decide) (by decide) (by decide)).1, by decide +kernel⟩

/-- A source that stops asking for a lifetime gets the policy's: its stale evidence becomes usable. -/
theorem evaluateFreshness_lowered :
    ∃ (snapshot : ObservationSnapshot) (policy : FreshnessPolicy) (now : NdoTime) (liveEpoch : FabricEpoch)
      (ttl : Int64), snapshot.collectedAt.unixNanos ≠ Int64.minValue ∧
      snapshot.receivedAt.unixNanos ≠ Int64.minValue ∧ 0 ≤ policy.maxClockSkewNanos ∧ ttl ≤ snapshot.ttlNanos ∧
      (evaluateFreshness snapshot policy now liveEpoch false).maySupportCompliance = false ∧
      (evaluateFreshness { snapshot with ttlNanos := ttl } policy now liveEpoch false).maySupportCompliance = true :=
  ⟨Sample.shortLived, {}, ⟨110⟩, ⟨1⟩, 0, by decide, by decide, by decide, by decide, by decide +kernel,
    by decide +kernel⟩

end DriftObservatory
