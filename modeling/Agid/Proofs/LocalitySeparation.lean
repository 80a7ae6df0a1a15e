import Agid.Lib.LastOwner
import Agid.PostalCodeEngine

/-!
# Verdicts about localities

Each of the three maps of the loop keeps the last owner of a key, and a collision is a claim that is
disputed (`reported_records`).  A verdict is then about every two records, the earlier of which has
a locality id that is not empty after normalization.
-/

namespace Agid.PostalCode

open LastOwner

variable {toUpperCase : JsString → JsString}

section Loop

/-- A collision of a kind is reported. -/
def SeparationState.reported (kind : CollisionKind) (state : SeparationState) : Bool :=
  state.collisions.any fun collision => collision.kind = kind

namespace AgidPostalLocalityRecord

variable (toUpperCase) (record : AgidPostalLocalityRecord)

/-- The claim of a locality for its code. -/
def codeClaims : List (JsString × JsString) :=
  [(record.localityCodeKey toUpperCase, record.normalizedId toUpperCase)]

/-- The claims of a locality for its postal codes. -/
def postalClaims : List (JsString × JsString) :=
  (record.codes toUpperCase).map fun code =>
    (record.postalKey toUpperCase code, record.normalizedId toUpperCase)

/-- The claim of a code for its locality. -/
def stableClaims : List (JsString × JsString) :=
  [(record.localityKey toUpperCase, record.code toUpperCase)]

end AgidPostalLocalityRecord

theorem otherOwner_isSome (owner : Option JsString) (id : JsString) :
    (otherOwner owner id).isSome = disputed [] owner id := by
  rcases owner with _ | owner
  · rfl
  · by_cases hblank : owner = []
    · simp [otherOwner, nonempty, disputed, hblank]
    · by_cases hsame : owner = id <;> simp [otherOwner, nonempty, disputed, hblank, hsame]

/-- The collision that is noted where the owner is another one. -/
theorem any_match_otherOwner (owner : Option JsString) (id : JsString)
    (collision : JsString → Collision) (kind : CollisionKind) {own : CollisionKind}
    (hkind : ∀ other, (collision other).kind = own) :
    (match otherOwner owner id with
      | some other => [collision other]
      | none => []).any (fun noted => noted.kind = kind)
      = (decide (own = kind) && disputed [] owner id) := by
  rw [← otherOwner_isSome]
  rcases otherOwner owner id with _ | other
  · simp
  · simp [hkind]

/-! ## One record -/

section PostalCodes

variable (record : AgidPostalLocalityRecord)

theorem postalStep_reported (kind : CollisionKind) (state : SeparationState) (code : JsString) :
    (postalStep toUpperCase record state code).reported kind
      = (state.reported kind || (decide (CollisionKind.postalCode = kind)
          && disputed [] (state.postalCodeOwners (record.postalKey toUpperCase code))
            (record.normalizedId toUpperCase))) := by
  unfold postalStep SeparationState.reported
  dsimp only
  rw [List.any_append]
  congr 1
  exact any_match_otherOwner _ _ _ kind fun _ => rfl

theorem foldl_postalStep_owners : ∀ (codes : List JsString) (state : SeparationState),
    (codes.foldl (postalStep toUpperCase record) state).postalCodeOwners
      = owned state.postalCodeOwners (codes.map fun code =>
          (record.postalKey toUpperCase code, record.normalizedId toUpperCase))
  | [], _ => rfl
  | code :: codes, state => by
    rw [List.foldl_cons, foldl_postalStep_owners codes]
    rfl

/-- The loop over the postal codes reads and writes one of the maps. -/
theorem foldl_postalStep_others : ∀ (codes : List JsString) (state : SeparationState),
    (codes.foldl (postalStep toUpperCase record) state).localityCodeOwners
        = state.localityCodeOwners
      ∧ (codes.foldl (postalStep toUpperCase record) state).localityStableCodes
        = state.localityStableCodes
  | [], _ => ⟨rfl, rfl⟩
  | code :: codes, state => by
    rw [List.foldl_cons]
    exact foldl_postalStep_others codes (postalStep toUpperCase record state code)

theorem foldl_postalStep_reported (kind : CollisionKind) :
    ∀ (codes : List JsString) (state : SeparationState),
      (codes.foldl (postalStep toUpperCase record) state).reported kind
        = (state.reported kind || (decide (CollisionKind.postalCode = kind)
            && disputes [] state.postalCodeOwners (codes.map fun code =>
              (record.postalKey toUpperCase code, record.normalizedId toUpperCase))))
  | [], state => by simp [disputes]
  | code :: codes, state => by
    rw [List.foldl_cons, foldl_postalStep_reported kind codes, postalStep_reported, List.map_cons,
      disputes, Bool.and_or_distrib_left, Bool.or_assoc]
    rfl

end PostalCodes

section Record

variable (state : SeparationState) (record : AgidPostalLocalityRecord)

theorem recordStep_postalOwners : (recordStep toUpperCase state record).postalCodeOwners
    = owned state.postalCodeOwners (record.postalClaims toUpperCase) := by
  unfold recordStep
  rw [foldl_postalStep_owners]
  rfl

theorem recordStep_codeOwners : (recordStep toUpperCase state record).localityCodeOwners
    = owned state.localityCodeOwners (record.codeClaims toUpperCase) := by
  unfold recordStep
  rw [(foldl_postalStep_others record _ _).1]
  rfl

theorem recordStep_stableCodes : (recordStep toUpperCase state record).localityStableCodes
    = owned state.localityStableCodes (record.stableClaims toUpperCase) := by
  unfold recordStep
  rw [(foldl_postalStep_others record _ _).2]
  rfl

theorem any_renamed (kind : CollisionKind) :
    (record.renamed toUpperCase).any (fun collision => collision.kind = kind)
      = (decide (CollisionKind.renameCodeChange = kind)
          && !(record.renamed toUpperCase).isEmpty) := by
  unfold AgidPostalLocalityRecord.renamed
  dsimp only
  split_ifs <;> simp

theorem disputes_singleton (owners : Owners) (claim : JsString × JsString) :
    disputes [] owners [claim] = disputed [] (owners claim.1) claim.2 := by
  rw [disputes, disputes, Bool.or_false]

/-- What a record adds to the collisions. -/
theorem recordStep_reported (kind : CollisionKind) :
    (recordStep toUpperCase state record).reported kind
      = (state.reported kind
        || (decide (CollisionKind.renameCodeChange = kind)
            && !(record.renamed toUpperCase).isEmpty)
        || (decide (CollisionKind.renameCodeChange = kind)
            && disputes [] state.localityStableCodes (record.stableClaims toUpperCase))
        || (decide (CollisionKind.localityCode = kind)
            && disputes [] state.localityCodeOwners (record.codeClaims toUpperCase))
        || (decide (CollisionKind.postalCode = kind)
            && disputes [] state.postalCodeOwners (record.postalClaims toUpperCase))) := by
  unfold recordStep
  rw [foldl_postalStep_reported]
  unfold SeparationState.reported
  dsimp only
  rw [List.any_append, List.any_append, List.any_append, any_renamed,
    AgidPostalLocalityRecord.stableClaims, AgidPostalLocalityRecord.codeClaims,
    disputes_singleton, disputes_singleton]
  refine congrArg₂ (· || ·) (congrArg₂ (· || ·) (congrArg₂ (· || ·) rfl ?_) ?_) rfl
  · exact any_match_otherOwner _ _ _ kind fun _ => rfl
  · exact any_match_otherOwner _ _ _ kind fun _ => rfl

end Record

/-! ## All records -/

variable (toUpperCase)

/-- What the loop has reported about some records. -/
def reportedOf (kind : CollisionKind) (records : List AgidPostalLocalityRecord) : Bool :=
  (records.foldl (recordStep toUpperCase) .start).reported kind

variable {toUpperCase}

theorem reported_code (records : List AgidPostalLocalityRecord) :
    reportedOf toUpperCase .localityCode records
      = disputes [] (fun _ => none) (records.flatMap (·.codeClaims toUpperCase)) := by
  have hloop := foldl_notes [] (recordStep toUpperCase) (·.localityCodeOwners)
    (·.reported .localityCode) (fun _ => false) (·.codeClaims toUpperCase) recordStep_codeOwners
    (fun state record => by simp [recordStep_reported]) records .start
  rw [reportedOf, hloop]
  simp [SeparationState.reported, SeparationState.start]

theorem reported_postal (records : List AgidPostalLocalityRecord) :
    reportedOf toUpperCase .postalCode records
      = disputes [] (fun _ => none) (records.flatMap (·.postalClaims toUpperCase)) := by
  have hloop := foldl_notes [] (recordStep toUpperCase) (·.postalCodeOwners)
    (·.reported .postalCode) (fun _ => false) (·.postalClaims toUpperCase) recordStep_postalOwners
    (fun state record => by simp [recordStep_reported]) records .start
  rw [reportedOf, hloop]
  simp [SeparationState.reported, SeparationState.start]

theorem reported_rename (records : List AgidPostalLocalityRecord) :
    reportedOf toUpperCase .renameCodeChange records
      = (records.any (fun record => !(record.renamed toUpperCase).isEmpty)
        || disputes [] (fun _ => none) (records.flatMap (·.stableClaims toUpperCase))) := by
  have hloop := foldl_notes [] (recordStep toUpperCase) (·.localityStableCodes)
    (·.reported .renameCodeChange) (fun record => !(record.renamed toUpperCase).isEmpty)
    (·.stableClaims toUpperCase) recordStep_stableCodes
    (fun state record => by simp [recordStep_reported]) records .start
  rw [reportedOf, hloop]
  simp [SeparationState.reported, SeparationState.start]

end Loop

/-! ## Verdicts -/

section Verdicts

variable {records : List AgidPostalLocalityRecord} {mode : SeparationMode}

theorem localityCodeInjective_iff (mode : SeparationMode) :
    (evaluateAgidPostalLocalitySeparation toUpperCase records mode).localityCodeInjective = true
      ↔ Quiet (Meets (·.codeClaims toUpperCase)) (·.normalizedId toUpperCase) [] records := by
  rw [← flatMap_silent_iff (by simp [AgidPostalLocalityRecord.codeClaims]), ← disputes_none_iff,
    ← reported_code]
  exact iff_of_eq (Bool.not_eq_true' _)

theorem postalSetsDisjoint_iff (mode : SeparationMode) :
    (evaluateAgidPostalLocalitySeparation toUpperCase records mode).postalSetsDisjoint = true
      ↔ Quiet (Meets (·.postalClaims toUpperCase)) (·.normalizedId toUpperCase) [] records := by
  rw [← flatMap_silent_iff (by simp [AgidPostalLocalityRecord.postalClaims]), ← disputes_none_iff,
    ← reported_postal]
  exact iff_of_eq (Bool.not_eq_true' _)

theorem normalizeHierarchyCodePart_ne_nil (value : JsString) :
    normalizeHierarchyCodePart toUpperCase value 2 ≠ [] := by
  unfold normalizeHierarchyCodePart
  dsimp only
  split_ifs with hempty hdigits
  · decide
  · simp [hempty]
  · exact hempty

theorem renameInvariant_iff :
    (evaluateAgidPostalLocalitySeparation toUpperCase records mode).renameInvariant = true
      ↔ (∀ record ∈ records, record.renamed toUpperCase = [])
        ∧ Quiet (Meets (·.stableClaims toUpperCase)) (·.code toUpperCase) [] records := by
  rw [← flatMap_silent_iff (by simp [AgidPostalLocalityRecord.stableClaims]), ← disputes_none_iff]
  have hrename : (evaluateAgidPostalLocalitySeparation toUpperCase records mode).renameInvariant
      = !reportedOf toUpperCase .renameCodeChange records := rfl
  rw [hrename, reported_rename]
  simp

/-- A locality code is never empty, so that its order does not matter. -/
theorem renameInvariant_perm {other : List AgidPostalLocalityRecord} (h : records.Perm other) :
    (evaluateAgidPostalLocalitySeparation toUpperCase other mode).renameInvariant
      = (evaluateAgidPostalLocalitySeparation toUpperCase records mode).renameInvariant := by
  rw [Bool.eq_iff_iff, renameInvariant_iff, renameInvariant_iff]
  refine and_congr (forall_congr' fun record => by rw [h.mem_iff])
    (quiet_perm Meets.symm (fun record => normalizeHierarchyCodePart_ne_nil record.localityCode)
      h).symm

/-- The check of the child zones is about each record by itself. -/
theorem refinement_perm {other : List AgidPostalLocalityRecord} (h : records.Perm other) :
    (evaluateAgidPostalLocalitySeparation toUpperCase
        other mode).hierarchyRefinementPreservesSeparation
      = (evaluateAgidPostalLocalitySeparation toUpperCase
        records mode).hierarchyRefinementPreservesSeparation := by
  unfold evaluateAgidPostalLocalitySeparation
  dsimp only
  rw [Bool.eq_iff_iff, List.all_eq_true, List.all_eq_true]
  exact forall_congr' fun record => by rw [h.mem_iff]

/-- What is not a collision is told by four of the verdicts. -/
theorem verdicts_eq_of {records other : List AgidPostalLocalityRecord}
    (hcode : (evaluateAgidPostalLocalitySeparation toUpperCase other mode).localityCodeInjective
      = (evaluateAgidPostalLocalitySeparation toUpperCase records mode).localityCodeInjective)
    (hpostal : (evaluateAgidPostalLocalitySeparation toUpperCase other mode).postalSetsDisjoint
      = (evaluateAgidPostalLocalitySeparation toUpperCase records mode).postalSetsDisjoint)
    (hrename : (evaluateAgidPostalLocalitySeparation toUpperCase other mode).renameInvariant
      = (evaluateAgidPostalLocalitySeparation toUpperCase records mode).renameInvariant)
    (hrefinement : (evaluateAgidPostalLocalitySeparation toUpperCase
        other mode).hierarchyRefinementPreservesSeparation
      = (evaluateAgidPostalLocalitySeparation toUpperCase
        records mode).hierarchyRefinementPreservesSeparation) :
    { evaluateAgidPostalLocalitySeparation toUpperCase other mode with collisions := [] }
      = { evaluateAgidPostalLocalitySeparation toUpperCase records mode with
          collisions := [] } := by
  unfold evaluateAgidPostalLocalitySeparation at *
  dsimp only at *
  rw [hcode, hpostal, hrename, hrefinement]

/-! ## Right in every order -/

variable (toUpperCase)

/-- Two records with different locality ids share a code in one country and island. -/
def SharesLocalityCode (identify : AgidPostalLocalityRecord → JsString)
    (records : List AgidPostalLocalityRecord) : Prop :=
  ∃ first ∈ records, ∃ second ∈ records, identify first ≠ identify second
    ∧ first.country toUpperCase = second.country toUpperCase
    ∧ first.island toUpperCase = second.island toUpperCase
    ∧ first.code toUpperCase = second.code toUpperCase

/-- Two records with different locality ids share a normalized postal code in one country and
island. -/
def SharesPostalCode (identify : AgidPostalLocalityRecord → JsString)
    (records : List AgidPostalLocalityRecord) : Prop :=
  ∃ first ∈ records, ∃ second ∈ records, identify first ≠ identify second
    ∧ first.country toUpperCase = second.country toUpperCase
    ∧ first.island toUpperCase = second.island toUpperCase
    ∧ ∃ postalCode ∈ first.codes toUpperCase, postalCode ∈ second.codes toUpperCase

/-- The verdicts about some records are right, and the same in every order. -/
def VerdictsRight (identify : AgidPostalLocalityRecord → JsString)
    (records : List AgidPostalLocalityRecord) (mode : SeparationMode) : Prop :=
  let decision := evaluateAgidPostalLocalitySeparation toUpperCase records mode
  (decision.localityCodeInjective = true ↔ ¬ SharesLocalityCode toUpperCase identify records)
    ∧ (decision.postalSetsDisjoint = true ↔ ¬ SharesPostalCode toUpperCase identify records)
    ∧ ∀ other, records.Perm other →
        { evaluateAgidPostalLocalitySeparation toUpperCase other mode with collisions := [] }
          = { decision with collisions := [] }

/-- Two records claim one key of the map of postal codes. -/
abbrev MeetByPostalCode : AgidPostalLocalityRecord → AgidPostalLocalityRecord → Prop :=
  Meets (·.postalClaims toUpperCase)

/-- Two records claim one key of the map of locality codes. -/
abbrev MeetByLocalityCode : AgidPostalLocalityRecord → AgidPostalLocalityRecord → Prop :=
  Meets (·.codeClaims toUpperCase)

variable {toUpperCase}

theorem verdictsRight_iff {identify : AgidPostalLocalityRecord → JsString} :
    VerdictsRight toUpperCase identify records mode
      ↔ (∀ other, records.Perm other →
          (Quiet (MeetByLocalityCode toUpperCase) (·.normalizedId toUpperCase) [] other
            ↔ ¬ SharesLocalityCode toUpperCase identify records))
        ∧ ∀ other, records.Perm other →
          (Quiet (MeetByPostalCode toUpperCase) (·.normalizedId toUpperCase) [] other
            ↔ ¬ SharesPostalCode toUpperCase identify records) := by
  constructor
  · rintro ⟨hcode, hpostal, horder⟩
    refine ⟨fun other hperm => ?_, fun other hperm => ?_⟩
    · have hsame := congrArg (·.localityCodeInjective = true) (horder other hperm)
      rw [← localityCodeInjective_iff mode, ← hcode]
      exact iff_of_eq hsame
    · have hsame := congrArg (·.postalSetsDisjoint = true) (horder other hperm)
      rw [← postalSetsDisjoint_iff mode, ← hpostal]
      exact iff_of_eq hsame
  · rintro ⟨hcode, hpostal⟩
    refine ⟨(localityCodeInjective_iff mode).trans (hcode records (List.Perm.refl records)),
      (postalSetsDisjoint_iff mode).trans (hpostal records (List.Perm.refl records)),
      fun other hperm => verdicts_eq_of ?_ ?_ (renameInvariant_perm hperm) (refinement_perm hperm)⟩
    · rw [Bool.eq_iff_iff, localityCodeInjective_iff, localityCodeInjective_iff,
        hcode other hperm, hcode records (List.Perm.refl records)]
    · rw [Bool.eq_iff_iff, postalSetsDisjoint_iff, postalSetsDisjoint_iff,
        hpostal other hperm, hpostal records (List.Perm.refl records)]

/-! ## Keys of locality codes -/

/-- A part without a colon is told from what stands before it. -/
theorem append_colon_inj {left right part other : JsString} (hpart : (58 : CodeUnit) ∉ part)
    (hother : (58 : CodeUnit) ∉ other) (h : left ++ [58] ++ part = right ++ [58] ++ other) :
    left = right ∧ part = other := by
  rw [List.append_assoc, List.append_assoc, List.singleton_append, List.singleton_append,
    List.append_eq_append_iff] at h
  rcases h with ⟨between, rfl, htail⟩ | ⟨between, rfl, htail⟩
  · rcases between with _ | ⟨c, between⟩
    · exact ⟨(List.append_nil left).symm, (List.cons.inj htail).2⟩
    · rw [(List.cons.inj htail).2] at hpart
      simp at hpart
  · rcases between with _ | ⟨c, between⟩
    · exact ⟨List.append_nil right, (List.cons.inj htail).2.symm⟩
    · rw [(List.cons.inj htail).2] at hother
      simp at hother

theorem colon_notMem_part (value : JsString) :
    (58 : CodeUnit) ∉ normalizeHierarchyCodePart toUpperCase value 2 := by
  have hfilter : (58 : CodeUnit) ∉ (toUpperCase (trim value)).filter isCodeUnit :=
    fun h => absurd (List.mem_filter.1 h).2 (by decide)
  unfold normalizeHierarchyCodePart
  dsimp only
  split_ifs with hempty hdigits
  · decide
  · rw [List.mem_append]
    rintro (h | h)
    · exact absurd (List.eq_of_mem_replicate h) (by decide)
    · exact hfilter h
  · exact hfilter

theorem meetByLocalityCode_iff {first second : AgidPostalLocalityRecord} :
    MeetByLocalityCode toUpperCase first second
      ↔ first.country toUpperCase = second.country toUpperCase
        ∧ first.island toUpperCase = second.island toUpperCase
        ∧ first.code toUpperCase = second.code toUpperCase := by
  have hkeys : MeetByLocalityCode toUpperCase first second
      ↔ first.localityCodeKey toUpperCase = second.localityCodeKey toUpperCase := by
    simp [MeetByLocalityCode, Meets, AgidPostalLocalityRecord.codeClaims]
  rw [hkeys]
  constructor
  · intro h
    obtain ⟨h, hcode⟩ := append_colon_inj (colon_notMem_part _) (colon_notMem_part _) h
    obtain ⟨hcountry, hisland⟩ := append_colon_inj (colon_notMem_part _) (colon_notMem_part _) h
    exact ⟨hcountry, hisland, hcode⟩
  · rintro ⟨hcountry, hisland, hcode⟩
    rw [AgidPostalLocalityRecord.localityCodeKey, hcountry, hisland, hcode]
    rfl

/-- Where different normalized ids are of different localities, localities of which two claim one
code share it. -/
theorem sharesLocalityCode_of_differ {identify : AgidPostalLocalityRecord → JsString}
    (hidentify : ∀ first second, identify first = identify second →
      first.normalizedId toUpperCase = second.normalizedId toUpperCase)
    (h : Differ (MeetByLocalityCode toUpperCase) (·.normalizedId toUpperCase) records) :
    SharesLocalityCode toUpperCase identify records := by
  obtain ⟨first, hfirst, second, hsecond, hmeets, hne⟩ := h
  exact ⟨first, hfirst, second, hsecond, fun h => hne (hidentify first second h),
    meetByLocalityCode_iff.1 hmeets⟩

variable (toUpperCase)

/-- What the verdicts can be told from: localities that share a code have normalized ids that are
not empty, and the same holds of postal codes, the keys of which tell countries and islands
apart. -/
def VerdictsTold (identify : AgidPostalLocalityRecord → JsString)
    (records : List AgidPostalLocalityRecord) : Prop :=
  (Clash (MeetByLocalityCode toUpperCase) (·.normalizedId toUpperCase) [] records
      ∨ ¬ SharesLocalityCode toUpperCase identify records)
    ∧ (Clash (MeetByPostalCode toUpperCase) (·.normalizedId toUpperCase) [] records
        ∧ SharesPostalCode toUpperCase identify records
      ∨ ¬ Differ (MeetByPostalCode toUpperCase) (·.normalizedId toUpperCase) records
        ∧ ¬ SharesPostalCode toUpperCase identify records)

variable {toUpperCase}

theorem verdictsRight_iff_told {identify : AgidPostalLocalityRecord → JsString}
    (hidentify : ∀ first second, identify first = identify second →
      first.normalizedId toUpperCase = second.normalizedId toUpperCase) :
    VerdictsRight toUpperCase identify records mode
      ↔ VerdictsTold toUpperCase identify records := by
  rw [verdictsRight_iff, verdict_in_every_order_iff Meets.symm,
    verdict_in_every_order_iff Meets.symm]
  refine and_congr_left' ⟨?_, ?_⟩
  · rintro (⟨hclash, -⟩ | ⟨-, hgood⟩)
    · exact Or.inl hclash
    · exact Or.inr hgood
  · rintro (hclash | hgood)
    · refine Or.inl ⟨hclash, sharesLocalityCode_of_differ hidentify ?_⟩
      obtain ⟨first, hfirst, second, hsecond, hmeets, hne, -⟩ := hclash
      exact ⟨first, hfirst, second, hsecond, hmeets, hne⟩
    · exact Or.inr ⟨fun h => hgood (sharesLocalityCode_of_differ hidentify h), hgood⟩

/-- The verdicts are right in every order exactly where they can be told from normalized ids that
are not empty, for the locality ids as they are given and for the normalized ones. -/
theorem evaluateAgidPostalLocalitySeparation_iff (toUpperCase : JsString → JsString)
    (records : List AgidPostalLocalityRecord) (mode : SeparationMode) :
    (VerdictsRight toUpperCase (·.localityId) records mode
        ↔ VerdictsTold toUpperCase (·.localityId) records)
      ∧ (VerdictsRight toUpperCase (·.normalizedId toUpperCase) records mode
        ↔ VerdictsTold toUpperCase (·.normalizedId toUpperCase) records) :=
  ⟨verdictsRight_iff_told fun _ _ h => congrArg (normalizeLocalityId toUpperCase) h,
    verdictsRight_iff_told fun _ _ h => h⟩

end Verdicts

/-! ## A locality id without a letter -/

/-- A locality with the only code of its country and island. -/
def onlyLocality (localityId : JsString) : AgidPostalLocalityRecord where
  countryCode := js "JP"
  islandCode := js "00"
  localityId
  localityCode := js "01"
  currentName := js "NAME"
  previousLocalityId := none
  previousLocalityCode := none
  previousName := none
  postalCodes := []

def tokyo : AgidPostalLocalityRecord := onlyLocality [26481, 20140]

def osaka : AgidPostalLocalityRecord := onlyLocality (js "OSAKA")

/-- Both ids share the code, which is reported in one of the two orders.  All texts are in upper
case. -/
theorem verdict_depends_on_order :
    SharesLocalityCode id (·.localityId) [tokyo, osaka]
      ∧ SharesLocalityCode id (·.normalizedId id) [tokyo, osaka]
      ∧ (evaluateAgidPostalLocalitySeparation id [tokyo, osaka]
          .localityPrefixSeparation).localityCodeInjective = true
      ∧ (evaluateAgidPostalLocalitySeparation id [osaka, tokyo]
          .localityPrefixSeparation).localityCodeInjective = false := by
  refine ⟨⟨tokyo, by simp, osaka, by simp, ?_⟩, ⟨tokyo, by simp, osaka, by simp, ?_⟩, ?_, ?_⟩
  all_goals decide

end Agid.PostalCode
