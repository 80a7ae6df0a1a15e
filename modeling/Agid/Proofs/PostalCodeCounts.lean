import Agid.PostalCodeCounts

/-!
# The bound is one

A code takes at most the limit of what a region has, so a region has at least as many codes as the
quotient says, and the codes of different regions are different.  Each part of the bound grows with
the amount it is made of.
-/

namespace Agid.PostalCode

open AgidPostalMinimumCodeRegion (load)

variable {policy : AgidPostalMinimumCodePolicy} {regions : List AgidPostalMinimumCodeRegion}
  {region region' : AgidPostalMinimumCodeRegion} {codes : List Code}

/-! ## One region -/

theorem positiveCeilRatio_le {numerator denominator : Option ℚ} {n : ℕ}
    (h : ∀ bottom, denominator = some bottom → 0 < bottom →
      (⌈numerator.getD 0⌉₊ : ℚ) ≤ n * bottom) : positiveCeilRatio numerator denominator ≤ n := by
  unfold positiveCeilRatio
  rcases denominator with _ | bottom
  · exact Nat.zero_le n
  · dsimp only
    split_ifs with hzero
    · exact Nat.zero_le n
    · rw [not_or, not_le] at hzero
      obtain ⟨hpos, htop⟩ := hzero
      have hle := h bottom rfl hpos
      have hone : 1 ≤ n := by
        by_contra hn
        obtain rfl : n = 0 := by omega
        rw [Nat.cast_zero, zero_mul] at hle
        exact htop (by exact_mod_cast le_antisymm hle (Nat.cast_nonneg _))
      exact max_le hone (Nat.ceil_le.2 ((div_le_iff₀ hpos).2 hle))

theorem sum_le_of_within {l : List ℚ} {limit : ℚ} (h : ∀ x ∈ l, x ≤ limit) :
    l.sum ≤ l.length * limit := by
  have := List.sum_le_card_nsmul l limit h
  rwa [nsmul_eq_mul] at this

theorem activity_iff : hasActivity region = true ↔ ∃ resource, 0 < region.load resource := by
  have hcount (value : Option ℚ) : decide (positiveCount value ≠ 0) = true ↔ 0 < value.getD 0 := by
    rw [decide_eq_true_iff, positiveCount, ← Nat.pos_iff_ne_zero, Nat.ceil_pos]
  unfold hasActivity
  rw [Bool.or_eq_true, Bool.or_eq_true, Bool.or_eq_true, hcount, hcount, hcount, hcount]
  constructor
  · rintro (((h | h) | h) | h)
    · exact ⟨.addressCount, h⟩
    · exact ⟨.population, h⟩
    · exact ⟨.peakDeliveryDemand, h⟩
    · exact ⟨.businessLoad, h⟩
  · rintro ⟨resource, h⟩
    cases resource with
    | addressCount => exact .inl (.inl (.inl h))
    | population => exact .inl (.inl (.inr h))
    | peakDeliveryDemand => exact .inl (.inr h)
    | businessLoad => exact .inr h

theorem lowerBound_le {n : ℕ} : (decideRegion policy region).lowerBound ≤ n ↔
    reserveRequirement policy region ≤ n
      ∧ positiveCeilRatio region.addressCount policy.maxAddressCountPerCode ≤ n
      ∧ positiveCeilRatio region.population policy.maxPopulationPerCode ≤ n
      ∧ positiveCeilRatio region.peakDeliveryDemand policy.maxPeakDeliveryDemandPerCode ≤ n
      ∧ positiveCeilRatio region.businessLoad policy.maxBusinessLoadPerCode ≤ n
      ∧ positiveCount region.connectedComponentCount ≤ n
      ∧ positiveCount region.timeCoverCount ≤ n := by
  simp only [decideRegion, List.foldr_cons, List.foldr_nil, max_le_iff, Nat.zero_le, and_true]

/-- A region whose load is taken has as many codes as the quotient says. -/
theorem SharedWhole.ratio_le (h : SharedWhole policy regions codes) {index : ℕ}
    (hregion : regions[index]? = some region) (resource : Resource) {numerator : Option ℚ}
    (hload : numerator.getD 0 = region.load resource) :
    positiveCeilRatio numerator (policy.limit resource) ≤ codes.countP (·.region = index) := by
  refine positiveCeilRatio_le fun bottom hlimit hpos => ?_
  rw [hload]
  refine (h.carried index region hregion resource).trans ?_
  have hwithin : ∀ x ∈ (codes.filter (·.region = index)).map (·.amount resource), x ≤ bottom := by
    intro x hx
    obtain ⟨code, hcode, rfl⟩ := List.mem_map.1 hx
    exact h.within code (List.mem_of_mem_filter hcode) resource bottom hlimit hpos
  have hsum := sum_le_of_within hwithin
  rwa [List.length_map, ← List.countP_eq_length_filter] at hsum

theorem SharedWhole.exists_code (h : SharedWhole policy regions codes) {index : ℕ}
    (hregion : regions[index]? = some region) (hactive : hasActivity region = true) :
    0 < codes.countP (·.region = index) := by
  obtain ⟨resource, hload⟩ := activity_iff.1 hactive
  have hcarried := h.carried index region hregion resource
  have hpos : (0 : ℚ) < ⌈region.load resource⌉₊ := by exact_mod_cast Nat.ceil_pos.2 hload
  rw [List.countP_eq_length_filter, List.length_pos_iff]
  intro hnone
  rw [hnone, List.map_nil, List.sum_nil] at hcarried
  exact absurd hcarried (not_le.2 hpos)

theorem SharedWhole.lowerBound_le (h : SharedWhole policy regions codes)
    (hparts : Separated policy regions codes) {index : ℕ}
    (hregion : regions[index]? = some region) :
    (decideRegion policy region).lowerBound ≤ codes.countP (·.region = index) := by
  obtain ⟨hcomponents, htimes, hkept⟩ := hparts index region hregion
  refine PostalCode.lowerBound_le.2 ⟨?_, h.ratio_le hregion .addressCount rfl,
    h.ratio_le hregion .population rfl, h.ratio_le hregion .peakDeliveryDemand rfl,
    h.ratio_le hregion .businessLoad rfl, hcomponents, htimes⟩
  unfold reserveRequirement
  split_ifs with hreserve
  · rw [Bool.or_eq_true, Bool.or_eq_true, Bool.and_eq_true] at hreserve
    rcases hreserve with (hreserve | ⟨hreserve, -⟩) | hactive
    · exact hkept (.inl hreserve)
    · exact hkept (.inr hreserve)
    · exact h.exists_code hregion hactive
  · exact Nat.zero_le _

/-! ## All regions -/

theorem operationalLowerBound_eq (regions : List AgidPostalMinimumCodeRegion)
    (policy : AgidPostalMinimumCodePolicy) :
    (estimateAgidPostalMinimumCodeCount regions policy).operationalLowerBound
      = max 1 (regions.map fun region => (decideRegion policy region).lowerBound).sum := by
  have hfold : ∀ (l : List AgidPostalMinimumRegionDecision) (n : ℕ),
      l.foldl (fun sum region => sum + region.lowerBound) n = n + (l.map (·.lowerBound)).sum := by
    intro l
    induction l with
    | nil => exact fun _ => rfl
    | cons region l ih =>
      intro n
      rw [List.foldl_cons, ih, List.map_cons, List.sum_cons, add_assoc]
  simp only [estimateAgidPostalMinimumCodeCount, hfold, zero_add, List.map_map]
  rfl

/-- The codes of different regions are different. -/
theorem sum_countP_le (n : ℕ) (codes : List Code) :
    ((List.range n).map fun index => codes.countP (·.region = index)).sum ≤ codes.length := by
  induction codes with
  | nil => simp
  | cons code codes ih =>
    have hone : ((List.range n).map fun index =>
        if code.region = index then 1 else 0).sum ≤ 1 := by
      rw [← List.sum_toFinset _ List.nodup_range, Finset.sum_ite_eq]
      split_ifs <;> omega
    simp only [List.countP_cons, decide_eq_true_eq, List.sum_map_add, List.length_cons]
    omega

theorem map_eq_map_range {α β : Type} (f : α → β) (l : List α) (default : β) :
    l.map f = (List.range l.length).map fun index => (l[index]?.map f).getD default := by
  refine List.ext_getElem (by simp) fun index hindex hindex' => ?_
  rw [List.length_map] at hindex
  simp [hindex]

theorem mul_positiveCeilRatio {numerator : Option ℚ} {bottom : ℚ} (hpos : 0 < bottom) :
    (⌈numerator.getD 0⌉₊ : ℚ) ≤ positiveCeilRatio numerator (some bottom) * bottom := by
  unfold positiveCeilRatio
  dsimp only
  split_ifs with hzero
  · rcases hzero with hzero | hzero
    · exact absurd hpos (not_lt.2 hzero)
    · rw [hzero, Nat.cast_zero, zero_mul]
  · refine (div_le_iff₀ hpos).1 ((Nat.le_ceil _).trans ?_)
    exact_mod_cast le_max_right 1 _

theorem positiveCeilRatio_mono {numerator numerator' : Option ℚ} (denominator : Option ℚ)
    (h : numerator.getD 0 ≤ numerator'.getD 0) :
    positiveCeilRatio numerator denominator ≤ positiveCeilRatio numerator' denominator := by
  refine positiveCeilRatio_le fun bottom hbottom hpos => ?_
  rw [hbottom]
  refine le_trans ?_ (mul_positiveCeilRatio hpos)
  exact_mod_cast Nat.ceil_mono h

theorem AgidPostalMinimumCodeRegion.Below.lowerBound_le (h : region.Below region') :
    (decideRegion policy region).lowerBound ≤ (decideRegion policy region').lowerBound := by
  obtain ⟨hloads, hcomponents, htimes, hkept⟩ := h
  obtain ⟨hreserve, haddress, hpopulation, hdemand, hbusiness, hcomponents', htimes'⟩ :=
    PostalCode.lowerBound_le.1 (le_refl (decideRegion policy region').lowerBound)
  have hactive : hasActivity region = true → hasActivity region' = true := fun hactive => by
    obtain ⟨resource, hpos⟩ := activity_iff.1 hactive
    exact activity_iff.2 ⟨resource, hpos.trans_le (hloads resource)⟩
  have hrequired : reserveRequirement policy region ≤ reserveRequirement policy region' := by
    unfold reserveRequirement
    by_cases hactive' : hasActivity region' = true
    · rw [hactive', Bool.or_true, if_pos rfl]
      split_ifs <;> omega
    · have hidle : hasActivity region = false := by
        rw [Bool.eq_false_iff]
        exact fun h => hactive' (hactive h)
      rw [hidle, Bool.eq_false_iff.2 hactive', Bool.or_false, Bool.or_false]
      split_ifs with hone htwo
      · exact le_rfl
      · rw [Bool.or_eq_true] at hone htwo
        exact absurd (hone.imp_left hkept) htwo
      · exact Nat.zero_le _
      · exact le_rfl
  exact PostalCode.lowerBound_le.2 ⟨hrequired.trans hreserve,
    (positiveCeilRatio_mono _ (hloads .addressCount)).trans haddress,
    (positiveCeilRatio_mono _ (hloads .population)).trans hpopulation,
    (positiveCeilRatio_mono _ (hloads .peakDeliveryDemand)).trans hdemand,
    (positiveCeilRatio_mono _ (hloads .businessLoad)).trans hbusiness,
    (Nat.ceil_mono hcomponents).trans hcomponents', (Nat.ceil_mono htimes).trans htimes'⟩

theorem sum_lowerBound_le (h : SharedWhole policy regions codes)
    (hparts : Separated policy regions codes) :
    (regions.map fun region => (decideRegion policy region).lowerBound).sum ≤ codes.length := by
  rw [map_eq_map_range _ regions 0]
  refine le_trans (List.sum_le_sum fun index hindex => ?_) (sum_countP_le regions.length codes)
  have hregion := List.getElem?_eq_getElem (List.mem_range.1 hindex)
  rw [hregion, Option.map_some, Option.getD_some]
  exact h.lowerBound_le hparts hregion

/-- As many codes are used as the bound says, where each region has what it needs, and the bound
does not fall when a region is added or a load is raised. -/
theorem estimateAgidPostalMinimumCodeCount_least :
    LeastFor (fun policy regions codes =>
        SharedWhole policy regions codes ∧ Separated policy regions codes)
      ∧ (∀ regions regions' policy, regions.Sublist regions' →
        (estimateAgidPostalMinimumCodeCount regions policy).operationalLowerBound
          ≤ (estimateAgidPostalMinimumCodeCount regions' policy).operationalLowerBound)
      ∧ ∀ regions regions' policy,
        List.Forall₂ AgidPostalMinimumCodeRegion.Below regions regions' →
        (estimateAgidPostalMinimumCodeCount regions policy).operationalLowerBound
          ≤ (estimateAgidPostalMinimumCodeCount regions' policy).operationalLowerBound := by
  simp only [LeastFor, operationalLowerBound_eq]
  refine ⟨fun regions policy codes ⟨hassigned, hparts⟩ ⟨region, hregion, hneeds⟩ => ?_,
    fun regions regions' policy hsub => max_le_max le_rfl ?_,
    fun regions regions' policy hbelow => max_le_max le_rfl ?_⟩
  · have hsum := sum_lowerBound_le hassigned hparts
    have hone := List.single_le_sum (fun x _ => Nat.zero_le x) _ (List.mem_map_of_mem
      (f := fun region => (decideRegion policy region).lowerBound) hregion)
    exact max_le ((Nat.succ_le_of_lt hneeds).trans (hone.trans hsum)) hsum
  · exact (hsub.map _).sum_le_sum fun x _ => Nat.zero_le x
  · refine List.Forall₂.sum_le_sum ?_
    rw [List.forall₂_map_left_iff, List.forall₂_map_right_iff]
    exact hbelow.imp fun _ _ h => h.lowerBound_le

/-! ## What the conditions are for -/

def idleRegion : AgidPostalMinimumCodeRegion where
  regionId := js "region-1"
  name := none
  addressCount := none
  population := none
  peakDeliveryDemand := none
  businessLoad := none
  connectedComponentCount := none
  timeCoverCount := none
  reserveCode := false
  largestAtomicAddressCount := none
  largestAtomicPopulation := none
  largestAtomicPeakDeliveryDemand := none
  largestAtomicBusinessLoad := none

/-- A limit of addresses alone. -/
def addressPolicy (limit : ℚ) : AgidPostalMinimumCodePolicy where
  maxAddressCountPerCode := some limit
  maxPopulationPerCode := none
  maxPeakDeliveryDemandPerCode := none
  maxBusinessLoadPerCode := none
  reserveEmptyRegions := false

/-- One code that takes a number of addresses of the first region. -/
def addressCode (amount : ℚ) : Code where
  region := 0
  amount
    | .addressCount => amount
    | _ => 0

theorem assigned_addressCode {measure : ℚ → ℚ} {amount limit : ℚ} (hamount : 0 ≤ amount)
    (hlimit : amount ≤ limit) (haddress : measure (region.load .addressCount) ≤ amount)
    (hothers : ∀ resource, resource ≠ .addressCount → measure (region.load resource) = 0) :
    Assigned (addressPolicy limit) [region] measure [addressCode amount] where
  nonneg := by
    intro code hcode resource
    obtain rfl := List.mem_singleton.1 hcode
    cases resource <;> first | exact hamount | exact le_rfl
  within := by
    intro code hcode resource bound hbound _
    obtain rfl := List.mem_singleton.1 hcode
    cases resource with
    | addressCount => exact hlimit.trans_eq (Option.some.inj hbound)
    | population => cases hbound
    | peakDeliveryDemand => cases hbound
    | businessLoad => cases hbound
  carried := by
    rintro (_ | index) region' hregion' resource
    · obtain rfl := Option.some.inj hregion'
      cases resource with
      | addressCount => exact haddress.trans_eq (add_zero amount).symm
      | population => exact (hothers .population nofun).trans_le (add_zero 0).ge
      | peakDeliveryDemand => exact (hothers .peakDeliveryDemand nofun).trans_le (add_zero 0).ge
      | businessLoad => exact (hothers .businessLoad nofun).trans_le (add_zero 0).ge
    · cases hregion'

theorem not_leastFor {conditions : AgidPostalMinimumCodePolicy →
      List AgidPostalMinimumCodeRegion → List Code → Prop} {code : Code}
    (h : conditions policy [region] [code]) (hbound : (decideRegion policy region).lowerBound = 2) :
    ¬ LeastFor conditions := by
  intro hleast
  have hone := hleast [region] policy [code] h
    ⟨region, List.mem_singleton_self region, by rw [hbound]; decide⟩
  rw [operationalLowerBound_eq, List.map_singleton, List.sum_singleton, hbound] at hone
  exact absurd (show max 1 2 ≤ 1 from hone) (by decide)

/-- Half an address, where a code may have half an address. -/
def halfRegion : AgidPostalMinimumCodeRegion := { idleRegion with addressCount := some (1 / 2) }

theorem lowerBound_halfRegion :
    (decideRegion (addressPolicy (1 / 2)) halfRegion).lowerBound = 2 := by
  norm_num [decideRegion, reserveRequirement, hasActivity, positiveCount, positiveCeilRatio,
    addressPolicy, idleRegion, halfRegion]

/-- An address in a region of two components. -/
def brokenRegion : AgidPostalMinimumCodeRegion :=
  { idleRegion with addressCount := some 1, connectedComponentCount := some 2 }

theorem lowerBound_brokenRegion :
    (decideRegion (addressPolicy 1) brokenRegion).lowerBound = 2 := by
  norm_num [decideRegion, reserveRequirement, hasActivity, positiveCount, positiveCeilRatio,
    addressPolicy, idleRegion, brokenRegion]

/-- One code has the half an address for which the bound is two, as it has the address of the region
in two parts. -/
theorem estimateAgidPostalMinimumCodeCount_not_least :
    ¬ LeastFor Shared
      ∧ ¬ LeastFor (fun policy regions codes =>
        Shared policy regions codes ∧ Separated policy regions codes)
      ∧ ¬ LeastFor SharedWhole := by
  have hhalf : Shared (addressPolicy (1 / 2)) [halfRegion] [addressCode (1 / 2)] := by
    refine ⟨fun region hregion resource => ?_,
      assigned_addressCode (by norm_num) le_rfl le_rfl fun resource hother => ?_⟩
    · obtain rfl := List.mem_singleton.1 hregion
      cases resource <;> norm_num [load, halfRegion, idleRegion]
    · cases resource <;> first | exact absurd rfl hother | rfl
  refine ⟨not_leastFor hhalf lowerBound_halfRegion,
    not_leastFor ⟨hhalf, ?_⟩ lowerBound_halfRegion,
    not_leastFor (assigned_addressCode zero_le_one le_rfl ?_ fun resource hother => ?_)
      lowerBound_brokenRegion⟩
  · rintro (_ | index) region hregion
    · obtain rfl := Option.some.inj hregion
      norm_num [positiveCount, halfRegion, idleRegion, addressPolicy, addressCode]
    · cases hregion
  · norm_num [load, brokenRegion]
  · cases resource <;> first | exact absurd rfl hother | norm_num [load, brokenRegion, idleRegion]

/-- Two codes have the three addresses of a region, of which a code may have two. -/
theorem estimateAgidPostalMinimumCodeCount_three :
    (estimateAgidPostalMinimumCodeCount [{ idleRegion with addressCount := some 3 }]
      (addressPolicy 2)).operationalLowerBound ≤ 2 := by
  refine estimateAgidPostalMinimumCodeCount_least.1 _ _ [addressCode 2, addressCode 1]
    ⟨⟨?_, ?_, ?_⟩, ?_⟩ ⟨_, List.mem_singleton_self _, ?_⟩
  · intro code hcode resource
    rcases List.mem_pair.1 hcode with rfl | rfl <;> cases resource <;> norm_num [addressCode]
  · intro code hcode resource limit hlimit _
    cases resource with
    | addressCount =>
      obtain rfl := Option.some.inj hlimit
      rcases List.mem_pair.1 hcode with rfl | rfl <;> norm_num [addressCode]
    | population => cases hlimit
    | peakDeliveryDemand => cases hlimit
    | businessLoad => cases hlimit
  · rintro (_ | index) region hregion resource
    · obtain rfl := Option.some.inj hregion
      cases resource <;> norm_num [load, idleRegion, addressCode]
    · cases hregion
  · rintro (_ | index) region hregion
    · obtain rfl := Option.some.inj hregion
      norm_num [positiveCount, idleRegion, addressPolicy, addressCode]
    · cases hregion
  · norm_num [decideRegion, reserveRequirement, hasActivity, positiveCount, positiveCeilRatio,
      addressPolicy, idleRegion]

end Agid.PostalCode
