import Agid.PostalCodeEngine

/-!
# The least number of codes

`estimateAgidPostalMinimumCodeCount` of `src/lib/agidPostalCodeEngine.ts`.  The numbers of a region
and of a policy are finite and exact; a limit that is not finite reads as none.
-/

namespace Agid.PostalCode

structure AgidPostalMinimumCodeRegion where
  regionId : JsString
  name : Option JsString
  addressCount : Option ℚ
  population : Option ℚ
  peakDeliveryDemand : Option ℚ
  businessLoad : Option ℚ
  connectedComponentCount : Option ℚ
  timeCoverCount : Option ℚ
  reserveCode : Bool
  largestAtomicAddressCount : Option ℚ
  largestAtomicPopulation : Option ℚ
  largestAtomicPeakDeliveryDemand : Option ℚ
  largestAtomicBusinessLoad : Option ℚ

structure AgidPostalMinimumCodePolicy where
  maxAddressCountPerCode : Option ℚ
  maxPopulationPerCode : Option ℚ
  maxPeakDeliveryDemandPerCode : Option ℚ
  maxBusinessLoadPerCode : Option ℚ
  reserveEmptyRegions : Bool

structure AgidPostalMinimumRegionDecision where
  regionId : JsString
  name : Option JsString
  reserveRequirement : ℕ
  addressLowerBound : ℕ
  populationLowerBound : ℕ
  demandLowerBound : ℕ
  businessLowerBound : ℕ
  connectedComponentLowerBound : ℕ
  timeCoverLowerBound : ℕ
  lowerBound : ℕ
  requiresAtomicSubdivision : Bool
  rationale : List JsString

structure TheoremChecks where
  absoluteMinimumExists : Bool
  requiredRegionSeparation : Bool
  capacityPolicyApplied : Bool
  routeConnectivityApplied : Bool

structure AgidPostalMinimumCodeCountDecision where
  absoluteMinimum : ℕ
  structuralMinimum : ℕ
  operationalLowerBound : ℕ
  feasibleWithoutAtomicSubdivision : Bool
  regions : List AgidPostalMinimumRegionDecision
  theoremChecks : TheoremChecks
  rationale : List JsString

/-- The numerator is rounded up before it is divided, and the quotient after it. -/
def positiveCeilRatio (numerator denominator : Option ℚ) : ℕ :=
  let top := ⌈numerator.getD 0⌉₊
  match denominator with
  | none => 0
  | some bottom => if bottom ≤ 0 ∨ top = 0 then 0 else max 1 ⌈(top : ℚ) / bottom⌉₊

def positiveCount (value : Option ℚ) : ℕ := ⌈value.getD 0⌉₊

def wouldAtomicValueExceedLimit (value limit : Option ℚ) : Bool :=
  let numeric := value.getD 0
  match limit with
  | none => false
  | some max => 0 < numeric && 0 < max && max < numeric

def hasActivity (region : AgidPostalMinimumCodeRegion) : Bool :=
  positiveCount region.addressCount ≠ 0 || positiveCount region.population ≠ 0
    || positiveCount region.peakDeliveryDemand ≠ 0 || positiveCount region.businessLoad ≠ 0

def reserveRequirement (policy : AgidPostalMinimumCodePolicy)
    (region : AgidPostalMinimumCodeRegion) : ℕ :=
  if region.reserveCode || (policy.reserveEmptyRegions && !hasActivity region)
    || hasActivity region then 1 else 0

def requiresAtomicSubdivision (policy : AgidPostalMinimumCodePolicy)
    (region : AgidPostalMinimumCodeRegion) : Bool :=
  wouldAtomicValueExceedLimit region.largestAtomicAddressCount policy.maxAddressCountPerCode
    || wouldAtomicValueExceedLimit region.largestAtomicPopulation policy.maxPopulationPerCode
    || wouldAtomicValueExceedLimit region.largestAtomicPeakDeliveryDemand
      policy.maxPeakDeliveryDemandPerCode
    || wouldAtomicValueExceedLimit region.largestAtomicBusinessLoad policy.maxBusinessLoadPerCode

/-- A line of a rationale that ends in a number. -/
def counted (label : String) (n : ℕ) : JsString := js label ++ js (toString n)

/-- What is made of one region. -/
def decideRegion (policy : AgidPostalMinimumCodePolicy) (region : AgidPostalMinimumCodeRegion) :
    AgidPostalMinimumRegionDecision :=
  let addressLowerBound := positiveCeilRatio region.addressCount policy.maxAddressCountPerCode
  let populationLowerBound := positiveCeilRatio region.population policy.maxPopulationPerCode
  let demandLowerBound :=
    positiveCeilRatio region.peakDeliveryDemand policy.maxPeakDeliveryDemandPerCode
  let businessLowerBound := positiveCeilRatio region.businessLoad policy.maxBusinessLoadPerCode
  let connectedComponentLowerBound := positiveCount region.connectedComponentCount
  let timeCoverLowerBound := positiveCount region.timeCoverCount
  let lowerBound := [reserveRequirement policy region, addressLowerBound, populationLowerBound,
    demandLowerBound, businessLowerBound, connectedComponentLowerBound,
    timeCoverLowerBound].foldr max 0
  { regionId := region.regionId
    name := region.name
    reserveRequirement := reserveRequirement policy region
    addressLowerBound
    populationLowerBound
    demandLowerBound
    businessLowerBound
    connectedComponentLowerBound
    timeCoverLowerBound
    lowerBound
    requiresAtomicSubdivision := requiresAtomicSubdivision policy region
    rationale :=
      [js "region:" ++ region.regionId, counted "address-lower-bound:" addressLowerBound,
        counted "population-lower-bound:" populationLowerBound,
        counted "demand-lower-bound:" demandLowerBound,
        counted "business-lower-bound:" businessLowerBound,
        counted "connected-components:" connectedComponentLowerBound,
        counted "time-cover-count:" timeCoverLowerBound,
        counted "reserve-requirement:" (reserveRequirement policy region),
        counted "lower-bound:" lowerBound]
      ++ if requiresAtomicSubdivision policy region then
          [js "one-or-more-atomic-cells-exceed-per-code-limit-and-must-be-subdivided"]
        else [] }

def estimateAgidPostalMinimumCodeCount (regions : List AgidPostalMinimumCodeRegion)
    (policy : AgidPostalMinimumCodePolicy) : AgidPostalMinimumCodeCountDecision :=
  let regions := regions.map (decideRegion policy)
  let structuralMinimum := (regions.filter (0 < ·.reserveRequirement)).length
  let operationalLowerBound := max 1 (regions.foldl (fun sum region => sum + region.lowerBound) 0)
  let feasibleWithoutAtomicSubdivision := !regions.any (·.requiresAtomicSubdivision)
  { absoluteMinimum := 1
    structuralMinimum
    operationalLowerBound
    feasibleWithoutAtomicSubdivision
    regions
    theoremChecks :=
      { absoluteMinimumExists := true
        requiredRegionSeparation := structuralMinimum ≤ operationalLowerBound
        capacityPolicyApplied := regions.any fun region =>
          0 < region.addressLowerBound || 0 < region.populationLowerBound
            || 0 < region.demandLowerBound || 0 < region.businessLowerBound
        routeConnectivityApplied := regions.any fun region =>
          0 < region.connectedComponentLowerBound || 0 < region.timeCoverLowerBound }
    rationale :=
      [js "absolute-minimum-is-one-country-wide-zone",
        counted "structural-minimum:" structuralMinimum,
        counted "operational-lower-bound:" operationalLowerBound,
        if feasibleWithoutAtomicSubdivision then
          js "no-atomic-subdivision-required-by-current-limits"
        else js "atomic-subdivision-required-before-exact-optimization",
        js ("exact-operational-minimum-requires-"
          ++ "covering-or-integer-optimization-over-candidate-zones")] }

/-! ## Codes that share out the loads -/

inductive Resource where
  | addressCount
  | population
  | peakDeliveryDemand
  | businessLoad

def AgidPostalMinimumCodeRegion.load (region : AgidPostalMinimumCodeRegion) : Resource → ℚ
  | .addressCount => region.addressCount.getD 0
  | .population => region.population.getD 0
  | .peakDeliveryDemand => region.peakDeliveryDemand.getD 0
  | .businessLoad => region.businessLoad.getD 0

def AgidPostalMinimumCodePolicy.limit (policy : AgidPostalMinimumCodePolicy) :
    Resource → Option ℚ
  | .addressCount => policy.maxAddressCountPerCode
  | .population => policy.maxPopulationPerCode
  | .peakDeliveryDemand => policy.maxPeakDeliveryDemandPerCode
  | .businessLoad => policy.maxBusinessLoadPerCode

/-- A code of the region at an index, and what it takes of each load. -/
structure Code where
  region : ℕ
  amount : Resource → ℚ

/-- The codes take the loads, in the given measure, and none more than a limit. -/
structure Assigned (policy : AgidPostalMinimumCodePolicy)
    (regions : List AgidPostalMinimumCodeRegion) (measure : ℚ → ℚ) (codes : List Code) : Prop where
  nonneg : ∀ code ∈ codes, ∀ resource, 0 ≤ code.amount resource
  within : ∀ code ∈ codes, ∀ resource limit, policy.limit resource = some limit → 0 < limit →
    code.amount resource ≤ limit
  carried : ∀ index region, regions[index]? = some region → ∀ resource,
    measure (region.load resource)
      ≤ ((codes.filter (·.region = index)).map (·.amount resource)).sum

/-- The codes share out loads of zero or more as they are. -/
def Shared (policy : AgidPostalMinimumCodePolicy) (regions : List AgidPostalMinimumCodeRegion)
    (codes : List Code) : Prop :=
  (∀ region ∈ regions, ∀ resource, 0 ≤ region.load resource)
    ∧ Assigned policy regions (fun x => x) codes

/-- The codes share out loads that are rounded up. -/
def SharedWhole (policy : AgidPostalMinimumCodePolicy) (regions : List AgidPostalMinimumCodeRegion)
    (codes : List Code) : Prop :=
  Assigned policy regions (fun x => (⌈x⌉₊ : ℚ)) codes

/-- Each region has a code for each of its components and of its times, and one where it has to be
kept. -/
def Separated (policy : AgidPostalMinimumCodePolicy)
    (regions : List AgidPostalMinimumCodeRegion) (codes : List Code) : Prop :=
  ∀ index region, regions[index]? = some region →
    positiveCount region.connectedComponentCount ≤ codes.countP (·.region = index)
      ∧ positiveCount region.timeCoverCount ≤ codes.countP (·.region = index)
      ∧ (region.reserveCode ∨ policy.reserveEmptyRegions →
        0 < codes.countP (·.region = index))

/-- Codes that meet the conditions are no fewer than the bound, where some region needs one. -/
def LeastFor (conditions : AgidPostalMinimumCodePolicy → List AgidPostalMinimumCodeRegion →
    List Code → Prop) : Prop :=
  ∀ regions policy codes, conditions policy regions codes →
    (∃ region ∈ regions, 0 < (decideRegion policy region).lowerBound) →
    (estimateAgidPostalMinimumCodeCount regions policy).operationalLowerBound ≤ codes.length

/-- No amount of the first is more than that of the second, and it is kept only where that is. -/
def AgidPostalMinimumCodeRegion.Below (region region' : AgidPostalMinimumCodeRegion) : Prop :=
  (∀ resource, region.load resource ≤ region'.load resource)
    ∧ region.connectedComponentCount.getD 0 ≤ region'.connectedComponentCount.getD 0
    ∧ region.timeCoverCount.getD 0 ≤ region'.timeCoverCount.getD 0
    ∧ (region.reserveCode → region'.reserveCode)

end Agid.PostalCode
