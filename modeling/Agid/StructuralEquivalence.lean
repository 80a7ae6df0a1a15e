import Agid.Js
import Agid.Lib.GreedyGroups

/-!
# Structural equivalence

The distance of two vectors of address features, the decision on it and the bounded clusters of
`src/lib/addressMorphismV2Chapter6StructuralEquivalence.ts`, with rational numbers.  A vector gives
each key the text it has, or none.
-/

namespace Agid.Chapter6

inductive Purpose where
  | delivery
  | identity
  | natural_feature
  | zk_predicate

inductive FeatureKey where
  | country
  | adminPath
  | postalZone
  | roadSegment
  | building
  | entrance
  | unit
  | coordinateCell
  | naturalOrCulturalFeature
  | temporalScope
  deriving DecidableEq

abbrev StructuralFeatureVector := FeatureKey → Option JsString

structure DistanceComponent where
  key : FeatureKey
  weight : ℚ
  mismatch : ℚ
  contribution : ℚ

structure StructuralDistanceResult where
  distance : ℚ
  comparable : Bool
  components : List DistanceComponent
  sharedDiscriminatingKeys : List FeatureKey

inductive EquivalenceState where
  | equivalent
  | distinct
  | abstain
  deriving DecidableEq

structure EquivalenceDecision where
  state : EquivalenceState
  distance : ℚ
  reasons : List JsString

structure Candidate where
  id : JsString
  features : StructuralFeatureVector

structure Cluster where
  id : JsString
  memberIds : List JsString
  diameter : ℚ

/-- The entries of the weights of a purpose, in their order. -/
def CHAPTER6_PURPOSE_WEIGHTS : Purpose → List (FeatureKey × ℚ)
  | .delivery =>
    [(.country, 1), (.adminPath, 2), (.postalZone, 2), (.roadSegment, 4), (.building, 5),
      (.entrance, 5), (.unit, 4), (.coordinateCell, 2), (.naturalOrCulturalFeature, 1),
      (.temporalScope, 2)]
  | .identity =>
    [(.country, 2), (.adminPath, 5), (.postalZone, 2), (.roadSegment, 2), (.building, 4),
      (.entrance, 2), (.unit, 3), (.coordinateCell, 1), (.naturalOrCulturalFeature, 1),
      (.temporalScope, 3)]
  | .natural_feature =>
    [(.country, 1), (.adminPath, 2), (.postalZone, 0), (.roadSegment, 0), (.building, 0),
      (.entrance, 0), (.unit, 0), (.coordinateCell, 4), (.naturalOrCulturalFeature, 6),
      (.temporalScope, 2)]
  | .zk_predicate =>
    [(.country, 4), (.adminPath, 4), (.postalZone, 3), (.roadSegment, 1), (.building, 1),
      (.entrance, 1), (.unit, 0), (.coordinateCell, 3), (.naturalOrCulturalFeature, 1),
      (.temporalScope, 2)]

def DISCRIMINATING_KEYS : List FeatureKey :=
  [.adminPath, .roadSegment, .building, .entrance, .unit, .coordinateCell,
    .naturalOrCulturalFeature]

/-- `Math.round(value * 10000) / 10000`. -/
def round (value : ℚ) : ℚ := ⌊value * 10000 + 1 / 2⌋ / 10000

/-- What the loop over the keys has gathered. -/
structure Tally where
  numerator : ℚ
  denominator : ℚ
  components : List DistanceComponent
  sharedDiscriminatingKeys : List FeatureKey

/-- The body of the loop. -/
def tallyKey (left right : StructuralFeatureVector) (tally : Tally) (entry : FeatureKey × ℚ) :
    Tally :=
  let (key, weight) := entry
  if weight ≤ 0 then tally
  else if left key = none ∧ right key = none then tally
  else
    let mismatch : ℚ :=
      if left key = none ∨ right key = none then 1 / 2 else if left key = right key then 0 else 1
    let contribution := weight * mismatch
    { numerator := tally.numerator + contribution
      denominator := tally.denominator + weight
      components := tally.components ++ [⟨key, weight, mismatch, contribution⟩]
      sharedDiscriminatingKeys :=
        if left key ≠ none ∧ right key ≠ none ∧ key ∈ DISCRIMINATING_KEYS then
          tally.sharedDiscriminatingKeys ++ [key]
        else tally.sharedDiscriminatingKeys }

def computeChapter6StructuralDistance (left right : StructuralFeatureVector) (purpose : Purpose) :
    StructuralDistanceResult :=
  let tally := (CHAPTER6_PURPOSE_WEIGHTS purpose).foldl (tallyKey left right) ⟨0, 0, [], []⟩
  { distance := if tally.denominator = 0 then 1 else round (tally.numerator / tally.denominator)
    comparable := !tally.sharedDiscriminatingKeys.isEmpty
    components := tally.components
    sharedDiscriminatingKeys := tally.sharedDiscriminatingKeys }

def decideChapter6StructuralEquivalence (distanceResult : StructuralDistanceResult) (delta : ℚ)
    (evidenceOk candidateSufficient : Bool) : EquivalenceDecision :=
  let reasons :=
    (if candidateSufficient then [] else [js "candidate-sufficiency-required"])
      ++ (if evidenceOk then [] else [js "evidence-required"])
      ++ (if distanceResult.comparable then [] else [js "structural-comparability-required"])
  if reasons.length > 0 then ⟨.abstain, distanceResult.distance, reasons⟩
  else if distanceResult.distance ≤ delta then ⟨.equivalent, distanceResult.distance, reasons⟩
  else ⟨.distinct, distanceResult.distance, [js "distance-above-threshold"]⟩

/-- The greatest distance so far, after the pairs of each candidate with those behind it. -/
def diameterLoop (purpose : Purpose) : List Candidate → ℚ → ℚ
  | [], diameter => diameter
  | candidate :: rest, diameter =>
    diameterLoop purpose rest (rest.foldl (fun diameter other =>
      max diameter
        (computeChapter6StructuralDistance candidate.features other.features purpose).distance)
      diameter)

def computeChapter6ClusterDiameter (candidates : List Candidate) (purpose : Purpose) : ℚ :=
  round (diameterLoop purpose candidates 0)

/-- The candidate is equivalent to every member. -/
def matchesCluster (purpose : Purpose) (delta : ℚ) (candidate : Candidate)
    (cluster : List Candidate) : Bool :=
  cluster.all fun member =>
    let distanceResult :=
      computeChapter6StructuralDistance candidate.features member.features purpose
    (decideChapter6StructuralEquivalence distanceResult delta true true).state = .equivalent

def buildChapter6BoundedClusters (candidates : List Candidate) (purpose : Purpose) (delta : ℚ) :
    List Cluster :=
  let clusters := GreedyGroups.groups (matchesCluster purpose delta) candidates
  clusters.mapIdx fun index cluster =>
    { id := js "cluster-" ++ js (toString (index + 1))
      memberIds := cluster.map (·.id)
      diameter := computeChapter6ClusterDiameter cluster purpose }

end Agid.Chapter6
