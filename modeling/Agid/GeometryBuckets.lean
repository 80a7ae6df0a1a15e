import Agid.PackValidation

/-!
# The bucket index of geometry features

`GeometryBucketIndex` of `src/lib/postalContextPackRuntime.ts`, and the bounds and the intersection
with a box of `src/lib/postalContextTopology.ts`, on exact coordinates.  The key of a cell is the
pair of its indices.
-/

namespace Agid.PostalContext

open PointLocation (Position LinearRing Polygon Geometry locatePointInGeometry)
open Agid.RingTopology (segmentIntersectionKind)

structure Bbox where
  minimumLongitude : ℚ
  minimumLatitude : ℚ
  maximumLongitude : ℚ
  maximumLatitude : ℚ
deriving DecidableEq

def validPostalContextBbox (bbox : Bbox) : Bool :=
  -180 ≤ bbox.minimumLongitude && bbox.maximumLongitude ≤ 180 && -90 ≤ bbox.minimumLatitude
    && bbox.maximumLatitude ≤ 90 && bbox.minimumLongitude < bbox.maximumLongitude
    && bbox.minimumLatitude < bbox.maximumLatitude

/-- The positions that the bounds are taken of. -/
def geometryPositions : Geometry → List Position
  | .point coordinates => [coordinates]
  | geometry => geometry.polygons.flatMap positionsOf

/-- The bounds of the positions so far with one more. -/
def Bbox.extend (bounds : Option Bbox) (position : Position) : Option Bbox :=
  match bounds with
  | none => some ⟨position.1, position.2, position.1, position.2⟩
  | some bounds => some
    { minimumLongitude := min bounds.minimumLongitude position.1
      minimumLatitude := min bounds.minimumLatitude position.2
      maximumLongitude := max bounds.maximumLongitude position.1
      maximumLatitude := max bounds.maximumLatitude position.2 }

/-- None for the infinite bounds of a geometry without a position. -/
def postalContextGeometryBounds (geometry : Geometry) : Option Bbox :=
  (geometryPositions geometry).foldl Bbox.extend none

def positionInBbox (position : Position) (bbox : Bbox) : Bool :=
  bbox.minimumLongitude ≤ position.1 && position.1 ≤ bbox.maximumLongitude
    && bbox.minimumLatitude ≤ position.2 && position.2 ≤ bbox.maximumLatitude

def Bbox.corners (bbox : Bbox) : List Position :=
  [(bbox.minimumLongitude, bbox.minimumLatitude), (bbox.maximumLongitude, bbox.minimumLatitude),
    (bbox.maximumLongitude, bbox.maximumLatitude), (bbox.minimumLongitude, bbox.maximumLatitude)]

def segmentIntersectsBbox (a b : Position) (bbox : Bbox) : Bool :=
  positionInBbox a bbox || positionInBbox b bbox
    || (bbox.corners.zip (bbox.corners.tail ++ bbox.corners.take 1)).any fun (corner, next) =>
      segmentIntersectionKind a b corner next ≠ .none

def polygonIntersectsBbox (bbox : Bbox) (polygon : Polygon) : Bool :=
  polygon.any (·.any (positionInBbox · bbox))
    || bbox.corners.any (fun corner => locatePointInGeometry corner (.polygon polygon) ≠ .outside)
    || polygon.any fun ring =>
      (ring.zip ring.tail).any fun (previous, position) =>
        segmentIntersectsBbox previous position bbox

def postalContextGeometryIntersectsBbox (geometry : Geometry) (bbox : Bbox) : Bool :=
  match postalContextGeometryBounds geometry with
  | none => false
  | some bounds =>
    if bounds.maximumLongitude < bbox.minimumLongitude
        || bbox.maximumLongitude < bounds.minimumLongitude
        || bounds.maximumLatitude < bbox.minimumLatitude
        || bbox.maximumLatitude < bounds.minimumLatitude then false
    else match geometry with
      | .point coordinates => positionInBbox coordinates bbox
      | geometry => geometry.polygons.any (polygonIntersectsBbox bbox)

def geometryPositionCount : Geometry → ℕ
  | .point _ => 1
  | geometry => (geometry.polygons.map fun polygon => (polygon.map List.length).sum).sum

/-! ## Building the index -/

namespace INDEX_LIMITS

def cellsPerFeature : ℕ := 4096

def postings : ℕ := 500000

def buckets : ℕ := 250000

def globalFeatures : ℕ := 512

end INDEX_LIMITS

namespace QUERY_LIMITS

def spatialCandidateFeatures : ℕ := 2048

def spatialCandidatePositions : ℕ := 200000

def postalMatches : ℕ := 32

def postalFeaturesPerCode : ℕ := 64

def lookupContextNodes : ℕ := 256

def lookupAssertionsExamined : ℕ := 2048

def lookupAlternatives : ℕ := 32

def lookupAlternativeDepth : ℕ := 32

def geometryResponseFeatures : ℕ := 16

def geometryResponsePositions : ℕ := 100000

def resolutionNodes : ℕ := 128

def resolutionAssertions : ℕ := 256

def resolutionAssertionsExamined : ℕ := 2048

def resolutionAddressRoots : ℕ := 8

/-- The most cells that `queryBbox` looks into. -/
def bboxCells : ℕ := 10000

end QUERY_LIMITS

structure IndexedFeature where
  feature : GeometryFeature
  bounds : Option Bbox
  positionCount : ℕ

def indexFeature (feature : GeometryFeature) : IndexedFeature where
  feature
  bounds := postalContextGeometryBounds feature.geometry
  positionCount := geometryPositionCount feature.geometry

/-- The indices of a cell. -/
abbrev Cell := ℤ × ℤ

structure BuildBudget where
  postings : ℕ
  buckets : ℕ
  globalFeatures : ℕ

/-- A cell without a bucket has no feature. -/
structure GeometryBucketIndex where
  cellSize : ℚ
  buckets : Cell → List IndexedFeature
  global : List IndexedFeature

def cellForPoint (cellSize : ℚ) (point : Position) : Cell :=
  (⌊(point.1 + 180) / cellSize⌋, ⌊(point.2 + 90) / cellSize⌋)

/-- The whole numbers from the first to the second. -/
def wholeRange (first last : ℤ) : List ℤ :=
  (List.range (last + 1 - first).toNat).map fun index : ℕ => first + index

/-- None where there are more cells than the maximum, or infinitely many. -/
def cellsForBbox (cellSize : ℚ) (bbox : Option Bbox) (maximum : ℕ) : Option (List Cell) :=
  match bbox with
  | none => none
  | some bbox =>
    let first := cellForPoint cellSize (bbox.minimumLongitude, bbox.minimumLatitude)
    let last := cellForPoint cellSize (bbox.maximumLongitude, bbox.maximumLatitude)
    if (last.1 - first.1 + 1) * (last.2 - first.2 + 1) > maximum then none
    else some ((wholeRange first.1 last.1).flatMap fun longitude =>
      (wholeRange first.2 last.2).map fun latitude => (longitude, latitude))

/-- One turn of the loop of the constructor. -/
def GeometryBucketIndex.insert (index : GeometryBucketIndex) (budget : BuildBudget)
    (indexed : IndexedFeature) : Except JsString (GeometryBucketIndex × BuildBudget) :=
  match cellsForBbox index.cellSize indexed.bounds INDEX_LIMITS.cellsPerFeature with
  | none =>
    if budget.globalFeatures ≥ INDEX_LIMITS.globalFeatures then
      .error (js "spatial-index-global-feature-limit-exceeded")
    else .ok ({ index with global := index.global ++ [indexed] },
      { budget with globalFeatures := budget.globalFeatures + 1 })
  | some cells =>
    let newBucketCount := cells.countP fun cell => (index.buckets cell).isEmpty
    if budget.postings + cells.length > INDEX_LIMITS.postings then
      .error (js "spatial-index-posting-limit-exceeded")
    else if budget.buckets + newBucketCount > INDEX_LIMITS.buckets then
      .error (js "spatial-index-bucket-limit-exceeded")
    else .ok ({ index with
        buckets := fun cell =>
          if cell ∈ cells then index.buckets cell ++ [indexed] else index.buckets cell },
      { budget with
        postings := budget.postings + cells.length
        buckets := budget.buckets + newBucketCount })

def GeometryBucketIndex.insertAll (index : GeometryBucketIndex) (budget : BuildBudget) :
    List GeometryFeature → Except JsString (GeometryBucketIndex × BuildBudget)
  | [] => .ok (index, budget)
  | feature :: features => do
    let (index, budget) ← index.insert budget (indexFeature feature)
    index.insertAll budget features

def GeometryBucketIndex.build (features : List GeometryFeature) (cellSize : ℚ)
    (budget : BuildBudget) : Except JsString (GeometryBucketIndex × BuildBudget) :=
  GeometryBucketIndex.insertAll ⟨cellSize, fun _ => [], []⟩ budget features

/-! ## Queries -/

/-- `byId.set(entry.feature.id, entry)`. -/
def setById (byId : List IndexedFeature) (entry : IndexedFeature) : List IndexedFeature :=
  if byId.any (·.feature.id = entry.feature.id) then
    byId.map fun other => if other.feature.id = entry.feature.id then entry else other
  else byId ++ [entry]

/-- The loop of `deduplicateBuckets`, none on an overflow. -/
def deduplicate (maximumCandidates : ℕ) (byId : List IndexedFeature) :
    List IndexedFeature → Option (List IndexedFeature)
  | [] => some byId
  | entry :: entries =>
    if (setById byId entry).length > maximumCandidates then none
    else deduplicate maximumCandidates (setById byId entry) entries

namespace GeometryBucketIndex

variable (index : GeometryBucketIndex)

def queryPoint (point : Position) : Option (List IndexedFeature) :=
  deduplicate QUERY_LIMITS.spatialCandidateFeatures []
    (index.buckets (cellForPoint index.cellSize point) ++ index.global)

def queryBbox (bbox : Bbox) : Option (List IndexedFeature) :=
  match cellsForBbox index.cellSize (some bbox) QUERY_LIMITS.bboxCells with
  | none => none
  | some cells =>
    deduplicate QUERY_LIMITS.spatialCandidateFeatures []
      (cells.flatMap index.buckets ++ index.global)

end GeometryBucketIndex

end Agid.PostalContext
