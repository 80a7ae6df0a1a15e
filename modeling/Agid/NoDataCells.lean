import Agid.JsonValues
import Agid.RequestText

/-!
# Cells without data

How `src/lib/topographicGeoTiffAdapter.ts` reads the cells of a band and fills those that have no
data.  A cell of the grid is an exact number, or none where the code keeps `NaN`.
-/

namespace Agid.GeoTiff

/-- What the code takes from the platform: `sha256Bytes` hashes with `crypto.subtle`, and
`numberText x` is `String(x)`. -/
structure Platform where
  toLowerCase : JsString → JsString
  sha256Bytes : List UInt8 → JsString
  numberText : ℚ → JsString

def TOPOGRAPHIC_NODATA_RESOLUTION_METHOD := js "isolated-cardinal-mean-v1"

def GEOTIFF_AGID_MISSING_MASK_ENCODING := js "agid-missing-byte-mask-v1"

def GEOTIFF_GDAL_VALIDITY_MASK_ENCODING := js "gdal-rfc15-validity-byte-mask-v1"

def MAX_GEOTIFF_RESOLVED_NODATA_CELLS : ℚ := 4096

def MAX_GEOTIFF_RESOLVED_NODATA_FRACTION : ℚ := 1 / 20

structure TopographicSnapshotEvidence where
  contentSha256 : JsString
  relatedArtifactSha256 : Option (List JsString)

structure TopographicSourceRecord where
  snapshotEvidence : Option TopographicSnapshotEvidence

structure GeoTiffNoDataResolutionPolicy where
  method : JsString
  encoding : Option JsString
  qualityMask : List UInt8
  expectedMaskSha256 : JsString
  maxResolvedCells : JsNumber
  maxResolvedFraction : JsNumber
  sourceDerivedNoDataMask : Option Bool

structure GeoTiffNoDataResolutionMetadata where
  method : JsString
  maskEncoding : Option JsString
  qualityMaskSha256 : Option JsString
  maskOrigin : Option JsString
  resolvedCellCount : ℕ
  resolvedCellFraction : ℚ
deriving DecidableEq

/-- The argument of `resolveNoDataCells`. -/
structure NoDataInput where
  elevationsMeters : List (Option ℚ)
  noDataIndexes : List ℕ
  width : ℕ
  height : ℕ
  policy : Option GeoTiffNoDataResolutionPolicy
  sourceRecord : TopographicSourceRecord

/-- A cell, and none where it holds no finite number or is not there. -/
def observedAt (elevations : List (Option ℚ)) (index : ℕ) : Option ℚ := elevations[index]?.join

structure CardinalNeighbors where
  left : Option ℕ
  right : Option ℕ
  up : Option ℕ
  down : Option ℕ

def cardinalNeighborIndexes (index width height : ℕ) : CardinalNeighbors :=
  let row := index / width
  let column := index % width
  { left := if 0 < column then some (index - 1) else none
    right := if column + 1 < width then some (index + 1) else none
    up := if 0 < row then some (index - width) else none
    down := if row + 1 < height then some (index + width) else none }

/-- `/^sha256:[a-f0-9]{64}$/i`. -/
def isSha256Digest (s : JsString) : Bool := isSha256 (s.map lowerAscii)

def topographicSourceBindsDigest (P : Platform) (source : TopographicSourceRecord)
    (digest : JsString) : Bool :=
  source.snapshotEvidence.any fun evidence =>
    P.toLowerCase evidence.contentSha256 = P.toLowerCase digest
      || evidence.relatedArtifactSha256.any fun related =>
        related.any fun value => P.toLowerCase value = P.toLowerCase digest

/-- The byte of a mask for a cell. -/
def expectedMaskValue (maskEncoding : JsString) (missing : Bool) : UInt8 :=
  if maskEncoding = GEOTIFF_GDAL_VALIDITY_MASK_ENCODING then if missing then 0 else 255
  else if missing then 1 else 0

/-- The loop over the bytes of the mask, from an index on. -/
def checkMask (maskEncoding : JsString) (noDataIndexes : List ℕ) :
    ℕ → List UInt8 → Except Thrown Unit
  | _, [] => .ok ()
  | index, maskValue :: rest => do
    let expected := expectedMaskValue maskEncoding (noDataIndexes.contains index)
    require (maskValue = expected)
      (js "GeoTIFF " ++ maskEncoding ++ js " and NoData cells disagree at index "
        ++ js (toString index) ++ js "; expected " ++ js (toString expected) ++ js ", received "
        ++ js (toString maskValue) ++ js ".")
    checkMask maskEncoding noDataIndexes (index + 1) rest

/-- Both of a pair of neighbours are cells with an observation. -/
def observedPair (original : List (Option ℚ)) (one other : Option ℕ) : Bool :=
  (one.bind (observedAt original)).isSome && (other.bind (observedAt original)).isSome

/-- The observations beside a cell. -/
def observedNeighbors (original : List (Option ℚ)) (neighbors : CardinalNeighbors) : List ℚ :=
  [neighbors.left, neighbors.right, neighbors.up, neighbors.down].filterMap fun neighbor =>
    neighbor.bind (observedAt original)

/-- What one cell without data is filled with. -/
def resolveCell (original : List (Option ℚ)) (width height index : ℕ) : Except Thrown ℚ := do
  let neighbors := cardinalNeighborIndexes index width height
  let horizontalPair := observedPair original neighbors.left neighbors.right
  let verticalPair := observedPair original neighbors.up neighbors.down
  require (!(!horizontalPair && !verticalPair))
    (js "GeoTIFF NoData at index " ++ js (toString index)
      ++ js " is not an isolated cell with an observed opposing neighbor pair.")
  let observed := observedNeighbors original neighbors
  .ok (observed.foldl (· + ·) 0 / observed.length)

/-- The loop over the cells without data, which reads from a copy. -/
def fillCells (original : List (Option ℚ)) (width height : ℕ) :
    List ℕ → List (Option ℚ) → Except Thrown (List (Option ℚ))
  | [], elevationsMeters => .ok elevationsMeters
  | index :: rest, elevationsMeters => do
    let filled ← resolveCell original width height index
    fillCells original width height rest (elevationsMeters.set index (some filled))

/-- Within its bound an integer is a safe one. -/
def approvesCells : JsNumber → Bool
  | .finite q => q.den = 1 && 1 ≤ q && q ≤ MAX_GEOTIFF_RESOLVED_NODATA_CELLS
  | _ => false

def approvesFraction : JsNumber → Bool
  | .finite q => 0 < q && q ≤ MAX_GEOTIFF_RESOLVED_NODATA_FRACTION
  | _ => false

/-- `q > n`. -/
def exceeds (q : ℚ) : JsNumber → Bool
  | .finite bound => bound < q
  | .negInfinity => true
  | _ => false

/-- The checks of a policy against the cells, and the encoding and the digest of its mask. -/
def checkPolicy (P : Platform) (input : NoDataInput) (policy : GeoTiffNoDataResolutionPolicy) :
    Except Thrown (JsString × JsString) := do
  require (policy.method = TOPOGRAPHIC_NODATA_RESOLUTION_METHOD)
    (js "GeoTIFF NoData resolution method is unsupported.")
  let maskEncoding := policy.encoding.getD GEOTIFF_AGID_MISSING_MASK_ENCODING
  require (!(maskEncoding ≠ GEOTIFF_AGID_MISSING_MASK_ENCODING
      && maskEncoding ≠ GEOTIFF_GDAL_VALIDITY_MASK_ENCODING))
    (js "GeoTIFF quality mask encoding is unsupported.")
  require (policy.qualityMask.length = input.elevationsMeters.length)
    (js "GeoTIFF quality mask length must match the elevation grid.")
  require (isSha256Digest policy.expectedMaskSha256)
    (js "expectedMaskSha256 must be a sha256 content digest.")
  let qualityMaskSha256 := P.sha256Bytes policy.qualityMask
  require (P.toLowerCase qualityMaskSha256 = P.toLowerCase policy.expectedMaskSha256)
    (js "GeoTIFF quality mask digest mismatch: expected " ++ policy.expectedMaskSha256
      ++ js ", received " ++ qualityMaskSha256 ++ js ".")
  require (!(policy.sourceDerivedNoDataMask ≠ some true
      && !topographicSourceBindsDigest P input.sourceRecord qualityMaskSha256))
    (js "GeoTIFF quality mask digest is not bound to the source promotion record.")
  require (approvesCells policy.maxResolvedCells)
    (js "maxResolvedCells must be between 1 and 4096.")
  require (approvesFraction policy.maxResolvedFraction)
    (js "maxResolvedFraction must be greater than 0 and at most 0.05.")
  checkMask maskEncoding input.noDataIndexes 0 policy.qualityMask
  .ok (maskEncoding, qualityMaskSha256)

/-- The share of the cells that have no data. -/
def NoDataInput.resolvedCellFraction (input : NoDataInput) : ℚ :=
  input.noDataIndexes.length / input.elevationsMeters.length

/-- What a policy does to the cells that have no data. -/
def resolveListed (P : Platform) (input : NoDataInput) (policy : GeoTiffNoDataResolutionPolicy) :
    Except Thrown (List (Option ℚ) × GeoTiffNoDataResolutionMetadata) := do
  let (maskEncoding, qualityMaskSha256) ← checkPolicy P input policy
  require (!(exceeds input.noDataIndexes.length policy.maxResolvedCells
      || exceeds input.resolvedCellFraction policy.maxResolvedFraction))
    (js "GeoTIFF NoData exceeds the approved resolution budget ("
      ++ js (toString input.noDataIndexes.length) ++ js " cells, "
      ++ P.numberText input.resolvedCellFraction ++ js ").")
  let elevationsMeters ← fillCells input.elevationsMeters input.width input.height
    input.noDataIndexes input.elevationsMeters
  .ok (elevationsMeters, {
    method := policy.method
    maskEncoding := some maskEncoding
    qualityMaskSha256 := some qualityMaskSha256
    maskOrigin := some (if policy.sourceDerivedNoDataMask = some true
      then js "source-nodata-derived" else js "provided")
    resolvedCellCount := input.noDataIndexes.length
    resolvedCellFraction := input.resolvedCellFraction })

def resolveNoDataCells (P : Platform) (input : NoDataInput) :
    Except Thrown (List (Option ℚ) × GeoTiffNoDataResolutionMetadata) :=
  match input.noDataIndexes, input.policy with
  | [], some _ =>
    .error (.error (["GeoTIFF quality mask was provided but the selected band",
      " has no NoData cells."].flatMap js))
  | [], none =>
    .ok (input.elevationsMeters, {
      method := js "reject"
      maskEncoding := none
      qualityMaskSha256 := none
      maskOrigin := none
      resolvedCellCount := 0
      resolvedCellFraction := 0 })
  | first :: _, none =>
    .error (.error (js "GeoTIFF contains unresolved NoData at index " ++ js (toString first)
      ++ js "; apply a quality-mask adapter first."))
  | _ :: _, some policy => resolveListed P input policy

/-! ## The band of an image -/

/-- `elevation === noDataValue`, where there is such a value. -/
def isNoData : Option JsNumber → JsNumber → Bool
  | some (.finite p), .finite q => p = q
  | some .infinity, .infinity => true
  | some .negInfinity, .negInfinity => true
  | _, _ => false

/-- The loop of `decodeGeoTiffElevationGrid` over the values of the band, from an index on: the
cells of the grid, and the indexes of those that have no data. -/
def readCells (noDataValue : Option JsNumber) :
    ℕ → List JsNumber → Except Thrown (List (Option ℚ) × List ℕ)
  | _, [] => .ok ([], [])
  | index, elevation :: rest =>
    if isNoData noDataValue elevation then do
      let (elevationsMeters, noDataIndexes) ← readCells noDataValue (index + 1) rest
      .ok (none :: elevationsMeters, index :: noDataIndexes)
    else match elevation with
      | .finite q => do
        let (elevationsMeters, noDataIndexes) ← readCells noDataValue (index + 1) rest
        .ok (some q :: elevationsMeters, noDataIndexes)
      | _ =>
        .error (.error (js "GeoTIFF contains a non-finite elevation at index "
          ++ js (toString index) ++ js "."))

/-- The mask that the code derives from the cells of the band. -/
def sourceDerivedQualityMask (elevationsMeters : List (Option ℚ)) : List UInt8 :=
  elevationsMeters.map fun elevation => if elevation.isSome then 255 else 0

/-! ## The grid -/

/-- Two cells of a grid are neighbours in a row or in a column. -/
def Beside (width i j : ℕ) : Prop :=
  i / width = j / width ∧ (i % width + 1 = j % width ∨ j % width + 1 = i % width)
    ∨ i % width = j % width ∧ (i / width + 1 = j / width ∨ j / width + 1 = i / width)

instance (width i j : ℕ) : Decidable (Beside width i j) := inferInstanceAs (Decidable (_ ∨ _))

/-- The cells beside a cell that have an observation. -/
def observedBeside (elevations : List (Option ℚ)) (width index : ℕ) : Finset ℕ :=
  (Finset.range elevations.length).filter fun j =>
    Beside width index j ∧ (observedAt elevations j).isSome

/-- The mean of the observations beside a cell. -/
def cardinalMean (elevations : List (Option ℚ)) (width index : ℕ) : ℚ :=
  (∑ j ∈ observedBeside elevations width index, (observedAt elevations j).getD 0)
    / (observedBeside elevations width index).card

/-- The height lies between the least and the greatest of the observations beside the cell. -/
structure Spanned (elevations : List (Option ℚ)) (width index : ℕ) (filled least greatest : ℚ) :
    Prop where
  least_observed : ∃ j ∈ observedBeside elevations width index, observedAt elevations j = some least
  greatest_observed :
    ∃ j ∈ observedBeside elevations width index, observedAt elevations j = some greatest
  observed : ∀ j ∈ observedBeside elevations width index, ∀ height ∈ observedAt elevations j,
    least ≤ height ∧ height ≤ greatest
  between : least ≤ filled ∧ filled ≤ greatest

/-- The cells are those of a grid, and the listed ones are those without data. -/
structure NoDataInput.Listed (input : NoDataInput) : Prop where
  size : input.elevationsMeters.length = input.width * input.height
  listed : ∀ index, index ∈ input.noDataIndexes ↔ input.elevationsMeters[index]? = some none

end Agid.GeoTiff
