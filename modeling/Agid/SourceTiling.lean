import Agid.NoDataCells
import Agid.TerrainMesh

/-!
# Windows of a source image

How `src/lib/topographicNyc3depTiling.ts` cuts an image into windows that share their edge samples,
and verifies a plan that was read from JSON.  The source of a request is a value that nothing has
checked, since a plan brings its own.
-/

namespace Agid.Tiling

open GeoTiff (isSha256Digest)
open Topographic (MAX_ELEVATION_GRID_CELLS)

def NYC_3DEP_SOURCE_TILING_VERSION := js "agid-nyc-3dep-source-window-tiling-v0.1"

def NYC_3DEP_SOURCE_TILING_METHOD := js "gdal-srcwin-compatible-no-resample-v1"

inductive Storage where
  | tiled
  | striped
deriving DecidableEq

/-- What the code reads of a source image. -/
structure Nyc3depSourceImageLayout where
  width : ℕ
  height : ℕ
  storage : Storage
  blockWidth : ℕ
  blockHeight : ℕ

structure Nyc3depSourceTilingRequest where
  source : Option JsonValue
  maximumWindowWidth : Option JsonValue
  maximumWindowHeight : Option JsonValue
  maximumTileCount : Option JsonValue

structure SourceWindow where
  x : ℕ
  y : ℕ
  width : ℕ
  height : ℕ
deriving DecidableEq

structure SharedSourceSamples where
  north : Option ℕ
  east : Option ℕ
  south : Option ℕ
  west : Option ℕ
deriving DecidableEq

structure Nyc3depSourceTile where
  id : JsString
  row : ℕ
  column : ℕ
  window : SourceWindow
  sharedSourceSamples : SharedSourceSamples
deriving DecidableEq

/-- A plan without its digest. -/
structure PlanBody where
  source : List (JsString × JsonValue)
  maximumWindowWidth : ℕ
  maximumWindowHeight : ℕ
  maximumTileCount : ℕ
  xSamples : ℕ
  ySamples : ℕ
  storage : Storage
  tiles : List Nyc3depSourceTile

structure Nyc3depSourceTilingPlan extends PlanBody where
  planSha256 : JsString

/-! ## Checks of a request -/

/-- The value of a field, where `Number.isSafeInteger(value)`. -/
def safeIntegerOf : Option JsonValue → Option ℤ
  | some (.number n) => n.safeInteger?
  | _ => none

/-- A safe integer that is large enough. -/
def requireInteger (least : ℤ) (value : Option JsonValue) (message : JsString) :
    Except Thrown ℕ :=
  match safeIntegerOf value with
  | some z => if least ≤ z then .ok z.toNat else .error (.error message)
  | none => .error (.error message)

def requirePositiveInteger (value : Option JsonValue) (field : String) : Except Thrown ℕ :=
  requireInteger 1 value (js field ++ js " must be a positive safe integer.")

def requireWindowDimension (value : Option JsonValue) (field : String) : Except Thrown ℕ :=
  requireInteger 2 value (js field ++ js " must be an integer of at least 2 samples.")

def storageOf (value : Option JsonValue) : Except Thrown Storage :=
  if JsonValue.same value (some (.string (js "tiled"))) then .ok .tiled
  else if JsonValue.same value (some (.string (js "striped"))) then .ok .striped
  else .error (.error (js "source storage must be tiled or striped."))

def validateSource (source : Option JsonValue) : Except Thrown Nyc3depSourceImageLayout := do
  require (← JsonValue.test isSha256Digest (← JsonValue.get source "sourceSnapshotSha256"))
    (js "NYC source tiling requires a source snapshot SHA-256 digest.")
  let _ ← requireInteger 0 (← JsonValue.get source "imageIndex")
    (js "imageIndex must be a non-negative safe integer.")
  let width ← requireWindowDimension (← JsonValue.get source "width") "source width"
  let height ← requireWindowDimension (← JsonValue.get source "height") "source height"
  let storage ← storageOf (← JsonValue.get source "storage")
  let blockWidth ← requirePositiveInteger (← JsonValue.get source "blockWidth")
    "source block width"
  let blockHeight ← requirePositiveInteger (← JsonValue.get source "blockHeight")
    "source block height"
  .ok { width, height, storage, blockWidth, blockHeight }

/-! ## Intervals of an axis -/

structure AxisInterval where
  start : ℕ
  length : ℕ
deriving DecidableEq

/-- The loop from a start on, which goes on for no more steps than there are samples. -/
def axisLoop (sourceLength alignedSpan : ℕ) : ℕ → ℕ → List AxisInterval
  | 0, _ => []
  | fuel + 1, start =>
    if start < sourceLength - 1 then
      let finish := min (start + alignedSpan) (sourceLength - 1)
      { start, length := finish - start + 1 } ::
        if finish = sourceLength - 1 then [] else axisLoop sourceLength alignedSpan fuel finish
    else []

def axisIntervals (sourceLength maximumWindowLength alignment : ℕ) (side : String) :
    Except Thrown (List AxisInterval) := do
  let maximumSpan := maximumWindowLength - 1
  let alignedSpan := maximumSpan / alignment * alignment
  require (!(alignedSpan < 1))
    (["maximumWindow", side, " cannot retain a one-sample seam overlap with the selected",
      " source block alignment."].flatMap js)
  .ok (axisLoop sourceLength alignedSpan sourceLength 0)

/-! ## The plan -/

/-- `String(n).padStart(4, '0')`. -/
def padded (n : ℕ) : JsString :=
  let digits := js (toString n)
  List.replicate (4 - digits.length) 48 ++ digits

/-- The tile of a row and a column, of which there are so many. -/
def tileOf (rows columns row column : ℕ) (y x : AxisInterval) : Nyc3depSourceTile where
  id := js "r" ++ padded row ++ js "-c" ++ padded column
  row
  column
  window := { x := x.start, y := y.start, width := x.length, height := y.length }
  sharedSourceSamples := {
    north := if row = 0 then none else some x.length
    east := if column = columns - 1 then none else some y.length
    south := if row = rows - 1 then none else some x.length
    west := if column = 0 then none else some y.length }

def tileAt (rows columns row column : ℕ) (y x : AxisInterval) :
    Except Thrown Nyc3depSourceTile := do
  require (!(MAX_ELEVATION_GRID_CELLS < x.length * y.length))
    (js "NYC source tile r" ++ js (toString row) ++ js "c" ++ js (toString column)
      ++ js " exceeds 1000000 samples.")
  .ok (tileOf rows columns row column y x)

/-- The two loops over the intervals. -/
def tilesOf (rows columns : List AxisInterval) : Except Thrown (List Nyc3depSourceTile) :=
  (rows.zipIdx.flatMap fun y => columns.zipIdx.map fun x => (y, x)).mapM fun (y, x) =>
    tileAt rows.length columns.length y.2 x.2 y.1 x.1

/-- `{ ...source }`, of an object. -/
def spread : Option JsonValue → List (JsString × JsonValue)
  | some (.object members) => members
  | _ => []

def buildPlan (input : Nyc3depSourceTilingRequest) : Except Thrown PlanBody := do
  let source ← validateSource input.source
  let maximumWindowWidth ← requireWindowDimension input.maximumWindowWidth "maximumWindowWidth"
  let maximumWindowHeight ← requireWindowDimension input.maximumWindowHeight "maximumWindowHeight"
  let maximumTileCount ← requirePositiveInteger input.maximumTileCount "maximumTileCount"
  require (!(MAX_ELEVATION_GRID_CELLS < maximumWindowWidth * maximumWindowHeight))
    (js "maximum window exceeds 1000000 source samples.")
  let xAlignment := match source.storage with
    | .tiled => source.blockWidth
    | .striped => 1
  let yAlignment := source.blockHeight
  let columns ← axisIntervals source.width maximumWindowWidth xAlignment "Width"
  let rows ← axisIntervals source.height maximumWindowHeight yAlignment "Height"
  require (!(maximumTileCount < columns.length * rows.length))
    (js "NYC source tiling would create " ++ js (toString (columns.length * rows.length))
      ++ js " tiles, exceeding the maximum of " ++ js (toString maximumTileCount) ++ js ".")
  let tiles ← tilesOf rows columns
  .ok {
    source := spread input.source
    maximumWindowWidth
    maximumWindowHeight
    maximumTileCount
    xSamples := xAlignment
    ySamples := yAlignment
    storage := source.storage
    tiles }

/-! ## The plan as JSON -/

def count (n : ℕ) : JsonValue := .number (.int n)

def countOrNull : Option ℕ → JsonValue
  | some n => count n
  | none => .null

def SourceWindow.value (window : SourceWindow) : JsonValue :=
  .object [(js "x", count window.x), (js "y", count window.y), (js "width", count window.width),
    (js "height", count window.height)]

def SharedSourceSamples.value (shared : SharedSourceSamples) : JsonValue :=
  .object [(js "north", countOrNull shared.north), (js "east", countOrNull shared.east),
    (js "south", countOrNull shared.south), (js "west", countOrNull shared.west)]

def Nyc3depSourceTile.value (tile : Nyc3depSourceTile) : JsonValue :=
  .object [(js "id", .string tile.id), (js "row", count tile.row),
    (js "column", count tile.column), (js "window", tile.window.value),
    (js "gdalSrcwin", .array [count tile.window.x, count tile.window.y, count tile.window.width,
      count tile.window.height]),
    (js "sharedSourceSamples", tile.sharedSourceSamples.value)]

def strategy : Storage → JsString
  | .tiled => js "tile-block-grid"
  | .striped => js "strip-row-grid"

def nonClaims : List JsString := [
  ["The plan selects source pixel windows only; ",
    "it does not resample, interpolate, or fill elevation values."].flatMap js,
  ["Shared edge samples are an input-consistency contract, ",
    "not a survey, cadastral, building, entrance, or delivery claim."].flatMap js,
  ["GDAL execution, source promotion, vertical-datum conversion, ",
    "and derived mesh validation remain separate gates."].flatMap js]

def PlanBody.members (plan : PlanBody) : List (JsString × JsonValue) := [
  (js "version", .string NYC_3DEP_SOURCE_TILING_VERSION),
  (js "method", .string NYC_3DEP_SOURCE_TILING_METHOD),
  (js "source", .object plan.source),
  (js "maximumWindowWidth", count plan.maximumWindowWidth),
  (js "maximumWindowHeight", count plan.maximumWindowHeight),
  (js "maximumTileCount", count plan.maximumTileCount),
  (js "sampleOverlap", count 1),
  (js "alignment", .object [(js "xSamples", count plan.xSamples),
    (js "ySamples", count plan.ySamples), (js "strategy", .string (strategy plan.storage))]),
  (js "tiles", .array (plan.tiles.map Nyc3depSourceTile.value)),
  (js "privacy", .object [(js "containsRawElevation", .bool false),
    (js "containsCoordinates", .bool false), (js "containsAddressData", .bool false)]),
  (js "nonClaims", .array (nonClaims.map .string))]

def planPayload (plan : PlanBody) : JsString := stringify (.object plan.members)

def Nyc3depSourceTilingPlan.fields (plan : Nyc3depSourceTilingPlan) :
    List (JsString × JsonValue) :=
  plan.members ++ [(js "planSha256", .string plan.planSha256)]

def Nyc3depSourceTilingPlan.value (plan : Nyc3depSourceTilingPlan) : JsonValue :=
  .object plan.fields

section Digest

-- `sha256:${createHash('sha256').update(value).digest('hex')}`
variable (sha256 : JsString → JsString)

def planNyc3depSourceTiles (input : Nyc3depSourceTilingRequest) :
    Except Thrown Nyc3depSourceTilingPlan := do
  let plan ← buildPlan input
  .ok { plan with planSha256 := sha256 (planPayload plan) }

def verifyNyc3depSourceTilingPlan (plan : JsonValue) : Except Thrown Nyc3depSourceTilingPlan := do
  let expected ← planNyc3depSourceTiles sha256 {
    source := ← JsonValue.get (some plan) "source"
    maximumWindowWidth := ← JsonValue.get (some plan) "maximumWindowWidth"
    maximumWindowHeight := ← JsonValue.get (some plan) "maximumWindowHeight"
    maximumTileCount := ← JsonValue.get (some plan) "maximumTileCount" }
  require (!(!JsonValue.same (← JsonValue.get (some plan) "planSha256")
        (some (.string expected.planSha256))
      || stringify plan ≠ stringify expected.value))
    (js "NYC source tiling plan integrity check failed.")
  .ok expected

end Digest

/-! ## What a plan covers -/

/-- The samples of a window, by column and row. -/
def SourceWindow.samples (window : SourceWindow) : Finset (ℕ × ℕ) :=
  Finset.Ico window.x (window.x + window.width) ×ˢ Finset.Ico window.y (window.y + window.height)

/-- The cell between four neighbouring samples, by the first of them, lies in the window. -/
def SourceWindow.HasCell (window : SourceWindow) (column row : ℕ) : Prop :=
  (column, row) ∈ window.samples ∧ (column + 1, row + 1) ∈ window.samples

instance (window : SourceWindow) (column row : ℕ) : Decidable (window.HasCell column row) :=
  inferInstanceAs (Decidable (_ ∧ _))

/-- The tiles of a plan cover the image of a source, and share the samples of their seams alone. -/
structure PlanBody.Exact (plan : PlanBody) (source : Nyc3depSourceImageLayout) : Prop where
  inside : ∀ tile ∈ plan.tiles, tile.window.x + tile.window.width ≤ source.width
    ∧ tile.window.y + tile.window.height ≤ source.height
  within : ∀ tile ∈ plan.tiles, tile.window.width ≤ plan.maximumWindowWidth
    ∧ tile.window.height ≤ plan.maximumWindowHeight
  cells : ∀ column row, column + 1 < source.width → row + 1 < source.height →
    ∃! tile, tile ∈ plan.tiles ∧ tile.window.HasCell column row
  beside : ∀ left ∈ plan.tiles, ∀ right ∈ plan.tiles, left.row = right.row →
    left.column + 1 = right.column →
      left.window.samples ∩ right.window.samples
          = {right.window.x} ×ˢ Finset.Ico left.window.y (left.window.y + left.window.height)
        ∧ left.sharedSourceSamples.east = some (left.window.samples ∩ right.window.samples).card
        ∧ right.sharedSourceSamples.west = some (left.window.samples ∩ right.window.samples).card
  below : ∀ upper ∈ plan.tiles, ∀ lower ∈ plan.tiles, upper.column = lower.column →
    upper.row + 1 = lower.row →
      upper.window.samples ∩ lower.window.samples
          = Finset.Ico upper.window.x (upper.window.x + upper.window.width) ×ˢ {lower.window.y}
        ∧ upper.sharedSourceSamples.south = some (upper.window.samples ∩ lower.window.samples).card
        ∧ lower.sharedSourceSamples.north = some (upper.window.samples ∩ lower.window.samples).card
  aligned : ∀ tile ∈ plan.tiles, plan.xSamples ∣ tile.window.x ∧ plan.ySamples ∣ tile.window.y
  blocks : plan.ySamples = source.blockHeight
    ∧ plan.xSamples = if source.storage = .tiled then source.blockWidth else 1
  ids : (plan.tiles.map Nyc3depSourceTile.id).Nodup

/-- The names of the fields of a source, as its type has them. -/
def sourceNames : List JsString :=
  ["sourceSnapshotSha256", "imageIndex", "width", "height", "storage", "blockWidth",
    "blockHeight"].map js

/-- A source has the fields of its type, in some order, and the types of them. -/
structure IsLayout (members : List (JsString × JsonValue)) : Prop where
  names : (members.map Prod.fst).Perm sourceNames
  texts : ∀ name ∈ ["sourceSnapshotSha256", "storage"], ∀ v, (js name, v) ∈ members →
    ∃ s, v = .string s
  numbers : ∀ name ∈ ["imageIndex", "width", "height", "blockWidth", "blockHeight"], ∀ v,
    (js name, v) ∈ members → ∃ n, v = .number n

end Agid.Tiling
