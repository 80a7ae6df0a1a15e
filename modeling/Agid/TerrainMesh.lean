import Agid.JsonValues
import Agid.Lib.Triangles

/-!
# The terrain mesh and its audit

`createTerrainMesh` and `auditTerrainMeshLods` of `src/lib/topographicElevationVectorizer.ts`, with
`validateGrid`.  Numbers are exact: one that is not finite, or a size that is not whole, is refused
and is left out.  The source gate is a part of the platform; contours are not modelled.
-/

namespace Agid.Topographic

open Triangles (OnSurface Point)

def MAX_ELEVATION_GRID_CELLS : ℕ := 1000000

def MAX_MESH_LOD_LEVELS : ℕ := 8

def MAX_MESH_LOD_STRIDE : ℕ := 64

def MAX_MESH_VERTICAL_ERROR_METERS : ℚ := 10000

structure TopographicBounds where
  west : ℚ
  south : ℚ
  east : ℚ
  north : ℚ

inductive RowOrder
  | northToSouth
  | southToNorth
deriving DecidableEq

inductive CoordinateModel
  | rectilinearAxes
  | perGridNode
deriving DecidableEq

structure CurvilinearSourceGrid where
  sourceCrs : JsString
  minimumX : ℚ
  minimumY : ℚ
  maximumX : ℚ
  maximumY : ℚ
  library : JsString
  interpolation : JsString

structure NormalizedElevationGrid where
  gridId : JsString
  title : JsString
  bounds : TopographicBounds
  width : ℕ
  height : ℕ
  elevationsMeters : List ℚ
  rowOrder : RowOrder
  horizontalCrs : JsString
  coordinateModel : Option CoordinateModel
  longitudeDegreesByColumn : Option (List ℚ)
  latitudeDegreesByRow : Option (List ℚ)
  longitudeLatitudeDegreesByCell : Option (List (ℚ × ℚ))
  curvilinearSourceGrid : Option CurvilinearSourceGrid
  verticalDatum : JsString
  generatedAt : JsString

structure ElevationVectorizationOptions where
  contourIntervalMeters : ℚ
  includeTerrainMesh : Option Bool
  includeContours : Option Bool
  meshLodStrides : Option (List ℕ)
  meshMaxVerticalErrorMeters : Option ℚ

/-! ## The checks of a grid -/

def longitudeSpanDegrees (bounds : TopographicBounds) : ℚ :=
  if bounds.west ≤ bounds.east then bounds.east - bounds.west
  else 360 - bounds.west + bounds.east

def validBounds (bounds : TopographicBounds) : Bool :=
  -90 ≤ bounds.south && bounds.north ≤ 90 && -180 ≤ bounds.west && bounds.west ≤ 180
    && -180 ≤ bounds.east && bounds.east ≤ 180 && bounds.south < bounds.north
    && 0 < longitudeSpanDegrees bounds && longitudeSpanDegrees bounds < 360

/-- What the vectorizer takes from the platform: `Date.parse`, none for `NaN`, the issues of a grid
that the source gate blocks, as it does where the bounds are not valid, `Math.sqrt`, and the text of
a number. -/
structure Platform where
  dateParse : JsString → Option ℤ
  sourceGate : NormalizedElevationGrid → Option JsString
  sourceGate_bounds : ∀ grid, sourceGate grid = none → validBounds grid.bounds
  sqrt : ℚ → ℚ
  numberText : ℚ → JsString

/-- The number of a zone in two digits is between 1 and `zones`. -/
def isZone (zones : ℕ) : JsString → Bool
  | [a, b] =>
    let zone := 10 * (a.val - 48) + (b.val - 48)
    isDigit a && isDigit b && 1 ≤ zone && zone ≤ zones
  | _ => false

/-- Whether `utmProjectionDefinition(sourceCrs)` is not null. -/
def isUtm (sourceCrs : JsString) : Bool :=
  let family := sourceCrs.take 8
  ((family = js "EPSG:326" || family = js "EPSG:327") && isZone 60 (sourceCrs.drop 8))
    || (family = js "EPSG:269" && isZone 23 (sourceCrs.drop 8))

def CurvilinearSourceGrid.isSupported (source : CurvilinearSourceGrid) : Bool :=
  source.library = js "proj4js"
    && source.interpolation = js "source-affine-linear-inverse-projection"
    && isUtm source.sourceCrs && source.minimumX < source.maximumX
    && source.minimumY < source.maximumY

/-- The loop over the coordinates of nodes, from an index. -/
def checkCoordinates (bounds : TopographicBounds) : ℕ → List (ℚ × ℚ) → Except Thrown Unit
  | _, [] => .ok ()
  | index, (longitude, latitude) :: coordinates => do
    require (-180 ≤ longitude && longitude ≤ 180 && -90 ≤ latitude && latitude ≤ 90)
      (js "Invalid longitudeLatitudeDegreesByCell value at index " ++ js (toString index) ++ js ".")
    require (bounds.west ≤ longitude && longitude ≤ bounds.east && bounds.south ≤ latitude
        && latitude ≤ bounds.north)
      (js "Grid-node coordinate at index " ++ js (toString index)
        ++ js " is outside grid bounds.")
    checkCoordinates bounds (index + 1) coordinates

/-- The loop over the values of an axis, from an index, after a value if there is one. -/
def checkAxis (name : String) (limit : ℚ) (ordered : ℚ → ℚ → Bool) (disordered : JsString) :
    ℕ → Option ℚ → List ℚ → Except Thrown Unit
  | _, _, [] => .ok ()
  | index, previous, value :: values => do
    require (-limit ≤ value && value ≤ limit)
      (js "Invalid " ++ js name ++ js " value at index " ++ js (toString index) ++ js ".")
    require (previous.all (ordered · value)) disordered
    checkAxis name limit ordered disordered (index + 1) (some value) values

def checkLongitudes : List ℚ → Except Thrown Unit :=
  checkAxis "longitudeDegreesByColumn" 180 (fun previous longitude => previous < longitude)
    (js "longitudeDegreesByColumn must be strictly increasing.") 0 none

def rowOrderText : RowOrder → JsString
  | .northToSouth => js "north-to-south"
  | .southToNorth => js "south-to-north"

/-- Whether one latitude may follow another. -/
def RowOrder.ordered (rowOrder : RowOrder) (previous latitude : ℚ) : Bool :=
  match rowOrder with
  | .northToSouth => latitude < previous
  | .southToNorth => previous < latitude

def checkLatitudes (rowOrder : RowOrder) : List ℚ → Except Thrown Unit :=
  checkAxis "latitudeDegreesByRow" 90 rowOrder.ordered
    (js "latitudeDegreesByRow must follow " ++ rowOrderText rowOrder ++ js " row order.") 0 none

/-- The loop over the strides, after a stride if there is one. -/
def checkStrides : Option ℕ → List ℕ → Except Thrown Unit
  | _, [] => .ok ()
  | previous, stride :: strides => do
    require (1 ≤ stride && stride ≤ MAX_MESH_LOD_STRIDE)
      (js "Each mesh LOD stride must be an integer between 1 and 64.")
    require (previous.all (· < stride)) (js "meshLodStrides must be strictly increasing.")
    checkStrides (some stride) strides

def checkCoordinateModel (grid : NormalizedElevationGrid) : Except Thrown Unit := do
  let usesPerGridNodeCoordinates := decide (grid.coordinateModel = some .perGridNode)
  require (!usesPerGridNodeCoordinates || grid.longitudeLatitudeDegreesByCell.isSome)
    (js "per-grid-node coordinateModel requires longitudeLatitudeDegreesByCell.")
  require (!usesPerGridNodeCoordinates || grid.curvilinearSourceGrid.isSome)
    (js "per-grid-node coordinateModel requires curvilinearSourceGrid evidence.")
  require (usesPerGridNodeCoordinates || grid.longitudeLatitudeDegreesByCell.isNone)
    (js "longitudeLatitudeDegreesByCell requires coordinateModel per-grid-node.")
  require (!usesPerGridNodeCoordinates
      || (grid.longitudeDegreesByColumn.isNone && grid.latitudeDegreesByRow.isNone))
    (js "per-grid-node coordinates cannot be combined with rectilinear axes.")
  require (usesPerGridNodeCoordinates || grid.curvilinearSourceGrid.isNone)
    (js "curvilinearSourceGrid requires coordinateModel per-grid-node.")
  require (grid.curvilinearSourceGrid.all CurvilinearSourceGrid.isSupported)
    (js "curvilinearSourceGrid must be an increasing supported UTM affine source frame.")

def checkCells (grid : NormalizedElevationGrid) : Except Thrown Unit :=
  match grid.longitudeLatitudeDegreesByCell with
  | none => .ok ()
  | some coordinates => do
    require (coordinates.length = grid.width * grid.height)
      (js "longitudeLatitudeDegreesByCell length must match grid cell count.")
    checkCoordinates grid.bounds 0 coordinates

def checkColumns (grid : NormalizedElevationGrid) : Except Thrown Unit :=
  match grid.longitudeDegreesByColumn with
  | none => .ok ()
  | some longitudes => do
    require (longitudes.length = grid.width)
      (js "longitudeDegreesByColumn length must match grid width.")
    checkLongitudes longitudes

def checkRows (grid : NormalizedElevationGrid) : Except Thrown Unit :=
  match grid.latitudeDegreesByRow with
  | none => .ok ()
  | some latitudes => do
    require (latitudes.length = grid.height)
      (js "latitudeDegreesByRow length must match grid height.")
    checkLatitudes grid.rowOrder latitudes

def checkMeshLodStrides : Option (List ℕ) → Except Thrown Unit
  | none => .ok ()
  | some strides => do
    require (strides ≠ [] && strides.length ≤ MAX_MESH_LOD_LEVELS)
      (js "meshLodStrides must contain between 1 and 8 levels.")
    require (strides.head? = some 1) (js "meshLodStrides must start with stride 1 for LOD0.")
    checkStrides none strides

def checkOptions (options : ElevationVectorizationOptions) : Except Thrown Unit := do
  let includeTerrainMesh := options.includeTerrainMesh.getD true
  let includeContours := options.includeContours.getD true
  require (includeTerrainMesh || includeContours)
    (js "At least one of terrain mesh or contours must be requested.")
  require (includeTerrainMesh || options.meshLodStrides.isNone)
    (js "meshLodStrides requires terrain mesh output.")
  require (includeTerrainMesh || options.meshMaxVerticalErrorMeters.isNone)
    (js "meshMaxVerticalErrorMeters requires terrain mesh output.")
  checkMeshLodStrides options.meshLodStrides
  let meshLodCount := (options.meshLodStrides.map List.length).getD 1
  require (!(includeTerrainMesh && 1 < meshLodCount) || options.meshMaxVerticalErrorMeters.isSome)
    (js "Multiple terrain mesh LODs require meshMaxVerticalErrorMeters.")
  require (options.meshMaxVerticalErrorMeters.all fun error =>
      0 < error && error ≤ MAX_MESH_VERTICAL_ERROR_METERS)
    (js "meshMaxVerticalErrorMeters must be greater than 0 and at most 10000.")
  require (!includeContours
      || (1 / 4 ≤ options.contourIntervalMeters && options.contourIntervalMeters ≤ 100))
    (js "Contour interval must be between 0.25 and 100 metres.")

def validateGrid (P : Platform) (grid : NormalizedElevationGrid)
    (options : ElevationVectorizationOptions) : Except Thrown Unit := do
  let gridCellCount := grid.width * grid.height
  require (trim grid.gridId ≠ []) (js "gridId is required.")
  require (trim grid.title ≠ []) (js "title is required.")
  require (trim grid.verticalDatum ≠ []) (js "verticalDatum is required.")
  require (2 ≤ grid.width && 2 ≤ grid.height) (js "Elevation grid must be at least 2x2.")
  require (gridCellCount ≤ MAX_ELEVATION_GRID_CELLS)
    (js "Elevation grid exceeds 1000000 cells.")
  require (grid.elevationsMeters.length = gridCellCount)
    (js "Elevation grid requires " ++ js (toString gridCellCount) ++ js " values; received "
      ++ js (toString grid.elevationsMeters.length) ++ js ".")
  require (0 < longitudeSpanDegrees grid.bounds && longitudeSpanDegrees grid.bounds ≤ 180)
    (js "Elevation grid bounds must span between 0 and 180 longitude degrees.")
  require (grid.bounds.west ≤ grid.bounds.east)
    (js "Antimeridian elevation vectorization requires the projected-grid adapter planned for "
      ++ js "the next loop.")
  require (grid.horizontalCrs = js "EPSG:4326")
    (js "The v0.1 elevation vectorizer requires EPSG:4326 input.")
  checkCoordinateModel grid
  checkCells grid
  checkColumns grid
  checkRows grid
  require (P.dateParse grid.generatedAt).isSome (js "generatedAt must be an ISO timestamp.")
  checkOptions options

/-! ## The mesh -/

def longitudeAt (grid : NormalizedElevationGrid) (column : ℕ) : ℚ :=
  (grid.longitudeDegreesByColumn.bind (·[column]?)).getD
    (grid.bounds.west
      + (grid.bounds.east - grid.bounds.west) * ((column : ℚ) / ((grid.width : ℚ) - 1)))

def latitudeAt (grid : NormalizedElevationGrid) (row : ℕ) : ℚ :=
  match grid.latitudeDegreesByRow with
  | some latitudes => latitudes.getD row 0
  | none =>
    let ratio := (row : ℚ) / ((grid.height : ℚ) - 1)
    match grid.rowOrder with
    | .northToSouth => grid.bounds.north - (grid.bounds.north - grid.bounds.south) * ratio
    | .southToNorth => grid.bounds.south + (grid.bounds.north - grid.bounds.south) * ratio

def coordinateAt (grid : NormalizedElevationGrid) (row column : ℕ) : ℚ × ℚ :=
  (grid.longitudeLatitudeDegreesByCell.bind (·[row * grid.width + column]?)).getD
    (longitudeAt grid column, latitudeAt grid row)

/-- `grid.elevationsMeters[row * grid.width + column]`. -/
def elevationAt (grid : NormalizedElevationGrid) (row column : ℕ) : ℚ :=
  grid.elevationsMeters.getD (row * grid.width + column) 0

/-- The loop of `sampleIndices` from an index, so many times at most. -/
def sampleFrom (length stride : ℕ) : ℕ → ℕ → List ℕ
  | 0, _ => []
  | n + 1, index =>
    if index < length then index :: sampleFrom length stride n (index + stride) else []

def sampleIndices (length stride : ℕ) : List ℕ :=
  let indices := sampleFrom length stride length 0
  if indices.getLast? = some (length - 1) then indices else indices ++ [length - 1]

structure TopographicMesh where
  id : JsString
  vertices : List (Point ℚ)
  triangles : List (ℕ × ℕ × ℕ)

/-- The triangles of a cell of the mesh. -/
def cell (columns row column : ℕ) : List (ℕ × ℕ × ℕ) :=
  let topLeft := row * columns + column
  let topRight := topLeft + 1
  let bottomLeft := topLeft + columns
  let bottomRight := bottomLeft + 1
  if (row + column) % 2 = 0 then
    [(topLeft, bottomLeft, topRight), (topRight, bottomLeft, bottomRight)]
  else [(topLeft, bottomLeft, bottomRight), (topLeft, bottomRight, topRight)]

def createTerrainMesh (grid : NormalizedElevationGrid) (stride level : ℕ) : TopographicMesh :=
  let rowIndices := sampleIndices grid.height stride
  let columnIndices := sampleIndices grid.width stride
  { id := grid.gridId ++ js "-terrain-mesh" ++ (if level = 0 then [] else
      js "-lod" ++ js (toString level) ++ js "-s" ++ js (toString stride))
    vertices := rowIndices.flatMap fun row => columnIndices.map fun column =>
      ((coordinateAt grid row column).1, (coordinateAt grid row column).2,
        elevationAt grid row column)
    triangles := (List.range (rowIndices.length - 1)).flatMap fun row =>
      (List.range (columnIndices.length - 1)).flatMap fun column =>
        cell columnIndices.length row column }

structure ElevationMeshLod where
  level : ℕ
  stride : ℕ
  mesh : TopographicMesh
  vertexCount : ℕ
  triangleCount : ℕ

def createTerrainMeshLods (grid : NormalizedElevationGrid) (strides : List ℕ) :
    List ElevationMeshLod :=
  strides.zipIdx.map fun (stride, level) =>
    let mesh := createTerrainMesh grid stride level
    { level, stride, mesh
      vertexCount := mesh.vertices.length
      triangleCount := mesh.triangles.length }

/-! ## The audit -/

/-- `Number(value.toFixed(6))` of a value that is not negative. -/
def roundMeshError (value : ℚ) : ℚ := ⌊value * 1000000 + 1 / 2⌋ / 1000000

/-- The inner loop of `segmentIndexBySample`, so many times at most. -/
def nextSegment (sampledIndices : List ℕ) (index : ℕ) : ℕ → ℕ → ℕ
  | 0, segment => segment
  | n + 1, segment =>
    if segment + 2 < sampledIndices.length ∧ sampledIndices.getD (segment + 1) 0 < index then
      nextSegment sampledIndices index n (segment + 1)
    else segment

/-- The segments of the indices from `index` on, after a segment. -/
def segmentsFrom (sampledIndices : List ℕ) : ℕ → ℕ → ℕ → List ℕ
  | 0, _, _ => []
  | n + 1, index, segment =>
    let segment := nextSegment sampledIndices index sampledIndices.length segment
    segment :: segmentsFrom sampledIndices n (index + 1) segment

def segmentIndexBySample (length : ℕ) (sampledIndices : List ℕ) : List ℕ :=
  segmentsFrom sampledIndices length 0 0

def interpolationRatio (value start end_ : ℚ) : Except Thrown ℚ := do
  let span := end_ - start
  require (span ≠ 0) (js "Terrain mesh LOD contains a degenerate coordinate axis.")
  let ratio := (value - start) / span
  require (-(1 / 10 ^ 12) ≤ ratio && ratio ≤ 1 + 1 / 10 ^ 12)
    (js "Terrain mesh LOD interpolation escaped its source cell.")
  .ok (min 1 (max 0 ratio))

def interpolateGridTinElevation (grid : NormalizedElevationGrid)
    (sampledRows sampledColumns : List ℕ) (rowSegment columnSegment row column : ℕ) :
    Except Thrown ℚ := do
  let topRow := sampledRows.getD rowSegment 0
  let bottomRow := sampledRows.getD (rowSegment + 1) 0
  let leftColumn := sampledColumns.getD columnSegment 0
  let rightColumn := sampledColumns.getD (columnSegment + 1) 0
  let horizontalRatio ← interpolationRatio (longitudeAt grid column) (longitudeAt grid leftColumn)
    (longitudeAt grid rightColumn)
  let verticalRatio ← interpolationRatio (latitudeAt grid row) (latitudeAt grid topRow)
    (latitudeAt grid bottomRow)
  let topLeft := elevationAt grid topRow leftColumn
  let topRight := elevationAt grid topRow rightColumn
  let bottomLeft := elevationAt grid bottomRow leftColumn
  let bottomRight := elevationAt grid bottomRow rightColumn
  .ok (
    if (rowSegment + columnSegment) % 2 = 0 then
      if horizontalRatio + verticalRatio ≤ 1 then
        topLeft + (topRight - topLeft) * horizontalRatio + (bottomLeft - topLeft) * verticalRatio
      else bottomRight + (topRight - bottomRight) * (1 - verticalRatio)
        + (bottomLeft - bottomRight) * (1 - horizontalRatio)
    else if horizontalRatio ≤ verticalRatio then
      topLeft * (1 - verticalRatio) + bottomLeft * (verticalRatio - horizontalRatio)
        + bottomRight * horizontalRatio
    else topLeft * (1 - horizontalRatio) + topRight * (horizontalRatio - verticalRatio)
      + bottomRight * verticalRatio)

/-- The elevation that the audit of a stride interpolates at a node. -/
def auditedElevation (grid : NormalizedElevationGrid) (stride row column : ℕ) :
    Except Thrown ℚ :=
  let sampledRows := sampleIndices grid.height stride
  let sampledColumns := sampleIndices grid.width stride
  interpolateGridTinElevation grid sampledRows sampledColumns
    ((segmentIndexBySample grid.height sampledRows).getD row 0)
    ((segmentIndexBySample grid.width sampledColumns).getD column 0) row column

def absoluteError (grid : NormalizedElevationGrid) (stride row column : ℕ) : Except Thrown ℚ := do
  .ok |elevationAt grid row column - (← auditedElevation grid stride row column)|

structure MeshLodErrorLevel where
  level : ℕ
  stride : ℕ
  sourceSampleCount : ℕ
  maximumAbsoluteVerticalErrorMeters : ℚ
  meanAbsoluteVerticalErrorMeters : ℚ
  rootMeanSquareVerticalErrorMeters : ℚ
  maximumAllowedVerticalErrorMeters : ℚ
  passed : Bool

def auditLevel (P : Platform) (grid : NormalizedElevationGrid)
    (maximumAllowedVerticalErrorMeters : Option ℚ) (lod : ElevationMeshLod) :
    Except Thrown MeshLodErrorLevel := do
  let errors ← ((List.range grid.height).flatMap fun row =>
    (List.range grid.width).map fun column => (row, column)).mapM fun (row, column) =>
      absoluteError grid lod.stride row column
  let maximum := errors.foldl max 0
  let sourceSampleCount := grid.width * grid.height
  let allowedError := if lod.level = 0 then 0
    else maximumAllowedVerticalErrorMeters.getD MAX_MESH_VERTICAL_ERROR_METERS
  .ok {
    level := lod.level
    stride := lod.stride
    sourceSampleCount
    maximumAbsoluteVerticalErrorMeters := roundMeshError maximum
    meanAbsoluteVerticalErrorMeters := roundMeshError (errors.sum / sourceSampleCount)
    rootMeanSquareVerticalErrorMeters :=
      roundMeshError (P.sqrt ((errors.map fun error => error * error).sum / sourceSampleCount))
    maximumAllowedVerticalErrorMeters := allowedError
    passed := if lod.level = 0 then roundMeshError maximum = 0 else maximum ≤ allowedError }

structure MeshLodQualityAudit where
  maximumAllowedVerticalErrorMeters : Option ℚ
  maximumObservedVerticalErrorMeters : ℚ
  levels : List MeshLodErrorLevel

def auditTerrainMeshLods (P : Platform) (grid : NormalizedElevationGrid)
    (meshLods : List ElevationMeshLod) (maximumAllowedVerticalErrorMeters : Option ℚ) :
    Except Thrown MeshLodQualityAudit := do
  let levels ← meshLods.mapM (auditLevel P grid maximumAllowedVerticalErrorMeters)
  match levels.find? (!·.passed) with
  | some failedLevel => .error (.error (js "Terrain mesh LOD" ++ js (toString failedLevel.level)
      ++ js " vertical error " ++ P.numberText failedLevel.maximumAbsoluteVerticalErrorMeters
      ++ js "m exceeds " ++ P.numberText failedLevel.maximumAllowedVerticalErrorMeters ++ js "m."))
  | none => .ok {
      maximumAllowedVerticalErrorMeters
      maximumObservedVerticalErrorMeters :=
        (levels.map MeshLodErrorLevel.maximumAbsoluteVerticalErrorMeters).foldl max 0
      levels }

def strides (options : ElevationVectorizationOptions) : List ℕ := options.meshLodStrides.getD [1]

/-- The meshes and their audit in `vectorizeNormalizedElevationGrid`, where a mesh is asked for. -/
def vectorizeTerrain (P : Platform) (grid : NormalizedElevationGrid)
    (options : ElevationVectorizationOptions) :
    Except Thrown (List ElevationMeshLod × MeshLodQualityAudit) := do
  validateGrid P grid options
  match P.sourceGate grid with
  | some issues => .error (.error (js "Elevation source gate blocked: " ++ issues))
  | none => .ok ()
  let meshLods := createTerrainMeshLods grid (strides options)
  let meshLodQuality ← auditTerrainMeshLods P grid meshLods options.meshMaxVerticalErrorMeters
  .ok (meshLods, meshLodQuality)

/-! ## What the audit is for -/

/-- The coordinate at this elevation is a point of the mesh. -/
def OnMesh (mesh : TopographicMesh) (coordinate : ℚ × ℚ) (elevation : ℚ) : Prop :=
  OnSurface mesh.vertices mesh.triangles (coordinate.1, coordinate.2, elevation)

/-- At each node the audit interpolates the elevation of the mesh, so that where it passes the node
is as near to the mesh as the level allows.  In level 0 nothing is off. -/
structure AuditSound (P : Platform) (grid : NormalizedElevationGrid)
    (options : ElevationVectorizationOptions) : Prop where
  surface : ∀ lod ∈ createTerrainMeshLods grid (strides options), ∀ row < grid.height,
    ∀ column < grid.width, ∃ elevation,
      auditedElevation grid lod.stride row column = .ok elevation
        ∧ OnMesh lod.mesh (coordinateAt grid row column) elevation
  within : ∀ audit, auditTerrainMeshLods P grid (createTerrainMeshLods grid (strides options))
      options.meshMaxVerticalErrorMeters = .ok audit →
    ∀ lod ∈ createTerrainMeshLods grid (strides options), ∀ row < grid.height,
      ∀ column < grid.width, ∃ elevation,
        OnMesh lod.mesh (coordinateAt grid row column) elevation
          ∧ |elevationAt grid row column - elevation| ≤ if lod.level = 0 then 0
            else options.meshMaxVerticalErrorMeters.getD MAX_MESH_VERTICAL_ERROR_METERS
  exact : ∀ lod ∈ createTerrainMeshLods grid (strides options), lod.level = 0 →
    ∀ row < grid.height, ∀ column < grid.width,
      absoluteError grid lod.stride row column = .ok 0

/-- The cell of a node in the mesh of a stride, and where the two axes put the node in it. -/
structure NodeCell where
  topRow : ℕ
  bottomRow : ℕ
  leftColumn : ℕ
  rightColumn : ℕ
  rising : Bool
  across : ℚ
  down : ℚ

def nodeCell (grid : NormalizedElevationGrid) (stride row column : ℕ) : NodeCell :=
  let sampledRows := sampleIndices grid.height stride
  let sampledColumns := sampleIndices grid.width stride
  let rowSegment := (segmentIndexBySample grid.height sampledRows).getD row 0
  let columnSegment := (segmentIndexBySample grid.width sampledColumns).getD column 0
  let topRow := sampledRows.getD rowSegment 0
  let bottomRow := sampledRows.getD (rowSegment + 1) 0
  let leftColumn := sampledColumns.getD columnSegment 0
  let rightColumn := sampledColumns.getD (columnSegment + 1) 0
  { topRow, bottomRow, leftColumn, rightColumn
    rising := (rowSegment + columnSegment) % 2 = 0
    across := (longitudeAt grid column - longitudeAt grid leftColumn)
      / (longitudeAt grid rightColumn - longitudeAt grid leftColumn)
    down := (latitudeAt grid row - latitudeAt grid topRow)
      / (latitudeAt grid bottomRow - latitudeAt grid topRow) }

/-- The mean of the corners of the cell, by the weights of the node. -/
def NodeCell.mean (c : NodeCell) (f : ℕ → ℕ → ℚ) : ℚ :=
  (Triangles.weights c.rising c.across c.down).mean (f c.topRow c.leftColumn)
    (f c.topRow c.rightColumn) (f c.bottomRow c.leftColumn) (f c.bottomRow c.rightColumn)

/-- The coordinate of a node is where the axes put it between the corners of its cell. -/
def Placed (grid : NormalizedElevationGrid) (stride row column : ℕ) : Prop :=
  (nodeCell grid stride row column).mean (fun row column => (coordinateAt grid row column).1)
      = (coordinateAt grid row column).1
    ∧ (nodeCell grid stride row column).mean (fun row column => (coordinateAt grid row column).2)
      = (coordinateAt grid row column).2

instance (grid : NormalizedElevationGrid) (stride row column : ℕ) :
    Decidable (Placed grid stride row column) := inferInstanceAs (Decidable (_ ∧ _))

end Agid.Topographic
