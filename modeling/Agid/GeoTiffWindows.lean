import Agid.TerrainMesh

/-!
# Read windows of a GeoTIFF

Where `src/lib/topographicGeoTiffAdapter.ts` places the samples of a read window.  The image is
north-up, and its own box is what its origin, resolution and size make of it.  Numbers are exact: a
number that is not finite is refused, and is left out.
-/

namespace Agid.GeoTiff

open Topographic (MAX_ELEVATION_GRID_CELLS)

structure GeoTiffCoordinateExtent where
  minimumX : ℚ
  minimumY : ℚ
  maximumX : ℚ
  maximumY : ℚ
deriving DecidableEq

structure GeoTiffReadWindow where
  x : ℚ
  y : ℚ
  width : ℚ
  height : ℚ
deriving DecidableEq

inductive PixelInterpretation where
  | area
  | point
deriving DecidableEq

/-- A north-up image, by the corner of its first pixel. -/
structure ImageGeometry where
  originX : ℚ
  originY : ℚ
  resolutionX : ℚ
  resolutionY : ℚ
  width : ℕ
  height : ℕ
  east : 0 < resolutionX
  south : resolutionY < 0

/-- `image.getBoundingBox()`. -/
def ImageGeometry.boundingBox (image : ImageGeometry) : GeoTiffCoordinateExtent where
  minimumX := image.originX
  minimumY := image.originY + image.height * image.resolutionY
  maximumX := image.originX + image.width * image.resolutionX
  maximumY := image.originY

def asCoordinateExtent (minimumX minimumY maximumX maximumY : ℚ) (field : JsString) :
    Except Thrown GeoTiffCoordinateExtent := do
  require (!(maximumX ≤ minimumX || maximumY ≤ minimumY))
    (field ++ js " must have increasing X and Y coordinates.")
  .ok { minimumX, minimumY, maximumX, maximumY }

def adjustAreaPixelsToCenters (sourceBounds : GeoTiffCoordinateExtent)
    (resolutionX resolutionY width height : ℚ) : Except Thrown GeoTiffCoordinateExtent := do
  require (!(width < 2 || height < 2)) (js "GeoTIFF elevation grids must be at least 2x2.")
  let halfX := |resolutionX| / 2
  let halfY := |resolutionY| / 2
  asCoordinateExtent (sourceBounds.minimumX + halfX) (sourceBounds.minimumY + halfY)
    (sourceBounds.maximumX - halfX) (sourceBounds.maximumY - halfY) (js "Pixel-centre bounds")

/-- `Number.isInteger(q)`. -/
def isInteger (q : ℚ) : Bool := q.den = 1

def resolveReadWindow (window : Option GeoTiffReadWindow)
    (sourceImageWidth sourceImageHeight : ℕ) : Except Thrown GeoTiffReadWindow := do
  let resolved := window.getD {
    x := 0
    y := 0
    width := sourceImageWidth
    height := sourceImageHeight }
  require (!(!isInteger resolved.x || !isInteger resolved.y || !isInteger resolved.width
      || !isInteger resolved.height || resolved.x < 0 || resolved.y < 0 || resolved.width < 2
      || resolved.height < 2 || sourceImageWidth < resolved.x + resolved.width
      || sourceImageHeight < resolved.y + resolved.height))
    (["GeoTIFF read window must be an in-image integer", " rectangle of at least 2x2 cells."]
      |>.flatMap js)
  require (!(MAX_ELEVATION_GRID_CELLS < resolved.width * resolved.height))
    (js "GeoTIFF read window exceeds 1000000 cells.")
  .ok resolved

def windowBoundingBox (sourceBoundingBox : GeoTiffCoordinateExtent) (resolutionX resolutionY : ℚ)
    (window : GeoTiffReadWindow) : Except Thrown GeoTiffCoordinateExtent :=
  let minimumX := sourceBoundingBox.minimumX + window.x * resolutionX
  let maximumX := minimumX + window.width * resolutionX
  let maximumY := sourceBoundingBox.maximumY + window.y * resolutionY
  let minimumY := maximumY + window.height * resolutionY
  asCoordinateExtent minimumX minimumY maximumX maximumY
    (js "GeoTIFF read-window bounding box")

def sourceCoordinateAt (sourceCenterExtent : GeoTiffCoordinateExtent)
    (width height row column : ℚ) : ℚ × ℚ :=
  (sourceCenterExtent.minimumX
      + (sourceCenterExtent.maximumX - sourceCenterExtent.minimumX) * (column / (width - 1)),
    sourceCenterExtent.maximumY
      - (sourceCenterExtent.maximumY - sourceCenterExtent.minimumY) * (row / (height - 1)))

/-- The extent of `decodeGeoTiffElevationGrid` that its samples are spread over. -/
def sourceCenterExtent (image : ImageGeometry) (pixelInterpretation : PixelInterpretation)
    (readWindow : GeoTiffReadWindow) : Except Thrown GeoTiffCoordinateExtent := do
  let sourceBoundingBox ← windowBoundingBox image.boundingBox image.resolutionX image.resolutionY
    readWindow
  match pixelInterpretation with
  | .area =>
    adjustAreaPixelsToCenters sourceBoundingBox image.resolutionX image.resolutionY
      readWindow.width readWindow.height
  | .point => .ok sourceBoundingBox

/-! ## The place of a sample -/

/-- The window has the sample in a column and a row of the image. -/
structure GeoTiffReadWindow.Contains (window : GeoTiffReadWindow) (column row : ℕ) : Prop where
  left : window.x ≤ column
  right : column < window.x + window.width
  top : window.y ≤ row
  bottom : row < window.y + window.height

/-- Where a sample of the image is, read through a window. -/
def placeThrough (image : ImageGeometry) (pixelInterpretation : PixelInterpretation)
    (window : GeoTiffReadWindow) (column row : ℕ) : Except Thrown (ℚ × ℚ) :=
  (sourceCenterExtent image pixelInterpretation window).map fun extent =>
    sourceCoordinateAt extent window.width window.height (row - window.y) (column - window.x)

/-- Both windows place the sample, and at one place. -/
def OnePlace (image : ImageGeometry) (pixelInterpretation : PixelInterpretation)
    (window other : GeoTiffReadWindow) (column row : ℕ) : Prop :=
  ∃ place, placeThrough image pixelInterpretation window column row = .ok place
    ∧ placeThrough image pixelInterpretation other column row = .ok place

/-- How far across and down its window a sample is, between 0 and 1. -/
def GeoTiffReadWindow.share (window : GeoTiffReadWindow) (column row : ℕ) : ℚ × ℚ :=
  ((column - window.x) / (window.width - 1), (row - window.y) / (window.height - 1))

end Agid.GeoTiff
