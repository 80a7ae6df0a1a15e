import Agid.GeoTiffWindows
import Agid.Proofs.TerrainMesh

/-!
# The place of a sample

A sample of area pixels is half a pixel from the corner of its own pixel, through whatever window it
is read (`placeThrough_area`).  A sample of point pixels is also moved by its share of the window,
since the box of the window is spread over one sample too few (`placeThrough_point`).
-/

namespace Agid.GeoTiff

open Checks

variable {image : ImageGeometry} {window other : GeoTiffReadWindow}

theorem resolveReadWindow_size {given : Option GeoTiffReadWindow} {width height : ℕ}
    (h : resolveReadWindow given width height = .ok window) :
    2 ≤ window.width ∧ 2 ≤ window.height := by
  unfold resolveReadWindow at h
  obtain ⟨_, hshape, h⟩ := bind_eq_ok.1 h
  obtain ⟨_, -, h⟩ := bind_eq_ok.1 h
  obtain rfl := Except.ok.inj h
  simp only [require_eq_ok, Bool.not_eq_true', Bool.or_eq_false_iff, decide_eq_false_iff_not,
    not_lt] at hshape
  exact ⟨hshape.1.1.1.2, hshape.1.1.2⟩

theorem asCoordinateExtent_ok {minimumX minimumY maximumX maximumY : ℚ} (hx : minimumX < maximumX)
    (hy : minimumY < maximumY) (field : JsString) :
    asCoordinateExtent minimumX minimumY maximumX maximumY field
      = .ok { minimumX, minimumY, maximumX, maximumY } := by
  have hgrows : (!(decide (maximumX ≤ minimumX) || decide (maximumY ≤ minimumY))) = true := by
    simp [hx, hy]
  rw [asCoordinateExtent, require, if_pos hgrows]
  rfl

/-- The box of a window, which is that of its pixels. -/
def pixelBox (image : ImageGeometry) (window : GeoTiffReadWindow) : GeoTiffCoordinateExtent where
  minimumX := image.originX + window.x * image.resolutionX
  minimumY := image.originY + window.y * image.resolutionY + window.height * image.resolutionY
  maximumX := image.originX + window.x * image.resolutionX + window.width * image.resolutionX
  maximumY := image.originY + window.y * image.resolutionY

theorem windowBoundingBox_eq (hwidth : 2 ≤ window.width) (hheight : 2 ≤ window.height) :
    windowBoundingBox image.boundingBox image.resolutionX image.resolutionY window
      = .ok (pixelBox image window) := by
  have hx : 0 < window.width * image.resolutionX := mul_pos (by linarith) image.east
  have hy : window.height * image.resolutionY < 0 :=
    mul_neg_of_pos_of_neg (by linarith) image.south
  exact asCoordinateExtent_ok (by simpa using hx) (by simpa using hy) _

theorem placeThrough_point (hwidth : 2 ≤ window.width) (hheight : 2 ≤ window.height)
    (column row : ℕ) :
    placeThrough image .point window column row
      = .ok (image.originX + image.resolutionX * (column + (window.share column row).1),
        image.originY + image.resolutionY * (row + (window.share column row).2)) := by
  have hw : window.width - 1 ≠ 0 := by linarith
  have hh : window.height - 1 ≠ 0 := by linarith
  rw [placeThrough, sourceCenterExtent, windowBoundingBox_eq hwidth hheight]
  refine congrArg Except.ok (Prod.ext ?_ ?_)
  · simp only [sourceCoordinateAt, pixelBox, GeoTiffReadWindow.share]
    field_simp
    ring
  · simp only [sourceCoordinateAt, pixelBox, GeoTiffReadWindow.share]
    field_simp
    ring

/-- The middles of the pixels at the corners. -/
theorem adjustAreaPixelsToCenters_eq (hwidth : 2 ≤ window.width) (hheight : 2 ≤ window.height) :
    adjustAreaPixelsToCenters (pixelBox image window) image.resolutionX image.resolutionY
        window.width window.height
      = .ok {
        minimumX := (pixelBox image window).minimumX + image.resolutionX / 2
        minimumY := (pixelBox image window).minimumY + -image.resolutionY / 2
        maximumX := (pixelBox image window).maximumX - image.resolutionX / 2
        maximumY := (pixelBox image window).maximumY - -image.resolutionY / 2 } := by
  have hx : 0 < (window.width - 1) * image.resolutionX := mul_pos (by linarith) image.east
  have hy : (window.height - 1) * image.resolutionY < 0 :=
    mul_neg_of_pos_of_neg (by linarith) image.south
  have hsize : (!(decide (window.width < 2) || decide (window.height < 2))) = true := by
    simp [hwidth, hheight]
  rw [adjustAreaPixelsToCenters, require, if_pos hsize, abs_of_pos image.east,
    abs_of_neg image.south]
  refine asCoordinateExtent_ok ?_ ?_ _
  · simp only [pixelBox]
    linarith
  · simp only [pixelBox]
    linarith

theorem placeThrough_area (hwidth : 2 ≤ window.width) (hheight : 2 ≤ window.height)
    (column row : ℕ) :
    placeThrough image .area window column row
      = .ok (image.originX + image.resolutionX * (column + 1 / 2),
        image.originY + image.resolutionY * (row + 1 / 2)) := by
  have hw : window.width - 1 ≠ 0 := by linarith
  have hh : window.height - 1 ≠ 0 := by linarith
  have hextent : sourceCenterExtent image .area window
      = adjustAreaPixelsToCenters (pixelBox image window) image.resolutionX image.resolutionY
        window.width window.height := by
    rw [sourceCenterExtent, windowBoundingBox_eq hwidth hheight]
    rfl
  rw [placeThrough, hextent, adjustAreaPixelsToCenters_eq hwidth hheight]
  refine congrArg Except.ok (Prod.ext ?_ ?_)
  · simp only [sourceCoordinateAt, pixelBox]
    field_simp
    ring
  · simp only [sourceCoordinateAt, pixelBox]
    field_simp
    ring

/-- A sample has one place through two windows where pixels are areas, and where they are points if
it is as far across and as far down both windows. -/
theorem onePlace_iff {given given' : Option GeoTiffReadWindow}
    (hwindow : resolveReadWindow given image.width image.height = .ok window)
    (hother : resolveReadWindow given' image.width image.height = .ok other)
    (pixelInterpretation : PixelInterpretation) (column row : ℕ) :
    OnePlace image pixelInterpretation window other column row
      ↔ pixelInterpretation = .area ∨ window.share column row = other.share column row := by
  obtain ⟨hwidth, hheight⟩ := resolveReadWindow_size hwindow
  obtain ⟨hwidth', hheight'⟩ := resolveReadWindow_size hother
  rcases pixelInterpretation with _ | _
  · refine iff_of_true ⟨_, placeThrough_area hwidth hheight column row, ?_⟩ (.inl rfl)
    exact placeThrough_area hwidth' hheight' column row
  · have hX := image.east.ne'
    have hY := image.south.ne
    rw [OnePlace, placeThrough_point hwidth hheight, placeThrough_point hwidth' hheight']
    constructor
    · rintro ⟨place, hplace, hplace'⟩
      rw [← hplace', Except.ok.injEq, Prod.mk.injEq] at hplace
      obtain ⟨hx, hy⟩ := hplace
      refine .inr (Prod.ext ?_ ?_)
      · exact add_left_cancel (mul_left_cancel₀ hX (add_left_cancel hx))
      · exact add_left_cancel (mul_left_cancel₀ hY (add_left_cancel hy))
    · rintro (h | h)
      · cases h
      · exact ⟨_, rfl, by rw [h]⟩

/-! ## A sample of two tiles -/

def tenByTen : ImageGeometry where
  originX := 0
  originY := 0
  resolutionX := 1
  resolutionY := -1
  width := 10
  height := 10
  east := by norm_num
  south := by norm_num

def firstTile : GeoTiffReadWindow := ⟨0, 0, 4, 4⟩

def secondTile : GeoTiffReadWindow := ⟨2, 0, 4, 4⟩

theorem tiles_resolved :
    resolveReadWindow (some firstTile) tenByTen.width tenByTen.height = .ok firstTile
      ∧ resolveReadWindow (some secondTile) tenByTen.width tenByTen.height = .ok secondTile :=
  ⟨eq_ok_of_toOption (by decide +kernel), eq_ok_of_toOption (by decide +kernel)⟩

theorem onePlace_tiles :
    OnePlace tenByTen .area firstTile secondTile 3 3
      ↔ PixelInterpretation.area = .area ∨ firstTile.share 3 3 = secondTile.share 3 3 :=
  onePlace_iff tiles_resolved.1 tiles_resolved.2 .area 3 3

/-- A point sample of two tiles that has two places. -/
theorem tiles_not_onePlace :
    resolveReadWindow (some firstTile) tenByTen.width tenByTen.height = .ok firstTile
      ∧ resolveReadWindow (some secondTile) tenByTen.width tenByTen.height = .ok secondTile
      ∧ firstTile.Contains 3 3 ∧ secondTile.Contains 3 3
      ∧ placeThrough tenByTen .point firstTile 3 3 = .ok (4, -4)
      ∧ placeThrough tenByTen .point secondTile 3 3 = .ok (10 / 3, -4)
      ∧ ¬ OnePlace tenByTen .point firstTile secondTile 3 3 := by
  have hfirst : placeThrough tenByTen .point firstTile 3 3 = .ok (4, -4) := by
    rw [placeThrough_point (by norm_num [firstTile]) (by norm_num [firstTile])]
    norm_num [GeoTiffReadWindow.share, firstTile, tenByTen]
  have hsecond : placeThrough tenByTen .point secondTile 3 3 = .ok (10 / 3, -4) := by
    rw [placeThrough_point (by norm_num [secondTile]) (by norm_num [secondTile])]
    norm_num [GeoTiffReadWindow.share, secondTile, tenByTen]
  refine ⟨tiles_resolved.1, tiles_resolved.2, ?_, ?_, hfirst, hsecond, ?_⟩
  · constructor <;> norm_num [firstTile]
  · constructor <;> norm_num [secondTile]
  · rintro ⟨place, hplace, hplace'⟩
    rw [hfirst] at hplace
    rw [hsecond, ← hplace, Except.ok.injEq, Prod.mk.injEq] at hplace'
    norm_num at hplace'

end Agid.GeoTiff
