import Agid.Lib.ClosedLines
import Mathlib

/-!
# Contour lines

`canonicalizeContourLine` of `src/lib/topographicElevationVectorizer.ts`, and what makes two lines
the same one.  Coordinates are exact numbers; what the code leaves `undefined` is none.
-/

namespace Agid.Topographic

/-- A longitude, a latitude and an elevation. -/
abbrev ContourCoordinate := ℚ × ℚ × ℚ

def compareContourCoordinates (left right : ContourCoordinate) : ℚ :=
  if left.1 - right.1 ≠ 0 then left.1 - right.1
  else if left.2.1 - right.2.1 ≠ 0 then left.2.1 - right.2.1
  else left.2.2 - right.2.2

def compareCoordinateSequences : List ContourCoordinate → List ContourCoordinate → ℚ
  | left :: lefts, right :: rights =>
    if compareContourCoordinates left right ≠ 0 then compareContourCoordinates left right
    else compareCoordinateSequences lefts rights
  | lefts, rights => lefts.length - rights.length

/-- The loop for the least coordinate of a ring. -/
def minimumCoordinate (minimum : ContourCoordinate) (ring : List ContourCoordinate) :
    ContourCoordinate :=
  ring.foldl (fun minimum coordinate =>
    if compareContourCoordinates coordinate minimum < 0 then coordinate else minimum) minimum

/-- The ring from a start in a direction, and the start again. -/
def candidate (ring : List ContourCoordinate) (start : ℕ) (direction : ℤ) :
    List ContourCoordinate :=
  let candidate := (List.range ring.length).filterMap fun (offset : ℕ) =>
    ring[((start + direction * offset + ring.length) % ring.length).toNat]?
  candidate ++ candidate.take 1

def candidates (ring : List ContourCoordinate) (minimum : ContourCoordinate) :
    List (List ContourCoordinate) :=
  (List.range ring.length).flatMap fun start =>
    if ring[start]?.any fun coordinate => compareContourCoordinates coordinate minimum ≠ 0 then []
    else [candidate ring start 1, candidate ring start (-1)]

def canonicalizeContourLine (coordinates : List ContourCoordinate) :
    Option (List ContourCoordinate) := do
  let first ← coordinates.head?
  let last ← coordinates.getLast?
  if compareContourCoordinates first last ≠ 0 then
    return if compareContourCoordinates last first < 0 then coordinates.reverse else coordinates
  let ring := coordinates.dropLast
  let minimum ← ring.head?
  ((candidates ring (minimumCoordinate minimum ring.tail)).insertionSort
    fun left right => compareCoordinateSequences left right ≤ 0).head?

/-- A line given again: in the other direction, or from another point where it is closed. -/
inductive SameContour : List ContourCoordinate → List ContourCoordinate → Prop
  | reverse (line) : SameContour line line.reverse
  | rotate (ring k) (h : ring ≠ []) :
    SameContour (Lines.closed ring) (Lines.closed (ring.rotate k))
  | rotate_reverse (ring k) (h : ring ≠ []) :
    SameContour (Lines.closed ring) (Lines.closed (ring.rotate k)).reverse

end Agid.Topographic
