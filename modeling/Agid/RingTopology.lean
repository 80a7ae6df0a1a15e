import Mathlib

/-!
# Intersections of rings

`ringSelfIntersects` and `ringsConflict` of `src/lib/postalContextTopology.ts`, on exact
coordinates.  Both look at the pairs of segments in the order of their first longitudes and leave
out those whose boxes are apart, until a budget of comparisons is spent.
-/

namespace Agid.RingTopology

/-- A longitude and a latitude. -/
abbrev Position := ℚ × ℚ

abbrev LinearRing := List Position

def TOPOLOGY_EPSILON : ℚ := 1 / 10 ^ 12

def orientation (a b c : Position) : ℚ := (b.1 - a.1) * (c.2 - a.2) - (b.2 - a.2) * (c.1 - a.1)

def pointOnSegment (point a b : Position) : Bool :=
  |orientation a b point| ≤ TOPOLOGY_EPSILON
    && min a.1 b.1 - TOPOLOGY_EPSILON ≤ point.1 && point.1 ≤ max a.1 b.1 + TOPOLOGY_EPSILON
    && min a.2 b.2 - TOPOLOGY_EPSILON ≤ point.2 && point.2 ≤ max a.2 b.2 + TOPOLOGY_EPSILON

inductive IntersectionKind where
  | cross
  | overlap
  | touch
  | none
deriving DecidableEq

def segmentIntersectionKind (a b c d : Position) : IntersectionKind :=
  let abC := orientation a b c
  let abD := orientation a b d
  let cdA := orientation c d a
  let cdB := orientation c d b
  let apart (x y : ℚ) : Bool := (TOPOLOGY_EPSILON < x && y < -TOPOLOGY_EPSILON)
    || (x < -TOPOLOGY_EPSILON && TOPOLOGY_EPSILON < y)
  let level (x : ℚ) : Bool := |x| ≤ TOPOLOGY_EPSILON
  if apart abC abD && apart cdA cdB then .cross
  else if !(level abC && pointOnSegment c a b) && !(level abD && pointOnSegment d a b)
      && !(level cdA && pointOnSegment a c d) && !(level cdB && pointOnSegment b c d) then .none
  else if !(level abC && level abD && level cdA && level cdB) then .touch
  else
    let axis (p : Position) : ℚ := if |b.2 - a.2| ≤ |b.1 - a.1| then p.1 else p.2
    let overlap := min (max (axis a) (axis b)) (max (axis c) (axis d))
      - max (min (axis a) (axis b)) (min (axis c) (axis d))
    if TOPOLOGY_EPSILON < overlap then .overlap else .touch

def pointExactlyOnSegment (point a b : Position) : Bool :=
  orientation a b point = 0 && min a.1 b.1 ≤ point.1 && point.1 ≤ max a.1 b.1
    && min a.2 b.2 ≤ point.2 && point.2 ≤ max a.2 b.2

structure Segment where
  index : ℕ
  a : Position
  b : Position
deriving DecidableEq

namespace Segment

def minimumLongitude (s : Segment) : ℚ := min s.a.1 s.b.1

def maximumLongitude (s : Segment) : ℚ := max s.a.1 s.b.1

def minimumLatitude (s : Segment) : ℚ := min s.a.2 s.b.2

def maximumLatitude (s : Segment) : ℚ := max s.a.2 s.b.2

/-- The order in which segments are sorted. -/
def Precedes (s t : Segment) : Prop :=
  s.minimumLongitude < t.minimumLongitude
    ∨ (s.minimumLongitude = t.minimumLongitude ∧ s.index ≤ t.index)

instance : DecidableRel Precedes := fun _ _ => inferInstanceAs (Decidable (_ ∨ _))

end Segment

def ringSegments (ring : LinearRing) : List Segment :=
  (ring.zip ring.tail).zipIdx.map fun ((previous, point), index) => ⟨index, previous, point⟩

def sortedSegments (ring : LinearRing) : List Segment :=
  (ringSegments ring).insertionSort Segment.Precedes

def adjacentSegments (left right segmentCount : ℕ) : Bool :=
  (left ≤ right + 1 && right ≤ left + 1) || (left = 0 && right = segmentCount - 1)
    || (right = 0 && left = segmentCount - 1)

/-! ## The sweeps -/

inductive Outcome where
  | found
  | budget
  | clear
deriving DecidableEq

/-- The inner loop of a sweep, with the budget that remains: the segments that it ends at, those it
leaves out before it counts a comparison and after, and those that are in conflict. -/
def scan (stop skip pass hit : Segment → Bool) : List Segment → ℤ → Outcome × ℤ
  | [], remaining => (.clear, remaining)
  | s :: segments, remaining =>
    if stop s then (.clear, remaining)
    else if skip s then scan stop skip pass hit segments remaining
    else if remaining - 1 < 0 then (.budget, remaining - 1)
    else if pass s then scan stop skip pass hit segments (remaining - 1)
    else if hit s then (.found, remaining - 1)
    else scan stop skip pass hit segments (remaining - 1)

/-- The outer loop, over inner ones. -/
def sweep : List (ℤ → Outcome × ℤ) → ℤ → Outcome × ℤ
  | [], remaining => (.clear, remaining)
  | inner :: inners, remaining =>
    match inner remaining with
    | (.clear, remaining) => sweep inners remaining
    | ended => ended

/-- Whether there is a conflict, or nothing for `'budget'`. -/
def Outcome.answer : Outcome → Option Bool
  | .found => some true
  | .budget => none
  | .clear => some false

def latitudesApart (s t : Segment) : Bool :=
  s.maximumLatitude < t.minimumLatitude || t.maximumLatitude < s.minimumLatitude

def kind (s t : Segment) : IntersectionKind := segmentIntersectionKind s.a s.b t.a t.b

def conflict (first second : Segment) : Bool :=
  kind first second = .cross || kind first second = .overlap

def ringsConflict (left right : LinearRing) (remaining : ℤ) : Option Bool × ℤ :=
  let (outcome, remaining) := sweep ((sortedSegments left).map fun first =>
    scan (fun second => first.maximumLongitude < second.minimumLongitude)
      (fun second => second.maximumLongitude < first.minimumLongitude
        || latitudesApart first second)
      (fun _ => false) (conflict first) (sortedSegments right)) remaining
  (outcome.answer, remaining)

def contact (left right : Segment) : Bool :=
  left.a = right.a || left.a = right.b || left.b = right.a || left.b = right.b
    || pointExactlyOnSegment left.a right.a right.b
    || pointExactlyOnSegment left.b right.a right.b
    || pointExactlyOnSegment right.a left.a left.b
    || pointExactlyOnSegment right.b left.a left.b

def selfConflict (left right : Segment) : Bool :=
  conflict left right || (kind left right = .touch && contact left right)

def ringSelfIntersects (ring : LinearRing) (remaining : ℤ) : Option Bool × ℤ :=
  let segments := sortedSegments ring
  let (outcome, remaining) := sweep (segments.zipIdx.map fun (left, leftIndex) =>
    scan (fun right => left.maximumLongitude < right.minimumLongitude)
      (fun right => adjacentSegments left.index right.index segments.length)
      (latitudesApart left) (selfConflict left) (segments.drop (leftIndex + 1))) remaining
  (outcome.answer, remaining)

/-! ## Brute force -/

/-- Some segment of one ring is in conflict with one of the other. -/
def RingsIntersect (left right : LinearRing) : Prop :=
  ∃ first ∈ ringSegments left, ∃ second ∈ ringSegments right, conflict first second

/-- Some two segments that are not adjacent are in conflict. -/
def SelfIntersects (ring : LinearRing) : Prop :=
  ∃ left ∈ ringSegments ring, ∃ right ∈ ringSegments ring,
    adjacentSegments left.index right.index (ringSegments ring).length = false
      ∧ selfConflict left right

/-- The boxes of the segments have a point in common. -/
def BoxesMeet (s t : Segment) : Prop :=
  (s.minimumLongitude ≤ t.maximumLongitude ∧ t.minimumLongitude ≤ s.maximumLongitude)
    ∧ s.minimumLatitude ≤ t.maximumLatitude ∧ t.minimumLatitude ≤ s.maximumLatitude

/-- If segments of two rings are in conflict, so are some whose boxes meet. -/
def KeepsRings (left right : LinearRing) : Prop :=
  RingsIntersect left right → ∃ first ∈ ringSegments left, ∃ second ∈ ringSegments right,
    BoxesMeet first second ∧ conflict first second

/-- If segments of the ring are in conflict, so are some whose boxes meet, in the order of their
first longitudes. -/
def KeepsSelf (ring : LinearRing) : Prop :=
  SelfIntersects ring → ∃ left ∈ ringSegments ring, ∃ right ∈ ringSegments ring,
    left.Precedes right ∧ BoxesMeet left right
      ∧ adjacentSegments left.index right.index (ringSegments ring).length = false
      ∧ selfConflict left right

end Agid.RingTopology
