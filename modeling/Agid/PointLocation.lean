import Mathlib

/-!
# Location of a point in a geometry

`locatePointInGeometry` of `src/lib/postalContextSpatial.ts`, on exact coordinates, and other ways
to write the rings of a geometry.
-/

namespace Agid.PointLocation

/-- A longitude and a latitude. -/
abbrev Position := ℚ × ℚ

abbrev LinearRing := List Position

/-- An outer ring and its holes. -/
abbrev Polygon := List LinearRing

inductive Geometry where
  | point (coordinates : Position)
  | polygon (coordinates : Polygon)
  | multiPolygon (coordinates : List Polygon)

inductive SpatialRelation where
  | inside
  | boundary
  | outside
deriving DecidableEq

def BOUNDARY_EPSILON : ℚ := 1 / 10 ^ 10

def pointOnSegment (point a b : Position) : Bool :=
  let cross := (point.2 - a.2) * (b.1 - a.1) - (point.1 - a.1) * (b.2 - a.2)
  let scale := max 1 (max |b.1 - a.1| |b.2 - a.2|)
  |cross| ≤ BOUNDARY_EPSILON * scale
    && min a.1 b.1 - BOUNDARY_EPSILON ≤ point.1 && point.1 ≤ max a.1 b.1 + BOUNDARY_EPSILON
    && min a.2 b.2 - BOUNDARY_EPSILON ≤ point.2 && point.2 ≤ max a.2 b.2 + BOUNDARY_EPSILON

/-- The edge goes from one side of the latitude of the point to the other, to the east of it. -/
def crosses (point a b : Position) : Bool :=
  decide (point.2 < a.2) != decide (point.2 < b.2)
    && point.1 < (b.1 - a.1) * (point.2 - a.2) / (b.2 - a.2) + a.1

/-- The loop of `pointInRing`, over the edges. -/
def ringLoop (point : Position) : Bool → List (Position × Position) → SpatialRelation
  | inside, [] => if inside then .inside else .outside
  | inside, (a, b) :: edges =>
    if pointOnSegment point a b then .boundary
    else ringLoop point (if crosses point a b then !inside else inside) edges

/-- The first edge goes from the last position to the first. -/
def pointInRing (point : Position) (ring : LinearRing) : SpatialRelation :=
  match ring.getLast? with
  | none => .outside
  | some last => ringLoop point false ((last :: ring).zip ring)

def holesLoop (point : Position) : List LinearRing → SpatialRelation
  | [] => .inside
  | hole :: holes =>
    match pointInRing point hole with
    | .boundary => .boundary
    | .inside => .outside
    | .outside => holesLoop point holes

def pointInPolygon (point : Position) : Polygon → SpatialRelation
  | [] => .outside
  | outer :: holes =>
    match pointInRing point outer with
    | .inside => holesLoop point holes
    | relation => relation

def polygonsLoop (point : Position) : Bool → List Polygon → SpatialRelation
  | inside, [] => if inside then .inside else .outside
  | inside, polygon :: polygons =>
    match pointInPolygon point polygon with
    | .boundary => .boundary
    | .inside => polygonsLoop point true polygons
    | .outside => polygonsLoop point inside polygons

def Geometry.polygons : Geometry → List Polygon
  | .point _ => []
  | .polygon coordinates => [coordinates]
  | .multiPolygon coordinates => coordinates

def locatePointInGeometry (point : Position) (geometry : Geometry) : SpatialRelation :=
  match geometry with
  | .point coordinates => if point = coordinates then .boundary else .outside
  | geometry => polygonsLoop point false geometry.polygons

/-! ## Ways to write a geometry -/

/-- A ring ends where it starts. -/
def Closed (ring : LinearRing) : Prop := ∃ start middle, ring = start :: (middle ++ [start])

/-- The ring from its second position. -/
def rotateStart (ring : LinearRing) : LinearRing := ring.tail ++ ring.tail.take 1

/-- One ring is the other from another start, in one direction or the other. -/
inductive Rewritten : LinearRing → LinearRing → Prop
  | refl (ring : LinearRing) : Rewritten ring ring
  | rotate {ring ring' : LinearRing} (h : Rewritten ring ring') : Rewritten ring (rotateStart ring')
  | reverse {ring ring' : LinearRing} (h : Rewritten ring ring') : Rewritten ring ring'.reverse

inductive Geometry.Rewritten : Geometry → Geometry → Prop
  | point (coordinates : Position) : Rewritten (.point coordinates) (.point coordinates)
  | polygon {rings rings' : Polygon} (h : List.Forall₂ PointLocation.Rewritten rings rings') :
    Rewritten (.polygon rings) (.polygon rings')
  | multiPolygon {polygons polygons' : List Polygon}
    (h : List.Forall₂ (List.Forall₂ PointLocation.Rewritten) polygons polygons') :
    Rewritten (.multiPolygon polygons) (.multiPolygon polygons')

/-! ## What is asked of a location -/

def edges (ring : LinearRing) : List (Position × Position) := ring.zip ring.tail

def crossings (point : Position) (ring : LinearRing) : ℕ :=
  (edges ring).countP fun e => crosses point e.1 e.2

/-- The outer ring is crossed an odd number of times and each hole an even one. -/
def InsidePolygon (point : Position) : Polygon → Prop
  | [] => False
  | outer :: holes => Odd (crossings point outer) ∧ ∀ hole ∈ holes, Even (crossings point hole)

/-- At the point the holes are in the outer ring, and apart. -/
def Nested (point : Position) : Polygon → Prop
  | [] => True
  | outer :: holes => (∀ hole ∈ holes, Odd (crossings point hole) → Odd (crossings point outer))
    ∧ holes.Pairwise fun hole hole' =>
      ¬ (Odd (crossings point hole) ∧ Odd (crossings point hole'))

/-- The location does not depend on how the rings are written, and off the boundaries it goes by the
crossings, of the rings one by one or all together. -/
structure Located (point : Position) (geometry : Geometry) : Prop where
  rewritten : ∀ geometry', geometry.Rewritten geometry' →
    locatePointInGeometry point geometry' = locatePointInGeometry point geometry
  inside : locatePointInGeometry point geometry ≠ .boundary →
    (locatePointInGeometry point geometry = .inside
      ↔ ∃ polygon ∈ geometry.polygons, InsidePolygon point polygon)
  odd : locatePointInGeometry point geometry ≠ .boundary →
    (∀ polygon ∈ geometry.polygons, Nested point polygon) →
      (locatePointInGeometry point geometry = .inside
        ↔ ∃ polygon ∈ geometry.polygons, Odd (polygon.map (crossings point)).sum)

/-! ## When that is so -/

def onEdge (point : Position) (ring : LinearRing) : Bool :=
  (edges ring).any fun e => pointOnSegment point e.1 e.2

/-- The point is within the tolerance of a position, as the edge from it to itself has it. -/
def near (point v : Position) : Bool := pointOnSegment point v v

/-- The point is on no edge, and near some positions of the ring but not all. -/
def Unsettled (point : Position) (ring : LinearRing) : Prop :=
  onEdge point ring = false ∧ (∃ v ∈ ring, near point v = true) ∧ ∃ v ∈ ring, near point v = false

/-- Where the point is by the edges of the ring. -/
def settled (point : Position) (ring : LinearRing) : SpatialRelation :=
  if onEdge point ring || ring.all (near point) then .boundary
  else if crossings point ring % 2 = 1 then .inside
  else .outside

/-- The holes that are looked at: up to one that the point is not outside of. -/
def readHoles (point : Position) : List LinearRing → List LinearRing
  | [] => []
  | hole :: holes => hole :: if settled point hole = .outside then readHoles point holes else []

def readRings (point : Position) : Polygon → List LinearRing
  | [] => []
  | outer :: holes => outer :: if settled point outer = .inside then readHoles point holes else []

/-- Some ring that is looked at has the point on an edge, or all those are settled. -/
def Settled (point : Position) (geometry : Geometry) : Prop :=
  (∃ polygon ∈ geometry.polygons, ∃ ring ∈ readRings point polygon,
      settled point ring = .boundary)
    ∨ ∀ polygon ∈ geometry.polygons, ∀ ring ∈ readRings point polygon, ¬ Unsettled point ring

end Agid.PointLocation
