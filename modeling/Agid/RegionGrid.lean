import Agid.Lib.Record
import Agid.SpatialIndex

/-!
# The grid over the regions

`getSpatialCell` and `isPointInPolygon` of `src/lib/agid.ts`, and the candidates that
`getRegionInfo` takes from a cell.  The regions are whatever the data files hold; of one the box and
the polygons are kept, a single ring as a list of one.  Coordinates are exact.
-/

namespace Agid.RegionGrid

/-- A ring of latitudes and longitudes. -/
abbrev Ring := List (ℚ × ℚ)

structure GeoRegion where
  n : ℚ
  s : ℚ
  w : ℚ
  e : ℚ
  polygons : Option (List Ring)
  polygon : Option (List Ring)
deriving DecidableEq

/-- `SEA_REGIONS`, `COUNTRY_REGIONS` and `LAND_REGIONS`, and also what a cell holds of each. -/
structure Regions where
  seas : List GeoRegion
  countries : List GeoRegion
  continents : List GeoRegion

inductive Layer where
  | seas
  | countries
  | continents

def Regions.layer (regions : Regions) : Layer → List GeoRegion
  | .seas => regions.seas
  | .countries => regions.countries
  | .continents => regions.continents

/-! ## Points in regions -/

def EPS : ℚ := 1 / 10000000000

/-- The box of a region, with a tolerance. -/
def inBounds (lat lon : ℚ) (bounds : GeoRegion) : Bool :=
  let inLon := if bounds.w ≤ bounds.e then bounds.w - EPS ≤ lon && lon ≤ bounds.e + EPS
    else bounds.w - EPS ≤ lon || lon ≤ bounds.e + EPS
  !(lat < bounds.s - EPS || bounds.n + EPS < lat || !inLon)

def crossesAntimeridian (ring : Ring) : Bool :=
  match (ring.map Prod.snd).max?, (ring.map Prod.snd).min? with
  | some max, some min => 180 < max - min
  | _, _ => false

/-- A point of a ring, west of the antimeridian where the ring crosses it. -/
def eastward (crosses : Bool) (lon : ℚ) : ℚ := if crosses && lon < 0 then lon + 360 else lon

/-- Each point of a ring with the one before it. -/
def edges (ring : Ring) : List ((ℚ × ℚ) × (ℚ × ℚ)) :=
  ring.zip (ring.getLast?.toList ++ ring.dropLast)

def intersects (crosses : Bool) (lat testLon : ℚ) (edge : (ℚ × ℚ) × (ℚ × ℚ)) : Bool :=
  let yi := edge.1.1
  let xi := eastward crosses edge.1.2
  let yj := edge.2.1
  let xj := eastward crosses edge.2.2
  decide (lat < yi) != decide (lat < yj) && testLon < (xj - xi) * (lat - yi) / (yj - yi) + xi

def isPointInRing (lat lon : ℚ) (ring : Ring) : Bool :=
  let crosses := crossesAntimeridian ring
  (edges ring).foldl (fun inside edge =>
    if intersects crosses lat (eastward crosses lon) edge then !inside else inside) false

def isPointInPolygon (lat lon : ℚ) (polygon : Option (List Ring)) (bounds : GeoRegion) : Bool :=
  if inBounds lat lon bounds then
    match polygon with
    | none => true
    | some rings => rings.any (isPointInRing lat lon)
  else false

/-- `isPointInPolygon(lat, lon, region.polygons || region.polygon, region)`. -/
def GeoRegion.matches (region : GeoRegion) (lat lon : ℚ) : Bool :=
  isPointInPolygon lat lon (region.polygons.or region.polygon) region

/-! ## The index -/

def GRID_SIZE : ℚ := 2

/-- `getSpatialKey`, as its two numbers. -/
def getSpatialKey (lat lon : ℚ) : ℤ × ℤ := (⌊lat / GRID_SIZE⌋, ⌊lon / GRID_SIZE⌋)

def overlaps (s n w e : ℚ) (reg : GeoRegion) : Bool :=
  let latOverlap := max s reg.s ≤ min n reg.n
  let lonOverlap := if reg.e < reg.w then
      decide (max w reg.w ≤ min e 180) || decide (max w (-180) ≤ min e reg.e)
    else decide (max w reg.w ≤ min e reg.e)
  latOverlap && lonOverlap

abbrev GridIndex := Record (ℤ × ℤ) Regions

def cellAt (regions : Regions) (key : ℤ × ℤ) : Regions :=
  let s := key.1 * GRID_SIZE
  let w := key.2 * GRID_SIZE
  let meets := overlaps s (s + GRID_SIZE) w (w + GRID_SIZE)
  { seas := regions.seas.filter meets
    countries := regions.countries.filter meets
    continents := regions.continents.filter meets }

/-- The index and the cell, which is stored the first time it is asked for. -/
def getSpatialCell (regions : Regions) (index : GridIndex) (lat lon : ℚ) : GridIndex × Regions :=
  let key := getSpatialKey lat lon
  match index.get? key with
  | some cell => (index, cell)
  | none => (index.set key (cellAt regions key), cellAt regions key)

/-- The index after the points that have been looked up. -/
def indexAfter (regions : Regions) (points : List (ℚ × ℚ)) : GridIndex :=
  points.foldl (fun index p => (getSpatialCell regions index p.1 p.2).1) .empty

/-- The cell that a point is looked up in. -/
def cellOf (regions : Regions) (points : List (ℚ × ℚ)) (lat lon : ℚ) : Regions :=
  (getSpatialCell regions (indexAfter regions points) lat lon).2

/-! ## Boxes -/

/-- The points of a box, in two parts where it crosses the antimeridian. -/
def GeoRegion.box (reg : GeoRegion) : Set (ℚ × ℚ) :=
  Set.Icc reg.s reg.n ×ˢ
    if reg.e < reg.w then Set.Icc reg.w 180 ∪ Set.Icc (-180) reg.e else Set.Icc reg.w reg.e

/-- A point's cell, with its edges. -/
def closedCell (lat lon : ℚ) : Set (ℚ × ℚ) :=
  let key := getSpatialKey lat lon
  Set.Icc (key.1 * GRID_SIZE) (key.1 * GRID_SIZE + GRID_SIZE)
    ×ˢ Set.Icc (key.2 * GRID_SIZE) (key.2 * GRID_SIZE + GRID_SIZE)

/-- The cell has every region whose box has the point, and as many matches as a full scan. -/
structure LosesNoMatch (regions : Regions) (points : List (ℚ × ℚ)) (lat lon : ℚ) : Prop where
  contains : ∀ layer, ∀ reg ∈ regions.layer layer, (lat, lon) ∈ reg.box →
    reg ∈ (cellOf regions points lat lon).layer layer
  matched : ∀ layer, ((cellOf regions points lat lon).layer layer).filter (·.matches lat lon)
    = (regions.layer layer).filter (·.matches lat lon)

end Agid.RegionGrid
