import Agid.PointLocation

/-!
# The start of a ring

A closed ring has one more edge than its sides, from its start to itself, which only says whether
the point is near the start (`pointInRing_closed`).  The sides and the positions of a ring are the
same however it is written, so the location changes just where that edge decides.
-/

namespace Agid.PointLocation

variable {point : Position} {ring ring' : LinearRing}

/-! ## Edges -/

theorem pointOnSegment_swap (point a b : Position) :
    pointOnSegment point b a = pointOnSegment point a b := by
  have hcross : (point.2 - b.2) * (a.1 - b.1) - (point.1 - b.1) * (a.2 - b.2)
      = -((point.2 - a.2) * (b.1 - a.1) - (point.1 - a.1) * (b.2 - a.2)) := by ring
  unfold pointOnSegment
  simp only [hcross, abs_neg, abs_sub_comm a.1, abs_sub_comm a.2, min_comm b.1, min_comm b.2,
    max_comm b.1, max_comm b.2]

theorem crosses_swap (point a b : Position) : crosses point b a = crosses point a b := by
  unfold crosses
  rw [bne_comm]
  by_cases hab : a.2 = b.2
  · simp [hab]
  · have hne : b.2 - a.2 ≠ 0 := sub_ne_zero.2 (Ne.symm hab)
    have hne' : a.2 - b.2 ≠ 0 := sub_ne_zero.2 hab
    have hlongitude : (a.1 - b.1) * (point.2 - b.2) / (a.2 - b.2) + b.1
        = (b.1 - a.1) * (point.2 - a.2) / (b.2 - a.2) + a.1 := by
      rw [div_add' _ _ _ hne', div_add' _ _ _ hne, div_eq_div_iff hne' hne]
      ring
    rw [hlongitude]

theorem crosses_self (point a : Position) : crosses point a a = false := by
  simp [crosses]

theorem edges_cons_cons (a b : Position) (l : List Position) :
    edges (a :: b :: l) = (a, b) :: edges (b :: l) := rfl

theorem edges_concat (a b : Position) : ∀ l : List Position,
    edges (l ++ [a] ++ [b]) = edges (l ++ [a]) ++ [(a, b)]
  | [] => rfl
  | [c] => rfl
  | c :: d :: l => by
    have ih := edges_concat a b (d :: l)
    simp only [List.cons_append, edges_cons_cons] at ih ⊢
    rw [ih]

theorem edges_reverse : ∀ l : List Position,
    edges l.reverse = (edges l).reverse.map Prod.swap
  | [] => rfl
  | [_] => rfl
  | a :: b :: l => by
    rw [List.reverse_cons, List.reverse_cons, edges_concat, edges_cons_cons, List.reverse_cons,
      List.map_append, ← edges_reverse (b :: l), List.reverse_cons]
    rfl

theorem ringLoop_eq (point : Position) : ∀ (l : List (Position × Position)) (inside : Bool),
    ringLoop point inside l = if l.any fun e => pointOnSegment point e.1 e.2 then .boundary
      else if (l.countP (fun e => crosses point e.1 e.2) + if inside then 1 else 0) % 2 = 1 then
        .inside
      else .outside
  | [], inside => by cases inside <;> rfl
  | (a, b) :: l, inside => by
    rw [ringLoop, ringLoop_eq point l, List.any_cons, List.countP_cons]
    simp only
    rcases hon : pointOnSegment point a b with _ | _
    · rcases hcross : crosses point a b with _ | _ <;> rcases inside with _ | _ <;>
        simp only [Bool.false_eq_true, if_false, if_true, Bool.false_or, Bool.not_false,
          Bool.not_true, Nat.add_zero]
      split_ifs <;> first | rfl | omega
    · rfl

/-! ## Closed rings -/

theorem pointInRing_closed {start : Position} {middle : List Position}
    (h : ring = start :: (middle ++ [start])) : pointInRing point ring
      = if near point start || onEdge point ring then .boundary
        else if crossings point ring % 2 = 1 then .inside else .outside := by
  have hlast : ring.getLast? = some start := by
    rw [h, ← List.cons_append, List.getLast?_concat]
  have hzip : (start :: ring).zip ring = (start, start) :: edges ring := by
    rw [h]
    rfl
  rw [pointInRing, hlast]
  simp only
  rw [hzip, ringLoop, ringLoop_eq, crosses_self]
  simp only [Bool.false_eq_true, if_false, Nat.add_zero]
  rcases hnear : near point start with _ | _
  · rw [if_neg (by rw [← near, hnear]; exact Bool.false_ne_true), Bool.false_or]
    rfl
  · exact if_pos hnear

/-- What the location reads of a ring, whatever its start. -/
structure Alike (point : Position) (ring ring' : LinearRing) : Prop where
  closed : Closed ring'
  onEdge : onEdge point ring' = onEdge point ring
  crossings : crossings point ring' = crossings point ring
  mem : ∀ v, v ∈ ring' ↔ v ∈ ring

theorem rotateStart_alike (h : Closed ring) : Alike point ring (rotateStart ring) := by
  obtain ⟨start, middle, rfl⟩ := h
  rcases middle with _ | ⟨b, middle⟩
  · exact ⟨⟨start, [], rfl⟩, rfl, rfl, fun _ => Iff.rfl⟩
  · have hrotate : rotateStart (start :: (b :: middle ++ [start]))
        = b :: middle ++ [start] ++ [b] := rfl
    have hedges : edges (b :: middle ++ [start] ++ [b])
        = edges (b :: middle ++ [start]) ++ [(start, b)] := edges_concat start b (b :: middle)
    have hfirst : edges (start :: (b :: middle ++ [start]))
        = (start, b) :: edges (b :: middle ++ [start]) := rfl
    rw [hrotate]
    refine ⟨⟨b, middle ++ [start], by simp⟩, ?_, ?_, fun v => ?_⟩
    · simp only [onEdge, hedges, hfirst, List.any_append, List.any_cons, List.any_nil,
        Bool.or_false]
      exact Bool.or_comm _ _
    · simp only [PointLocation.crossings, hedges, hfirst, List.countP_append, List.countP_cons,
        List.countP_nil]
      omega
    · simp only [List.mem_append, List.mem_cons, List.not_mem_nil, or_false]
      tauto

theorem reverse_alike (h : Closed ring) : Alike point ring ring.reverse := by
  obtain ⟨start, middle, rfl⟩ := h
  refine ⟨⟨start, middle.reverse, by simp⟩, ?_, ?_, fun v => List.mem_reverse⟩
  · simp only [onEdge, edges_reverse, List.any_map, List.any_reverse]
    congr 1
    funext e
    exact pointOnSegment_swap point e.1 e.2
  · simp only [PointLocation.crossings, edges_reverse, List.countP_map, List.countP_reverse]
    congr 1
    funext e
    exact crosses_swap point e.1 e.2

theorem Alike.trans {ring'' : LinearRing} (h : Alike point ring ring')
    (h' : Alike point ring' ring'') : Alike point ring ring'' :=
  ⟨h'.closed, h'.onEdge.trans h.onEdge, h'.crossings.trans h.crossings,
    fun v => (h'.mem v).trans (h.mem v)⟩

variable (point) in
theorem Rewritten.alike (hclosed : Closed ring) (h : Rewritten ring ring') :
    Alike point ring ring' := by
  induction h with
  | refl => exact ⟨hclosed, rfl, rfl, fun _ => Iff.rfl⟩
  | rotate _ ih => exact ih.trans (rotateStart_alike ih.closed)
  | reverse _ ih => exact ih.trans (reverse_alike ih.closed)

/-- A ring can be written from each of its positions. -/
theorem exists_start {v : Position} : ∀ {before after : List Position},
    Rewritten ring (before ++ v :: after) →
      ∃ ring', Rewritten ring ring' ∧ ring'.head? = some v
  | [], _, h => ⟨_, h, rfl⟩
  | a :: before, after, h => by
    have hrotate := h.rotate
    rw [rotateStart, List.cons_append, List.tail_cons, List.append_assoc, List.cons_append]
      at hrotate
    exact exists_start hrotate

theorem pointInRing_of_head {v : Position} (hclosed : Closed ring) (hhead : ring.head? = some v) :
    pointInRing point ring = if near point v || onEdge point ring then .boundary
      else if crossings point ring % 2 = 1 then .inside else .outside := by
  obtain ⟨start, middle, h⟩ := hclosed
  rw [h] at hhead
  cases hhead
  exact pointInRing_closed h

theorem settled_of_unsettled (h : Unsettled point ring) : settled point ring
    = if crossings point ring % 2 = 1 then .inside else .outside := by
  obtain ⟨hedge, -, v, hv, hfar⟩ := h
  have hall : ring.all (near point) = false :=
    List.all_eq_false.2 ⟨v, hv, by rw [hfar]; exact Bool.false_ne_true⟩
  rw [settled, hedge, hall]
  rfl

variable (point) in
/-- From another start the relation is what the edges say, or `boundary` where they leave that
open. -/
theorem pointInRing_rewritten (hclosed : Closed ring) (h : Rewritten ring ring') :
    pointInRing point ring' = settled point ring
      ∨ (Unsettled point ring ∧ pointInRing point ring' = .boundary) := by
  have halike := h.alike point hclosed
  obtain ⟨start, middle, hstart⟩ := halike.closed
  have hmem : start ∈ ring := (halike.mem start).1 (hstart ▸ List.mem_cons_self)
  rw [pointInRing_closed hstart, halike.onEdge, halike.crossings]
  rcases hedge : onEdge point ring with _ | _
  · rcases hnear : near point start with _ | _
    · have hall : ring.all (near point) = false :=
        List.all_eq_false.2 ⟨start, hmem, by rw [hnear]; exact Bool.false_ne_true⟩
      left
      rw [settled, hedge, hall]
    · by_cases hall : ring.all (near point) = true
      · left
        rw [settled, hedge, hall]
        rfl
      · obtain ⟨v, hv, hfar⟩ := List.all_eq_false.1 (Bool.not_eq_true _ ▸ hall)
        exact .inr ⟨⟨hedge, ⟨start, hmem, hnear⟩, v, hv, by simpa using hfar⟩, rfl⟩
  · left
    rw [settled, hedge, Bool.or_true]
    rfl

/-- The two ways to write an unsettled ring that matter. -/
theorem exists_rewritten (hclosed : Closed ring) (h : Unsettled point ring) :
    (∃ ring', Rewritten ring ring' ∧ pointInRing point ring' = settled point ring)
      ∧ ∃ ring', Rewritten ring ring' ∧ pointInRing point ring' = .boundary := by
  have hfrom {v : Position} (hv : v ∈ ring) :
      ∃ ring', Rewritten ring ring' ∧ pointInRing point ring'
        = if near point v || onEdge point ring then .boundary
          else if crossings point ring % 2 = 1 then .inside else .outside := by
    obtain ⟨before, after, hring⟩ := List.append_of_mem hv
    have hself : Rewritten ring (before ++ v :: after) := by
      rw [← hring]
      exact .refl ring
    obtain ⟨ring', hrewritten, hhead⟩ := exists_start hself
    have halike := hrewritten.alike point hclosed
    refine ⟨ring', hrewritten, ?_⟩
    rw [pointInRing_of_head halike.closed hhead, halike.onEdge, halike.crossings]
  have hsettled := settled_of_unsettled h
  obtain ⟨hedge, ⟨v, hv, hnear⟩, u, hu, hfar⟩ := h
  constructor
  · obtain ⟨ring', hrewritten, hring'⟩ := hfrom hu
    refine ⟨ring', hrewritten, ?_⟩
    rw [hring', hfar, hedge, hsettled]
    rfl
  · obtain ⟨ring', hrewritten, hring'⟩ := hfrom hv
    refine ⟨ring', hrewritten, ?_⟩
    rw [hring', hnear]
    rfl

/-! ## Polygons -/

/-- The location in a polygon, with the relation to each ring given. -/
def holesBy (relate : LinearRing → SpatialRelation) : List LinearRing → SpatialRelation
  | [] => .inside
  | hole :: holes =>
    match relate hole with
    | .boundary => .boundary
    | .inside => .outside
    | .outside => holesBy relate holes

def polygonBy (relate : LinearRing → SpatialRelation) : Polygon → SpatialRelation
  | [] => .outside
  | outer :: holes =>
    match relate outer with
    | .inside => holesBy relate holes
    | relation => relation

theorem holesLoop_map (f : LinearRing → LinearRing) : ∀ holes : List LinearRing,
    holesLoop point (holes.map f) = holesBy (fun ring => pointInRing point (f ring)) holes
  | [] => rfl
  | hole :: holes => by
    have ih := holesLoop_map f holes
    rcases hrelation : pointInRing point (f hole) with _ | _ | _ <;>
      simp only [List.map_cons, holesLoop, holesBy, hrelation, ih]

theorem pointInPolygon_map (f : LinearRing → LinearRing) (polygon : Polygon) :
    pointInPolygon point (polygon.map f)
      = polygonBy (fun ring => pointInRing point (f ring)) polygon := by
  rcases polygon with _ | ⟨outer, holes⟩
  · rfl
  · rcases hrelation : pointInRing point (f outer) with _ | _ | _ <;>
      simp only [List.map_cons, pointInPolygon, polygonBy, hrelation, holesLoop_map]

theorem holesBy_congr {f g : LinearRing → SpatialRelation} {holes : List LinearRing}
    (h : ∀ ring ∈ holes, f ring = g ring) : holesBy f holes = holesBy g holes := by
  induction holes with
  | nil => rfl
  | cons hole holes ih =>
    rw [List.forall_mem_cons] at h
    rw [holesBy, holesBy, h.1, ih h.2]

theorem polygonBy_congr {f g : LinearRing → SpatialRelation} {polygon : Polygon}
    (h : ∀ ring ∈ polygon, f ring = g ring) : polygonBy f polygon = polygonBy g polygon := by
  rcases polygon with _ | ⟨outer, holes⟩
  · rfl
  · rw [List.forall_mem_cons] at h
    rw [polygonBy, polygonBy, h.1, holesBy_congr h.2]

variable (point) in
theorem holesLoop_rewritten {holes holes' : List LinearRing} (hclosed : ∀ ring ∈ holes, Closed ring)
    (h : List.Forall₂ Rewritten holes holes') :
    holesLoop point holes' = holesBy (settled point) holes
      ∨ (holesLoop point holes' = .boundary
        ∧ ∃ ring ∈ readHoles point holes, Unsettled point ring) := by
  induction h with
  | nil => exact .inl rfl
  | cons hring _ ih =>
    rename_i hole hole' holes holes' _
    rw [List.forall_mem_cons] at hclosed
    rw [holesLoop, holesBy, readHoles]
    rcases pointInRing_rewritten point hclosed.1 hring with hhole | ⟨hunsettled, hhole⟩
    · rw [hhole]
      rcases hsettled : settled point hole with _ | _ | _
      · exact .inl rfl
      · exact .inl rfl
      · rcases ih hclosed.2 with hrest | ⟨hrest, ring, hring, hunsettled⟩
        · exact .inl hrest
        · exact .inr ⟨hrest, ring, List.mem_cons_of_mem _ hring, hunsettled⟩
    · rw [hhole]
      exact .inr ⟨rfl, hole, List.mem_cons_self, hunsettled⟩

theorem pointInPolygon_rewritten {polygon polygon' : Polygon}
    (hclosed : ∀ ring ∈ polygon, Closed ring) (h : List.Forall₂ Rewritten polygon polygon') :
    pointInPolygon point polygon' = polygonBy (settled point) polygon
      ∨ (pointInPolygon point polygon' = .boundary
        ∧ ∃ ring ∈ readRings point polygon, Unsettled point ring) := by
  cases h with
  | nil => exact .inl rfl
  | cons hring hholes =>
    rename_i outer outer' holes holes'
    rw [List.forall_mem_cons] at hclosed
    rw [pointInPolygon, polygonBy, readRings]
    rcases pointInRing_rewritten point hclosed.1 hring with houter | ⟨hunsettled, houter⟩
    · rw [houter]
      rcases hsettled : settled point outer with _ | _ | _
      · rcases holesLoop_rewritten point hclosed.2 hholes with
          hrest | ⟨hrest, ring, hring, hunsettled⟩
        · exact .inl hrest
        · exact .inr ⟨hrest, ring, List.mem_cons_of_mem _ hring, hunsettled⟩
      · exact .inl rfl
      · exact .inl rfl
    · rw [houter]
      exact .inr ⟨rfl, outer, List.mem_cons_self, hunsettled⟩

theorem holesBy_eq_boundary {holes : List LinearRing} : holesBy (settled point) holes = .boundary
    ↔ ∃ ring ∈ readHoles point holes, settled point ring = .boundary := by
  induction holes with
  | nil => simp [holesBy, readHoles]
  | cons hole holes ih =>
    rw [holesBy, readHoles]
    rcases hsettled : settled point hole with _ | _ | _ <;> simp [hsettled, ih]

theorem polygonBy_eq_boundary {polygon : Polygon} : polygonBy (settled point) polygon = .boundary
    ↔ ∃ ring ∈ readRings point polygon, settled point ring = .boundary := by
  rcases polygon with _ | ⟨outer, holes⟩
  · simp [polygonBy, readRings]
  · rw [polygonBy, readRings]
    rcases hsettled : settled point outer with _ | _ | _ <;>
      simp [hsettled, holesBy_eq_boundary]

/-- With the unsettled rings written so as to be on the boundary, one that is read decides. -/
theorem holesBy_of_unsettled {relate : LinearRing → SpatialRelation} {holes : List LinearRing}
    (hrelate : ∀ ring ∈ holes, (Unsettled point ring → relate ring = .boundary)
      ∧ (¬ Unsettled point ring → relate ring = settled point ring))
    (h : ∃ ring ∈ readHoles point holes, Unsettled point ring) :
    holesBy relate holes = .boundary := by
  induction holes with
  | nil => obtain ⟨_, hring, -⟩ := h; cases hring
  | cons hole holes ih =>
    rw [List.forall_mem_cons] at hrelate
    rw [holesBy]
    by_cases hhole : Unsettled point hole
    · rw [hrelate.1.1 hhole]
    · rw [hrelate.1.2 hhole]
      rw [readHoles] at h
      obtain ⟨ring, hring, hunsettled⟩ := h
      rcases List.mem_cons.1 hring with rfl | hring
      · exact absurd hunsettled hhole
      · split_ifs at hring with hsettled
        · rw [hsettled]
          exact ih hrelate.2 ⟨ring, hring, hunsettled⟩
        · cases hring

theorem polygonBy_of_unsettled {relate : LinearRing → SpatialRelation} {polygon : Polygon}
    (hrelate : ∀ ring ∈ polygon, (Unsettled point ring → relate ring = .boundary)
      ∧ (¬ Unsettled point ring → relate ring = settled point ring))
    (h : ∃ ring ∈ readRings point polygon, Unsettled point ring) :
    polygonBy relate polygon = .boundary := by
  rcases polygon with _ | ⟨outer, holes⟩
  · obtain ⟨_, hring, -⟩ := h
    cases hring
  · rw [List.forall_mem_cons] at hrelate
    rw [polygonBy]
    by_cases houter : Unsettled point outer
    · rw [hrelate.1.1 houter]
    · rw [hrelate.1.2 houter]
      rw [readRings] at h
      obtain ⟨ring, hring, hunsettled⟩ := h
      rcases List.mem_cons.1 hring with rfl | hring
      · exact absurd hunsettled houter
      · split_ifs at hring with hsettled
        · rw [hsettled]
          exact holesBy_of_unsettled hrelate.2 ⟨ring, hring, hunsettled⟩
        · cases hring

/-! ## Geometries -/

theorem polygonsLoop_eq (point : Position) : ∀ (polygons : List Polygon) (inside : Bool),
    polygonsLoop point inside polygons
      = if .boundary ∈ polygons.map (pointInPolygon point) then .boundary
        else if inside = true ∨ .inside ∈ polygons.map (pointInPolygon point) then .inside
        else .outside
  | [], inside => by simp [polygonsLoop]
  | polygon :: polygons, inside => by
    rw [polygonsLoop, List.map_cons]
    rcases hrelation : pointInPolygon point polygon with _ | _ | _
    · simp [polygonsLoop_eq point polygons]
    · simp
    · simp [polygonsLoop_eq point polygons]

theorem locatePointInGeometry_eq {geometry : Geometry}
    (h : ∀ coordinates, geometry ≠ .point coordinates) : locatePointInGeometry point geometry
      = if .boundary ∈ geometry.polygons.map (pointInPolygon point) then .boundary
        else if .inside ∈ geometry.polygons.map (pointInPolygon point) then .inside
        else .outside := by
  rcases geometry with coordinates | coordinates | coordinates
  · exact absurd rfl (h coordinates)
  · exact (polygonsLoop_eq point _ false).trans (by simp only [Bool.false_eq_true, false_or])
  · exact (polygonsLoop_eq point _ false).trans (by simp only [Bool.false_eq_true, false_or])

theorem Geometry.Rewritten.polygons {geometry geometry' : Geometry}
    (h : geometry.Rewritten geometry') :
    List.Forall₂ (List.Forall₂ PointLocation.Rewritten) geometry.polygons geometry'.polygons := by
  cases h with
  | point _ => exact .nil
  | polygon h => exact .cons h .nil
  | multiPolygon h => exact h

theorem Geometry.Rewritten.ne_point {geometry geometry' : Geometry}
    (h : geometry.Rewritten geometry') (hne : ∀ coordinates, geometry ≠ .point coordinates) :
    ∀ coordinates, geometry' ≠ .point coordinates := by
  cases h with
  | point coordinates => exact absurd rfl (hne coordinates)
  | polygon _ => exact fun _ h => by cases h
  | multiPolygon _ => exact fun _ h => by cases h

def Geometry.map (f : LinearRing → LinearRing) : Geometry → Geometry
  | .point coordinates => .point coordinates
  | .polygon coordinates => .polygon (coordinates.map f)
  | .multiPolygon coordinates => .multiPolygon (coordinates.map (·.map f))

theorem Geometry.polygons_map (f : LinearRing → LinearRing) (geometry : Geometry) :
    (geometry.map f).polygons = geometry.polygons.map (·.map f) := by
  cases geometry <;> rfl

theorem Geometry.rewritten_map {f : LinearRing → LinearRing}
    (hf : ∀ ring, PointLocation.Rewritten ring (f ring)) (geometry : Geometry) :
    geometry.Rewritten (geometry.map f) := by
  have hpolygon (rings : Polygon) : List.Forall₂ PointLocation.Rewritten rings (rings.map f) :=
    List.forall₂_map_right_iff.2 (List.forall₂_same.2 fun ring _ => hf ring)
  cases geometry with
  | point coordinates => exact .point coordinates
  | polygon coordinates => exact .polygon (hpolygon coordinates)
  | multiPolygon coordinates =>
    exact .multiPolygon (List.forall₂_map_right_iff.2
      (List.forall₂_same.2 fun polygon _ => hpolygon polygon))

theorem Geometry.rewritten_refl (geometry : Geometry) : geometry.Rewritten geometry := by
  have h := Geometry.rewritten_map (fun ring => PointLocation.Rewritten.refl ring) geometry
  cases geometry <;> simpa [Geometry.map] using h

/-! ## Other ways to write a geometry -/

variable {geometry geometry' : Geometry}

/-- A geometry whose rings are closed. -/
def ClosedRings (geometry : Geometry) : Prop :=
  ∀ polygon ∈ geometry.polygons, ∀ ring ∈ polygon, Closed ring

variable (point) in
/-- Each polygon is where the edges say, or at the boundary where they leave that open. -/
theorem polygons_rewritten (hclosed : ClosedRings geometry) (h : geometry.Rewritten geometry') :
    List.Forall₂ (fun polygon polygon' =>
        pointInPolygon point polygon' = polygonBy (settled point) polygon
          ∨ (pointInPolygon point polygon' = .boundary
            ∧ ∃ ring ∈ readRings point polygon, Unsettled point ring))
      geometry.polygons geometry'.polygons :=
  ((List.forall₂_and_left _ _).2 ⟨hclosed, h.polygons⟩).imp fun _ _ hpolygon =>
    pointInPolygon_rewritten hpolygon.1 hpolygon.2

theorem exists_of_forall₂ {α β : Type} {R : α → β → Prop} {l : List α} {l' : List β}
    (h : List.Forall₂ R l l') {a : α} (ha : a ∈ l) : ∃ b ∈ l', R a b := by
  induction h with
  | nil => cases ha
  | cons hab _ ih =>
    rcases List.mem_cons.1 ha with rfl | ha
    · exact ⟨_, List.mem_cons_self, hab⟩
    · obtain ⟨b, hb, hab⟩ := ih ha
      exact ⟨b, List.mem_cons_of_mem _ hb, hab⟩

/-- Where the point is by the edges of the rings. -/
def settledLocation (point : Position) (geometry : Geometry) : SpatialRelation :=
  if .boundary ∈ geometry.polygons.map (polygonBy (settled point)) then .boundary
  else if .inside ∈ geometry.polygons.map (polygonBy (settled point)) then .inside
  else .outside

theorem locate_of_settled (hclosed : ClosedRings geometry)
    (hne : ∀ coordinates, geometry ≠ .point coordinates) (hsettled : Settled point geometry)
    (h : geometry.Rewritten geometry') :
    locatePointInGeometry point geometry' = settledLocation point geometry := by
  have hpolygons := polygons_rewritten point hclosed h
  rw [locatePointInGeometry_eq (h.ne_point hne), settledLocation]
  rcases hsettled with ⟨polygon, hpolygon, hring⟩ | hsettled
  · have hboundary := polygonBy_eq_boundary.2 hring
    obtain ⟨polygon', hpolygon', hrelation⟩ := exists_of_forall₂ hpolygons hpolygon
    have hboundary' : pointInPolygon point polygon' = .boundary := by
      rcases hrelation with hrelation | hrelation
      · rw [hrelation, hboundary]
      · exact hrelation.1
    rw [if_pos (List.mem_map.2 ⟨polygon', hpolygon', hboundary'⟩),
      if_pos (List.mem_map.2 ⟨polygon, hpolygon, hboundary⟩)]
  · have hmap : geometry.polygons.map (polygonBy (settled point))
        = geometry'.polygons.map (pointInPolygon point) := by
      rw [← List.forall₂_eq_eq_eq, List.forall₂_map_left_iff, List.forall₂_map_right_iff]
      refine ((List.forall₂_and_left _ _).2 ⟨hsettled, hpolygons⟩).imp fun polygon polygon' h => ?_
      rcases h.2 with hrelation | ⟨-, ring, hring, hunsettled⟩
      · exact hrelation.symm
      · exact absurd hunsettled (h.1 ring hring)
    rw [hmap]

variable (point) in
/-- The rings written so that the edges decide, and so that the starts do where they can. -/
theorem exists_writings (hclosed : ClosedRings geometry)
    (hne : ∀ coordinates, geometry ≠ .point coordinates) :
    (∃ geometry', geometry.Rewritten geometry'
        ∧ locatePointInGeometry point geometry' = settledLocation point geometry)
      ∧ ((∃ polygon ∈ geometry.polygons, ∃ ring ∈ readRings point polygon, Unsettled point ring) →
        ∃ geometry', geometry.Rewritten geometry'
          ∧ locatePointInGeometry point geometry' = .boundary) := by
  have hsettle (ring : LinearRing) : ∃ ring', Rewritten ring ring'
      ∧ (Closed ring → pointInRing point ring' = settled point ring) := by
    by_cases h : Closed ring ∧ Unsettled point ring
    · obtain ⟨ring', hrewritten, hring'⟩ := (exists_rewritten h.1 h.2).1
      exact ⟨ring', hrewritten, fun _ => hring'⟩
    · refine ⟨ring, .refl ring, fun hring => ?_⟩
      rcases pointInRing_rewritten point hring (.refl ring) with hsame | hunsettled
      · exact hsame
      · exact absurd ⟨hring, hunsettled.1⟩ h
  have hstart (ring : LinearRing) : ∃ ring', Rewritten ring ring'
      ∧ (Closed ring → (Unsettled point ring → pointInRing point ring' = .boundary)
        ∧ (¬ Unsettled point ring → pointInRing point ring' = settled point ring)) := by
    by_cases h : Closed ring ∧ Unsettled point ring
    · obtain ⟨ring', hrewritten, hring'⟩ := (exists_rewritten h.1 h.2).2
      exact ⟨ring', hrewritten, fun _ => ⟨fun _ => hring', fun hsure => absurd h.2 hsure⟩⟩
    · refine ⟨ring, .refl ring, fun hring => ⟨fun hunsettled => absurd ⟨hring, hunsettled⟩ h, ?_⟩⟩
      intro hsure
      rcases pointInRing_rewritten point hring (.refl ring) with hsame | hunsettled
      · exact hsame
      · exact absurd hunsettled.1 hsure
  choose settle hsettle hsettled using hsettle
  choose start hstart hstarted using hstart
  have hne_map (f : LinearRing → LinearRing) (hf : ∀ ring, Rewritten ring (f ring)) :=
    (Geometry.rewritten_map hf geometry).ne_point hne
  constructor
  · refine ⟨geometry.map settle, Geometry.rewritten_map hsettle geometry, ?_⟩
    have hmap : (geometry.map settle).polygons.map (pointInPolygon point)
        = geometry.polygons.map (polygonBy (settled point)) := by
      rw [Geometry.polygons_map, List.map_map]
      refine List.map_congr_left fun polygon hpolygon => ?_
      rw [Function.comp_apply, pointInPolygon_map]
      exact polygonBy_congr fun ring hring => hsettled ring (hclosed polygon hpolygon ring hring)
    rw [locatePointInGeometry_eq (hne_map settle hsettle), hmap, settledLocation]
  · rintro ⟨polygon, hpolygon, hunsettled⟩
    refine ⟨geometry.map start, Geometry.rewritten_map hstart geometry, ?_⟩
    rw [locatePointInGeometry_eq (hne_map start hstart), Geometry.polygons_map, List.map_map]
    refine if_pos (List.mem_map.2 ⟨polygon, hpolygon, ?_⟩)
    rw [Function.comp_apply, pointInPolygon_map]
    exact polygonBy_of_unsettled (fun ring hring =>
      hstarted ring (hclosed polygon hpolygon ring hring)) hunsettled

/-- The location is the same however the rings are written just where it is settled. -/
theorem rewritten_iff (hclosed : ClosedRings geometry)
    (hne : ∀ coordinates, geometry ≠ .point coordinates) :
    (∀ geometry', geometry.Rewritten geometry' →
        locatePointInGeometry point geometry' = locatePointInGeometry point geometry)
      ↔ Settled point geometry := by
  constructor
  · intro h
    obtain ⟨⟨geometry₁, h₁, hlocate₁⟩, hstarts⟩ := exists_writings point hclosed hne
    by_contra hnot
    simp only [Settled, not_or, not_forall, not_not, exists_prop, not_exists, not_and] at hnot
    obtain ⟨geometry₂, h₂, hlocate₂⟩ := hstarts hnot.2
    have hsame : settledLocation point geometry = .boundary := by
      rw [← hlocate₁, h geometry₁ h₁, ← h geometry₂ h₂, hlocate₂]
    unfold settledLocation at hsame
    split_ifs at hsame with hboundary
    obtain ⟨polygon, hpolygon, hrelation⟩ := List.mem_map.1 hboundary
    obtain ⟨ring, hring, hsettled⟩ := polygonBy_eq_boundary.1 hrelation
    exact hnot.1 polygon hpolygon ring hring hsettled
  · intro hsettled geometry' h
    rw [locate_of_settled hclosed hne hsettled h,
      locate_of_settled hclosed hne hsettled geometry.rewritten_refl]

/-! ## Crossings -/

variable (point) in
/-- Off the boundary a ring has the point inside where it is crossed an odd number of times. -/
theorem pointInRing_cases (hclosed : Closed ring) :
    pointInRing point ring = .boundary
      ∨ (pointInRing point ring = .inside ∧ Odd (crossings point ring))
      ∨ (pointInRing point ring = .outside ∧ Even (crossings point ring)) := by
  obtain ⟨start, middle, hring⟩ := hclosed
  rw [pointInRing_closed hring]
  split_ifs with hboundary hodd
  · exact .inl rfl
  · exact .inr (.inl ⟨rfl, Nat.odd_iff.2 hodd⟩)
  · exact .inr (.inr ⟨rfl, Nat.even_iff.2 (Nat.mod_two_ne_one.1 hodd)⟩)

theorem holesLoop_eq_inside {holes : List LinearRing} (hclosed : ∀ ring ∈ holes, Closed ring)
    (h : holesLoop point holes ≠ .boundary) :
    holesLoop point holes = .inside ↔ ∀ hole ∈ holes, Even (crossings point hole) := by
  induction holes with
  | nil => exact iff_of_true rfl (by simp)
  | cons hole holes ih =>
    rw [List.forall_mem_cons] at hclosed ⊢
    rw [holesLoop] at h ⊢
    rcases pointInRing_cases point hclosed.1 with hhole | ⟨hhole, hodd⟩ | ⟨hhole, heven⟩
    · rw [hhole] at h
      exact absurd rfl h
    · rw [hhole]
      exact iff_of_false (by simp) fun hall => (Nat.not_even_iff_odd.2 hodd) hall.1
    · rw [hhole] at h ⊢
      rw [ih hclosed.2 h]
      exact ⟨fun hrest => ⟨heven, hrest⟩, fun hall => hall.2⟩

theorem pointInPolygon_eq_inside {polygon : Polygon} (hclosed : ∀ ring ∈ polygon, Closed ring)
    (h : pointInPolygon point polygon ≠ .boundary) :
    pointInPolygon point polygon = .inside ↔ InsidePolygon point polygon := by
  rcases polygon with _ | ⟨outer, holes⟩
  · exact iff_of_false (by simp [pointInPolygon]) not_false
  · rw [List.forall_mem_cons] at hclosed
    rw [pointInPolygon] at h ⊢
    rw [InsidePolygon]
    rcases pointInRing_cases point hclosed.1 with hring | ⟨hring, hodd⟩ | ⟨hring, heven⟩
    · rw [hring] at h
      exact absurd rfl h
    · rw [hring] at h ⊢
      rw [← holesLoop_eq_inside hclosed.2 h]
      exact ⟨fun hinside => ⟨hodd, hinside⟩, fun hinside => hinside.2⟩
    · rw [hring]
      exact iff_of_false (by simp) fun hinside => (Nat.not_odd_iff_even.2 heven) hinside.1

theorem odd_sum_iff {holes : List LinearRing} (h : holes.Pairwise fun hole hole' =>
      ¬ (Odd (crossings point hole) ∧ Odd (crossings point hole'))) :
    Odd (holes.map (crossings point)).sum ↔ ∃ hole ∈ holes, Odd (crossings point hole) := by
  induction holes with
  | nil => simp
  | cons hole holes ih =>
    rw [List.pairwise_cons] at h
    rw [List.map_cons, List.sum_cons, Nat.odd_add, ← Nat.not_odd_iff_even, ih h.2]
    by_cases hodd : Odd (crossings point hole)
    · refine iff_of_true (iff_of_true hodd ?_) ⟨hole, List.mem_cons_self, hodd⟩
      rintro ⟨hole', hmem, hodd'⟩
      exact h.1 hole' hmem ⟨hodd, hodd'⟩
    · simp [hodd]

theorem insidePolygon_iff_odd {polygon : Polygon} (h : Nested point polygon) :
    InsidePolygon point polygon ↔ Odd (polygon.map (crossings point)).sum := by
  rcases polygon with _ | ⟨outer, holes⟩
  · simp [InsidePolygon]
  · have hnone : (∀ hole ∈ holes, Even (crossings point hole))
        ↔ ¬ ∃ hole ∈ holes, Odd (crossings point hole) := by
      simp only [not_exists, not_and, Nat.not_odd_iff_even]
    rw [InsidePolygon, List.map_cons, List.sum_cons, Nat.odd_add, ← Nat.not_odd_iff_even,
      odd_sum_iff h.2, hnone]
    constructor
    · exact fun hinside => iff_of_true hinside.1 hinside.2
    · intro hiff
      have hodd : Odd (crossings point outer) := by
        by_contra hodd
        obtain ⟨hole, hmem, hhole⟩ := not_not.1 (mt hiff.2 hodd)
        exact hodd (h.1 hole hmem hhole)
      exact ⟨hodd, hiff.1 hodd⟩

variable (point) in
theorem locate_eq_inside (hclosed : ClosedRings geometry)
    (hne : ∀ coordinates, geometry ≠ .point coordinates)
    (h : locatePointInGeometry point geometry ≠ .boundary) :
    locatePointInGeometry point geometry = .inside
      ↔ ∃ polygon ∈ geometry.polygons, InsidePolygon point polygon := by
  rw [locatePointInGeometry_eq hne] at h ⊢
  by_cases hboundary : .boundary ∈ geometry.polygons.map (pointInPolygon point)
  · exact absurd (if_pos hboundary) h
  · have hpolygon : ∀ polygon ∈ geometry.polygons, pointInPolygon point polygon = .inside
        ↔ InsidePolygon point polygon := fun polygon hpolygon =>
      pointInPolygon_eq_inside (hclosed polygon hpolygon) fun heq =>
        hboundary (List.mem_map.2 ⟨polygon, hpolygon, heq⟩)
    have hinside : .inside ∈ geometry.polygons.map (pointInPolygon point)
        ↔ ∃ polygon ∈ geometry.polygons, InsidePolygon point polygon := by
      rw [List.mem_map]
      exact exists_congr fun polygon => and_congr_right fun hmem => hpolygon polygon hmem
    rw [if_neg hboundary, ← hinside]
    split_ifs with hmem <;> simp [hmem]

/-- A geometry is located as it should be just where the point is settled. -/
theorem located_iff (hclosed : ClosedRings geometry) :
    Located point geometry ↔ Settled point geometry := by
  by_cases hne : ∀ coordinates, geometry ≠ .point coordinates
  · have hinside := locate_eq_inside point hclosed hne
    refine ⟨fun h => (rewritten_iff hclosed hne).1 h.rewritten, fun h =>
      ⟨(rewritten_iff hclosed hne).2 h, hinside, fun hoff hnested => (hinside hoff).trans ?_⟩⟩
    exact exists_congr fun polygon => and_congr_right fun hmem =>
      insidePolygon_iff_odd (hnested polygon hmem)
  · obtain ⟨coordinates, rfl⟩ : ∃ coordinates, geometry = .point coordinates := by
      simpa using hne
    have houtside : locatePointInGeometry point (.point coordinates) ≠ .inside := by
      rw [locatePointInGeometry]
      split_ifs <;> simp
    refine iff_of_true ⟨fun geometry' h => ?_, fun _ => ?_, fun _ _ => ?_⟩ (.inr ?_)
    · cases h
      rfl
    · exact iff_of_false houtside (by simp [Geometry.polygons])
    · exact iff_of_false houtside (by simp [Geometry.polygons])
    · simp [Geometry.polygons]

/-! ## A point beside the start of a triangle -/

def triangle : LinearRing := [(0, 0), (10, 5), (10, 10), (0, 0)]

def beside : Position := (1 / 10 ^ 10, -(1 / 10 ^ 10))

theorem closedRings_triangle : ClosedRings (.polygon [triangle]) := by
  simp only [ClosedRings, Geometry.polygons, List.mem_singleton, forall_eq]
  exact ⟨(0, 0), [(10, 5), (10, 10)], rfl⟩

theorem located_iff_triangle :
    Located beside (.polygon [triangle]) ↔ Settled beside (.polygon [triangle]) :=
  located_iff closedRings_triangle

/-- The point is at the boundary where the ring starts at the corner beside it, and outside where
it starts at the next one. -/
theorem triangle_not_located :
    ClosedRings (.polygon [triangle])
      ∧ Geometry.Rewritten (.polygon [triangle]) (.polygon [rotateStart triangle])
      ∧ locatePointInGeometry beside (.polygon [triangle]) = .boundary
      ∧ locatePointInGeometry beside (.polygon [rotateStart triangle]) = .outside
      ∧ ¬ Located beside (.polygon [triangle]) := by
  have hrewritten : Geometry.Rewritten (.polygon [triangle]) (.polygon [rotateStart triangle]) :=
    .polygon (.cons (.rotate (.refl _)) .nil)
  have hstart : locatePointInGeometry beside (.polygon [triangle]) = .boundary := by
    decide +kernel
  have hnext : locatePointInGeometry beside (.polygon [rotateStart triangle]) = .outside := by
    decide +kernel
  refine ⟨closedRings_triangle, hrewritten, hstart, hnext, fun h => ?_⟩
  have hsame := h.rewritten _ hrewritten
  rw [hstart, hnext] at hsame
  cases hsame

end Agid.PointLocation
