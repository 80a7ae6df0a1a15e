import Agid.Clock
import Agid.Grid
import Agid.JsText
import Agid.Lib.Postings

/-!
# The spatial address index

`createSpatialAddressIndex` of `src/lib/spatialAddressIndex.ts`: the records by id and five inverted
indexes, and the candidates of a search.  What the index calls in other files (search texts, the
decoding of an AGID, the bounds around a point) is the platform's, and a record has the fields its keys
are made of.  Coordinates are exact, but the index of a bucket is rounded as a double is.
-/

namespace Agid.SpatialIndex

/-! ## Coordinates -/

/-- Bounds as a caller gives them.  A longitude is finite or none for `NaN`: an infinite one never
leaves the loops of `normalizeLongitude`. -/
structure SpatialAddressBounds where
  minLat : JsNumber
  minLon : Option ℚ
  maxLat : JsNumber
  maxLon : Option ℚ

/-- `while (result > 180) result -= 360`, so many times at most. -/
def lowerLongitude : ℕ → ℚ → ℚ
  | 0, lon => lon
  | n + 1, lon => if 180 < lon then lowerLongitude n (lon - 360) else lon

/-- `while (result < -180) result += 360`, so many times at most. -/
def raiseLongitude : ℕ → ℚ → ℚ
  | 0, lon => lon
  | n + 1, lon => if lon < -180 then raiseLongitude n (lon + 360) else lon

def normalizeLongitude (lon : ℚ) : ℚ :=
  let lowered := lowerLongitude ⌈lon⌉.toNat lon
  raiseLongitude (-⌊lowered⌋).toNat lowered

def clamp (value min max : ℚ) : ℚ := Min.min max (Max.max min value)

def normalizeLatitude (lat : ℚ) : ℚ := clamp lat (-90) 90

/-- `Math.min`. -/
def minNumber : JsNumber → JsNumber → JsNumber
  | .nan, _ => .nan
  | _, .nan => .nan
  | .negInfinity, _ => .negInfinity
  | _, .negInfinity => .negInfinity
  | .infinity, y => y
  | x, .infinity => x
  | .finite p, .finite q => .finite (min p q)

/-- `Math.max`. -/
def maxNumber : JsNumber → JsNumber → JsNumber
  | .nan, _ => .nan
  | _, .nan => .nan
  | .infinity, _ => .infinity
  | _, .infinity => .infinity
  | .negInfinity, y => y
  | x, .negInfinity => x
  | .finite p, .finite q => .finite (max p q)

/-- `normalizeLatitude`, none for `NaN`. -/
def latitude? : JsNumber → Option ℚ
  | .finite q => some (normalizeLatitude q)
  | .infinity => some 90
  | .negInfinity => some (-90)
  | .nan => none

theorem lowerLongitude_le : ∀ {n : ℕ} {lon : ℚ}, lon ≤ n → lowerLongitude n lon ≤ 180
  | 0, lon, h => by
    rw [lowerLongitude]
    push_cast at h
    linarith
  | n + 1, lon, h => by
    rw [lowerLongitude]
    push_cast at h
    split_ifs with hlon
    · exact lowerLongitude_le (by linarith)
    · exact not_lt.1 hlon

theorem le_lowerLongitude : ∀ {n : ℕ} {lon : ℚ}, -180 ≤ lon → -180 ≤ lowerLongitude n lon
  | 0, _, h => h
  | n + 1, lon, h => by
    rw [lowerLongitude]
    split_ifs with hlon
    · exact le_lowerLongitude (by linarith)
    · exact h

theorem le_raiseLongitude : ∀ {n : ℕ} {lon : ℚ}, -lon ≤ n → -180 ≤ raiseLongitude n lon
  | 0, lon, h => by
    rw [raiseLongitude]
    push_cast at h
    linarith
  | n + 1, lon, h => by
    rw [raiseLongitude]
    push_cast at h
    split_ifs with hlon
    · exact le_raiseLongitude (by linarith)
    · exact not_lt.1 hlon

theorem raiseLongitude_le : ∀ {n : ℕ} {lon : ℚ}, lon ≤ 180 → raiseLongitude n lon ≤ 180
  | 0, _, h => h
  | n + 1, lon, h => by
    rw [raiseLongitude]
    split_ifs with hlon
    · exact raiseLongitude_le (by linarith)
    · exact h

/-- The loops end in a longitude. -/
theorem normalizeLongitude_mem (lon : ℚ) :
    -180 ≤ normalizeLongitude lon ∧ normalizeLongitude lon ≤ 180 := by
  have hlowered : lowerLongitude ⌈lon⌉.toNat lon ≤ 180 :=
    lowerLongitude_le ((Int.le_ceil lon).trans (by exact_mod_cast Int.self_le_toNat _))
  refine ⟨le_raiseLongitude ?_, raiseLongitude_le hlowered⟩
  have hfloor := Int.floor_le (lowerLongitude ⌈lon⌉.toNat lon)
  have hnat : ((-⌊lowerLongitude ⌈lon⌉.toNat lon⌋ : ℤ) : ℚ)
      ≤ ((-⌊lowerLongitude ⌈lon⌉.toNat lon⌋).toNat : ℤ) := by
    exact_mod_cast Int.self_le_toNat _
  push_cast at hnat ⊢
  linarith

theorem normalizeLatitude_mem (lat : ℚ) :
    -90 ≤ normalizeLatitude lat ∧ normalizeLatitude lat ≤ 90 :=
  ⟨le_min (by norm_num) (le_max_left _ _), min_le_left _ _⟩

theorem normalizeLatitude_mono : Monotone normalizeLatitude :=
  fun _ _ h => min_le_min_left _ (max_le_max_left _ h)

theorem latitude?_mem {x : JsNumber} {lat : ℚ} (h : latitude? x = some lat) :
    -90 ≤ lat ∧ lat ≤ 90 := by
  cases x <;> cases h
  · exact normalizeLatitude_mem _
  · norm_num
  · norm_num

theorem latitude?_min_le_max {x y : JsNumber} {lat lat' : ℚ}
    (h : latitude? (minNumber x y) = some lat) (h' : latitude? (maxNumber x y) = some lat') :
    lat ≤ lat' := by
  cases x <;> cases y <;> cases h <;> cases h'
  · exact normalizeLatitude_mono min_le_max
  · exact (normalizeLatitude_mem _).2
  · exact (normalizeLatitude_mem _).1
  · exact (normalizeLatitude_mem _).2
  · norm_num
  · norm_num
  · exact (normalizeLatitude_mem _).1
  · norm_num
  · norm_num

/-- What `normalizeBounds` makes of them. -/
structure NormalBounds where
  minLat : ℚ
  minLon : ℚ
  maxLat : ℚ
  maxLon : ℚ
  lat_le : minLat ≤ maxLat
  lat_mem : -90 ≤ minLat ∧ maxLat ≤ 90
  minLon_mem : -180 ≤ minLon ∧ minLon ≤ 180
  maxLon_mem : -180 ≤ maxLon ∧ maxLon ≤ 180

def normalizeBounds (bounds : SpatialAddressBounds) : Option NormalBounds :=
  match hmin : latitude? (minNumber bounds.minLat bounds.maxLat),
      hmax : latitude? (maxNumber bounds.minLat bounds.maxLat), bounds.minLon, bounds.maxLon with
  | some minLat, some maxLat, some minLon, some maxLon =>
    some ⟨minLat, normalizeLongitude minLon, maxLat, normalizeLongitude maxLon,
      latitude?_min_le_max hmin hmax, ⟨(latitude?_mem hmin).1, (latitude?_mem hmax).2⟩,
      normalizeLongitude_mem minLon, normalizeLongitude_mem maxLon⟩
  | _, _, _, _ => none

structure Point where
  lat : ℚ
  lon : ℚ

/-- Bounds that are passed on. -/
def NormalBounds.toBounds (bounds : NormalBounds) : SpatialAddressBounds where
  minLat := .finite bounds.minLat
  minLon := some bounds.minLon
  maxLat := .finite bounds.maxLat
  maxLon := some bounds.maxLon

def splitLongitudeRanges (bounds : NormalBounds) : List (ℚ × ℚ) :=
  if bounds.minLon ≤ bounds.maxLon then [(bounds.minLon, bounds.maxLon)]
  else [(bounds.minLon, 180), (-180, bounds.maxLon)]

def boundsOverlap (a b : SpatialAddressBounds) : Bool :=
  match normalizeBounds a, normalizeBounds b with
  | some a, some b =>
    if max a.minLat b.minLat ≤ min a.maxLat b.maxLat then
      (splitLongitudeRanges a).any fun aRange => (splitLongitudeRanges b).any fun bRange =>
        max aRange.1 bRange.1 ≤ min aRange.2 bRange.2
    else false
  | _, _ => false

/-! ## Platform -/

/-- What `decodeAGID` reads from an id. -/
structure Decoded where
  lat : ℚ
  lon : ℚ
  bounds : SpatialAddressBounds

/-- What is called in other files and by the engine: `isTermChar` is `[a-z0-9\p{L}\p{N}]` and `round`
the double nearest to a number. -/
structure Platform where
  toUpperCase : JsString → JsString
  normalizeSearchText : JsString → JsString
  expandSearchQuery : JsString → List JsString
  isTermChar : JsString → Bool
  decodeAGID : JsString → Option Decoded
  boundsFromPointRadius : Point → JsNumber → SpatialAddressBounds
  round : ℚ → ℚ
  round_mono : Monotone round

structure SpatialAddressIndexOptions where
  bucketSizeDegrees : ℚ
  maxBucketKeysPerRecord : ℚ
  maxQueryBucketKeys : ℚ

section Keys

variable (P : Platform) (options : SpatialAddressIndexOptions)

/-! ## Buckets -/

def bucketIndexForLat (lat bucketSize : ℚ) : ℤ :=
  ⌊P.round (P.round (normalizeLatitude lat + 90) / bucketSize)⌋

def bucketIndexForLon (lon bucketSize : ℚ) : ℤ :=
  ⌊P.round (P.round (normalizeLongitude lon + 180) / bucketSize)⌋

def bucketKey (latIndex lonIndex : ℤ) : JsString :=
  js (toString latIndex) ++ js ":" ++ js (toString lonIndex)

/-- `for (let index = low; index <= high; index += 1)`. -/
def indexesFrom (low high : ℤ) : List ℤ :=
  (List.range (high - low + 1).toNat).map fun i : ℕ => low + i

/-- The key that stands for bounds of too many buckets: that of their centre. -/
def centerKey (bounds : NormalBounds) (lonRange : ℚ × ℚ) (bucketSize : ℚ) : JsString :=
  bucketKey
    (bucketIndexForLat P (P.round (P.round (bounds.minLat + bounds.maxLat) / 2)) bucketSize)
    (bucketIndexForLon P (P.round (P.round (lonRange.1 + lonRange.2) / 2)) bucketSize)

/-- The buckets of bounds in the order they are taken, each with the range of longitudes it is of. -/
def bucketsOf (bounds : NormalBounds) (bucketSize : ℚ) : List ((ℚ × ℚ) × JsString) :=
  (splitLongitudeRanges bounds).flatMap fun lonRange =>
    (indexesFrom (bucketIndexForLat P bounds.minLat bucketSize)
      (bucketIndexForLat P bounds.maxLat bucketSize)).flatMap fun latIndex =>
      (indexesFrom (bucketIndexForLon P lonRange.1 bucketSize)
        (bucketIndexForLon P lonRange.2 bucketSize)).map fun lonIndex =>
        (lonRange, bucketKey latIndex lonIndex)

/-- `set.add(value)`. -/
def insertNew (values : List JsString) (value : JsString) : List JsString :=
  if value ∈ values then values else values ++ [value]

/-- The loops of `bucketKeysForBounds`, which end early once there are too many keys. -/
def collectKeys (bounds : NormalBounds) (bucketSize maxKeys : ℚ) :
    List JsString → List ((ℚ × ℚ) × JsString) → List JsString
  | keys, [] => keys
  | keys, (lonRange, key) :: buckets =>
    if maxKeys < (insertNew keys key).length then [centerKey P bounds lonRange bucketSize]
    else collectKeys bounds bucketSize maxKeys (insertNew keys key) buckets

def bucketKeysForBounds (bounds : SpatialAddressBounds) (bucketSize maxKeys : ℚ) : List JsString :=
  match normalizeBounds bounds with
  | none => []
  | some normalized =>
    collectKeys P normalized bucketSize maxKeys [] (bucketsOf P normalized bucketSize)

/-! ## Records -/

/-- The texts are those of all values that are strings or numbers. -/
structure Canonical where
  country_code : Option JsString
  postcode : Option JsString
  texts : List JsString

structure SpatialAddressRecord where
  id : JsString
  label : Option JsString
  addressText : Option JsString
  aliases : Option (List JsString)
  canonical : Option Canonical
  countryCode : Option JsString
  postcode : Option JsString
  agid : Option JsString
  lat : Option JsNumber
  lon : Option JsNumber
  bounds : Option SpatialAddressBounds
  source : Option JsString
  tags : Option (List JsString)

/-- `value || undefined`. -/
def nonEmpty (value : JsString) : Option JsString := if value = [] then none else some value

def normalizeCountry (country : Option JsString) : Option JsString :=
  country.bind fun s => nonEmpty (P.toUpperCase (trim s))

def normalizePostcode (postcode : Option JsString) : Option JsString :=
  postcode.bind fun s =>
    nonEmpty (P.toUpperCase (s.filter fun c => ¬ isWhiteSpace c ∧ c ≠ 45))

/-- The runs of characters of a class. -/
def splitRuns (isMember : JsString → Bool) : JsString → List JsString → List JsString
  | run, [] => [run]
  | run, c :: s => if isMember c then splitRuns isMember (run ++ c) s else run :: splitRuns isMember [] s

def tokenSetFromText (text : JsString) : List JsString :=
  ((splitRuns P.isTermChar [] (chars (P.normalizeSearchText text))).filter
    fun token => 2 ≤ token.length).eraseDups

def joinWords (words : List JsString) : JsString := [32].intercalate words

def buildDocument (record : SpatialAddressRecord) : JsString :=
  joinWords (([some record.id, record.label, record.addressText]
    ++ (record.aliases.getD []).map some ++ (record.tags.getD []).map some
    ++ ((record.canonical.map Canonical.texts).getD []).map some
    ++ [record.countryCode, record.canonical.bind Canonical.country_code, record.postcode,
      record.canonical.bind Canonical.postcode, record.agid, record.source]).filterMap
        fun value => value.bind nonEmpty)

def normalizeAGIDInput (value : Option JsString) : Option JsString :=
  value.bind fun s => nonEmpty (P.toUpperCase (trim s))

/-- `isValidAGIDFormat` cleans the id once more. -/
def agidPrefixKeys (agid : Option JsString) : List JsString :=
  match normalizeAGIDInput P agid with
  | none => []
  | some normalized =>
    if (normalizeAGIDInput P (some normalized)).any Agid.isValidAGIDFormat then
      [normalized.take 2, normalized.take 4, normalized].eraseDups
    else []

/-- `Number.isFinite(value) ? Number(value) : other`. -/
def finiteOr (value : Option JsNumber) (other : Option ℚ) : Option ℚ :=
  match value with
  | some (.finite q) => some q
  | _ => other

def pointOf (lat lon : Option ℚ) : Option Point :=
  match lat, lon with
  | some lat, some lon => some ⟨normalizeLatitude lat, normalizeLongitude lon⟩
  | _, _ => none

structure Geometry where
  point : Option Point
  bounds : Option NormalBounds

/-- `geometryFromRecord` without the keys, and `queryGeometry`: the bounds that are given, those of the
AGID, or those made of the point. -/
def geometryOf (agid : Option JsString) (lat lon : Option JsNumber)
    (bounds : Option SpatialAddressBounds) (around : Point → SpatialAddressBounds) : Geometry :=
  let decoded := (agid.bind nonEmpty).bind P.decodeAGID
  let point := pointOf (finiteOr lat (decoded.map Decoded.lat)) (finiteOr lon (decoded.map Decoded.lon))
  ⟨point, ((bounds.or (decoded.map Decoded.bounds)).or (point.map around)).bind normalizeBounds⟩

def geometryFromRecord (record : SpatialAddressRecord) : Geometry :=
  geometryOf P record.agid record.lat record.lon record.bounds fun point =>
    ⟨.finite point.lat, some point.lon, .finite point.lat, some point.lon⟩

/-! ## The index -/

structure IndexedRecord where
  record : SpatialAddressRecord
  document : JsString
  normalizedDocument : JsString
  terms : List JsString
  spatialKeys : List JsString
  countryKey : Option JsString
  postcodeKey : Option JsString
  agidKeys : List JsString
  point : Option Point
  bounds : Option NormalBounds

/-- What is stored for a record. -/
def indexed (record : SpatialAddressRecord) : IndexedRecord :=
  let document := buildDocument record
  let countryKey := normalizeCountry P
    (record.countryCode.or (record.canonical.bind Canonical.country_code))
  let postcode := record.postcode.or (record.canonical.bind Canonical.postcode)
  let geometry := geometryFromRecord P record
  { record := { record with
      countryCode := countryKey.or record.countryCode
      postcode := postcode }
    document := document
    normalizedDocument := P.normalizeSearchText document
    terms := tokenSetFromText P document
    spatialKeys := (geometry.bounds.map fun bounds =>
      bucketKeysForBounds P bounds.toBounds options.bucketSizeDegrees
        options.maxBucketKeysPerRecord).getD []
    countryKey := countryKey
    postcodeKey := normalizePostcode P postcode
    agidKeys := agidPrefixKeys P record.agid
    point := geometry.point
    bounds := geometry.bounds }

abbrev Index := Postings JsString JsString

structure SpatialAddressIndex where
  records : Record JsString IndexedRecord
  spatialBuckets : Index
  termIndex : Index
  countryIndex : Index
  postcodeIndex : Index
  agidIndex : Index

def SpatialAddressIndex.empty : SpatialAddressIndex :=
  ⟨.empty, .empty, .empty, .empty, .empty, .empty⟩

/-- `addToIndex`, which takes no empty key. -/
def addToIndex (index : Index) (key : Option JsString) (id : JsString) : Index :=
  match key.bind nonEmpty with
  | none => index
  | some key => index.add key id

def removeFromIndex (index : Index) (key : Option JsString) (id : JsString) : Index :=
  match key.bind nonEmpty with
  | none => index
  | some key => index.remove key id

def addAllToIndex (index : Index) (keys : List JsString) (id : JsString) : Index :=
  keys.foldl (fun index key => addToIndex index (some key) id) index

def removeAllFromIndex (index : Index) (keys : List JsString) (id : JsString) : Index :=
  keys.foldl (fun index key => removeFromIndex index (some key) id) index

def remove (index : SpatialAddressIndex) (id : JsString) : Bool × SpatialAddressIndex :=
  match index.records.get? id with
  | none => (false, index)
  | some existing =>
    (true,
      { spatialBuckets := removeAllFromIndex index.spatialBuckets existing.spatialKeys id
        termIndex := removeAllFromIndex index.termIndex existing.terms id
        countryIndex := removeFromIndex index.countryIndex existing.countryKey id
        postcodeIndex := removeFromIndex index.postcodeIndex existing.postcodeKey id
        agidIndex := removeAllFromIndex index.agidIndex existing.agidKeys id
        records := index.records.erase id })

def idRequired : JsString := js "SpatialAddressRecord.id is required"

def add (index : SpatialAddressIndex) (record : SpatialAddressRecord) :
    Except JsString (SpatialAddressRecord × SpatialAddressIndex) :=
  if trim record.id = [] then .error idRequired
  else
    let removed := (remove index record.id).2
    let stored := indexed P options record
    .ok (stored.record,
      { records := removed.records.set record.id stored
        spatialBuckets := addAllToIndex removed.spatialBuckets stored.spatialKeys record.id
        termIndex := addAllToIndex removed.termIndex stored.terms record.id
        countryIndex := addToIndex removed.countryIndex stored.countryKey record.id
        postcodeIndex := addToIndex removed.postcodeIndex stored.postcodeKey record.id
        agidIndex := addAllToIndex removed.agidIndex stored.agidKeys record.id })

/-- The index that the initial records are added to. -/
def createSpatialAddressIndex (initialRecords : List SpatialAddressRecord) :
    Except JsString SpatialAddressIndex :=
  initialRecords.foldlM (fun index record => (add P options index record).map Prod.snd) .empty

/-- What a caller does to an index. -/
inductive Call where
  | add (record : SpatialAddressRecord)
  | remove (id : JsString)
  | clear

/-- An `add` that throws leaves the index as it is. -/
def call (index : SpatialAddressIndex) : Call → SpatialAddressIndex
  | .add record =>
    match add P options index record with
    | .ok (_, index') => index'
    | .error _ => index
  | .remove id => (remove index id).2
  | .clear => .empty

/-! ## Search -/

structure SpatialAddressSearchInput where
  query : Option JsString
  lat : Option JsNumber
  lon : Option JsNumber
  radiusKm : Option JsNumber
  bounds : Option SpatialAddressBounds
  countryCode : Option JsString
  postcode : Option JsString
  agid : Option JsString

def queryGeometry (input : SpatialAddressSearchInput) : Geometry :=
  geometryOf P input.agid input.lat input.lon input.bounds fun point =>
    P.boundsFromPointRadius point (input.radiusKm.getD (.finite 2))

/-- The ids under some of the keys. -/
def unionOf (index : Index) (keys : List JsString) : List JsString := keys.flatMap index.ids

/-- The sets a search starts from, each for a part of the input that is given. -/
def seedsOf (index : SpatialAddressIndex) (input : SpatialAddressSearchInput) :
    List (List JsString) :=
  let queryCandidates := ((input.query.bind nonEmpty).map P.expandSearchQuery).getD []
  let queryTerms := tokenSetFromText P (joinWords queryCandidates)
  let inputAgidKeys := agidPrefixKeys P input.agid
  (if queryTerms = [] then [] else [unionOf index.termIndex queryTerms])
    ++ (match (queryGeometry P input).bounds with
      | none => []
      | some bounds => [unionOf index.spatialBuckets
          (bucketKeysForBounds P bounds.toBounds options.bucketSizeDegrees
            options.maxQueryBucketKeys)])
    ++ (match normalizePostcode P input.postcode with
      | none => []
      | some postcodeKey => [index.postcodeIndex.ids postcodeKey])
    ++ (if inputAgidKeys = [] then [] else [unionOf index.agidIndex inputAgidKeys])

/-- `intersectWith`, where the input names a key. -/
def intersectWith (ids : List JsString) (index : Index) (key : Option JsString) : List JsString :=
  match key with
  | none => ids
  | some key => ids.filter fun id => id ∈ index.ids key

/-- The ids of `candidateIdsForSearch`. -/
def candidateIdsForSearch (index : SpatialAddressIndex) (input : SpatialAddressSearchInput) :
    List JsString :=
  let seeds := seedsOf P options index input
  let candidateIds := (if seeds = [] then index.records.keys else seeds.flatten).eraseDups
  intersectWith
    (intersectWith candidateIds index.countryIndex (normalizeCountry P input.countryCode))
    index.postcodeIndex (normalizePostcode P input.postcode)

end Keys

end Agid.SpatialIndex
