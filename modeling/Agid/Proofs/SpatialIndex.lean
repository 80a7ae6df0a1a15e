import Agid.SpatialIndex

/-!
# What the spatial address index holds

After any calls each inverted index has the pairs of a key and an id that the stored records make, and
no others.
-/

namespace Agid.SpatialIndex

variable {P : Platform} {options : SpatialAddressIndexOptions}

/-! ## Keys -/

theorem nonEmpty_of_ne {s : JsString} (h : s ≠ []) : nonEmpty s = some s := if_neg h

theorem ne_nil_of_nonEmpty {s t : JsString} (h : nonEmpty s = some t) : t ≠ [] := by
  unfold nonEmpty at h
  split_ifs at h with hs
  cases h
  exact hs

theorem bucketKey_ne_nil (i j : ℤ) : bucketKey i j ≠ [] := by
  simp [bucketKey, js]

theorem collectKeys_ne_nil {bounds : NormalBounds} {bucketSize maxKeys : ℚ} :
    ∀ {buckets : List ((ℚ × ℚ) × JsString)} {keys : List JsString},
      (∀ b ∈ buckets, b.2 ≠ []) → (∀ key ∈ keys, key ≠ []) →
      ∀ key ∈ collectKeys P bounds bucketSize maxKeys keys buckets, key ≠ []
  | [], _, _, hkeys => hkeys
  | (lonRange, key') :: buckets, keys, hbuckets, hkeys => by
    unfold collectKeys
    split_ifs
    · intro key hkey
      rw [List.mem_singleton.1 hkey]
      exact bucketKey_ne_nil _ _
    · refine collectKeys_ne_nil (fun b hb => hbuckets b (List.mem_cons_of_mem _ hb)) ?_
      intro key hkey
      unfold insertNew at hkey
      split_ifs at hkey
      · exact hkeys key hkey
      · rcases List.mem_append.1 hkey with hkey | hkey
        · exact hkeys key hkey
        · rw [List.mem_singleton.1 hkey]
          exact hbuckets _ List.mem_cons_self

theorem mem_bucketsOf {bounds : NormalBounds} {bucketSize : ℚ} {b : (ℚ × ℚ) × JsString} :
    b ∈ bucketsOf P bounds bucketSize ↔ b.1 ∈ splitLongitudeRanges bounds
      ∧ ∃ i ∈ indexesFrom (bucketIndexForLat P bounds.minLat bucketSize)
          (bucketIndexForLat P bounds.maxLat bucketSize),
        ∃ j ∈ indexesFrom (bucketIndexForLon P b.1.1 bucketSize)
          (bucketIndexForLon P b.1.2 bucketSize), bucketKey i j = b.2 := by
  simp only [bucketsOf, List.mem_flatMap, List.mem_map]
  constructor
  · rintro ⟨range, hrange, i, hi, j, hj, rfl⟩
    exact ⟨hrange, i, hi, j, hj, rfl⟩
  · rintro ⟨hrange, i, hi, j, hj, hkey⟩
    exact ⟨b.1, hrange, i, hi, j, hj, Prod.ext rfl hkey⟩

theorem bucketKeysForBounds_ne_nil {bounds : SpatialAddressBounds} {bucketSize maxKeys : ℚ} :
    ∀ key ∈ bucketKeysForBounds P bounds bucketSize maxKeys, key ≠ [] := by
  unfold bucketKeysForBounds
  split
  · exact fun _ h => absurd h List.not_mem_nil
  · refine collectKeys_ne_nil (fun b hb => ?_) fun _ h => absurd h List.not_mem_nil
    obtain ⟨-, i, -, j, -, hkey⟩ := mem_bucketsOf.1 hb
    exact hkey ▸ bucketKey_ne_nil i j

theorem tokenSetFromText_ne_nil {text : JsString} : ∀ token ∈ tokenSetFromText P text, token ≠ [] := by
  rintro token htoken rfl
  simp [tokenSetFromText] at htoken

theorem agidPrefixKeys_ne_nil {agid : Option JsString} : ∀ key ∈ agidPrefixKeys P agid, key ≠ [] := by
  intro key hkey
  unfold agidPrefixKeys at hkey
  split at hkey
  · exact absurd hkey List.not_mem_nil
  · rename_i normalized hnormalized
    have hne : normalized ≠ [] := by
      obtain ⟨s, -, hs⟩ := Option.bind_eq_some_iff.1 hnormalized
      exact ne_nil_of_nonEmpty hs
    split_ifs at hkey
    · have hcases : key = normalized.take 2 ∨ key = normalized.take 4 ∨ key = normalized := by
        simpa using hkey
      rcases hcases with rfl | rfl | rfl <;> simp [hne]
    · exact absurd hkey List.not_mem_nil

/-! ## Fields -/

/-- The inverted indexes. -/
inductive Field where
  | spatial
  | term
  | country
  | postcode
  | agid

def SpatialAddressIndex.index (index : SpatialAddressIndex) : Field → Index
  | .spatial => index.spatialBuckets
  | .term => index.termIndex
  | .country => index.countryIndex
  | .postcode => index.postcodeIndex
  | .agid => index.agidIndex

/-- The keys under which a stored record is filed. -/
def IndexedRecord.keys (stored : IndexedRecord) : Field → List JsString
  | .spatial => stored.spatialKeys
  | .term => stored.terms
  | .country => stored.countryKey.toList
  | .postcode => stored.postcodeKey.toList
  | .agid => stored.agidKeys

variable (P options) in
theorem keys_ne_nil (record : SpatialAddressRecord) (field : Field) :
    ∀ key ∈ (indexed P options record).keys field, key ≠ [] := by
  have cleaned {value : Option JsString} {clean : JsString → JsString} {key : JsString}
      (h : value.bind (fun s => nonEmpty (clean s)) = some key) : key ≠ [] := by
    obtain ⟨s, -, hs⟩ := Option.bind_eq_some_iff.1 h
    exact ne_nil_of_nonEmpty hs
  intro key hkey
  cases field with
  | spatial =>
    simp only [IndexedRecord.keys, indexed] at hkey
    rcases hbounds : (geometryFromRecord P record).bounds with _ | bounds <;> rw [hbounds] at hkey
    · exact absurd hkey List.not_mem_nil
    · rw [Option.map_some, Option.getD_some] at hkey
      exact bucketKeysForBounds_ne_nil key hkey
  | term => exact tokenSetFromText_ne_nil key hkey
  | country => exact cleaned (Option.mem_toList.1 hkey)
  | postcode => exact cleaned (Option.mem_toList.1 hkey)
  | agid => exact agidPrefixKeys_ne_nil key hkey

theorem addToIndex_of_ne {index : Index} {key id : JsString} (h : key ≠ []) :
    addToIndex index (some key) id = index.add key id := by
  simp [addToIndex, nonEmpty_of_ne h]

theorem removeFromIndex_of_ne {index : Index} {key id : JsString} (h : key ≠ []) :
    removeFromIndex index (some key) id = index.remove key id := by
  simp [removeFromIndex, nonEmpty_of_ne h]

theorem addAllToIndex_eq {id : JsString} : ∀ {keys : List JsString} {index : Index},
    (∀ key ∈ keys, key ≠ []) → addAllToIndex index keys id = index.addAll keys id
  | [], _, _ => rfl
  | key :: keys, index, h => by
    rw [addAllToIndex, List.foldl_cons, addToIndex_of_ne (h key List.mem_cons_self)]
    exact addAllToIndex_eq fun k hk => h k (List.mem_cons_of_mem key hk)

theorem removeAllFromIndex_eq {id : JsString} : ∀ {keys : List JsString} {index : Index},
    (∀ key ∈ keys, key ≠ []) → removeAllFromIndex index keys id = index.removeAll keys id
  | [], _, _ => rfl
  | key :: keys, index, h => by
    rw [removeAllFromIndex, List.foldl_cons, removeFromIndex_of_ne (h key List.mem_cons_self)]
    exact removeAllFromIndex_eq fun k hk => h k (List.mem_cons_of_mem key hk)

/-! ## Runs -/

variable (P options) in
/-- The last record that was added under each id, if it was not removed since. -/
def storedAfter (stored : JsString → Option SpatialAddressRecord) :
    Call → JsString → Option SpatialAddressRecord
  | .add record => if trim record.id = [] then stored else Function.update stored record.id record
  | .remove id => Function.update stored id none
  | .clear => fun _ => none

variable (P options) in
/-- The index holds the records, and in each inverted index the pairs that they make. -/
structure Represents (index : SpatialAddressIndex) (stored : JsString → Option SpatialAddressRecord) :
    Prop where
  records : ∀ id, index.records.get? id = (stored id).map (indexed P options)
  pairs : ∀ field key id, id ∈ (index.index field).ids key
    ↔ ∃ record ∈ stored id, key ∈ (indexed P options record).keys field
  proper : ∀ field, (index.index field).Proper

theorem represents_empty : Represents P options .empty fun _ => none where
  records _ := rfl
  pairs field key id := by
    cases field <;> simp [SpatialAddressIndex.index, SpatialAddressIndex.empty, Postings.ids]
  proper field := by cases field <;> exact Postings.proper_empty

variable {index : SpatialAddressIndex} {stored : JsString → Option SpatialAddressRecord}

/-- Taking a record out takes out the pairs that it was stored with. -/
theorem index_remove {id : JsString} {record : SpatialAddressRecord}
    (h : index.records.get? id = some (indexed P options record)) (field : Field) :
    (remove index id).2.index field
      = (index.index field).removeAll ((indexed P options record).keys field) id := by
  have hkeys := keys_ne_nil P options record
  unfold remove
  rw [h]
  cases field with
  | spatial => exact removeAllFromIndex_eq (hkeys .spatial)
  | term => exact removeAllFromIndex_eq (hkeys .term)
  | country =>
    have hcountry := hkeys .country
    simp only [SpatialAddressIndex.index, IndexedRecord.keys] at hcountry ⊢
    rcases hkey : (indexed P options record).countryKey with _ | key <;> rw [hkey] at hcountry
    · rfl
    · exact removeFromIndex_of_ne (hcountry key (by simp))
  | postcode =>
    have hpostcode := hkeys .postcode
    simp only [SpatialAddressIndex.index, IndexedRecord.keys] at hpostcode ⊢
    rcases hkey : (indexed P options record).postcodeKey with _ | key <;> rw [hkey] at hpostcode
    · rfl
    · exact removeFromIndex_of_ne (hpostcode key (by simp))
  | agid => exact removeAllFromIndex_eq (hkeys .agid)

theorem Represents.remove (h : Represents P options index stored) (id : JsString) :
    Represents P options (remove index id).2 (Function.update stored id none) := by
  rcases hid : stored id with _ | record
  · have hget : index.records.get? id = none := by rw [h.records, hid, Option.map_none]
    have hsame : Function.update stored id none = stored := by
      rw [← hid, Function.update_eq_self]
    rw [hsame, SpatialIndex.remove, hget]
    exact h
  · have hget : index.records.get? id = some (indexed P options record) := by
      rw [h.records, hid, Option.map_some]
    refine ⟨fun id' => ?_, fun field key id' => ?_, fun field => ?_⟩
    · have hrecords : (SpatialIndex.remove index id).2.records = index.records.erase id := by
        rw [SpatialIndex.remove, hget]
      rw [hrecords, Record.get?_erase]
      by_cases hid' : id = id'
      · rw [if_pos hid', hid', Function.update_self, Option.map_none]
      · rw [if_neg hid', Function.update_of_ne (Ne.symm hid'), h.records]
    · rw [index_remove hget, Postings.mem_ids_removeAll, h.pairs]
      by_cases hid' : id' = id
      · subst hid'
        simp [hid]
      · simp [hid']
    · rw [index_remove hget]
      exact (h.proper field).removeAll

variable (P options) in
theorem add_of_id (index : SpatialAddressIndex) {record : SpatialAddressRecord}
    (h : trim record.id ≠ []) : ∃ result index', add P options index record = .ok (result, index') := by
  rw [add, if_neg h]
  exact ⟨_, _, rfl⟩

theorem index_add {record : SpatialAddressRecord} {result : SpatialAddressRecord}
    {index' : SpatialAddressIndex} (h : add P options index record = .ok (result, index'))
    (field : Field) :
    index'.index field = ((remove index record.id).2.index field).addAll
      ((indexed P options record).keys field) record.id := by
  have hkeys := keys_ne_nil P options record
  unfold add at h
  split_ifs at h
  cases h
  cases field with
  | spatial => exact addAllToIndex_eq (hkeys .spatial)
  | term => exact addAllToIndex_eq (hkeys .term)
  | country =>
    have hcountry := hkeys .country
    simp only [SpatialAddressIndex.index, IndexedRecord.keys] at hcountry ⊢
    rcases hkey : (indexed P options record).countryKey with _ | key <;> rw [hkey] at hcountry
    · rfl
    · exact addToIndex_of_ne (hcountry key (by simp))
  | postcode =>
    have hpostcode := hkeys .postcode
    simp only [SpatialAddressIndex.index, IndexedRecord.keys] at hpostcode ⊢
    rcases hkey : (indexed P options record).postcodeKey with _ | key <;> rw [hkey] at hpostcode
    · rfl
    · exact addToIndex_of_ne (hpostcode key (by simp))
  | agid => exact addAllToIndex_eq (hkeys .agid)

theorem Represents.add {record result : SpatialAddressRecord} {index' : SpatialAddressIndex}
    (h : Represents P options index stored)
    (hadd : add P options index record = .ok (result, index')) :
    Represents P options index' (Function.update stored record.id record) := by
  have hremoved := h.remove record.id
  have hrecords : index'.records = (SpatialIndex.remove index record.id).2.records.set record.id
      (indexed P options record) := by
    unfold SpatialIndex.add at hadd
    split_ifs at hadd
    cases hadd
    rfl
  refine ⟨fun id => ?_, fun field key id => ?_, fun field => ?_⟩
  · rw [hrecords, Record.get?_set, hremoved.records]
    by_cases hid : record.id = id
    · rw [if_pos hid, hid, Function.update_self, Option.map_some]
    · rw [if_neg hid, Function.update_of_ne (Ne.symm hid), Function.update_of_ne (Ne.symm hid)]
  · rw [index_add hadd, Postings.mem_ids_addAll, hremoved.pairs]
    by_cases hid : id = record.id
    · subst hid
      simp
    · simp [hid]
  · rw [index_add hadd]
    exact (hremoved.proper field).addAll

/-- One call changes what is stored and the index alike. -/
theorem Represents.call (h : Represents P options index stored) (c : Call) :
    Represents P options (call P options index c) (storedAfter stored c) := by
  cases c with
  | add record =>
    simp only [SpatialIndex.call, storedAfter]
    by_cases hid : trim record.id = []
    · rw [if_pos hid, SpatialIndex.add, if_pos hid]
      exact h
    · obtain ⟨result, index', hadd⟩ := add_of_id P options index hid
      rw [if_neg hid, hadd]
      exact h.add hadd
  | remove id => exact h.remove id
  | clear => exact represents_empty

theorem Represents.calls : ∀ {calls : List Call} {index : SpatialAddressIndex}
    {stored : JsString → Option SpatialAddressRecord}, Represents P options index stored →
    Represents P options (calls.foldl (SpatialIndex.call P options) index)
      (calls.foldl storedAfter stored)
  | [], _, _, h => h
  | c :: _, _, _, h => (h.call c).calls

/-- The index that is created holds the last of its records under each id. -/
theorem represents_create {initialRecords : List SpatialAddressRecord}
    (h : createSpatialAddressIndex P options initialRecords = .ok index) :
    Represents P options index ((initialRecords.map Call.add).foldl storedAfter fun _ => none) := by
  have adding : ∀ (records : List SpatialAddressRecord) (index' : SpatialAddressIndex)
      (stored : JsString → Option SpatialAddressRecord), Represents P options index' stored →
      records.foldlM (fun index record => (SpatialIndex.add P options index record).map Prod.snd)
        index' = .ok index →
      Represents P options index ((records.map Call.add).foldl storedAfter stored) := by
    intro records
    induction records with
    | nil =>
      rintro index' stored h hfold
      cases hfold
      exact h
    | cons record records ih =>
      intro index' stored h hfold
      rcases hadd : SpatialIndex.add P options index' record with message | ⟨result, index''⟩
      · simp [hadd, Except.map, bind, Except.bind] at hfold
      · have hfold' : records.foldlM
            (fun index record => (SpatialIndex.add P options index record).map Prod.snd) index''
              = .ok index := by
          simpa [hadd, Except.map, bind, Except.bind] using hfold
        have hcall : SpatialIndex.call P options index' (.add record) = index'' := by
          simp [SpatialIndex.call, hadd]
        exact ih index'' _ (hcall ▸ h.call (.add record)) hfold'
  exact adding initialRecords .empty _ represents_empty h

/-- After any calls to an index that was created, each inverted index has exactly the pairs that the
stored records make, and no key without ids. -/
theorem represents_calls {initialRecords : List SpatialAddressRecord}
    (h : createSpatialAddressIndex P options initialRecords = .ok index) (calls : List Call) :
    Represents P options (calls.foldl (call P options) index)
      ((initialRecords.map Call.add ++ calls).foldl storedAfter fun _ => none) := by
  rw [List.foldl_append]
  exact (represents_create h).calls

/-! ## A plain platform -/

def plainPlatform : Platform where
  toUpperCase := id
  normalizeSearchText := id
  expandSearchQuery query := [query]
  isTermChar char := char ≠ [32]
  decodeAGID _ := none
  boundsFromPointRadius point _ :=
    ⟨.finite point.lat, some point.lon, .finite point.lat, some point.lon⟩
  round := id
  round_mono := monotone_id

def cityOptions : SpatialAddressIndexOptions := ⟨1 / 2, 4096, 8192⟩

def city (id label : JsString) (lat lon : ℚ) : SpatialAddressRecord where
  id := id
  label := some label
  addressText := none
  aliases := none
  canonical := none
  countryCode := some (js "JP")
  postcode := none
  agid := none
  lat := some (.finite lat)
  lon := some (.finite lon)
  bounds := none
  source := none
  tags := none

def tokyo : SpatialAddressRecord :=
  city (js "tokyo") (js "Tokyo Station") (35681 / 1000) (139767 / 1000)

/-- Another record under the same id. -/
def moved : SpatialAddressRecord := city (js "tokyo") (js "Osaka") (34702 / 1000) (135495 / 1000)

/-- The record of Tokyo is replaced by one at another place and then taken out. -/
theorem represents_calls_replaced :
    ∃ index, createSpatialAddressIndex plainPlatform cityOptions [tokyo] = .ok index
      ∧ Represents plainPlatform cityOptions
        ([Call.add moved, .remove (js "tokyo")].foldl (call plainPlatform cityOptions) index)
        ([Call.add tokyo, .add moved, .remove (js "tokyo")].foldl storedAfter fun _ => none) := by
  have hid : trim tokyo.id ≠ [] := by decide
  obtain ⟨index, h⟩ : ∃ index,
      createSpatialAddressIndex plainPlatform cityOptions [tokyo] = .ok index := by
    obtain ⟨result, index, hadd⟩ := add_of_id plainPlatform cityOptions .empty hid
    exact ⟨index, by
      simp [createSpatialAddressIndex, hadd, Except.map, bind, Except.bind, pure, Except.pure]⟩
  exact ⟨index, h, represents_calls h [.add moved, .remove (js "tokyo")]⟩

end Agid.SpatialIndex
