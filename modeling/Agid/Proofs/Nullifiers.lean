import Agid.LedgerEntries
import Agid.Proofs.KeyedEvents

/-!
# The nullifiers of the resolution ledger

What a write leaves of the nullifiers of the resolution it records, and of the others, in each
store.  Memory gives a nullifier that comes again to the new resolution; the tables and Redis leave
the others theirs, and keep of the resolution's own only what comes with it again.
-/

namespace Agid.ResolutionLedger

/-- An entry with the nullifier it presents, or none. -/
structure Presents (entry : Entry) (nullifier : JsString) : Prop where
  owner : ∀ row ∈ entry.nullifiers, row.resolutionId = entry.resolution.resolutionId
  hash : ∀ n, n ∈ entry.nullifiers.map (·.nullifierHash) ↔ n = nullifier ∧ n ≠ []
  one : entry.nullifiers.length ≤ 1

theorem RecordCall.presents (platform : Platform) (call : RecordCall) :
    Presents (call.entry platform) (clean platform call.options.nullifierHash) := by
  unfold RecordCall.entry createAddressResolutionLedgerEntry
  by_cases h : clean platform call.options.nullifierHash = []
  · refine ⟨by simp [h], fun n => ?_, by simp [h]⟩
    simp only [h, if_true, List.map_nil, List.not_mem_nil, false_iff, not_and_not_right]
    exact id
  · refine ⟨by simp [h], fun n => ?_, by simp [h]⟩
    simp only [h, if_false, List.map_cons, List.map_nil, List.mem_singleton]
    exact ⟨fun hn => ⟨hn, hn ▸ h⟩, And.left⟩

namespace EntryStore

/-- What a write that is done leaves recorded. -/
structure Writes (store : EntryStore) (mode : StorageMode) (s s' : store.Entries) (entry : Entry) :
    Prop where
  others : ∀ id, id ≠ entry.resolution.resolutionId → ∀ n, store.Recorded s' id n
    ↔ store.Recorded s id n ∧ (mode = .memory → n ∉ entry.nullifiers.map (·.nullifierHash))
  again : ∀ n, store.Recorded s entry.resolution.resolutionId n →
    (mode ≠ .memory → n ∈ entry.nullifiers.map (·.nullifierHash)) →
      store.Recorded s' entry.resolution.resolutionId n
  only : mode ≠ .memory → ∀ n, store.Recorded s' entry.resolution.resolutionId n →
    n ∈ entry.nullifiers.map (·.nullifierHash)

/-- An invariant under which every write is one of `Writes`. -/
structure WriteRule (store : EntryStore) (mode : StorageMode) where
  inv : store.Entries → Prop
  empty : inv store.noEntries
  nonempty : ∀ {s id n}, inv s → store.Recorded s id n → n ≠ []
  step : ∀ {s s' entry n}, inv s → Presents entry n → store.writeEntry s entry = some s' →
    inv s' ∧ store.Writes mode s s' entry

end EntryStore

/-! ## Memory -/

namespace InMemory

structure NullifierInv (s : Entries) : Prop where
  keyed : Rows.Keyed (·.nullifierHash) s.nullifiers
  owned : ∀ n row, s.nullifiers.get? n = some row → (s.resolutions.get? row.resolutionId).isSome
  nonempty : ∀ n row, s.nullifiers.get? n = some row → n ≠ []

theorem NullifierInv.recorded_iff {s : Entries} (h : NullifierInv s)
    {id n : JsString} : entryStore.Recorded s id n
      ↔ ∃ row, s.nullifiers.get? n = some row ∧ row.resolutionId = id := by
  simp only [EntryStore.Recorded, entryStore, getResolution, Option.map_eq_some_iff, List.mem_map]
  constructor
  · rintro ⟨_, ⟨resolution, -, rfl⟩, row, hrow, rfl⟩
    simp only [List.mem_filter, decide_eq_true_eq] at hrow
    exact ⟨row, h.keyed.mem_values.1 hrow.1, hrow.2⟩
  · rintro ⟨row, hrow, rfl⟩
    obtain ⟨resolution, hresolution⟩ := Option.isSome_iff_exists.1 (h.owned n row hrow)
    refine ⟨_, ⟨resolution, hresolution, rfl⟩, row, ?_, h.keyed n row hrow⟩
    simp only [List.mem_filter, decide_true, and_true]
    refine h.keyed.mem_values.2 (hrow ▸ congrArg _ (h.keyed n row hrow))

theorem get?_written {s : Entries} {entry : Entry} {nullifier n : JsString}
    (hp : Presents entry nullifier) (hn : n ∈ entry.nullifiers.map (·.nullifierHash)) :
    ∃ row, (writeEntry s entry).nullifiers.get? n = some row
      ∧ row.resolutionId = entry.resolution.resolutionId ∧ row.nullifierHash = n := by
  obtain ⟨row, hrow, rfl⟩ := Rows.exists_isLast _ hn
  have hlast := Record.get?_foldl_set_last (·.nullifierHash) row.nullifierHash entry.nullifiers
    s.nullifiers
  rw [show (entry.nullifiers.filter _).getLast? = some row from hrow, Option.some_or] at hlast
  exact ⟨row, hlast, hp.owner row hrow.mem, rfl⟩

theorem get?_unwritten {s : Entries} {entry : Entry} {n : JsString}
    (hn : n ∉ entry.nullifiers.map (·.nullifierHash)) :
    (writeEntry s entry).nullifiers.get? n = s.nullifiers.get? n := by
  have hlast := Record.get?_foldl_set_last (·.nullifierHash) n entry.nullifiers s.nullifiers
  have hnil : entry.nullifiers.filter (fun row => row.nullifierHash = n) = [] :=
    List.filter_eq_nil_iff.2 fun row hrow h => hn (List.mem_map.2 ⟨row, hrow, by simpa using h⟩)
  rwa [hnil] at hlast

/-- A row after a write is the entry's, or it was there and the entry has none with its hash. -/
theorem NullifierInv.cases {s : Entries} {entry : Entry} {nullifier n : JsString}
    (hp : Presents entry nullifier) {row : NullifierRecord}
    (hrow : (writeEntry s entry).nullifiers.get? n = some row) :
    (n ∈ entry.nullifiers.map (·.nullifierHash)
        ∧ row.resolutionId = entry.resolution.resolutionId ∧ row.nullifierHash = n)
      ∨ (n ∉ entry.nullifiers.map (·.nullifierHash) ∧ s.nullifiers.get? n = some row) := by
  by_cases hn : n ∈ entry.nullifiers.map (·.nullifierHash)
  · obtain ⟨row', hrow', howner, hhash⟩ := get?_written (s := s) hp hn
    rw [hrow, Option.some.injEq] at hrow'
    exact .inl ⟨hn, by rwa [hrow'], by rwa [hrow']⟩
  · exact .inr ⟨hn, by rwa [← get?_unwritten hn]⟩

theorem NullifierInv.write {s : Entries} (h : NullifierInv s) {entry : Entry}
    {nullifier : JsString} (hp : Presents entry nullifier) : NullifierInv (writeEntry s entry) where
  keyed := h.keyed.setAll
  owned n row hrow := by
    change ((s.resolutions.set _ _).get? _).isSome
    rw [Record.get?_set]
    split_ifs with hid
    · rfl
    · rcases NullifierInv.cases hp hrow with ⟨-, howner, -⟩ | ⟨-, hold⟩
      · exact absurd howner.symm hid
      · exact h.owned n row hold
  nonempty n row hrow := by
    rcases NullifierInv.cases hp hrow with ⟨hn, -, -⟩ | ⟨-, hold⟩
    · exact ((hp.hash n).1 hn).2
    · exact h.nonempty n row hold

theorem writes {s : Entries} (h : NullifierInv s) {entry : Entry}
    {nullifier : JsString} (hp : Presents entry nullifier) :
    entryStore.Writes .memory s (writeEntry s entry) entry := by
  have h' := h.write hp
  refine ⟨fun id hid n => ?_, fun n hn _ => ?_, fun hmode => absurd rfl hmode⟩
  · rw [h'.recorded_iff, h.recorded_iff]
    constructor
    · rintro ⟨row, hrow, rfl⟩
      rcases NullifierInv.cases hp hrow with ⟨-, howner, -⟩ | ⟨hn, hold⟩
      · exact absurd howner hid
      · exact ⟨⟨row, hold, rfl⟩, fun _ => hn⟩
    · rintro ⟨⟨row, hold, rfl⟩, hn⟩
      exact ⟨row, (get?_unwritten (hn rfl)).trans hold, rfl⟩
  · rw [h.recorded_iff] at hn
    rw [h'.recorded_iff]
    obtain ⟨row, hold, howner⟩ := hn
    by_cases hmem : n ∈ entry.nullifiers.map (·.nullifierHash)
    · obtain ⟨row', hrow', howner', -⟩ := get?_written (s := s) hp hmem
      exact ⟨row', hrow', howner'⟩
    · exact ⟨row, (get?_unwritten hmem).trans hold, howner⟩

def writeRule : entryStore.WriteRule .memory where
  inv := NullifierInv
  empty := ⟨Rows.keyed_empty, nofun, nofun⟩
  nonempty h hrecorded := by
    obtain ⟨row, hrow, -⟩ := (NullifierInv.recorded_iff h).1 hrecorded
    exact NullifierInv.nonempty h _ row hrow
  step h hp hs := by
    cases hs
    exact ⟨NullifierInv.write h hp, writes h hp⟩

end InMemory

/-! ## Tables -/

namespace Tables

/-- What the three databases write of a resolution and its nullifiers. -/
structure WritesNullifiers (t t' : Tables) (entry : Entry) : Prop where
  resolutions : t'.resolutions = Rows.replace (·.resolutionId) t.resolutions entry.resolution
  nullifiers : t'.nullifiers = entry.nullifiers.foldl (Rows.ignore sameNullifier)
    (t.nullifiers.filter (·.resolutionId ≠ entry.resolution.resolutionId))

structure NullifierInv (t : Tables) : Prop where
  owned : ∀ row ∈ t.nullifiers, ∃ resolution ∈ t.resolutions,
    resolution.resolutionId = row.resolutionId
  unique : ∀ row ∈ t.nullifiers, ∀ other ∈ t.nullifiers,
    row.nullifierHash = other.nullifierHash → row.resolutionId = other.resolutionId
  nonempty : ∀ row ∈ t.nullifiers, row.nullifierHash ≠ []

theorem NullifierInv.recorded_iff {t : Tables} (h : NullifierInv t) {readers : RowReaders}
    (hreaders : ∀ row, (readers.nullifier row).nullifierHash = row.nullifierHash)
    {id n : JsString} :
    (∃ entry, t.getResolution readers id = some entry
        ∧ n ∈ entry.nullifiers.map (·.nullifierHash))
      ↔ ∃ row ∈ t.nullifiers, row.resolutionId = id ∧ row.nullifierHash = n := by
  simp only [getResolution, Option.map_eq_some_iff]
  constructor
  · rintro ⟨_, ⟨resolution, -, rfl⟩, hn⟩
    simp only [List.map_map, List.mem_map, rowsOf, List.mem_insertionSort, List.mem_filter,
      decide_eq_true_eq, Function.comp_apply, hreaders] at hn
    obtain ⟨row, ⟨hrow, howner⟩, hhash⟩ := hn
    exact ⟨row, hrow, howner, hhash⟩
  · rintro ⟨row, hrow, rfl, rfl⟩
    obtain ⟨resolution, hmem, howner⟩ := h.owned row hrow
    rcases hfind : t.resolutions.find? (·.resolutionId = row.resolutionId) with _ | found
    · exact absurd (by simpa using howner) (List.find?_eq_none.1 hfind resolution hmem)
    · refine ⟨_, ⟨found, hfind, rfl⟩, ?_⟩
      simp only [List.map_map, List.mem_map, rowsOf, List.mem_insertionSort, List.mem_filter,
        decide_eq_true_eq, Function.comp_apply, hreaders]
      exact ⟨row, ⟨hrow, rfl⟩, rfl⟩

variable {t t' : Tables} {entry : Entry} {nullifier : JsString}

theorem WritesNullifiers.mem_iff (ht : WritesNullifiers t t' entry) (hp : Presents entry nullifier)
    {row : NullifierRecord} : row ∈ t'.nullifiers
      ↔ (row ∈ t.nullifiers ∧ row.resolutionId ≠ entry.resolution.resolutionId)
        ∨ (row ∈ entry.nullifiers ∧ ∀ other ∈ t.nullifiers,
          other.resolutionId ≠ entry.resolution.resolutionId →
            other.nullifierHash ≠ row.nullifierHash) := by
  have hone : entry.nullifiers.Pairwise fun a b => sameNullifier b a = false := by
    match hrows : entry.nullifiers with
    | [] => exact .nil
    | [_] => exact List.pairwise_singleton _ _
    | _ :: _ :: _ => exact absurd hp.one (by simp [hrows])
  rw [ht.nullifiers, Rows.mem_foldl_ignore hone]
  simp only [List.mem_filter, decide_eq_true_eq, sameNullifier, decide_eq_false_iff_not, and_imp]

theorem NullifierInv.write (h : NullifierInv t) (hp : Presents entry nullifier)
    (ht : WritesNullifiers t t' entry) : NullifierInv t' where
  owned row hrow := by
    simp only [ht.resolutions, Rows.mem_replace]
    by_cases hid : row.resolutionId = entry.resolution.resolutionId
    · exact ⟨entry.resolution, .inl rfl, hid.symm⟩
    · rcases (ht.mem_iff hp).1 hrow with ⟨hold, -⟩ | ⟨hnew, -⟩
      · obtain ⟨resolution, hmem, howner⟩ := h.owned row hold
        exact ⟨resolution, .inr ⟨hmem, by rwa [howner]⟩, howner⟩
      · exact absurd (hp.owner row hnew) hid
  unique row hrow other hother hhash := by
    rcases (ht.mem_iff hp).1 hrow with ⟨hold, hid⟩ | ⟨hnew, hclear⟩ <;>
      rcases (ht.mem_iff hp).1 hother with ⟨hold', hid'⟩ | ⟨hnew', hclear'⟩
    · exact h.unique row hold other hold' hhash
    · exact absurd hhash (hclear' row hold hid)
    · exact absurd hhash.symm (hclear other hold' hid')
    · rw [hp.owner row hnew, hp.owner other hnew']
  nonempty row hrow := by
    rcases (ht.mem_iff hp).1 hrow with ⟨hold, -⟩ | ⟨hnew, -⟩
    · exact h.nonempty row hold
    · exact ((hp.hash _).1 (List.mem_map_of_mem hnew)).2

/-- A store of tables whose rows keep the hashes of their nullifiers when they are read. -/
def writeRule (mode : StorageMode) (hmode : mode ≠ .memory)
    (writeEntry : Tables → Entry → Option Tables) (readers : RowReaders)
    (hwrite : ∀ t t' entry, writeEntry t entry = some t' → WritesNullifiers t t' entry)
    (hreaders : ∀ row, (readers.nullifier row).nullifierHash = row.nullifierHash) :
    (EntryStore.mk Tables .empty writeEntry (Tables.getResolution readers)).WriteRule mode where
  inv := NullifierInv
  empty := ⟨nofun, nofun, nofun⟩
  nonempty h hrecorded := by
    obtain ⟨row, hrow, -, rfl⟩ := (NullifierInv.recorded_iff h hreaders).1 hrecorded
    exact h.nonempty row hrow
  step {t t' entry nullifier} h hp hs := by
    have ht := hwrite t t' entry hs
    have h' := NullifierInv.write h hp ht
    refine ⟨h', fun id hid n => ?_, fun n hn hagain => ?_, fun _ n hn => ?_⟩
    · refine (h'.recorded_iff hreaders).trans (Iff.trans ?_ (and_iff_left fun hm => absurd hm hmode).symm)
      refine Iff.trans ?_ (NullifierInv.recorded_iff h hreaders).symm
      constructor
      · rintro ⟨row, hrow, rfl, rfl⟩
        rcases (ht.mem_iff hp).1 hrow with ⟨hold, -⟩ | ⟨hnew, -⟩
        · exact ⟨row, hold, rfl, rfl⟩
        · exact absurd (hp.owner row hnew) hid
      · rintro ⟨row, hold, rfl, rfl⟩
        exact ⟨row, (ht.mem_iff hp).2 (.inl ⟨hold, hid⟩), rfl, rfl⟩
    · obtain ⟨row, hold, howner, rfl⟩ := (NullifierInv.recorded_iff h hreaders).1 hn
      obtain ⟨new, hnew, hhash⟩ := List.mem_map.1 (hagain hmode)
      refine (h'.recorded_iff hreaders).2 ⟨new, (ht.mem_iff hp).2 (.inr ⟨hnew, ?_⟩),
        hp.owner new hnew, hhash⟩
      intro other hother hid hsame
      exact hid ((h.unique other hother row hold (hsame.trans hhash)).trans howner)
    · obtain ⟨row, hrow, howner, rfl⟩ := (h'.recorded_iff hreaders).1 hn
      rcases (ht.mem_iff hp).1 hrow with ⟨-, hid⟩ | ⟨hnew, -⟩
      · exact absurd howner hid
      · exact List.mem_map_of_mem hnew

end Tables

/-! ## The stores -/

namespace Redis

theorem recorded_iff {s : Record JsString Entry} {id n : JsString} :
    entryStore.Recorded s id n
      ↔ ∃ entry, s.get? id = some entry ∧ n ∈ entry.nullifiers.map (·.nullifierHash) := by
  simp only [EntryStore.Recorded, entryStore, getResolution, Option.map_eq_some_iff]
  exact ⟨fun ⟨_, ⟨entry, hentry, heq⟩, hn⟩ => ⟨entry, hentry, by rwa [← heq] at hn⟩,
    fun ⟨entry, hentry, hn⟩ => ⟨_, ⟨entry, hentry, rfl⟩, hn⟩⟩

theorem writes (s : Record JsString Entry) (entry : Entry) :
    entryStore.Writes .redis s (writeEntry s entry) entry := by
  have hget : ∀ id, Record.get? (writeEntry s entry) id = _ := fun id => Record.get?_set s _ id entry
  refine ⟨fun id hid n => ?_, fun n _ hn => ?_, fun _ n hn => ?_⟩
  · rw [recorded_iff, recorded_iff, hget, if_neg (Ne.symm hid)]
    exact (and_iff_left nofun).symm
  · exact recorded_iff.2 ⟨entry, by rw [hget, if_pos rfl], hn nofun⟩
  · obtain ⟨other, hother, hn⟩ := recorded_iff.1 hn
    rw [hget, if_pos rfl, Option.some.injEq] at hother
    rwa [hother]

def writeRule : entryStore.WriteRule .redis where
  inv s := ∀ id n, entryStore.Recorded s id n → n ≠ []
  empty := nofun
  nonempty h hrecorded := h _ _ hrecorded
  step {s s' entry nullifier} h hp hs := by
    cases hs
    have hwrites := writes s entry
    refine ⟨fun id n hn => ?_, hwrites⟩
    by_cases hid : id = entry.resolution.resolutionId
    · subst hid
      exact ((hp.hash n).1 (hwrites.only nofun n hn)).2
    · exact h id n ((hwrites.others id hid n).1 hn).1

end Redis

theorem writesNullifiers_postgres {columns : Postgres.Columns} {t t' : Tables} {entry : Entry}
    (h : Postgres.writeEntry columns t entry = some t') : t.WritesNullifiers t' entry := by
  unfold Postgres.writeEntry at h
  simp only at h
  split_ifs at h
  obtain ⟨commitments, -, rfl⟩ := Option.map_eq_some_iff.1 h
  exact ⟨rfl, rfl⟩

def writeRule (columns : Postgres.Columns) : ∀ mode, (entryStore columns mode).WriteRule mode
  | .memory => InMemory.writeRule
  | .sqlite => Tables.writeRule .sqlite nofun (fun t entry => some (Sqlite.writeEntry t entry))
      Sqlite.readers (fun _ _ _ h => by cases h; exact ⟨rfl, rfl⟩) fun _ => rfl
  | .postgres => Tables.writeRule .postgres nofun (Postgres.writeEntry columns)
      (Postgres.readers columns) (fun _ _ _ => writesNullifiers_postgres) fun _ => rfl
  | .redis => Redis.writeRule
  | .mongodb => Tables.writeRule .mongodb nofun (fun t entry => some (MongoDb.writeEntry t entry))
      MongoDb.readers (fun _ _ _ h => by cases h; exact ⟨rfl, rfl⟩) fun _ => rfl

/-! ## Runs -/

section Runs

variable {platform : Platform} {columns : Postgres.Columns} {mode : StorageMode}

theorem EntryStore.run_succ (store : EntryStore) {calls : List RecordCall} {k : ℕ}
    {call : RecordCall} (h : calls[k]? = some call) :
    store.run platform (calls.take (k + 1))
      = (store.recordResolution platform (store.run platform (calls.take k)) call).1 := by
  simp only [EntryStore.run]
  rw [List.take_add_one, h, Option.toList_some, List.foldl_append]
  rfl

/-- A call leaves everything, or it writes its entry and may return a receipt. -/
theorem EntryStore.recordResolution_cases (store : EntryStore) (platform : Platform) (s : store.Entries)
    (call : RecordCall) :
    (store.writeEntry s (call.entry platform) = none
        ∧ store.recordResolution platform s call = (s, none))
      ∨ ∃ s', store.writeEntry s (call.entry platform) = some s'
        ∧ store.recordResolution platform s call = (s', call.appended.map fun appended =>
          ResolutionLedger.writeReceipt platform call.env (call.entry platform) appended.1
            appended.2) := by
  unfold EntryStore.recordResolution
  rcases hwrite : store.writeEntry s (call.entry platform) with _ | s'
  · exact .inl ⟨rfl, by simp only [hwrite]⟩
  · exact .inr ⟨s', rfl, by simp only [hwrite]⟩

namespace EntryStore.WriteRule

variable {store : EntryStore} (rule : store.WriteRule mode)

theorem inv_call {s : store.Entries} (h : rule.inv s) (call : RecordCall) :
    rule.inv (store.recordResolution platform s call).1 := by
  rcases store.recordResolution_cases platform s call with ⟨-, hcall⟩ | ⟨s', hs, hcall⟩
  · rwa [hcall]
  · rw [hcall]
    exact (rule.step h (call.presents platform) hs).1

theorem inv_run : ∀ {calls : List RecordCall} {s : store.Entries}, rule.inv s →
    rule.inv (calls.foldl (fun s call => (store.recordResolution platform s call).1) s)
  | [], _, h => h
  | call :: calls, _, h => @inv_run calls _ (rule.inv_call h call)

end EntryStore.WriteRule

/-- One call keeps what is recorded, where it keeps to its store's condition. -/
theorem KeepsNullifiers.recorded {s : (entryStore columns mode).Entries} {call : RecordCall}
    (h : KeepsNullifiers platform columns mode s call) (hs : (writeRule columns mode).inv s)
    {id n : JsString} (hn : (entryStore columns mode).Recorded s id n) :
    (entryStore columns mode).Recorded
      ((entryStore columns mode).recordResolution platform s call).1 id n := by
  rcases (entryStore columns mode).recordResolution_cases platform s call with
    ⟨-, hcall⟩ | ⟨s', hwrite, hcall⟩
  · rwa [hcall]
  · rw [hcall]
    have hp := call.presents platform
    obtain ⟨hothers, hagain⟩ := h (by rw [hwrite]; nofun)
    have hwrites := ((writeRule columns mode).step hs hp hwrite).2
    by_cases hid : id = call.result.resolutionId
    · subst hid
      refine hwrites.again n hn fun hmode => (hp.hash n).2 ⟨hagain hmode n hn, ?_⟩
      exact (writeRule columns mode).nonempty hs hn
    · refine (hwrites.others id hid n).2 ⟨hn, fun hmode hmem => ?_⟩
      obtain ⟨rfl, -⟩ := (hp.hash n).1 hmem
      exact (hothers id hid hn).1 hmode

/-- The condition is what one call needs to keep what is recorded and to count no other
resolution's nullifier. -/
theorem keepsNullifiers_of_call {s : (entryStore columns mode).Entries} {call : RecordCall}
    (hs : (writeRule columns mode).inv s)
    (hstay : ∀ id n, (entryStore columns mode).Recorded s id n →
      (entryStore columns mode).Recorded
        ((entryStore columns mode).recordResolution platform s call).1 id n)
    (huncounted : ∀ id, (entryStore columns mode).Recorded s id
        (clean platform call.options.nullifierHash) → id ≠ call.result.resolutionId →
      ∀ receipt, ((entryStore columns mode).recordResolution platform s call).2 = some receipt →
        receipt.nullifierCount = 0) :
    KeepsNullifiers platform columns mode s call := by
  intro hdone
  rcases (entryStore columns mode).recordResolution_cases platform s call with
    ⟨hnone, -⟩ | ⟨s', hwrite, hcall⟩
  · exact absurd hnone hdone
  · have hp := call.presents platform
    have hwrites := ((writeRule columns mode).step hs hp hwrite).2
    rw [hcall] at hstay huncounted
    have hpresented : ∀ id, (entryStore columns mode).Recorded s id
        (clean platform call.options.nullifierHash) →
          clean platform call.options.nullifierHash
            ∈ (call.entry platform).nullifiers.map (·.nullifierHash) := fun id hn =>
      (hp.hash _).2 ⟨rfl, (writeRule columns mode).nonempty hs hn⟩
    refine ⟨fun id hid hn => ⟨fun hmode => ?_, ?_⟩, fun hmode n hn => ?_⟩
    · exact ((hwrites.others id hid _).1 (hstay id _ hn)).2 hmode (hpresented id hn)
    · rcases happended : call.appended with _ | appended
      · rfl
      · have hzero := huncounted id hn hid _ (by rw [happended]; rfl)
        have hnil : (call.entry platform).nullifiers = [] := List.length_eq_zero_iff.1 hzero
        have hmem := hpresented id hn
        rw [hnil] at hmem
        cases hmem
    · exact ((hp.hash n).1 (hwrites.only hmode n (hstay _ n hn))).1

end Runs

theorem nullifiersStay_iff (platform : Platform) (columns : Postgres.Columns) (mode : StorageMode)
    (calls : List RecordCall) :
    (entryStore columns mode).NullifiersStay platform calls ↔
      ∀ k call, calls[k]? = some call → KeepsNullifiers platform columns mode
        ((entryStore columns mode).run platform (calls.take k)) call := by
  set store := entryStore columns mode
  have hinv : ∀ k, (writeRule columns mode).inv (store.run platform (calls.take k)) := fun k =>
    (writeRule columns mode).inv_run (writeRule columns mode).empty
  constructor
  · intro h k call hcall
    refine keepsNullifiers_of_call (hinv k) (fun id n hn => ?_) fun id hn hid receipt hreceipt => ?_
    · rw [← store.run_succ hcall]
      exact h.stay k (k + 1) k.le_succ id n hn
    · exact h.uncounted k k call le_rfl hcall id hn hid receipt hreceipt
  · intro h
    have hstay : ∀ i j, i ≤ j → ∀ id n, store.Recorded (store.run platform (calls.take i)) id n →
        store.Recorded (store.run platform (calls.take j)) id n := by
      intro i j hij id n hn
      induction j, hij using Nat.le_induction with
      | base => exact hn
      | succ j _ ih =>
        rcases hcall : calls[j]? with _ | call
        · rwa [List.take_add_one, hcall, Option.toList_none, List.append_nil]
        · rw [store.run_succ hcall]
          exact (h j call hcall).recorded (hinv j) ih
    refine ⟨hstay, fun i k call hik hcall id hn hid receipt hreceipt => ?_⟩
    have hk := hstay i k hik id _ hn
    rcases store.recordResolution_cases platform
        (store.run platform (calls.take k)) call with ⟨-, heq⟩ | ⟨s', hwrite, heq⟩
    · rw [heq] at hreceipt
      cases hreceipt
    · rw [heq, ((h k call hcall (by rw [hwrite]; nofun)).1 id hid hk).2] at hreceipt
      cases hreceipt

/-! ## A nullifier presented again -/

def sampleColumns : Postgres.Columns := ⟨fun _ => true, id, id⟩

/-- A resolution that found nothing but a commitment. -/
def sampleResult (resolutionId : JsString) (commitments : List JsString) : ResolutionResult where
  resolutionId := resolutionId
  mode := .localOnly
  domain := js "d1"
  createdAt := js "2026-06-17T00:00:00.000Z"
  status := .unresolved
  decision := .review
  confidence := .finite 0
  language := []
  auditFingerprint := js "f1"
  sources := []
  sourceResults := []
  federatedStatus := js "missing"
  verificationSources := []
  verificationStatus := js "missing"
  registryVerification := none
  addressDnsRecord := none
  addressReferenceCommitment := none
  agidCommitment := none
  aoidCommitment := none
  credentialCommitment := none
  commitments := commitments
  warnings := []
  errors := []

def sampleCall (resolutionId : JsString) (nullifier : Option JsString) : RecordCall where
  env := ⟨0, []⟩
  result := sampleResult resolutionId []
  options := ⟨nullifier, none, none, none⟩
  appended := none

/-- Two resolutions with one nullifier. -/
def sharedNullifier : List RecordCall :=
  [sampleCall (js "r1") (some (js "n1")), sampleCall (js "r2") (some (js "n1"))]

/-- In memory the first resolution loses it. -/
theorem sharedNullifier_not_stays :
    ¬ (entryStore sampleColumns .memory).NullifiersStay samplePlatform sharedNullifier := by
  intro h
  have hfirst : (entryStore sampleColumns .memory).Recorded ((entryStore sampleColumns .memory).run
      samplePlatform (sharedNullifier.take 1)) (js "r1") (js "n1") := by decide
  have hsecond := h.stay 1 2 (by decide) (js "r1") (js "n1") hfirst
  exact absurd hsecond (by decide)

end Agid.ResolutionLedger
