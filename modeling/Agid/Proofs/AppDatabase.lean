import Agid.AppDatabase

/-!
# Tables that are replaced whole

A persist function leaves a table as it was, or with the new rows, or cleared with the new rows
unwritten (`persist_cases`).  So every call of a run is whole just where none is interrupted there,
and then each table has the rows of its last call that succeeded (`whole_iff_uninterrupted`).
-/

namespace Agid.AppDatabase

variable {P : Platform} {db first : Tables} {call : Call} {past : History.Past Tables Call}

/-! ## One call -/

theorem persist_eq (P : Platform) (db : Tables) (call : Call) :
    persist P db call
      = persistTable call.table (fun _ => newRecords P call) call.records call.faults db := by
  rcases call with ⟨table, records, faults⟩
  cases table <;> rfl

/-- What a call can do, and when it does it. -/
theorem persist_cases (P : Platform) (db : Tables) (call : Call) :
    ((call.faults.isClientDatabaseSupported = false ∨ call.faults.clearFails = true)
        ∧ persist P db call = (db, false))
      ∨ ((call.faults.isClientDatabaseSupported = true ∧ call.faults.clearFails = false
          ∧ call.faults.bulkPutFails = true ∧ newRecords P call ≠ [])
        ∧ persist P db call = (Function.update db call.table .empty, false))
      ∨ ((call.faults.bulkPutFails = false ∨ newRecords P call = [])
        ∧ persist P db call = (Function.update db call.table (newRows P call), true)) := by
  rw [persist_eq, persistTable, replaceTable]
  rcases hsupported : call.faults.isClientDatabaseSupported
  · exact Or.inl ⟨Or.inl rfl, rfl⟩
  rcases hclear : call.faults.clearFails
  swap
  · refine Or.inl ⟨Or.inr rfl, ?_⟩
    simp only [if_true, Function.update_eq_self]
  by_cases hrecords : newRecords P call = []
  · refine Or.inr (Or.inr ⟨Or.inr hrecords, ?_⟩)
    rw [newRows, hrecords]
    rfl
  have hlength : (newRecords P call).length > 0 := List.length_pos_iff.2 hrecords
  rcases hwrite : call.faults.bulkPutFails
  · refine Or.inr (Or.inr ⟨Or.inl rfl, ?_⟩)
    simp only [if_true, if_pos hlength, if_neg Bool.false_ne_true, newRows]
  · refine Or.inr (Or.inl ⟨⟨rfl, rfl, rfl, hrecords⟩, ?_⟩)
    simp only [if_true, if_pos hlength, if_neg Bool.false_ne_true]

theorem keys_bulkPut : ∀ (records : List DatabaseRecord) (table : Table) (record : DatabaseRecord),
    record ∈ records ∨ record.id ∈ table.keys → record.id ∈ (bulkPut table records).keys
  | [], _, _, h => h.elim (fun h => absurd h List.not_mem_nil) id
  | r :: records, table, record, h => by
    refine keys_bulkPut records (table.set r.id r) record ?_
    rw [Record.mem_keys]
    rcases h with h | h
    · rcases List.mem_cons.1 h with rfl | hmem
      · exact Or.inr ⟨_, Record.get?_set_self _ _ _⟩
      · exact Or.inl hmem
    · obtain ⟨v, hv⟩ := Record.mem_keys.1 h
      by_cases hid : r.id = record.id
      · exact Or.inr ⟨r, by rw [Record.get?_set, if_pos hid]⟩
      · exact Or.inr ⟨v, by rw [Record.get?_set_of_ne _ _ hid, hv]⟩

/-- What is written is not nothing. -/
theorem newRows_ne_empty (h : newRecords P call ≠ []) : newRows P call ≠ .empty := by
  obtain ⟨record, hrecord⟩ := List.exists_mem_of_ne_nil _ h
  have hkey : record.id ∈ (newRows P call).keys :=
    keys_bulkPut (newRecords P call) .empty record (Or.inl hrecord)
  intro hempty
  rw [hempty] at hkey
  cases hkey

theorem eq_empty_of_entries {table : Table} (h : table.entries = []) : table = .empty := by
  rcases table with ⟨entries, nodup⟩
  obtain rfl : entries = [] := h
  rfl

theorem whole_iff : Whole P db call ↔ ¬ Interrupted P db call := by
  rcases persist_cases P db call with ⟨hfault, h⟩ | ⟨⟨hsupported, hclear, hwrite, hrecords⟩, h⟩
    | ⟨hwritten, h⟩
  · refine iff_of_true ⟨?_, fun _ => Or.inl ?_, fun _ _ => ?_⟩ fun hinterrupted => ?_
    · rw [h]
      intro hsucceeded
      cases hsucceeded
    · rw [h]
    · rw [h]
    · rcases hfault with hfault | hfault
      · exact absurd hinterrupted.supported (by rw [hfault]; exact Bool.false_ne_true)
      · exact absurd hinterrupted.cleared (by rw [hfault]; exact Bool.noConfusion)
  · have hempty : (persist P db call).1 call.table = .empty := by
      rw [h]
      exact Function.update_self _ _ _
    constructor
    · intro hwhole hinterrupted
      rcases hwhole.failed (by rw [h]) with hkept | hnew
      · exact hinterrupted.rows (by rw [← hkept, hempty]; rfl)
      · exact newRows_ne_empty hrecords (hnew.symm.trans hempty)
    · intro hwhole
      have hrows : (db call.table).entries = [] := by
        by_contra hrows
        exact hwhole ⟨hsupported, hclear, hwrite, hrecords, hrows⟩
      refine ⟨?_, fun _ => Or.inl ?_, fun name hne => ?_⟩
      · rw [h]
        intro hsucceeded
        cases hsucceeded
      · rw [hempty, eq_empty_of_entries hrows]
      · rw [h]
        exact Function.update_of_ne hne _ _
  · refine iff_of_true ⟨fun _ => ?_, ?_, fun name hne => ?_⟩ fun hinterrupted => ?_
    · rw [h]
      exact Function.update_self _ _ _
    · rw [h]
      intro hfailed
      cases hfailed
    · rw [h]
      exact Function.update_of_ne hne _ _
    · rcases hwritten with hwritten | hnone
      · exact absurd hinterrupted.unwritten (by rw [hwritten]; exact Bool.false_ne_true)
      · exact hinterrupted.records hnone

/-- A call that is not interrupted and does not succeed changes nothing. -/
theorem persist_eq_of_failed (h : ¬ Interrupted P db call)
    (hfailed : (persist P db call).2 = false) :
    (persist P db call).1 = db := by
  rcases persist_cases P db call with ⟨-, hcase⟩ | ⟨⟨hsupported, hclear, hwrite, hrecords⟩, hcase⟩
    | ⟨-, hcase⟩
  · rw [hcase]
  · rw [hcase]
    have hrows : (db call.table).entries = [] := by
      by_contra hrows
      exact h ⟨hsupported, hclear, hwrite, hrecords, hrows⟩
    exact Function.update_eq_self_iff.2 (eq_empty_of_entries hrows).symm
  · rw [hcase] at hfailed
    cases hfailed

/-! ## Runs -/

/-- Without an interrupted call each table has the rows of its last call that succeeded. -/
theorem held_of_uninterrupted (hrun : History.Run (next P) first past db)
    (h : ∀ e ∈ past, ¬ Interrupted P e.1 e.2) (name : TableName) :
    db name = heldRows P first past name := by
  induction hrun with
  | init => rfl
  | @step past db db' call run taken ih =>
    obtain rfl : (persist P db call).1 = db' := Option.some.inj taken
    have hkept := ih fun e he => h e (List.mem_cons_of_mem _ he)
    have hcall : ¬ Interrupted P db call := h (db, call) List.mem_cons_self
    have hwhole := whole_iff.2 hcall
    unfold heldRows
    rw [List.find?_cons]
    by_cases hname : call.table = name
    · rcases hsucceeded : (persist P db call).2
      · simp only [hname, Bool.and_false]
        rw [persist_eq_of_failed hcall hsucceeded, hkept]
        rfl
      · simp only [hname, decide_true, Bool.and_true, Option.map_some, Option.getD_some]
        rw [← hname]
        exact hwhole.succeeded hsucceeded
    · simp only [hname, decide_false, Bool.false_and]
      rw [hwhole.others name (Ne.symm hname), hkept]
      rfl

theorem whole_iff_uninterrupted (hrun : History.Run (next P) first past db) :
    ((∀ e ∈ past, Whole P e.1 e.2) ↔ ∀ e ∈ past, ¬ Interrupted P e.1 e.2)
      ∧ ((∀ e ∈ past, ¬ Interrupted P e.1 e.2) → ∀ name, db name = heldRows P first past name) :=
  ⟨forall₂_congr fun _ _ => whole_iff, held_of_uninterrupted hrun⟩

/-! ## A table that is lost -/

def plainPlatform : Platform where
  normalizeAOIDRecord _ := none
  normalizePosOfflineUsageEntries _ := []

def savedRecord (id : String) : JsonValue :=
  .array [.object [(js "id", .string (js id))]]

/-- A call to persist one saved AGID, whose bulk write may fail. -/
def saving (id : String) (bulkPutFails : Bool) : Call where
  table := .savedAgids
  records := savedRecord id
  faults := ⟨true, false, bulkPutFails⟩

def emptyTables : Tables := fun _ => .empty

def savedTables : Tables := (persist plainPlatform emptyTables (saving "AGID-1" false)).1

def savedPast : History.Past Tables Call := [(emptyTables, saving "AGID-1" false)]

theorem saved_run : History.Run (next plainPlatform) emptyTables savedPast savedTables :=
  History.Run.init.step rfl

theorem whole_saved :
    (∀ e ∈ savedPast, Whole plainPlatform e.1 e.2)
      ∧ ∀ name, savedTables name = heldRows plainPlatform emptyTables savedPast name := by
  have hwhole := whole_iff_uninterrupted saved_run
  have huninterrupted : ∀ e ∈ savedPast, ¬ Interrupted plainPlatform e.1 e.2 := by
    intro e he hinterrupted
    obtain rfl := List.mem_singleton.1 he
    exact absurd hinterrupted.unwritten Bool.false_ne_true
  exact ⟨hwhole.1.2 huninterrupted, hwhole.2 huninterrupted⟩

/-- The bulk write of the second call fails: the table is empty, and neither the old rows nor the
new ones are in it. -/
theorem cleared_not_whole :
    ¬ ∀ P first past db, History.Run (next P) first past db → ∀ e ∈ past, Whole P e.1 e.2 := by
  intro h
  have hrun : History.Run (next plainPlatform) emptyTables
      ((savedTables, saving "AGID-2" true) :: savedPast) _ := saved_run.step rfl
  refine whole_iff.1 (h _ _ _ _ hrun _ List.mem_cons_self) ⟨rfl, rfl, rfl, ?_, ?_⟩
  · decide
  · decide

end Agid.AppDatabase
