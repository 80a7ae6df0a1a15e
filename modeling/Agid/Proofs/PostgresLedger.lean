import Agid.PostgresLedger
import Agid.Proofs.EventStores
import Agid.Proofs.KeyedEvents

/-!
# A stored event without its snapshot

The append leaves the event or nothing (`append_eq`), and the constraints never refuse the
snapshot's own values (`acceptsSnapshot_of_event`).  What is left are the start of an open snapshot
that is not earlier, and commands that are not replied to after the commit.
-/

namespace Agid.ResolutionLedger.Postgres

/-! ## Updates -/

theorem isSome_update {p : SnapshotRow → Bool} {change : SnapshotRow → Option SnapshotRow} :
    ∀ {rows : List SnapshotRow},
      (update p change rows).isSome ↔ ∀ row ∈ rows, p row = true → (change row).isSome
  | [] => by simp [update]
  | row :: rows => by
    rw [List.forall_mem_cons, ← isSome_update]
    rcases hp : p row with _ | _
    · rcases hrows : update p change rows with _ | rows' <;> simp [update, hp, hrows]
    · rcases hc : change row with _ | row' <;>
        rcases hrows : update p change rows with _ | rows' <;> simp [update, hp, hc, hrows]

theorem mem_update {p : SnapshotRow → Bool} {change : SnapshotRow → Option SnapshotRow} :
    ∀ {rows rows' : List SnapshotRow}, update p change rows = some rows' → ∀ row',
      row' ∈ rows' ↔ ∃ row ∈ rows, (if p row then change row else some row) = some row'
  | [], rows', h, row' => by
    simp only [update, Option.some.injEq] at h
    simp [← h]
  | row :: rows, rows', h, row' => by
    simp only [update, Option.bind_eq_some_iff, Option.map_eq_some_iff] at h
    obtain ⟨row₁, h₁, rows₁, hrows, rfl⟩ := h
    rw [List.mem_cons, mem_update hrows, List.exists_mem_cons_iff, h₁, Option.some.injEq]
    exact or_congr_left eq_comm

theorem exists_update {p : SnapshotRow → Bool} {change : SnapshotRow → Option SnapshotRow}
    {rows rows' : List SnapshotRow} (h : update p change rows = some rows') {row : SnapshotRow}
    (hrow : row ∈ rows) :
    ∃ row' ∈ rows', (if p row then change row else some row) = some row' := by
  have hsome : (if p row then change row else some row).isSome := by
    split_ifs with hp
    · exact isSome_update.1 (Option.isSome_iff_exists.2 ⟨rows', h⟩) row hrow hp
    · rfl
  obtain ⟨row', hrow'⟩ := Option.isSome_iff_exists.1 hsome
  exact ⟨row', (mem_update h row').2 ⟨row, hrow, hrow'⟩, hrow'⟩

/-! ## The append -/

section Append

variable {platform : Platform} {server : Server} {env : Env} {commands : Commands} {tables : Tables}
  {input : EventInput}

/-- What an append comes to once its record is made. -/
def inserting (server : Server) (commands : Commands) (tables : Tables) (event : EventRecord) :
    List EventRecord × Option EventRecord :=
  if acceptsEvent server tables commands.insertedAt event ∧ ¬ tables.events.any (clashes event)
      ∧ commands.inserting = .arrived ∧ commands.committing ≠ .refused then
    (tables.events ++ [event], if commands.committing = .arrived then some event else none)
  else (tables.events, none)

theorem run_inserting (locks : List (ℕ × JsString)) (event : EventRecord) (n : ℕ) :
    let r := runWith (appendEvent platform) env (commands.reply platform server tables) (n + 2)
      ⟨tables.events, [], locks, 1⟩ (.inserting 0 event)
    (r.1.rows, r.2) = inserting server commands tables event := by
  unfold inserting
  simp only [runWith, appendEvent, Commands.reply, List.any_nil]
  by_cases hclash : tables.events.any (clashes event) = true
  · simp only [hclash, if_true, Store.rollback, not_true_eq_false, false_and, and_false, if_false,
      Bool.false_eq_true]
  simp only [hclash, if_false, Bool.false_eq_true, not_false_eq_true, true_and, inTransaction]
  by_cases haccept : acceptsEvent server tables commands.insertedAt event = true
  · rcases hins : commands.inserting with _ | _ | _
    · rcases hcom : commands.committing with _ | _ | _ <;>
        simp [haccept, Store.commit, Store.rollback]
    · simp [haccept, Store.rollback]
    · simp [haccept, Store.rollback]
  · simp [haccept, Store.rollback]

theorem create_of_not_arrived {reply : Reply} (h : reply ≠ .arrived) (client : ℕ) (s s' : Store)
    (previous : Option EventRecord) :
    create platform ⟨env, reply⟩ client s s' input previous = (s.rollback client, .failed) := by
  unfold create
  rcases recordAfter platform ⟨env, reply⟩ input previous with _ | event
  · rfl
  · rcases reply with _ | _ | _
    · exact absurd rfl h
    · rfl
    · rfl

theorem run_create (locks : List (ℕ × JsString)) {previous : Option EventRecord} {s : Store}
    {p : Phase} (n : ℕ) (hs : s.rows = tables.events)
    (hstep : (appendEvent platform).advance ⟨env, commands.reply platform server tables p⟩ s p
      = some (create platform ⟨env, .arrived⟩ 0 s ⟨tables.events, [], locks, 1⟩ input previous)) :
    let r := runWith (appendEvent platform) env (commands.reply platform server tables) (n + 3) s p
    (r.1.rows, r.2) = match recordAfter platform ⟨env, .arrived⟩ input previous with
      | .error _ => (tables.events, none)
      | .ok event => inserting server commands tables event := by
  rw [runWith, hstep]
  unfold create
  rcases recordAfter platform ⟨env, .arrived⟩ input previous with _ | event
  · simp only [Store.rollback, hs]
  · exact run_inserting locks event n

theorem run_failed {s : Store} {p : Phase} (n : ℕ) (hs : s.rows = tables.events)
    (hstep : (appendEvent platform).advance ⟨env, commands.reply platform server tables p⟩ s p
      = some (s.rollback 0, .failed)) :
    let r := runWith (appendEvent platform) env (commands.reply platform server tables) (n + 1) s p
    (r.1.rows, r.2) = (tables.events, none) := by
  rw [runWith, hstep]
  simp only [Store.rollback, hs]

theorem run_selecting :
    let r := runWith (appendEvent platform) env (commands.reply platform server tables) 4
      ⟨tables.events, [], [], 1⟩ (.selecting 0 input)
    (r.1.rows, r.2)
      = if isText (appendStreamId platform input) ∧ commands.selecting = .arrived
          ∧ (lastRow tables.events (appendStreamId platform input) ≠ none →
            commands.locking = .arrived) then
        match recordAfter platform ⟨env, .arrived⟩ input
            (lastRow tables.events (appendStreamId platform input)) with
        | .error _ => (tables.events, none)
        | .ok event => inserting server commands tables event
      else (tables.events, none) := by
  by_cases hsel : isText (appendStreamId platform input) ∧ commands.selecting = .arrived
  · rcases hlast : lastRow tables.events (appendStreamId platform input) with _ | previous
    · simp only [hsel, true_and, ne_eq, not_true_eq_false, false_implies, if_true]
      exact run_create [] 1 rfl (by simp only [appendEvent, Commands.reply, hlast, hsel, if_true])
    · rw [runWith, show (appendEvent platform).advance _ _ _
        = some (⟨tables.events, [], [], 1⟩, .going (.locking 0 input previous)) by
          simp only [appendEvent, Commands.reply, hlast, hsel, if_true, inTransaction]]
      rcases hlock : commands.locking with _ | _ | _
      · simp only [hsel, true_and, implies_true, if_true]
        exact run_create [(0, previous.eventId)] 0 rfl (by
          simp [appendEvent, Commands.reply, hlock])
      · simp only [ne_eq, reduceCtorEq, not_false_eq_true, true_implies, and_false, if_false]
        exact run_failed 2 rfl (by simp [appendEvent, Commands.reply, hlock, create_of_not_arrived])
      · simp only [ne_eq, reduceCtorEq, not_false_eq_true, true_implies, and_false, if_false]
        exact run_failed 2 rfl (by simp [appendEvent, Commands.reply, hlock, create_of_not_arrived])
  · have hreply : commands.reply platform server tables (.selecting 0 input) ≠ .arrived := by
      simp only [Commands.reply]
      split_ifs with htext
      · exact fun h => hsel ⟨htext, h⟩
      · simp
    rw [if_neg fun h => hsel ⟨h.1, h.2.1⟩]
    rcases hlast : lastRow tables.events (appendStreamId platform input) with _ | previous
    · exact run_failed 3 rfl (by
        simp only [appendEvent, hlast, create_of_not_arrived hreply])
    · rcases hr : commands.reply platform server tables (.selecting 0 input) with _ | _ | _
      · exact absurd hr hreply
      · exact run_failed 3 rfl (by simp only [appendEvent, hlast, inTransaction, hr])
      · exact run_failed 3 rfl (by simp only [appendEvent, hlast, inTransaction, hr])

/-- The append adds the event, or it leaves the table as it was. -/
theorem append_eq : append platform server env commands tables input
    = if commands.connecting = .arrived ∧ isText (appendStreamId platform input)
          ∧ commands.selecting = .arrived
          ∧ (lastRow tables.events (appendStreamId platform input) ≠ none →
            commands.locking = .arrived) then
        match recordAfter platform ⟨env, .arrived⟩ input
            (lastRow tables.events (appendStreamId platform input)) with
        | .error _ => (tables.events, none)
        | .ok event => inserting server commands tables event
      else (tables.events, none) := by
  unfold append
  rw [show (appendEvent platform).begin input = .connecting input from rfl, runWith]
  rcases hcon : commands.connecting with _ | _ | _
  · rw [show (appendEvent platform).advance ⟨env, commands.reply platform server tables
      (.connecting input)⟩ ⟨tables.events, [], [], 0⟩ (.connecting input)
        = some (⟨tables.events, [], [], 1⟩, .going (.selecting 0 input)) by
      simp only [appendEvent, command, Commands.reply, hcon, zero_add]]
    simp only [true_and]
    exact run_selecting
  · simp [appendEvent, command, Commands.reply, hcon]
  · simp [appendEvent, command, Commands.reply, hcon]

theorem append_of_commits {event : EventRecord}
    (h : Commits platform server env commands tables input event) :
    append platform server env commands tables input
      = (tables.events ++ [event],
        if commands.committing = .arrived then some event else none) := by
  rw [append_eq, if_pos ⟨h.connected, h.selected.1, h.selected.2, h.locked⟩, h.created]
  exact if_pos ⟨h.accepted, h.unique, h.inserted, h.committed⟩

theorem append_of_not_commits
    (h : ∀ event, ¬ Commits platform server env commands tables input event) :
    append platform server env commands tables input = (tables.events, none) := by
  rw [append_eq]
  split_ifs with hbefore
  · obtain ⟨hconnected, htext, hselected, hlocked⟩ := hbefore
    rcases hr : recordAfter platform ⟨env, .arrived⟩ input
      (lastRow tables.events (appendStreamId platform input)) with _ | event
    · rfl
    · refine if_neg fun hinsert => h event ?_
      obtain ⟨haccepted, hunique, hinserted, hcommitted⟩ := hinsert
      exact ⟨hconnected, ⟨htext, hselected⟩, hlocked, hr, haccepted, hunique, hinserted, hcommitted⟩
  · rfl

end Append

/-! ## The snapshot's own values -/

section Snapshot

variable {platform : Platform} {server : Server}

theorem isText_append (s t : JsString) : isText (s ++ t) = (isText s && isText t) := by
  simp [isText, not_or]

theorem isText_upperDigits {s : JsString} (h : ∀ c ∈ s, isHexDigit c) :
    isText (s.map upperDigit) := by
  have hc : ∀ c : CodeUnit, isHexDigit c → upperDigit c ≠ 0 := by
    intro c hc h0
    have hval := congrArg Fin.val h0
    unfold upperDigit at hval
    simp only [isHexDigit, Bool.or_eq_true, Bool.and_eq_true, decide_eq_true_eq] at hc
    split_ifs at hval with hlow
    · rw [Fin.val_ofNat, Nat.mod_eq_of_lt (by omega)] at hval
      simp at hval
      omega
    · simp at hval
      omega
  simp only [isText, List.mem_map, decide_eq_true_eq, not_exists, not_and]
  exact fun c hmem => hc c (h c hmem)

theorem isText_digits {s : JsString} (h : ∀ c ∈ s, isHexDigit c) : isText s := by
  simp only [isText, decide_eq_true_eq]
  intro h0
  exact absurd (h 0 h0) (by decide)

theorem isText_safeId (name : String) (hname : isText (js name)) (value : Json) :
    isText (safeId platform name value) := by
  have hdigits : isText (((hash platform value).take 24).map upperDigit) :=
    isText_upperDigits fun c hc => platform.sha256Hex_digits _ c (List.mem_of_mem_take hc)
  unfold safeId
  rw [isText_append, isText_append, hname, hdigits]
  decide

theorem isText_hexHash (value : Json) : isText (hexHash platform value) := by
  have hdigits : isText (hash platform value) := isText_digits (platform.sha256Hex_digits _)
  unfold hexHash
  rw [isText_append, hdigits]
  decide

theorem clamp01_mem (n : JsNumber) : 0 ≤ clamp01 n ∧ clamp01 n ≤ 1 := by
  unfold clamp01
  split
  · exact ⟨le_max_left _ _, max_le zero_le_one (min_le_left _ _)⟩
  · exact ⟨le_rfl, zero_le_one⟩

theorem toRow_eq {time : ℤ} {event : EventRecord} {row : SnapshotRow}
    (h : toRow server time (createAddressResolutionLedgerSnapshot platform event) = some row) :
    server.timestamptz time event.occurredAt = some row.validFrom ∧ row.validTo = none
      ∧ row.streamId = event.streamId ∧ row.sequence = event.sequence
      ∧ row.lastEventId = event.eventId := by
  unfold toRow at h
  simp only [createAddressResolutionLedgerSnapshot, Option.bind_eq_bind,
    Option.bind_eq_some_iff, checkValidTo, Option.some.injEq, exists_eq_left'] at h
  obtain ⟨start, hstart, hrow⟩ := h
  obtain rfl := Option.some.inj hrow
  exact ⟨hstart, rfl, rfl, rfl, rfl⟩

theorem exists_toRow {time start : ℤ} {event : EventRecord}
    (h : server.timestamptz time event.occurredAt = some start) :
    ∃ row, toRow server time (createAddressResolutionLedgerSnapshot platform event) = some row
      ∧ row.snapshotId = (createAddressResolutionLedgerSnapshot platform event).snapshotId := by
  unfold toRow
  simp only [createAddressResolutionLedgerSnapshot, h, Option.bind_eq_bind, Option.bind_some,
    checkValidTo]
  exact ⟨_, rfl, rfl⟩

/-- Where the event is taken, so is its snapshot. -/
theorem acceptsSnapshot_of_event {tables : Tables} {time time' : ℤ} {event : EventRecord}
    {rows : List SnapshotRow} {row : SnapshotRow}
    (h : acceptsEvent server tables time event)
    (hrow : toRow server time' (createAddressResolutionLedgerSnapshot platform event) = some row) :
    acceptsSnapshot { tables with events := tables.events ++ [event], snapshots := rows } row := by
  unfold toRow at hrow
  simp only [createAddressResolutionLedgerSnapshot, Option.bind_eq_bind,
    Option.bind_eq_some_iff, checkValidTo, Option.some.injEq, exists_eq_left'] at hrow
  obtain ⟨start, hstart, hrow⟩ := hrow
  obtain rfl := Option.some.inj hrow
  unfold acceptsEvent EventRecord.texts at h
  simp only [Bool.and_eq_true, List.all_append, List.all_cons, List.all_nil, and_true] at h
  obtain ⟨⟨⟨⟨⟨⟨htexts, hoptional⟩, hversion⟩, hsequence⟩, htime⟩, hresolution⟩, hjson⟩ := h
  obtain ⟨hevent, hstream, haggregate, hpayload, hhash⟩ := htexts
  have hid : ∀ value, isText (safeId platform "ARLTS" value) :=
    isText_safeId "ARLTS" (by decide)
  unfold acceptsSnapshot SnapshotRow.texts
  simp only [Bool.and_eq_true, List.all_append, List.all_cons, List.all_nil, and_true,
    hid, isText_hexHash, hstream, haggregate, hevent, hhash, hsequence, true_and, decide_eq_true_eq,
    clamp01_mem]
  refine ⟨⟨?_, by simp⟩, ?_⟩
  · rcases hr : event.resolutionId with _ | id
    · rfl
    · have htext : isText id := by
        simp only [hr, List.all_eq_true, List.mem_filterMap] at hoptional
        exact hoptional id ⟨some id, List.mem_cons_self, rfl⟩
      by_cases hnil : id = [] <;> simp [nonEmpty, hnil, htext]
  · rcases hr : event.resolutionId with _ | id
    · rfl
    · rw [hr] at hresolution
      by_cases hnil : id = []
      · simp [nonEmpty, hnil]
      · simpa [nonEmpty, hnil] using hresolution

end Snapshot

/-! ## The two statements -/

section Written

variable {platform : Platform} {server : Server} {commands : Commands} {tables : Tables}
  {event : EventRecord}

theorem isSome_closeOpen (time : ℤ) (snapshot : SnapshotRecord) (rows : List SnapshotRow) :
    (closeOpen server time snapshot rows).isSome
      ↔ ∃ stop, server.timestamptz time snapshot.validFrom = some stop
        ∧ ∀ row ∈ rows, row.streamId = snapshot.streamId → row.validTo = none →
          row.sequence < snapshot.sequence → row.validFrom < stop := by
  unfold closeOpen
  rcases server.timestamptz time snapshot.validFrom with _ | stop
  · simp
  · simp only [Option.bind_eq_bind, Option.bind_some, isSome_update, Option.some.injEq,
      exists_eq_left']
    refine forall₂_congr fun row _ => ?_
    by_cases hlt : row.validFrom < stop <;> simp [checkValidTo, hlt, and_imp]

/-- A row with its end, and what is set with it, aside. -/
def SnapshotRow.Alike (row other : SnapshotRow) : Prop :=
  row.snapshotId = other.snapshotId ∧ row.lastEventId = other.lastEventId ∧ row.SameStart other

theorem SnapshotRow.SameStart.trans {a b c : SnapshotRow} (h : a.SameStart b) (h' : b.SameStart c) :
    a.SameStart c :=
  ⟨h.1.trans h'.1, h.2.1.trans h'.2.1, h.2.2.1.trans h'.2.2.1, h.2.2.2.1.trans h'.2.2.2.1,
    h.2.2.2.2.trans h'.2.2.2.2⟩

theorem SnapshotRow.SameStart.symm {a b : SnapshotRow} (h : a.SameStart b) : b.SameStart a :=
  ⟨h.1.symm, h.2.1.symm, h.2.2.1.symm, h.2.2.2.1.symm, h.2.2.2.2.symm⟩

theorem mem_closeOpen {time : ℤ} {snapshot : SnapshotRecord} {rows rows' : List SnapshotRow}
    (h : closeOpen server time snapshot rows = some rows') :
    (∀ row' ∈ rows', ∃ row ∈ rows, row.Alike row')
      ∧ ∀ row ∈ rows, ∃ row' ∈ rows', row.Alike row' := by
  unfold closeOpen at h
  obtain ⟨stop, -, hupdate⟩ := Option.bind_eq_some_iff.1 h
  have halike : ∀ row row' : SnapshotRow, (if row.streamId = snapshot.streamId && row.validTo.isNone
      && row.sequence < snapshot.sequence then do
        let validTo ← checkValidTo row.validFrom (some stop)
        return { row with validTo := validTo }
      else some row) = some row' → row.Alike row' := by
    intro row row' hrow
    split_ifs at hrow
    · obtain ⟨validTo, -, hset⟩ := Option.bind_eq_some_iff.1 hrow
      obtain rfl := Option.some.inj hset
      exact ⟨rfl, rfl, rfl, rfl, rfl, rfl, rfl⟩
    · obtain rfl := Option.some.inj hrow
      exact ⟨rfl, rfl, rfl, rfl, rfl, rfl, rfl⟩
  refine ⟨fun row' hrow' => ?_, fun row hrow => ?_⟩
  · obtain ⟨row, hrow, hchange⟩ := (mem_update hupdate row').1 hrow'
    exact ⟨row, hrow, halike row row' hchange⟩
  · obtain ⟨row', hrow', hchange⟩ := exists_update hupdate hrow
    exact ⟨row', hrow', halike row row' hchange⟩

theorem overwrite_eq {excluded row : SnapshotRow} (hend : excluded.validTo = none)
    (hid : row.snapshotId = excluded.snapshotId) :
    excluded.overwrite row = some excluded ↔ row.SameStart excluded := by
  constructor
  · intro h
    unfold SnapshotRow.overwrite at h
    rw [hend] at h
    have heq := Option.some.inj h
    exact ⟨congrArg (·.streamId) heq, congrArg (·.aggregateKind) heq,
      congrArg (·.aggregateId) heq, congrArg (·.sequence) heq, congrArg (·.validFrom) heq⟩
  · rintro ⟨hstream, hkind, haggregate, hsequence, hfrom⟩
    rcases row with ⟨_, _, _, _, _, from_, _, _, _, _, _, _, _, _⟩
    rcases excluded with ⟨_, _, _, _, _, _, stop, _, _, _, _, _, _, _⟩
    simp only at hid hstream hkind haggregate hsequence hfrom hend
    subst hid hstream hkind haggregate hsequence hfrom hend
    rfl

theorem exists_overwrite {excluded : SnapshotRow} (row : SnapshotRow)
    (hend : excluded.validTo = none) :
    ∃ row', excluded.overwrite row = some row' := by
  unfold SnapshotRow.overwrite
  rw [hend]
  exact ⟨_, rfl⟩

/-- No row is under the id of this one, or one of the same start is. -/
def Free (rows : List SnapshotRow) (row : SnapshotRow) : Prop :=
  (∀ other ∈ rows, other.snapshotId ≠ row.snapshotId)
    ∨ ∃ other ∈ rows, other.snapshotId = row.snapshotId ∧ other.SameStart row

/-- The upsert stores the snapshot, unless another start is under its id. -/
theorem upsert_stores {time : ℤ} {snapshot : SnapshotRecord} {tables : Tables} {row : SnapshotRow}
    (hrow : toRow server time snapshot = some row) (hend : row.validTo = none)
    (haccepts : acceptsSnapshot tables row) :
    ∃ rows, upsert server time snapshot tables = some rows
      ∧ (row ∈ rows ↔ Free tables.snapshots row) := by
  unfold upsert Free
  rw [hrow]
  simp only [Option.bind_eq_bind, Option.bind_some, haccepts, if_true]
  split_ifs with hany
  · have hsome : (update (·.snapshotId = row.snapshotId) row.overwrite tables.snapshots).isSome :=
      isSome_update.2 fun other _ _ =>
        Option.isSome_iff_exists.2 (exists_overwrite other hend)
    obtain ⟨rows, hrows⟩ := Option.isSome_iff_exists.1 hsome
    refine ⟨rows, hrows, ?_⟩
    obtain ⟨first, hfirst, hid⟩ := List.any_eq_true.1 hany
    rw [mem_update hrows, or_iff_right fun h => h first hfirst (of_decide_eq_true hid)]
    refine exists_congr fun other => and_congr_right fun _ => ?_
    by_cases hother : other.snapshotId = row.snapshotId
    · simp only [hother, decide_true, if_true, true_and]
      exact overwrite_eq hend hother
    · simp only [hother, decide_false, false_and, iff_false, Bool.false_eq_true, if_false,
        Option.some.injEq]
      exact fun h => hother (congrArg _ h)
  · have hfree : ∀ other ∈ tables.snapshots, other.snapshotId ≠ row.snapshotId := by
      simpa using hany
    exact ⟨_, rfl, iff_of_true (by simp) (.inl hfree)⟩

theorem free_closeOpen {time : ℤ} {snapshot : SnapshotRecord} {rows rows' : List SnapshotRow}
    (h : closeOpen server time snapshot rows = some rows') (row : SnapshotRow) :
    Free rows' row ↔ Free rows row := by
  obtain ⟨hback, hforth⟩ := mem_closeOpen h
  refine or_congr ⟨fun hfree other hother => ?_, fun hfree other hother => ?_⟩
    ⟨fun ⟨other, hother, hid, hstart⟩ => ?_, fun ⟨other, hother, hid, hstart⟩ => ?_⟩
  · obtain ⟨other', hother', halike⟩ := hforth other hother
    exact fun hid => hfree other' hother' (halike.1.symm.trans hid)
  · obtain ⟨other', hother', halike⟩ := hback other hother
    exact fun hid => hfree other' hother' (halike.1.trans hid)
  · obtain ⟨other', hother', halike⟩ := hback other hother
    exact ⟨other', hother', halike.1.trans hid, halike.2.2.trans hstart⟩
  · obtain ⟨other', hother', halike⟩ := hforth other hother
    exact ⟨other', hother', halike.1.symm.trans hid, halike.2.2.symm.trans hstart⟩

/-- Where the event is stored and no row refers to it, its snapshot is exactly where both statements
go through. -/
theorem writeSnapshot_stores {row : SnapshotRow}
    (haccept : acceptsEvent server tables commands.insertedAt event)
    (hnew : ∀ other ∈ tables.snapshots, other.lastEventId ≠ event.eventId)
    (hrow : toRow server commands.upsertedAt (createAddressResolutionLedgerSnapshot platform event)
      = some row) :
    row ∈ (writeSnapshot server commands { tables with events := tables.events ++ [event] }
        (createAddressResolutionLedgerSnapshot platform event)).1
      ↔ commands.updating = .arrived ∧ commands.upserting ≠ .refused
        ∧ (closeOpen server commands.updatedAt
          (createAddressResolutionLedgerSnapshot platform event) tables.snapshots).isSome
        ∧ Free tables.snapshots row := by
  obtain ⟨-, hend, -, -, hlast⟩ := toRow_eq hrow
  have hout : row ∉ tables.snapshots := fun hmem => hnew row hmem hlast
  unfold writeSnapshot
  rcases hclose : closeOpen server commands.updatedAt
    (createAddressResolutionLedgerSnapshot platform event) tables.snapshots with _ | rows
  · simp [statement, hout]
  have hout' : row ∉ rows := fun hmem => by
    obtain ⟨other, hother, halike⟩ := (mem_closeOpen hclose).1 row hmem
    exact hnew other hother (halike.2.1.trans hlast)
  have haccepts : acceptsSnapshot
      { tables with events := tables.events ++ [event], snapshots := rows } row :=
    acceptsSnapshot_of_event haccept hrow
  obtain ⟨rows', hupsert, hmem⟩ := upsert_stores hrow hend haccepts
  rcases hup : commands.updating with _ | _ | _
  · rcases hins : commands.upserting with _ | _ | _
    · simp only [statement, hupsert, hmem]
      simpa using free_closeOpen hclose row
    · simp [statement, hupsert, hout']
    · simp only [statement, hupsert, hmem]
      simpa using free_closeOpen hclose row
  · simp [statement, hout]
  · simp [statement, hout']

theorem Commits.new {env : Env} {input : EventInput} (hlawful : tables.Lawful)
    (h : Commits platform server env commands tables input event) :
    ∀ row ∈ tables.snapshots, row.lastEventId ≠ event.eventId := by
  intro row hrow hlast
  obtain ⟨other, hother, hid⟩ := List.mem_map.1 (hlawful.lastEvents row hrow)
  refine h.unique (List.any_eq_true.2 ⟨other, hother, ?_⟩)
  simp [clashes, hid.trans hlast]

/-- The snapshot of a stored event, before any statement. -/
theorem not_stored {env : Env} {input : EventInput} (hlawful : tables.Lawful)
    (h : Commits platform server env commands tables input event) {time : ℤ} {row : SnapshotRow}
    (hrow : toRow server time (createAddressResolutionLedgerSnapshot platform event) = some row) :
    row ∉ tables.snapshots :=
  fun hmem => h.new hlawful row hmem (toRow_eq hrow).2.2.2.2

/-- The event is stored, and then it depends on the snapshot. -/
theorem recordsAtomically_of_commits {env : Env} {input : EventInput} (hlawful : tables.Lawful)
    (h : Commits platform server env commands tables input event) :
    RecordsAtomically platform server env commands tables input
      ↔ SnapshotFits platform server commands tables event := by
  unfold RecordsAtomically recordEvent
  rw [append_of_commits h]
  have hgrown : ∀ s : List SnapshotRow, (⟨tables.events ++ [event], s, tables.resolutions⟩ : Tables)
      ≠ tables := fun s heq => by
    have := congrArg (List.length ∘ Tables.events) heq
    simp at this
  rcases hcom : commands.committing with _ | _ | _
  · simp only [if_true, hgrown, false_and, or_false, List.append_cancel_left_eq, List.cons.injEq,
      and_true]
    constructor
    · rintro ⟨_, row, rfl, hmem, hrow⟩
      obtain ⟨hup, hins, hclose, hfree⟩ :=
        (writeSnapshot_stores h.accepted (h.new hlawful) hrow).1 hmem
      exact ⟨hcom, hup, hins, (isSome_closeOpen _ _ _).1 hclose, row, hrow, hfree⟩
    · rintro ⟨-, hup, hins, hlater, row, hrow, hfree⟩
      refine ⟨event, row, rfl, ?_, hrow⟩
      exact (writeSnapshot_stores h.accepted (h.new hlawful) hrow).2
        ⟨hup, hins, (isSome_closeOpen _ _ _).2 hlater, hfree⟩
  · exact absurd hcom h.committed
  · refine iff_of_false ?_ fun hfits => by simpa [hcom] using hfits.committed
    rintro (⟨_, row, heq, hmem, hrow⟩ | ⟨heq, -⟩)
    · obtain rfl : event = _ := by simpa using heq
      exact not_stored hlawful h hrow hmem
    · exact hgrown _ heq

/-- The call is atomic exactly where the append does not commit, or both statements after it go
through. -/
theorem recordsAtomically_iff (platform : Platform) (server : Server) (env : Env)
    (commands : Commands) (tables : Tables) (input : EventInput) (hlawful : tables.Lawful) :
    RecordsAtomically platform server env commands tables input
      ↔ ∀ event, Commits platform server env commands tables input event →
        SnapshotFits platform server commands tables event := by
  by_cases hcommits : ∃ event, Commits platform server env commands tables input event
  · obtain ⟨event, h⟩ := hcommits
    rw [recordsAtomically_of_commits hlawful h]
    refine ⟨fun hfits event' h' => ?_, fun hall => hall event h⟩
    obtain rfl : event = event' := Except.ok.inj (h.created.symm.trans h'.created)
    exact hfits
  · have hnone : ∀ event, ¬ Commits platform server env commands tables input event :=
      fun event h => hcommits ⟨event, h⟩
    refine iff_of_true (.inr ?_) fun event h => absurd h (hnone event)
    unfold recordEvent
    rw [append_of_not_commits hnone]
    exact ⟨rfl, rfl⟩

end Written

/-! ## The keys -/

section Keys

variable {platform : Platform} {server : Server} {commands : Commands} {tables : Tables}

theorem map_update {α : Type} (f : SnapshotRow → α) {p : SnapshotRow → Bool}
    {change : SnapshotRow → Option SnapshotRow}
    (hkeep : ∀ row row', change row = some row' → f row' = f row) :
    ∀ {rows rows' : List SnapshotRow}, update p change rows = some rows' → rows'.map f = rows.map f
  | [], rows', h => by
    simp only [update, Option.some.injEq] at h
    rw [← h]
  | row :: rows, rows', h => by
    simp only [update, Option.bind_eq_some_iff, Option.map_eq_some_iff] at h
    obtain ⟨row₁, h₁, rows₁, hrows, rfl⟩ := h
    rw [List.map_cons, List.map_cons, map_update f hkeep hrows]
    split_ifs at h₁ with hp
    · rw [hkeep row row₁ h₁]
    · rw [Option.some.inj h₁]

theorem mem_lastEvents {rows : List SnapshotRow} {ids : List JsString} :
    (∀ row ∈ rows, row.lastEventId ∈ ids) ↔ ∀ id ∈ rows.map (·.lastEventId), id ∈ ids := by
  simp

theorem statement_fst (reply : Reply) (rows : List SnapshotRow)
    (next : Option (List SnapshotRow)) :
    (statement reply rows next).1 = rows ∨ next = some (statement reply rows next).1 := by
  rcases next with _ | rows'
  · exact .inl rfl
  · rcases reply with _ | _ | _
    · exact .inr rfl
    · exact .inl rfl
    · exact .inr rfl

theorem Tables.Lawful.closeOpen (h : tables.Lawful) {time : ℤ} {snapshot : SnapshotRecord}
    {rows : List SnapshotRow}
    (hrows : Postgres.closeOpen server time snapshot tables.snapshots = some rows) :
    ({ tables with snapshots := rows } : Tables).Lawful := by
  unfold Postgres.closeOpen at hrows
  obtain ⟨stop, -, hupdate⟩ := Option.bind_eq_some_iff.1 hrows
  have hkeep : ∀ row row' : SnapshotRow, (do
        let validTo ← checkValidTo row.validFrom (some stop)
        return { row with validTo := validTo } : Option SnapshotRow) = some row' →
      row'.snapshotId = row.snapshotId ∧ row'.lastEventId = row.lastEventId := by
    intro row row' hset
    obtain ⟨validTo, -, hset⟩ := Option.bind_eq_some_iff.1 hset
    obtain rfl := Option.some.inj hset
    exact ⟨rfl, rfl⟩
  refine ⟨h.events, ?_, ?_⟩
  · rw [map_update (·.snapshotId) (fun row row' hset => (hkeep row row' hset).1) hupdate]
    exact h.snapshots
  · rw [mem_lastEvents,
      map_update (·.lastEventId) (fun row row' hset => (hkeep row row' hset).2) hupdate]
    exact mem_lastEvents.1 h.lastEvents

theorem Tables.Lawful.upsert (h : tables.Lawful) {time : ℤ} {snapshot : SnapshotRecord}
    {rows : List SnapshotRow} (hrows : Postgres.upsert server time snapshot tables = some rows) :
    ({ tables with snapshots := rows } : Tables).Lawful := by
  unfold Postgres.upsert at hrows
  obtain ⟨excluded, -, hrows⟩ := Option.bind_eq_some_iff.1 hrows
  have hlast : acceptsSnapshot tables excluded →
      excluded.lastEventId ∈ tables.events.map (·.eventId) := fun haccepts => by
    simp only [acceptsSnapshot, Bool.and_eq_true, List.contains_iff_mem] at haccepts
    exact haccepts.1.2
  split_ifs at hrows with haccepts hany
  · refine ⟨h.events, ?_, fun row' hrow' => ?_⟩
    · rw [map_update (·.snapshotId) (fun row row' hset => ?_) hrows]
      · exact h.snapshots
      · obtain ⟨validTo, -, hset⟩ := Option.bind_eq_some_iff.1 hset
        rw [← Option.some.inj hset]
    · obtain ⟨row, hrow, hchange⟩ := (mem_update hrows row').1 hrow'
      split_ifs at hchange
      · obtain ⟨validTo, -, hset⟩ := Option.bind_eq_some_iff.1 hchange
        rw [← Option.some.inj hset]
        exact hlast haccepts
      · rw [← Option.some.inj hchange]
        exact h.lastEvents row hrow
  · obtain rfl := Option.some.inj hrows
    refine ⟨h.events, ?_, ?_⟩
    · simp only [List.any_eq_true, decide_eq_true_eq, not_exists, not_and] at hany
      rw [List.map_append, List.map_singleton, ← List.concat_eq_append, List.nodup_concat]
      refine ⟨fun hmem => ?_, h.snapshots⟩
      obtain ⟨row, hrow, hid⟩ := List.mem_map.1 hmem
      exact hany row hrow hid
    · refine List.forall_mem_append.2 ⟨h.lastEvents, fun row hrow => ?_⟩
      obtain rfl := List.mem_singleton.1 hrow
      exact hlast haccepts

theorem Tables.Lawful.insert (h : tables.Lawful) {event : EventRecord}
    (hunique : ¬ tables.events.any (clashes event)) :
    ({ tables with events := tables.events ++ [event] } : Tables).Lawful := by
  refine ⟨List.pairwise_append.2 ⟨h.events, List.pairwise_singleton _ _, ?_⟩, h.snapshots,
    fun row hrow => ?_⟩
  · intro row hrow last hlast
    obtain rfl := List.mem_singleton.1 hlast
    exact fun hclash => hunique (List.any_eq_true.2 ⟨row, hrow, clashes_comm row last ▸ hclash⟩)
  · rw [List.map_append]
    exact List.mem_append_left _ (h.lastEvents row hrow)

theorem Tables.Lawful.writeSnapshot (h : tables.Lawful) (snapshot : SnapshotRecord) :
    ({ tables with
      snapshots := (writeSnapshot server commands tables snapshot).1 } : Tables).Lawful := by
  have hupdated : ({ tables with snapshots := (statement commands.updating tables.snapshots
      (Postgres.closeOpen server commands.updatedAt snapshot
        tables.snapshots)).1 } : Tables).Lawful := by
    rcases statement_fst commands.updating tables.snapshots
      (Postgres.closeOpen server commands.updatedAt snapshot tables.snapshots) with hrows | hrows
    · rw [hrows]
      exact h
    · exact h.closeOpen hrows
  unfold Postgres.writeSnapshot
  split
  · rename_i rows hstatement
    rw [hstatement] at hupdated
    exact hupdated
  · rename_i rows hstatement
    rw [hstatement] at hupdated
    rcases statement_fst commands.upserting rows (Postgres.upsert server commands.upsertedAt
      snapshot { tables with snapshots := rows }) with hrows | hrows
    · rw [hrows]
      exact hupdated
    · exact hupdated.upsert hrows

/-- A call keeps the declared keys, whatever its commands come to. -/
theorem Tables.Lawful.recordEvent (h : tables.Lawful) (env : Env) (input : EventInput) :
    (recordEvent platform server env commands tables input).1.Lawful := by
  unfold Postgres.recordEvent
  by_cases hcommits : ∃ event, Commits platform server env commands tables input event
  · obtain ⟨event, hc⟩ := hcommits
    rw [append_of_commits hc]
    split_ifs
    · exact (h.insert hc.unique).writeSnapshot _
    · exact h.insert hc.unique
  · rw [append_of_not_commits fun event hc => hcommits ⟨event, hc⟩]
    exact h

theorem lawful_nil (resolutions : List JsString) : (⟨[], [], resolutions⟩ : Tables).Lawful :=
  ⟨.nil, .nil, fun _ h => by cases h⟩

end Keys

/-! ## Runs -/

/-- The times of two texts, in microseconds. -/
def sampleServer : Server where
  timestamptz _ s :=
    if s = js "2026-06-17T00:00:00.000Z" then some 1781654400000000
    else if s = js "2026-06-17T01:00:00.000Z" then some 1781658000000000
    else none
  jsonb _ := true

/-- Every command is replied to. -/
def sampleCommands : Commands :=
  ⟨.arrived, .arrived, .arrived, .arrived, .arrived, .arrived, .arrived, 0, 0, 0⟩

/-- The tables of two resolutions, and one event. -/
def sampleTables (resolutions : List JsString) (input : EventInput) : Tables :=
  (recordEvent samplePlatform sampleServer ⟨0, []⟩ sampleCommands ⟨[], [], resolutions⟩ input).1

def punctualTables : Tables :=
  sampleTables [js "r2"] (sampleInput none (js "2026-06-17T00:00:00.000Z"))

def lateTables : Tables :=
  sampleTables [js "late1", js "r22"]
    (sampleInput (some (js "late1")) (js "2026-06-17T01:00:00.000Z"))

def laterInput : EventInput := sampleInput (some (js "r2")) (js "2026-06-17T01:00:00.000Z")

/-- The second event is an hour after the open snapshot's start, and under an id of its own. -/
theorem recordsAtomically_punctual :
    RecordsAtomically samplePlatform sampleServer ⟨0, []⟩ sampleCommands punctualTables
      laterInput := by
  have hlawful : punctualTables.Lawful := (lawful_nil [js "r2"]).recordEvent _ _
  refine (recordsAtomically_iff _ _ _ _ _ _ hlawful).2 fun event h => ?_
  have hcheck : (recordAfter samplePlatform ⟨⟨0, []⟩, .arrived⟩ laterInput
      (lastRow punctualTables.events (appendStreamId samplePlatform laterInput))).toOption.all
        (fun event => event.occurredAt = js "2026-06-17T01:00:00.000Z"
          && punctualTables.snapshots.all fun row => row.validFrom < 1781658000000000
            && row.snapshotId ≠
              (createAddressResolutionLedgerSnapshot samplePlatform event).snapshotId) := by
    decide +kernel
  rw [h.created] at hcheck
  simp only [Except.toOption, Option.all_some, Bool.and_eq_true, decide_eq_true_eq,
    List.all_eq_true] at hcheck
  obtain ⟨htime, hrows⟩ := hcheck
  have hstart : sampleServer.timestamptz 0 event.occurredAt = some 1781658000000000 := by
    rw [htime]
    decide
  obtain ⟨row, hrow, hid⟩ := exists_toRow hstart
  refine ⟨rfl, rfl, by decide, ⟨_, hstart, fun row hmem _ _ _ => (hrows row hmem).1⟩, row, hrow,
    .inl fun other hother => ?_⟩
  rw [hid]
  exact (hrows other hother).2

def lateInput : EventInput := sampleInput (some (js "r22")) (js "2026-06-17T00:00:00.000Z")

theorem late_event_not_recordsAtomically :
    ¬ RecordsAtomically samplePlatform sampleServer ⟨0, []⟩ sampleCommands lateTables
      lateInput := by
  have hbefore : lateTables.events.map (·.sequence) = [1] := by decide +kernel
  have hafter : (recordEvent samplePlatform sampleServer ⟨0, []⟩ sampleCommands lateTables
        lateInput).1.events.map (·.sequence) = [1, 2]
      ∧ (recordEvent samplePlatform sampleServer ⟨0, []⟩ sampleCommands lateTables
        lateInput).1.snapshots.map (·.sequence) = [1] := by
    decide +kernel
  rintro (⟨event, row, hevents, hmem, hrow⟩ | ⟨htables, -⟩)
  · rw [hevents, List.map_append, hbefore] at hafter
    have hsequence : event.sequence = 2 := by simpa using hafter.1
    have hin := List.mem_map_of_mem (f := (·.sequence)) hmem
    rw [hafter.2, (toRow_eq hrow).2.2.2.1, hsequence] at hin
    exact absurd hin (by decide)
  · rw [htables, hbefore] at hafter
    exact absurd hafter.1 (by decide)

end Agid.ResolutionLedger.Postgres
