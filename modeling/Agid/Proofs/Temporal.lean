import Agid.Proofs.KeyedEvents
import Agid.LedgerSnapshots

/-!
# Snapshots and time

After any run the snapshots of a stream are the spans between the times of its events, in the
order in which they were recorded.  They part the time where that is the order of the times, and
nowhere else: an event that is late, or at the time of the one before, closes the span of its
predecessor before it begins, or where it begins.
-/

namespace Agid.ResolutionLedger

open Timeline

variable {platform : Platform}

/-! ## Snapshots as spans -/

def shot (platform : Platform) (p : EventRecord × Option JsString) : SnapshotRecord :=
  { createAddressResolutionLedgerSnapshot platform p.1 with validTo := p.2 }

/-- The snapshots of a stream's events. -/
def shots (platform : Platform) (events : List EventRecord) : List SnapshotRecord :=
  (spans EventRecord.occurredAt events).map (shot platform)

theorem filter_eq_singleton {α : Type*} {p : α → Bool} {a : α} : ∀ {l : List α},
    l.Pairwise (fun x y => p x → ¬ p y) → a ∈ l → p a → l.filter p = [a]
  | b :: l, h, ha, hp => by
    obtain ⟨hb, hl⟩ := List.pairwise_cons.1 h
    rcases List.mem_cons.1 ha with rfl | ha
    · rw [List.filter_cons_of_pos hp, List.filter_eq_nil_iff.2 fun x hx => hb x hx hp]
    · rw [List.filter_cons_of_neg fun hpb => hb a ha hpb hp, filter_eq_singleton hl ha hp]

section Spans

variable {κ : Type} [LinearOrder κ] {key : JsString → κ} {events : List EventRecord}

theorem covers_shot {p : EventRecord × Option JsString} {t : JsString} :
    (shot platform p).Covers key t ↔ Within EventRecord.occurredAt key p (key t) := .rfl

/-- Strictly increasing times are those of different events. -/
theorem Increasing.eq_of_key_eq (h : Increasing EventRecord.occurredAt key events)
    {a b : EventRecord} (ha : a ∈ events) (hb : b ∈ events)
    (hab : key a.occurredAt = key b.occurredAt) : a = b := by
  by_contra hne
  have : Std.Symm fun a b : EventRecord => key a.occurredAt ≠ key b.occurredAt := ⟨fun _ _ => Ne.symm⟩
  exact (List.Pairwise.imp (fun hlt => hlt.ne) h).forall ha hb hne hab

/-- A store whose queries find the snapshots that cover a time. -/
theorem tellsTime_shots_iff {getSnapshot : Option JsString → Option SnapshotRecord}
    {covers : JsString → SnapshotRecord → Bool}
    (hcovers : ∀ t, ∀ s ∈ shots platform events, covers t s = true ↔ s.Covers key t)
    (hget : ∀ at_, clean platform at_ ≠ [] → getSnapshot at_ =
      (((shots platform events).filter (covers (clean platform at_))).mergeSort
        fun a b => b.sequence ≤ a.sequence).head?) :
    TellsTime platform key events (shots platform events) getSnapshot
      ↔ Increasing EventRecord.occurredAt key events := by
  constructor
  · intro h
    refine increasing_iff.2 fun p hp => ?_
    obtain ⟨t, ht⟩ := h.nonempty _ (List.mem_map_of_mem hp)
    exact ⟨key t, ht⟩
  · intro h
    have hdisjoint : ∀ t, (shots platform events).Pairwise fun a b =>
        a.Covers key t → ¬ b.Covers key t := fun t => List.pairwise_map.2 (disjoint h)
    have hfound : ∀ at_, clean platform at_ ≠ [] → ∀ p ∈ spans EventRecord.occurredAt events,
        Within EventRecord.occurredAt key p (key (clean platform at_)) →
          getSnapshot at_ = some (shot platform p) := fun at_ hat p hp hwithin => by
      have hmem : shot platform p ∈ shots platform events := List.mem_map_of_mem hp
      rw [hget at_ hat, filter_eq_singleton ?_ hmem ((hcovers _ _ hmem).2 hwithin),
        List.mergeSort_singleton, List.head?_cons]
      refine (hdisjoint (clean platform at_)).imp_of_mem fun ha hb hab hca hcb => ?_
      exact hab ((hcovers _ _ ha).1 hca) ((hcovers _ _ hb).1 hcb)
    refine ⟨fun s hs => ?_, ?_, fun event he t hle => ?_, fun hne => ?_, fun at_ hat event he hlatest => ?_,
      fun at_ hat hnone => ?_⟩
    · obtain ⟨p, hp, rfl⟩ := List.mem_map.1 hs
      obtain ⟨t, hle, hlt⟩ := increasing_iff.1 h p hp
      exact ⟨p.1.occurredAt, le_rfl, fun stop hstop => hle.trans_lt (hlt stop hstop)⟩
    · exact List.pairwise_iff_getElem.2 fun i j hi hj hij t =>
        List.pairwise_iff_getElem.1 (hdisjoint t) i j hi hj hij
    · obtain ⟨p, hp, hwithin⟩ := exists_within EventRecord.occurredAt ⟨event, he, hle⟩
      exact ⟨_, List.mem_map_of_mem hp, hwithin⟩
    · obtain ⟨last, hlast⟩ := Option.isSome_iff_exists.1 (List.getLast?_isSome.2 hne)
      obtain ⟨closed, heq, hclosed⟩ := spans_eq_concat EventRecord.occurredAt hlast
      have hnil : (closed.map (shot platform)).filter (·.validTo.isNone) = [] := by
        refine List.filter_eq_nil_iff.2 fun s hs => ?_
        obtain ⟨p, hp, rfl⟩ := List.mem_map.1 hs
        simpa [shot] using hclosed p hp
      rw [shots, heq, List.map_append, List.filter_append, hnil]
      rfl
    · obtain ⟨p, hp, hwithin⟩ :=
        exists_within EventRecord.occurredAt ⟨event, he, hlatest.1⟩
      obtain ⟨hle, hmax⟩ := (within_iff h p hp).1 hwithin
      have heq : event = p.1 := by
        refine Increasing.eq_of_key_eq h he (mem_of_mem_spans hp) ?_
        rcases hlatest.2 p.1 (mem_of_mem_spans hp) hle with hlt | heq
        · exact absurd (hmax event he hlatest.1) (not_le.2 hlt)
        · exact heq.1.symm
      exact ⟨_, List.mem_map_of_mem hp, hfound at_ hat p hp hwithin, by rw [heq]; rfl⟩
    · rw [hget at_ hat, List.filter_eq_nil_iff.2, List.mergeSort_nil, List.head?_nil]
      intro s hs hcov
      obtain ⟨p, hp, rfl⟩ := List.mem_map.1 hs
      exact hnone p.1 (mem_of_mem_spans hp) ((hcovers _ _ hs).1 hcov).1

end Spans

theorem shots_concat (events : List EventRecord) (event : EventRecord) :
    shots platform (events ++ [event])
      = ((spans EventRecord.occurredAt events).map (close event.occurredAt)).map (shot platform)
        ++ [createAddressResolutionLedgerSnapshot platform event] := by
  rw [shots, spans_concat, List.map_append]
  rfl

theorem filter_concat (recorded : List EventRecord) (event : EventRecord) (streamId : JsString) :
    (recorded ++ [event]).filter (·.streamId = streamId)
      = if event.streamId = streamId then recorded.filter (·.streamId = streamId) ++ [event]
        else recorded.filter (·.streamId = streamId) := by
  rw [List.filter_append]
  split_ifs with h
  · rw [List.filter_cons_of_pos (by simpa using h), List.filter_nil]
  · rw [List.filter_cons_of_neg (by simpa using h), List.filter_nil, List.append_nil]

namespace TemporalStore

theorem run_concat (store : TemporalStore) (calls : List (Env × EventInput))
    (call : Env × EventInput) :
    store.run platform (calls ++ [call]) = store.recordEvent platform (store.run platform calls) call := by
  rw [run, List.foldl_append]
  rfl

/-- A call records an event, or nothing but in the table of events. -/
theorem recordEvent_cases (platform : Platform) (store : TemporalStore) (s : store.State) (call : Env × EventInput) :
    (∃ events, store.appendEvent.run call.1 store.commands s.events
          (store.appendEvent.begin call.2) = (events, none)
        ∧ store.recordEvent platform s call = { s with events := events })
      ∨ ∃ events event, store.appendEvent.run call.1 store.commands s.events
          (store.appendEvent.begin call.2) = (events, some event)
        ∧ store.recordEvent platform s call = ⟨events, store.writeSnapshot s.snapshots
          (createAddressResolutionLedgerSnapshot platform event), s.recorded ++ [event]⟩ := by
  unfold recordEvent
  split
  · rename_i events heq
    exact .inl ⟨events, heq, rfl⟩
  · rename_i events event heq
    exact .inr ⟨events, event, heq, rfl⟩

end TemporalStore

/-! ## Memory -/

namespace InMemory

theorem closeLast_concat (validFrom : JsString) (s : SnapshotRecord) : ∀ l : List SnapshotRecord,
    closeLast validFrom (l ++ [s])
      = l ++ [if isOpen s then { s with validTo := some validFrom } else s]
  | [] => rfl
  | [_] => rfl
  | a :: b :: l => by
    have ih := closeLast_concat validFrom s (b :: l)
    rw [List.cons_append] at ih
    rw [List.cons_append, List.cons_append, closeLast, ih]
    · rfl
    · simp

theorem stored_writeSnapshot (snapshots : Snapshots) (snapshot : SnapshotRecord)
    (streamId : JsString) : stored (writeSnapshot snapshots snapshot) streamId
      = if snapshot.streamId = streamId then
          closeLast snapshot.validFrom (stored snapshots streamId) ++ [snapshot]
        else stored snapshots streamId := by
  simp only [stored, writeSnapshot, Record.get?_set]
  split_ifs with h
  · subst h
    rfl
  · rfl

/-- Closing the last span closes what is open. -/
theorem closeLast_shots (validFrom : JsString) (events : List EventRecord) :
    closeLast validFrom (shots platform events)
      = ((spans EventRecord.occurredAt events).map (close validFrom)).map (shot platform) := by
  rcases hlast : events.getLast? with _ | last
  · rw [List.getLast?_eq_none_iff.1 hlast]
    rfl
  · obtain ⟨closed, heq, hclosed⟩ := spans_eq_concat EventRecord.occurredAt hlast
    have hsame : closed.map (close validFrom) = closed := by
      refine (List.map_congr_left fun p hp => ?_).trans (List.map_id closed)
      obtain ⟨stop, hstop⟩ := Option.ne_none_iff_exists'.1 (hclosed p hp)
      simp [close, hstop, Prod.ext_iff]
    rw [shots, heq, List.map_append, List.map_singleton, closeLast_concat, List.map_append, hsame,
      List.map_append]
    rfl

theorem stored_run (platform : Platform) (calls : List (Env × EventInput)) :
    (∀ streamId, stored ((temporal platform).run platform calls).snapshots streamId
        = shots platform (((temporal platform).run platform calls).recorded.filter
          (·.streamId = streamId)))
      ∧ ∀ event ∈ ((temporal platform).run platform calls).recorded, event.occurredAt ≠ [] := by
  induction calls using List.reverseRecOn with
  | nil => exact ⟨fun _ => rfl, fun _ h => (by cases h)⟩
  | append_singleton calls call ih =>
    rw [TemporalStore.run_concat]
    set s := (temporal platform).run platform calls
    rcases TemporalStore.recordEvent_cases platform (temporal platform) s call with
      ⟨events, -, heq⟩ | ⟨events, event, hrun, heq⟩
    · rw [heq]
      exact ih
    · rw [heq]
      refine ⟨fun streamId => ?_, fun e he => ?_⟩
      · rw [filter_concat]
        refine (stored_writeSnapshot _ _ _).trans ?_
        change (if event.streamId = streamId then _ else _) = _
        split_ifs
        · rw [shots_concat, ← closeLast_shots, ih.1]
          rfl
        · exact ih.1 streamId
      · rcases List.mem_append.1 he with he | he
        · exact ih.2 e he
        · rw [List.mem_singleton.1 he]
          simp only [temporal, Appending.run, appendEvent] at hrun
          split at hrun <;> cases hrun
          rename_i happend
          split at happend <;> cases happend
          rename_i hevent
          exact occurredAt_ne_nil hevent

theorem covers_iff {events : List EventRecord} (hne : ∀ event ∈ events, event.occurredAt ≠ [])
    (t : JsString) : ∀ s ∈ shots platform events,
      (s.validFrom ≤ t && (isOpen s || s.validTo.any (t < ·))) = true ↔ s.Covers id t := by
  intro s hs
  obtain ⟨p, hp, rfl⟩ := List.mem_map.1 hs
  simp only [Bool.and_eq_true, decide_eq_true_eq, Bool.or_eq_true]
  refine and_congr_right fun _ => ?_
  rcases hstop : p.2 with _ | stop
  · simp [shot, hstop, isOpen]
  · obtain ⟨event, he, rfl⟩ := exists_start_of_stop _ p hp hstop
    have hnil := hne event he
    simp [shot, hstop, isOpen, nonEmpty, hnil]

theorem tellsTime_iff (platform : Platform) (calls : List (Env × EventInput))
    (streamId : JsString) :
    (temporal platform).TellsTime platform id calls streamId
      ↔ (temporal platform).InOrder platform id calls streamId := by
  obtain ⟨hstored, hne⟩ := stored_run platform calls
  have hne' := fun event he => hne event (List.mem_of_mem_filter (p := (·.streamId = streamId)) he)
  unfold TemporalStore.TellsTime TemporalStore.InOrder
  simp only
  rw [show (temporal platform).stored _ streamId = _ from hstored streamId]
  refine tellsTime_shots_iff (covers_iff hne') fun at_ hat => ?_
  rw [← hstored streamId]
  exact if_neg hat

end InMemory

/-! ## SQLite -/

namespace Sqlite

theorem run_append (platform : Platform) (env : Env) (rows : List EventRecord) (input : EventInput) :
    (appendEvent platform).run env 2 rows (.selecting input)
      = match recordAfter platform ⟨env, .arrived⟩ input
          (lastRow rows (appendStreamId platform input)) with
        | .error _ => (rows, none)
        | .ok event => if rows.any (clashes event) then (rows, none) else (rows ++ [event], some event) := by
  rcases hr : recordAfter platform ⟨env, .arrived⟩ input
    (lastRow rows (appendStreamId platform input)) with _ | event
  · simp [Appending.run, appendEvent, command, hr]
  · by_cases hclash : rows.any (clashes event)
    · simp only [Appending.run, appendEvent, command, hr, hclash, if_true]
    · simp only [Appending.run, appendEvent, command, hr, hclash]
      rfl

def snapshotId (platform : Platform) (event : EventRecord) : JsString :=
  (createAddressResolutionLedgerSnapshot platform event).snapshotId

/-- The rows are the events recorded, and the snapshots of a stream its spans. -/
structure TemporalInv (platform : Platform) (s : (temporal platform).State) : Prop where
  events : s.events = s.recorded
  table : TableInv platform s.recorded
  timed : ∀ event ∈ s.recorded, event.occurredAt ≠ []
  snapshots : ∀ streamId, List.filter (fun row : SnapshotRecord => row.streamId = streamId)
    s.snapshots = shots platform (s.recorded.filter (·.streamId = streamId))

theorem exists_shot {rows : List SnapshotRecord} {recorded : List EventRecord}
    (hsnapshots : ∀ streamId, rows.filter (·.streamId = streamId)
      = shots platform (recorded.filter (·.streamId = streamId)))
    {row : SnapshotRecord} (hrow : row ∈ rows) :
    ∃ event ∈ recorded, ∃ stop, row = shot platform (event, stop) := by
  have hmem : row ∈ shots platform (recorded.filter (·.streamId = row.streamId)) :=
    hsnapshots row.streamId ▸ List.mem_filter.2 ⟨hrow, by simp⟩
  obtain ⟨p, hp, rfl⟩ := List.mem_map.1 hmem
  exact ⟨p.1, List.mem_of_mem_filter (mem_of_mem_spans hp), p.2, rfl⟩

/-- The rows of the event's stream are closed, and the others are as they were. -/
theorem filter_writeSnapshot {rows : List SnapshotRecord} {recorded : List EventRecord}
    {event : EventRecord} (hnew : ∀ row ∈ rows, row.snapshotId ≠ snapshotId platform event)
    (hsnapshots : ∀ streamId, rows.filter (·.streamId = streamId)
      = shots platform (recorded.filter (·.streamId = streamId)))
    (hlast : ∀ e ∈ recorded, e.streamId = event.streamId → e.sequence < event.sequence)
    (streamId : JsString) :
    (writeSnapshot rows (createAddressResolutionLedgerSnapshot platform event)).filter
        (·.streamId = streamId)
      = shots platform ((recorded ++ [event]).filter (·.streamId = streamId)) := by
  set snapshot := createAddressResolutionLedgerSnapshot platform event
  set update : SnapshotRecord → SnapshotRecord := fun row =>
    if row.streamId = snapshot.streamId ∧ row.validTo = none ∧ row.sequence < snapshot.sequence then
      { row with validTo := some snapshot.validFrom }
    else row with hupdate
  have hstream : ∀ row, (update row).streamId = row.streamId := fun row => by
    simp only [hupdate]
    split_ifs <;> rfl
  have hid : ∀ row, (update row).snapshotId = row.snapshotId := fun row => by
    simp only [hupdate]
    split_ifs <;> rfl
  have hkept : (rows.map update).filter (·.snapshotId ≠ snapshot.snapshotId) = rows.map update := by
    refine List.filter_eq_self.2 fun row hrow => ?_
    obtain ⟨row', hrow', rfl⟩ := List.mem_map.1 hrow
    simpa [hid, snapshotId, snapshot] using hnew row' hrow'
  have hfilter : (rows.map update).filter (·.streamId = streamId)
      = (shots platform (recorded.filter (·.streamId = streamId))).map update := by
    rw [List.filter_map, ← hsnapshots streamId]
    congr 1
    exact List.filter_congr fun row _ => by simp [hstream]
  rw [show writeSnapshot rows snapshot
    = (rows.map update).filter (·.snapshotId ≠ snapshot.snapshotId) ++ [snapshot] from rfl, hkept,
    List.filter_append, hfilter, filter_concat]
  split_ifs with h
  · subst h
    rw [shots_concat, List.filter_cons_of_pos (by simp [snapshot, createAddressResolutionLedgerSnapshot]),
      List.filter_nil, shots, List.map_map, List.map_map]
    congr 1
    refine List.map_congr_left fun p hp => ?_
    obtain ⟨he, hs⟩ := List.mem_filter.1 (mem_of_mem_spans hp)
    have hlt := hlast p.1 he (by simpa using hs)
    simp only [decide_eq_true_eq] at hs
    rcases hstop : p.2 with _ | stop
    · simp [hupdate, shot, close, hstop, snapshot, createAddressResolutionLedgerSnapshot, hs, hlt]
    · simp [hupdate, shot, close, hstop]
  · rw [List.filter_cons_of_neg (by simpa [snapshot, createAddressResolutionLedgerSnapshot] using h),
      List.filter_nil, List.append_nil]
    refine (List.map_congr_left fun row hrow => ?_).trans (List.map_id _)
    obtain ⟨p, hp, rfl⟩ := List.mem_map.1 hrow
    have hs := (List.mem_filter.1 (mem_of_mem_spans hp)).2
    simp only [decide_eq_true_eq] at hs
    refine if_neg fun hcond => h ?_
    rw [← hs]
    exact hcond.1.symm

theorem TemporalInv.record {s : (temporal platform).State} (h : TemporalInv platform s)
    (call : Env × EventInput)
    (hids : (((temporal platform).recordEvent platform s call).recorded.map
      (snapshotId platform)).Nodup) :
    TemporalInv platform ((temporal platform).recordEvent platform s call) := by
  have hrun := run_append platform call.1 s.events call.2
  rcases TemporalStore.recordEvent_cases platform (temporal platform) s call with
    ⟨events, heq, hcall⟩ | ⟨events, event, heq, hcall⟩
  · rw [hcall]
    have hsame : events = s.events := by
      rw [show (appendEvent platform).run call.1 2 s.events (.selecting call.2)
        = (events, none) from heq] at hrun
      split at hrun
      · exact congrArg Prod.fst hrun
      · split_ifs at hrun
        · exact congrArg Prod.fst hrun
        · cases congrArg Prod.snd hrun
    exact ⟨hsame.trans h.events, h.table, h.timed, h.snapshots⟩
  · rw [hcall] at hids ⊢
    rw [show (appendEvent platform).run call.1 2 s.events (.selecting call.2)
      = (events, some event) from heq] at hrun
    split at hrun
    · cases congrArg Prod.snd hrun
    · rename_i event' hevent
      split_ifs at hrun with hclash
      · cases congrArg Prod.snd hrun
      · cases hrun
        have hevent' : recordAfter platform ⟨call.1, .arrived⟩ call.2
            (lastRow s.recorded (appendStreamId platform call.2)) = .ok event := h.events ▸ hevent
        have hfree : s.recorded.any (clashes event) = false := by
          rw [← h.events]
          simpa using hclash
        have hprepared := h.table.prepared_last hevent'
        have htable := h.table.insert hprepared hfree
        refine ⟨congrArg (· ++ [event]) h.events, htable, fun e he => ?_, fun streamId => ?_⟩
        · rcases List.mem_append.1 he with he | he
          · exact h.timed e he
          · rw [List.mem_singleton.1 he]
            exact occurredAt_ne_nil hevent'
        · refine filter_writeSnapshot (fun row hrow => ?_) h.snapshots (fun e he hs => ?_) streamId
          · obtain ⟨e, he, stop, rfl⟩ := exists_shot h.snapshots hrow
            rw [List.map_append, List.nodup_append] at hids
            exact hids.2.2 _ (List.mem_map_of_mem he) _ (List.mem_singleton_self _)
          · have hpair := (htable.linked event.streamId).pairwise
            rw [filter_concat, if_pos rfl, List.pairwise_append] at hpair
            exact hpair.2.2 e (List.mem_filter.2 ⟨he, by simpa using hs⟩) event
              (List.mem_singleton_self _)

theorem recorded_grows (s : (temporal platform).State) (call : Env × EventInput) :
    s.recorded <+: ((temporal platform).recordEvent platform s call).recorded := by
  rcases TemporalStore.recordEvent_cases platform (temporal platform) s call with
    ⟨events, -, hcall⟩ | ⟨events, event, -, hcall⟩ <;> rw [hcall]
  exact List.prefix_append _ _

theorem temporalInv_run (calls : List (Env × EventInput)) :
    (((temporal platform).run platform calls).recorded.map (snapshotId platform)).Nodup →
      TemporalInv platform ((temporal platform).run platform calls) := by
  induction calls using List.reverseRecOn with
  | nil =>
    exact fun _ => ⟨rfl, tableInv_nil, fun _ h => (by cases h), fun _ => rfl⟩
  | append_singleton calls call ih =>
    rw [TemporalStore.run_concat]
    intro hids
    exact (ih (hids.sublist ((recorded_grows _ call).sublist.map _))).record call hids

theorem covers_iff (t : JsString) (s : SnapshotRecord) :
    (decide (codePoints s.validFrom ≤ codePoints t)
      && s.validTo.all (codePoints t < codePoints ·)) = true ↔ s.Covers codePoints t := by
  simp only [Bool.and_eq_true, decide_eq_true_eq]
  refine and_congr_right fun _ => ?_
  rcases s.validTo with _ | stop <;> simp

theorem getSnapshot_of_ne_nil (rows : List SnapshotRecord) {streamId : JsString}
    {at_ : Option JsString} (hat : clean platform at_ ≠ []) :
    getSnapshot platform rows streamId at_
      = (((rows.filter (·.streamId = streamId)).filter fun row =>
          decide (codePoints row.validFrom ≤ codePoints (clean platform at_))
            && row.validTo.all (codePoints (clean platform at_) < codePoints ·)).mergeSort
              fun a b => b.sequence ≤ a.sequence).head?.map rowToSnapshot := by
  rw [getSnapshot, List.filter_filter]
  simp only [hat, if_false]
  congr 4
  funext row
  rw [Bool.and_assoc, Bool.and_comm]

theorem rowToSnapshot_shot {events : List EventRecord}
    (hne : ∀ event ∈ events, event.occurredAt ≠ []) {row : SnapshotRecord}
    (hrow : row ∈ shots platform events) : rowToSnapshot row = row := by
  obtain ⟨p, hp, rfl⟩ := List.mem_map.1 hrow
  have hstop : p.2.bind nonEmpty = p.2 := by
    rcases hp2 : p.2 with _ | stop
    · rfl
    · obtain ⟨event, he, rfl⟩ := exists_start_of_stop _ p hp hp2
      simp [nonEmpty, hne event he]
  have hid : (p.1.resolutionId.bind nonEmpty).bind nonEmpty = p.1.resolutionId.bind nonEmpty := by
    rcases p.1.resolutionId with _ | id
    · rfl
    · by_cases hid : id = [] <;> simp [nonEmpty, hid]
  simp only [rowToSnapshot, shot, createAddressResolutionLedgerSnapshot, hstop, hid]

theorem tellsTime_iff (platform : Platform) (calls : List (Env × EventInput)) (streamId : JsString)
    (hids : (((temporal platform).run platform calls).recorded.map (snapshotId platform)).Nodup) :
    (temporal platform).TellsTime platform codePoints calls streamId
      ↔ (temporal platform).InOrder platform codePoints calls streamId := by
  obtain ⟨-, -, hne, hsnapshots⟩ := temporalInv_run calls hids
  have hne' := fun event he => hne event (List.mem_of_mem_filter (p := (·.streamId = streamId)) he)
  have hrow : ∀ row ∈ shots platform (((temporal platform).run platform calls).recorded.filter
      (·.streamId = streamId)), rowToSnapshot row = row := fun row => rowToSnapshot_shot hne'
  have hstored : (temporal platform).stored ((temporal platform).run platform calls).snapshots
      streamId = shots platform (((temporal platform).run platform calls).recorded.filter
        (·.streamId = streamId)) := by
    change (List.filter _ _).map rowToSnapshot = _
    rw [hsnapshots streamId]
    exact (List.map_congr_left hrow).trans (List.map_id _)
  unfold TemporalStore.TellsTime TemporalStore.InOrder
  simp only
  rw [hstored]
  refine tellsTime_shots_iff (fun t s _ => covers_iff t s) fun at_ hat => ?_
  refine (getSnapshot_of_ne_nil _ hat).trans ?_
  rw [hsnapshots streamId]
  rcases hhead : (((shots platform _).filter _).mergeSort _).head? with _ | row
  · rfl
  · have hmem := List.mem_mergeSort.1 (List.mem_of_mem_head? hhead)
    rw [Option.map_some, hrow row (List.mem_of_mem_filter hmem)]

end Sqlite

/-- Memory and SQLite tell the time of a stream exactly where its events come in the order of their
times, in SQLite if no two snapshots have one id. -/
theorem tellsTime_iff_inOrder (platform : Platform) (calls : List (Env × EventInput))
    (streamId : JsString) :
    ((InMemory.temporal platform).TellsTime platform id calls streamId
        ↔ (InMemory.temporal platform).InOrder platform id calls streamId)
      ∧ ((((Sqlite.temporal platform).run platform calls).recorded.map
            (Sqlite.snapshotId platform)).Nodup →
          ((Sqlite.temporal platform).TellsTime platform codePoints calls streamId
            ↔ (Sqlite.temporal platform).InOrder platform codePoints calls streamId)) :=
  ⟨InMemory.tellsTime_iff platform calls streamId, Sqlite.tellsTime_iff platform calls streamId⟩

/-- An event, and another one an hour later. -/
def punctualCalls : List (Env × EventInput) :=
  [(⟨0, []⟩, sampleInput none (js "2026-06-17T00:00:00.000Z")),
    (⟨0, []⟩, sampleInput (some (js "r2")) (js "2026-06-17T01:00:00.000Z"))]

theorem tellsTime_iff_inOrder_punctual :
    (InMemory.temporal samplePlatform).TellsTime samplePlatform id punctualCalls (js "s1")
      ∧ (Sqlite.temporal samplePlatform).TellsTime samplePlatform codePoints punctualCalls
        (js "s1") := by
  obtain ⟨hmemory, hsqlite⟩ := tellsTime_iff_inOrder samplePlatform punctualCalls (js "s1")
  refine ⟨hmemory.2 ?_, (hsqlite ?_).2 ?_⟩
  · unfold TemporalStore.InOrder
    decide
  · decide +kernel
  · unfold TemporalStore.InOrder
    decide +kernel

/-- An event, and then one of an hour before. -/
def lateCalls : List (Env × EventInput) :=
  [(⟨0, []⟩, sampleInput (some (js "late1")) (js "2026-06-17T01:00:00.000Z")),
    (⟨0, []⟩, sampleInput (some (js "r22")) (js "2026-06-17T00:00:00.000Z"))]

theorem late_event_not_tellsTime :
    ¬ (InMemory.temporal samplePlatform).TellsTime samplePlatform id lateCalls (js "s1") := by
  rw [InMemory.tellsTime_iff]
  unfold TemporalStore.InOrder
  decide

end Agid.ResolutionLedger
