import Agid.Proofs.Nullifiers

/-!
# Memory and SQLite

The memory store and the SQLite store side by side: after each write their answers are compared
part by part.  A part that SQLite replaces is the same where its rows are read back as they were
given, and one that it ignores where nothing clashes with another resolution; both lose what the
resolution had before and does not bring again, which memory keeps.
-/

namespace Agid.ResolutionLedger

section Part

variable {α : Type} {key owner : α → JsString} {back : α → α} {resolutions after : JsString → Prop}
  {r : Record JsString α} {rows l : List α} {id : JsString}

/-- One part of the entries in both stores: no row is without its resolution. -/
structure PartInv (key owner : α → JsString) (resolutions : JsString → Prop)
    (r : Record JsString α) (rows : List α) : Prop where
  keyed : Rows.Keyed key r
  owned : ∀ row ∈ r.values, resolutions (owner row)
  rowsOwned : ∀ row ∈ rows, resolutions (owner row)

theorem PartInv.setAll (h : PartInv key owner resolutions r rows)
    (hafter : ∀ id, resolutions id → after id) (hid : after id) (hl : ∀ row ∈ l, owner row = id)
    {rows' : List α} (hrows : ∀ row ∈ rows', row ∈ rows ∨ row ∈ l) :
    PartInv key owner after (l.foldl (fun r a => r.set (key a) a) r) rows' where
  keyed := h.keyed.setAll
  owned row hrow := by
    rcases h.keyed.mem_setAll.1 hrow with hlast | ⟨hold, -⟩
    · rwa [hl row (hlast.mem key)]
    · exact hafter _ (h.owned row hold)
  rowsOwned row hrow := by
    rcases hrows row hrow with hold | hnew
    · exact hafter _ (h.rowsOwned row hold)
    · rwa [hl row hnew]

theorem mem_rowsOf {time : α → JsString} {row : α} :
    row ∈ rowsOf owner time rows id ↔ row ∈ rows ∧ owner row = id := by
  simp [rowsOf, List.mem_insertionSort]

theorem PartInv.answers_iff (h : PartInv key owner resolutions r rows)
    (hback : Rows.Reads key owner back) (time : α → JsString) :
    (∀ id, resolutions id → ∀ row, row ∈ (rowsOf owner time rows id).map back
        ↔ row ∈ r.values.filter (owner · = id))
      ↔ ∀ row, row ∈ rows.map back ↔ row ∈ r.values := by
  have hread : ∀ id row, row ∈ (rowsOf owner time rows id).map back
      ↔ row ∈ rows.map back ∧ owner row = id := fun id row => by
    simp only [List.mem_map, mem_rowsOf]
    constructor
    · rintro ⟨y, ⟨hy, ho⟩, rfl⟩
      exact ⟨⟨y, hy, rfl⟩, by rwa [hback.owner]⟩
    · rintro ⟨⟨y, hy, rfl⟩, ho⟩
      exact ⟨y, ⟨hy, by rwa [hback.owner] at ho⟩, rfl⟩
  simp only [hread, List.mem_filter, decide_eq_true_eq]
  constructor
  · intro hsame row
    constructor
    · intro hrow
      obtain ⟨y, hy, rfl⟩ := List.mem_map.1 hrow
      have howned := h.rowsOwned y hy
      rw [← hback.owner] at howned
      exact ((hsame _ howned _).1 ⟨hrow, rfl⟩).1
    · exact fun hrow => ((hsame _ (h.owned row hrow) row).2 ⟨hrow, rfl⟩).1
  · exact fun hsame id _ row => and_congr_left fun _ => hsame row

end Part

/-! ## Entries -/

/-- The ids of the steps of a resolution. -/
def stepIds (platform : Platform) (resolutionId : JsString) : List JsString :=
  [StepName.addressVerification, .federatedConsensus, .registryCheck, .addressDnsRecord,
    .internetProtocolChecks, .finalDecision].map fun name =>
      safeId platform "ARLS" (.array [.string resolutionId, .string name.text])

theorem nodup_eraseDups (l : List JsString) : l.eraseDups.Nodup := by
  induction l using List.reverseRecOn with
  | nil => exact .nil
  | append_singleton l a ih =>
    rw [List.eraseDups_append]
    by_cases ha : a ∈ l
    · simpa [List.removeAll, ha] using ih
    · have hnew : ([a].removeAll l).eraseDups = [a] := by
        simp [List.removeAll, ha, List.eraseDups_cons]
      rw [hnew, List.nodup_append]
      refine ⟨ih, List.nodup_singleton a, fun b hb c hc => ?_⟩
      rw [List.mem_singleton.1 hc]
      exact fun h => ha (h ▸ List.mem_eraseDups.1 hb)

/-- What every entry is like that is made of a resolution. -/
structure Made (platform : Platform) (entry : Entry) : Prop where
  commitments : ∀ item ∈ entry.commitments,
    item.resolutionId = entry.resolution.resolutionId
  evidence : ∀ item ∈ entry.evidence, item.resolutionId = entry.resolution.resolutionId
  steps : ∀ item ∈ entry.steps, item.resolutionId = entry.resolution.resolutionId
  nullifiers : ∀ item ∈ entry.nullifiers, item.resolutionId = entry.resolution.resolutionId
  stepIds : entry.steps.map (·.stepId) = stepIds platform entry.resolution.resolutionId
  hashes : (entry.commitments.map (·.commitmentHash)).Nodup
  nullifiersRead : ∀ item ∈ entry.nullifiers, rowToNullifier item = item
  oneNullifier : entry.nullifiers.length ≤ 1

theorem RecordCall.made (platform : Platform) (call : RecordCall) :
    Made platform (call.entry platform) where
  commitments := by
    intro item hitem
    obtain ⟨_, -, rfl⟩ := List.mem_map.1 hitem
    rfl
  evidence := by
    intro item hitem
    obtain ⟨_, -, rfl⟩ := List.mem_map.1 hitem
    rfl
  steps := by
    intro item hitem
    simp only [RecordCall.entry, createAddressResolutionLedgerEntry, List.mem_cons,
      List.not_mem_nil, or_false] at hitem
    rcases hitem with rfl | rfl | rfl | rfl | rfl | rfl <;> rfl
  nullifiers := (call.presents platform).owner
  stepIds := rfl
  hashes := by
    simp only [RecordCall.entry, createAddressResolutionLedgerEntry, List.map_map]
    change (List.map id _).Nodup
    rw [List.map_id]
    exact (nodup_eraseDups _).filter _
  nullifiersRead := by
    intro item hitem
    simp only [RecordCall.entry, createAddressResolutionLedgerEntry] at hitem
    split_ifs at hitem
    · cases hitem
    · rw [List.mem_singleton.1 hitem, rowToNullifier, nonEmpty]
      split_ifs with hexpires
      · rfl
      · simp [nonEmpty, hexpires]
  oneNullifier := (call.presents platform).one

/-! ## One write -/

section Write

variable {platform : Platform} {s : InMemory.Entries} {t : Tables} {entry : Entry}

/-- Memory and SQLite after the same calls. -/
structure Twin (platform : Platform) (s : InMemory.Entries) (t : Tables) : Prop where
  resolutions : ∀ id, (t.resolutions.find? (·.resolutionId = id)).isSome
    ↔ (s.resolutions.get? id).isSome
  commitments : PartInv (·.commitmentId) (·.resolutionId)
    (fun id => (s.resolutions.get? id).isSome) s.commitments t.commitments
  evidence : PartInv (·.evidenceId) (·.resolutionId)
    (fun id => (s.resolutions.get? id).isSome) s.evidence t.evidence
  steps : PartInv (·.stepId) (·.resolutionId)
    (fun id => (s.resolutions.get? id).isSome) s.steps t.steps
  nullifiers : PartInv (·.nullifierHash) (·.resolutionId)
    (fun id => (s.resolutions.get? id).isSome) s.nullifiers t.nullifiers
  stepIds : ∀ row ∈ s.steps.values, row.stepId ∈ stepIds platform row.resolutionId

theorem twin_empty : Twin platform InMemory.noEntries .empty where
  resolutions _ := by simp [Tables.empty, InMemory.noEntries]
  commitments := ⟨Rows.keyed_empty, nofun, nofun⟩
  evidence := ⟨Rows.keyed_empty, nofun, nofun⟩
  steps := ⟨Rows.keyed_empty, nofun, nofun⟩
  nullifiers := ⟨Rows.keyed_empty, nofun, nofun⟩
  stepIds := nofun

theorem isSome_set {r : Record JsString ResolutionRecord} {id : JsString}
    {resolution : ResolutionRecord} :
    ((r.set resolution.resolutionId resolution).get? id).isSome
      ↔ id = resolution.resolutionId ∨ (r.get? id).isSome := by
  rw [Record.get?_set]
  split_ifs with h
  · simp [h]
  · simp [Ne.symm h]

theorem Twin.write (h : Twin platform s t) (hm : Made platform entry) :
    Twin platform (InMemory.writeEntry s entry) (Sqlite.writeEntry t entry) := by
  have hafter : ∀ id, (s.resolutions.get? id).isSome →
      ((InMemory.writeEntry s entry).resolutions.get? id).isSome := fun id hid =>
    isSome_set.2 (.inr hid)
  have hid : ((InMemory.writeEntry s entry).resolutions.get?
      entry.resolution.resolutionId).isSome := isSome_set.2 (.inl rfl)
  refine ⟨fun id => ?_, ?_, ?_, ?_, ?_, ?_⟩
  · refine Iff.trans ?_ isSome_set.symm
    rw [← h.resolutions id]
    simp only [Sqlite.writeEntry, Tables.without, List.find?_isSome, Rows.mem_replace,
      decide_eq_true_eq]
    constructor
    · rintro ⟨resolution, rfl | ⟨hold, -⟩, rfl⟩
      · exact .inl rfl
      · exact .inr ⟨resolution, hold, rfl⟩
    · rintro (rfl | ⟨resolution, hold, rfl⟩)
      · exact ⟨_, .inl rfl, rfl⟩
      · by_cases hsame : resolution.resolutionId = entry.resolution.resolutionId
        · exact ⟨_, .inl rfl, hsame.symm⟩
        · exact ⟨resolution, .inr ⟨hold, hsame⟩, rfl⟩
  · refine h.commitments.setAll hafter hid hm.commitments fun row hrow => ?_
    exact (Rows.mem_of_mem_foldl_ignore hrow).imp_left List.mem_of_mem_filter
  · refine h.evidence.setAll hafter hid hm.evidence fun row hrow => ?_
    rcases (Rows.mem_foldl_replace _).1 hrow with hlast | ⟨hold, -⟩
    · exact .inr (hlast.mem _)
    · exact .inl (List.mem_of_mem_filter hold)
  · refine h.steps.setAll hafter hid hm.steps fun row hrow => ?_
    rcases (Rows.mem_foldl_replace _).1 hrow with hlast | ⟨hold, -⟩
    · exact .inr (hlast.mem _)
    · exact .inl (List.mem_of_mem_filter hold)
  · refine h.nullifiers.setAll hafter hid hm.nullifiers fun row hrow => ?_
    exact (Rows.mem_of_mem_foldl_ignore hrow).imp_left List.mem_of_mem_filter
  · intro row hrow
    rcases h.steps.keyed.mem_setAll.1 hrow with hlast | ⟨hold, -⟩
    · have hmem := hlast.mem _
      rw [hm.steps row hmem, ← hm.stepIds]
      exact List.mem_map_of_mem hmem
    · exact h.stepIds row hold

/-- Memory and SQLite keep the same parts. -/
structure Agrees (s : InMemory.Entries) (t : Tables) : Prop where
  commitments : ∀ row, row ∈ t.commitments.map id ↔ row ∈ s.commitments.values
  evidence : ∀ row, row ∈ t.evidence.map Sqlite.rowToEvidence ↔ row ∈ s.evidence.values
  steps : ∀ row, row ∈ t.steps.map rowToStep ↔ row ∈ s.steps.values
  nullifiers : ∀ row, row ∈ t.nullifiers.map rowToNullifier ↔ row ∈ s.nullifiers.values

theorem readsCommitment : Rows.Reads (·.commitmentId) (·.resolutionId)
    (id : CommitmentRecord → CommitmentRecord) := ⟨fun _ => rfl, fun _ => rfl⟩

theorem readsEvidence : Rows.Reads (·.evidenceId) (·.resolutionId) Sqlite.rowToEvidence :=
  ⟨fun _ => rfl, fun _ => rfl⟩

theorem readsStep : Rows.Reads (·.stepId) (·.resolutionId) rowToStep :=
  ⟨fun _ => rfl, fun _ => rfl⟩

theorem readsNullifier : Rows.Reads (·.nullifierHash) (·.resolutionId) rowToNullifier :=
  ⟨fun _ => rfl, fun _ => rfl⟩

theorem Twin.rel_iff (h : Twin platform s t) (target : JsString) :
    Option.Rel SameParts (InMemory.getResolution s target) (t.getResolution Sqlite.readers target)
      ↔ ((s.resolutions.get? target).isSome →
        (∀ row, row ∈ (rowsOf (·.resolutionId) (·.createdAt) t.commitments target).map id
          ↔ row ∈ s.commitments.values.filter (·.resolutionId = target))
        ∧ (∀ row, row ∈ (rowsOf (·.resolutionId) (·.observedAt) t.evidence target).map
            Sqlite.rowToEvidence ↔ row ∈ s.evidence.values.filter (·.resolutionId = target))
        ∧ (∀ row, row ∈ (rowsOf (·.resolutionId) (·.completedAt) t.steps target).map rowToStep
          ↔ row ∈ s.steps.values.filter (·.resolutionId = target))
        ∧ ∀ row, row ∈ (rowsOf (·.resolutionId) (·.usedAt) t.nullifiers target).map rowToNullifier
          ↔ row ∈ s.nullifiers.values.filter (·.resolutionId = target)) := by
  have hfound := h.resolutions target
  unfold InMemory.getResolution Tables.getResolution
  rcases hs : s.resolutions.get? target with _ | resolution <;>
    rcases ht : t.resolutions.find? (·.resolutionId = target) with _ | row <;>
    rw [hs, ht] at hfound <;> erw [ht]
  · exact iff_of_true .none nofun
  · exact absurd (hfound.1 rfl) Bool.false_ne_true
  · exact absurd (hfound.2 rfl) Bool.false_ne_true
  · constructor
    · rintro (⟨hcommitments, hevidence, hsteps, hnullifiers⟩ | _) -
      exact ⟨hcommitments, hevidence, hsteps, hnullifiers⟩
    · intro hparts
      obtain ⟨hcommitments, hevidence, hsteps, hnullifiers⟩ := hparts rfl
      exact .some ⟨hcommitments, hevidence, hsteps, hnullifiers⟩

/-- Both stores answer every resolution with the same parts where they keep the same. -/
theorem Twin.answers_iff (h : Twin platform s t) :
    (∀ id, Option.Rel SameParts (InMemory.getResolution s id)
        (t.getResolution Sqlite.readers id)) ↔ Agrees s t := by
  simp only [h.rel_iff, imp_and, forall_and, h.commitments.answers_iff readsCommitment,
    h.evidence.answers_iff readsEvidence, h.steps.answers_iff readsStep,
    h.nullifiers.answers_iff readsNullifier]
  exact ⟨fun ⟨hc, he, hs, hn⟩ => ⟨hc, he, hs, hn⟩, fun ⟨hc, he, hs, hn⟩ => ⟨hc, he, hs, hn⟩⟩

/-- Commitments of one entry clash where their ids are the same. -/
theorem Made.apart (hm : Made platform entry)
    (hids : (entry.commitments.map (·.commitmentId)).Nodup) :
    entry.commitments.Pairwise fun a b => Sqlite.clashingCommitment b a = false := by
  refine ((List.pairwise_map.1 hids).and (List.pairwise_map.1 hm.hashes)).imp fun ⟨hid, hhash⟩ => ?_
  simp [Sqlite.clashingCommitment, sameCommitment, hid, hhash]

theorem Made.nullifiersApart (hm : Made platform entry) :
    entry.nullifiers.Pairwise fun a b => sameNullifier b a = false := by
  match hrows : entry.nullifiers with
  | [] => exact .nil
  | [_] => exact List.pairwise_singleton _ _
  | _ :: _ :: _ => exact absurd hm.oneNullifier (by simp [hrows])

theorem Twin.stepsAgain (h : Twin platform s t) (hm : Made platform entry) :
    ∀ row ∈ s.steps.values, row.resolutionId = entry.resolution.resolutionId →
      row.stepId ∈ entry.steps.map (·.stepId) := fun row hrow howner => by
  rw [hm.stepIds, ← howner]
  exact h.stepIds row hrow

/-- What the four parts of an entry need to be written the same. -/
theorem Twin.agrees_write (h : Twin platform s t) (hm : Made platform entry) (ha : Agrees s t)
    (hids : (entry.commitments.map (·.commitmentId)).Nodup) :
    Agrees (InMemory.writeEntry s entry) (Sqlite.writeEntry t entry)
      ↔ ((∀ item ∈ entry.commitments, ∀ row ∈ s.commitments.values,
            row.resolutionId ≠ entry.resolution.resolutionId →
              Sqlite.clashingCommitment item row = false)
          ∧ ∀ row ∈ s.commitments.values, row.resolutionId = entry.resolution.resolutionId →
            row.commitmentId ∈ entry.commitments.map (·.commitmentId))
        ∧ ((∀ item, Rows.IsLast (·.evidenceId) entry.evidence item →
            Sqlite.rowToEvidence item = item)
          ∧ ∀ row ∈ s.evidence.values, row.resolutionId = entry.resolution.resolutionId →
            row.evidenceId ∈ entry.evidence.map (·.evidenceId))
        ∧ (∀ item, Rows.IsLast (·.stepId) entry.steps item → rowToStep item = item)
        ∧ (∀ item ∈ entry.nullifiers, ∀ row ∈ s.nullifiers.values,
            row.resolutionId ≠ entry.resolution.resolutionId → sameNullifier item row = false)
          ∧ ∀ row ∈ s.nullifiers.values, row.resolutionId = entry.resolution.resolutionId →
            row.nullifierHash ∈ entry.nullifiers.map (·.nullifierHash) := by
  have hcommitments := Rows.agree_ignore Sqlite.clashingCommitment readsCommitment
    h.commitments.keyed ha.commitments (fun _ _ => rfl) (fun x y hkey => by
      simp [Sqlite.clashingCommitment, hkey]) hm.commitments (fun _ _ => rfl) (hm.apart hids)
  have hevidence := Rows.agree_replace (l := entry.evidence)
    (o := entry.resolution.resolutionId) readsEvidence h.evidence.keyed ha.evidence
  have hsteps := Rows.agree_replace (l := entry.steps)
    (o := entry.resolution.resolutionId) readsStep h.steps.keyed ha.steps
  have hnullifiers := Rows.agree_ignore sameNullifier readsNullifier h.nullifiers.keyed
    ha.nullifiers (fun _ _ => rfl) (fun x y hkey => by simp [sameNullifier, hkey])
    hm.nullifiers hm.nullifiersRead hm.nullifiersApart
  rw [← hcommitments, ← hevidence, ← hnullifiers]
  constructor
  · rintro ⟨hc, he, hs, hn⟩
    exact ⟨hc, he, (hsteps.1 hs).1, hn⟩
  · rintro ⟨hc, he, hs, hn⟩
    exact ⟨hc, he, hsteps.2 ⟨hs, h.stepsAgain hm⟩, hn⟩

end Write

/-! ## Runs -/

section Runs

variable {platform : Platform} {calls : List RecordCall}

theorem memory_succ {k : ℕ} {call : RecordCall} (h : calls[k]? = some call) :
    InMemory.entryStore.run platform (calls.take (k + 1))
      = InMemory.writeEntry (InMemory.entryStore.run platform (calls.take k))
        (call.entry platform) := InMemory.entryStore.run_succ h

theorem sqlite_succ {k : ℕ} {call : RecordCall} (h : calls[k]? = some call) :
    Sqlite.entryStore.run platform (calls.take (k + 1))
      = Sqlite.writeEntry (Sqlite.entryStore.run platform (calls.take k))
        (call.entry platform) := Sqlite.entryStore.run_succ h

theorem twin_run (platform : Platform) (calls : List RecordCall) : ∀ k,
    Twin platform (InMemory.entryStore.run platform (calls.take k))
      (Sqlite.entryStore.run platform (calls.take k))
  | 0 => twin_empty
  | k + 1 => by
    rcases hcall : calls[k]? with _ | call
    · rw [List.take_add_one, hcall, Option.toList_none, List.append_nil]
      exact twin_run platform calls k
    · rw [memory_succ hcall, sqlite_succ hcall]
      exact (twin_run platform calls k).write (call.made platform)

theorem agrees_run_iff (platform : Platform) (calls : List RecordCall) :
    Interchangeable platform calls ↔ ∀ k,
      Agrees (InMemory.entryStore.run platform (calls.take k))
        (Sqlite.entryStore.run platform (calls.take k)) :=
  forall_congr' fun k => (twin_run platform calls k).answers_iff

end Runs

/-- A resolution recorded with a nullifier, and again without. -/
def recordedAgain : List RecordCall :=
  [sampleCall (js "r1") (some (js "n1")), sampleCall (js "r1") none]

theorem exists_of_rel_some {a : Entry} :
    ∀ {answer : Option Entry}, Option.Rel SameParts (some a) answer →
      ∃ b, answer = some b ∧ SameParts a b
  | _, .some h => ⟨_, rfl, h⟩

theorem Interchangeable.recorded {calls : List RecordCall}
    (h : Interchangeable samplePlatform calls) {k : ℕ} {target n : JsString}
    (hn : InMemory.entryStore.Recorded (InMemory.entryStore.run samplePlatform (calls.take k))
      target n) :
    Sqlite.entryStore.Recorded (Sqlite.entryStore.run samplePlatform (calls.take k)) target n := by
  obtain ⟨entry, hentry, hn⟩ := hn
  obtain ⟨row, hrow, rfl⟩ := List.mem_map.1 hn
  have hrel := h k target
  rw [show InMemory.getResolution _ target = some entry from hentry] at hrel
  obtain ⟨other, hother, hparts⟩ := exists_of_rel_some hrel
  exact ⟨other, hother, List.mem_map_of_mem ((hparts.nullifiers row).2 hrow)⟩

end Agid.ResolutionLedger
