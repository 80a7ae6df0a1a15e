import Agid.Proofs.EventChain

/-!
# Every store's chains

The tables of SQLite, Postgres and MongoDB take a row only under a free sequence number, so a
record made from an older row is turned away or comes last.  The keyed stores of memory and Redis
ask nothing of what they write: memory appends in one step, and Redis keeps its chains while no two
appends of a stream overlap.
-/

namespace Agid.ResolutionLedger

variable {platform : Platform}

/-! ## Tables -/

/-- Every stream of a table is a chain. -/
structure TableInv (platform : Platform) (rows : List EventRecord) : Prop where
  linked : ∀ streamId, Linked (rows.filter (·.streamId = streamId))
  hashed : ∀ event ∈ rows, Hashed platform event

/-- Made after a row of its stream, or as the first. -/
structure Prepared (platform : Platform) (rows : List EventRecord) (event : EventRecord) : Prop where
  hashed : Hashed platform event
  follows : ∃ previous, (∀ p, previous = some p → p ∈ rows ∧ p.streamId = event.streamId)
    ∧ event.sequence = (previous.map EventRecord.sequence).getD 0 + 1
    ∧ event.previousEventHash = previous.map EventRecord.eventHash

theorem tableInv_nil : TableInv platform [] :=
  ⟨fun _ => Chain.linked_nil, by simp⟩

theorem TableInv.streamRows_eq {rows : List EventRecord} (h : TableInv platform rows)
    (streamId : JsString) : streamRows rows streamId = rows.filter (·.streamId = streamId) := by
  refine List.mergeSort_of_pairwise (((h.linked streamId).pairwise).imp fun hlt => ?_)
  simpa using hlt.le

theorem mem_of_lastRow {rows : List EventRecord} {streamId : JsString} {event : EventRecord}
    (h : lastRow rows streamId = some event) : event ∈ rows ∧ event.streamId = streamId := by
  have hmem := List.mem_mergeSort.1 (List.mem_of_getLast? h)
  simpa using List.mem_filter.1 hmem

theorem Prepared.mono {rows rows' : List EventRecord} {event : EventRecord}
    (h : Prepared platform rows event) (hsub : rows ⊆ rows') : Prepared platform rows' event := by
  obtain ⟨previous, hmem, hspec⟩ := h.follows
  exact ⟨h.hashed, previous, fun p hp => ⟨hsub (hmem p hp).1, (hmem p hp).2⟩, hspec⟩

theorem TableInv.prepared {rows : List EventRecord} (h : TableInv platform rows) {env : CommandEnv}
    {input : EventInput} {previous : Option EventRecord} {event : EventRecord}
    (hevent : recordAfter platform env input previous = .ok event)
    (hprevious : ∀ p, previous = some p → p ∈ rows ∧ p.streamId = appendStreamId platform input) :
    Prepared platform rows event := by
  obtain ⟨hstream, hsequence, hlink, hhashed⟩ :=
    createEvent_after hevent fun p hp => h.hashed p (hprevious p hp).1
  exact ⟨hhashed, previous, fun p hp => ⟨(hprevious p hp).1, hstream ▸ (hprevious p hp).2⟩,
    hsequence, hlink⟩

/-- A prepared row that clashes with none is the next of its stream. -/
theorem TableInv.insert {rows : List EventRecord} (h : TableInv platform rows) {event : EventRecord}
    (hevent : Prepared platform rows event) (hfree : rows.any (clashes event) = false) :
    TableInv platform (rows ++ [event]) := by
  refine ⟨fun streamId => ?_, fun e he => ?_⟩
  · rw [List.filter_append]
    by_cases hs : event.streamId = streamId
    · subst hs
      obtain ⟨previous, hmem, hsequence, hlink⟩ := hevent.follows
      rw [List.filter_cons_of_pos (by simp), List.filter_nil]
      refine (h.linked _).concat_of_read (fun p hp => ?_) hsequence hlink fun b hb hb' => ?_
      · exact List.mem_filter.2 ⟨(hmem p hp).1, by simpa using (hmem p hp).2⟩
      · obtain ⟨hbmem, hbs⟩ := List.mem_filter.1 hb
        have := List.any_eq_false.1 hfree b hbmem
        simp only [decide_eq_true_eq] at hbs
        simp [clashes, hbs, hb'] at this
    · rw [List.filter_cons_of_neg (by simpa using hs), List.filter_nil, List.append_nil]
      exact h.linked streamId
  · rcases List.mem_append.1 he with he | he
    · exact h.hashed e he
    · rw [List.mem_singleton.1 he]
      exact hevent.hashed

theorem TableInv.insertAll : ∀ {l rows : List EventRecord}, TableInv platform rows →
    (∀ event ∈ l, Prepared platform rows event ∧ rows.any (clashes event) = false) →
      l.Pairwise (fun a b => clashes b a = false) → TableInv platform (rows ++ l)
  | [], _, h, _, _ => by rwa [List.append_nil]
  | event :: l, rows, h, hl, hp => by
    rw [List.pairwise_cons] at hp
    obtain ⟨hprepared, hfree⟩ := hl event List.mem_cons_self
    rw [← List.singleton_append, ← List.append_assoc]
    refine TableInv.insertAll (h.insert hprepared hfree) (fun e he => ?_) hp.2
    obtain ⟨hpe, hfe⟩ := hl e (List.mem_cons_of_mem _ he)
    refine ⟨hpe.mono (List.subset_append_left _ _), ?_⟩
    rw [List.any_append, hfe, List.any_cons, hp.1 e he, List.any_nil]
    rfl

theorem streamRows_prefix {rows l : List EventRecord} (h : TableInv platform rows)
    (h' : TableInv platform (rows ++ l)) (streamId : JsString) :
    streamRows rows streamId <+: streamRows (rows ++ l) streamId := by
  rw [h.streamRows_eq, h'.streamRows_eq, List.filter_append]
  exact List.prefix_append _ _

theorem TableInv.mem_streamRows {rows : List EventRecord} (h : TableInv platform rows)
    {event : EventRecord} (he : event ∈ rows) : event ∈ streamRows rows event.streamId := by
  rw [h.streamRows_eq]
  exact List.mem_filter.2 ⟨he, by simp⟩

theorem TableInv.chained {rows : List EventRecord} (h : TableInv platform rows)
    (streamId : JsString) : Chained (streamRows rows streamId) := by
  rw [h.streamRows_eq]
  exact (h.linked streamId).chained

/-- What a command does to the store, and when it goes on. -/
theorem command_cases {S A : Type} {env : CommandEnv} {s s₁ s' : S} {next o : Outcome A}
    (h : command env s s₁ next = (s', o)) :
    (s' = s ∧ o = .failed) ∨ (s' = s₁ ∧ (o = next ∨ o = .failed)) := by
  unfold command at h
  split at h <;> cases h
  · exact .inr ⟨rfl, .inl rfl⟩
  · exact .inl ⟨rfl, rfl⟩
  · exact .inr ⟨rfl, .inr rfl⟩

/-- A step on a table: rows are only added, and what goes on satisfies `own`. -/
structure TableStep {A : Type} (platform : Platform) (own : List EventRecord → A → Prop)
    (rows rows' : List EventRecord) (o : Outcome A) : Prop where
  inv : TableInv platform rows'
  grows : ∃ l, rows' = rows ++ l
  going : ∀ q, o = .going q → own rows' q
  done : ∀ event, o = .done event → event ∈ rows'

section Step

variable {A : Type} {own : List EventRecord → A → Prop} {rows rows' : List EventRecord}
  {env : CommandEnv} {next o : Outcome A}

theorem TableStep.failed (h : TableInv platform rows) :
    TableStep platform own rows rows (.failed : Outcome A) :=
  ⟨h, ⟨[], (List.append_nil _).symm⟩, by simp, by simp⟩

theorem TableStep.read (h : TableInv platform rows) (hgoing : ∀ q, next = .going q → own rows q)
    (hdone : ∀ event, next ≠ .done event) (hc : command env rows rows next = (rows', o)) :
    TableStep platform own rows rows' o := by
  rcases command_cases hc with ⟨rfl, rfl⟩ | ⟨rfl, rfl | rfl⟩
  · exact .failed h
  · exact ⟨h, ⟨[], (List.append_nil _).symm⟩, hgoing, fun event he => absurd he (hdone event)⟩
  · exact .failed h

theorem TableStep.insert (h : TableInv platform rows) {event : EventRecord}
    (hevent : Prepared platform rows event) (hfree : rows.any (clashes event) = false)
    (hc : command env rows (rows ++ [event]) (.done event) = (rows', o)) :
    TableStep platform own rows rows' o := by
  have hinv := h.insert hevent hfree
  rcases command_cases hc with ⟨rfl, rfl⟩ | ⟨rfl, rfl | rfl⟩
  · exact .failed h
  · refine ⟨hinv, ⟨[event], rfl⟩, by simp, fun e he => ?_⟩
    cases he
    exact List.mem_concat_self
  · exact ⟨hinv, ⟨[event], rfl⟩, by simp, by simp⟩

end Step

/-- The rule of a store that is a table. -/
def tableRule {A : Type} (appending : Appending (List EventRecord) A)
    (own : List EventRecord → A → Prop)
    (begin : ∀ rows input, own rows (appending.begin input))
    (mono : ∀ {rows l p}, own rows p → own (rows ++ l) p)
    (step : ∀ {env rows p rows' o}, TableInv platform rows → own rows p →
      appending.advance env rows p = some (rows', o) → TableStep platform own rows rows' o) :
    AppendRule ⟨List EventRecord, A, [], streamRows, appending, fun _ _ => True, fun _ _ => True⟩ where
  inv := TableInv platform
  own := own
  apart _ _ := True
  empty := tableInv_nil
  chained := TableInv.chained
  symm := id
  begin input _ := begin _ input
  begin_apart _ _ := trivial
  step h hp hs _ := by
    obtain ⟨hinv, ⟨l, rfl⟩, hgoing, hdone⟩ := step h hp hs
    exact ⟨hinv, hgoing, fun event he => hinv.mem_streamRows (hdone event he),
      streamRows_prefix h hinv⟩
  frame h hp hq _ hs _ := by
    obtain ⟨-, ⟨l, rfl⟩, -, -⟩ := step h hp hs
    exact ⟨mono hq, fun _ _ _ => trivial⟩

/-- A record made after the last row. -/
theorem TableInv.prepared_last {rows : List EventRecord} (h : TableInv platform rows)
    {env : CommandEnv} {input : EventInput} {event : EventRecord}
    (hevent : recordAfter platform env input (lastRow rows (appendStreamId platform input))
      = .ok event) : Prepared platform rows event :=
  h.prepared hevent fun _ hp => mem_of_lastRow hp

def Sqlite.Own (platform : Platform) (rows : List EventRecord) : Sqlite.Phase → Prop
  | .selecting _ => True
  | .inserting event => Prepared platform rows event

theorem Sqlite.step {env : CommandEnv} {rows rows' : List EventRecord} {o : Outcome Sqlite.Phase}
    (h : TableInv platform rows) : ∀ {p : Sqlite.Phase}, Sqlite.Own platform rows p →
      (Sqlite.appendEvent platform).advance env rows p = some (rows', o) →
        TableStep platform (Sqlite.Own platform) rows rows' o
  | .selecting input, _, hs => by
    refine .read h (fun q hq => ?_) (fun event he => ?_) (Option.some.inj hs)
    · rcases hr : recordAfter platform env input (lastRow rows (appendStreamId platform input)) with
        _ | event <;> rw [hr] at hq <;> cases hq
      exact h.prepared_last hr
    · rcases hr : recordAfter platform env input (lastRow rows (appendStreamId platform input)) with
        _ | event <;> rw [hr] at he <;> cases he
  | .inserting event, hp, hs => by
    simp only [Sqlite.appendEvent] at hs
    split_ifs at hs with hfree
    · cases hs
      exact .failed h
    · exact .insert h hp (by simpa using hfree) (Option.some.inj hs)

def Sqlite.rule (platform : Platform) : AppendRule (adapter platform .sqlite) :=
  tableRule (Sqlite.appendEvent platform) (Sqlite.Own platform) (fun _ _ => trivial)
    (fun {_ _ p} hp => by
      cases p with
      | selecting input => trivial
      | inserting event => exact Prepared.mono hp (List.subset_append_left _ _))
    fun h hp hs => Sqlite.step h hp hs

def MongoDb.Own (platform : Platform) (rows : List EventRecord) : MongoDb.Phase → Prop
  | .finding _ _ => True
  | .inserting _ _ event => Prepared platform rows event

theorem MongoDb.step {env : CommandEnv} {rows rows' : List EventRecord}
    {o : Outcome MongoDb.Phase} (h : TableInv platform rows) :
    ∀ {p : MongoDb.Phase}, MongoDb.Own platform rows p →
      (MongoDb.appendEvent platform).advance env rows p = some (rows', o) →
        TableStep platform (MongoDb.Own platform) rows rows' o
  | .finding attempt input, _, hs => by
    simp only [MongoDb.appendEvent] at hs
    split_ifs at hs with hattempt
    · refine .read h (fun q hq => ?_) (fun event he => ?_) (Option.some.inj hs)
      · split at hq <;> cases hq
        rename_i hr
        exact h.prepared_last hr
      · split at he <;> cases he
    · cases hs
      exact .failed h
  | .inserting attempt input event, hp, hs => by
    simp only [MongoDb.appendEvent] at hs
    split_ifs at hs with hfree
    · cases hs
      refine ⟨h, ⟨[], (List.append_nil _).symm⟩, fun q hq => ?_, by simp⟩
      cases hq
      trivial
    · exact .insert h hp (by simpa using hfree) (Option.some.inj hs)

def MongoDb.rule (platform : Platform) : AppendRule (adapter platform .mongodb) :=
  tableRule (MongoDb.appendEvent platform) (MongoDb.Own platform) (fun _ _ => trivial)
    (fun {_ _ p} hp => by
      cases p with
      | finding attempt input => trivial
      | inserting attempt input event => exact Prepared.mono hp (List.subset_append_left _ _))
    fun h hp hs => MongoDb.step h hp hs

/-! ## Transactions -/

namespace Postgres

/-- What is inserted can still be committed, in any order. -/
structure Inv (platform : Platform) (s : Store) : Prop where
  table : TableInv platform s.rows
  pending : ∀ p ∈ s.pending, p.1 < s.clients ∧ Prepared platform s.rows p.2
    ∧ s.rows.any (clashes p.2) = false
  distinct : s.pending.Pairwise fun p q => clashes q.2 p.2 = false

/-- A client that has nothing inserted. -/
def Idle (s : Store) (client : ℕ) : Prop := client < s.clients ∧ ∀ p ∈ s.pending, p.1 ≠ client

def Own (platform : Platform) (s : Store) : Phase → Prop
  | .connecting _ => True
  | .selecting client _ => Idle s client
  | .locking client input previous => Idle s client ∧ previous ∈ s.rows
    ∧ previous.streamId = appendStreamId platform input
  | .inserting client event => Idle s client ∧ Prepared platform s.rows event
  | .committing client event => client < s.clients ∧ (client, event) ∈ s.pending

def Phase.client : Phase → Option ℕ
  | .connecting _ => none
  | .selecting client _ => some client
  | .locking client _ _ => some client
  | .inserting client _ => some client
  | .committing client _ => some client

/-- What a step of one client leaves the others. -/
structure Leaves (client : Option ℕ) (s s' : Store) : Prop where
  rows : ∃ l, s'.rows = s.rows ++ l
  clients : s.clients ≤ s'.clients
  pending : ∀ p : ℕ × EventRecord, client ≠ some p.1 → (p ∈ s'.pending ↔ p ∈ s.pending)

theorem Own.frame {client : Option ℕ} {s s' : Store} (h : Leaves client s s') :
    ∀ {q : Phase}, (∀ d, q.client = some d → client ≠ some d) → Own platform s q →
      Own platform s' q := by
  obtain ⟨l, hl⟩ := h.rows
  have hsub : s.rows ⊆ s'.rows := hl ▸ List.subset_append_left _ _
  have hidle : ∀ d, client ≠ some d → Idle s d → Idle s' d := fun d hd hi =>
    ⟨hi.1.trans_le h.clients, fun p hp hpd => by
      subst hpd
      exact hi.2 p ((h.pending p hd).1 hp) rfl⟩
  rintro (input | ⟨d, input⟩ | ⟨d, input, previous⟩ | ⟨d, event⟩ | ⟨d, event⟩) hd hown
  · trivial
  · exact hidle d (hd d rfl) hown
  · exact ⟨hidle d (hd d rfl) hown.1, hsub hown.2.1, hown.2.2⟩
  · exact ⟨hidle d (hd d rfl) hown.1, hown.2.mono hsub⟩
  · exact ⟨hown.1.trans_le h.clients, (h.pending _ (hd d rfl)).2 hown.2⟩

theorem clashes_comm (a b : EventRecord) : clashes a b = clashes b a := by
  simp only [clashes, eq_comm]

theorem mem_rollback {s : Store} {client : ℕ} {p : ℕ × EventRecord} :
    p ∈ (s.rollback client).pending ↔ p ∈ s.pending ∧ p.1 ≠ client := by
  simp [Store.rollback]

theorem leaves_rollback (s : Store) (client : ℕ) : Leaves (some client) s (s.rollback client) where
  rows := ⟨[], (List.append_nil _).symm⟩
  clients := le_rfl
  pending p hp := by
    rw [mem_rollback, and_iff_left]
    exact fun h => hp (h ▸ rfl)

theorem Inv.rollback {s : Store} (h : Inv platform s) (client : ℕ) :
    Inv platform (s.rollback client) where
  table := h.table
  pending p hp := h.pending p (mem_rollback.1 hp).1
  distinct := h.distinct.sublist List.filter_sublist

theorem Inv.commit {s : Store} (h : Inv platform s) (client : ℕ) :
    Inv platform (s.commit client) := by
  have hfree : ∀ p ∈ s.pending, p.1 ≠ client → ∀ q ∈ s.pending, q.1 = client →
      clashes p.2 q.2 = false := fun p hp hpc q hq hqc =>
    have : Std.Symm fun p q : ℕ × EventRecord => clashes q.2 p.2 = false :=
      ⟨fun _ _ hpq => (clashes_comm _ _).trans hpq⟩
    h.distinct.forall hq hp fun hpq => hpc (hpq ▸ hqc)
  refine ⟨h.table.insertAll (fun event he => ?_) ?_, fun p hp => ?_, (h.rollback client).distinct⟩
  · obtain ⟨q, hq, rfl⟩ := List.mem_map.1 he
    exact (h.pending q (List.mem_of_mem_filter hq)).2
  · exact List.pairwise_map.2 (h.distinct.sublist List.filter_sublist)
  · obtain ⟨hp, hpc⟩ := mem_rollback.1 hp
    obtain ⟨hlt, hprepared, hrows⟩ := h.pending p hp
    refine ⟨hlt, hprepared.mono (List.subset_append_left _ _), ?_⟩
    simp only [Store.commit, List.any_append, hrows, Bool.false_or, List.any_map,
      List.any_eq_false, List.mem_filter, decide_eq_true_eq, Function.comp_apply,
      Bool.not_eq_true]
    exact fun q hq => hfree p hp hpc q hq.1 hq.2

theorem leaves_commit (s : Store) (client : ℕ) : Leaves (some client) s (s.commit client) :=
  ⟨⟨_, rfl⟩, le_rfl, (leaves_rollback s client).pending⟩

/-- A step of an append: its own client goes on, or a new one. -/
structure Moves (platform : Platform) (s : Store) (p : Phase) (s' : Store) (o : Outcome Phase) :
    Prop where
  inv : Inv platform s'
  leaves : Leaves p.client s s'
  going : ∀ q, o = .going q → Own platform s' q
    ∧ (q.client = p.client ∨ q.client = some s.clients)
  done : ∀ event, o = .done event → event ∈ s'.rows

theorem leaves_self (client : Option ℕ) (s : Store) : Leaves client s s :=
  ⟨⟨[], (List.append_nil _).symm⟩, le_rfl, fun _ _ => .rfl⟩

theorem Moves.rolledBack {s : Store} {p : Phase} (h : Inv platform s) {client : ℕ}
    (hp : p.client = some client) : Moves platform s p (s.rollback client) .failed :=
  ⟨h.rollback client, hp ▸ leaves_rollback s client, by simp, by simp⟩

theorem Moves.inTransaction {s s₁ s' : Store} {p q : Phase} {env : CommandEnv} {client : ℕ}
    {o : Outcome Phase} (h : Inv platform s) (hp : p.client = some client)
    (hq : q.client = some client) (hinv : Inv platform s₁) (hleaves : Leaves (some client) s s₁)
    (hown : Own platform s₁ q)
    (hs : Postgres.inTransaction env client s s₁ (.going q) = (s', o)) :
    Moves platform s p s' o := by
  unfold Postgres.inTransaction at hs
  split at hs <;> cases hs
  · refine ⟨hinv, hp ▸ hleaves, fun q' hq' => ?_, by simp⟩
    cases hq'
    exact ⟨hown, .inl (hq.trans hp.symm)⟩
  · exact .rolledBack h hp

theorem Moves.create {s s₁ s' : Store} {p : Phase} {env : CommandEnv} {client : ℕ}
    {input : EventInput} {previous : Option EventRecord} {o : Outcome Phase}
    (h : Inv platform s) (hp : p.client = some client) (hinv : Inv platform s₁)
    (hleaves : Leaves (some client) s s₁) (hidle : Idle s₁ client)
    (hprevious : ∀ r, previous = some r → r ∈ s₁.rows ∧ r.streamId = appendStreamId platform input)
    (hs : Postgres.create platform env client s s₁ input previous = (s', o)) :
    Moves platform s p s' o := by
  unfold Postgres.create at hs
  split at hs
  · cases hs
    exact .rolledBack h hp
  · rename_i event hevent
    exact .inTransaction h hp (q := .inserting client event) rfl hinv hleaves
      ⟨hidle, hinv.table.prepared hevent hprevious⟩ hs

theorem step {env : CommandEnv} {s s' : Store} {o : Outcome Phase} (h : Inv platform s) :
    ∀ {p : Phase}, Own platform s p →
      (appendEvent platform).advance env s p = some (s', o) → Moves platform s p s' o
  | .connecting input, _, hs => by
    have hnew : Inv platform { s with clients := s.clients + 1 } :=
      ⟨h.table, fun p hp => ⟨(h.pending p hp).1.trans (Nat.lt_succ_self _), (h.pending p hp).2⟩,
        h.distinct⟩
    have hleaves : Leaves none s { s with clients := s.clients + 1 } :=
      ⟨⟨[], (List.append_nil _).symm⟩, Nat.le_succ _, fun _ _ => .rfl⟩
    rcases command_cases (Option.some.inj hs) with ⟨rfl, rfl⟩ | ⟨rfl, rfl | rfl⟩
    · exact ⟨h, leaves_self _ _, by simp, by simp⟩
    · refine ⟨hnew, hleaves, fun q hq => ?_, by simp⟩
      cases hq
      exact ⟨⟨Nat.lt_succ_self _, fun p hp => (h.pending p hp).1.ne⟩, .inr rfl⟩
    · exact ⟨hnew, hleaves, by simp, by simp⟩
  | .selecting client input, hown, hs => by
    simp only [appendEvent] at hs
    split at hs
    · exact .create h rfl h (leaves_self _ _) hown (by simp) (Option.some.inj hs)
    · rename_i previous hprevious
      exact .inTransaction h rfl (q := .locking client input previous) rfl h (leaves_self _ _)
        ⟨hown, mem_of_lastRow hprevious⟩ (Option.some.inj hs)
  | .locking client input previous, hown, hs => by
    simp only [appendEvent] at hs
    split_ifs at hs
    have hlocked : Inv platform { s with locks := s.locks ++ [(client, previous.eventId)] } :=
      ⟨h.table, h.pending, h.distinct⟩
    refine .create h rfl hlocked ⟨⟨[], (List.append_nil _).symm⟩, le_rfl, fun _ _ => .rfl⟩ hown.1
      (fun r hr => ?_) (Option.some.inj hs)
    cases hr
    exact hown.2
  | .inserting client event, hown, hs => by
    simp only [appendEvent] at hs
    split_ifs at hs with hwait hclash
    · cases hs
      exact .rolledBack h rfl
    · have hfree : ∀ p ∈ s.pending, clashes event p.2 = false := fun p hp => by
        have := List.any_eq_false.1 (Bool.eq_false_iff.2 hwait) p hp
        simpa [hown.1.2 p hp] using this
      have hinv : Inv platform { s with pending := s.pending ++ [(client, event)] } := by
        refine ⟨h.table, fun p hp => ?_, List.pairwise_append.2 ⟨h.distinct,
          List.pairwise_singleton _ _, fun p hp q hq => ?_⟩⟩
        · rcases List.mem_append.1 hp with hp | hp
          · exact h.pending p hp
          · rw [List.mem_singleton.1 hp]
            exact ⟨hown.1.1, hown.2, by simpa using hclash⟩
        · rw [List.mem_singleton.1 hq]
          exact hfree p hp
      refine .inTransaction h rfl (q := .committing client event) rfl hinv
        ⟨⟨[], (List.append_nil _).symm⟩, le_rfl, fun p hp => ?_⟩
        ⟨hown.1.1, List.mem_concat_self⟩ (Option.some.inj hs)
      have hne : p ≠ (client, event) := fun h => hp (h ▸ rfl)
      simp [hne]
  | .committing client event, hown, hs => by
    simp only [appendEvent] at hs
    split at hs <;> cases hs
    · refine ⟨h.commit client, leaves_commit s client, by simp, fun e he => ?_⟩
      cases he
      refine List.mem_append_right _ (List.mem_map.2 ⟨_, List.mem_filter.2 ⟨hown.2, ?_⟩, rfl⟩)
      simp
    · exact .rolledBack h rfl
    · exact ⟨h.commit client, leaves_commit s client, by simp, by simp⟩

theorem Own.client_lt {s : Store} {p : Phase} {client : ℕ} (h : Own platform s p)
    (hc : p.client = some client) : client < s.clients := by
  cases p with
  | connecting input => cases hc
  | selecting d input =>
    cases hc
    exact h.1
  | locking d input previous =>
    cases hc
    exact h.1.1
  | inserting d event =>
    cases hc
    exact h.1.1
  | committing d event =>
    cases hc
    exact h.1

def rule (platform : Platform) : AppendRule (adapter platform .postgres) where
  inv := Inv platform
  own := Own platform
  apart p q := ∀ client, p.client = some client → q.client ≠ some client
  empty := ⟨tableInv_nil, by simp [adapter, Store.empty], by simp [adapter, Store.empty]⟩
  chained h := h.table.chained
  symm h client hq hp := h client hp hq
  begin _ _ := trivial
  begin_apart _ _ client h := by cases h
  step h hp hs _ := by
    obtain ⟨hinv, hleaves, hgoing, hdone⟩ := Postgres.step h hp hs
    obtain ⟨l, hl⟩ := hleaves.rows
    refine ⟨hinv, fun q hq => (hgoing q hq).1, fun event he =>
      hinv.table.mem_streamRows (hdone event he), fun streamId => ?_⟩
    have htable := hinv.table
    simp only [adapter]
    rw [hl] at htable ⊢
    exact streamRows_prefix h.table htable streamId
  frame h hp hq hpq hs _ := by
    obtain ⟨-, hleaves, hgoing, -⟩ := Postgres.step h hp hs
    refine ⟨Own.frame hleaves (fun d hd hpd => hpq d hpd hd) hq, fun p' hp' _ client hc hqc => ?_⟩
    rcases (hgoing p' hp').2 with h | h
    · exact hpq client (h ▸ hc) hqc
    · cases h.symm.trans hc
      exact lt_irrefl _ (Own.client_lt hq hqc)

end Postgres

end Agid.ResolutionLedger
