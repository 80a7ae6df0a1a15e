import Agid.Proofs.EventStores

/-!
# Chains under keys

Memory and Redis keep a stream as a list of ids, and an event under its id.  A record made after the
last id is the next of the stream while nobody else has added one, which in memory is a single
step.  Two appends of a stream that overlap in Redis both take the same number.
-/

namespace Agid.ResolutionLedger

variable {platform : Platform}

theorem getLast?_filterMap {α β : Type*} {f : α → Option β} : ∀ {l : List α},
    (∀ a ∈ l, ∃ b, f a = some b) → (l.filterMap f).getLast? = l.getLast?.bind f := by
  intro l h
  rcases List.eq_nil_or_concat l with rfl | ⟨l, a, rfl⟩
  · rfl
  · obtain ⟨b, hb⟩ := h a (by simp)
    simp [List.filterMap_append, hb]

theorem length_filterMap {α β : Type*} {f : α → Option β} : ∀ {l : List α},
    (∀ a ∈ l, ∃ b, f a = some b) → (l.filterMap f).length = l.length
  | [], _ => rfl
  | a :: l, h => by
    obtain ⟨b, hb⟩ := h a List.mem_cons_self
    rw [List.filterMap_cons_some hb, List.length_cons, List.length_cons,
      length_filterMap fun a ha => h a (List.mem_cons_of_mem _ ha)]

namespace KeyedEvents

/-- Every id of a stream is that of an event, and they are a chain. -/
structure Inv (platform : Platform) (s : KeyedEvents) : Prop where
  known : ∀ streamId, ∀ id ∈ s.ids streamId, ∃ event, s.events.get? id = some event
  linked : ∀ streamId, Linked (s.stored streamId)
  hashed : ∀ streamId, ∀ event ∈ s.stored streamId, Hashed platform event

theorem inv_empty : Inv platform .empty :=
  ⟨fun _ _ h => (by cases h), fun _ => Chain.linked_nil, fun _ _ h => (by cases h)⟩

variable {s : KeyedEvents} {event : EventRecord} {streamId : JsString}

theorem Inv.length_stored (h : Inv platform s) : (s.stored streamId).length = (s.ids streamId).length :=
  length_filterMap (h.known streamId)

theorem Inv.last_stored (h : Inv platform s) :
    (s.stored streamId).getLast? = (s.ids streamId).getLast?.bind s.events.get? :=
  getLast?_filterMap (h.known streamId)

/-- An event under a new id leaves the streams. -/
theorem stored_set (h : Inv platform s) {events : Record JsString EventRecord}
    (hkeeps : KeepsEvents s { s with events := events }) :
    ({ s with events := events } : KeyedEvents).stored streamId = s.stored streamId :=
  List.filterMap_congr fun id hid => by
    obtain ⟨e, he⟩ := h.known streamId id hid
    rw [he]
    exact hkeeps id e he

theorem Inv.set (h : Inv platform s) {events : Record JsString EventRecord}
    (hkeeps : KeepsEvents s { s with events := events }) : Inv platform { s with events := events } where
  known streamId id hid := by
    obtain ⟨e, he⟩ := h.known streamId id hid
    exact ⟨e, hkeeps id e he⟩
  linked streamId := by
    rw [stored_set h hkeeps]
    exact h.linked streamId
  hashed streamId := by
    rw [stored_set h hkeeps]
    exact h.hashed streamId

theorem ids_push (s : KeyedEvents) (event : EventRecord) (streamId : JsString) :
    (s.push event).ids streamId
      = if event.streamId = streamId then s.ids streamId ++ [event.eventId] else s.ids streamId := by
  simp only [ids, push, Record.get?_set]
  split_ifs with h
  · subst h
    rfl
  · rfl

theorem stored_push (hevent : s.events.get? event.eventId = some event) (streamId : JsString) :
    (s.push event).stored streamId
      = if event.streamId = streamId then s.stored streamId ++ [event] else s.stored streamId := by
  rw [stored, ids_push]
  split_ifs with h
  · rw [List.filterMap_append]
    simp [push, hevent, stored]
  · rfl

/-- The next event of a stream, as the stream is. -/
structure Next (platform : Platform) (s : KeyedEvents) (event : EventRecord) : Prop where
  hashed : Hashed platform event
  sequence : event.sequence = (s.stored event.streamId).length + 1
  previous : event.previousEventHash
    = (s.stored event.streamId).getLast?.map EventRecord.eventHash

theorem Inv.push (h : Inv platform s) (hevent : s.events.get? event.eventId = some event)
    (hnext : Next platform s event) : Inv platform (s.push event) := by
  refine ⟨fun streamId id hid => ?_, fun streamId => ?_, fun streamId e he => ?_⟩
  · rw [ids_push] at hid
    split_ifs at hid
    · rcases List.mem_append.1 hid with hid | hid
      · exact h.known streamId id hid
      · rw [List.mem_singleton.1 hid]
        exact ⟨event, hevent⟩
    · exact h.known streamId id hid
  · rw [stored_push hevent]
    split_ifs with hs
    · subst hs
      exact (h.linked _).concat hnext.sequence hnext.previous
    · exact h.linked streamId
  · rw [stored_push hevent] at he
    split_ifs at he
    · rcases List.mem_append.1 he with he | he
      · exact h.hashed streamId e he
      · rw [List.mem_singleton.1 he]
        exact hnext.hashed
    · exact h.hashed streamId e he

theorem stored_prefix (hevent : s.events.get? event.eventId = some event) (streamId : JsString) :
    s.stored streamId <+: (s.push event).stored streamId := by
  rw [stored_push hevent]
  split_ifs
  · exact List.prefix_append _ _
  · exact List.prefix_rfl

/-- A record made after the last event of its stream. -/
theorem Inv.next (h : Inv platform s) {env : Env} {input : EventInput} {sequence : ℕ}
    (hevent : createAddressResolutionLedgerEventRecord platform env
      { input with streamId := some (appendStreamId platform input) } sequence
      ((s.stored (appendStreamId platform input)).getLast?.map (·.eventHash)) = .ok event)
    (hsequence : sequence = (s.stored (appendStreamId platform input)).length + 1) :
    event.streamId = appendStreamId platform input ∧ Next platform s event := by
  obtain ⟨hstream, hnumber, hlink, hhashed⟩ := createEvent_after hevent fun p hp =>
    h.hashed _ p (List.mem_of_getLast? hp)
  exact ⟨hstream, hhashed, by rw [hstream, hnumber, hsequence], by rw [hstream, hlink]⟩

/-- The number after the last event is that of the next. -/
theorem Inv.number (h : Inv platform s) (streamId : JsString) :
    ((s.stored streamId).getLast?.map EventRecord.sequence).getD 0 = (s.stored streamId).length := by
  rcases hl : (s.stored streamId).getLast? with _ | last
  · rw [List.getLast?_eq_none_iff.1 hl]
    rfl
  · rw [List.getLast?_eq_getElem?] at hl
    have := (h.linked streamId _ _ hl).1
    have hlt := (List.getElem?_eq_some_iff.1 hl).1
    simp only [Option.map_some, Option.getD_some, this]
    omega

end KeyedEvents

/-! ## Memory -/

namespace InMemory

open KeyedEvents

def rule (platform : Platform) : AppendRule (adapter platform .memory) where
  inv := Inv platform
  own _ _ := True
  apart _ _ := True
  empty := inv_empty
  chained h streamId := (h.linked streamId).chained
  symm := id
  begin _ _ := trivial
  begin_apart _ _ := trivial
  step {env s input s' o} h _ hs hkeeps := by
    change (appendEvent platform).advance env s input = some (s', o) at hs
    simp only [appendEvent] at hs
    split at hs
    · cases hs
      exact ⟨h, by simp, by simp, fun _ => List.prefix_rfl⟩
    · rename_i event hevent
      cases hs
      rw [← Inv.last_stored h] at hevent
      obtain ⟨-, hnext⟩ := Inv.next h hevent (by rw [Inv.length_stored h])
      have hset : KeepsEvents s { s with events := s.events.set event.eventId event } := hkeeps
      have hget := s.events.get?_set_self event.eventId event
      have hnext' : Next platform { s with events := s.events.set event.eventId event } event :=
        ⟨hnext.hashed, by rw [stored_set h hset]; exact hnext.sequence,
          by rw [stored_set h hset]; exact hnext.previous⟩
      refine ⟨(Inv.set h hset).push hget hnext', by simp, fun e he => ?_, fun streamId => ?_⟩
      · cases he
        change event ∈ KeyedEvents.stored _ event.streamId
        rw [stored_push hget, if_pos rfl]
        exact List.mem_concat_self
      · change s.stored streamId <+: KeyedEvents.stored _ streamId
        rw [← stored_set h hset]
        exact stored_prefix hget streamId
  frame _ _ _ _ _ _ := ⟨trivial, fun _ _ _ => trivial⟩

end InMemory

/-! ## Redis -/

namespace Redis

open KeyedEvents

def Own (platform : Platform) (s : KeyedEvents) : Phase → Prop
  | .indexing _ => True
  | .getting input previousEventId =>
    (s.ids (appendStreamId platform input)).getLast? = some previousEventId
  | .setting event => Next platform s event
  | .pushing event => Next platform s event ∧ s.events.get? event.eventId = some event
  | .counting event => event ∈ s.stored event.streamId

/-- What an append has read of its stream is still so. -/
theorem Own.frame {s s' : KeyedEvents}
    (hkeeps : KeepsEvents s s') (hstored : ∀ streamId, s.stored streamId <+: s'.stored streamId) :
    ∀ {q : Phase}, (∀ streamId, openStream platform q = some streamId →
      s'.ids streamId = s.ids streamId ∧ s'.stored streamId = s.stored streamId) →
        Own platform s q → Own platform s' q
  | .indexing _, _, _ => trivial
  | .getting input _, hsame, h => by
    rw [Own, (hsame _ rfl).1]
    exact h
  | .setting event, hsame, h => by
    have := (hsame _ rfl).2
    exact ⟨h.hashed, this ▸ h.sequence, this ▸ h.previous⟩
  | .pushing event, hsame, h => by
    have := (hsame _ rfl).2
    exact ⟨⟨h.1.hashed, this ▸ h.1.sequence, this ▸ h.1.previous⟩, hkeeps _ _ h.2⟩
  | .counting event, _, h => (hstored _).subset h

/-- A step of an append: only the last but one adds to its stream. -/
structure Moves (platform : Platform) (s : KeyedEvents) (p : Phase) (s' : KeyedEvents)
    (o : Outcome Phase) : Prop where
  inv : Inv platform s'
  going : ∀ q, o = .going q → Own platform s' q
  done : ∀ event, o = .done event → event ∈ s'.stored event.streamId
  grows : ∀ streamId, s.stored streamId <+: s'.stored streamId
  others : ∀ streamId, openStream platform p ≠ some streamId →
    s'.ids streamId = s.ids streamId ∧ s'.stored streamId = s.stored streamId

theorem Moves.read {s s' : KeyedEvents} {p : Phase} {env : CommandEnv} {next o : Outcome Phase}
    (h : Inv platform s) (hgoing : ∀ q, next = .going q → Own platform s q)
    (hdone : ∀ event, next = .done event → event ∈ s.stored event.streamId)
    (hs : command env s s next = (s', o)) : Moves platform s p s' o := by
  have hfailed : Moves platform s p s .failed :=
    ⟨h, by simp, by simp, fun _ => List.prefix_rfl, fun _ _ => ⟨rfl, rfl⟩⟩
  rcases command_cases hs with ⟨rfl, rfl⟩ | ⟨rfl, rfl | rfl⟩
  · exact hfailed
  · exact ⟨h, hgoing, hdone, fun _ => List.prefix_rfl, fun _ _ => ⟨rfl, rfl⟩⟩
  · exact hfailed

theorem going_create {s : KeyedEvents} (h : Inv platform s) (env : CommandEnv) (input : EventInput)
    (previous : Option EventRecord)
    (hprevious : previous = (s.stored (appendStreamId platform input)).getLast?) :
    (∀ q, create platform env input previous = .going q → Own platform s q)
      ∧ ∀ event, create platform env input previous ≠ .done event := by
  subst hprevious
  unfold create
  rcases hr : recordAfter platform env input
    (s.stored (appendStreamId platform input)).getLast? with _ | event
  · exact ⟨by simp, by simp⟩
  · refine ⟨fun q hq => ?_, by simp⟩
    cases hq
    exact (h.next hr (by rw [h.number])).2

theorem step {env : CommandEnv} {s s' : KeyedEvents} {o : Outcome Phase} (h : Inv platform s)
    (hkeeps : KeepsEvents s s') : ∀ {p : Phase}, Own platform s p →
      (appendEvent platform).advance env s p = some (s', o) → Moves platform s p s' o
  | .indexing input, _, hs => by
    simp only [appendEvent] at hs
    split at hs
    · rename_i hnil
      obtain ⟨hgoing, hdone⟩ := going_create h env input none
        (by rw [h.last_stored, hnil, Option.bind_none])
      exact .read h hgoing (fun event he => absurd he (hdone event)) (Option.some.inj hs)
    · rename_i previousEventId hlast
      refine .read h (fun q hq => ?_) (fun event he => by cases he) (Option.some.inj hs)
      cases hq
      exact hlast
  | .getting input previousEventId, hown, hs => by
    obtain ⟨hgoing, hdone⟩ := going_create h env input (s.events.get? previousEventId)
      (by rw [h.last_stored, hown, Option.bind_some])
    exact .read h hgoing (fun event he => absurd he (hdone event)) (Option.some.inj hs)
  | .setting event, hown, hs => by
    rcases command_cases (Option.some.inj hs) with ⟨rfl, rfl⟩ | ⟨rfl, ho⟩
    · exact ⟨h, by simp, by simp, fun _ => List.prefix_rfl, fun _ _ => ⟨rfl, rfl⟩⟩
    · have hsame : ∀ streamId, KeyedEvents.stored
          { s with events := s.events.set event.eventId event } streamId = s.stored streamId :=
        fun _ => stored_set h hkeeps
      refine ⟨h.set hkeeps, fun q hq => ?_, fun e he => ?_, fun streamId => ?_,
        fun streamId _ => ⟨rfl, hsame streamId⟩⟩
      · rcases ho with rfl | rfl <;> cases hq
        exact ⟨⟨hown.hashed, by rw [hsame]; exact hown.sequence, by rw [hsame]; exact hown.previous⟩,
          s.events.get?_set_self _ _⟩
      · rcases ho with rfl | rfl <;> cases he
      · rw [hsame]
  | .pushing event, hown, hs => by
    rcases command_cases (Option.some.inj hs) with ⟨rfl, rfl⟩ | ⟨rfl, ho⟩
    · exact ⟨h, by simp, by simp, fun _ => List.prefix_rfl, fun _ _ => ⟨rfl, rfl⟩⟩
    · refine ⟨h.push hown.2 hown.1, fun q hq => ?_, fun e he => ?_, stored_prefix hown.2,
        fun streamId hne => ?_⟩
      · rcases ho with rfl | rfl <;> cases hq
        rw [Own, stored_push hown.2, if_pos rfl]
        exact List.mem_concat_self
      · rcases ho with rfl | rfl <;> cases he
      · have hne' : event.streamId ≠ streamId := fun h => hne (congrArg some h)
        rw [ids_push, stored_push hown.2, if_neg hne', if_neg hne']
        exact ⟨rfl, rfl⟩
  | .counting event, hown, hs => by
    refine .read h (fun q hq => by cases hq) (fun e he => ?_) (Option.some.inj hs)
    cases he
    exact hown

def rule (platform : Platform) : AppendRule (adapter platform .redis) where
  inv := Inv platform
  own := Own platform
  apart := Meet platform
  empty := inv_empty
  chained h streamId := (h.linked streamId).chained
  symm h streamId hq hp := h streamId hp hq
  begin _ _ := trivial
  begin_apart _ _ streamId h := by cases h
  step h hp hs hkeeps := by
    obtain ⟨hinv, hgoing, hdone, hgrows, -⟩ := Redis.step h hkeeps hp hs
    exact ⟨hinv, hgoing, hdone, hgrows⟩
  frame h hp hq hpq hs hkeeps := by
    obtain ⟨-, -, -, hgrows, hothers⟩ := Redis.step h hkeeps hp hs
    exact ⟨Own.frame hkeeps hgrows (fun streamId hopen => hothers streamId fun hp =>
      hpq streamId hp hopen) hq, fun _ _ hmeet => hmeet⟩

end Redis

/-- In every run that keeps to its store's condition, every stream is a chain with all the events
that calls have returned. -/
theorem chainKept_of_condition (platform : Platform) (mode : StorageMode)
    {w : Tasks.World (adapter platform mode).Store (Call (adapter platform mode).Phase)}
    (h : Tasks.Run (callSystem platform (adapter platform mode).appendEvent)
      (adapter platform mode).condition (adapter platform mode).empty w) :
    ChainKept (adapter platform mode) w :=
  match mode with
  | .memory => (InMemory.rule platform).chainKept h
  | .sqlite => (Sqlite.rule platform).chainKept h
  | .postgres => (Postgres.rule platform).chainKept h
  | .redis => (Redis.rule platform).chainKept h
  | .mongodb => (MongoDb.rule platform).chainKept h

/-! ## Overlapping appends -/

/-- The digests of the samples' texts, by their lengths and one unit. -/
def sampleDigest (s : JsString) : JsString :=
  (match s.length, (s.drop 16).head? with
    | 158, _ => ["e8ff195328968dd8", "3d88a1ab7ab5611d", "1af58eaa146e3c3e", "f158a0e69d1a2a29"]
    | 349, _ => ["a81da196c46b9480", "1a467191dda411a4", "7285aa4b61109878", "861f141666edba76"]
    | 351, _ => ["7ebb2d4159401235", "0cc6a2490fd9ff96", "1e2db37df1174897", "57e4d462d5de8d89"]
    | 417, _ => ["8543e82e33f07e7b", "956bdcc6142a3a4f", "0ceaa7d2484bdbc1", "23f5f14085d97917"]
    | 111, some 97 => ["3dba0f81cf337d3b", "df88a2a145ffc15d", "09b89599c2f5e776", "fd7d5553fac38b28"]
    | 111, some 56 => ["4dd3fe9be096dbf8", "ed95c7c5c061ab1f", "a12715787756559c", "315a542a4c11e9fa"]
    | 354, _ => ["1696a63f3839c959", "990fa54979232608", "649b0e65075ef51d", "eb71fd194eecd863"]
    | 418, _ => ["5346489a32968193", "d727ada5f882c1ec", "5ac2a2ad903fb655", "5607b0d21538382b"]
    | _, _ => []).flatMap js

theorem isHexDigit_sampleDigest (s : JsString) : ∀ c ∈ sampleDigest s, isHexDigit c := by
  refine List.all_eq_true.1 ?_
  unfold sampleDigest
  split <;> decide

def samplePlatform : Platform where
  normalize := id
  ascii := id_ascii
  normalize_trim _ := rfl
  toLowerCase := id
  dates := .ofTable ⟨[(1781654400000, js "2026-06-17T00:00:00.000Z")], by decide⟩ (by decide) (by decide)
  localeLe a b := decide (a ≤ b)
  quote s := js "\"" ++ s ++ js "\""
  numberText q := base36 q.num.natAbs
  sha256Hex := sampleDigest
  sha256Hex_digits := isHexDigit_sampleDigest

/-- An event of the stream `s1`. -/
def sampleInput (resolutionId : Option JsString) (occurredAt : JsString) : EventInput where
  streamId := some (js "s1")
  aggregateKind := none
  aggregateId := some (js "a1")
  eventType := .addressRegistered
  eventVersion := none
  occurredAt := some occurredAt
  resolutionId := resolutionId
  actorCommitment := none
  causationId := none
  correlationId := none
  payload := none

def sampleEvent (resolutionId : Option JsString) : Request :=
  .recordEvent (sampleInput resolutionId (js "2026-06-17T00:00:00.000Z"))

def CallPhase.isReturned {A : Type} : CallPhase A → Bool
  | .returned _ => true
  | _ => false

/-- Two calls that step in turns, `n` times. -/
def sampleTurns (n : ℕ) : List (Tasks.Move Request CommandEnv) :=
  .start (sampleEvent none) :: .start (sampleEvent (some (js "r2"))) ::
    (List.replicate n [.advance 0 ⟨⟨0, []⟩, .arrived⟩, .advance 1 ⟨⟨0, []⟩, .arrived⟩]).flatten

instance : DecidableRel (adapter samplePlatform .sqlite).condition.keeps :=
  fun _ _ => .isTrue trivial

instance : DecidableRel (adapter samplePlatform .sqlite).condition.meet :=
  fun _ _ => .isTrue fun _ _ _ _ => trivial

instance : DecidablePred (adapter samplePlatform .sqlite).condition.accepts :=
  fun _ => .isTrue trivial

/-- Of two calls that both select before either inserts, SQLite turns one away. -/
theorem chainKept_of_condition_overlapping :
    ∃ w, ChainKept (adapter samplePlatform .sqlite) w
      ∧ w.tasks.map (fun call => call.phase.isReturned) = [true, false] := by
  obtain ⟨w, hrun, hw⟩ := (Tasks.Run.init
      (callSystem samplePlatform (adapter samplePlatform .sqlite).appendEvent)
      (adapter samplePlatform .sqlite).condition []).play
    (fun w => w.tasks.map fun call => call.phase.isReturned) (a := [true, false])
    (sampleTurns 2 ++ [.advance 0 ⟨⟨0, []⟩, .arrived⟩]) (by decide +kernel)
  exact ⟨w, chainKept_of_condition samplePlatform .sqlite hrun, hw⟩

theorem overlapping_appends_not_chained :
    ¬ ∀ w, Tasks.Run (callSystem samplePlatform (adapter samplePlatform .redis).appendEvent)
      Tasks.Condition.free (adapter samplePlatform .redis).empty w →
        ChainKept (adapter samplePlatform .redis) w := by
  intro h
  obtain ⟨w, hrun, hw⟩ := (Tasks.Run.init
      (callSystem samplePlatform (Redis.appendEvent samplePlatform)) Tasks.Condition.free
      KeyedEvents.empty).play
    (fun w => ((w.store.stored (js "s1")).map EventRecord.sequence,
      w.tasks.map fun call => call.phase.isReturned)) (a := ([1, 1], [true, true]))
    (sampleTurns 5) (by decide +kernel)
  have hnumbered := ((h w hrun).chained (js "s1")).numbered
  have hsequences : (w.store.stored (js "s1")).map EventRecord.sequence = [1, 1] :=
    congrArg Prod.fst hw
  change (w.store.stored (js "s1")).map EventRecord.sequence = _ at hnumbered
  rw [hsequences] at hnumbered
  have hlength := congrArg List.length hsequences
  rw [List.length_map] at hlength
  change _ = List.range' 1 (w.store.stored (js "s1")).length at hnumbered
  rw [hlength] at hnumbered
  cases hnumbered

end Agid.ResolutionLedger
