import Agid.Proofs.ResolutionLedger
import Agid.LedgerEvents
import Agid.Lib.Chain

/-!
# The chain of a stream

A store keeps its chains where each of its appends does, whatever the calls around them: what a
step of one append does to the store, and what it leaves of the others.  With unique rows an append
that has read an old row cannot add another; without them the appends of one stream must not
overlap.
-/

namespace Agid.ResolutionLedger

variable {platform : Platform}

/-- The chain of the library, with the fields of the records. -/
abbrev Linked (events : List EventRecord) : Prop :=
  Chain.Linked EventRecord.sequence EventRecord.previousEventHash EventRecord.eventHash events

theorem Linked.chained {events : List EventRecord} (h : Linked events) : Chained events := by
  refine ⟨h.numbers, fun event he => ?_, fun i event next he hn => ?_⟩
  · rw [List.head?_eq_getElem?] at he
    exact (h 0 event he).2
  · rw [(h (i + 1) next hn).2, List.take_add_one, he, Option.toList_some, List.getLast?_concat,
      Option.map_some]

/-! ## Calls -/

/-- The event of a call that has appended it. -/
def CallPhase.event? {A : Type} : CallPhase A → Option EventRecord
  | .writingSnapshot event => some event
  | .readingSnapshot event => some event
  | .returned event => some event
  | _ => none

theorem CallPhase.after_appending {A : Type} {env : CommandEnv} {next : CallPhase A} {p : A}
    (h : CallPhase.after env next = .appending p) : next = .appending p := by
  unfold CallPhase.after at h
  split_ifs at h
  exact h

theorem CallPhase.after_event {A : Type} {env : CommandEnv} (next : CallPhase A)
    {event : EventRecord} (h : (CallPhase.after env next).event? = some event) :
    next.event? = some event := by
  unfold CallPhase.after at h
  split_ifs at h
  · exact h
  · cases h

/-- A step of a call is one of its append, or it leaves the store. -/
theorem Call.advance_cases {S A : Type} {appending : Appending S A} {env : CommandEnv} {s s' : S}
    {call call' : Call A} (h : Call.advance platform appending env s call = some (s', call')) :
    (s' = s ∧ (∀ p, call'.phase = .appending p → ∃ input, p = appending.begin input)
        ∧ ∀ event, call'.phase.event? = some event → call.phase.event? = some event)
      ∨ ∃ p o, call.phase = .appending p ∧ appending.advance env s p = some (s', o)
        ∧ (∀ q, call'.phase = .appending q → o = .going q)
        ∧ ∀ event, call'.phase.event? = some event → o = .done event := by
  rcases call with ⟨ofResolution, phase⟩
  cases phase with
  | appending p =>
    obtain ⟨⟨s'', o⟩, ho, heq⟩ := Option.map_eq_some_iff.1 h
    cases heq
    refine .inr ⟨p, o, rfl, ho, fun q hq => ?_, fun event he => ?_⟩
    · cases o <;> cases hq
      rfl
    · cases o <;> cases he
      rfl
  | writingEntry entry =>
    cases h
    refine .inl ⟨rfl, fun p hp => ?_, fun event he => ?_⟩
    · cases CallPhase.after_appending hp
      exact ⟨_, rfl⟩
    · cases CallPhase.after_event _ he
  | writingSnapshot event =>
    cases h
    refine .inl ⟨rfl, fun p hp => ?_, fun event' he => ?_⟩
    · have := CallPhase.after_appending hp
      split_ifs at this
    · have := CallPhase.after_event _ he
      split_ifs at this <;> exact this
  | readingSnapshot event =>
    cases h
    refine .inl ⟨rfl, fun p hp => ?_, fun event' he => ?_⟩
    · cases CallPhase.after_appending hp
    · exact CallPhase.after_event (.returned event) he
  | returned event => cases h
  | failed => cases h

/-- What the appends of a store keep, one by one. -/
structure AppendRule (a : Adapter) where
  inv : a.Store → Prop
  own : a.Store → a.Phase → Prop
  apart : a.Phase → a.Phase → Prop
  empty : inv a.empty
  chained : ∀ {s}, inv s → ∀ streamId, Chained (a.stored s streamId)
  symm : ∀ {p q}, apart p q → apart q p
  begin : ∀ {s} input, inv s → own s (a.appendEvent.begin input)
  begin_apart : ∀ {s q} input, own s q → apart (a.appendEvent.begin input) q
  step : ∀ {env s p s' o}, inv s → own s p → a.appendEvent.advance env s p = some (s', o) →
    a.keeps s s' → inv s' ∧ (∀ q, o = .going q → own s' q)
      ∧ (∀ event, o = .done event → event ∈ a.stored s' event.streamId)
      ∧ ∀ streamId, a.stored s streamId <+: a.stored s' streamId
  frame : ∀ {env s p s' o q}, inv s → own s p → own s q → apart p q →
    a.appendEvent.advance env s p = some (s', o) → a.keeps s s' →
      own s' q ∧ ∀ p', o = .going p' → a.meet p' q → apart p' q

namespace AppendRule

variable {a : Adapter} (rule : AppendRule a)

structure Own (s : a.Store) (call : Call a.Phase) : Prop where
  append : ∀ p, call.phase = .appending p → rule.own s p
  event : ∀ event, call.phase.event? = some event → event ∈ a.stored s event.streamId

def Apart (call other : Call a.Phase) : Prop :=
  ∀ p q, call.phase = .appending p → other.phase = .appending q → rule.apart p q

def toRule (platform : Platform) : Tasks.Rule (callSystem platform a.appendEvent) a.condition where
  inv := rule.inv
  own := rule.Own
  apart := rule.Apart
  symm h p q hp hq := rule.symm (h q p hq hp)
  start {s r} hs _ := by
    cases r with
    | recordEvent input =>
      refine ⟨fun p hp => ?_, fun event he => (by cases he)⟩
      cases hp
      exact rule.begin input hs
    | recordResolution env result options =>
      exact ⟨fun p hp => (by cases hp), fun event he => (by cases he)⟩
  start_apart {s r u} hs _ hu _ p q hp hq := by
    cases r with
    | recordEvent input =>
      cases hp
      exact rule.begin_apart input (hu.append q hq)
    | recordResolution env result options => cases hp
  advance {env s call s' call'} hs hown h hkeeps := by
    rcases Call.advance_cases h with ⟨rfl, hbegin, hevent⟩ | ⟨p, o, hp, ho, hgoing, hdone⟩
    · refine ⟨hs, fun p hp => ?_, fun event he => hown.event event (hevent event he)⟩
      obtain ⟨input, rfl⟩ := hbegin p hp
      exact rule.begin input hs
    · obtain ⟨hinv, hnext, hstored, -⟩ := rule.step hs (hown.append p hp) ho hkeeps
      exact ⟨hinv, fun q hq => hnext q (hgoing q hq), fun event he =>
        hstored event (hdone event he)⟩
  frame {env s call s' call' other} hs hown hother hapart h hkeeps hmeet := by
    rcases Call.advance_cases h with ⟨rfl, hbegin, -⟩ | ⟨p, o, hp, ho, hgoing, -⟩
    · refine ⟨hother, fun p q hp hq => ?_⟩
      obtain ⟨input, rfl⟩ := hbegin p hp
      exact rule.begin_apart input (hother.append q hq)
    · obtain ⟨-, -, -, hgrow⟩ := rule.step hs (hown.append p hp) ho hkeeps
      refine ⟨⟨fun q hq => ?_, fun event he => ?_⟩, fun p' q hp' hq => ?_⟩
      · exact (rule.frame hs (hown.append p hp) (hother.append q hq) (hapart p q hp hq) ho hkeeps).1
      · exact (hgrow _).subset (hother.event event he)
      · exact (rule.frame hs (hown.append p hp) (hother.append q hq) (hapart p q hp hq) ho
          hkeeps).2 p' (hgoing p' hp') (hmeet p' q hp' hq)

theorem chainKept (rule : AppendRule a) {w : Tasks.World a.Store (Call a.Phase)}
    (h : Tasks.Run (callSystem platform a.appendEvent) a.condition a.empty w) : ChainKept a w := by
  have hholds := (rule.toRule platform).holds rule.empty h
  exact ⟨rule.chained hholds.inv, fun call hcall event he =>
    (hholds.own call hcall).event event (by rw [he]; rfl)⟩

end AppendRule

end Agid.ResolutionLedger
