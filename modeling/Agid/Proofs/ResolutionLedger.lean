import Agid.Proofs.SecurePos
import Agid.ResolutionLedger

/-!
# What a ledger record keeps of its input

Cleaning twice is cleaning once, and an id or a hash is clean: a record is filed under the stream
it was made for, and carries the hash of the record before it as it is.
-/

namespace Agid

namespace ResolutionLedger

variable {platform : Platform}

theorem orText_ne_nil {a b : JsString} (h : b ≠ []) : orText a b ≠ [] := by
  unfold orText
  split_ifs with ha
  · exact h
  · exact ha

theorem orText_of_ne_nil {a : JsString} (b : JsString) (h : a ≠ []) : orText a b = a := if_neg h

theorem clean_clean (value : Option JsString) :
    clean platform (some (clean platform value)) = clean platform value := by
  simp only [clean, Option.getD_some]
  rw [platform.normalize_trim, trim_trim]

theorem clean_none : clean platform none = [] := by
  rw [clean, Option.getD_none, platform.ascii [] (by simp)]
  rfl

/-- ASCII, and no white space. -/
def isPlain (c : CodeUnit) : Bool := 33 ≤ c.val && c.val ≤ 126

theorem clean_of_plain {s : JsString} (h : ∀ c ∈ s, isPlain c) : clean platform (some s) = s := by
  have hunit : ∀ c ∈ s, 33 ≤ c.val ∧ c.val ≤ 126 := fun c hc => by simpa [isPlain] using h c hc
  rw [clean, Option.getD_some, platform.ascii s fun c hc => by have := hunit c hc; omega]
  refine trim_eq_self fun c hc => ?_
  have := hunit c hc
  simp only [isWhiteSpace, Bool.or_eq_false_iff, Bool.and_eq_false_imp, decide_eq_true_eq,
    decide_eq_false_iff_not, List.contains_eq_mem, List.mem_cons, List.not_mem_nil, or_false]
  omega

theorem isPlain_hash {value : Json} {c : CodeUnit} (hc : c ∈ hash platform value) : isPlain c := by
  have := platform.sha256Hex_digits _ c hc
  simp only [isHexDigit, Bool.or_eq_true, Bool.and_eq_true, decide_eq_true_eq] at this
  simp only [isPlain, Bool.and_eq_true, decide_eq_true_eq]
  omega

theorem isPlain_hexHash {value : Json} {c : CodeUnit} (hc : c ∈ hexHash platform value) :
    isPlain c := by
  rcases List.mem_append.1 hc with hc | hc
  · have hzero : js "0x" = [48, 120] := rfl
    simp only [hzero, List.mem_cons, List.not_mem_nil, or_false] at hc
    rcases hc with rfl | rfl <;> decide
  · exact isPlain_hash hc

theorem hexHash_ne_nil (value : Json) : hexHash platform value ≠ [] := by
  intro h
  cases (List.append_eq_nil_iff.1 h).1

theorem isPlain_kind (kind : AggregateKind) {c : CodeUnit} (hc : c ∈ kind.text) : isPlain c := by
  have hall : kind.text.all isPlain := by cases kind <;> rfl
  exact List.all_eq_true.1 hall c hc

theorem isPlain_streamIdFor {kind : AggregateKind} {aggregateId : JsString} {c : CodeUnit}
    (hc : c ∈ streamIdFor platform kind aggregateId) : isPlain c := by
  have hname : (js "arl-stream:").all isPlain := rfl
  have hcolon : (js ":").all isPlain := rfl
  simp only [streamIdFor, List.mem_append] at hc
  rcases hc with ((hc | hc) | hc) | hc
  · exact List.all_eq_true.1 hname c hc
  · exact isPlain_kind kind hc
  · exact List.all_eq_true.1 hcolon c hc
  · exact isPlain_hash (List.mem_of_mem_take hc)

theorem streamIdFor_ne_nil (kind : AggregateKind) (aggregateId : JsString) :
    streamIdFor platform kind aggregateId ≠ [] := by
  intro h
  simp only [streamIdFor, List.append_eq_nil_iff] at h
  cases h.1.1.1

theorem appendStreamId_ne_nil (input : EventInput) : appendStreamId platform input ≠ [] :=
  orText_ne_nil (streamIdFor_ne_nil _ _)

theorem clean_appendStreamId (input : EventInput) :
    clean platform (some (appendStreamId platform input)) = appendStreamId platform input := by
  unfold appendStreamId
  by_cases h : clean platform input.streamId = []
  · simp only [orText, h, if_true]
    exact clean_of_plain fun c hc => isPlain_streamIdFor hc
  · rw [orText_of_ne_nil _ h, clean_clean]

/-- The hash of a record is one that the ledger makes. -/
def Hashed (platform : Platform) (event : EventRecord) : Prop :=
  ∃ seed, event.eventHash = hexHash platform seed

theorem nonEmpty_clean_hash {event : EventRecord} (h : Hashed platform event) :
    nonEmpty (clean platform (some event.eventHash)) = some event.eventHash := by
  obtain ⟨seed, hseed⟩ := h
  rw [hseed, clean_of_plain fun c hc => isPlain_hexHash hc, nonEmpty, if_neg (hexHash_ne_nil _)]

theorem createEvent_ok {env : Env} {input : EventInput} {sequence : ℕ} {previous : Option JsString}
    {event : EventRecord}
    (h : createAddressResolutionLedgerEventRecord platform env input sequence previous = .ok event) :
    event.sequence = sequence ∧ Hashed platform event
      ∧ event.previousEventHash = nonEmpty (clean platform previous)
      ∧ (clean platform input.streamId ≠ [] → event.streamId = clean platform input.streamId) := by
  obtain ⟨_, -, h⟩ := bind_eq_ok.1 h
  cases h
  exact ⟨rfl, ⟨_, rfl⟩, rfl, fun hne => orText_of_ne_nil _ hne⟩

theorem occurredAt_ne_nil {env : Env} {input : EventInput} {sequence : ℕ}
    {previous : Option JsString} {event : EventRecord}
    (h : createAddressResolutionLedgerEventRecord platform env input sequence previous = .ok event) :
    event.occurredAt ≠ [] := by
  obtain ⟨_, -, h⟩ := bind_eq_ok.1 h
  cases h
  exact orText_ne_nil (platform.dates.toISOString_ne_nil _)

/-- A record for the stream of its input, after another record or first. -/
theorem createEvent_after {env : Env} {input : EventInput} {sequence : ℕ}
    {previous : Option EventRecord} {event : EventRecord}
    (h : createAddressResolutionLedgerEventRecord platform env
      { input with streamId := some (appendStreamId platform input) } sequence
      (previous.map (·.eventHash)) = .ok event)
    (hprevious : ∀ p, previous = some p → Hashed platform p) :
    event.streamId = appendStreamId platform input ∧ event.sequence = sequence
      ∧ event.previousEventHash = previous.map (·.eventHash) ∧ Hashed platform event := by
  obtain ⟨hsequence, hhashed, hlink, hstream⟩ := createEvent_ok h
  rw [clean_appendStreamId] at hstream
  refine ⟨hstream (appendStreamId_ne_nil input), hsequence, hlink.trans ?_, hhashed⟩
  rcases previous with _ | p
  · rw [Option.map_none, clean_none]
    rfl
  · exact nonEmpty_clean_hash (hprevious p rfl)

end ResolutionLedger

end Agid
