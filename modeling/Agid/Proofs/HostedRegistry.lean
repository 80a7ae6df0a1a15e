import Agid.Proofs.RegistryApi
import Agid.Proofs.PosRegistry
import Agid.HostedRegistry

/-!
# What the hosted registry keeps

Each text follows from the one before it by one call, so a later text holds what an earlier one
does.  While the registry in memory stays, and no text takes the place of a later one, the file
holds at least the text of every call that has returned, and the last text once all have.
-/

namespace Agid.HostedRegistry

open RegistryApi
open PosRegistry (Contents)

variable {P : Platform}

/-! ## Texts -/

/-- What one call does to the registry. -/
structure Follows (P : Platform) (r r' : Registry) (request : Request) (a : Answer) : Prop where
  nullifiers : ∀ k record, r.nullifiers.get? k = some record → r'.nullifiers.get? k = some record
  records : ∀ scope hash, Records P request a scope hash →
    r.nullifiers.get? (nullifierKey scope hash) = none
      ∧ ∃ record, r'.nullifiers.get? (nullifierKey scope hash) = some record
        ∧ record.scope = scope ∧ record.nullifierHash = hash
  revoked : ∀ k, (r.revoked.get? k).isSome → (r'.revoked.get? k).isSome
  revokes : ∀ k, Revokes P request a k → (r'.revoked.get? k).isSome
  registers : ∀ k status, Registers P request a k status →
    ∃ record, r'.issuers.get? k = some record ∧ record.status = status
  issuers : ∀ k, (∀ status, ¬ Registers P request a k status) →
    r'.issuers.get? k = r.issuers.get? k
  keyed : Keyed r → Keyed r'

/-- A call that changes no map. -/
theorem Follows.of_same {r r' : Registry} {request : Request} {a : Answer} (h : SameMaps r r')
    (hrecords : ∀ scope hash, ¬ Records P request a scope hash)
    (hrevokes : ∀ k, Revokes P request a k → (r.revoked.get? k).isSome)
    (hregisters : ∀ k status, ¬ Registers P request a k status) : Follows P r r' request a where
  nullifiers k record hk := by rw [h.nullifiers, hk]
  records scope hash hr := (hrecords scope hash hr).elim
  revoked k hk := by rw [h.revoked]; exact hk
  revokes k hk := by rw [h.revoked]; exact hrevokes k hk
  registers k status hr := (hregisters k status hr).elim
  issuers k _ := by rw [h.issuers]
  keyed hk := h.keyed hk

theorem registerIssuer_follows (env : RegistryApi.Env) (r : Registry) (input : Members) :
    Follows P r (registerIssuer P env r input).1 (.registerIssuer input)
      (.issuer (registerIssuer P env r input).2) := by
  have hrecords : ∀ scope hash, ¬ Records P (.registerIssuer input)
      (.issuer (registerIssuer P env r input).2) scope hash := by
    rintro scope hash ⟨input', result, h, -⟩
    cases h
  have hrevokes : ∀ k, ¬ Revokes P (.registerIssuer input)
      (.issuer (registerIssuer P env r input).2) k := by
    rintro k (⟨input', result, h, -⟩ | ⟨input', result, h, -⟩) <;> cases h
  rcases registerIssuer_cases (P := P) env r input with
    ⟨hsame, hstatus⟩ | ⟨record, hid, hstatus, hne, hsame⟩
  · refine .of_same hsame hrecords (fun k hk => (hrevokes k hk).elim) ?_
    rintro k status ⟨input', result, h, ha, hne, -⟩
    cases ha
    exact hne hstatus
  · refine ⟨fun k record hk => ?_, fun scope hash h => (hrecords scope hash h).elim, fun k hk => ?_,
      fun k hk => (hrevokes k hk).elim, ?_, fun k hk => ?_, fun hk => hsame.keyed ⟨hk.revoked, ?_⟩⟩
    · rw [hsame.nullifiers, hk]
    · rw [hsame.revoked]
      exact hk
    · rintro k status ⟨input', result, h, -, -, rfl, rfl⟩
      cases h
      exact ⟨record, by rw [hsame.issuers, Record.get?_set_self], hstatus⟩
    · have hother : requestedIssuer P input ≠ k := fun h =>
        hk (requestedStatus P input) ⟨input, _, rfl, rfl, hne, h, rfl⟩
      rw [hsame.issuers, Record.get?_set_of_ne _ _ hother]
    · intro k record' hr
      rw [Record.get?_set] at hr
      split_ifs at hr with heq
      · cases hr
        exact hid.trans heq
      · exact hk.issuers k record' hr

theorem revokeCommitment_follows (env : RegistryApi.Env) (r : Registry) (input : Members) :
    Follows P r (revokeCommitment P env r input).1 (.revokeCommitment input)
      (.revocation (revokeCommitment P env r input).2) := by
  have hrecords : ∀ scope hash, ¬ Records P (.revokeCommitment input)
      (.revocation (revokeCommitment P env r input).2) scope hash := by
    rintro scope hash ⟨input', result, h, -⟩
    cases h
  have hregisters : ∀ k status, ¬ Registers P (.revokeCommitment input)
      (.revocation (revokeCommitment P env r input).2) k status := by
    rintro k status ⟨input', result, h, -⟩
    cases h
  rcases revokeCommitment_cases (P := P) env r input with
    ⟨hsame, hstatus⟩ | ⟨record, hid, hsame⟩
  · refine .of_same hsame hrecords ?_ hregisters
    rintro k (⟨input', result, h, ha, hne, -⟩ | ⟨input', result, h, -⟩)
    · cases ha
      exact (hne hstatus).elim
    · cases h
  · refine ⟨fun k record hk => ?_, fun scope hash h => (hrecords scope hash h).elim, fun k hk => ?_,
      ?_, fun k status h => (hregisters k status h).elim, fun k _ => ?_,
      fun hk => hsame.keyed ⟨?_, hk.issuers⟩⟩
    · rw [hsame.nullifiers, hk]
    · rw [hsame.revoked, Record.get?_set]
      split_ifs
      · rfl
      · exact hk
    · rintro k (⟨input', result, h, -, -, rfl⟩ | ⟨input', result, h, -⟩)
      · cases h
        rw [hsame.revoked, Record.get?_set_self]
        rfl
      · cases h
    · rw [hsame.issuers]
    · intro k record' hr
      rw [Record.get?_set] at hr
      split_ifs at hr with heq
      · cases hr
        exact hid.trans heq
      · exact hk.revoked k record' hr

theorem markNullifierUsed_follows (env : RegistryApi.Env) (r : Registry) (input : Members) :
    Follows P r (markNullifierUsed P env r input).1 (.markNullifierUsed input)
      (.nullifier (markNullifierUsed P env r input).2) := by
  have hrevokes : ∀ k, ¬ Revokes P (.markNullifierUsed input)
      (.nullifier (markNullifierUsed P env r input).2) k := by
    rintro k (⟨input', result, h, -⟩ | ⟨input', result, h, -⟩) <;> cases h
  have hregisters : ∀ k status, ¬ Registers P (.markNullifierUsed input)
      (.nullifier (markNullifierUsed P env r input).2) k status := by
    rintro k status ⟨input', result, h, -⟩
    cases h
  rcases markNullifierUsed_cases (P := P) env r input with
    ⟨hsame, hstatus⟩ | ⟨hnone, record, hscope, hhash, hsame⟩
  · refine .of_same hsame ?_ (fun k hk => (hrevokes k hk).elim) hregisters
    rintro scope hash ⟨input', result, h, ha, hrecorded, -⟩
    cases ha
    exact hstatus hrecorded
  · refine ⟨fun k record' hk => ?_, ?_, fun k hk => ?_, fun k hk => (hrevokes k hk).elim,
      fun k status h => (hregisters k status h).elim, fun k _ => ?_,
      fun hk => hsame.keyed ⟨hk.revoked, hk.issuers⟩⟩
    · rw [hsame.nullifiers, Record.get?_set_of_ne, hk]
      rintro rfl
      rw [hnone] at hk
      cases hk
    · rintro scope hash ⟨input', result, h, -, -, rfl, rfl⟩
      cases h
      exact ⟨hnone, record, by rw [hsame.nullifiers, Record.get?_set_self], hscope, hhash⟩
    · rw [hsame.revoked]
      exact hk
    · rw [hsame.issuers]

theorem answer_follows (env : RegistryApi.Env) (r : Registry) :
    ∀ request : Request, Follows P r (answer P env r request).1 request (answer P env r request).2
  | .registerIssuer input => registerIssuer_follows env r input
  | .revokeCommitment input => revokeCommitment_follows env r input
  | .markNullifierUsed input => markNullifierUsed_follows env r input
  | .anchorFreshnessRoot input => by
    refine .of_same (anchorFreshnessRoot_sameMaps r input) ?_ ?_ ?_
    · rintro scope hash ⟨input', result, h, -⟩
      cases h
    · rintro k (⟨input', result, h, -⟩ | ⟨input', result, h, -⟩) <;> cases h
    · rintro k status ⟨input', result, h, -⟩
      cases h
  | .verify input => by
    refine .of_same (verify_sameMaps r input) ?_ ?_ ?_
    · rintro scope hash ⟨input', result, h, -⟩
      cases h
    · rintro k (⟨input', result, h, -⟩ | ⟨input', result, h, ha, hk⟩)
      · cases h
      · cases ha
        exact verify_revoked hk
    · rintro k status ⟨input', result, h, -⟩
      cases h
  | .capabilities | .snapshot | .auditEvents _ => by
    refine .of_same ⟨rfl, rfl, rfl⟩ ?_ ?_ ?_
    · rintro scope hash ⟨input', result, h, -⟩
      cases h
    · rintro k (⟨input', result, h, -⟩ | ⟨input', result, h, -⟩) <;> cases h
    · rintro k status ⟨input', result, h, -⟩
      cases h

/-- The registry after some texts. -/
def lastRegistry (base : Registry) : List Text → Registry
  | [] => base
  | text :: texts => lastRegistry text.registry texts

/-- Each text follows from the one before it. -/
def Grows (P : Platform) : Registry → List Text → Prop
  | _, [] => True
  | r, text :: texts =>
    Follows P r text.registry text.request text.answer ∧ Grows P text.registry texts

theorem lastRegistry_append (base : Registry) (text : Text) :
    ∀ texts : List Text, lastRegistry base (texts ++ [text]) = text.registry
  | [] => rfl
  | first :: texts => lastRegistry_append first.registry text texts

theorem Grows.append {text : Text} : ∀ {r : Registry} {texts : List Text}, Grows P r texts →
    Follows P (lastRegistry r texts) text.registry text.request text.answer →
      Grows P r (texts ++ [text])
  | _, [], _, h => ⟨h, trivial⟩
  | _, _ :: _, hg, h => ⟨hg.1, hg.2.append h⟩

/-- Whatever nullifier or revocation is in the first registry is in the second. -/
structure Within (r r' : Registry) : Prop where
  nullifiers : ∀ k record, r.nullifiers.get? k = some record → r'.nullifiers.get? k = some record
  revoked : ∀ k, (r.revoked.get? k).isSome → (r'.revoked.get? k).isSome

theorem Within.refl (r : Registry) : Within r r := ⟨fun _ _ h => h, fun _ h => h⟩

theorem Within.trans {r r' r'' : Registry} (h : Within r r') (h' : Within r' r'') :
    Within r r'' :=
  ⟨fun k record hk => h'.nullifiers k record (h.nullifiers k record hk),
    fun k hk => h'.revoked k (h.revoked k hk)⟩

theorem Follows.within {r r' : Registry} {request : Request} {a : Answer}
    (h : Follows P r r' request a) : Within r r' := ⟨h.nullifiers, h.revoked⟩

theorem Grows.within {r : Registry} {texts : List Text} (h : Grows P r texts) {n : ℕ}
    {text : Text} (hn : texts[n]? = some text) : Within r text.registry := by
  induction texts generalizing r n with
  | nil => cases hn
  | cons first texts ih =>
    rcases n with _ | n
    · rw [List.getElem?_cons_zero, Option.some.injEq] at hn
      exact hn ▸ h.1.within
    · exact h.1.within.trans (ih h.2 hn)

theorem Grows.drop {r : Registry} {texts : List Text} (h : Grows P r texts) {n : ℕ} {text : Text}
    (hn : texts[n]? = some text) :
    (∃ before, Follows P before text.registry text.request text.answer)
      ∧ Grows P text.registry (texts.drop (n + 1))
      ∧ lastRegistry text.registry (texts.drop (n + 1)) = lastRegistry r texts := by
  induction texts generalizing r n with
  | nil => cases hn
  | cons first texts ih =>
    rcases n with _ | n
    · rw [List.getElem?_cons_zero, Option.some.injEq] at hn
      subst hn
      exact ⟨⟨r, h.1⟩, h.2, rfl⟩
    · exact ih h.2 hn

theorem Grows.within_last {r : Registry} {texts : List Text} (h : Grows P r texts) :
    Within r (lastRegistry r texts) := by
  induction texts generalizing r with
  | nil => exact .refl r
  | cons first texts ih => exact h.1.within.trans (ih h.2)

/-- A later text is after an earlier one. -/
theorem Grows.within_of_le {r : Registry} {texts : List Text} (h : Grows P r texts) {m n : ℕ}
    {text text' : Text} (hm : texts[m]? = some text) (hn : texts[n]? = some text') (hle : m ≤ n) :
    Within text.registry text'.registry := by
  rcases Nat.eq_or_lt_of_le hle with rfl | hlt
  · rw [hm, Option.some.injEq] at hn
    exact hn ▸ .refl _
  · obtain ⟨-, hdrop, -⟩ := h.drop hm
    refine hdrop.within (n := n - (m + 1)) ?_
    rw [List.getElem?_drop, Nat.add_sub_cancel' hlt, hn]

theorem Grows.text_within_last {r : Registry} {texts : List Text} (h : Grows P r texts) {n : ℕ}
    {text : Text} (hn : texts[n]? = some text) :
    Within text.registry (lastRegistry r texts) := by
  obtain ⟨-, hdrop, hlast⟩ := h.drop hn
  exact hlast ▸ hdrop.within_last

theorem Grows.keyed {r : Registry} {texts : List Text} (h : Grows P r texts) (hk : Keyed r) :
    Keyed (lastRegistry r texts) ∧ ∀ text ∈ texts, Keyed text.registry := by
  induction texts generalizing r with
  | nil => exact ⟨hk, by simp⟩
  | cons first texts ih =>
    obtain ⟨hlast, hall⟩ := ih h.2 (h.1.keyed hk)
    refine ⟨hlast, fun text htext => ?_⟩
    rcases List.mem_cons.1 htext with rfl | htext
    · exact h.1.keyed hk
    · exact hall text htext

/-- An issuer that no text registers stays as it is. -/
theorem Grows.issuer {issuerId : JsString} {r : Registry} {texts : List Text}
    (h : Grows P r texts)
    (hnone : ∀ text ∈ texts, ∀ status,
      ¬ Registers P text.request text.answer issuerId status) :
    (lastRegistry r texts).issuers.get? issuerId = r.issuers.get? issuerId := by
  induction texts generalizing r with
  | nil => rfl
  | cons first texts ih =>
    have hlater := ih h.2 fun text htext => hnone text (List.mem_cons_of_mem _ htext)
    exact hlater.trans (h.1.issuers issuerId (hnone first List.mem_cons_self))

theorem Grows.latest {issuerId : JsString} {status : IssuerStatus} {text : Text}
    {r : Registry} {before after : List Text} (h : Grows P r (before ++ text :: after))
    (hr : Registers P text.request text.answer issuerId status)
    (hnone : ∀ later ∈ after, ∀ status',
      ¬ Registers P later.request later.answer issuerId status') :
    ∃ record, (lastRegistry r (before ++ text :: after)).issuers.get? issuerId = some record
      ∧ record.status = status := by
  induction before generalizing r with
  | nil =>
    obtain ⟨record, hrecord, hstatus⟩ := h.1.registers issuerId status hr
    exact ⟨record, (h.2.issuer hnone).trans hrecord, hstatus⟩
  | cons first before ih => exact ih h.2

/-- Where some text registers the issuer, one of them is the last. -/
theorem exists_latest {issuerId : JsString} {texts : List Text}
    (h : ∃ text ∈ texts, ∃ status, Registers P text.request text.answer issuerId status) :
    ∃ before text after status, texts = before ++ text :: after
      ∧ Registers P text.request text.answer issuerId status
      ∧ ∀ later ∈ after, ∀ status', ¬ Registers P later.request later.answer issuerId status' := by
  induction texts with
  | nil =>
    obtain ⟨text, htext, -⟩ := h
    cases htext
  | cons first texts ih =>
    by_cases hlater : ∃ text ∈ texts, ∃ status,
        Registers P text.request text.answer issuerId status
    · obtain ⟨before, last, after, status, heq, hr, hnone⟩ := ih hlater
      exact ⟨first :: before, last, after, status, by rw [heq]; rfl, hr, hnone⟩
    · obtain ⟨other, hother, status, hr⟩ := h
      rcases List.mem_cons.1 hother with heq | hother
      · refine ⟨[], first, texts, status, rfl, heq ▸ hr, fun later hmem status' h' => ?_⟩
        exact hlater ⟨later, hmem, status', h'⟩
      · exact (hlater ⟨other, hother, status, hr⟩).elim

/-! ## The file -/

theorem field_ofMembers (name key : String) (v : Option JsonValue)
    (members : List (String × Option JsonValue)) :
    field name (ofMembers ((key, v) :: members))
      = if js key = js name then v.or (field name (ofMembers members))
        else field name (ofMembers members) := by
  rcases v with _ | v
  · split_ifs <;> rfl
  · simp only [ofMembers, field, List.filterMap_cons, Option.map_some, JsonValue.member]
    split_ifs <;> rfl

theorem json_inFile {store : Store} {n : ℕ} {text : Text} (hfile : store.file = .text n)
    (htext : store.texts[n]? = some text) {list : String} (items : List JsonValue)
    (hitems : field list text.registry.json = some (.array items)) {item : JsonValue}
    (hitem : item ∈ items) {members : List (String × JsString)}
    (hmembers : ∀ m ∈ members, field m.1 item = some (.string m.2)) :
    InFile store list members := by
  have hsnapshot : snapshotFromStoredJson text.json = text.registry.json := by
    have hfield : field "snapshot" text.json = some text.registry.json := by
      unfold Text.json
      rw [field_ofMembers, if_neg (by decide), field_ofMembers, if_neg (by decide),
        field_ofMembers, if_neg (by decide), field_ofMembers, if_neg (by decide),
        field_ofMembers, if_neg (by decide), field_ofMembers, if_neg (by decide),
        field_ofMembers, if_pos rfl, Option.some_or]
    unfold snapshotFromStoredJson
    rw [hfield]
    rfl
  refine ⟨text.json, ?_, item, ?_, hmembers⟩
  · rw [Store.fileText, hfile]
    simp only [htext, Option.map_some]
  · rw [hsnapshot, hitems]
    exact hitem

theorem nullifier_inFile {store : Store} {n : ℕ} {text : Text} (hfile : store.file = .text n)
    (htext : store.texts[n]? = some text) {k : JsString} {record : NullifierRecord}
    (hk : text.registry.nullifiers.get? k = some record) :
    InFile store "usedNullifiers"
      [("nullifierHash", record.nullifierHash), ("scope", record.scope)] := by
  refine json_inFile hfile htext (text.registry.nullifiers.values.map NullifierRecord.json) ?_
    (List.mem_map_of_mem (Record.mem_values.2 ⟨k, hk⟩)) fun m hm => ?_
  · unfold Registry.json
    rw [field_ofMembers, if_neg (by decide), field_ofMembers, if_neg (by decide), field_ofMembers,
      if_neg (by decide), field_ofMembers, if_pos rfl, Option.some_or]
  · unfold NullifierRecord.json
    rcases List.mem_cons.1 hm with rfl | hm
    · rw [field_ofMembers, if_pos rfl, ofText, Option.some_or]
    · obtain rfl := List.mem_singleton.1 hm
      dsimp only
      rw [field_ofMembers, if_neg (by decide), field_ofMembers, if_pos rfl, ofText, Option.some_or]

theorem revocation_inFile {store : Store} {n : ℕ} {text : Text} (hfile : store.file = .text n)
    (htext : store.texts[n]? = some text) {k : JsString} {record : RevocationRecord}
    (hk : text.registry.revoked.get? k = some record) :
    InFile store "revokedCommitments" [("commitment", record.commitment)] := by
  refine json_inFile hfile htext (text.registry.revoked.values.map RevocationRecord.json) ?_
    (List.mem_map_of_mem (Record.mem_values.2 ⟨k, hk⟩)) fun m hm => ?_
  · unfold Registry.json
    rw [field_ofMembers, if_neg (by decide), field_ofMembers, if_pos rfl, Option.some_or]
  · unfold RevocationRecord.json
    rw [List.mem_singleton.1 hm, field_ofMembers, if_pos rfl, ofText, Option.some_or]

theorem issuer_inFile {store : Store} {n : ℕ} {text : Text} (hfile : store.file = .text n)
    (htext : store.texts[n]? = some text) {k : JsString} {record : IssuerRecord}
    (hk : text.registry.issuers.get? k = some record) :
    InFile store "issuers" [("issuerId", record.issuerId), ("status", record.status.text)] := by
  refine json_inFile hfile htext (text.registry.issuers.values.map IssuerRecord.json) ?_
    (List.mem_map_of_mem (Record.mem_values.2 ⟨k, hk⟩)) fun m hm => ?_
  · unfold Registry.json
    rw [field_ofMembers, if_pos rfl, Option.some_or]
  · unfold IssuerRecord.json
    rcases List.mem_cons.1 hm with rfl | hm
    · rw [field_ofMembers, if_pos rfl, ofText, Option.some_or]
    · obtain rfl := List.mem_singleton.1 hm
      dsimp only
      rw [field_ofMembers, if_neg (by decide), field_ofMembers, if_pos rfl, ofText, Option.some_or]

/-! ## One step -/

/-- The text that a call has made. -/
def Phase.text : Phase → Option ℕ
  | .makingDir n _ | .writing _ n _ | .moving _ n _ | .notFound n => some n
  | .returned n _ => n
  | .called | .reading | .read _ | .loaded | .failed _ => none

/-- The text that a call has made, with its answer. -/
def Phase.made : Phase → Option (ℕ × Answer)
  | .makingDir n a | .writing _ n a | .moving _ n a | .returned (some n) a => some (n, a)
  | .called | .reading | .read _ | .loaded | .returned none _ | .notFound _ | .failed _ => none

def Phase.isFailed : Phase → Bool
  | .failed _ => true
  | _ => false

/-- The steps of a call, each with what it finds. -/
inductive Effect (P : Platform) (store : Store) (call : Call) : Store → Call → Prop
  | fail (error : JsString) : Effect P store call store (call.to (.failed error))
  | await (phase : call.phase = .called) : Effect P store call store (call.to .reading)
  | pass (phase : call.phase = .called) (loaded : store.loaded) :
      Effect P store call store (call.to .loaded)
  | read (phase : call.phase = .reading) :
      Effect P store call store (call.to (.read store.fileText))
  | assign {env : RegistryApi.Env} {text : Option FileText} {registry : Registry}
      (phase : call.phase = .read text) (parsed : readRegistry P env text = some registry) :
      Effect P store call
        { store with loaded := true, memory := registry, loads := store.loads + 1 }
        (call.to .loaded)
  | look {a : Answer} (phase : call.phase = .loaded) (readsOnly : call.request.readsOnly) :
      Effect P store call store (call.to (.returned none a))
  | mutate {registry : Registry} {persistedAt : JsString} {a : Answer}
      (phase : call.phase = .loaded) (follows : Follows P store.memory registry call.request a) :
      Effect P store call
        { store with
          memory := registry, texts := store.texts ++ [⟨registry, persistedAt, call.request, a⟩] }
        (call.to (.makingDir store.texts.length a))
  | makeDir {n : ℕ} {a : Answer} (path : ℤ) (phase : call.phase = .makingDir n a) :
      Effect P store call store (call.to (.writing path n a))
  | write {path : ℤ} {n : ℕ} {a : Answer} (phase : call.phase = .writing path n a) :
      Effect P store call { store with temps := store.temps.set path n }
        (call.to (.moving path n a))
  | rename {path : ℤ} {n k : ℕ} {a : Answer} (phase : call.phase = .moving path n a)
      (temp : store.temps.get? path = some k) :
      Effect P store call { store with file := .text k, temps := store.temps.erase path }
        (call.to (.returned (some n) a))
  | lose {path : ℤ} {n : ℕ} {a : Answer} (phase : call.phase = .moving path n a)
      (temp : store.temps.get? path = none) : Effect P store call store (call.to (.notFound n))

theorem advance_effect {env : Env} {store store' : Store} {call call' : Call}
    (h : advance P env store call = some (store', call')) : Effect P store call store' call' := by
  unfold advance at h
  split at h
  · rename_i hphase
    cases h
    unfold load
    split_ifs with hloaded
    · exact .pass hphase hloaded
    · exact .await hphase
  · rename_i hphase
    cases h
    unfold readFile
    split_ifs
    · exact .fail _
    · exact .read hphase
  · rename_i text hphase
    unfold assignRegistry at h
    split at h
    · cases h
      exact .fail _
    · rename_i registry hparsed
      cases h
      exact .assign hphase hparsed
  · rename_i hphase
    unfold HostedRegistry.mutate at h
    simp only at h
    split_ifs at h with hreads
    · cases h
      exact .look hphase hreads
    · cases h
      exact .mutate hphase (answer_follows env.toEnv store.memory call.request)
  · rename_i n a hphase
    cases h
    unfold HostedRegistry.makeDir
    split_ifs
    · exact .fail _
    · exact .makeDir _ hphase
  · rename_i path n a hphase
    unfold writeFile at h
    split_ifs at h
    · cases h
      exact .fail _
    · cases h
      exact .write hphase
  · rename_i path n a hphase
    unfold HostedRegistry.rename at h
    split_ifs at h
    · cases h
      exact .fail _
    · split at h
      · rename_i htemp
        cases h
        exact .lose hphase htemp
      · rename_i k htemp
        cases h
        exact .rename hphase htemp
  · cases h
  · cases h
  · cases h

/-- Under its temporary name or in the file there is this text or a later one. -/
def Renamable (store : Store) (path : ℤ) (n : ℕ) : Prop :=
  (∃ k, store.temps.get? path = some k ∧ n ≤ k) ∨ n < store.file.age

/-- The first text follows from the file that was given. -/
structure Sound (P : Platform) (store : Store) : Prop where
  chain : ∃ base, Keyed base ∧ Grows P base store.texts
    ∧ store.memory = lastRegistry base store.texts
    ∧ (store.loaded → ∃ env, readRegistry P env store.given = some base)
  unloaded : store.loaded = false → store.texts = []
  file : ∀ n, store.file = .text n → n < store.texts.length
  temps : ∀ path n, store.temps.get? path = some n → n < store.texts.length

structure Own (P : Platform) (store : Store) (call : Call) : Prop where
  loaded : call.phase = .loaded → store.loaded = true
  read : store.texts = [] → ∀ text, call.phase = .read text → text = store.given
  made : ∀ n a, call.phase.made = some (n, a) →
    ∃ text, store.texts[n]? = some text ∧ text.request = call.request ∧ text.answer = a
  text : ∀ n, call.phase.text = some n → n < store.texts.length
  looked : ∀ a, call.phase = .returned none a → call.request.readsOnly
  moving : ∀ path n a, call.phase = .moving path n a → Renamable store path n
  filed : ∀ n, call.phase.text = some n → call.hasEnded → n < store.file.age

/-- No nullifier is recorded by both. -/
def Apart (P : Platform) (call other : Call) : Prop :=
  ∀ n a n' a' scope hash, call.phase.made = some (n, a) → other.phase.made = some (n', a') →
    Records P call.request a scope hash → ¬ Records P other.request a' scope hash

/-- Later texts, and a file that is not older. -/
structure Later (store store' : Store) : Prop where
  texts : store.texts <+: store'.texts
  file : store.file.age ≤ store'.file.age
  loaded : store.loaded = true → store'.loaded = true
  given : store'.given = store.given

section Step

variable {store store' : Store} {call call' other : Call}

theorem Effect.request (h : Effect P store call store' call') : call'.request = call.request := by
  cases h <;> rfl

theorem Effect.later (h : Effect P store call store' call') (hkeeps : InOrder store store') :
    Later store store' := by
  refine ⟨?_, hkeeps.file, fun hloaded => ?_, ?_⟩
  · cases h with
    | mutate => exact List.prefix_append _ _
    | _ => exact List.prefix_rfl
  · cases h with
    | assign => rfl
    | _ => exact hloaded
  · cases h <;> rfl

theorem Later.text (h : Later store store') {n : ℕ} {text : Text}
    (hn : store.texts[n]? = some text) : store'.texts[n]? = some text := by
  obtain ⟨hlt, -⟩ := List.getElem?_eq_some_iff.1 hn
  obtain ⟨more, hmore⟩ := h.texts
  rw [← hmore, List.getElem?_append_left hlt, hn]

theorem Later.nil (h : Later store store') (hnil : store'.texts = []) : store.texts = [] := by
  have hprefix := h.texts
  rw [hnil] at hprefix
  exact List.prefix_nil.1 hprefix

theorem Effect.renamable (h : Effect P store call store' call') (hkeeps : InOrder store store')
    {path : ℤ} {n : ℕ} (hr : Renamable store path n) : Renamable store' path n := by
  rcases hr with ⟨k, hk, hnk⟩ | hage
  · cases h with
    | @write path' text a phase =>
      left
      have htemps := hkeeps.temps _ (Record.mem_entries.2 hk)
      simp only [Record.get?_set] at htemps ⊢
      split_ifs at htemps ⊢ with hpath
      · exact ⟨text, rfl, hnk.trans (htemps text rfl)⟩
      · exact ⟨k, hk, hnk⟩
    | @rename path' text n' a phase temp =>
      by_cases hpath : path' = path
      · subst hpath
        rw [temp, Option.some.injEq] at hk
        subst hk
        exact .inr (Nat.lt_succ_of_le hnk)
      · exact .inl ⟨k, by rw [Record.get?_erase, if_neg hpath, hk], hnk⟩
    | _ => exact .inl ⟨k, hk, hnk⟩
  · exact .inr (hage.trans_le hkeeps.file)

/-- What a call knows stays true when another one steps. -/
theorem Own.mono (h : Own P store other) (he : Effect P store call store' call')
    (hkeeps : InOrder store store') : Own P store' other := by
  have hl := he.later hkeeps
  refine ⟨fun hp => hl.loaded (h.loaded hp), fun hnil text hp => ?_, fun n a hm => ?_,
    fun n hn => (h.text n hn).trans_le hl.texts.length_le, h.looked,
    fun path n a hp => he.renamable hkeeps (h.moving path n a hp),
    fun n hn hend => (h.filed n hn hend).trans_le hl.file⟩
  · rw [h.read (hl.nil hnil) text hp, hl.given]
  · obtain ⟨text, htext, hrequest⟩ := h.made n a hm
    exact ⟨text, hl.text htext, hrequest⟩

theorem Sound.fileText_of_nil (hi : Sound P store) (hnil : store.texts = []) :
    store.fileText = store.given := by
  unfold Store.fileText
  rcases hfile : store.file with _ | n
  · rfl
  · have := hi.file n hfile
    rw [hnil] at this
    cases this

/-- A phase before the snapshot, or one that has failed, says nothing of a text. -/
theorem own_of_text_none (call : Call) {phase : Phase} (htext : phase.text = none)
    (hmade : phase.made = none)
    (hloaded : phase = .loaded → store.loaded = true)
    (hread : store.texts = [] → ∀ text, phase = .read text → text = store.given)
    (hlooked : ∀ a, phase = .returned none a → call.request.readsOnly) :
    Own P store (call.to phase) := by
  refine ⟨hloaded, hread, fun n a hm => ?_, fun n hn => ?_, hlooked, fun path n a hp => ?_,
    fun n hn => ?_⟩
  · rw [Call.to, hmade] at hm
    cases hm
  · rw [Call.to, htext] at hn
    cases hn
  · simp only [Call.to] at hp
    rw [hp] at htext
    cases htext
  · rw [Call.to, htext] at hn
    cases hn

theorem Own.step (hi : Sound P store) (h : Own P store call)
    (he : Effect P store call store' call') (hkeeps : InOrder store store') :
    Own P store' call' := by
  have hm := h.mono he hkeeps
  cases he with
  | fail => exact own_of_text_none call rfl rfl (by simp) (by simp) (by simp)
  | await => exact own_of_text_none call rfl rfl (by simp) (by simp) (by simp)
  | pass phase loaded => exact own_of_text_none call rfl rfl (fun _ => loaded) (by simp) (by simp)
  | read phase =>
    refine own_of_text_none call rfl rfl (by simp) (fun hnil text hp => ?_) (by simp)
    cases hp
    exact hi.fileText_of_nil hnil
  | assign => exact own_of_text_none call rfl rfl (fun _ => rfl) (by simp) (by simp)
  | look phase readsOnly =>
    exact own_of_text_none call rfl rfl (by simp) (by simp) fun _ _ => readsOnly
  | @mutate registry persistedAt a phase follows =>
    refine ⟨(by simp [Call.to]), (by simp [Call.to]), fun n a' hmade => ?_, fun n hn => ?_,
      (by simp [Call.to]), (by simp [Call.to]), (by simp [Call.to, Call.hasEnded])⟩
    · cases hmade
      exact ⟨⟨registry, persistedAt, call.request, a⟩, by simp, rfl, rfl⟩
    · cases hn
      simp
  | @makeDir n a path phase =>
    refine ⟨(by simp [Call.to]), (by simp [Call.to]), fun n' a' hmade => hm.made n' a' ?_,
      fun n' hn => hm.text n' ?_, (by simp [Call.to]), (by simp [Call.to]),
      (by simp [Call.to, Call.hasEnded])⟩
    · rw [phase]
      exact hmade
    · rw [phase]
      exact hn
  | @write path n a phase =>
    refine ⟨(by simp [Call.to]), (by simp [Call.to]), fun n' a' hmade => hm.made n' a' ?_,
      fun n' hn => hm.text n' ?_, (by simp [Call.to]), fun path' n' a' hp => ?_,
      (by simp [Call.to, Call.hasEnded])⟩
    · rw [phase]
      exact hmade
    · rw [phase]
      exact hn
    · cases hp
      exact .inl ⟨n, Record.get?_set_self _ _ _, le_rfl⟩
  | @rename path n k a phase temp =>
    refine ⟨(by simp [Call.to]), (by simp [Call.to]), fun n' a' hmade => hm.made n' a' ?_,
      fun n' hn => hm.text n' ?_, (by simp [Call.to]), (by simp [Call.to]), fun n' hn _ => ?_⟩
    · rw [phase]
      exact hmade
    · rw [phase]
      exact hn
    · cases hn
      rcases h.moving path n a phase with ⟨k', hk, hle⟩ | hage
      · rw [temp, Option.some.injEq] at hk
        subst hk
        exact Nat.lt_succ_of_le hle
      · exact hage.trans_le hkeeps.file
  | @lose path n a phase temp =>
    refine ⟨(by simp [Call.to]), (by simp [Call.to]), fun n' a' hmade => ?_,
      fun n' hn => hm.text n' ?_, (by simp [Call.to]), (by simp [Call.to]), fun n' hn _ => ?_⟩
    · cases hmade
    · rw [phase]
      exact hn
    · cases hn
      rcases h.moving path n a phase with ⟨k', hk, -⟩ | hage
      · rw [temp] at hk
        cases hk
      · exact hage

theorem Sound.step (hi : Sound P store) (h : Own P store call)
    (he : Effect P store call store' call') (hkeeps : InOrder store store') : Sound P store' := by
  have hl := he.later hkeeps
  refine ⟨?_, fun hunloaded => ?_, fun n hn => ?_, fun path n hn => ?_⟩
  · cases he with
    | @assign env text registry phase parsed =>
      have hnil : store.texts = [] := by
        rcases hkeeps.memory with hnil | hloads
        · exact hnil
        · simp at hloads
      have hgiven := h.read hnil text phase
      subst hgiven
      refine ⟨registry, ?_, ?_, ?_, fun _ => ⟨env, parsed⟩⟩
      · unfold readRegistry at parsed
        split at parsed
        · cases parsed
          exact keyed_empty
        · cases parsed
        · cases parsed
          exact keyed_replaceSnapshot _
      · dsimp only
        rw [hnil]
        trivial
      · dsimp only
        rw [hnil]
        rfl
    | mutate phase follows =>
      obtain ⟨base, hkeyed, hgrows, hmemory, hread⟩ := hi.chain
      refine ⟨base, hkeyed, hgrows.append (hmemory ▸ follows), ?_, hread⟩
      dsimp only
      rw [lastRegistry_append]
    | _ => exact hi.chain
  · cases he with
    | assign => cases hunloaded
    | mutate phase =>
      have hloaded := h.loaded phase
      rw [hloaded] at hunloaded
      cases hunloaded
    | _ => exact hi.unloaded hunloaded
  · cases he with
    | rename phase temp =>
      cases hn
      exact hi.temps _ n temp
    | _ => exact (hi.file n hn).trans_le hl.texts.length_le
  · cases he with
    | @write path' n' a phase =>
      rw [Record.get?_set] at hn
      split_ifs at hn
      · cases hn
        exact h.text n (by rw [phase]; rfl)
      · exact hi.temps path n hn
    | rename phase temp =>
      rw [Record.get?_erase] at hn
      split_ifs at hn
      exact hi.temps path n hn
    | _ => exact (hi.temps path n hn).trans_le hl.texts.length_le

/-- What a call has recorded is in memory. -/
theorem Own.recorded (hi : Sound P store) (h : Own P store call) {n : ℕ} {a : Answer}
    (hmade : call.phase.made = some (n, a)) {scope hash : JsString}
    (hr : Records P call.request a scope hash) :
    ∃ text, store.texts[n]? = some text ∧ ∃ record,
      text.registry.nullifiers.get? (nullifierKey scope hash) = some record
        ∧ store.memory.nullifiers.get? (nullifierKey scope hash) = some record
        ∧ record.scope = scope ∧ record.nullifierHash = hash := by
  obtain ⟨base, -, hgrows, hmemory, -⟩ := hi.chain
  obtain ⟨text, htext, hrequest, hanswer⟩ := h.made n a hmade
  obtain ⟨⟨before, hfollows⟩, -⟩ := hgrows.drop htext
  rw [hrequest, hanswer] at hfollows
  obtain ⟨-, record, hrecord, hscope, hhash⟩ := hfollows.records scope hash hr
  refine ⟨text, htext, record, hrecord, ?_, hscope, hhash⟩
  rw [hmemory]
  exact (hgrows.text_within_last htext).nullifiers _ _ hrecord

theorem Apart.step (hi : Sound P store) (ho : Own P store other) (h : Apart P call other)
    (he : Effect P store call store' call') : Apart P call' other := by
  intro n a n' a' scope hash hmade hmade' hr hr'
  rw [he.request] at hr
  cases he with
  | fail | await | pass | read | assign | look | lose => cases hmade
  | mutate phase follows =>
    cases hmade
    obtain ⟨-, -, record, -, hrecord, -⟩ := ho.recorded hi hmade' hr'
    obtain ⟨hnone, -⟩ := follows.records scope hash hr
    rw [hnone] at hrecord
    cases hrecord
  | makeDir path phase | write phase | rename phase temp =>
    exact h n a n' a' scope hash (by rw [phase]; exact hmade) hmade' hr hr'

end Step

/-! ## Every run -/

theorem own_start (store : Store) (request : Request) : Own P store (start request) :=
  own_of_text_none (start request) rfl rfl (by simp) (by simp) (by simp)

theorem apart_start (request : Request) (other : Call) : Apart P (start request) other := by
  intro n a n' a' scope hash hmade
  cases hmade

def keepsRule (P : Platform) : Tasks.Rule (system P) inOrder where
  inv := Sound P
  own := Own P
  apart := Apart P
  symm h n a n' a' scope hash hmade hmade' hr hr' := h n' a' n a scope hash hmade' hmade hr' hr
  start _ _ := own_start _ _
  start_apart _ _ _ _ := apart_start _ _
  advance hi h hnext hkeeps :=
    have he := advance_effect hnext
    ⟨hi.step h he hkeeps, h.step hi he hkeeps⟩
  frame hi _ ho hapart hnext hkeeps _ :=
    have he := advance_effect hnext
    ⟨ho.mono he hkeeps, hapart.step hi ho he⟩

theorem sound_init (given : Option FileText) : Sound P (.init given) where
  chain := ⟨.empty, keyed_empty, trivial, rfl, nofun⟩
  unloaded _ := rfl
  file _ h := by cases h
  temps _ _ h := by cases h

/-- Each text is the one of a call, or of a call that has failed. -/
theorem text_made {c : Tasks.Condition Store Call Request} {given : Option FileText}
    {w : Tasks.World Store Call} (h : Tasks.Run (system P) c (.init given) w) :
    ∀ n, n < w.store.texts.length →
      ∃ call ∈ w.tasks, call.phase.text = some n ∨ call.phase.isFailed := by
  refine Tasks.Run.made (fun store n => n < store.texts.length)
    (fun call n => call.phase.text = some n ∨ call.phase.isFailed)
    (fun n hn => Nat.not_lt_zero n hn) (fun {e s t s' t'} hnext n hn => ?_)
    (fun {e s t s' t'} hnext n hn => ?_) h
  · have he : Effect P s t s' t' := advance_effect hnext
    rcases hn with hn | hn
    · cases he with
      | fail => exact .inr rfl
      | await phase | pass phase | read phase | assign phase | look phase | mutate phase =>
        rw [phase] at hn
        cases hn
      | makeDir path phase | write phase | rename phase temp | lose phase temp =>
        rw [phase] at hn
        exact .inl hn
    · cases he with
      | fail => exact .inr rfl
      | await phase | pass phase | read phase | assign phase | look phase | mutate phase
      | makeDir path phase | write phase | rename phase temp | lose phase temp =>
        rw [phase] at hn
        cases hn
  · have he : Effect P s t s' t' := advance_effect hnext
    cases he with
    | mutate phase =>
      rw [List.length_append, List.length_singleton] at hn
      rcases Nat.lt_or_eq_of_le (Nat.le_of_lt_succ hn) with hlt | rfl
      · exact .inl hlt
      · exact .inr (.inl rfl)
    | _ => exact .inl hn

section Ended

variable {given : Option FileText} {w : Tasks.World Store Call}

/-- A text that a call has brought to the file is not after the one that is there. -/
theorem Sound.file_text (hi : Sound P w.store) {n : ℕ} (hage : n < w.store.file.age) :
    ∃ k text, w.store.file = .text k ∧ w.store.texts[k]? = some text ∧ n ≤ k := by
  rcases hfile : w.store.file with _ | k
  · rw [hfile] at hage
    cases hage
  · rw [hfile] at hage
    have hk := hi.file k hfile
    exact ⟨k, w.store.texts[k], rfl, List.getElem?_eq_getElem hk, Nat.le_of_lt_succ hage⟩

/-- Once all calls have ended, the file holds the registry in memory. -/
theorem file_of_ended (h : Tasks.Run (system P) inOrder (.init given) w)
    (hended : ∀ call ∈ w.tasks, call.hasEnded) (hne : w.store.texts ≠ []) :
    ∃ k text, w.store.file = .text k ∧ w.store.texts[k]? = some text
      ∧ text.registry = w.store.memory := by
  have hw := (keepsRule P).holds (sound_init given) h
  have hi : Sound P w.store := hw.inv
  have hpos : 0 < w.store.texts.length := List.length_pos_of_ne_nil hne
  obtain ⟨call, hcall, htext | hfailed⟩ := text_made h (w.store.texts.length - 1) (by omega)
  · have ho : Own P w.store call := hw.own call hcall
    obtain ⟨k, text, hfile, hk, hle⟩ := hi.file_text (ho.filed _ htext (hended call hcall))
    refine ⟨k, text, hfile, hk, ?_⟩
    obtain ⟨base, -, hgrows, hmemory, -⟩ := hi.chain
    obtain ⟨-, -, hlast⟩ := hgrows.drop hk
    rw [hmemory, ← hlast, List.drop_eq_nil_of_le (by omega)]
    rfl
  · have := hended call hcall
    unfold Phase.isFailed at hfailed
    split at hfailed
    · rename_i hphase
      rw [Call.hasEnded, hphase] at this
      cases this
    · cases hfailed

theorem Sound.nullifierKept (hi : Sound P w.store) {call : Call} (ho : Own P w.store call)
    {n : ℕ} {a : Answer} (hphase : call.phase = .returned (some n) a) {scope hash : JsString}
    (hr : Records P call.request a scope hash) : NullifierKept w.store scope hash := by
  obtain ⟨text, htext, record, hrecord, hmemory, rfl, rfl⟩ :=
    ho.recorded hi (by rw [hphase]; rfl) hr
  refine ⟨⟨record, Record.mem_values.2 ⟨_, hmemory⟩, rfl, rfl⟩, ?_⟩
  have hage := ho.filed n (by rw [hphase]; rfl) (by rw [Call.hasEnded, hphase])
  obtain ⟨k, text', hfile, hk, hle⟩ := hi.file_text hage
  obtain ⟨base, -, hgrows, -⟩ := hi.chain
  exact nullifier_inFile hfile hk
    ((hgrows.within_of_le htext hk hle).nullifiers _ _ hrecord)

theorem Sound.commitmentKept (hi : Sound P w.store) {call : Call} (ho : Own P w.store call)
    {n : ℕ} {a : Answer} (hphase : call.phase = .returned (some n) a) {commitment : JsString}
    (hr : Revokes P call.request a commitment) : CommitmentKept w.store commitment := by
  obtain ⟨base, hkeyed, hgrows, hmemory, -⟩ := hi.chain
  obtain ⟨hlast, hall⟩ := hgrows.keyed hkeyed
  obtain ⟨text, htext, hrequest, hanswer⟩ := ho.made n a (by rw [hphase]; rfl)
  obtain ⟨⟨before, hfollows⟩, -⟩ := hgrows.drop htext
  rw [hrequest, hanswer] at hfollows
  have hrevoked := hfollows.revokes commitment hr
  constructor
  · obtain ⟨record, hrecord⟩ := Option.isSome_iff_exists.1
      ((hgrows.text_within_last htext).revoked commitment hrevoked)
    rw [hmemory]
    exact ⟨record, Record.mem_values.2 ⟨_, hrecord⟩, hlast.revoked _ _ hrecord⟩
  · have hage := ho.filed n (by rw [hphase]; rfl) (by rw [Call.hasEnded, hphase])
    obtain ⟨k, text', hfile, hk, hle⟩ := hi.file_text hage
    obtain ⟨record, hrecord⟩ := Option.isSome_iff_exists.1
      ((hgrows.within_of_le htext hk hle).revoked commitment hrevoked)
    have hkey := (hall text' (List.mem_of_getElem? hk)).revoked _ _ hrecord
    exact hkey ▸ revocation_inFile hfile hk hrecord

/-- An issuer of the registry in memory, once the file holds that registry. -/
theorem Sound.statusKept (hi : Sound P w.store)
    (hfile : ∃ k text, w.store.file = .text k ∧ w.store.texts[k]? = some text
      ∧ text.registry = w.store.memory) {issuerId : JsString} {record : IssuerRecord}
    (hrecord : w.store.memory.issuers.get? issuerId = some record) :
    StatusKept w.store issuerId record.status := by
  obtain ⟨base, hkeyed, hgrows, hmemory, -⟩ := hi.chain
  have hkey : record.issuerId = issuerId := by
    rw [hmemory] at hrecord
    exact (hgrows.keyed hkeyed).1.issuers _ _ hrecord
  obtain ⟨k, text, hfile, hk, hregistry⟩ := hfile
  refine ⟨⟨record, Record.mem_values.2 ⟨_, hrecord⟩, hkey, rfl⟩, ?_⟩
  rw [← hregistry] at hrecord
  exact hkey ▸ issuer_inFile hfile hk hrecord

theorem get?_recordsBy_map {α β : Type} (key : α → JsString) (g : α → β) (l : List α)
    (k : JsString) : ((recordsBy key l).get? k).map g
      = (((l.map fun a => (key a, g a)).filter (·.1 = k)).getLast?).map Prod.snd := by
  unfold recordsBy
  rw [Record.get?_foldl_set_last, Record.get?_empty, Option.or_none, List.filter_map,
    List.getLast?_map, Option.map_map]
  rfl

/-- The status of a stored issuer does not depend on when the file is read. -/
theorem readRegistry_status {env env' : RegistryApi.Env} {text : Option FileText}
    {registry registry' : Registry} (h : readRegistry P env text = some registry)
    (h' : readRegistry P env' text = some registry') {issuerId : JsString} {record : IssuerRecord}
    (hrecord : registry.issuers.get? issuerId = some record) :
    ∃ record', registry'.issuers.get? issuerId = some record' ∧ record'.status = record.status := by
  have hmap : (registry'.issuers.get? issuerId).map IssuerRecord.status
      = (registry.issuers.get? issuerId).map IssuerRecord.status := by
    unfold readRegistry at h h'
    split at h
    · rw [Option.some.inj h] at h'
      rw [Option.some.inj h']
    · cases h
    · rw [← Option.some.inj h, ← Option.some.inj h']
      unfold replaceSnapshot
      simp only
      rw [get?_recordsBy_map, get?_recordsBy_map, List.map_filterMap, List.map_filterMap]
      congr 4
      funext item
      unfold readIssuer
      rw [Option.map_map, Option.map_map]
      rfl
  rw [hrecord] at hmap
  exact Option.map_eq_some_iff.1 hmap

theorem keeps_of_inOrder (given : Option FileText) {w : Tasks.World Store Call}
    (h : Tasks.Run (system P) inOrder (.init given) w) : Keeps P w := by
  have hw := (keepsRule P).holds (sound_init given) h
  have hi : Sound P w.store := hw.inv
  have hown : ∀ call ∈ w.tasks, Own P w.store call := hw.own
  -- an answer that records, revokes or registers is not one of a call that only reads
  have hsome : ∀ call ∈ w.tasks, ∀ n a, call.phase = .returned n a →
      call.request.readsOnly = false → ∃ m, n = some m := by
    intro call hcall n a hphase hreads
    rcases n with _ | m
    · rw [(hown call hcall).looked a hphase] at hreads
      cases hreads
    · exact ⟨m, rfl⟩
  refine ⟨?_, ?_, ?_, ?_, ?_⟩
  · intro i j call hcall other hother n a n' a' scope hash hphase hr hphase' hr'
    by_contra hij
    have hreads : call.request.readsOnly = false := by
      obtain ⟨input, result, hrequest, -⟩ := hr
      rw [hrequest]
      rfl
    have hreads' : other.request.readsOnly = false := by
      obtain ⟨input, result, hrequest, -⟩ := hr'
      rw [hrequest]
      rfl
    obtain ⟨m, rfl⟩ := hsome call (List.mem_of_getElem? hcall) n a hphase hreads
    obtain ⟨m', rfl⟩ := hsome other (List.mem_of_getElem? hother) n' a' hphase' hreads'
    have hapart : Apart P call other := (keepsRule P).apart_get hw.apart hcall hother hij
    exact hapart m a m' a' scope hash (by rw [hphase]; rfl) (by rw [hphase']; rfl) hr hr'
  · intro call hcall n a scope hash hphase hr
    have hreads : call.request.readsOnly = false := by
      obtain ⟨input, result, hrequest, -⟩ := hr
      rw [hrequest]
      rfl
    obtain ⟨m, rfl⟩ := hsome call hcall n a hphase hreads
    exact hi.nullifierKept (hown call hcall) hphase hr
  · intro call hcall n a commitment hphase hr
    have hreads : call.request.readsOnly = false := by
      rcases hr with ⟨input, result, hrequest, -⟩ | ⟨input, result, hrequest, -⟩ <;>
      · rw [hrequest]
        rfl
    obtain ⟨m, rfl⟩ := hsome call hcall n a hphase hreads
    exact hi.commitmentKept (hown call hcall) hphase hr
  · intro hended call hcall n a issuerId status hphase hr
    have hreads : call.request.readsOnly = false := by
      obtain ⟨input, result, hrequest, -⟩ := hr
      rw [hrequest]
      rfl
    obtain ⟨m, rfl⟩ := hsome call hcall n a hphase hreads
    obtain ⟨text, htext, hrequest, hanswer⟩ := (hown call hcall).made m a (by rw [hphase]; rfl)
    obtain ⟨before, last, after, latest, htexts, hlast, hnone⟩ := exists_latest
      ⟨text, List.mem_of_getElem? htext, status, by rw [hrequest, hanswer]; exact hr⟩
    refine ⟨latest, ⟨before, last, after, htexts, hlast, hnone⟩, ?_⟩
    obtain ⟨base, -, hgrows, hmemory, -⟩ := hi.chain
    rw [htexts] at hgrows hmemory
    obtain ⟨record, hrecord, rfl⟩ := hgrows.latest hlast hnone
    rw [← hmemory] at hrecord
    refine hi.statusKept (file_of_ended h hended ?_) hrecord
    rw [htexts]
    simp
  · intro hended hne env registry issuerId record hread hrecord hnone
    obtain ⟨base, -, hgrows, hmemory, hbase⟩ := hi.chain
    have hloaded : w.store.loaded = true := by
      by_contra hunloaded
      exact hne (hi.unloaded (by simpa using hunloaded))
    obtain ⟨env', hread'⟩ := hbase hloaded
    obtain ⟨record', hrecord', hstatus⟩ := readRegistry_status hread hread' hrecord
    rw [← hgrows.issuer hnone, ← hmemory] at hrecord'
    exact hstatus ▸ hi.statusKept (file_of_ended h hended hne) hrecord'

end Ended

/-! ## Two calls -/

def tablePlatform : Platform where
  nfkc := ⟨id, id_ascii⟩
  toLowerCase s := s.map lowerAscii
  toUpperCase := PosRegistry.tablePlatform.toUpperCase
  dates := PosRegistry.tableDates
  base36 z := (Agid.base36 z.toNat).map lowerAscii
  unitInterval
    | .int z => .int (max 0 (min 1 z))
    | n => n

def envAt (ms : ℤ) : Env := ⟨⟨1750000000000 + ms, fun _ => js "k3v9qx"⟩, false⟩

def mark : Request := .markNullifierUsed [(js "nullifierHash", .string (js "0x5e7A"))]

def suspend : Request :=
  .registerIssuer [(js "issuerId", .string (js "post")), (js "status", .string (js "suspended"))]

/-- The nullifier that a call has been told is recorded. -/
def recorded (call : Call) : Option (JsString × JsString) :=
  match call.request, call.phase with
  | .markNullifierUsed input, .returned _ (.nullifier result) =>
    if result.status = .recorded then
      some (requestedScope tablePlatform input, requestedNullifier tablePlatform input)
    else none
  | _, _ => none

theorem records_of_recorded {w : Tasks.World Store Call} {i : ℕ} {scope hash : JsString}
    (h : (w.tasks.map recorded)[i]? = some (some (scope, hash))) :
    ∃ call ∈ w.tasks[i]?, ∃ n a, call.phase = .returned n a
      ∧ Records tablePlatform call.request a scope hash := by
  rw [List.getElem?_map] at h
  obtain ⟨call, hcall, h⟩ := Option.map_eq_some_iff.1 h
  unfold recorded at h
  split at h
  · rename_i input n result hrequest hphase
    split_ifs at h with hstatus
    cases h
    exact ⟨call, hcall, n, _, hphase, input, result, hrequest, rfl, hstatus, rfl, rfl⟩
  · cases h

theorem twoCalls_run {c : Tasks.Condition Store Call Request} (r r' : Request)
    (haccepts : ∀ r, c.accepts r) (hmeet : ∀ t u, c.meet t u) :
    Tasks.Run (system tablePlatform) c (.init none) ⟨.init none, [start r, start r']⟩ :=
  .tail (.single (.start (haccepts _) fun _ _ => hmeet _ _))
    (.start (haccepts _) fun _ _ => hmeet _ _)

/-- Whether the calls have ended, what they have recorded, and which text the file holds. -/
structure Report where
  ended : List Bool
  recorded : List (Option (JsString × JsString))
  file : Contents
deriving DecidableEq

def report (w : Tasks.World Store Call) : Report :=
  ⟨w.tasks.map Call.hasEnded, w.tasks.map recorded, w.store.file⟩

instance : DecidableRel InOrder := fun store store' =>
  decidable_of_iff ((store.texts.isEmpty ∨ store'.loads = store.loads)
      ∧ store.file.age ≤ store'.file.age
      ∧ ∀ e ∈ store.temps.entries, ∀ n ∈ store'.temps.get? e.1, e.2 ≤ n)
    ⟨fun h => ⟨h.1.imp_left List.isEmpty_iff.1, h.2.1, h.2.2⟩,
      fun h => ⟨h.memory.imp_left List.isEmpty_iff.2, h.file, h.temps⟩⟩

/-- The second call comes to its load when the first has assigned the registry, and writes and
renames its text after it. -/
theorem keeps_of_inOrder_twice : ∃ w, Keeps tablePlatform w
    ∧ report w = ⟨[true, true], [some (js "default", js "0x5e7a"), none], .text 1⟩ := by
  let : DecidablePred inOrder.accepts := fun _ => .isTrue trivial
  let : DecidableRel inOrder.keeps := inferInstanceAs (DecidableRel InOrder)
  let : DecidableRel inOrder.meet := fun _ _ => .isTrue trivial
  obtain ⟨w, hw, hreports⟩ := (twoCalls_run (c := inOrder) mark suspend
    (fun _ => trivial) fun _ _ => trivial).play
    report (a := ⟨[true, true], [some (js "default", js "0x5e7a"), none], .text 1⟩)
    (List.replicate 3 (.advance 0 (envAt 0)) ++ [.advance 1 (envAt 0)]
      ++ [.advance 0 (envAt 0), .advance 1 (envAt 1), .advance 0 (envAt 0), .advance 1 (envAt 1),
        .advance 0 (envAt 0), .advance 1 (envAt 1), .advance 0 (envAt 0), .advance 1 (envAt 1)])
    (by decide)
  exact ⟨w, keeps_of_inOrder none hw, hreports⟩

/-- Both calls find no registry and read the file; the second assigns a new one when the first has
marked its nullifier. -/
theorem overlapping_loads_not_keeps :
    ¬ ∀ w, Tasks.Run (system tablePlatform) Tasks.Condition.free (.init none) w →
      Keeps tablePlatform w := by
  intro h
  obtain ⟨w, hw, hreports⟩ := (twoCalls_run (c := .free) mark mark
    (fun _ => trivial) fun _ _ => trivial).play
    (fun w => w.tasks.map recorded)
    (a := [some (js "default", js "0x5e7a"), some (js "default", js "0x5e7a")])
    ([.advance 0 (envAt 0), .advance 1 (envAt 0), .advance 0 (envAt 0), .advance 1 (envAt 0)]
      ++ List.replicate 2 (.advance 0 (envAt 0)) ++ List.replicate 2 (.advance 1 (envAt 1))
      ++ List.replicate 3 (.advance 0 (envAt 0)) ++ List.replicate 3 (.advance 1 (envAt 1)))
    (by decide)
  obtain ⟨call, hcall, n, a, hphase, hr⟩ := records_of_recorded (i := 0) (by rw [hreports]; rfl)
  obtain ⟨other, hother, n', a', hphase', hr'⟩ :=
    records_of_recorded (i := 1) (by rw [hreports]; rfl)
  have hsame := (h w hw).single 0 1 call hcall other hother n a n' a' _ _ hphase hr hphase' hr'
  omega

end Agid.HostedRegistry
