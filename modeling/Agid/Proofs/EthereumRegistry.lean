import Agid.EthereumRegistry
import Agid.Proofs.Contracts
import Agid.Proofs.SecurePos

/-!
# The registry-only mode and the contract

The store and the contract are each a set of keys, so that a call is new to one of them where its
key is.  The keys of the contract tell all names apart whose texts have other bytes; those of the
store do so as far as the text that is hashed does.
-/

namespace Agid.EthereumRegistry

open Checks Encoding Contracts

/-! ## Bytes of texts -/

theorem chars_cons {c : CodeUnit} (hc : isHighSurrogate c = false) : ∀ s : JsString,
    chars (c :: s) = [c] :: chars s
  | [] => rfl
  | d :: s => by rw [chars, hc, Bool.false_and, if_neg Bool.false_ne_true]

theorem chars_append_cons {c : CodeUnit} (hhigh : isHighSurrogate c = false)
    (hlow : isLowSurrogate c = false) (t : JsString) : ∀ s : JsString,
    chars (s ++ c :: t) = chars s ++ [c] :: chars t
  | [] => chars_cons hhigh t
  | [d] => by
    simp only [List.singleton_append, chars, hlow, Bool.and_false, Bool.false_eq_true, if_false,
      chars_cons hhigh]
  | d :: e :: s => by
    rw [List.cons_append, List.cons_append, chars, chars]
    split_ifs
    · rw [chars_append_cons hhigh hlow t s, List.cons_append]
    · rw [← List.cons_append, chars_append_cons hhigh hlow t (e :: s), List.cons_append]

theorem textEncode_colon (s t : JsString) :
    textEncode (s ++ 58 :: t) = joined 58 (textEncode s, textEncode t) := by
  rw [textEncode, codePoints, chars_append_cons (by decide) (by decide), List.map_append,
    List.map_cons, List.flatMap_append, List.flatMap_cons]
  rfl

theorem textEncode_ne_nil : ∀ {s : JsString}, s ≠ [] → textEncode s ≠ []
  | [], h => absurd rfl h
  | c :: s, _ => by
    have hchars : chars (c :: s) ≠ [] := by
      rcases s with _ | ⟨d, s⟩
      · exact List.cons_ne_nil _ _
      · rw [chars]
        split_ifs <;> exact List.cons_ne_nil _ _
    obtain ⟨d, l, hd⟩ := List.exists_cons_of_ne_nil hchars
    rw [textEncode, codePoints, hd, List.map_cons, List.flatMap_cons]
    refine List.append_ne_nil_of_left_ne_nil (fun h => ?_) _
    have := congrArg List.length h
    rw [String.length_utf8EncodeChar] at this
    exact absurd this (Char.utf8Size_pos _).ne'

theorem textEncode_registryText (p : JsString × JsString) :
    textEncode (registryText p.1 p.2)
      = textEncode (ETHEREUM_REGISTRY_ONLY_MODE_VERSION ++ js ":nullifier")
        ++ 58 :: joined 58 (utf8 p) := by
  have hcolon : js ":" = [58] := by decide
  rw [registryText, hcolon, List.append_assoc, List.append_assoc, List.append_assoc,
    List.singleton_append, List.singleton_append, textEncode_colon, textEncode_colon]
  rfl

theorem textEncode_registryText_eq_iff {p q : JsString × JsString} :
    textEncode (registryText p.1 p.2) = textEncode (registryText q.1 q.2) ↔ p = q ∨ Clash p q := by
  rw [textEncode_registryText, textEncode_registryText, List.append_cancel_left_eq,
    List.cons.injEq, eq_self, true_and, joined_eq_iff]
  by_cases hpq : p = q
  · simp [hpq]
  · simp [hpq, Clash]

/-! ## A call -/

section Call

variable {P : Platform}

/-- The key of names in the store. -/
def storeKey (P : Platform) (p : JsString × JsString) : JsString :=
  sha256Hex P (registryText p.1 p.2)

def argumentsOf (P : Platform) (p : JsString × JsString) : PublicArguments where
  nullifierHash := p.2
  scope := p.1
  registryKeyHash := storeKey P p

theorem names_eq_some {call : Call} {p : JsString × JsString} (h : names P call = some p) :
    requirePublicOnly P call.1 = [] ∧ normalizeText P call.1.scope = some p.1
      ∧ normalizeHashLike P call.1.nullifierHash = some p.2 := by
  unfold names at h
  split_ifs at h with hpublic
  obtain ⟨scope, hscope, h⟩ := Option.bind_eq_some_iff.1 h
  obtain ⟨nullifierHash, hnullifierHash, h⟩ := Option.bind_eq_some_iff.1 h
  cases h
  exact ⟨not_not.1 hpublic, hscope, hnullifierHash⟩

/-- A call that is not rejected says whether its key is there, and leaves it there. -/
theorem mark_of_names {store : Store} {call : Call} {p : JsString × JsString}
    (h : names P call = some p) :
    (markNullifierUsed P store call.1 call.2).1.status
        = (if (store.get? (storeKey P p)).isSome then .duplicate else .recorded)
      ∧ (∃ plan, (markNullifierUsed P store call.1 call.2).1.txPlan = some plan
        ∧ plan.publicArguments = argumentsOf P p)
      ∧ ∀ key, ((markNullifierUsed P store call.1 call.2).2.get? key).isSome
        ↔ (store.get? key).isSome ∨ key = storeKey P p := by
  obtain ⟨hpublic, hscope, hnullifierHash⟩ := names_eq_some h
  unfold markNullifierUsed
  simp only [hpublic, ne_eq, not_true_eq_false, if_false, hscope, hnullifierHash]
  rcases hexisting : store.get? (sha256Hex P (registryText p.1 p.2)) with _ | existing
  · refine ⟨by rw [storeKey, hexisting]; rfl, ⟨_, rfl, rfl⟩, fun key => ?_⟩
    rw [Record.get?_set, storeKey]
    split_ifs with hkey
    · simp [hkey]
    · simp [Ne.symm hkey]
  · refine ⟨by rw [storeKey, hexisting]; rfl, ⟨_, rfl, rfl⟩, fun key => ?_⟩
    constructor
    · exact .inl
    · rintro (hkey | rfl)
      · exact hkey
      · rw [storeKey, hexisting]
        rfl

variable {chain : Chain}

/-- The key of names on the contract. -/
def chainKey (P : Platform) (chain : Chain) (p : JsString × JsString) : Bytes32 :=
  nullifierKey chain.evm (chain.nullifierWord p.2) (textEncode p.1)
    (chain.registryKeyWord (storeKey P p))

/-- The sender may write to the contract, and nothing stops it. -/
structure Writable (chain : Chain) (registry : NullifierRegistry) : Prop where
  paused : registry.access.paused = false
  role : registry.access.hasRole (NULLIFIER_WRITER_ROLE chain.evm) chain.sender = true

theorem submit_eq {registry : NullifierRegistry} {p : JsString × JsString}
    (hwritable : Writable chain registry) (hnullifier : chain.nullifierWord p.2 ≠ 0)
    (hscope : p.1 ≠ []) (hkey : chain.registryKeyWord (storeKey P p) ≠ 0) :
    chain.submit registry (argumentsOf P p)
      = if registry.usedNullifiers (chainKey P chain p) then
          .error (.reason "nullifier-already-used")
        else .ok { registry with
          usedNullifiers :=
            Function.update registry.usedNullifiers (chainKey P chain p) true } := by
  have hlength : 0 < (textEncode p.1).length :=
    List.length_pos_iff.2 (textEncode_ne_nil hscope)
  rcases hused : registry.usedNullifiers (chainKey P chain p)
  all_goals
    rw [chainKey] at hused
    simp only [Chain.submit, argumentsOf, Contracts.markNullifierUsed, Access.whenNotPaused,
      hwritable.paused, Access.onlyRole, hwritable.role, requireThat, hnullifier, hlength, hkey,
      hused, chainKey, Bool.false_eq_true, if_false, if_true, ne_eq, not_false_eq_true, decide_true,
      Bool.not_false, Bool.not_true, bind, Except.bind]

end Call

/-! ## A run -/

/-- What the run rests on: no call is rejected, the sender may write, nothing is used, and the hashes
and words of the run keep its texts apart. -/
structure Sound (P : Platform) (chain : Chain) (registry : NullifierRegistry) (calls : List Call) :
    Prop where
  accepted : ∀ call ∈ calls, (names P call).isSome
  writable : Writable chain registry
  unused : ∀ key, registry.usedNullifiers key = false
  nullifier_ne : ∀ p ∈ calls.filterMap (names P), chain.nullifierWord p.2 ≠ 0
  key_ne : ∀ p ∈ calls.filterMap (names P), chain.registryKeyWord (storeKey P p) ≠ 0
  nullifier_inj : ∀ p ∈ calls.filterMap (names P), ∀ q ∈ calls.filterMap (names P),
    chain.nullifierWord p.2 = chain.nullifierWord q.2 → p.2 = q.2
  sha256 : ∀ p ∈ calls.filterMap (names P), ∀ q ∈ calls.filterMap (names P),
    storeKey P p = storeKey P q →
      textEncode (registryText p.1 p.2) = textEncode (registryText q.1 q.2)
  keccak : ∀ p ∈ calls.filterMap (names P), ∀ q ∈ calls.filterMap (names P),
    chainKey P chain p = chainKey P chain q →
      abiEncode (chain.registryKeyWord (storeKey P p)) (textEncode p.1)
          (chain.nullifierWord p.2)
        = abiEncode (chain.registryKeyWord (storeKey P q)) (textEncode q.1)
          (chain.nullifierWord q.2)

variable {P : Platform} {chain : Chain} {registry : NullifierRegistry} {calls : List Call}

theorem normalizeText_ne_nil {value : Option JsString} {text : JsString}
    (h : normalizeText P value = some text) : text ≠ [] := by
  unfold normalizeText nonEmpty at h
  split_ifs at h with hne
  cases h
  exact hne

/-- What both levels hold after calls that are not rejected. -/
structure Holds (P : Platform) (chain : Chain) (before : List Call)
    (levels : Store × NullifierRegistry) : Prop where
  store : ∀ key, (levels.1.get? key).isSome ↔ ∃ p ∈ before.filterMap (names P), key = storeKey P p
  writable : Writable chain levels.2
  used : ∀ key, levels.2.usedNullifiers key = true
    ↔ ∃ p ∈ before.filterMap (names P), key = chainKey P chain p

theorem Sound.names_of_mem (h : Sound P chain registry calls) {call : Call} (hcall : call ∈ calls) :
    ∃ p, names P call = some p ∧ p ∈ calls.filterMap (names P) ∧ p.1 ≠ [] := by
  obtain ⟨p, hp⟩ := Option.isSome_iff_exists.1 (h.accepted call hcall)
  exact ⟨p, hp, List.mem_filterMap.2 ⟨call, hcall, hp⟩, normalizeText_ne_nil (names_eq_some hp).2.1⟩

theorem Sound.holds_call (h : Sound P chain registry calls) {before : List Call} {call : Call}
    (hcall : call ∈ calls) {levels : Store × NullifierRegistry}
    (hlevels : Holds P chain before levels) :
    Holds P chain (before ++ [call]) (callBoth P chain levels call) := by
  obtain ⟨p, hp, hmem, hscope⟩ := h.names_of_mem hcall
  obtain ⟨-, ⟨plan, hplan, harguments⟩, hkeys⟩ := @mark_of_names P levels.1 call p hp
  have hboth : callBoth P chain levels call
      = ((markNullifierUsed P levels.1 call.1 call.2).2,
        (chain.submit levels.2 (argumentsOf P p)).toOption.getD levels.2) := by
    rw [callBoth]
    simp only [hplan, harguments]
  have hfilter : (before ++ [call]).filterMap (names P) = before.filterMap (names P) ++ [p] := by
    rw [List.filterMap_append, List.filterMap_cons_some hp, List.filterMap_nil]
  rw [hboth, submit_eq hlevels.writable (h.nullifier_ne p hmem) hscope (h.key_ne p hmem)]
  constructor
  · intro key
    rw [hkeys, hlevels.store, hfilter]
    simp only [List.mem_append, List.mem_singleton, or_and_right, exists_or, exists_eq_left]
  · split_ifs
    · exact hlevels.writable
    · exact ⟨hlevels.writable.paused, hlevels.writable.role⟩
  · intro key
    rw [hfilter]
    simp only [List.mem_append, List.mem_singleton, or_and_right, exists_or, exists_eq_left,
      ← hlevels.used]
    split_ifs with hused
    · constructor
      · exact .inl
      · rintro (hkey | rfl)
        · exact hkey
        · exact hused
    · simp only [Except.toOption, Option.getD_some, Function.update_apply]
      split_ifs with hkey
      · simp [hkey]
      · simp [hkey]

theorem Sound.holds (h : Sound P chain registry calls) : ∀ {before after : List Call},
    calls = before ++ after → Holds P chain before (runBoth P chain (.empty, registry) before) := by
  intro before
  induction before using List.reverseRecOn with
  | nil =>
    intro after _
    refine ⟨fun key => ?_, h.writable, fun key => ?_⟩
    · simp [runBoth]
    · simp [runBoth, h.unused]
  | append_singleton before call ih =>
    intro after hcalls
    rw [List.append_assoc] at hcalls
    rw [runBoth, List.foldl_append]
    exact h.holds_call (hcalls ▸ by simp) (ih hcalls)

/-- The names of a call are new on the contract exactly where their bytes are. -/
theorem Sound.chainKey_eq_iff (h : Sound P chain registry calls) {p q : JsString × JsString}
    (hp : p ∈ calls.filterMap (names P)) (hq : q ∈ calls.filterMap (names P)) :
    chainKey P chain p = chainKey P chain q ↔ textEncode p.1 = textEncode q.1 ∧ p.2 = q.2 := by
  constructor
  · intro hkey
    obtain ⟨-, hscope, hnullifier⟩ := abiEncode_inj (h.keccak p hp q hq hkey)
    exact ⟨hscope, h.nullifier_inj p hp q hq hnullifier⟩
  · rintro ⟨hscope, hnullifier⟩
    have htext : textEncode (registryText p.1 p.2) = textEncode (registryText q.1 q.2) := by
      rw [textEncode_registryText, textEncode_registryText, utf8, utf8, hscope, hnullifier]
    rw [chainKey, chainKey, storeKey, storeKey, sha256Hex, sha256Hex, htext, hscope, hnullifier]

theorem Sound.storeKey_eq_iff (h : Sound P chain registry calls) {p q : JsString × JsString}
    (hp : p ∈ calls.filterMap (names P)) (hq : q ∈ calls.filterMap (names P)) :
    storeKey P p = storeKey P q ↔ p = q ∨ Clash p q := by
  rw [← textEncode_registryText_eq_iff]
  exact ⟨h.sha256 p hp q hq, fun htext => by rw [storeKey, storeKey, sha256Hex, sha256Hex, htext]⟩

theorem mem_map_names {before : List Call} {p : JsString × JsString} :
    some p ∈ before.map (names P) ↔ p ∈ before.filterMap (names P) := by
  rw [List.mem_map, List.mem_filterMap]

theorem mem_of_before {before after : List Call} (hcalls : calls = before ++ after)
    {p : JsString × JsString} (hp : p ∈ before.filterMap (names P)) :
    p ∈ calls.filterMap (names P) := by
  rw [hcalls, List.filterMap_append]
  exact List.mem_append_left _ hp

/-- What the store says of a call: whether a call before it has the same names, or names that
clash. -/
theorem Sound.status_eq (h : Sound P chain registry calls) {before after : List Call} {call : Call}
    (hcalls : calls = before ++ call :: after) {p : JsString × JsString}
    (hp : names P call = some p) :
    (markNullifierUsed P (runBoth P chain (.empty, registry) before).1 call.1 call.2).1.status
        = .duplicate
      ↔ ∃ q ∈ before.filterMap (names P), p = q ∨ Clash p q := by
  have hpmem : p ∈ calls.filterMap (names P) :=
    List.mem_filterMap.2 ⟨call, hcalls ▸ by simp, hp⟩
  rw [(mark_of_names hp).1]
  have hstore := (h.holds hcalls).store (storeKey P p)
  constructor
  · intro hstatus
    split_ifs at hstatus with hkey
    obtain ⟨q, hq, hkey⟩ := hstore.1 hkey
    exact ⟨q, hq, (h.storeKey_eq_iff hpmem (mem_of_before hcalls hq)).1 hkey⟩
  · rintro ⟨q, hq, hclash⟩
    exact if_pos (hstore.2 ⟨q, hq, (h.storeKey_eq_iff hpmem (mem_of_before hcalls hq)).2 hclash⟩)

/-- Where the store is right about each call, no names of the calls so far clash. -/
theorem Sound.not_clash (h : Sound P chain registry calls)
    (hrefines : Refines P chain registry calls) : ∀ {before after : List Call},
    calls = before ++ after → ∀ p ∈ before.filterMap (names P), ∀ q ∈ before.filterMap (names P),
      ¬ Clash p q := by
  intro before
  induction before using List.reverseRecOn with
  | nil => exact fun _ p hp => by simp at hp
  | append_singleton before call ih =>
    intro after hcalls
    rw [List.append_assoc, List.singleton_append] at hcalls
    obtain ⟨p, hp, -⟩ := h.names_of_mem (show call ∈ calls from hcalls ▸ by simp)
    have hnew : ∀ q ∈ before.filterMap (names P), ¬ Clash p q := by
      intro q hq hclash
      have hstatus := (h.status_eq hcalls hp).2 ⟨q, hq, .inr hclash⟩
      have hanswered := hrefines.answered before call after hcalls
      rw [hstatus, hp] at hanswered
      split_ifs at hanswered with hmem
      exact ih hcalls p (mem_map_names.1 hmem) q hq hclash
    have hsymm {p q : JsString × JsString} (hclash : Clash p q) : Clash q p :=
      ⟨hclash.1.symm, hclash.2.elim (fun heq => .inl heq.symm)
        fun hshifted => .inr hshifted.symm⟩
    intro q hq r hr hclash
    rw [List.filterMap_append, List.filterMap_cons_some hp, List.filterMap_nil, List.mem_append,
      List.mem_singleton] at hq hr
    rcases hq with hq | rfl
    · rcases hr with hr | rfl
      · exact ih hcalls q hq r hr hclash
      · exact hnew q hq (hsymm hclash)
    · rcases hr with hr | rfl
      · exact hnew r hr hclash
      · exact hclash.1 rfl

theorem markNullifierUsed_refines_iff (h : Sound P chain registry calls) :
    Refines P chain registry calls
      ↔ ∀ p ∈ calls.filterMap (names P), ∀ q ∈ calls.filterMap (names P), ¬ Clash p q := by
  refine ⟨fun hrefines => h.not_clash hrefines (List.append_nil calls).symm, fun hclash => ?_⟩
  constructor
  · intro before call after hcalls
    obtain ⟨p, hp, hpmem, -⟩ := h.names_of_mem (show call ∈ calls from hcalls ▸ by simp)
    have hstatus := h.status_eq hcalls hp
    rw [hp]
    by_cases hmem : p ∈ before.filterMap (names P)
    · rw [if_pos (mem_map_names.2 hmem)]
      exact hstatus.2 ⟨p, hmem, .inl rfl⟩
    · rw [if_neg (mt mem_map_names.1 hmem)]
      rw [(mark_of_names hp).1] at hstatus ⊢
      split_ifs with hkey
      · obtain ⟨q, hq, rfl | hpq⟩ := hstatus.1 (if_pos hkey)
        · exact absurd hq hmem
        · exact absurd hpq (hclash p hpmem q (mem_of_before hcalls hq))
      · rfl
  · intro before call after hcalls
    obtain ⟨p, hp, hpmem, hscope⟩ := h.names_of_mem (show call ∈ calls from hcalls ▸ by simp)
    obtain ⟨-, ⟨plan, hplan, harguments⟩, -⟩ :=
      @mark_of_names P (runBoth P chain (.empty, registry) before).1 call p hp
    have hholds := h.holds hcalls
    refine ⟨plan, hplan, ?_⟩
    rw [harguments, submit_eq hholds.writable (h.nullifier_ne p hpmem) hscope (h.key_ne p hpmem),
      hp]
    have hused : (runBoth P chain (.empty, registry) before).2.usedNullifiers (chainKey P chain p)
        = true ↔ p ∈ before.filterMap (names P) := by
      rw [hholds.used]
      constructor
      · rintro ⟨q, hq, hkey⟩
        have hqmem := mem_of_before hcalls hq
        obtain ⟨htext, hnullifier⟩ := (h.chainKey_eq_iff hpmem hqmem).1 hkey
        by_contra hmem
        refine hclash p hpmem q hqmem ⟨fun heq => hmem (heq ▸ hq), .inl ?_⟩
        rw [utf8, utf8, htext, hnullifier]
      · exact fun hmem => ⟨p, hmem, rfl⟩
    by_cases hmem : p ∈ before.filterMap (names P)
    · rw [if_pos (hused.2 hmem), if_pos (mem_map_names.2 hmem)]
      rfl
    · rw [if_neg (mt hused.1 hmem), if_neg (mt mem_map_names.1 hmem)]
      rfl

/-! ## Two runs -/

/-- A platform on which nothing is hashed away. -/
def plainPlatform : Platform where
  nfkc := { normalize := id, ascii := id_ascii }
  toLowerCase := List.map lowerAscii
  toUpperCase := id
  dates := Dates.ofTable .empty nodup_noTexts long_noTexts
  sha256Hex bytes := bytes.map fun b => Fin.ofNat 65536 b.toNat

/-- A word for a text, one text after the other. -/
def wordOf (units : List ℕ) : Bytes32 :=
  BitVec.ofNat 256 (units.foldl (fun n u => n * 257 + u + 1) 0)

def plainChain : Chain where
  evm := { keccak256 := fun bytes => wordOf (bytes.map UInt8.toNat) }
  nullifierWord s := wordOf (s.map Fin.val)
  registryKeyWord s := wordOf (s.map Fin.val)
  sender := 1

def plainRegistry : NullifierRegistry where
  access := { hasRole := fun _ _ => true, paused := false }
  usedNullifiers _ := false

def plainCall (scope nullifierHash : String) : Call :=
  ({ networkId := none
     contractAddress := none
     observedTxHash := none
     now := none
     metadata := none
     nullifierHash := some (js nullifierHash)
     scope := some (js scope) }, 0)

/-- The calls are not rejected, with these names. -/
theorem sound_of_names {calls : List Call} {pairs : List (JsString × JsString)}
    (haccepted : calls.all fun call => (names plainPlatform call).isSome)
    (hpairs : calls.filterMap (names plainPlatform) = pairs)
    (hne : pairs.all fun p => plainChain.nullifierWord p.2 ≠ 0
      ∧ plainChain.registryKeyWord (storeKey plainPlatform p) ≠ 0)
    (hinj : pairs.all fun p => pairs.all fun q =>
      (plainChain.nullifierWord p.2 = plainChain.nullifierWord q.2 → p.2 = q.2)
        ∧ (storeKey plainPlatform p = storeKey plainPlatform q →
          textEncode (registryText p.1 p.2) = textEncode (registryText q.1 q.2))
        ∧ (chainKey plainPlatform plainChain p = chainKey plainPlatform plainChain q → p = q)) :
    Sound plainPlatform plainChain plainRegistry calls := by
  simp only [List.all_eq_true, decide_eq_true_eq] at haccepted hne hinj
  subst hpairs
  exact {
    accepted := haccepted
    writable := ⟨rfl, rfl⟩
    unused := fun _ => rfl
    nullifier_ne := fun p hp => (hne p hp).1
    key_ne := fun p hp => (hne p hp).2
    nullifier_inj := fun p hp q hq => (hinj p hp q hq).1
    sha256 := fun p hp q hq => (hinj p hp q hq).2.1
    keccak := fun p hp q hq hkey => by rw [(hinj p hp q hq).2.2 hkey] }

theorem markNullifierUsed_refines_iff_delivery :
    Refines plainPlatform plainChain plainRegistry
      [plainCall "delivery" "0xaa", plainCall "delivery" "0xab", plainCall "delivery" "0xAA"] := by
  have hpairs : [plainCall "delivery" "0xaa", plainCall "delivery" "0xab",
      plainCall "delivery" "0xAA"].filterMap (names plainPlatform)
      = [(js "delivery", js "0xaa"), (js "delivery", js "0xab"), (js "delivery", js "0xaa")] := by
    decide
  refine (markNullifierUsed_refines_iff (sound_of_names (by decide) hpairs
    (by decide +kernel) (by decide +kernel))).2 fun p hp q hq hclash => ?_
  have hjoined : joined 58 (utf8 p) = joined 58 (utf8 q) := joined_eq_iff.2 hclash.2
  rw [hpairs] at hp hq
  have : ∀ p ∈ [(js "delivery", js "0xaa"), (js "delivery", js "0xab"), (js "delivery", js "0xaa")],
      ∀ q ∈ [(js "delivery", js "0xaa"), (js "delivery", js "0xab"), (js "delivery", js "0xaa")],
      joined 58 (utf8 p) = joined 58 (utf8 q) → p = q := by decide
  exact hclash.1 (this p hp q hq hjoined)

/-- The hash `b:c` in the scope `a` is new on the contract, and has the key of `c` in `a:b`. -/
theorem markNullifierUsed_not_refines :
    names plainPlatform (plainCall "a:b" "c") = some (js "a:b", js "c")
      ∧ names plainPlatform (plainCall "a" "b:c") = some (js "a", js "b:c")
      ∧ (markNullifierUsed plainPlatform
          (runBoth plainPlatform plainChain (.empty, plainRegistry) [plainCall "a:b" "c"]).1
          (plainCall "a" "b:c").1 0).1.status = .duplicate
      ∧ verdict (plainChain.submit
          (runBoth plainPlatform plainChain (.empty, plainRegistry) [plainCall "a:b" "c"]).2
          (argumentsOf plainPlatform (js "a", js "b:c"))) = .recorded
      ∧ ¬ Refines plainPlatform plainChain plainRegistry
        [plainCall "a:b" "c", plainCall "a" "b:c"] := by
  have hstatus : (markNullifierUsed plainPlatform
      (runBoth plainPlatform plainChain (.empty, plainRegistry) [plainCall "a:b" "c"]).1
      (plainCall "a" "b:c").1 0).1.status = .duplicate := by decide
  refine ⟨by decide, by decide, hstatus, by decide +kernel, fun h => ?_⟩
  have := h.answered [plainCall "a:b" "c"] (plainCall "a" "b:c") [] rfl
  rw [show (plainCall "a" "b:c").2 = 0 from rfl, hstatus] at this
  revert this
  decide

end Agid.EthereumRegistry
