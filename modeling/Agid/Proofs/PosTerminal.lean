import Agid.Proofs.PosRegistry
import Agid.PosTerminal

/-!
# A terminal and its copy of the registry

A token that a terminal opens has passed the registry check on the copy.  The copy keeps every
token that was marked, and while each mark is stamped early enough its bound of freshness stays
below the server's.
-/

namespace Agid.AgidSecurePos

open AgidSecureShare

variable {terminal : Terminal}

/-! ## What an opened token has passed -/

theorem validatePlainPayload_jti {share : AgidSecureShare.Platform} {raw : RawPayload}
    {payload : Payload} (h : validatePlainPayload share raw = some payload) :
    matchesJti payload.jti := by
  unfold validatePlainPayload at h
  obtain ⟨agid, -, h⟩ := Option.bind_eq_some_iff.1 h
  obtain ⟨exp, -, h⟩ := Option.bind_eq_some_iff.1 h
  obtain ⟨iat, -, h⟩ := Option.bind_eq_some_iff.1 h
  obtain ⟨jti, hjti, h⟩ := Option.bind_eq_some_iff.1 h
  simp only [Option.ite_none_right_eq_some, Option.some.injEq] at h
  obtain ⟨-, rfl⟩ := h
  exact (Option.filter_eq_some_iff.1 hjti).2

theorem openToken_jti {share : AgidSecureShare.Platform} {token material keyId : JsString}
    {purpose : Option JsString} {now : JsNumber} {payload : Payload} {envelope : Envelope}
    (h : openAgidSecureToken share token material keyId purpose now = .opened payload envelope) :
    matchesJti payload.jti := by
  simp only [openAgidSecureToken] at h
  split_ifs at h
  split at h
  · cases h
  · split_ifs at h
    split at h
    · cases h
    · rename_i hpayload
      split_ifs at h
      cases h
      obtain ⟨raw, -, hvalid⟩ := Option.bind_eq_some_iff.1 hpayload
      exact validatePlainPayload_jti hvalid

/-- A token is opened after its own checks and the registry's. -/
theorem opened_valid {input : OpenInput} {registry : Option RegistrySnapshot} {now : JsNumber}
    {result : Opened}
    (h : openAgidSecureForPos terminal input registry now = .ok (.opened result)) :
    matchesJti result.payload.jti ∧ ∃ decision,
      verifyAgidSecurePosRegistry terminal.dates registry (some result.envelope.kid)
        (some result.payload.jti) (some (result.payload.exp : ℚ)) now = .ok decision
      ∧ decision.valid := by
  unfold openAgidSecureForPos at h
  simp only [pure, Except.pure] at h
  split_ifs at h
  · split at h
    · cases h
    · split at h
      · cases h
      · split_ifs at h
        · cases h
        · cases h
        · cases h
        all_goals
          split at h
          · cases h
          · rename_i hopen
            obtain ⟨decision, hd, h⟩ := bind_eq_ok.1 h
            split_ifs at h with hvalid
            · cases h
              exact ⟨openToken_jti hopen, decision, hd, hvalid⟩
            · cases h
  · cases h

theorem verify_valid {dates : Dates} {registry : RegistrySnapshot} {keyId jti : Option JsString}
    {exp : Option ℚ} {now : JsNumber} {decision : RegistryDecision}
    (h : verifyAgidSecurePosRegistry dates (some registry) keyId jti exp now = .ok decision) :
    decision.valid ↔ decision.errors = [] := by
  obtain ⟨checkedAt, -, h⟩ := bind_eq_ok.1 h
  cases h
  exact decide_eq_true_iff

theorem fresh_of_not_stale {dates : Dates} {registry : RegistrySnapshot} {now : JsNumber}
    (h : stale dates registry now = false) :
    ∃ t, readTimestamp dates registry.freshUntil = some t ∧ now.atLeast t = false := by
  unfold stale at h
  split at h
  · cases h
  · rename_i t ht
    simp only [Bool.or_eq_false_iff] at h
    exact ⟨t, ht, h.2⟩

theorem JsNumber.not_atLeast_mono {now : JsNumber} {t t' : ℤ} (htt' : t ≤ t')
    (h : now.atLeast t = false) : now.atLeast t' = false := by
  cases now with
  | finite q =>
    simp only [JsNumber.atLeast, decide_eq_false_iff_not, not_le] at h ⊢
    exact h.trans_le (by exact_mod_cast htt')
  | infinity => cases h
  | _ => rfl

/-! ## Marks -/

/-- What the copy still has to keep. -/
structure Copy (terminal : Terminal) (freshUntil : ℤ) (state : TerminalState) : Prop where
  fresh : ∀ t, readTimestamp terminal.dates state.registry.freshUntil = some t → t ≤ freshUntil
  marked : ∀ jti ∈ state.marked, matchesJti jti → jti ∈ state.registry.usedJtis

theorem addIso_ok {dates : Dates} {iso text : JsString} {ms : ℕ}
    (h : addIso dates iso ms = .ok text) :
    ∃ t, dates.parse iso = some t ∧ readTimestamp dates (some text) = some (t + ms) := by
  obtain ⟨t', ht', rfl⟩ := nowIso_ok h
  rcases hp : dates.parse iso with _ | t
  · rw [hp] at ht'
    cases ht'
  · rw [hp] at ht'
    have hbound := timeClip_bound ht'
    simp only [timeClip, Option.ite_none_right_eq_some, Option.some.injEq] at ht'
    have heq : t' = t + ms := by
      rw [← ht'.2]
      split_ifs
      · exact_mod_cast Int.floor_intCast (t + ms : ℤ)
      · exact_mod_cast Int.ceil_intCast (t + ms : ℤ)
    exact ⟨t, rfl, heq ▸ readTimestamp_toISOString hbound⟩

theorem mem_setFromIterable_of_jti {jti : JsString} {values : List JsString}
    (hj : matchesJti jti) (h : jti ∈ values) : jti ∈ setFromIterable values :=
  mem_setFromIterable.2 ⟨ne_nil_of_matchesJti hj, jti, h, trim_of_matchesJti hj⟩

theorem copy_step {freshUntil : ℤ} {state : TerminalState} {step : TerminalStep}
    (hs : StampedInTime terminal freshUntil step) (h : Copy terminal freshUntil state) :
    Copy terminal freshUntil (terminalStep terminal state step) := by
  cases step with
  | opens => exact h
  | marks jti usedAt clock =>
    rcases hm : markAgidSecurePosUsed terminal state.registry jti usedAt clock with _ | registry
    · simp only [terminalStep, hm]
      exact h
    · simp only [terminalStep, hm]
      obtain ⟨text, htext, hm⟩ := bind_eq_ok.1 hm
      cases hm
      obtain ⟨t, ht, hread⟩ := addIso_ok htext
      refine ⟨fun t' ht' => ?_, fun j hj hmatch => ?_⟩
      · simp only [hread, Option.some.injEq] at ht'
        exact ht' ▸ hs t ht
      · have hold : j ∈ state.registry.usedJtis → j ∈ setFromIterable state.registry.usedJtis :=
          mem_setFromIterable_of_jti hmatch
        have hlabel : j = jti → j = cleanLabel (some jti) := by
          rintro rfl
          exact (trim_of_matchesJti hmatch).symm
        simp only [List.mem_append, List.mem_singleton] at hj
        simp only
        split_ifs with hin
        · rcases hj with hj | hj
          · exact hold (h.marked j hj hmatch)
          · exact hlabel hj ▸ hin
        · rcases hj with hj | hj
          · exact List.mem_append_left _ (hold (h.marked j hj hmatch))
          · exact List.mem_append_right _ (List.mem_singleton.2 (hlabel hj))

theorem copy_run {freshUntil : ℤ} : ∀ {steps : List TerminalStep} {state : TerminalState},
    (∀ step ∈ steps, StampedInTime terminal freshUntil step) → Copy terminal freshUntil state →
      Copy terminal freshUntil (steps.foldl (terminalStep terminal) state)
  | [], _, _, h => h
  | step :: steps, _, hs, h => by
    rw [List.forall_mem_cons] at hs
    rw [List.foldl_cons]
    exact copy_run hs.2 (copy_step hs.1 h)

/-- What a copy keeps is what an opened token has been checked for. -/
theorem Copy.bounded {freshUntil : ℤ} {state : TerminalState}
    (h : Copy terminal freshUntil state) : Bounded terminal freshUntil state := by
  intro input now result hopen
  obtain ⟨hmatch, decision, hd, hvalid⟩ := opened_valid hopen
  obtain ⟨hstale, -, -, hused, -⟩ := (verify_eq_nil hd).1 ((verify_valid hd).1 hvalid)
  obtain ⟨t, ht, hnow⟩ := fresh_of_not_stale hstale
  refine ⟨JsNumber.not_atLeast_mono (h.fresh t ht) hnow, fun hm => hused ?_⟩
  have hlabel : cleanLabel (some result.payload.jti) = result.payload.jti :=
    trim_of_matchesJti hmatch
  rw [hlabel]
  exact ⟨ne_nil_of_matchesJti hmatch, mem_setFromIterable_of_jti hmatch (h.marked _ hm hmatch)⟩

theorem bounded_of_stampedInTime {registry : RegistrySnapshot} {freshUntil : ℤ}
    (hfresh : readTimestamp terminal.dates registry.freshUntil = some freshUntil)
    {steps : List TerminalStep} (hs : ∀ step ∈ steps, StampedInTime terminal freshUntil step) :
    Bounded terminal freshUntil (terminalRun terminal registry steps) := by
  refine (copy_run hs ⟨fun t ht => ?_, fun jti h => by cases h⟩).bounded
  rw [hfresh, Option.some.injEq] at ht
  exact ht.ge

/-! ## A token, and a mark at fourteen minutes past -/

def tokenBody : JsString :=
  ["FCH7C8HT64P24RBCCWH3", "M8J168TKCHT39MH2R8KB", "D5J24EH2E1QQ6BBB64H2", "R8KE48X24C1M64R3CC9G",
    "6MR54CT78WS3GG9H8CV3", "08HC49HJ4EH28SB38CTH", "8D6KAP9K75154NJH70V4", "8NJA856MWNSJ61130JSS",
    "9S84WP1QA59N6P9M6HCK", "8HT474T3EE1QA913JKHN", "89C4GH9R898KAJTA892M", "6PHNB1750JHN9D44CDJ3",
    "8H83GGJHAH3MTGJD84RK", "GNJ4ACWMTP27852N8CSR", "8X9K2KHHA0VM8M9R6S2M", "6DJM65A3JCAD8N1KAP2E",
    "AD3M2DJ58WSNMDSS9N5N", "0D2JACR32J25AS6K4DJH", "8RV4WCHRB8W42KA19MTM", "GJHPAD74E8HC49T24EH2",
    "8X5K4G9K9MTN8GT5910N", "MPJ375CK0M9G8913CMTA", "AWH7T"].flatMap js

def tokenEnvelope : Envelope where
  kid := js "pos-k1"
  n := js "041061050R3GG28A1C60"
  c := js ("FV43QCM5Y39BRVQ86DVJAMNW20B0K9NPNX7QSSY44Y4GD94787RB9N5BXHE8BQ5KJBECZ5XNPJ5KHF6CDP8BQTGMB"
    ++ "MA18VDS9MXGAET38GS1N1P7DQ86EC6T1T91MEC5XNSGA6EG3Z79MKP4RS01HEVM26QF6N28Z8AMAM5HJ6SNG")
  t := js "GK2A3M5TCEHAZZC9Y0Q0BB6SJW"

def tokenPayload : RawPayload where
  extraKeys := []
  agid := some (js "JP05AV8TJGH8")
  exp := some 1750003200
  purpose := some (js "pos")
  precision := none
  iat := some 1749999600
  jti := some (js "0C51260Z4RPK8ET29585EQK5DG")

/-- A terminal that has met one token. -/
def tableTerminal : Terminal where
  share := {
    toUpperCase := PosRegistry.tablePlatform.toUpperCase
    readEnvelope := fun text => if text = tokenBody then some tokenEnvelope else none
    decrypt := fun _ envelope => if envelope.n = tokenEnvelope.n then some tokenPayload else none }
  dates := PosRegistry.tableDates
  toLowerCase s := s.map fun c => if 65 ≤ c.val ∧ c.val ≤ 90 then c + 32 else c
  decodeComponent := id
  safeJson _ := none

def openToken : OpenInput where
  token := AGID_SECURE_PREFIX ++ tokenBody
  keyRing := [⟨js "pos-k1", js "000102030405060708090a0b0c0d0e0f101112131415161718191a1b1c1d1e1f",
    .active, js "2025-06-15T15:06:40.000Z", none, none, none, none, none⟩]
  channel := none
  expectedPurpose := none

/-- The server's copy at 15:06:40, fresh until 15:16:40. -/
def serverCopy : RegistrySnapshot where
  registryId := PosRegistry.POS_AGID_SECURE_REGISTRY_ID
  version := js "agid-secure-pos-flow-v1.0.f987ed219d3fb74f"
  checkedAt := some (js "2025-06-15T15:06:40.000Z")
  freshUntil := some (js "2025-06-15T15:16:40.000Z")
  revokedKeyIds := []
  revokedJtis := []
  usedJtis := []

def opensToken (registry : RegistrySnapshot) (now : JsNumber) : Bool :=
  match openAgidSecureForPos tableTerminal openToken (some registry) now with
  | .ok (.opened _) => true
  | _ => false

def markTokenA (usedAt : String) : TerminalStep := .marks PosRegistry.tokenA (some (js usedAt)) 0

/-- A mark at 15:06:40 leaves the copy as fresh as the server made it. -/
theorem bounded_of_stampedInTime_mark :
    Bounded tableTerminal 1750000600000
      (terminalRun tableTerminal serverCopy [markTokenA "2025-06-15T15:06:40.000Z"]) := by
  refine bounded_of_stampedInTime (by decide) fun step hstep => ?_
  rw [List.mem_singleton.1 hstep]
  have hparse : tableTerminal.dates.parse (js "2025-06-15T15:06:40.000Z") = some 1750000000000 := by
    decide
  intro t ht
  have ht' : tableTerminal.dates.parse (js "2025-06-15T15:06:40.000Z") = some t := ht
  rw [hparse, Option.some.injEq] at ht'
  subst ht'
  decide

/-- A mark at 15:14 makes the copy fresh until 15:24, and the token is opened at 15:20. -/
theorem mark_outlives_server :
    ¬ ∀ state nowMs registry freshUntil steps,
      PosRegistry.snapshotFromState PosRegistry.tablePlatform state nowMs = .ok registry →
        readTimestamp tableTerminal.dates registry.freshUntil = some freshUntil →
          Bounded tableTerminal freshUntil (terminalRun tableTerminal registry steps) := by
  intro h
  have hopens : (PosRegistry.snapshotFromState PosRegistry.tablePlatform
      ⟨PosRegistry.POS_AGID_SECURE_REGISTRY_ID, 0, [], [], [], [], []⟩
      (.finite 1750000000000)).toOption.any (fun registry =>
        readTimestamp tableTerminal.dates registry.freshUntil = some 1750000600000
          && opensToken (terminalRun tableTerminal registry
            [markTokenA "2025-06-15T15:14:00.000Z"]).registry (.finite 1750000800000))
      = true := by
    decide +kernel
  obtain ⟨registry, hregistry, hopens⟩ := (Option.any_eq_true _ _).1 hopens
  rw [Bool.and_eq_true, decide_eq_true_eq] at hopens
  obtain ⟨hfresh, hopens⟩ := hopens
  have hbounded := h _ _ _ _ [markTokenA "2025-06-15T15:14:00.000Z"]
    (Checks.eq_ok_of_toOption hregistry) hfresh
  unfold opensToken at hopens
  split at hopens
  · rename_i result hopen
    exact absurd (hbounded _ _ result hopen).1 (by decide)
  · cases hopens

end Agid.AgidSecurePos
