import Agid.SecurePos
import Agid.Proofs.Clock
import Agid.Lib.Checks
import Agid.Lib.Record

/-!
# What the registry check finds

The errors of `verifyAgidSecurePosRegistry`, one by one.
-/

namespace Agid

export Checks (bind_eq_ok)

theorem dropWhile_eq_self {p : CodeUnit → Bool} : ∀ {s : JsString}, (∀ c ∈ s, p c = false) →
    s.dropWhile p = s
  | [], _ => rfl
  | c :: s, h => List.dropWhile_cons_of_neg (by simp [h c List.mem_cons_self])

theorem trim_eq_self {s : JsString} (h : ∀ c ∈ s, isWhiteSpace c = false) : trim s = s := by
  rw [trim, dropWhile_eq_self h, List.rdropWhile, dropWhile_eq_self (by simpa using h),
    List.reverse_reverse]

theorem trim_trim (s : JsString) : trim (trim s) = trim s := by
  have hhead : (trim s).dropWhile isWhiteSpace = trim s := by
    rw [List.dropWhile_eq_self_iff]
    intro hl
    obtain ⟨rest, hrest⟩ : trim s <+: s.dropWhile isWhiteSpace := List.rdropWhile_prefix _ _
    have hd := List.dropWhile_eq_self_iff.1
      (List.dropWhile_idempotent (p := isWhiteSpace) (l := s)) (by rw [← hrest]; simp; omega)
    simp only [← hrest, List.getElem_append_left hl] at hd
    exact hd
  conv_lhs => rw [trim, hhead]
  exact List.rdropWhile_idempotent _ _

theorem not_isWhiteSpace_of_upper {c : CodeUnit} (h : isUpperAlphanumeric c) : isWhiteSpace c = false := by
  simp only [isUpperAlphanumeric, Bool.or_eq_true, Bool.and_eq_true, decide_eq_true_eq] at h
  simp only [isWhiteSpace, Bool.or_eq_false_iff, Bool.and_eq_false_imp, decide_eq_true_eq,
    decide_eq_false_iff_not, List.contains_eq_mem, List.mem_cons, List.not_mem_nil, or_false]
  omega

theorem trim_of_matchesJti {s : JsString} (h : matchesJti s) : trim s = s := by
  simp only [matchesJti, Bool.and_eq_true, List.all_eq_true] at h
  exact trim_eq_self fun c hc => not_isWhiteSpace_of_upper (h.1.1 c hc)

theorem ne_nil_of_matchesJti {s : JsString} (h : matchesJti s) : s ≠ [] := by
  rintro rfl
  simp [matchesJti] at h

theorem trim_of_matchesKeyId {s : JsString} (h : matchesKeyId s) : trim s = s := by
  simp only [matchesKeyId, Bool.and_eq_true, List.all_eq_true] at h
  exact trim_eq_self fun c hc => by
    simpa using (AddressOfflineCrdt.isKeyUnit_facts (h.1.1 c hc)).2.1

/-! ## Instants -/

theorem timeClip_bound {n : JsNumber} {t : ℤ} (h : timeClip n = some t) :
    |t| ≤ 8640000000000000 := by
  cases n with
  | finite q =>
    simp only [timeClip, Option.ite_none_right_eq_some, Option.some.injEq] at h
    obtain ⟨hq, rfl⟩ := h
    rw [abs_le] at hq ⊢
    split_ifs with h0
    · exact ⟨by linarith [Int.floor_nonneg.2 h0], Int.floor_le_iff.2 (by push_cast; linarith)⟩
    · exact ⟨Int.le_ceil_iff.2 (by push_cast; linarith), Int.ceil_le.2 (by push_cast; linarith)⟩
  | _ => cases h

theorem not_atLeast_plus {n : JsNumber} {k : ℚ} {t : ℤ} (hk : 1 ≤ k)
    (h : timeClip (n.plus k) = some t) : n.atLeast t = false := by
  cases n with
  | finite q =>
    simp only [JsNumber.plus, timeClip, Option.ite_none_right_eq_some, Option.some.injEq] at h
    obtain ⟨-, rfl⟩ := h
    simp only [JsNumber.atLeast, decide_eq_false_iff_not, not_le]
    split_ifs
    · linarith [Int.lt_floor_add_one (q + k)]
    · linarith [Int.le_ceil (q + k)]
  | _ => cases h

theorem timeClip_plus_nat (n : ℕ) {k : ℚ} (hk : 1 ≤ k) :
    timeClip ((JsNumber.finite n).plus k) ≠ some 0 := by
  intro h
  have := not_atLeast_plus hk h
  simp [JsNumber.atLeast] at this

theorem nowIso_ok {dates : Dates} {now : JsNumber} {text : JsString}
    (h : nowIso dates now = .ok text) :
    ∃ t, timeClip now = some t ∧ text = dates.toISOString t := by
  unfold nowIso at h
  split at h
  · rename_i t ht
    cases h
    exact ⟨t, ht, rfl⟩
  · cases h

/-! ## A table of times -/

/-- A number as a sign and four digits, most significant first. -/
def timeDigits (t : ℤ) : JsString :=
  (if t < 0 then 1 else 0) :: [3, 2, 1, 0].map fun k => Fin.ofNat 65536 (t.natAbs / 65536 ^ k)

def readTimeDigits : JsString → Option ℤ
  | [sign, a, b, c, d] =>
    let n : ℤ := ((a.val * 65536 + b.val) * 65536 + c.val) * 65536 + d.val
    some (if sign = 1 then -n else n)
  | _ => none

theorem readTimeDigits_timeDigits {t : ℤ} (h : |t| ≤ 8640000000000000) :
    readTimeDigits (timeDigits t) = some t := by
  have ht : t.natAbs < 65536 ^ 4 := by
    rw [Int.abs_eq_natAbs] at h
    omega
  have hn : ((t.natAbs / 65536 ^ 3 % 65536 * 65536 + t.natAbs / 65536 ^ 2 % 65536) * 65536
      + t.natAbs / 65536 % 65536) * 65536 + t.natAbs % 65536 = t.natAbs := by
    omega
  have hz := congrArg (Nat.cast : ℕ → ℤ) hn
  simp only [Nat.cast_add, Nat.cast_mul] at hz
  simp only [timeDigits, List.map_cons, List.map_nil, readTimeDigits, Fin.ofNat, pow_zero, pow_one,
    Nat.div_one, Option.some.injEq]
  erw [hz]
  split_ifs with hneg hsign hsign
  · omega
  · exact absurd rfl hsign
  · exact absurd hsign (by decide)
  · omega

/-- The dates whose texts a table gives; the others have their digits for a text. -/
def Dates.ofTable (table : Record ℤ JsString) (texts : table.values.Nodup)
    (long : ∀ text ∈ table.values, 5 < text.length) : Dates where
  toISOString t := (table.get? t).getD (timeDigits t)
  parse text := ((table.entries.find? (·.2 = text)).map Prod.fst).or (readTimeDigits text)
  toISOString_ne_nil t := by
    rcases ht : table.get? t with _ | text
    · simp [timeDigits]
    · have := long text (Record.mem_values.2 ⟨t, ht⟩)
      rintro rfl
      simp at this
  parse_toISOString t hbound := by
    rcases ht : table.get? t with _ | text
    · have hnone : table.entries.find? (·.2 = timeDigits t) = none := by
        refine List.find?_eq_none.2 fun e he htext => ?_
        have := long e.2 (List.mem_map_of_mem he)
        simp only [decide_eq_true_eq] at htext
        simp [htext, timeDigits] at this
      simp only [Option.getD_none, hnone, Option.map_none, Option.none_or]
      exact readTimeDigits_timeDigits hbound
    · obtain ⟨e, he⟩ : ∃ e, table.entries.find? (·.2 = text) = some e :=
        Option.isSome_iff_exists.1 (List.find?_isSome.2 ⟨(t, text), Record.mem_entries.2 ht, by simp⟩)
      have hmem := List.mem_of_find?_eq_some he
      have htext : e.2 = text := by simpa using List.find?_some he
      have heq : e = (t, text) :=
        List.inj_on_of_nodup_map texts hmem (Record.mem_entries.2 ht) htext
      simp [he, heq]

theorem nodup_noTexts : (Record.empty : Record ℤ JsString).values.Nodup := by
  decide

theorem long_noTexts : ∀ text ∈ (Record.empty : Record ℤ JsString).values, 5 < text.length := by
  decide

/-! ## The check -/

namespace AgidSecurePos

theorem mem_setFromIterable {values : List JsString} {label : JsString} :
    label ∈ setFromIterable values ↔ label ≠ [] ∧ ∃ value ∈ values, trim value = label := by
  simp [setFromIterable, and_comm]

variable {dates : Dates} {registry : RegistrySnapshot} {keyId jti : Option JsString}
  {exp : Option ℚ} {now : JsNumber} {decision : RegistryDecision}

/-- The registry's own time says that it is too old. -/
def stale (dates : Dates) (registry : RegistrySnapshot) (now : JsNumber) : Bool :=
  match readTimestamp dates registry.freshUntil with
  | none => true
  | some t => t = 0 || now.atLeast t

theorem verify_errors
    (h : verifyAgidSecurePosRegistry dates (some registry) keyId jti exp now = .ok decision) :
    decision.errors = (if stale dates registry now then [js "registry-stale"] else [])
      ++ (if cleanLabel keyId ≠ [] ∧ cleanLabel keyId ∈ setFromIterable registry.revokedKeyIds then
        [js "key-revoked-by-registry"] else [])
      ++ (if cleanLabel jti ≠ [] ∧ cleanLabel jti ∈ setFromIterable registry.revokedJtis then
        [js "token-revoked"] else [])
      ++ (if cleanLabel jti ≠ [] ∧ cleanLabel jti ∈ setFromIterable registry.usedJtis then
        [js "token-already-used"] else [])
      ++ (if isExpired exp now then [js "token-expired"] else []) := by
  obtain ⟨checkedAt, -, h⟩ := bind_eq_ok.1 h
  cases h
  rfl

theorem verify_eq_nil
    (h : verifyAgidSecurePosRegistry dates (some registry) keyId jti exp now = .ok decision) :
    decision.errors = [] ↔ stale dates registry now = false
      ∧ ¬ (cleanLabel keyId ≠ [] ∧ cleanLabel keyId ∈ setFromIterable registry.revokedKeyIds)
      ∧ ¬ (cleanLabel jti ≠ [] ∧ cleanLabel jti ∈ setFromIterable registry.revokedJtis)
      ∧ ¬ (cleanLabel jti ≠ [] ∧ cleanLabel jti ∈ setFromIterable registry.usedJtis)
      ∧ isExpired exp now = false := by
  rw [verify_errors h]
  simp only [List.append_eq_nil_iff, ite_eq_right_iff, List.cons_ne_nil, imp_false, and_assoc,
    Bool.not_eq_true]

theorem alreadyUsed_mem
    (h : verifyAgidSecurePosRegistry dates (some registry) keyId jti exp now = .ok decision) :
    js "token-already-used" ∈ decision.errors
      ↔ cleanLabel jti ≠ [] ∧ cleanLabel jti ∈ setFromIterable registry.usedJtis := by
  have hne : ∀ t ∈ ["registry-stale", "key-revoked-by-registry", "token-revoked", "token-expired"],
      js "token-already-used" ≠ js t := by decide
  simp only [List.mem_cons, List.not_mem_nil, or_false, forall_eq_or_imp, forall_eq] at hne
  obtain ⟨h1, h2, h3, h4⟩ := hne
  rw [verify_errors h]
  simp only [List.mem_append, List.mem_ite_nil_right, List.mem_singleton, h1, h2, h3, h4,
    and_false, false_or, or_false, and_true]

theorem readTimestamp_toISOString {t : ℤ} (h : |t| ≤ 8640000000000000) :
    readTimestamp dates (some (dates.toISOString t)) = some t := by
  unfold readTimestamp
  split
  · contradiction
  · rename_i heq
    exact absurd (Option.some.inj heq) (dates.toISOString_ne_nil t)
  · rename_i heq
    rw [← Option.some.inj heq, dates.parse_toISOString t h]

/-- A registry checked at the time it was made is fresh. -/
theorem not_stale {t : ℤ} (hbound : |t| ≤ 8640000000000000)
    (hfresh : registry.freshUntil = some (dates.toISOString t)) (hzero : t ≠ 0)
    (hnow : now.atLeast t = false) : stale dates registry now = false := by
  rw [stale, hfresh, readTimestamp_toISOString hbound]
  simp [hzero, hnow]

end AgidSecurePos

end Agid
