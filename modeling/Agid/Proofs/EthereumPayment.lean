import Agid.EthereumPayment
import Agid.Proofs.SecurePos

/-!
# Amounts in base units

A text of digits with a point is cut to the token's decimals (`numeral_baseUnits`), so it is exact
when what is cut off is zero.  A number is rounded to six places before it is printed, and it prints
with an exponent from 10²¹ on, which no base-unit string can have (`not_denotes_exponential`).
-/

namespace Agid.EthereumPayment

open EthereumRegistry (Platform)

/-! ## Digits -/

theorem digits_lt {s : JsString} (hs : s.all isDigit) : ∀ d ∈ digits s, d < 10 := by
  intro d hd
  obtain ⟨c, hc, rfl⟩ := List.mem_map.1 hd
  have := List.all_eq_true.1 hs c hc
  simp only [isDigit, Bool.and_eq_true, decide_eq_true_eq] at this
  omega

theorem digits_append (s t : JsString) : digits (s ++ t) = digits s ++ digits t :=
  List.map_append

theorem stripZeros_spec : ∀ {s : JsString}, s.all isDigit →
    (stripZeros s).all isDigit
      ∧ Decimal.numeral (digits (stripZeros s)) = Decimal.numeral (digits s)
      ∧ (s ≠ [] → stripZeros s ≠ []) := by
  intro s
  induction s using stripZeros.induct with
  | case1 c s hc ih =>
    intro h
    have h' : (c :: s).all isDigit := by
      rw [List.all_cons, Bool.and_eq_true] at h
      exact h.2
    obtain ⟨h1, h2, h3⟩ := ih h'
    rw [stripZeros, if_pos hc]
    refine ⟨h1, h2.trans ?_, fun _ => h3 (by simp)⟩
    exact (Decimal.numeral_zero_cons _).symm
  | case2 c s hc =>
    intro h
    rw [stripZeros, if_neg hc]
    exact ⟨h, rfl, id⟩
  | case3 s hs =>
    intro h
    rw [stripZeros]
    · exact ⟨h, rfl, id⟩
    · exact hs

/-- A text of digits, perhaps with a point and digits after it. -/
structure IsPlain (s w f : JsString) : Prop where
  ne_nil : w ≠ []
  whole : w.all isDigit
  places : f.all isDigit
  wholePart : wholePart s = w
  fractionalPart : fractionalPart s = f
  mantissa : s.takeWhile (· ≠ 101) = s
  decimal : decimal s = Decimal.value (digits w) (digits f)

theorem ne_of_digit {c d : CodeUnit} (hc : isDigit c) (hd : isDigit d = false) : c ≠ d := by
  rintro rfl
  rw [hc] at hd
  cases hd

theorem isPlain_of_split {s w f : JsString} (hw : w ≠ []) (hwd : w.all isDigit)
    (hfd : f.all isDigit) (hs : s = w ∧ f = [] ∨ s = w ++ 46 :: f) : IsPlain s w f := by
  have hpoint : ∀ {t : JsString}, t.all isDigit → ∀ c ∈ t, decide (c ≠ 46) = true := by
    intro t ht c hc
    exact decide_eq_true (ne_of_digit (List.all_eq_true.1 ht c hc) rfl)
  have he : ∀ {t : JsString}, t.all isDigit → ∀ c ∈ t, decide (c ≠ 101) = true := by
    intro t ht c hc
    exact decide_eq_true (ne_of_digit (List.all_eq_true.1 ht c hc) rfl)
  have hparts : wholePart s = w ∧ fractionalPart s = f ∧ s.takeWhile (· ≠ 101) = s := by
    unfold wholePart fractionalPart
    rcases hs with ⟨rfl, rfl⟩ | rfl
    · refine ⟨List.takeWhile_eq_self_iff.2 (hpoint hwd), ?_, List.takeWhile_eq_self_iff.2 (he hwd)⟩
      rw [List.dropWhile_eq_nil_iff.2 (hpoint hwd)]
      rfl
    · refine ⟨?_, ?_, List.takeWhile_eq_self_iff.2 fun c hc => ?_⟩
      · rw [List.takeWhile_append_of_pos (hpoint hwd)]
        simp
      · rw [List.dropWhile_append_of_pos (hpoint hwd)]
        simp only [ne_eq, not_true_eq_false, decide_false, Bool.false_eq_true, not_false_eq_true,
          List.dropWhile_cons_of_neg, List.drop_succ_cons, List.drop_zero]
        exact List.takeWhile_eq_self_iff.2 (hpoint hfd)
      · rcases List.mem_append.1 hc with hc | hc
        · exact he hwd c hc
        · rcases List.mem_cons.1 hc with rfl | hc
          · rfl
          · exact he hfd c hc
  obtain ⟨h1, h2, h3⟩ := hparts
  refine ⟨hw, hwd, hfd, h1, h2, h3, ?_⟩
  have h4 : s.drop s.length = [] := List.drop_length
  unfold decimal
  simp only [h3, h4, List.drop_nil, h1, h2]
  simp [digits, Decimal.numeral]

theorem isDecimal_plain {most : Option ℕ} {s : JsString} (h : isDecimal most s = true) :
    ∃ w f, IsPlain s w f := by
  unfold isDecimal at h
  rw [Bool.and_eq_true] at h
  obtain ⟨hw, hrest⟩ := h
  have hsplit : s = s.takeWhile isDigit ++ s.drop (s.takeWhile isDigit).length := by
    have hd : s.drop (s.takeWhile isDigit).length = s.dropWhile isDigit := by
      have h : (s.takeWhile isDigit ++ s.dropWhile isDigit).drop (s.takeWhile isDigit).length
          = s.dropWhile isDigit := List.drop_left
      rwa [List.takeWhile_append_dropWhile] at h
    rw [hd, List.takeWhile_append_dropWhile]
  have hne : s.takeWhile isDigit ≠ [] := by
    intro h0
    rw [h0] at hw
    cases hw
  have hwd : (s.takeWhile isDigit).all isDigit :=
    List.all_eq_true.2 fun c hc => List.mem_takeWhile_imp hc
  rcases hr : s.drop (s.takeWhile isDigit).length with _ | ⟨c, places⟩
  · rw [hr, List.append_nil] at hsplit
    exact ⟨_, [], isPlain_of_split hne hwd rfl (.inl ⟨hsplit, rfl⟩)⟩
  · rw [hr] at hrest hsplit
    simp only [Bool.and_eq_true, decide_eq_true_eq] at hrest
    obtain ⟨⟨⟨rfl, _⟩, hplaces⟩, _⟩ := hrest
    exact ⟨_, places, isPlain_of_split hne hwd hplaces (.inr hsplit)⟩

/-! ## Base units -/

theorem all_isDigit_take {s : JsString} (hs : s.all isDigit) (d : ℕ) :
    ((s ++ List.replicate d 48).take d).all isDigit := by
  refine List.all_eq_true.2 fun c hc => ?_
  rcases List.mem_append.1 (List.mem_of_mem_take hc) with hc | hc
  · exact List.all_eq_true.1 hs c hc
  · rw [List.eq_of_mem_replicate hc]
    rfl

theorem digits_places (f : JsString) (d : ℕ) :
    digits ((f ++ List.replicate d 48).take d) = Decimal.places d (digits f) := by
  unfold digits Decimal.places
  rw [List.map_take, List.map_append, List.map_replicate]
  rfl

/-- The base units of a plain text are its decimal in units of the last place, rounded down. -/
theorem IsPlain.baseUnits {s w f : JsString} (h : IsPlain s w f) (d : ℕ) :
    baseUnits d s ≠ [] ∧ (baseUnits d s).all isDigit
      ∧ Decimal.numeral (digits (baseUnits d s)) = ⌊EthereumPayment.decimal s * 10 ^ d⌋₊ := by
  have hall : (w ++ (f ++ List.replicate d 48).take d).all isDigit := by
    rw [List.all_append, h.whole, all_isDigit_take h.places]
    rfl
  have hne : w ++ (f ++ List.replicate d 48).take d ≠ [] := by
    simp [h.ne_nil]
  obtain ⟨h1, h2, h3⟩ := stripZeros_spec hall
  unfold EthereumPayment.baseUnits
  rw [h.wholePart, h.fractionalPart]
  simp only [h3 hne, if_false]
  refine ⟨h3 hne, h1, ?_⟩
  rw [h2, digits_append, digits_places, h.decimal,
    Decimal.numeral_append_places _ (digits_lt h.places)]

theorem IsPlain.denotes_iff {s w f : JsString} (h : IsPlain s w f) (d : ℕ) (amount : ℚ) :
    Denotes (EthereumPayment.baseUnits d s) d amount
      ↔ (⌊EthereumPayment.decimal s * 10 ^ d⌋₊ : ℚ) = amount * 10 ^ d := by
  obtain ⟨h1, h2, h3⟩ := h.baseUnits d
  unfold Denotes
  rw [h3]
  exact ⟨fun h => h.2.2, fun h => ⟨h1, h2, h⟩⟩

theorem floor_eq_iff_representable {d : ℕ} {amount : ℚ} :
    (⌊amount * 10 ^ d⌋₊ : ℚ) = amount * 10 ^ d ↔ Representable d amount := by
  constructor
  · exact fun h => ⟨_, h.symm⟩
  · rintro ⟨n, hn⟩
    rw [hn, Nat.floor_natCast]

/-! ## Texts that are no base units -/

theorem mem_stripZeros {c : CodeUnit} (hc : isDigit c = false) :
    ∀ {s : JsString}, c ∈ s → c ∈ stripZeros s := by
  intro s
  induction s using stripZeros.induct with
  | case1 d s hd ih =>
    intro h
    rw [stripZeros, if_pos hd]
    rcases List.mem_cons.1 h with rfl | h
    · cases hc
    · exact ih h
  | case2 d s hd =>
    intro h
    rwa [stripZeros, if_neg hd]
  | case3 s hs =>
    intro h
    rw [stripZeros]
    · exact h
    · exact hs

theorem stripZeros_length : ∀ s : JsString, (stripZeros s).length ≤ s.length := by
  intro s
  induction s using stripZeros.induct with
  | case1 d s hd ih =>
    rw [stripZeros, if_pos hd]
    exact ih.trans (by simp)
  | case2 d s hd => rw [stripZeros, if_neg hd]
  | case3 s hs =>
    rw [stripZeros]
    exact hs

theorem not_denotes_of_mem {s : JsString} {c : CodeUnit} (hc : isDigit c = false)
    (hmem : c ∈ wholePart s) (d : ℕ) (amount : ℚ) : ¬ Denotes (baseUnits d s) d amount := by
  rintro ⟨_, hall, _⟩
  have h : c ∈ stripZeros (wholePart s ++ (fractionalPart s ++ List.replicate d 48).take d) :=
    mem_stripZeros hc (List.mem_append_left _ hmem)
  unfold baseUnits at hall
  rw [if_neg (List.ne_nil_of_mem h)] at hall
  have := List.all_eq_true.1 hall c h
  rw [hc] at this
  cases this

theorem exponent_mem {s : JsString} (h : isExponential s = true) : (101 : CodeUnit) ∈ s := by
  unfold isExponential at h
  split at h
  · simp
  · rename_i c rest
    rw [Bool.and_eq_true] at h
    have h2 := h.2
    split at h2
    · rename_i power hrest
      have : (101 : CodeUnit) ∈ rest.dropWhile isDigit := by
        rw [hrest]
        exact List.mem_cons_self
      exact List.mem_cons_of_mem _ (List.mem_cons_of_mem _
        ((List.dropWhile_sublist isDigit).subset this))
    · cases h2
  · cases h

theorem IsPlain.not_exponential {s w f : JsString} (h : IsPlain s w f) :
    isExponential s = false := by
  by_contra hexp
  rw [Bool.not_eq_false] at hexp
  have hmem := exponent_mem hexp
  rw [← h.mantissa] at hmem
  have := List.mem_takeWhile_imp hmem
  simp at this

theorem not_denotes_exponential {s : JsString} (h : isExponential s = true) {amount : ℚ}
    (hamount : 10 ≤ amount) (d : ℕ) : ¬ Denotes (baseUnits d s) d amount := by
  unfold isExponential at h
  split at h
  · rename_i c power
    simp only [Bool.and_eq_true] at h
    have hc : decide (c ≠ 46) = true := decide_eq_true (ne_of_digit h.1.1 rfl)
    refine not_denotes_of_mem (c := 101) rfl ?_ d amount
    unfold wholePart
    rw [List.takeWhile_cons, if_pos hc]
    exact List.mem_cons_of_mem _ (by simp)
  · rename_i c rest
    simp only [Bool.and_eq_true] at h
    have hc : decide (c ≠ 46) = true := decide_eq_true (ne_of_digit h.1.1 rfl)
    have hw : wholePart (c :: 46 :: rest) = [c] := by
      unfold wholePart
      rw [List.takeWhile_cons, if_pos hc]
      simp
    -- one digit before the point, and no more after it than there are places
    have hlen : (stripZeros (wholePart (c :: 46 :: rest)
        ++ (fractionalPart (c :: 46 :: rest) ++ List.replicate d 48).take d)).length ≤ d + 1 := by
      refine (stripZeros_length _).trans ?_
      rw [hw, List.length_append, List.length_take, List.length_singleton]
      omega
    rintro ⟨_, hall, hn⟩
    have hbase : (baseUnits d (c :: 46 :: rest)).length ≤ d + 1 := by
      unfold baseUnits
      dsimp only
      split_ifs
      · exact Nat.le_add_left 1 d
      · exact hlen
    have hlt := Decimal.numeral_lt (digits_lt hall)
    have hle : (10 : ℕ) ^ (digits (baseUnits d (c :: 46 :: rest))).length ≤ 10 ^ (d + 1) := by
      refine Nat.pow_le_pow_right (by omega) ?_
      rwa [digits, List.length_map]
    have hlt' : (Decimal.numeral (digits (baseUnits d (c :: 46 :: rest))) : ℚ) < 10 ^ (d + 1) := by
      exact_mod_cast hlt.trans_le hle
    rw [hn, pow_succ, mul_comm ((10 : ℚ) ^ d)] at hlt'
    exact absurd (lt_of_mul_lt_mul_right hlt' (by positivity)) (not_lt.2 hamount)
  · cases h

/-! ## What is planned -/

variable {Num : Type} {P : Platform} {D : Doubles Num} {input : PosEthereumPaymentInput Num}

theorem rejectedResult_errors {error : JsString} {errors : List JsString} :
    (rejectedResult (error :: errors)).errors ≠ [] := by
  unfold rejectedResult
  rw [List.eraseDups_cons]
  exact List.cons_ne_nil _ _

theorem recordPayment_plan {record : EthereumPaymentRecordInput} {clock : ℤ}
    (h : (recordPayment P record clock).errors = []) :
    ∃ plan, (recordPayment P record clock).txPlan = some plan
      ∧ plan.publicArguments.amount = record.amount := by
  unfold recordPayment at h ⊢
  dsimp only at h ⊢
  split_ifs at h ⊢ with hprivate
  · rcases he : requirePublicOnly P record with _ | ⟨error, errors⟩
    · exact absurd he hprivate
    · rw [he] at h
      exact absurd h rejectedResult_errors
  · split at h
    · exact ⟨_, rfl, rfl⟩
    · exact absurd h rejectedResult_errors

theorem evaluate_plan {clock : ℤ} (h : (evaluatePosEthereumPayment P D input clock).accepted) :
    inputErrors P D input (clean P D input) = []
      ∧ (normalizeSettlementMode P input.settlementMode = .offchainObserved
          ∧ (evaluatePosEthereumPayment P D input clock).txPlan = none
        ∨ normalizeSettlementMode P input.settlementMode ≠ .offchainObserved
          ∧ ∃ plan, (evaluatePosEthereumPayment P D input clock).txPlan = some plan
            ∧ plan.publicArguments.amount = chainAmount (clean P D input)) := by
  unfold evaluatePosEthereumPayment at h ⊢
  simp only [decide_eq_true_eq, List.append_eq_nil_iff] at h ⊢
  obtain ⟨⟨he, hr⟩, _⟩ := h
  refine ⟨he, ?_⟩
  by_cases hmode : (clean P D input).settlementMode = .offchainObserved
  · exact .inl ⟨hmode, by rw [if_neg (fun h => h.1 hmode)]⟩
  · rw [if_pos ⟨hmode, he⟩] at hr ⊢
    exact .inr ⟨hmode, recordPayment_plan hr⟩

theorem chainAmount_eq {text : JsString} (h : (clean P D input).amount = some text)
    (hne : text ≠ []) :
    chainAmount (clean P D input) = some (baseUnits (decimalsOf P D input) text) := by
  unfold chainAmount amountToBaseUnits decimalsOf
  rw [h, Option.bind_some, nonEmpty, if_neg hne]
  rfl

/-- A text amount that is accepted is plain, and names what it writes. -/
theorem text_plain {value : JsString} (hinput : input.amount = .text value)
    (hpresent : cleanText P value ≠ []) (he : inputErrors P D input (clean P D input) = []) :
    ∃ text w f, (clean P D input).amount = some text ∧ IsPlain text w f
      ∧ namedAmount P D input.amount = decimal text := by
  have hclean : (clean P D input).amount = cleanAmount P D (.text value) := by
    rw [← hinput]
    rfl
  simp only [inputErrors, List.append_eq_nil_iff] at he
  obtain ⟨⟨⟨⟨_, hamount⟩, _⟩, _⟩, _⟩ := he
  rw [hclean, hinput] at hamount
  rw [hclean, hinput]
  simp only [amountText, hpresent, ne_eq, not_false_eq_true, true_and] at hamount
  unfold cleanAmount at hamount ⊢
  simp only [nonEmpty, hpresent, if_false, Option.bind_some] at hamount ⊢
  split_ifs at hamount ⊢ with hdecimal
  · obtain ⟨w, f, hplain⟩ := isDecimal_plain hdecimal
    exact ⟨_, w, f, rfl, hplain, rfl⟩
  · rename_i hnone
    exact absurd rfl hnone

theorem IsPlain.text_ne_nil {s w f : JsString} (h : IsPlain s w f) : s ≠ [] := by
  rintro rfl
  exact h.ne_nil h.wholePart.symm

/-- A plan of an on-chain payment that is accepted records the base units of its amount. -/
theorem planned_iff {clock : ℤ} (h : (evaluatePosEthereumPayment P D input clock).accepted)
    {text : JsString} (htext : (clean P D input).amount = some text) (hne : text ≠ [])
    (amount : ℚ) :
    (∀ plan, (evaluatePosEthereumPayment P D input clock).txPlan = some plan →
        ∃ base, plan.publicArguments.amount = some base
          ∧ Denotes base (decimalsOf P D input) amount)
      ↔ (normalizeSettlementMode P input.settlementMode ≠ .offchainObserved →
        Denotes (baseUnits (decimalsOf P D input) text) (decimalsOf P D input) amount) := by
  obtain ⟨_, ⟨hmode, hnone⟩ | ⟨hmode, plan, hplan, hamount⟩⟩ := evaluate_plan h
  · rw [hnone]
    exact ⟨fun _ h => absurd hmode h, fun _ _ h => by cases h⟩
  · rw [chainAmount_eq htext hne] at hamount
    constructor
    · intro hall _
      obtain ⟨base, hbase, hd⟩ := hall plan hplan
      rw [hamount] at hbase
      rwa [Option.some.inj hbase]
    · intro hd plan' hplan'
      rw [hplan] at hplan'
      obtain rfl := Option.some.inj hplan'
      exact ⟨_, hamount, hd hmode⟩

/-- What is planned for a number denotes it when rounding it to six places and cutting it leaves
it as it is. -/
theorem number_denotes_iff (hD : Documented D) (n : Num) (d : ℕ) :
    Denotes (baseUnits d ((D.roundMicro n).elim (js "Infinity") D.text)) d (decimal (D.text n))
      ↔ ∃ m, D.roundMicro n = some m ∧ isDecimal none (D.text m) = true
        ∧ (⌊decimal (D.text m) * 10 ^ d⌋₊ : ℚ) = decimal (D.text n) * 10 ^ d := by
  rcases hm : D.roundMicro n with _ | m
  · have hI : (73 : CodeUnit) ∈ wholePart (js "Infinity") := by decide
    exact iff_of_false (not_denotes_of_mem rfl hI _ _) (by simp)
  · simp only [Option.elim_some, Option.some.injEq, exists_eq_left']
    rcases hD.printed n m hm with hdecimal | ⟨hexp, hlarge⟩
    · obtain ⟨w, f, hplain⟩ := isDecimal_plain hdecimal
      rw [hplain.denotes_iff, hdecimal]
      simp
    · have hnear := hD.near n m hm
      refine iff_of_false (not_denotes_exponential hexp (by linarith) _) ?_
      rintro ⟨hdecimal, _⟩
      obtain ⟨w, f, hplain⟩ := isDecimal_plain hdecimal
      rw [hplain.not_exponential] at hexp
      cases hexp

theorem roundMicro_text_ne_nil (hD : Documented D) (n : Num) :
    (D.roundMicro n).elim (js "Infinity") D.text ≠ [] := by
  rcases hm : D.roundMicro n with _ | m
  · exact List.cons_ne_nil _ _
  · rcases hD.printed n m hm with hdecimal | ⟨hexp, _⟩
    · obtain ⟨w, f, hplain⟩ := isDecimal_plain hdecimal
      exact hplain.text_ne_nil
    · exact List.ne_nil_of_mem (exponent_mem hexp)

theorem exactlyPlanned_iff (hD : Documented D) {clock : ℤ}
    (h : (evaluatePosEthereumPayment P D input clock).accepted) (hamount : HasAmount P input) :
    ExactlyPlanned P D input (evaluatePosEthereumPayment P D input clock) ↔ Fits P D input := by
  unfold ExactlyPlanned Fits
  refine and_congr_right fun hrep => ?_
  rcases hinput : input.amount with n | value
  · have htext : (clean P D input).amount
        = some ((D.roundMicro n).elim (js "Infinity") D.text) := by
      change cleanAmount P D input.amount = _
      rw [hinput]
      rfl
    rw [planned_iff h htext (roundMicro_text_ne_nil hD n)]
    exact forall_congr' fun _ => number_denotes_iff hD n _
  · unfold HasAmount at hamount
    rw [hinput] at hamount hrep
    obtain ⟨text, w, f, htext, hplain, hnamed⟩ := text_plain hinput hamount (evaluate_plan h).1
    rw [hinput] at hnamed
    rw [planned_iff h htext hplain.text_ne_nil, hplain.denotes_iff, hnamed,
      floor_eq_iff_representable]
    rw [hnamed] at hrep
    exact ⟨fun _ _ => trivial, fun _ _ => hrep⟩

/-! ## Two payments -/

/-- A platform that hashes every text to zeros. -/
def zeroPlatform : Platform where
  nfkc := { normalize := id, ascii := id_ascii }
  toLowerCase := List.map lowerAscii
  toUpperCase := List.map fun c => if 97 ≤ c.val ∧ c.val ≤ 122 then c - 32 else c
  dates := Dates.ofTable .empty nodup_noTexts long_noTexts
  sha256Hex _ := List.replicate 64 48

/-- A platform whose only number is 2400. -/
def oneNumber : Doubles Unit where
  roundMicro _ := some ()
  text _ := js "2400"

theorem oneNumber_plain : IsPlain (js "2400") (js "2400") [] :=
  isPlain_of_split (by decide) (by decide) rfl (.inl ⟨rfl, rfl⟩)

theorem oneNumber_decimal : decimal (js "2400") = 2400 := by
  have hw : digits (js "2400") = [2, 4, 0, 0] := by decide
  rw [oneNumber_plain.decimal, hw]
  norm_num [Decimal.value, Decimal.numeral, digits, Nat.ofDigits]

theorem oneNumber_documented : Documented oneNumber where
  printed _ _ _ := .inl (show isDecimal none (js "2400") = true by decide)
  near _ _ _ := by
    change decimal (js "2400") ≤ 2 * decimal (js "2400") + 1
    rw [oneNumber_decimal]
    norm_num

/-- A payment on delivery in yen. -/
def yenPayment (amount : Amount Unit) : PosEthereumPaymentInput Unit where
  paymentKind := js "collect-on-delivery"
  settlementMode := js "ethereum-registry"
  paymentId := []
  escrowId := []
  waybillAlias := js "WBA-ONLY-ALIAS"
  waybillCommitment := []
  payerCommitment := []
  payeeCommitment := []
  purpose := []
  amount
  currency := some (js "JPY")
  tokenSymbol := none
  tokenContract := []
  networkId := []
  paymentContractAddress := []
  observedTxHash := []
  paymentStatus := []
  paidAt := []
  releaseAfterHandoffOff := false
  highRiskMode := false
  rawAddress := []
  rawAgid := []
  rawAoid := []
  privateKey := []
  seedPhrase := []
  cardPan := []
  phone := []

theorem yenPayment_decimals (amount : Amount Unit) :
    decimalsOf zeroPlatform oneNumber (yenPayment amount) = 0 := by
  have h : amountDecimals ((((cleanCurrency zeroPlatform none).or
      ((cleanCurrency zeroPlatform (some (js "JPY"))).or (cleanCurrency zeroPlatform none)))).or
      ((cleanCurrency zeroPlatform (some (js "JPY"))).or (cleanCurrency zeroPlatform none)))
      = 0 := by
    decide
  exact h

theorem exactlyPlanned_2400 :
    ExactlyPlanned zeroPlatform oneNumber (yenPayment (.number ()))
      (evaluatePosEthereumPayment zeroPlatform oneNumber (yenPayment (.number ())) 0) := by
  have hamount : HasAmount zeroPlatform (yenPayment (.number ())) := trivial
  refine (exactlyPlanned_iff oneNumber_documented (by decide +kernel) hamount).2
    ⟨?_, fun _ => ?_⟩
  · rw [yenPayment_decimals]
    exact ⟨2400, by rw [pow_zero, mul_one]; exact oneNumber_decimal⟩
  · refine ⟨(), rfl, by decide, ?_⟩
    rw [yenPayment_decimals, pow_zero, mul_one]
    change (⌊decimal (js "2400")⌋₊ : ℚ) = decimal (js "2400")
    rw [oneNumber_decimal]
    norm_num

/-- A yen and a half is accepted, and one yen is planned. -/
theorem exactlyPlanned_cut :
    (evaluatePosEthereumPayment zeroPlatform oneNumber (yenPayment (.text (js "1.5"))) 0).accepted
      ∧ (evaluatePosEthereumPayment zeroPlatform oneNumber (yenPayment (.text (js "1.5")))
          0).txPlan.map (fun plan => plan.publicArguments.amount) = some (some (js "1"))
      ∧ ¬ ExactlyPlanned zeroPlatform oneNumber (yenPayment (.text (js "1.5")))
        (evaluatePosEthereumPayment zeroPlatform oneNumber (yenPayment (.text (js "1.5"))) 0) := by
  refine ⟨by decide +kernel, by decide +kernel, fun h => ?_⟩
  obtain ⟨n, hn⟩ := h.1
  have hplain : IsPlain (js "1.5") (js "1") (js "5") :=
    isPlain_of_split (by decide) (by decide) (by decide) (.inr (by decide))
  have hnamed : namedAmount zeroPlatform oneNumber (yenPayment (.text (js "1.5"))).amount
      = decimal (js "1.5") := congrArg decimal (by decide)
  have h1 : digits (js "1") = [1] := by decide
  have h5 : digits (js "5") = [5] := by decide
  rw [yenPayment_decimals, hnamed, hplain.decimal, h1, h5, pow_zero, mul_one] at hn
  norm_num [Decimal.value, Decimal.numeral, Nat.ofDigits] at hn
  have h3 : (3 : ℚ) = (2 * n : ℕ) := by
    push_cast
    linarith
  have : 3 = 2 * n := by exact_mod_cast h3
  omega

end Agid.EthereumPayment
