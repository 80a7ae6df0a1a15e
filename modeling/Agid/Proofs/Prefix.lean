import Agid.Prefix

/-!
# The prefix and the calls before it

The cache never changes the prefix of a code with a fixed one, an ocean's or a country's
(`generatePrefix_inv`).  Any other prefix depends on the history: a land code keeps the digits of
the first name it came with, and a sea code moves past the prefix another sea code took.
-/

namespace Agid

theorem cacheKey_inj {code code' : JsString} {isSea isSea' : Bool}
    (h : cacheKey code isSea = cacheKey code' isSea') : code = code' ∧ isSea = isSea' := by
  have hne : ∀ c c' : JsString, c ++ js "_" ++ js "true" ≠ c' ++ js "_" ++ js "false" := by
    intro c c' h
    have h5 : c ++ (js "_" ++ js "true") = (c' ++ js "_") ++ js "false" := by
      rw [← List.append_assoc]
      exact h
    exact absurd (List.append_inj' h5 rfl).2 (by decide)
  cases isSea <;> cases isSea'
  · exact ⟨List.append_cancel_right (List.append_cancel_right h), rfl⟩
  · exact absurd h.symm (hne _ _)
  · exact absurd h (hne _ _)
  · exact ⟨List.append_cancel_right (List.append_cancel_right h), rfl⟩

/-! ## The two characters -/

theorem textAt_NUMBERS_inj {i j : ℕ} (hi : i < 10) (hj : j < 10)
    (h : textAt NUMBERS i = textAt NUMBERS j) : i = j := by
  have hall : ∀ a b : Fin 10, textAt NUMBERS (a : ℕ) = textAt NUMBERS (b : ℕ) → a = b := by decide
  exact congrArg Fin.val (hall ⟨i, hi⟩ ⟨j, hj⟩ h)

theorem textAt_LETTERS_inj {i j : ℕ} (hi : i < 22) (hj : j < 22)
    (h : textAt LETTERS i = textAt LETTERS j) : i = j := by
  have hall : ∀ a b : Fin 22, textAt LETTERS (a : ℕ) = textAt LETTERS (b : ℕ) → a = b := by decide
  exact congrArg Fin.val (hall ⟨i, hi⟩ ⟨j, hj⟩ h)

theorem textAt_NUMBERS_length {i : ℕ} (hi : i < 10) : (textAt NUMBERS i).length = 1 := by
  have hall : ∀ a : Fin 10, (textAt NUMBERS (a : ℕ)).length = 1 := by decide
  exact hall ⟨i, hi⟩

theorem textAt_LETTERS_length {i : ℕ} (hi : i < 22) : (textAt LETTERS i).length = 1 := by
  have hall : ∀ a : Fin 22, (textAt LETTERS (a : ℕ)).length = 1 := by decide
  exact hall ⟨i, hi⟩

theorem not_isTwoLetters_of_digit {i : ℕ} (hi : i < 10) {s t : JsString} :
    isTwoLetters (s ++ textAt NUMBERS i ++ t) = false := by
  have hall : ∀ a : Fin 10, ((textAt NUMBERS (a : ℕ)).all fun c => 65 ≤ c.val ∧ c.val ≤ 90) = false := by
    decide
  have h := hall ⟨i, hi⟩
  simp only at h
  simp only [isTwoLetters, List.all_append, h, Bool.and_false, Bool.false_and]

theorem get2CharPrefix_open (n : ℕ) : get2CharPrefix n .OPEN
    = textAt LETTERS (n % 220 / 10 : ℕ) ++ textAt NUMBERS (n % 10 : ℕ) := by
  have h : n % 220 % 10 = n % 10 := Nat.mod_mod_of_dvd n (by norm_num)
  rw [← h]
  rfl

theorem get2CharPrefix_coastal (n : ℕ) : get2CharPrefix n .COASTAL
    = textAt NUMBERS (n % 220 / 22 : ℕ) ++ textAt LETTERS (n % 22 : ℕ) := by
  have h : n % 220 % 22 = n % 22 := Nat.mod_mod_of_dvd n (by norm_num)
  rw [← h]
  rfl

theorem get2CharPrefix_mod (n : ℕ) {category : PrefixCategory} (hc : category ≠ .OTHER) :
    get2CharPrefix (n % 220 : ℕ) category = get2CharPrefix n category := by
  cases category with
  | OPEN =>
    rw [get2CharPrefix_open, get2CharPrefix_open, Nat.mod_mod,
      Nat.mod_mod_of_dvd n (by norm_num : 10 ∣ 220)]
  | COASTAL =>
    rw [get2CharPrefix_coastal, get2CharPrefix_coastal, Nat.mod_mod,
      Nat.mod_mod_of_dvd n (by norm_num : 22 ∣ 220)]
  | OTHER => exact absurd rfl hc

/-- A sea prefix has a digit. -/
theorem not_isTwoLetters_get2CharPrefix (n : ℕ) {category : PrefixCategory}
    (hc : category ≠ .OTHER) : isTwoLetters (get2CharPrefix n category) = false := by
  cases category with
  | OPEN =>
    rw [get2CharPrefix_open, ← List.append_nil (_ ++ _)]
    exact not_isTwoLetters_of_digit (Nat.mod_lt n (by norm_num))
  | COASTAL =>
    rw [get2CharPrefix_coastal, ← List.nil_append (textAt NUMBERS _)]
    exact not_isTwoLetters_of_digit (by omega)
  | OTHER => exact absurd rfl hc

theorem get2CharPrefix_succ_ne (n : ℕ) {category : PrefixCategory} (hc : category ≠ .OTHER) :
    get2CharPrefix n category ≠ get2CharPrefix (n + 1 : ℕ) category := by
  intro h
  cases category with
  | OPEN =>
    rw [get2CharPrefix_open, get2CharPrefix_open] at h
    have hlen : (textAt NUMBERS (n % 10 : ℕ)).length = (textAt NUMBERS ((n + 1) % 10 : ℕ)).length := by
      rw [textAt_NUMBERS_length (by omega), textAt_NUMBERS_length (by omega)]
    have := textAt_NUMBERS_inj (by omega) (by omega) (List.append_inj' h hlen).2
    omega
  | COASTAL =>
    rw [get2CharPrefix_coastal, get2CharPrefix_coastal] at h
    have hlen : (textAt LETTERS (n % 22 : ℕ)).length = (textAt LETTERS ((n + 1) % 22 : ℕ)).length := by
      rw [textAt_LETTERS_length (by omega), textAt_LETTERS_length (by omega)]
    have := textAt_LETTERS_inj (by omega) (by omega) (List.append_inj' h hlen).2
    omega
  | OTHER => exact absurd rfl hc

theorem get2CharPrefix_ne_nil (n : ℕ) {category : PrefixCategory} (hc : category ≠ .OTHER) :
    get2CharPrefix n category ≠ [] := by
  intro h
  have hlen := congrArg List.length h
  cases category with
  | OPEN =>
    rw [get2CharPrefix_open, List.length_append, textAt_NUMBERS_length (by omega)] at hlen
    simp at hlen
  | COASTAL =>
    rw [get2CharPrefix_coastal, List.length_append, textAt_LETTERS_length (by omega)] at hlen
    simp at hlen
  | OTHER => exact absurd rfl hc

/-! ## A code with a prefix of its own -/

theorem toInt32_of_lt {n : ℕ} (hn : n < 2 ^ 31) : toInt32 n = n := by
  rw [toInt32, BitVec.ofInt_natCast, BitVec.toInt_eq_toNat_of_lt] <;>
    rw [BitVec.toNat_ofNat, Nat.mod_eq_of_lt] <;> omega

theorem codeHash_single (u : CodeUnit) : codeHash [u] = u.val := by
  have hu := u.isLt
  have h0 : toInt32 (0 * 32) = 0 := rfl
  rw [codeHash, List.foldl_cons, List.foldl_nil, hashStep, h0, zero_sub, neg_zero, zero_add,
    toInt32_of_lt (by omega), abs_of_nonneg (by omega)]

theorem codeHash_nonneg (code : JsString) : 0 ≤ codeHash code := abs_nonneg _

theorem seaCategory_ne_other (code name : JsString) : seaCategory code name ≠ .OTHER := by
  unfold seaCategory
  simp only
  split_ifs <;> simp

theorem seaCategory_single (u : CodeUnit) {category : PrefixCategory} (hc : category ≠ .OTHER) :
    ∃ name, seaCategory [u] name = category := by
  have hO : (js "O_").isPrefixOf [u] = false := by simp [js, List.isPrefixOf]
  have hmap : (seaCodeMap.any fun e => includes [u] e.1) = false := by
    simp [seaCodeMap, includes, js, List.isPrefixOf]
  cases category with
  | OPEN =>
    refine ⟨[], ?_⟩
    rw [seaCategory, hO, hmap]
    decide
  | COASTAL =>
    refine ⟨js "Sea", ?_⟩
    rw [seaCategory, hO, hmap]
    decide
  | OTHER => exact absurd rfl hc

section Calls

variable (toUpperCase : JsString → JsString)

/-- The prefix of an ocean's code or of a country's. -/
def fixedPrefix (code : JsString) (isSea : Bool) : Option JsString :=
  if isSea then (seaCodeMap.find? fun e => includes code e.1).map Prod.snd
  else if (toUpperCase code ∈ countryCodes || code.length = 2) && isTwoLetters (toUpperCase code)
  then some (toUpperCase code) else none

variable {toUpperCase}

theorem fixedPrefix_ne_nil {code p : JsString} {isSea : Bool}
    (h : fixedPrefix toUpperCase code isSea = some p) : p ≠ [] := by
  unfold fixedPrefix at h
  split_ifs at h with hs hiso
  · obtain ⟨e, he, rfl⟩ := Option.map_eq_some_iff.1 h
    have hall : ∀ e ∈ seaCodeMap, e.2 ≠ [] := by decide
    exact hall e (List.mem_of_find?_eq_some he)
  · simp only [Option.some.injEq] at h
    subst h
    rintro hnil
    rw [hnil] at hiso
    simp [isTwoLetters] at hiso

/-- A cached prefix is returned as it is. -/
theorem generatePrefix_cached {cache : PrefixCache} {code name p : JsString} {isSea : Bool}
    (hp : p ≠ []) (h : cache.get? (cacheKey code isSea) = some p) :
    generatePrefix toUpperCase cache code isSea name = (p, cache) := by
  rw [generatePrefix, h]
  exact if_pos hp

theorem generatePrefix_fixed {cache : PrefixCache} {code name p : JsString} {isSea : Bool}
    (hf : fixedPrefix toUpperCase code isSea = some p)
    (h : cache.get? (cacheKey code isSea) = none) :
    generatePrefix toUpperCase cache code isSea name
      = (p, cache.set (cacheKey code isSea) p) := by
  unfold fixedPrefix at hf
  rw [generatePrefix, h]
  simp only [Option.getD_none, ne_eq, not_true_eq_false, if_false]
  split_ifs at hf with hs hiso
  · obtain ⟨e, he, rfl⟩ := Option.map_eq_some_iff.1 hf
    rw [if_pos hs, he]
  · simp only [Option.some.injEq] at hf
    subst hf
    rw [if_neg hs, if_pos hiso]

/-- A sea code without a fixed prefix gets the first free one from its hash on. -/
theorem generatePrefix_probe {cache : PrefixCache} {code name : JsString}
    (hf : fixedPrefix toUpperCase code true = none)
    (h : cache.get? (cacheKey code true) = none)
    (hp : ∃ n : ℕ, resolveCollision cache (codeHash code) (seaCategory code name) 50
      (get2CharPrefix (codeHash code) (seaCategory code name))
        = get2CharPrefix n (seaCategory code name)) :
    generatePrefix toUpperCase cache code true name
      = (resolveCollision cache (codeHash code) (seaCategory code name) 50
          (get2CharPrefix (codeHash code) (seaCategory code name)),
        cache.set (cacheKey code true)
          (resolveCollision cache (codeHash code) (seaCategory code name) 50
            (get2CharPrefix (codeHash code) (seaCategory code name)))) := by
  obtain ⟨n, hn⟩ := hp
  have hl := not_isTwoLetters_get2CharPrefix n (seaCategory_ne_other code name)
  have hfind : (seaCodeMap.find? fun e => includes code e.1) = none := by
    rw [fixedPrefix, if_pos rfl] at hf
    exact Option.map_eq_none_iff.1 hf
  rw [generatePrefix, h]
  simp only [Option.getD_none, ne_eq, not_true_eq_false, if_false, if_true, hfind, hn, hl,
    Bool.true_and, Bool.not_true, Bool.false_and, Bool.false_eq_true]

/-- The call has the same prefix after any two histories. -/
def PrefixStable (toUpperCase : JsString → JsString) (c : PrefixCall) : Prop :=
  ∀ history history' : List PrefixCall,
    prefixAfter toUpperCase history c = prefixAfter toUpperCase history' c

/-! ## Fixed prefixes -/

/-- No cached prefix differs from the fixed one of its code. -/
def KeepsFixed (toUpperCase : JsString → JsString) (cache : PrefixCache) : Prop :=
  ∀ code isSea p q, fixedPrefix toUpperCase code isSea = some p →
    cache.get? (cacheKey code isSea) = some q → q = p

variable (toUpperCase) in
/-- A call leaves the cache or writes its own prefix at its own key. -/
theorem generatePrefix_snd (cache : PrefixCache) (code name : JsString) (isSea : Bool) :
    (generatePrefix toUpperCase cache code isSea name).2 = cache
      ∨ (generatePrefix toUpperCase cache code isSea name).2
        = cache.set (cacheKey code isSea)
          (generatePrefix toUpperCase cache code isSea name).1 := by
  unfold generatePrefix
  simp only
  split
  · exact Or.inl rfl
  · split
    · split <;> exact Or.inr rfl
    · split <;> exact Or.inr rfl

theorem generatePrefix_fst_of_fixed {cache : PrefixCache} {code name p : JsString} {isSea : Bool}
    (hc : KeepsFixed toUpperCase cache) (hf : fixedPrefix toUpperCase code isSea = some p) :
    (generatePrefix toUpperCase cache code isSea name).1 = p := by
  rcases hq : cache.get? (cacheKey code isSea) with _ | q
  · rw [generatePrefix_fixed hf hq]
  · obtain rfl := hc _ _ _ _ hf hq
    rw [generatePrefix_cached (fixedPrefix_ne_nil hf) hq]

theorem generatePrefix_keepsFixed {cache : PrefixCache} (hc : KeepsFixed toUpperCase cache)
    (code name : JsString) (isSea : Bool) :
    KeepsFixed toUpperCase (generatePrefix toUpperCase cache code isSea name).2 := by
  rcases generatePrefix_snd toUpperCase cache code name isSea with h | h
  · rw [h]
    exact hc
  · rw [h]
    intro code' isSea' p q hf hq
    rw [Record.get?_set] at hq
    split_ifs at hq with hk
    · obtain ⟨rfl, rfl⟩ := cacheKey_inj hk
      simp only [Option.some.injEq] at hq
      exact hq.symm.trans (generatePrefix_fst_of_fixed hc hf)
    · exact hc _ _ _ _ hf hq

theorem foldl_keepsFixed : ∀ (history : List PrefixCall) {cache : PrefixCache},
    KeepsFixed toUpperCase cache → KeepsFixed toUpperCase (history.foldl
      (fun cache c => (generatePrefix toUpperCase cache c.code c.isSea c.name).2) cache)
  | [], _, hc => hc
  | c :: history, _, hc =>
    foldl_keepsFixed history (generatePrefix_keepsFixed hc c.code c.name c.isSea)

theorem prefixAfter_of_fixed {c : PrefixCall} {p : JsString}
    (hf : fixedPrefix toUpperCase c.code c.isSea = some p) (history : List PrefixCall) :
    prefixAfter toUpperCase history c = p :=
  generatePrefix_fst_of_fixed
    (foldl_keepsFixed history fun _ _ _ q _ hq => by simp at hq) hf

/-! ## Prefixes that depend on the history -/

theorem generatePrefix_digits {cache : PrefixCache} {code : JsString} (name : JsString)
    (hf : fixedPrefix toUpperCase code false = none)
    (h : cache.get? (cacheKey code false) = none) :
    generatePrefix toUpperCase cache code false name
      = (textAt NUMBERS ((hashData name code).tmod 10)
          ++ textAt NUMBERS ((tenthOrZero (hashData name code)).tmod 10),
        cache.set (cacheKey code false) (textAt NUMBERS ((hashData name code).tmod 10)
          ++ textAt NUMBERS ((tenthOrZero (hashData name code)).tmod 10))) := by
  have hiso : ¬ ((toUpperCase code ∈ countryCodes || code.length = 2)
      && isTwoLetters (toUpperCase code)) = true := by
    intro hiso
    rw [fixedPrefix, if_neg (by simp), if_pos hiso] at hf
    simp at hf
  rw [generatePrefix, h]
  simp only [Option.getD_none, ne_eq, not_true_eq_false, if_false, Bool.false_eq_true, hiso]

theorem foldl_units (s : JsString) : ∀ n : ℕ,
    s.foldl (fun (acc : ℤ) c => acc + c.val) n = ((n + (s.map Fin.val).sum : ℕ) : ℤ) := by
  induction s with
  | nil => intro n; simp
  | cons c s ih =>
    intro n
    rw [List.foldl_cons, ← Nat.cast_add, ih, List.map_cons, List.sum_cons, Nat.add_assoc]

theorem hashData_eq (name code : JsString) :
    hashData name code = (((name ++ code).map Fin.val).sum : ℕ) := by
  rw [hashData, show (0 : ℤ) = ((0 : ℕ) : ℤ) from rfl, foldl_units, Nat.zero_add]

/-- An exclamation mark more in the name moves the first digit. -/
theorem digits_ne (name code : JsString) (t t' : JsString) :
    textAt NUMBERS ((hashData name code).tmod 10) ++ t
      ≠ textAt NUMBERS ((hashData (name ++ js "!") code).tmod 10) ++ t' := by
  intro h
  have hsum : (((name ++ js "!") ++ code).map Fin.val).sum
      = ((name ++ code).map Fin.val).sum + 33 := by
    simp only [List.map_append, List.sum_append, show ((js "!").map Fin.val).sum = 33 from rfl]
    omega
  rw [hashData_eq, hashData_eq, hsum] at h
  generalize ((name ++ code).map Fin.val).sum = n at h
  change textAt NUMBERS (n % 10 : ℕ) ++ t = textAt NUMBERS ((n + 33) % 10 : ℕ) ++ t' at h
  have hlen : (textAt NUMBERS (n % 10 : ℕ)).length = (textAt NUMBERS ((n + 33) % 10 : ℕ)).length := by
    rw [textAt_NUMBERS_length (by omega), textAt_NUMBERS_length (by omega)]
  have := textAt_NUMBERS_inj (by omega) (by omega) (List.append_inj h hlen).1
  omega

theorem not_prefixStable_land {code name : JsString}
    (hf : fixedPrefix toUpperCase code false = none) :
    ¬ PrefixStable toUpperCase ⟨code, false, name⟩ := by
  intro h
  have h0 := generatePrefix_digits name hf (Record.get?_empty _)
  have h1 := generatePrefix_digits (name ++ js "!") hf (Record.get?_empty _)
  have hne : textAt NUMBERS ((hashData (name ++ js "!") code).tmod 10)
      ++ textAt NUMBERS ((tenthOrZero (hashData (name ++ js "!") code)).tmod 10) ≠ [] := by
    intro hnil
    rw [hashData_eq] at hnil
    have hone : (textAt NUMBERS ((((name ++ js "!") ++ code).map Fin.val).sum % 10 : ℕ)).length = 1 :=
      textAt_NUMBERS_length (by omega)
    have hlen := congrArg List.length (List.append_eq_nil_iff.1 hnil).1
    exact absurd (hone.symm.trans hlen) (by simp)
  have h2 := h [] [⟨code, false, name ++ js "!"⟩]
  simp only [prefixAfter, cacheAfter, List.foldl_nil, List.foldl_cons, h0, h1] at h2
  rw [generatePrefix_cached hne (Record.get?_set_self _ _ _)] at h2
  exact digits_ne name code _ _ h2

theorem resolveCollision_free {cache : PrefixCache} {hash : ℤ} {category : PrefixCategory}
    {pre : JsString} (h : pre ∉ cache.values) (left : ℕ) :
    resolveCollision cache hash category left pre = pre := by
  cases left with
  | zero => rfl
  | succ left => rw [resolveCollision, if_neg h]

/-- The hashes of a code of one unit take every value modulo 220, and more than once. -/
theorem exists_single (code : JsString) (n : ℕ) :
    ∃ u : CodeUnit, [u] ≠ code ∧ u.val % 220 = n % 220 := by
  have h1 : n % 220 < 65536 := by omega
  have h2 : n % 220 + 220 < 65536 := by omega
  by_cases hc : [(⟨n % 220, h1⟩ : CodeUnit)] = code
  · refine ⟨⟨n % 220 + 220, h2⟩, ?_, by simp⟩
    rw [← hc]
    simp
  · exact ⟨⟨n % 220, h1⟩, hc, by simp⟩

variable (toUpperCase) in
theorem fixedPrefix_single (u : CodeUnit) : fixedPrefix toUpperCase [u] true = none := by
  rw [fixedPrefix, if_pos rfl, Option.map_eq_none_iff]
  simp [seaCodeMap, includes, js, List.isPrefixOf]

theorem generatePrefix_first {code name : JsString} {n : ℕ} {category : PrefixCategory}
    (hf : fixedPrefix toUpperCase code true = none) (hcat : seaCategory code name = category)
    (hn : codeHash code = n) :
    generatePrefix toUpperCase .empty code true name
      = (get2CharPrefix n category, Record.empty.set (cacheKey code true) (get2CharPrefix n category)) := by
  have hfree : resolveCollision .empty n category 50 (get2CharPrefix n category)
      = get2CharPrefix n category := resolveCollision_free (by simp [Record.values, Record.empty]) 50
  rw [generatePrefix_probe hf (Record.get?_empty _) ⟨n, by rw [hn, hcat, hfree]⟩, hn, hcat, hfree]

theorem not_prefixStable_sea {code name : JsString}
    (hf : fixedPrefix toUpperCase code true = none) :
    ¬ PrefixStable toUpperCase ⟨code, true, name⟩ := by
  intro h
  obtain ⟨n, hn⟩ := Int.eq_ofNat_of_zero_le (codeHash_nonneg code)
  have hc := seaCategory_ne_other code name
  generalize hcat : seaCategory code name = category at hc
  -- another code of the category whose first prefix is the same
  obtain ⟨u, hu, hmod⟩ := exists_single code n
  obtain ⟨name', hcat'⟩ := seaCategory_single u hc
  have hpre : get2CharPrefix u.val category = get2CharPrefix n category := by
    rw [← get2CharPrefix_mod u.val hc, hmod, get2CharPrefix_mod n hc]
  have h0 := generatePrefix_first hf hcat hn
  have h1 := generatePrefix_first (fixedPrefix_single toUpperCase u) hcat'
    (codeHash_single u)
  rw [hpre] at h1
  -- after it the prefix is taken and the call moves on to the next one
  have hne : cacheKey [u] true ≠ cacheKey code true := fun he => hu (cacheKey_inj he).1
  have hvalues : (Record.empty.set (cacheKey [u] true) (get2CharPrefix n category)).values
      = [get2CharPrefix n category] := rfl
  have hmoved : resolveCollision (Record.empty.set (cacheKey [u] true) (get2CharPrefix n category))
      n category 50 (get2CharPrefix n category) = get2CharPrefix (n + 1 : ℕ) category := by
    rw [resolveCollision, if_pos (by rw [hvalues]; exact List.mem_singleton_self _)]
    refine resolveCollision_free ?_ 49
    rw [hvalues, List.mem_singleton]
    exact (get2CharPrefix_succ_ne n hc).symm
  have h2 := h [] [⟨[u], true, name'⟩]
  simp only [prefixAfter, cacheAfter, List.foldl_nil, List.foldl_cons, h0, h1] at h2
  rw [generatePrefix_probe hf (by rw [Record.get?_set_of_ne _ _ hne, Record.get?_empty])
    ⟨n + 1, by rw [hn, hcat, hmoved]⟩, hn, hcat, hmoved] at h2
  exact get2CharPrefix_succ_ne n hc h2

end Calls

/-- The calls whose prefix is a function of their arguments: the code of a sea names an ocean, and
any other code is a country's or has two characters, and is two letters in upper case. -/
theorem prefixStable_iff (toUpperCase : JsString → JsString) (c : PrefixCall) :
    PrefixStable toUpperCase c ↔
      if c.isSea then ∃ e ∈ seaCodeMap, includes c.code e.1
      else (toUpperCase c.code ∈ countryCodes ∨ c.code.length = 2)
        ∧ isTwoLetters (toUpperCase c.code) := by
  obtain ⟨code, isSea, name⟩ := c
  rcases hf : fixedPrefix toUpperCase code isSea with _ | p
  · have hns : ¬ PrefixStable toUpperCase ⟨code, isSea, name⟩ := by
      cases isSea with
      | true => exact not_prefixStable_sea hf
      | false => exact not_prefixStable_land hf
    refine iff_of_false hns ?_
    cases isSea with
    | true =>
      rw [fixedPrefix, if_pos rfl, Option.map_eq_none_iff, List.find?_eq_none] at hf
      rintro ⟨e, he, hi⟩
      exact hf e he hi
    | false => simpa [fixedPrefix] using hf
  · refine iff_of_true (fun history history' => ?_) ?_
    · rw [prefixAfter_of_fixed (c := ⟨code, isSea, name⟩) hf,
        prefixAfter_of_fixed (c := ⟨code, isSea, name⟩) hf]
    · cases isSea with
      | true =>
        rw [fixedPrefix, if_pos rfl] at hf
        obtain ⟨e, he, -⟩ := Option.map_eq_some_iff.1 hf
        have hi := List.find?_some he
        exact ⟨e, List.mem_of_find?_eq_some he, hi⟩
      | false =>
        rw [fixedPrefix, if_neg (by simp)] at hf
        split_ifs at hf with hiso
        simpa using hiso

/-- The Red Sea on a fresh client and on one that has looked up the Weddell Sea. -/
theorem redSea_not_prefixStable :
    ¬ PrefixStable (fun s => s) ⟨js "REDS", true, js "Red Sea"⟩ := by
  intro h
  exact absurd (h [] [⟨js "WEDD", true, js "Weddell Sea"⟩]) (by decide)

end Agid
