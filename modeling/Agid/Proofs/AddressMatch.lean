import Agid.AddressMatch

/-!
# The distance and the confidence of a match

A row of `editDistance` holds the distances from the characters that were read to each beginning of
the right text, all from their ends (`nextRow_row`).  A normal text that is not empty has a token,
so nothing is divided by 0, and two different texts are at least one edit apart.
-/

namespace Agid.AddressMatch

open EditDistance

variable {chars : Characters} {a b : NormalizedAddress} {purpose : List Char}

/-! ## Rows -/

/-- The distances from a text to the beginnings of another, each read from its end. -/
def row (l right : List Char) : List ℕ :=
  (List.range (right.length + 1)).map fun j => distance l (right.take j).reverse

theorem getD_map_range (f : ℕ → ℕ) {n i : ℕ} (h : i < n) :
    ((List.range n).map f).getD i 0 = f i := by
  rw [List.getD_eq_getElem _ _ (by simpa using h), List.getElem_map, List.getElem_range]

theorem foldl_pushEntry (c : Char) (l right : List Char) : ∀ (rest done : List Char),
    right = done ++ rest →
      (rest.zipIdx done.length).foldl (pushEntry c (row l right))
        ((List.range (done.length + 1)).map fun j => distance (c :: l) (right.take j).reverse)
      = row (c :: l) right
  | [], done, h => by
    rw [List.append_nil] at h
    subst h
    rfl
  | b :: rest, done, h => by
    have hdone : right.take done.length = done := by rw [h, List.take_left]
    have htake : right.take (done.length + 1) = done ++ [b] := by
      rw [h, List.append_cons, List.take_left' (by simp)]
    have hlength : done.length + 1 < right.length + 1 := by
      rw [h, List.length_append, List.length_cons]
      omega
    have ih := foldl_pushEntry c l right rest (done ++ [b]) (by rw [h]; simp)
    rw [List.length_append, List.length_singleton, List.range_succ, List.map_append] at ih
    rw [List.zipIdx_cons, List.foldl_cons, pushEntry, getD_map_range _ (Nat.lt_succ_self _), row,
      getD_map_range _ hlength, getD_map_range _ (Nat.lt_of_succ_lt hlength), hdone, htake,
      List.reverse_append, List.reverse_singleton, List.singleton_append]
    rw [List.map_singleton, htake, List.reverse_append, List.reverse_singleton,
      List.singleton_append, distance_cons] at ih
    exact ih

theorem nextRow_row (c : Char) (l right : List Char) :
    nextRow right (row l right) (c, l.length) = row (c :: l) right := by
  have h := foldl_pushEntry c l right right [] rfl
  rw [List.length_nil, Nat.zero_add, List.range_one, List.map_singleton, List.take_zero,
    List.reverse_nil, distance_nil, List.length_cons] at h
  exact h

theorem foldl_nextRow (right : List Char) : ∀ rest done : List Char,
    (rest.zipIdx done.length).foldl (nextRow right) (row done.reverse right)
      = row (done ++ rest).reverse right
  | [], done => by rw [List.append_nil]; rfl
  | c :: rest, done => by
    have hrow := nextRow_row c done.reverse right
    have ih := foldl_nextRow right rest (done ++ [c])
    rw [List.length_reverse] at hrow
    rw [List.length_append, List.length_singleton, List.reverse_append, List.reverse_singleton,
      List.singleton_append, List.append_assoc, List.singleton_append] at ih
    rw [List.zipIdx_cons, List.foldl_cons, hrow, ih]

theorem row_nil (right : List Char) : row [] right = List.range (right.length + 1) := by
  refine (List.map_congr_left fun j hj => ?_).trans (List.map_id _)
  rw [distance_nil_left, List.length_reverse, List.length_take, id]
  exact min_eq_left (Nat.lt_succ_iff.1 (List.mem_range.1 hj))

theorem editDistance_eq (left right : List Char) :
    editDistance left right = distance left right := by
  have h := foldl_nextRow right left []
  rw [List.length_nil, List.reverse_nil, row_nil, List.nil_append] at h
  rw [editDistance, h, row, getD_map_range _ (Nat.lt_succ_self _), List.take_length,
    distance_reverse]

/-! ## Tokens -/

theorem not_isWhitespace_of_mem {text token : List Char} (h : token ∈ splitWhitespace text) :
    token ≠ [] ∧ ∀ c ∈ token, isWhitespace c = false := by
  obtain ⟨hmem, hne⟩ := List.mem_filter.1 h
  refine ⟨by simpa using hne, ?_⟩
  clear h hne
  induction text generalizing token with
  | nil =>
    rw [List.splitOnP_nil, List.mem_singleton] at hmem
    subst hmem
    exact fun c hc => absurd hc List.not_mem_nil
  | cons a text ih =>
    rw [List.splitOnP_cons_eq_if_modifyHead] at hmem
    split_ifs at hmem with ha
    · rcases List.mem_cons.1 hmem with rfl | hmem
      · exact fun c hc => absurd hc List.not_mem_nil
      · exact ih hmem
    · rcases hsplit : text.splitOnP isWhitespace with _ | ⟨first, others⟩
      · exact absurd hsplit (List.splitOnP_ne_nil _ _)
      · rw [hsplit, List.modifyHead_cons] at hmem
        rcases List.mem_cons.1 hmem with rfl | hmem
        · intro c hc
          rcases List.mem_cons.1 hc with rfl | hc
          · simpa using ha
          · exact ih (hsplit ▸ List.mem_cons_self) c hc
        · exact ih (hsplit ▸ List.mem_cons_of_mem _ hmem)

theorem splitWhitespace_ne_nil {text : List Char} {c : Char} (hc : c ∈ text)
    (hspace : isWhitespace c = false) : splitWhitespace text ≠ [] := by
  suffices ∃ token ∈ text.splitOnP isWhitespace, token ≠ [] by
    obtain ⟨token, hmem, hne⟩ := this
    exact List.ne_nil_of_mem (List.mem_filter.2 ⟨hmem, by simpa using hne⟩)
  induction text with
  | nil => exact absurd hc List.not_mem_nil
  | cons a text ih =>
    rw [List.splitOnP_cons_eq_if_modifyHead]
    rcases hsplit : text.splitOnP isWhitespace with _ | ⟨first, others⟩
    · exact absurd hsplit (List.splitOnP_ne_nil _ _)
    · split_ifs with ha
      · rcases List.mem_cons.1 hc with rfl | hc
        · rw [hspace] at ha
          cases ha
        · obtain ⟨token, hmem, hne⟩ := ih hc
          exact ⟨token, List.mem_cons_of_mem _ (hsplit ▸ hmem), hne⟩
      · exact ⟨a :: first, List.mem_cons_self, List.cons_ne_nil _ _⟩

theorem exists_canonicalAddressToken {token : List Char} (hne : token ≠ [])
    (h : ∀ c ∈ token, isWhitespace c = false) :
    ∃ c ∈ canonicalAddressToken token, isWhitespace c = false := by
  unfold canonicalAddressToken
  split_ifs
  · exact ⟨'a', by decide, by decide⟩
  · exact ⟨'b', by decide, by decide⟩
  · exact ⟨'r', by decide, by decide⟩
  · exact ⟨'s', by decide, by decide⟩
  · obtain ⟨c, hc⟩ := List.exists_mem_of_ne_nil _ hne
    exact ⟨c, hc, h c hc⟩

theorem mem_join_cons {token : List Char} (tokens : List (List Char)) {c : Char}
    (hc : c ∈ token) : c ∈ join (token :: tokens) := by
  unfold join List.intercalate
  rcases tokens with _ | ⟨_, _⟩ <;> simp [hc]

/-- A normal text that is not empty has a token. -/
theorem splitWhitespace_normalize_ne_nil {input : List Char}
    (h : normalizeAddressMatchText chars input ≠ []) :
    splitWhitespace (normalizeAddressMatchText chars input) ≠ [] := by
  unfold normalizeAddressMatchText at h ⊢
  simp only at h ⊢
  rcases htokens : splitWhitespace (cleanText ((input.flatMap chars.to_lowercase).map
    fun character => if chars.is_alphanumeric character then character else ' '))
    with _ | ⟨token, tokens⟩
  · rw [htokens] at h
    exact absurd rfl h
  · obtain ⟨hne, hspace⟩ := not_isWhitespace_of_mem (htokens ▸ List.mem_cons_self)
    obtain ⟨c, hc, hblank⟩ := exists_canonicalAddressToken hne hspace
    rw [List.map_cons]
    exact splitWhitespace_ne_nil (mem_join_cons _ hc) hblank

/-! ## The confidence -/

theorem addressSimilarity_comm (left right : List Char) :
    addressSimilarity left right = addressSimilarity right left := by
  have hempty : (left = [] ∨ right = []) ↔ (right = [] ∨ left = []) := or_comm
  have hsame : left = right ↔ right = left := eq_comm
  unfold addressSimilarity
  simp only [hempty, hsame, editDistance_eq, distance_comm left right,
    Finset.inter_comm (splitWhitespace left).toFinset,
    add_comm (splitWhitespace left).toFinset.card, max_comm left.length]

theorem quotient_of_pos {a b : ℚ} (h : 0 < b) : quotient a b = some (a / b) := if_neg h.ne'

theorem clamp_eq_self {x : ℚ} (h : 0 ≤ x) (h' : x ≤ 1) : clamp x = x := by
  rw [clamp, min_eq_left h', max_eq_right h]

theorem card_inter_le {α : Type} [DecidableEq α] (s t : Finset α) :
    2 * (s ∩ t).card ≤ s.card + t.card := by
  have := Finset.card_le_card (Finset.inter_subset_left : s ∩ t ⊆ s)
  have := Finset.card_le_card (Finset.inter_subset_right : s ∩ t ⊆ t)
  omega

/-- The similarity of two different texts is a number below 1 where one has a token. -/
theorem addressSimilarity_of_ne {left right : List Char} (hleft : splitWhitespace left ≠ [])
    (hne : left ≠ right) (hl : left ≠ []) (hr : right ≠ []) :
    ∃ c, addressSimilarity left right = some c ∧ 0 ≤ c ∧ c < 1 := by
  have htokens : 0 < (splitWhitespace left).toFinset.card :=
    Finset.card_pos.2 (List.toFinset_nonempty_iff _ |>.2 hleft)
  have hmax : 0 < max left.length right.length :=
    lt_max_of_lt_left (List.length_pos_iff.2 hl)
  have hshared := card_inter_le (splitWhitespace left).toFinset (splitWhitespace right).toFinset
  have hpos : 0 < editDistance left right := by
    rw [editDistance_eq]
    exact Nat.pos_of_ne_zero fun h => hne (distance_eq_zero.1 h)
  have hle : editDistance left right ≤ max left.length right.length := by
    rw [editDistance_eq]
    exact distance_le_max left right
  obtain ⟨dice, hdice⟩ : ∃ dice : ℚ, dice = ((2 * ((splitWhitespace left).toFinset
      ∩ (splitWhitespace right).toFinset).card : ℕ) : ℚ)
        / ((splitWhitespace left).toFinset.card + (splitWhitespace right).toFinset.card : ℕ) :=
    ⟨_, rfl⟩
  obtain ⟨edits, hedits⟩ : ∃ edits : ℚ, edits = (editDistance left right : ℚ)
      / (max left.length right.length : ℕ) := ⟨_, rfl⟩
  have hdice0 : 0 ≤ dice := hdice ▸ div_nonneg (Nat.cast_nonneg _) (Nat.cast_nonneg _)
  have hdice1 : dice ≤ 1 := by
    rw [hdice]
    exact div_le_one_of_le₀ (Nat.cast_le.2 hshared) (Nat.cast_nonneg _)
  have hedits0 : 0 < edits := hedits ▸ div_pos (Nat.cast_pos.2 hpos) (Nat.cast_pos.2 hmax)
  have hedits1 : edits ≤ 1 := by
    rw [hedits]
    exact div_le_one_of_le₀ (Nat.cast_le.2 hle) (Nat.cast_nonneg _)
  have hvalue : addressSimilarity left right
      = some (clamp (dice * (4 / 10) + (1 - edits) * (6 / 10))) := by
    rw [addressSimilarity, if_neg (by simp [hl, hr]), if_neg hne]
    simp only
    rw [quotient_of_pos (Nat.cast_pos.2 (Nat.add_pos_left htokens _)),
      quotient_of_pos (Nat.cast_pos.2 hmax), ← hdice, ← hedits]
    rfl
  rw [clamp_eq_self (by linarith) (by linarith)] at hvalue
  exact ⟨_, hvalue, by linarith, by linarith⟩

/-! ## The match -/

theorem sameCountry_comm (a b : NormalizedAddress) : sameCountry a b = sameCountry b a := by
  have hsame : a.country = b.country ↔ b.country = a.country := eq_comm
  simp only [sameCountry, hsame, Bool.or_comm (decide (a.country = []))]

theorem addressMatch_comm (a b : NormalizedAddress) :
    addressMatch chars a b purpose = addressMatch chars b a purpose := by
  simp only [addressMatch, sameCountry_comm a b, addressSimilarity_comm
    (normalizeAddressMatchText chars a.normalizedText)]
  simp only [Bool.and_comm (decide (normalizeAddressMatchText chars a.normalizedText ≠ []))]

variable (chars) in
theorem addressSimilarity_normalize (input input' : List Char) :
    ∃ c, addressSimilarity (normalizeAddressMatchText chars input)
        (normalizeAddressMatchText chars input') = some c ∧ 0 ≤ c ∧ c ≤ 1
      ∧ (c = 1 ↔ normalizeAddressMatchText chars input ≠ []
        ∧ normalizeAddressMatchText chars input = normalizeAddressMatchText chars input') := by
  by_cases hl : normalizeAddressMatchText chars input = []
  · exact ⟨0, if_pos (.inl hl), le_rfl, zero_le_one, by simp [hl]⟩
  by_cases hr : normalizeAddressMatchText chars input' = []
  · refine ⟨0, if_pos (.inr hr), le_rfl, zero_le_one, iff_of_false zero_ne_one ?_⟩
    exact fun h => hl (h.2.trans hr)
  by_cases hne : normalizeAddressMatchText chars input = normalizeAddressMatchText chars input'
  · refine ⟨1, ?_, zero_le_one, le_rfl, iff_of_true rfl ⟨hl, hne⟩⟩
    rw [addressSimilarity, if_neg (by simp [hl, hr]), if_pos hne]
  · obtain ⟨c, hc, h0, h1⟩ :=
      addressSimilarity_of_ne (splitWhitespace_normalize_ne_nil hl) hne hl hr
    exact ⟨c, hc, h0, h1.le, iff_of_false h1.ne fun h => hne h.2⟩

/-- The distance is the least number of edits, and every match is sound. -/
theorem sound_addressMatch (chars : Characters) :
    (∀ left right : List Char, IsLeast {n | Edits n left right} (editDistance left right))
      ∧ ∀ (a b : NormalizedAddress) (purpose : List Char), Sound chars a b purpose := by
  refine ⟨fun left right => ?_, fun a b purpose => ⟨addressMatch_comm a b, ?_⟩⟩
  · rw [editDistance_eq]
    exact distance_isLeast left right
  · obtain ⟨c, hc, h0, h1, hone⟩ :=
      addressSimilarity_normalize chars a.normalizedText b.normalizedText
    by_cases hcountry : sameCountry a b = true
    · refine ⟨c, ?_, h0, h1, ?_⟩
      · rw [addressMatch, if_pos hcountry]
        exact hc
      · simpa [hcountry] using hone
    · refine ⟨0, ?_, le_rfl, zero_le_one, ?_⟩
      · rw [addressMatch, if_neg hcountry]
      · exact iff_of_false zero_ne_one fun h => hcountry h.1

def asciiCharacters : Characters where
  to_lowercase c := [c.toLower]
  is_alphanumeric := Char.isAlphanum

def japaneseAddress : NormalizedAddress := ⟨"a".toList, "JP".toList⟩

def americanAddress : NormalizedAddress := ⟨"a".toList, "US".toList⟩

/-- One normal text, in two countries. -/
theorem addressMatch_countries :
    normalizeAddressMatchText asciiCharacters japaneseAddress.normalizedText
        = normalizeAddressMatchText asciiCharacters americanAddress.normalizedText
      ∧ normalizeAddressMatchText asciiCharacters japaneseAddress.normalizedText ≠ []
      ∧ (addressMatch asciiCharacters japaneseAddress americanAddress []).confidence = some 0 := by
  refine ⟨rfl, by decide, ?_⟩
  rw [addressMatch, if_neg (by decide)]

end Agid.AddressMatch
