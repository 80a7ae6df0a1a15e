import Agid.Lib.GreedySelection
import Agid.PostalCodeEngine

/-!
# Codes of virtual localities

At one code length the search keeps codes greedily (`step_at`), until it has enough of them or
refuses a candidate after its last attempt and goes on with longer codes.  It does neither where all
further candidates are codes that it has, and then it never ends (`ends_iff_not_starves`).
-/

namespace Agid.PostalCode

open Greedy

namespace Search

variable {search : Search}

/-! ## Distances -/

theorem hammingDistance_eq_zero : ∀ {left right : JsString},
    hammingDistance left right = 0 → left = right
  | [], right, h => by
    rw [hammingDistance] at h
    exact (List.length_eq_zero_iff.1 h).symm
  | c :: left, [], h => by simp [hammingDistance] at h
  | c :: left, d :: right, h => by
    rw [hammingDistance] at h
    split_ifs at h with hne
    · omega
    · rw [not_not.1 hne, hammingDistance_eq_zero (by omega : hammingDistance left right = 0)]

theorem hammingDistance_self : ∀ s : JsString, hammingDistance s s = 0
  | [] => rfl
  | c :: s => by rw [hammingDistance, if_neg (by simp), zero_add, hammingDistance_self s]

/-! ## One code length -/

variable (search)

/-- The codes that are gathered in so many attempts at a code length. -/
def gathered (codeLength attempt : ℕ) : List JsString :=
  kept (search.candidate codeLength) search.pairwiseOk attempt

/-- An attempt gives a new candidate that is too near to a code. -/
def TooNear (codeLength attempt : ℕ) : Prop :=
  Refused (search.candidate codeLength) search.pairwiseOk attempt

/-- The state after so many attempts at a code length. -/
def at_ (codeLength attempt : ℕ) : SearchState where
  codeLength
  attempt
  codes := search.gathered codeLength attempt

/-- The search ends from a state on. -/
def Ends (state : SearchState) : Prop := ∃ rounds result, search.run rounds state = some result

variable {search}

theorem ends_of_not_goesOn {state : SearchState} (h : search.goesOn state = false) :
    search.Ends state :=
  ⟨0, state, by rw [run, if_neg (by rw [h]; exact Bool.false_ne_true)]⟩

theorem ends_step_iff {state : SearchState} (h : search.goesOn state = true) :
    search.Ends (search.step state) ↔ search.Ends state := by
  constructor
  · rintro ⟨rounds, result, hrun⟩
    exact ⟨rounds + 1, result, by rw [run, if_pos h, hrun]⟩
  · rintro ⟨rounds, result, hrun⟩
    rcases rounds with _ | rounds
    · rw [run, if_pos h] at hrun
      cases hrun
    · rw [run, if_pos h] at hrun
      exact ⟨rounds, result, hrun⟩

/-! ## One round -/

section Step

variable {codeLength attempt : ℕ} {codes : List JsString}

theorem step_of_mem (h : search.candidate codeLength attempt ∈ codes) :
    search.step ⟨codeLength, attempt, codes⟩ = ⟨codeLength, attempt + 1, codes⟩ := by
  unfold step
  exact if_pos (List.contains_iff_mem.2 h)

theorem step_of_ok (hnew : search.candidate codeLength attempt ∉ codes)
    (hok : search.pairwiseOk codes (search.candidate codeLength attempt) = true) :
    search.step ⟨codeLength, attempt, codes⟩
      = ⟨codeLength, attempt + 1, codes ++ [search.candidate codeLength attempt]⟩ := by
  unfold step
  dsimp only
  rw [if_neg fun h => hnew (List.contains_iff_mem.1 h), if_neg (by rw [hok]; simp)]

theorem step_of_refused (hnew : search.candidate codeLength attempt ∉ codes)
    (hrefused : search.pairwiseOk codes (search.candidate codeLength attempt) = false) :
    search.step ⟨codeLength, attempt, codes⟩
      = if search.attempts < attempt + 1 then ⟨codeLength + 1, 0, []⟩
        else ⟨codeLength, attempt + 1, codes⟩ := by
  unfold step
  dsimp only
  rw [if_neg fun h => hnew (List.contains_iff_mem.1 h), if_pos (by rw [hrefused]; rfl)]

/-- A candidate that is refused after the last attempt makes the codes longer. -/
theorem step_raise (hlate : search.attempts ≤ attempt)
    (hnear : search.TooNear codeLength attempt) :
    search.step (search.at_ codeLength attempt) = search.at_ (codeLength + 1) 0 := by
  rw [at_, gathered, step_of_refused hnear.1 hnear.2, if_pos (Nat.lt_succ_of_le hlate)]
  rfl

theorem step_next (h : search.attempts ≤ attempt → ¬ search.TooNear codeLength attempt) :
    search.step (search.at_ codeLength attempt) = search.at_ codeLength (attempt + 1) := by
  rw [at_, at_, gathered, gathered, kept]
  split_ifs with hmem hok
  · rw [step_of_mem hmem]
  · rw [step_of_ok hmem hok]
  · rw [Bool.not_eq_true] at hok
    have hfew : ¬ search.attempts < attempt + 1 :=
      fun hlt => h (Nat.le_of_lt_succ hlt) ⟨hmem, hok⟩
    rw [step_of_refused hmem hok, if_neg hfew]

end Step

/-! ## From one code length to the next -/

variable (search)

/-- The search goes on with longer codes: after its last attempt it refuses a candidate, with too
few codes. -/
def Raises (codeLength : ℕ) : Prop :=
  ∃ attempt, search.attempts ≤ attempt ∧ search.TooNear codeLength attempt
    ∧ (search.gathered codeLength attempt).length < search.count

/-- The search is stuck at a code length: with too few codes all further candidates are codes that
it has. -/
def Starved (codeLength : ℕ) : Prop :=
  ¬ search.Raises codeLength ∧ ∃ attempt,
    (search.gathered codeLength attempt).length < search.count
      ∧ ∀ later, attempt ≤ later →
          search.candidate codeLength later ∈ search.gathered codeLength attempt

/-- The search comes to a code length at which it is stuck. -/
def StarvesFrom (first : ℕ) : Prop :=
  ∃ codeLength, first ≤ codeLength ∧ codeLength ≤ search.longest
    ∧ (∀ shorter, first ≤ shorter → shorter < codeLength → search.Raises shorter)
    ∧ search.Starved codeLength

variable {search}

theorem goesOn_at {codeLength attempt : ℕ} :
    search.goesOn (search.at_ codeLength attempt) = true
      ↔ (search.gathered codeLength attempt).length < search.count
        ∧ codeLength ≤ search.longest := by
  rw [goesOn, at_, Bool.and_eq_true, decide_eq_true_eq, decide_eq_true_eq]

theorem gathered_length_mono {codeLength m n : ℕ} (h : m ≤ n) :
    (search.gathered codeLength m).length ≤ (search.gathered codeLength n).length :=
  length_kept_mono h

/-- As long as the search goes on at a code length it ends from there, or not at all. -/
theorem ends_at_iff {codeLength : ℕ} (hlongest : codeLength ≤ search.longest) :
    ∀ {attempt : ℕ},
      (∀ earlier, earlier < attempt →
        (search.gathered codeLength earlier).length < search.count
          ∧ (search.attempts ≤ earlier → ¬ search.TooNear codeLength earlier)) →
      (search.Ends (search.at_ codeLength attempt) ↔ search.Ends (search.at_ codeLength 0))
  | 0, _ => Iff.rfl
  | attempt + 1, h => by
    obtain ⟨hfew, hnear⟩ := h attempt (by omega)
    rw [← step_next hnear, ends_step_iff (goesOn_at.2 ⟨hfew, hlongest⟩),
      ends_at_iff hlongest fun earlier hearlier => h earlier (by omega)]

theorem ends_of_raises {codeLength : ℕ} (hlongest : codeLength ≤ search.longest)
    (h : search.Raises codeLength) :
    search.Ends (search.at_ (codeLength + 1) 0) ↔ search.Ends (search.at_ codeLength 0) := by
  classical
  have hfirst := Nat.find_spec h
  obtain ⟨hlate, hnear, hfew⟩ := hfirst
  have hearlier : ∀ earlier, earlier < Nat.find h →
      (search.gathered codeLength earlier).length < search.count
        ∧ (search.attempts ≤ earlier → ¬ search.TooNear codeLength earlier) := by
    intro earlier hearlier
    have hfew' := (gathered_length_mono hearlier.le).trans_lt hfew
    exact ⟨hfew', fun hlate' hnear' => Nat.find_min h hearlier ⟨hlate', hnear', hfew'⟩⟩
  rw [← ends_at_iff hlongest hearlier, ← step_raise hlate hnear,
    ends_step_iff (goesOn_at.2 ⟨hfew, hlongest⟩)]

/-- A search that is not stuck at a code length gathers enough codes there, or goes on. -/
theorem fills_of_not_starved {codeLength : ℕ} (hraises : ¬ search.Raises codeLength)
    (hstarved : ¬ search.Starved codeLength) :
    ∃ attempt, search.count ≤ (search.gathered codeLength attempt).length := by
  by_contra hnone
  push Not at hnone
  have hrefused : ∀ attempt, search.attempts ≤ attempt → ¬ search.TooNear codeLength attempt :=
    fun attempt hlate hnear => hraises ⟨attempt, hlate, hnear, hnone attempt⟩
  obtain ⟨attempt, hrepeats⟩ := exists_repeats hnone hrefused
  exact hstarved ⟨hraises, attempt, hnone attempt, hrepeats⟩

theorem ends_of_fills {codeLength : ℕ} (hlongest : codeLength ≤ search.longest)
    (hraises : ¬ search.Raises codeLength)
    (h : ∃ attempt, search.count ≤ (search.gathered codeLength attempt).length) :
    search.Ends (search.at_ codeLength 0) := by
  classical
  have hfew : ∀ earlier, earlier < Nat.find h →
      (search.gathered codeLength earlier).length < search.count :=
    fun earlier hearlier => not_le.1 (Nat.find_min h hearlier)
  rw [← ends_at_iff hlongest fun earlier hearlier => ⟨hfew earlier hearlier, fun hlate hnear =>
    hraises ⟨earlier, hlate, hnear, hfew earlier hearlier⟩⟩]
  refine ends_of_not_goesOn ?_
  rw [← Bool.not_eq_true, goesOn_at]
  have := Nat.find_spec h
  omega

theorem not_ends_of_goesOn {codeLength : ℕ}
    (h : ∀ attempt, search.goesOn (search.at_ codeLength attempt) = true
      ∧ (search.attempts ≤ attempt → ¬ search.TooNear codeLength attempt)) :
    ¬ search.Ends (search.at_ codeLength 0) := by
  have hnone : ∀ rounds attempt, search.run rounds (search.at_ codeLength attempt) = none := by
    intro rounds
    induction rounds with
    | zero =>
      intro attempt
      rw [run, if_pos (h attempt).1]
    | succ rounds ih =>
      intro attempt
      rw [run, if_pos (h attempt).1, step_next (h attempt).2, ih]
  rintro ⟨rounds, result, hrun⟩
  rw [hnone] at hrun
  cases hrun

theorem not_ends_of_starved {codeLength : ℕ} (hlongest : codeLength ≤ search.longest)
    (h : search.Starved codeLength) : ¬ search.Ends (search.at_ codeLength 0) := by
  obtain ⟨hraises, attempt, hfew, hrepeats⟩ := h
  have hshort (other : ℕ) : (search.gathered codeLength other).length < search.count := by
    rcases le_total attempt other with hle | hle
    · exact (congrArg List.length (kept_of_repeats hrepeats hle)).trans_lt hfew
    · exact (gathered_length_mono hle).trans_lt hfew
  exact not_ends_of_goesOn fun other => ⟨goesOn_at.2 ⟨hshort other, hlongest⟩,
    fun hlate hnear => hraises ⟨other, hlate, hnear, hshort other⟩⟩

theorem ends_of_not_starvesFrom : ∀ {first : ℕ}, ¬ search.StarvesFrom first →
    search.Ends (search.at_ first 0) := by
  suffices h : ∀ left first : ℕ, search.longest + 1 - first = left → ¬ search.StarvesFrom first →
      search.Ends (search.at_ first 0) from fun {first} => h _ first rfl
  intro left
  induction left with
  | zero =>
    intro first hleft _
    refine ends_of_not_goesOn ?_
    rw [← Bool.not_eq_true, goesOn_at]
    omega
  | succ left ih =>
    intro first hleft hstarves
    have hlongest : first ≤ search.longest := by omega
    by_cases hraises : search.Raises first
    · rw [← ends_of_raises hlongest hraises]
      refine ih (first + 1) (by omega) ?_
      rintro ⟨codeLength, hfirst, hlong, hshorter, hstarved⟩
      refine hstarves ⟨codeLength, by omega, hlong, fun shorter hle hlt => ?_, hstarved⟩
      rcases hle.eq_or_lt with rfl | hlt'
      · exact hraises
      · exact hshorter shorter hlt' hlt
    · refine ends_of_fills hlongest hraises (fills_of_not_starved hraises fun hstarved => ?_)
      exact hstarves ⟨first, le_rfl, hlongest, fun shorter hle hlt => by omega, hstarved⟩

theorem not_ends_of_starvesFrom {first : ℕ} (h : search.StarvesFrom first) :
    ¬ search.Ends (search.at_ first 0) := by
  obtain ⟨codeLength, hfirst, hlongest, hshorter, hstarved⟩ := h
  have hreach : search.Ends (search.at_ codeLength 0) ↔ search.Ends (search.at_ first 0) := by
    clear hstarved
    induction codeLength, hfirst using Nat.le_induction with
    | base => exact Iff.rfl
    | succ codeLength hfirst ih =>
      rw [ends_of_raises (by omega) (hshorter codeLength hfirst (by omega)),
        ih (by omega) fun shorter hle hlt => hshorter shorter hle (by omega)]
  rw [← hreach]
  exact not_ends_of_starved hlongest hstarved

theorem ends_iff_not_starves :
    search.Ends search.start ↔ ¬ search.StarvesFrom search.start.codeLength :=
  ⟨fun hends hstarves => not_ends_of_starvesFrom hstarves hends, ends_of_not_starvesFrom⟩

/-! ## The codes -/

/-- What holds of the codes in every round. -/
structure Sound (search : Search) (state : SearchState) : Prop where
  length : ∀ code ∈ state.codes, code.length = state.codeLength
  alphabet : ∀ code ∈ state.codes, ∀ char ∈ code, char ∈ search.alphabet
  apart : state.codes.Pairwise fun left right =>
    search.minHammingDistance ≤ hammingDistance left right

theorem length_tokenUnits : ∀ length cursor : ℕ, (tokenUnits length cursor).length = length
  | 0, _ => rfl
  | length + 1, cursor => by rw [tokenUnits, List.length_cons, length_tokenUnits]

theorem length_candidate (codeLength attempt : ℕ) :
    (search.candidate codeLength attempt).length = codeLength := by
  rw [candidate, List.length_map, stableAuditToken, length_tokenUnits]

theorem mem_alphabet_of_mem_candidate (hne : search.alphabet ≠ []) {codeLength attempt : ℕ}
    {char : CodeUnit} (h : char ∈ search.candidate codeLength attempt) :
    char ∈ search.alphabet := by
  obtain ⟨unit, -, rfl⟩ := List.mem_map.1 h
  split_ifs with hin
  · exact List.contains_iff_mem.1 hin
  · have hlt := Nat.mod_lt unit.val (List.length_pos_of_ne_nil hne)
    rw [List.getD_eq_getElem _ _ hlt]
    exact List.getElem_mem hlt

theorem Sound.step (hne : search.alphabet ≠ []) {state : SearchState} (h : Sound search state) :
    Sound search (search.step state) := by
  obtain ⟨codeLength, attempt, codes⟩ := state
  by_cases hmem : search.candidate codeLength attempt ∈ codes
  · rw [step_of_mem hmem]
    exact ⟨h.length, h.alphabet, h.apart⟩
  · rcases hok : search.pairwiseOk codes (search.candidate codeLength attempt) with _ | _
    · rw [step_of_refused hmem hok]
      split_ifs
      · exact ⟨by simp, by simp, List.Pairwise.nil⟩
      · exact ⟨h.length, h.alphabet, h.apart⟩
    · rw [step_of_ok hmem hok]
      refine ⟨fun code hcode => ?_, fun code hcode => ?_, ?_⟩
      · rcases List.mem_append.1 hcode with hcode | hcode
        · exact h.length code hcode
        · rw [List.mem_singleton.1 hcode]
          exact length_candidate codeLength attempt
      · rcases List.mem_append.1 hcode with hcode | hcode
        · exact h.alphabet code hcode
        · rw [List.mem_singleton.1 hcode]
          exact fun char hchar => mem_alphabet_of_mem_candidate hne hchar
      · refine List.pairwise_append.2 ⟨h.apart, List.pairwise_singleton _ _, ?_⟩
        intro left hleft right hright
        rw [List.mem_singleton.1 hright]
        exact of_decide_eq_true (List.all_eq_true.1 hok left hleft)

theorem Sound.run (hne : search.alphabet ≠ []) : ∀ {rounds : ℕ} {state result : SearchState},
    Sound search state → search.run rounds state = some result → Sound search result
  | 0, state, result, h, hrun => by
    rw [Search.run] at hrun
    split_ifs at hrun
    obtain rfl := Option.some.inj hrun
    exact h
  | rounds + 1, state, result, h, hrun => by
    rw [Search.run] at hrun
    split_ifs at hrun
    · exact Sound.run hne (h.step hne) hrun
    · obtain rfl := Option.some.inj hrun
      exact h

/-- Codes at a distance of at least one are different. -/
theorem Sound.nodup {state : SearchState} (h : Sound search state)
    (hdistance : 1 ≤ search.minHammingDistance) : state.codes.Nodup := by
  refine h.apart.imp fun {left right} hapart heq => ?_
  rw [heq, hammingDistance_self] at hapart
  omega

/-- Where different codes are far enough apart, none is refused. -/
theorem not_tooNear (hdistance : search.minHammingDistance ≤ 1) (codeLength attempt : ℕ) :
    ¬ search.TooNear codeLength attempt := by
  rintro ⟨hnew, hrefused⟩
  obtain ⟨code, hcode, hnear⟩ := List.all_eq_false.1 hrefused
  rw [decide_eq_true_eq, not_le] at hnear
  have hzero : hammingDistance code (search.candidate codeLength attempt) = 0 := by omega
  exact hnew (hammingDistance_eq_zero hzero ▸ hcode)

theorem Sound.gathered (hne : search.alphabet ≠ []) (hdistance : search.minHammingDistance ≤ 1)
    (codeLength : ℕ) : ∀ attempt, Sound search (search.at_ codeLength attempt)
  | 0 => ⟨by simp [at_, Search.gathered, kept], by simp [at_, Search.gathered, kept],
      List.Pairwise.nil⟩
  | attempt + 1 => by
    rw [← step_next fun _ => not_tooNear hdistance codeLength attempt]
    exact (Sound.gathered hne hdistance codeLength attempt).step hne

/-- All codes of a length. -/
def words (alphabet : JsString) : ℕ → List JsString
  | 0 => [[]]
  | length + 1 => alphabet.flatMap fun char => (words alphabet length).map (char :: ·)

theorem length_words (alphabet : JsString) :
    ∀ length, (words alphabet length).length = alphabet.length ^ length
  | 0 => rfl
  | length + 1 => by
    rw [words, List.length_flatMap]
    simp only [List.length_map, length_words alphabet length, List.map_const', List.sum_replicate,
      smul_eq_mul]
    rw [pow_succ, mul_comm]

theorem mem_words {alphabet : JsString} : ∀ {code : JsString},
    (∀ char ∈ code, char ∈ alphabet) → code ∈ words alphabet code.length
  | [], _ => by simp [words]
  | char :: code, h => by
    rw [List.length_cons, words, List.mem_flatMap]
    exact ⟨char, h char (by simp), List.mem_map_of_mem
      (mem_words fun other hother => h other (List.mem_cons_of_mem _ hother))⟩

/-- There are not enough different codes of the first length, and none of them is refused. -/
theorem not_ends_of_few (hne : search.alphabet ≠ []) (hone : search.minHammingDistance = 1)
    (hlongest : search.start.codeLength ≤ search.longest)
    (hfew : search.alphabet.length ^ search.start.codeLength < search.count) :
    ¬ search.Ends search.start := by
  refine not_ends_of_goesOn fun attempt => ⟨goesOn_at.2 ⟨?_, hlongest⟩,
    fun _ => not_tooNear hone.le search.start.codeLength attempt⟩
  have hsound := Sound.gathered hne hone.le search.start.codeLength attempt
  have hsub : search.gathered search.start.codeLength attempt
      ⊆ words search.alphabet search.start.codeLength := by
    intro code hcode
    rw [← show code.length = search.start.codeLength from hsound.length code hcode]
    exact mem_words (hsound.alphabet code hcode)
  have hle := ((hsound.nodup hone.ge).subperm hsub).length_le
  rw [length_words] at hle
  exact hle.trans_lt hfew

end Search

section Request

variable (toUpperCase : JsString → JsString)

theorem normalizedCodeAlphabet_ne_nil (value : Option JsString) :
    normalizedCodeAlphabet toUpperCase value ≠ [] := by
  rw [normalizedCodeAlphabet]
  split_ifs with h
  · intro hnil
    rw [hnil] at h
    exact absurd h (by decide)
  · decide

theorem one_le_atLeast {least : ℕ} (hleast : 1 ≤ least) (value : Option ℚ) (otherwise : ℚ) :
    1 ≤ atLeast least value otherwise := by
  rw [atLeast]
  omega

/-- The search of a request ends, with codes that are far enough apart, exactly where it is not
starved. -/
theorem generateAgidVirtualPostalLocalityCodes_iff (input : CodeSetInput) :
    (∃ rounds decision,
        generateAgidVirtualPostalLocalityCodes toUpperCase rounds input = some decision
          ∧ (∀ code ∈ decision.codes, code.length = decision.codeLength)
          ∧ (∀ code ∈ decision.codes, ∀ char ∈ code,
              char ∈ normalizedCodeAlphabet toUpperCase input.alphabet)
          ∧ decision.codes.Pairwise (fun left right =>
              atLeast 1 input.minHammingDistance 3 ≤ hammingDistance left right)
          ∧ decision.codes.Nodup)
      ↔ ¬ (input.search toUpperCase).StarvesFrom (input.search toUpperCase).start.codeLength := by
  rw [← Search.ends_iff_not_starves]
  constructor
  · rintro ⟨rounds, decision, hgenerate, -⟩
    obtain ⟨result, hrun, -⟩ := Option.map_eq_some_iff.1 hgenerate
    exact ⟨rounds, result, hrun⟩
  · rintro ⟨rounds, result, hrun⟩
    have hstart : Search.Sound (input.search toUpperCase) (input.search toUpperCase).start :=
      ⟨by simp [Search.start], by simp [Search.start], List.Pairwise.nil⟩
    have hsound := hstart.run (normalizedCodeAlphabet_ne_nil toUpperCase input.alphabet) hrun
    refine ⟨rounds,
      (input.search toUpperCase).decision (input.adjacentPairs.getD []) result, ?_,
      hsound.length, hsound.alphabet, hsound.apart,
      hsound.nodup (one_le_atLeast le_rfl input.minHammingDistance 3)⟩
    rw [generateAgidVirtualPostalLocalityCodes, hrun, Option.map_some]

end Request

/-! ## Three codes of one letter of two -/

def threeOfTwo : CodeSetInput where
  count := 3
  codeLength := some 1
  minHammingDistance := some 1
  adjacentPairs := none
  adjacentMinHammingDistance := none
  alphabet := some (js "AB")
  seed := some (js "x")

/-- There are only two codes of one letter, and the alphabet is in upper case. -/
theorem threeOfTwo_never_ends : ¬ ∃ rounds decision,
    generateAgidVirtualPostalLocalityCodes id rounds threeOfTwo = some decision := by
  rintro ⟨rounds, decision, hgenerate⟩
  obtain ⟨result, hrun, -⟩ := Option.map_eq_some_iff.1 hgenerate
  have hfew : ¬ (threeOfTwo.search id).Ends (threeOfTwo.search id).start :=
    Search.not_ends_of_few (by decide) (by decide) (by decide)
      (by decide)
  exact hfew ⟨rounds, result, hrun⟩

end Agid.PostalCode
