import Agid.Clock

/-!
# What a clock reads

Cleaning a key twice gives a key that cleaning leaves alone (`isKey_cleanKey_twice`), so the
clocks that `incrementClock` and `joinClocks` build up keep their keys however often they are
cleaned.  Such a clock reads as a function from replicas to counts: a join reads as the larger of
the two functions, and `compareClocks` compares the functions.
-/

namespace Agid.AddressOfflineCrdt

/-! ## Keys -/

/-- The keys that cleaning leaves alone. -/
structure IsKey (k : JsString) : Prop where
  ne_nil : k ≠ []
  units : ∀ c ∈ k, isKeyUnit c
  length : k.length ≤ 120
  head : k.head? ≠ some hyphen
  last : k.getLast? ≠ some hyphen

theorem isKey_localActor : IsKey localActor where
  ne_nil := by decide
  units := List.all_eq_true.1 (by decide : localActor.all isKeyUnit = true)
  length := by decide
  head := by decide
  last := by decide

theorem isKeyUnit_facts {c : CodeUnit} (h : isKeyUnit c) :
    c.val < 128 ∧ isWhiteSpace c = false ∧ isLineBreak c = false := by
  simp only [isKeyUnit, Bool.or_eq_true, Bool.and_eq_true, decide_eq_true_eq] at h
  refine ⟨by omega, ?_, ?_⟩
  · simp only [isWhiteSpace, Bool.or_eq_false_iff, Bool.and_eq_false_iff, decide_eq_false_iff_not,
      List.contains_eq_mem, List.mem_cons, List.not_mem_nil, or_false]
    omega
  · simp only [isLineBreak, Bool.or_eq_false_iff, decide_eq_false_iff_not]
    omega

theorem isKeyUnit_hyphen : isKeyUnit hyphen := by decide

theorem replaceRuns_of_forall {p : CodeUnit → Bool} (u : CodeUnit) :
    ∀ {s : JsString} (b : Bool), (∀ c ∈ s, p c = false) → replaceRuns p u b s = s
  | [], _, _ => rfl
  | c :: s, b, h => by
    rw [replaceRuns, if_neg (by simp [h c]), replaceRuns_of_forall u false fun d hd =>
      h d (List.mem_cons_of_mem c hd)]

theorem mem_replaceRuns {p : CodeUnit → Bool} {u c : CodeUnit} :
    ∀ {s : JsString} {b : Bool}, c ∈ replaceRuns p u b s → c = u ∨ p c = false
  | [], _, h => by simp [replaceRuns] at h
  | d :: s, b, h => by
    unfold replaceRuns at h
    split_ifs at h with hd hb
    · exact mem_replaceRuns h
    · rcases List.mem_cons.1 h with rfl | h
      · exact Or.inl rfl
      · exact mem_replaceRuns h
    · rcases List.mem_cons.1 h with rfl | h
      · exact Or.inr (by simpa using hd)
      · exact mem_replaceRuns h

theorem head?_rdropWhile {p : CodeUnit → Bool} {s : JsString} (h : s.rdropWhile p ≠ []) :
    (s.rdropWhile p).head? = s.head? := by
  obtain ⟨t, ht⟩ := List.rdropWhile_prefix p s
  generalize s.rdropWhile p = r at h ht
  subst ht
  cases r with
  | nil => exact absurd rfl h
  | cons c r => rfl

section Clean

variable (nfkc : Nfkc)

/-- On text of key units only the hyphens at the ends and the length are cleaned. -/
theorem cleanKey_of_units {s : JsString} (hs : ∀ c ∈ s, isKeyUnit c) (fallback : JsString) :
    cleanKey nfkc (some s) fallback
      = if ((s.dropWhile (· = hyphen)).rdropWhile (· = hyphen)).take 120 = [] then fallback
        else ((s.dropWhile (· = hyphen)).rdropWhile (· = hyphen)).take 120 := by
  have hn : nfkc.normalize s = s := nfkc.ascii s fun c hc => (isKeyUnit_facts (hs c hc)).1
  have hws : ∀ c ∈ s, isWhiteSpace c = false := fun c hc => (isKeyUnit_facts (hs c hc)).2.1
  have htrim : trim s = s := by
    have hd : s.dropWhile isWhiteSpace = s := by
      rw [List.dropWhile_eq_self_iff]
      intro hl
      simp [hws _ (List.getElem_mem hl)]
    rw [trim, hd, List.rdropWhile_eq_self_iff]
    intro hl
    simp [hws _ (List.getLast_mem hl)]
  have ht : cleanText nfkc (some s) fallback = s := by
    rw [cleanText, hn, htrim]
    exact replaceRuns_of_forall space false fun c hc => (isKeyUnit_facts (hs c hc)).2.2
  rw [cleanKey, ht, replaceRuns_of_forall hyphen false fun c hc => by simp [hs c hc]]

theorem cleanKey_of_isKey {k : JsString} (hk : IsKey k) (fallback : JsString) :
    cleanKey nfkc (some k) fallback = k := by
  have hd : k.dropWhile (· = hyphen) = k := by
    rw [List.dropWhile_eq_self_iff]
    intro hl
    have := hk.head
    rw [List.head?_eq_getElem?, List.getElem?_eq_getElem hl] at this
    simpa using this
  have hr : k.rdropWhile (· = hyphen) = k := by
    rw [List.rdropWhile_eq_self_iff]
    intro hl
    have := hk.last
    rw [List.getLast?_eq_some_getLast hl] at this
    simpa using this
  rw [cleanKey_of_units nfkc hk.units, hd, hr, List.take_of_length_le hk.length,
    if_neg hk.ne_nil]

/-- A cleaned key that is not the fallback's: only a cut at 120 units leaves a hyphen at its end. -/
theorem cleanKey_spec (value : Option JsString) (fallback : JsString) :
    cleanKey nfkc value fallback = fallback
      ∨ ((∀ c ∈ cleanKey nfkc value fallback, isKeyUnit c)
        ∧ (cleanKey nfkc value fallback).length ≤ 120
        ∧ (cleanKey nfkc value fallback) ≠ []
        ∧ (cleanKey nfkc value fallback).head? ≠ some hyphen) := by
  unfold cleanKey
  simp only
  generalize hu : replaceRuns (!isKeyUnit ·) hyphen false (cleanText nfkc value fallback) = u
  split_ifs with hnil
  · exact Or.inl rfl
  · refine Or.inr ⟨fun c hc => ?_, List.length_take_le _ _, hnil, ?_⟩
    · have hcu : c ∈ u := List.dropWhile_subset _
        ((List.rdropWhile_prefix _ _).subset (List.take_subset _ _ hc))
      rw [← hu] at hcu
      rcases mem_replaceRuns hcu with rfl | h
      · exact isKeyUnit_hyphen
      · simpa using h
    · have hr : (u.dropWhile (· = hyphen)).rdropWhile (· = hyphen) ≠ [] := fun h => hnil (by rw [h]; rfl)
      rw [List.head?_take, if_neg (by norm_num), head?_rdropWhile hr]
      have := List.head?_dropWhile_not (· = hyphen) u
      intro he
      rw [he] at this
      simp at this

theorem isKey_cleanKey_twice (value : Option JsString) {fallback : JsString}
    (hf : IsKey fallback) : IsKey (cleanKey nfkc (some (cleanKey nfkc value fallback)) fallback) := by
  rcases cleanKey_spec nfkc value fallback with h | ⟨hu, hlen, hne, hhead⟩
  · rw [h, cleanKey_of_isKey nfkc hf]
    exact hf
  · generalize cleanKey nfkc value fallback = k at hu hlen hne hhead
    have hd : k.dropWhile (· = hyphen) = k := by
      rw [List.dropWhile_eq_self_iff]
      intro hl
      rw [List.head?_eq_getElem?, List.getElem?_eq_getElem hl] at hhead
      simpa using hhead
    have hpre := List.rdropWhile_prefix (· = hyphen) k
    have hr : k.rdropWhile (· = hyphen) ≠ [] := by
      intro hnil
      rw [List.rdropWhile_eq_nil_iff] at hnil
      obtain ⟨c, l, rfl⟩ := List.exists_cons_of_ne_nil hne
      have := hnil c List.mem_cons_self
      simp_all
    rw [cleanKey_of_units nfkc hu, hd, List.take_of_length_le (hpre.length_le.trans hlen), if_neg hr]
    refine ⟨hr, fun c hc => hu c (hpre.subset hc), hpre.length_le.trans hlen, ?_, ?_⟩
    · rw [head?_rdropWhile hr]
      exact hhead
    · rw [List.getLast?_eq_some_getLast hr]
      have := List.rdropWhile_last_not (· = hyphen) k hr
      simpa using this

/-! ## Clocks -/

/-- The clock has keys that stay and reads as `g`. -/
structure Reads (c : Clock) (g : JsString → ℕ) : Prop where
  keys : ∀ a ∈ c.keys, IsKey a
  count : ∀ a, c.count a = g a

theorem Reads.eq {c : Clock} {g g' : JsString → ℕ} (h : Reads c g) (h' : Reads c g') : g = g' :=
  funext fun a => (h.count a).symm.trans (h'.count a)

theorem Reads.self {c : Clock} (h : ∀ a ∈ c.keys, IsKey a) : Reads c c.count := ⟨h, fun _ => rfl⟩

theorem mem_keys_of_count_pos {c : Clock} {a : JsString} (h : 0 < c.count a) : a ∈ c.keys := by
  rw [Record.mem_keys]
  rcases hg : c.get? a with _ | v
  · simp [Clock.count, hg] at h
  · exact ⟨v, rfl⟩

theorem reads_empty : Reads .empty 0 := ⟨fun a ha => by simp [Record.keys, Record.empty] at ha,
  fun _ => rfl⟩

theorem finiteCount_natCast (n : ℕ) : finiteCount (.finite n) = some n := by
  simp [finiteCount]

theorem get?_normalizeClock {c : Clock} (h : ∀ a ∈ c.keys, IsKey a) (a : JsString) :
    (normalizeClock nfkc (some c.raw)).get? a = c.get? a := by
  have hfold : normalizeClock nfkc (some c.raw)
      = c.entries.foldl (fun r e => r.set e.1 e.2) .empty := by
    rw [normalizeClock, Option.getD_some, Clock.raw, Record.map, List.foldl_map]
    refine List.foldl_ext _ _ _ fun r e he => ?_
    have hk := h e.1 (List.mem_map_of_mem he)
    simp only [finiteCount_natCast, cleanKey_of_isKey nfkc hk, ne_eq, hk.ne_nil,
      not_false_eq_true, if_true]
  rw [hfold, Record.get?_foldl_set (fun _ v => v) a _ c.nodup, show c.get? a
    = Record.lookup a c.entries from rfl]
  cases Record.lookup a c.entries <;> rfl

theorem keys_normalizeClock {c : Clock} (h : ∀ a ∈ c.keys, IsKey a) (a : JsString) :
    a ∈ (normalizeClock nfkc (some c.raw)).keys ↔ a ∈ c.keys := by
  rw [Record.mem_keys, Record.mem_keys]
  simp only [get?_normalizeClock nfkc h]

theorem reads_normalizeClock {c : Clock} {g : JsString → ℕ} (h : Reads c g) :
    Reads (normalizeClock nfkc (some c.raw)) g where
  keys a ha := h.keys a ((keys_normalizeClock nfkc h.keys a).1 ha)
  count a := by
    rw [← h.count a, Clock.count, get?_normalizeClock nfkc h.keys, Clock.count]

/-- What a clock that may be missing reads. -/
def ReadsOpt : Option Clock → (JsString → ℕ) → Prop
  | none, g => g = 0
  | some c, g => Reads c g

theorem ReadsOpt.normalizeClock {c : Option Clock} {g : JsString → ℕ} (h : ReadsOpt c g) :
    Reads (normalizeClock nfkc (c.map Clock.raw)) g := by
  cases c with
  | none =>
    obtain rfl := h
    exact reads_empty
  | some c => exact reads_normalizeClock nfkc h

theorem reads_joinClocks_opt {c d : Option Clock} {g g' : JsString → ℕ} (h : ReadsOpt c g)
    (h' : ReadsOpt d g') : Reads (joinClocks nfkc (c.map Clock.raw) (d.map Clock.raw)) (g ⊔ g') := by
  have hc := h.normalizeClock nfkc
  have hd := h'.normalizeClock nfkc
  unfold joinClocks
  simp only
  generalize normalizeClock nfkc (c.map Clock.raw) = l at hc ⊢
  generalize normalizeClock nfkc (d.map Clock.raw) = r at hd ⊢
  constructor
  · intro a ha
    obtain ⟨v, hv⟩ := Record.mem_keys.1 ha
    rw [Record.get?_foldl_set_key] at hv
    split_ifs at hv with hm
    · rcases List.mem_append.1 hm with hm | hm
      · exact hc.keys a hm
      · exact hd.keys a hm
    · simp at hv
  · intro a
    rw [Clock.count, Record.get?_foldl_set_key]
    split_ifs with hm
    · rw [Option.getD_some, hc.count, hd.count]
      rfl
    · rw [List.mem_append, not_or] at hm
      have h1 : l.count a = 0 := Nat.eq_zero_of_not_pos fun hp => hm.1 (mem_keys_of_count_pos hp)
      have h2 : r.count a = 0 := Nat.eq_zero_of_not_pos fun hp => hm.2 (mem_keys_of_count_pos hp)
      rw [hc.count] at h1
      rw [hd.count] at h2
      simp [h1, h2]

theorem reads_joinClocks {c d : Clock} {g g' : JsString → ℕ} (h : Reads c g) (h' : Reads d g') :
    Reads (joinClocks nfkc (some c.raw) (some d.raw)) (g ⊔ g') :=
  reads_joinClocks_opt nfkc (c := some c) (d := some d) h h'

theorem reads_incrementClock {c : Clock} {g : JsString → ℕ} (h : Reads c g) {actorId : JsString}
    (ha : IsKey (cleanKey nfkc (some actorId) localActor)) :
    Reads (incrementClock nfkc (some c.raw) actorId)
      (Function.update g (cleanKey nfkc (some actorId) localActor)
        (g (cleanKey nfkc (some actorId) localActor) + 1)) := by
  have hc := reads_normalizeClock nfkc h
  unfold incrementClock
  simp only
  generalize normalizeClock nfkc (some c.raw) = l at hc ⊢
  generalize cleanKey nfkc (some actorId) localActor = k at ha ⊢
  constructor
  · intro a hm
    obtain ⟨v, hv⟩ := Record.mem_keys.1 hm
    rw [Record.get?_set] at hv
    split_ifs at hv with hk
    · exact hk ▸ ha
    · exact hc.keys a (Record.mem_keys.2 ⟨v, hv⟩)
  · intro a
    rw [Clock.count, Record.get?_set]
    by_cases hk : k = a
    · subst hk
      simp [hc.count]
    · rw [if_neg hk, Function.update_of_ne (Ne.symm hk), ← hc.count a, Clock.count]

/-! ## Comparing clocks -/

theorem any_count_lt {c d : Clock} {l : List JsString} (hl : ∀ a ∈ d.keys, a ∈ l) :
    (l.any fun a => c.count a < d.count a) = true ↔ ¬ d.count ≤ c.count := by
  rw [List.any_eq_true, Pi.le_def]
  push Not
  constructor
  · rintro ⟨a, -, h⟩
    exact ⟨a, by simpa using h⟩
  · rintro ⟨a, h⟩
    exact ⟨a, hl a (mem_keys_of_count_pos (by omega)), by simpa using h⟩

/-- What two scans for a smaller and for a larger count decide. -/
theorem order_iff {less greater : Bool} {g g' : JsString → ℕ} (h1 : less = true ↔ ¬ g' ≤ g)
    (h2 : greater = true ↔ ¬ g ≤ g') {order : ClockOrder}
    (ho : order = if !less && !greater then .equal else if less && !greater then .before
      else if !less && greater then .after else .concurrent) :
    (order = .before ↔ g < g') ∧ (order = .after ↔ g' < g) ∧ (order = .equal ↔ g = g')
      ∧ (order = .concurrent ↔ ¬ g ≤ g' ∧ ¬ g' ≤ g) := by
  rw [ho, lt_iff_le_not_ge, lt_iff_le_not_ge, show g = g' ↔ g ≤ g' ∧ g' ≤ g from le_antisymm_iff]
  cases less <;> cases greater <;> simp_all

/-- Clocks compare as what they read once cleaned. -/
theorem compareClocks_iff (left right : Option RawClock) :
    let g := (normalizeClock nfkc left).count
    let g' := (normalizeClock nfkc right).count
    (compareClocks nfkc left right = .before ↔ g < g')
      ∧ (compareClocks nfkc left right = .after ↔ g' < g)
      ∧ (compareClocks nfkc left right = .equal ↔ g = g')
      ∧ (compareClocks nfkc left right = .concurrent ↔ ¬ g ≤ g' ∧ ¬ g' ≤ g) :=
  order_iff (any_count_lt fun _ => List.mem_append_right _)
    (any_count_lt fun _ => List.mem_append_left _) rfl

theorem compareClocks_eq {c d : Clock} {g g' : JsString → ℕ} (h : Reads c g) (h' : Reads d g') :
    (compareClocks nfkc (some c.raw) (some d.raw) = .before ↔ g < g')
      ∧ (compareClocks nfkc (some c.raw) (some d.raw) = .after ↔ g' < g)
      ∧ (compareClocks nfkc (some c.raw) (some d.raw) = .equal ↔ g = g')
      ∧ (compareClocks nfkc (some c.raw) (some d.raw) = .concurrent ↔ ¬ g ≤ g' ∧ ¬ g' ≤ g) := by
  have hc := funext (reads_normalizeClock nfkc h).count
  have hd := funext (reads_normalizeClock nfkc h').count
  have hiff := compareClocks_iff nfkc (some c.raw) (some d.raw)
  simp only [hc, hd] at hiff
  exact hiff

end Clean

end Agid.AddressOfflineCrdt
