import Agid.ClockObjects
import Agid.Proofs.Clock

/-!
# The order of clocks as objects

A clock whose keys cleaning leaves alone, and no object inherits, reads as a function from
replicas to counts (`Tells`).  The clocks of such replicas compare as these functions, a join
tells their pointwise maximum, and counting up a replica adds one there, so they are a semilattice
(`semilattice_iff`).  With any other replica two of the laws fail: a name that is inherited is
never counted, and a key that cleaning changes again is lost when a join is read.
-/

namespace Agid.AddressOfflineCrdt

variable (nfkc : Nfkc)

/-! ## Keys -/

/-- A key that cleaning leaves alone and that no object inherits. -/
structure Good (k : JsString) : Prop where
  ne_nil : k ≠ []
  clean : cleanKey nfkc (some k) [] = k
  own : k ∉ objectPrototype

variable {nfkc}

theorem cleanKey_fallback (nfkc : Nfkc) (s fallback : JsString) :
    cleanKey nfkc (some s) fallback
      = if cleanKey nfkc (some s) [] = [] then fallback else cleanKey nfkc (some s) [] := by
  have ht : cleanText nfkc (some s) fallback = cleanText nfkc (some s) [] := rfl
  unfold cleanKey
  simp only [ht]
  split_ifs <;> simp_all

theorem good_localActor : Good nfkc localActor where
  ne_nil := isKey_localActor.ne_nil
  clean := cleanKey_of_isKey nfkc isKey_localActor []
  own := by decide

theorem Plain.good_key {actorId : JsString} (h : Plain nfkc actorId)
    (hk : cleanKey nfkc (some actorId) [] ≠ []) : Good nfkc (cleanKey nfkc (some actorId) []) := by
  rcases h with h | ⟨hclean, hown⟩
  · exact absurd h hk
  · exact ⟨hk, hclean, hown⟩

theorem Plain.good {actorId : JsString} (h : Plain nfkc actorId) :
    Good nfkc (cleanKey nfkc (some actorId) localActor) := by
  rw [cleanKey_fallback]
  split_ifs with hk
  · exact good_localActor
  · exact h.good_key hk

theorem proto_mem : js "__proto__" ∈ objectPrototype := by decide

theorem put_of_notMem {α : Type} {k : JsString} (hk : k ∉ objectPrototype) (r : Record JsString α)
    (v : α) : put r k v = r.set k v := by
  rw [put, if_neg]
  rintro rfl
  exact hk proto_mem

theorem slot_of_notMem {k : JsString} (hk : k ∉ objectPrototype) (c : Clock) :
    slot c k = some (c.count k) := by
  unfold slot Clock.count
  cases c.get? k with
  | some n => rfl
  | none => rw [if_neg hk]; rfl

/-! ## Normalizing -/

/-- The entries of the clock are under good keys. -/
def AllGood (nfkc : Nfkc) {α : Type} (c : Record JsString α) : Prop := ∀ k ∈ c.keys, Good nfkc k

theorem allGood_empty {α : Type} : AllGood nfkc (.empty : Record JsString α) :=
  fun k hk => by simp [Record.keys, Record.empty] at hk

theorem AllGood.set {α : Type} {c : Record JsString α} (h : AllGood nfkc c) {k : JsString}
    (hk : Good nfkc k) (v : α) : AllGood nfkc (c.set k v) := by
  intro a ha
  obtain ⟨w, hw⟩ := Record.mem_keys.1 ha
  rw [Record.get?_set] at hw
  split_ifs at hw with he
  · exact he ▸ hk
  · exact h a (Record.mem_keys.2 ⟨w, hw⟩)

theorem AllGood.count_eq_zero {c : Clock} (h : AllGood nfkc c) {k : JsString}
    (hk : ¬ Good nfkc k) : c.count k = 0 :=
  Nat.eq_zero_of_not_pos fun hp => hk (h k (mem_keys_of_count_pos hp))

theorem get?_foldl_counts (a : JsString) :
    ∀ (l : List (JsString × JsNumber)), (l.map Prod.fst).Nodup → ∀ r : Clock,
      (l.foldl (fun r e => (finiteCount e.2).elim r (r.set e.1)) r).get? a
        = ((Record.lookup a l).bind finiteCount).or (r.get? a)
  | [], _, r => rfl
  | e :: l, hn, r => by
    rw [List.map_cons, List.nodup_cons] at hn
    rw [List.foldl_cons, get?_foldl_counts a l hn.2, Record.lookup]
    by_cases ha : e.1 = a
    · subst ha
      rw [Record.lookup_eq_none hn.1, if_pos rfl]
      simp only [Option.bind_none, Option.none_or, Option.bind_some]
      cases finiteCount e.2 with
      | none => rfl
      | some n => exact Record.get?_set_self _ _ _
    · rw [if_neg ha]
      cases finiteCount e.2 with
      | none => rfl
      | some n => rw [Option.elim_some, Record.get?_set_of_ne _ _ ha]

/-- Normalizing keeps the counts that are under good keys. -/
theorem get?_normalizeObject {o : RawClock} (ho : AllGood nfkc o) (a : JsString) :
    (normalizeObject nfkc (some o)).get? a = (o.get? a).bind finiteCount := by
  have hfold : normalizeObject nfkc (some o)
      = o.entries.foldl (fun r e => (finiteCount e.2).elim r (r.set e.1)) .empty := by
    rw [normalizeObject, Option.getD_some]
    refine List.foldl_ext _ _ _ fun r e he => ?_
    have hk := ho e.1 (List.mem_map_of_mem he)
    simp only [hk.clean, ne_eq, hk.ne_nil, not_false_eq_true, if_true, put_of_notMem hk.own]
    cases finiteCount e.2 <;> rfl
  rw [hfold, get?_foldl_counts a _ o.nodup, Record.get?_empty, Option.or_none]
  rfl

theorem allGood_normalizeObject {o : RawClock} (ho : AllGood nfkc o) :
    AllGood nfkc (normalizeObject nfkc (some o)) := by
  intro a ha
  obtain ⟨n, hn⟩ := Record.mem_keys.1 ha
  rw [get?_normalizeObject ho] at hn
  obtain ⟨v, hv, -⟩ := Option.bind_eq_some_iff.1 hn
  exact ho a (Record.mem_keys.2 ⟨v, hv⟩)

/-! ## What clocks tell -/

/-- The clock normalizes to good keys and tells `g`. -/
structure Tells (nfkc : Nfkc) (o : Option RawClock) (g : JsString → ℕ) : Prop where
  keys : AllGood nfkc (normalizeObject nfkc o)
  counts : countsOf nfkc o = g

theorem Tells.count {o : Option RawClock} {g : JsString → ℕ} (h : Tells nfkc o g) (a : JsString) :
    (normalizeObject nfkc o).count a = g a := congrFun h.counts a

theorem Tells.eq_zero {o : Option RawClock} {g : JsString → ℕ} (h : Tells nfkc o g) {a : JsString}
    (ha : ¬ Good nfkc a) : g a = 0 := (h.count a).symm.trans (h.keys.count_eq_zero ha)

theorem tells_none : Tells nfkc none 0 := ⟨allGood_empty, rfl⟩

/-- A clock under good keys tells the counts it holds. -/
theorem tells_of_get? {o : RawClock} (ho : AllGood nfkc o) {g : JsString → ℕ}
    (hg : ∀ a, ((o.get? a).bind finiteCount).getD 0 = g a) : Tells nfkc (some o) g where
  keys := allGood_normalizeObject ho
  counts := by
    funext a
    rw [countsOf, Clock.count, get?_normalizeObject ho, hg]

/-- A step of normalizing keeps what holds of the keys and of the counts read. -/
theorem normalizeObject_induction (nfkc : Nfkc) (o : RawClock) {p : JsString → ℕ → Prop}
    (h : ∀ e ∈ o.entries, ∀ n, finiteCount e.2 = some n → cleanKey nfkc (some e.1) [] ≠ [] →
      p (cleanKey nfkc (some e.1) []) n) :
    ∀ k n, (normalizeObject nfkc (some o)).get? k = some n → p k n := by
  refine List.foldlRecOn (motive := fun r : Clock => ∀ k n, r.get? k = some n → p k n) _ _
    (fun k n hk => by cases hk) ?_
  intro r hr e he k n hk
  simp only at hk
  cases hn : finiteCount e.2 with
  | none => rw [hn] at hk; exact hr k n hk
  | some m =>
    rw [hn] at hk
    simp only [ne_eq, put] at hk
    split_ifs at hk with hnil hproto
    · exact hr k n hk
    · exact hr k n hk
    · rw [Record.get?_set] at hk
      split_ifs at hk with hkey
      · cases hk
        exact hkey ▸ h e he n hn hnil
      · exact hr k n hk

theorem tells_of_over {replicas : Set JsString} (hr : ∀ actorId ∈ replicas, Plain nfkc actorId)
    {o : Option RawClock} (ho : Over replicas o) :
    Tells nfkc o (countsOf nfkc o) ∧ ∀ a, countsOf nfkc o a < 2 ^ 53 := by
  cases o with
  | none => exact ⟨tells_none, fun a => by
    rw [tells_none.counts]; exact Nat.two_pow_pos 53⟩
  | some o =>
    have hall := normalizeObject_induction nfkc o
      (p := fun k n => Good nfkc k ∧ n < 2 ^ 53) fun e he n hn hk =>
        ⟨(hr e.1 (ho.1 e.1 (List.mem_map_of_mem he))).good_key hk,
          ho.2 e.2 (List.mem_map_of_mem he) n hn⟩
    refine ⟨⟨fun k hk => ?_, rfl⟩, fun a => ?_⟩
    · obtain ⟨n, hn⟩ := Record.mem_keys.1 hk
      exact (hall k n hn).1
    · rw [countsOf, Clock.count]
      cases hg : (normalizeObject nfkc (some o)).get? a with
      | none => norm_num
      | some n => exact (hall a n hg).2

/-! ## Comparing, joining and counting -/

theorem any_lessCount {c d : Clock} {l : List JsString} (hl : ∀ a ∈ d.keys, a ∈ l)
    (hc : ∀ a ∈ l, a ∉ objectPrototype) :
    (l.any fun a => lessCount (slot c a) (slot d a)) = true ↔ ¬ d.count ≤ c.count := by
  rw [← any_count_lt hl, List.any_eq_true, List.any_eq_true]
  refine exists_congr fun a => and_congr_right fun ha => ?_
  rw [slot_of_notMem (hc a ha), slot_of_notMem (hc a ha), lessCount]

theorem compare_iff {a b : Option RawClock} {g g' : JsString → ℕ} (h : Tells nfkc a g)
    (h' : Tells nfkc b g') :
    (compareAddressOfflineCrdtClocks nfkc a b = .before ↔ g < g')
      ∧ (compareAddressOfflineCrdtClocks nfkc a b = .after ↔ g' < g)
      ∧ (compareAddressOfflineCrdtClocks nfkc a b = .equal ↔ g = g')
      ∧ (compareAddressOfflineCrdtClocks nfkc a b = .concurrent ↔ ¬ g ≤ g' ∧ ¬ g' ≤ g) := by
  have hown : ∀ k ∈ actors (normalizeObject nfkc a) (normalizeObject nfkc b),
      k ∉ objectPrototype := by
    intro k hk
    rcases List.mem_append.1 hk with hk | hk
    · exact (h.keys k hk).own
    · exact (h'.keys k hk).own
  have h1 := any_lessCount (c := normalizeObject nfkc a) (d := normalizeObject nfkc b)
    (fun _ => List.mem_append_right _) hown
  have h2 := any_lessCount (c := normalizeObject nfkc b) (d := normalizeObject nfkc a)
    (fun _ => List.mem_append_left _) hown
  rw [show (normalizeObject nfkc a).count = g from h.counts,
    show (normalizeObject nfkc b).count = g' from h'.counts] at h1 h2
  exact order_iff h1 h2 rfl

theorem atMost_iff {a b : Option RawClock} {g g' : JsString → ℕ} (h : Tells nfkc a g)
    (h' : Tells nfkc b g') : AtMost nfkc a b ↔ g ≤ g' := by
  rw [AtMost, (compare_iff h h').1, (compare_iff h h').2.2.1, le_iff_lt_or_eq]

theorem foldl_put (f : JsString → JsNumber) : ∀ (l : List JsString) (r : RawClock),
    (∀ a ∈ l, a ∉ objectPrototype) →
    l.foldl (fun r a => put r a (f a)) r = l.foldl (fun r a => r.set a (f a)) r
  | [], _, _ => rfl
  | a :: l, r, h => by
    rw [List.foldl_cons, List.foldl_cons, put_of_notMem (h a List.mem_cons_self),
      foldl_put f l _ fun b hb => h b (List.mem_cons_of_mem a hb)]

theorem tells_join {a b : Option RawClock} {g g' : JsString → ℕ} (h : Tells nfkc a g)
    (h' : Tells nfkc b g') :
    Tells nfkc (some (joinAddressOfflineCrdtClocks nfkc a b)) (g ⊔ g') := by
  have hkeys : ∀ k ∈ actors (normalizeObject nfkc a) (normalizeObject nfkc b), Good nfkc k := by
    intro k hk
    rcases List.mem_append.1 hk with hk | hk
    · exact h.keys k hk
    · exact h'.keys k hk
  have hget : ∀ k, (joinAddressOfflineCrdtClocks nfkc a b).get? k
      = if k ∈ actors (normalizeObject nfkc a) (normalizeObject nfkc b)
        then some (numberOf (maxCount (slot (normalizeObject nfkc a) k)
          (slot (normalizeObject nfkc b) k))) else none := by
    intro k
    rw [joinAddressOfflineCrdtClocks, foldl_put _ _ _ fun k hk => (hkeys k hk).own,
      Record.get?_foldl_set_key, Record.get?_empty]
    split_ifs <;> rfl
  refine tells_of_get? (fun k hk => ?_) fun k => ?_
  · obtain ⟨v, hv⟩ := Record.mem_keys.1 hk
    rw [hget] at hv
    split_ifs at hv with hm
    exact hkeys k hm
  · rw [hget]
    split_ifs with hm
    · rw [slot_of_notMem (hkeys k hm).own, slot_of_notMem (hkeys k hm).own, h.count, h'.count]
      simp only [maxCount, numberOf, Option.bind_some, finiteCount_natCast]
      rfl
    · rw [actors, List.mem_append, not_or] at hm
      have h1 : g k = 0 := (h.count k).symm.trans
        (Nat.eq_zero_of_not_pos fun hp => hm.1 (mem_keys_of_count_pos hp))
      have h2 : g' k = 0 := (h'.count k).symm.trans
        (Nat.eq_zero_of_not_pos fun hp => hm.2 (mem_keys_of_count_pos hp))
      simp [h1, h2]

theorem tells_increment {a : Option RawClock} {g : JsString → ℕ} (h : Tells nfkc a g)
    {actorId : JsString} (hk : Good nfkc (cleanKey nfkc (some actorId) localActor))
    (hg : g (cleanKey nfkc (some actorId) localActor) < 2 ^ 53) :
    Tells nfkc (some (incrementAddressOfflineCrdtClock nfkc a actorId))
      (Function.update g (cleanKey nfkc (some actorId) localActor)
        (g (cleanKey nfkc (some actorId) localActor) + 1)) := by
  unfold incrementAddressOfflineCrdtClock
  simp only
  generalize cleanKey nfkc (some actorId) localActor = k at hk hg ⊢
  rw [put_of_notMem hk.own, slot_of_notMem hk.own, h.count, Option.map_some, nextCount, if_pos hg]
  have hraw : AllGood nfkc (normalizeObject nfkc a).raw := by
    intro k hk
    obtain ⟨v, hv⟩ := Record.mem_keys.1 hk
    rw [Clock.raw, Record.get?_map] at hv
    obtain ⟨n, hn, -⟩ := Option.map_eq_some_iff.1 hv
    exact h.keys k (Record.mem_keys.2 ⟨n, hn⟩)
  refine tells_of_get? (hraw.set hk _) fun x => ?_
  by_cases hx : k = x
  · subst hx
    rw [Record.get?_set_self, Function.update_self]
    simp only [numberOf, Option.bind_some, finiteCount_natCast]
    rfl
  · rw [Record.get?_set_of_ne _ _ hx, Function.update_of_ne (Ne.symm hx), Clock.raw,
      Record.get?_map, ← h.count x, Clock.count]
    cases (normalizeObject nfkc a).get? x with
    | none => rfl
    | some n => simp [finiteCount_natCast]

/-! ## The laws -/

theorem ordered {a b c : Option RawClock} {ga gb gc : JsString → ℕ} (ha : Tells nfkc a ga)
    (hb : Tells nfkc b gb) (hc : Tells nfkc c gc) : Ordered nfkc a b c where
  equal := by rw [(compare_iff ha hb).2.2.1, ha.counts, hb.counts]
  refl := (atMost_iff ha ha).2 le_rfl
  antisymm h h' := (compare_iff ha hb).2.2.1.2
    (le_antisymm ((atMost_iff ha hb).1 h) ((atMost_iff hb ha).1 h'))
  trans h h' := (atMost_iff ha hc).2 (((atMost_iff ha hb).1 h).trans ((atMost_iff hb hc).1 h'))
  after := by rw [(compare_iff ha hb).2.1, (compare_iff hb ha).1]

theorem joined {a b c : Option RawClock} {ga gb gc : JsString → ℕ} (ha : Tells nfkc a ga)
    (hb : Tells nfkc b gb) (hc : Tells nfkc c gc) : Joined nfkc a b c where
  left := (atMost_iff ha (tells_join ha hb)).2 le_sup_left
  right := (atMost_iff hb (tells_join ha hb)).2 le_sup_right
  least h h' := (atMost_iff (tells_join ha hb) hc).2
    (sup_le ((atMost_iff ha hc).1 h) ((atMost_iff hb hc).1 h'))
  comm := by rw [(tells_join ha hb).counts, (tells_join hb ha).counts, sup_comm]
  assoc := by
    rw [(tells_join (tells_join ha hb) hc).counts, (tells_join ha (tells_join hb hc)).counts,
      sup_assoc]
  idem := by rw [(tells_join ha ha).counts, ha.counts, sup_idem]

theorem incremented {a b : Option RawClock} {ga gb : JsString → ℕ} (ha : Tells nfkc a ga)
    (hb : Tells nfkc b gb) {actorId : JsString} (hp : Plain nfkc actorId)
    (hg : ∀ k, ga k < 2 ^ 53) : Incremented nfkc a b actorId := by
  have hi := tells_increment ha hp.good (hg _)
  constructor
  · rw [(compare_iff ha hi).1]
    generalize cleanKey nfkc (some actorId) localActor = k
    refine lt_of_le_of_ne (le_update_iff.2 ⟨Nat.le_succ _, fun _ _ => le_rfl⟩) fun he => ?_
    have := congrFun he k
    rw [Function.update_self] at this
    omega
  · rw [hi.counts, hb.counts, (compare_iff hi hb).2.1, (compare_iff hi hb).2.2.2]
    generalize cleanKey nfkc (some actorId) localActor = k
    generalize Function.update ga k (ga k + 1) = gi
    intro h
    have hn : ¬ gi ≤ gb := fun hle => absurd (hle k) (Nat.not_le.2 h)
    by_cases hle : gb ≤ gi
    · exact Or.inl (lt_of_le_not_ge hle hn)
    · exact Or.inr ⟨hn, hle⟩

/-! ## Where a law fails -/

theorem normalizeObject_nan (k : JsString) :
    normalizeObject nfkc (some (put .empty k .nan)) = .empty := by
  unfold put
  split_ifs <;> rfl

theorem not_later {actorId : JsString} (hk : cleanKey nfkc (some actorId) [] ≠ [])
    (hp : cleanKey nfkc (some actorId) [] ∈ objectPrototype) :
    compareAddressOfflineCrdtClocks nfkc none
      (some (incrementAddressOfflineCrdtClock nfkc none actorId)) = .equal := by
  have hi : incrementAddressOfflineCrdtClock nfkc none actorId
      = put .empty (cleanKey nfkc (some actorId) []) .nan := by
    unfold incrementAddressOfflineCrdtClock
    rw [cleanKey_fallback, if_neg hk]
    simp only [show normalizeObject nfkc none = .empty from rfl, slot, Record.get?_empty, if_pos hp]
    rfl
  unfold compareAddressOfflineCrdtClocks
  rw [hi, normalizeObject_nan]
  rfl

/-- A count of one under a key that cleaning changes again is not in a join with no other clock. -/
theorem not_above {actorId : JsString} (hk : cleanKey nfkc (some actorId) [] ≠ [])
    (hp : cleanKey nfkc (some actorId) [] ∉ objectPrototype)
    (hclean : cleanKey nfkc (some (cleanKey nfkc (some actorId) [])) []
      ≠ cleanKey nfkc (some actorId) []) :
    ¬ AtMost nfkc (some (Record.empty.set actorId (.finite 1)))
      (some (joinAddressOfflineCrdtClocks nfkc (some (Record.empty.set actorId (.finite 1)))
        none)) := by
  have hone : finiteCount (.finite 1) = some 1 := finiteCount_natCast 1
  have hl : normalizeObject nfkc (some (Record.empty.set actorId (.finite 1)))
      = Record.empty.set (cleanKey nfkc (some actorId) []) 1 := by
    rw [normalizeObject, Option.getD_some, show (Record.empty.set actorId (.finite 1)).entries
      = [(actorId, JsNumber.finite 1)] from rfl, List.foldl_cons, List.foldl_nil]
    simp only [hone, ne_eq, hk, not_false_eq_true, if_true, put_of_notMem hp]
  have hj : joinAddressOfflineCrdtClocks nfkc (some (Record.empty.set actorId (.finite 1))) none
      = Record.empty.set (cleanKey nfkc (some actorId) []) (.finite 1) := by
    rw [joinAddressOfflineCrdtClocks, hl]
    simp only [actors, show normalizeObject nfkc none = .empty from rfl]
    rw [show (Record.empty.set (cleanKey nfkc (some actorId) []) 1).keys
      ++ (Record.empty : Clock).keys = [cleanKey nfkc (some actorId) []] from rfl, List.foldl_cons,
      List.foldl_nil, put_of_notMem hp, slot_of_notMem hp, slot_of_notMem hp, Clock.count,
      Record.get?_set_self]
    rfl
  have hr : (normalizeObject nfkc (some (Record.empty.set (cleanKey nfkc (some actorId) [])
      (.finite 1)))).get? (cleanKey nfkc (some actorId) []) = none := by
    rw [Option.eq_none_iff_forall_ne_some]
    intro n hn
    refine normalizeObject_induction nfkc _
      (p := fun k _ => k ≠ cleanKey nfkc (some actorId) []) (fun e he _ _ _ => ?_) _ n hn rfl
    rw [show (Record.empty.set (cleanKey nfkc (some actorId) []) (.finite 1)).entries
      = [(cleanKey nfkc (some actorId) [], JsNumber.finite 1)] from rfl, List.mem_singleton] at he
    rw [he]
    exact hclean
  have hgreater : ∀ l r : Clock, l = Record.empty.set (cleanKey nfkc (some actorId) []) 1 →
      r.get? (cleanKey nfkc (some actorId) []) = none →
      ((actors l r).any fun a => lessCount (slot r a) (slot l a)) = true := by
    rintro l r rfl hr
    refine List.any_eq_true.2 ⟨cleanKey nfkc (some actorId) [],
      List.mem_append_left _ (List.mem_singleton_self _), ?_⟩
    rw [slot_of_notMem hp, slot_of_notMem hp, Clock.count, hr, Clock.count, Record.get?_set_self]
    rfl
  rw [hj, AtMost, compareAddressOfflineCrdtClocks]
  simp only [hgreater _ _ hl hr]
  split_ifs <;> simp_all

/-- A clock whose only entry counts one. -/
theorem over_one {replicas : Set JsString} {actorId : JsString} (h : actorId ∈ replicas) :
    Over replicas (some (Record.empty.set actorId (.finite 1))) := by
  have he : (Record.empty.set actorId (.finite 1)).entries = [(actorId, JsNumber.finite 1)] := rfl
  refine ⟨fun k hk => ?_, fun v hv n hn => ?_⟩
  · rw [Record.keys, he, List.map_singleton, List.mem_singleton] at hk
    exact hk ▸ h
  · rw [Record.values, he, List.map_singleton, List.mem_singleton] at hv
    rw [hv, show finiteCount (.finite 1) = some 1 from finiteCount_natCast 1] at hn
    cases hn
    norm_num

variable (nfkc) in
/-- The clocks of some replicas are a semilattice exactly when each identifier has no key, or one
that cleaning again leaves alone and that no object inherits. -/
theorem semilattice_iff (replicas : Set JsString) :
    Semilattice nfkc replicas ↔ ∀ actorId ∈ replicas, Plain nfkc actorId := by
  constructor
  · intro h actorId hid
    by_cases hk : cleanKey nfkc (some actorId) [] = []
    · exact Or.inl hk
    · have hp : cleanKey nfkc (some actorId) [] ∉ objectPrototype := by
        intro hp
        obtain ⟨-, -, hi⟩ := h none none none trivial trivial trivial
        have := (hi actorId hid).later
        rw [not_later hk hp] at this
        cases this
      refine Or.inr ⟨?_, hp⟩
      by_contra hclean
      obtain ⟨-, hj, -⟩ := h _ none none (over_one hid) trivial trivial
      exact not_above hk hp hclean hj.left
  · intro hr a b c ha hb hc
    obtain ⟨ta, hlt⟩ := tells_of_over hr ha
    obtain ⟨tb, -⟩ := tells_of_over hr hb
    obtain ⟨tc, -⟩ := tells_of_over hr hc
    exact ⟨ordered ta tb tc, joined ta tb tc,
      fun actorId hid => incremented ta tb (hr actorId hid) hlt⟩

end Agid.AddressOfflineCrdt
