import Agid.Proofs.Replicas

/-!
# Which write wins

A register of the code is a cell of the run's history: it holds what its winner wrote under the
clock of all it has seen, and `mergeRegister` merges the cells (`mergeRegister_isCell`).  Where no
three writes are misordered a state is then a function of the set of operations it has seen,
however they reached it (`StateHolds`), and the order of delivery and of merging does not matter.
Three misordered writes are enough for it to matter.
-/

namespace Agid.AddressOfflineCrdt

open Causal

variable {V : Type} {P : Platform V} {record : CreateStateInput}

abbrev OpHistory (V : Type) := History (Operation V) JsString (ℤ ×ₗ JsString)

/-- The register holds what the cell's winner wrote, under the cell's clock. -/
structure IsCell (r : Register V) (c : Causal.Cell (Operation V) JsString) : Prop where
  keys : WellKeyed r.clock
  count : r.clock.count = c.clock
  content : r = { c.winner.register with clock := r.clock }

theorem register_stamp (x : Operation V) :
    x.register.updatedAt = x.createdAt ∧ x.register.operationId = x.operationId := by
  unfold Operation.register
  cases x.action <;> exact ⟨rfl, rfl⟩

theorem IsCell.stamp {r : Register V} {c : Causal.Cell (Operation V) JsString} (h : IsCell r c) :
    r.updatedAt = c.winner.createdAt ∧ r.operationId = c.winner.operationId := by
  rw [h.content]
  exact register_stamp c.winner

theorem IsCell.winning {r : Register V} {c : Causal.Cell (Operation V) JsString} (h : IsCell r c) :
    r.winning = c.winner.register.winning := by
  rw [h.content]
  rfl

/-- `winnerRegister` prefers the later stamp, and of one stamp the larger id. -/
theorem winnerRegister_eq (l r : Register V) : winnerRegister l r
    = if toLex (r.updatedAt, r.operationId) ≤ toLex (l.updatedAt, l.operationId) then l else r := by
  unfold winnerRegister
  simp only [Prod.Lex.toLex_le_toLex, ne_eq, gt_iff_lt, ge_iff_le]
  by_cases ht : l.updatedAt = r.updatedAt
  · simp [ht]
  · have ht' : r.updatedAt ≠ l.updatedAt := fun h => ht h.symm
    simp [ht, ht']

section Cells

variable {ops : List (Operation V)} (h : OpsInv P record ops)

theorem isCell_register {x : Operation V} (hx : WellKeyed x.clock) :
    IsCell x.register (h.history.cell x) where
  keys := by
    rw [register_clock]
    exact hx
  count := congrArg Clock.count (register_clock x)
  content := rfl

theorem later_register {r r' : Register V} {c d : Causal.Cell (Operation V) JsString} (hr : IsCell r c)
    (hr' : IsCell r' d) : winnerRegister r r'
      = { (h.history.later c.winner d.winner).register with
          clock := (winnerRegister r r').clock } := by
  have hw : winnerRegister r r'
      = if h.history.key d.winner ≤ h.history.key c.winner then r else r' := by
    rw [winnerRegister_eq, hr.stamp.1, hr.stamp.2, hr'.stamp.1, hr'.stamp.2]
    rfl
  rw [hw, History.later]
  split_ifs
  · exact hr.content
  · exact hr'.content

/-- The triple is misordered in the history. -/
theorem Misordered.history {x y z : Operation V} (hx : x ∈ ops) (hy : y ∈ ops) (hz : z ∈ ops) :
    Misordered P x y z ↔ (x.target? ≠ none ∧ y.target? = x.target? ∧ z.target? = x.target?)
      ∧ h.history.Misordered x y z := by
  have hcx := Reads.self (h.each x hx).keys
  have hcy := Reads.self (h.each y hy).keys
  have hcz := Reads.self (h.each z hz).keys
  have hxy := compareClocks_eq P.nfkc hcx hcy
  have hzx := compareClocks_eq P.nfkc hcz hcx
  have hzy := compareClocks_eq P.nfkc hcz hcy
  have hwin : ∀ u ∈ ops, u.clock.count ≠ x.clock.count →
      ((winnerRegister x.register u.register).operationId = x.operationId
        ↔ h.history.key u < h.history.key x) := by
    intro u hu hne
    have hkne : h.history.key u ≠ h.history.key x := fun he =>
      hne (congrArg (fun v : Operation V => v.clock.count) (h.history.key_inj hu hx he))
    rw [winnerRegister_eq, (register_stamp x).1, (register_stamp x).2, (register_stamp u).1,
      (register_stamp u).2, lt_iff_le_and_ne]
    change _ ↔ toLex (u.createdAt, u.operationId) ≤ toLex (x.createdAt, x.operationId) ∧ _
    split_ifs with hle
    · exact iff_of_true (register_stamp x).2 ⟨hle, hkne⟩
    · refine iff_of_false (fun he => hne ?_) fun hh => hle hh.1
      rw [h.id_inj u hu x hx ((register_stamp u).2.symm.trans he)]
  constructor
  · rintro ⟨ht, h1, h2, h3, h4, h5⟩
    have h1' := hxy.1.1 h1
    have h2' := hzx.2.2.2.1 h2
    exact ⟨ht, h1', h2', hzy.2.2.2.1 h3, (hwin y hy h1'.ne').1 h4,
      (hwin z hz fun he => h2'.1 he.le).1 h5⟩
  · rintro ⟨ht, h1, h2, h3, h4, h5⟩
    exact ⟨ht, hxy.1.2 h1, hzx.2.2.2.2 h2, hzy.2.2.2.2 h3, (hwin y hy (ne_of_gt h1)).2 h4,
      (hwin z hz fun he => h2.1 he.le).2 h5⟩

end Cells

/-! ## States as sets of operations -/

/-- The writes of a register among some operations. -/
def writes (D : Finset (Operation V)) (t : Target) : Finset (Operation V) :=
  D.filter fun x => x.target? = some t

theorem mem_writes {D : Finset (Operation V)} {t : Target} {x : Operation V} :
    x ∈ writes D t ↔ x ∈ D ∧ x.target? = some t := Finset.mem_filter

/-- Each register of the state holds the latest write among those of `D` that no other has seen. -/
structure StateHolds {ops : List (Operation V)} (h : OpsInv P record ops)
    (D : Finset (Operation V)) (s : State V) : Prop where
  sub : ∀ x ∈ D, x ∈ ops
  unwritten : ∀ t, s.register? t = none → writes D t = ∅
  written : ∀ t r, s.register? t = some r → ∃ c, IsCell r c ∧ h.history.Holds (writes D t) c

/-- No three of the operations are misordered. -/
def WellStamped (P : Platform V) (ops : List (Operation V)) : Prop :=
  ∀ x ∈ ops, ∀ y ∈ ops, ∀ z ∈ ops, ¬ Misordered P x y z

section Holds

variable {ops : List (Operation V)} (h : OpsInv P record ops)

theorem WellStamped.history (hno : WellStamped P ops) {D : Finset (Operation V)} {t : Target}
    (hD : ∀ x ∈ D, x ∈ ops) (ht : ∀ x ∈ D, x.target? = some t) :
    ∀ x ∈ D, ∀ y ∈ D, ∀ z ∈ D, ¬ h.history.Misordered x y z := by
  intro x hx y hy z hz hm
  refine hno x (hD x hx) y (hD y hy) z (hD z hz)
    ((Misordered.history h (hD x hx) (hD y hy) (hD z hz)).2 ⟨?_, hm⟩)
  rw [ht x hx, ht y hy, ht z hz]
  exact ⟨by simp, rfl, rfl⟩

theorem stateHolds_empty (now : ℤ) : StateHolds h ∅ (emptyState P record now) where
  sub x hx := by simp at hx
  unwritten t _ := rfl
  written t r hr := by cases t <;> simp [State.register?, emptyState, createState] at hr

/-- States that have seen the same operations hold the same cells. -/
theorem StateHolds.agree {D : Finset (Operation V)} {s s' : State V} (hs : StateHolds h D s)
    (hs' : StateHolds h D s') (t : Target) :
    (s.register? t = none ∧ s'.register? t = none)
      ∨ ∃ r r' c, s.register? t = some r ∧ s'.register? t = some r' ∧ IsCell r c ∧ IsCell r' c := by
  have hne : ∀ {s : State V} {r : Register V}, StateHolds h D s → s.register? t = some r →
      writes D t ≠ ∅ := by
    intro s r hs hr he
    obtain ⟨c, -, hc⟩ := hs.written t r hr
    have := hc.top.1
    rw [he] at this
    simp at this
  rcases hr : s.register? t with _ | r <;> rcases hr' : s'.register? t with _ | r'
  · exact Or.inl ⟨rfl, rfl⟩
  · exact absurd (hs.unwritten t hr) (hne hs' hr')
  · exact absurd (hs'.unwritten t hr') (hne hs hr)
  · obtain ⟨c, hrc, hc⟩ := hs.written t r hr
    obtain ⟨d, hrd, hd⟩ := hs'.written t r' hr'
    exact Or.inr ⟨r, r', c, rfl, rfl, hrc, (hc.unique hd).symm ▸ hrd⟩

theorem StateHolds.winning_eq {D : Finset (Operation V)} {s s' : State V} (hs : StateHolds h D s)
    (hs' : StateHolds h D s') (t : Target) :
    (s.register? t).map Register.winning = (s'.register? t).map Register.winning := by
  rcases hs.agree h hs' t with ⟨h1, h2⟩ | ⟨r, r', c, h1, h2, hr, hr'⟩
  · rw [h1, h2]
  · rw [h1, h2, Option.map_some, Option.map_some, hr.winning, hr'.winning]

theorem StateHolds.count_eq {D : Finset (Operation V)} {s s' : State V} (hs : StateHolds h D s)
    (hs' : StateHolds h D s') (t : Target) (a : JsString) :
    (s.register? t).map (·.clock.count a) = (s'.register? t).map (·.clock.count a) := by
  rcases hs.agree h hs' t with ⟨h1, h2⟩ | ⟨r, r', c, h1, h2, hr, hr'⟩
  · rw [h1, h2]
  · rw [h1, h2, Option.map_some, Option.map_some, hr.count, hr'.count]

omit h in
theorem StateHolds.mono {ops' : List (Operation V)} {h : OpsInv P record ops}
    (h' : OpsInv P record ops') (hsub : ∀ x ∈ ops, x ∈ ops') {D : Finset (Operation V)}
    {s : State V} (hs : StateHolds h D s) : StateHolds h' D s where
  sub x hx := hsub x (hs.sub x hx)
  unwritten := hs.unwritten
  written t r hr := by
    obtain ⟨c, hrc, hc⟩ := hs.written t r hr
    exact ⟨c, hrc, fun d hd => hsub d (hc.sub d hd), hc.clock_eq, hc.top, hc.latest⟩

end Holds

section Steps

variable [DecidableEq V] {ops : List (Operation V)} (h : OpsInv P record ops)

theorem mergeRegister_isCell (entityId : JsString) {r r' : Register V}
    {c d : Causal.Cell (Operation V) JsString} (hr : IsCell r c) (hr' : IsCell r' d) :
    IsCell (mergeRegister P entityId (some r) r').1 (h.history.merge c d) := by
  unfold History.merge
  rw [← hr.count, ← hr'.count]
  rcases mergeRegister_cases P entityId hr.keys hr'.keys with ⟨h1, he⟩ | ⟨h1, he⟩ | ⟨h1, h2, he⟩
  · rw [if_pos h1, he]
    exact hr'
  · rw [if_neg h1.not_gt, if_pos h1, he]
    exact hr
  · rw [if_neg fun hlt => h1 hlt.le, if_neg h2, he]
    refine ⟨wellKeyed_joinClocks P hr.keys hr'.keys, joinClocks_count P hr.keys hr'.keys, ?_⟩
    rw [later_register h hr hr']

theorem applied_isCell {s : State V} {x : Operation V} {t : Target} (ht : x.target? = some t)
    (hx : WellKeyed x.clock) :
    (s.register? t = none →
        ∃ r, (applyToRecord P s x).register? t = some r ∧ IsCell r (h.history.cell x))
      ∧ ∀ r c, s.register? t = some r → IsCell r c →
        ∃ r', (applyToRecord P s x).register? t = some r'
          ∧ IsCell r' (h.history.merge c (h.history.cell x)) := by
  rw [applyToRecord_register, if_pos ht]
  refine ⟨fun hn => ?_, fun r c hr hc => ?_⟩
  · rw [hn]
    exact ⟨_, rfl, isCell_register h hx⟩
  · rw [hr]
    exact ⟨_, rfl, mergeRegister_isCell h _ hc (isCell_register h hx)⟩

theorem merged_isCell {l r : State V} (hlr : l.SameRecord r) {t : Target} {v v' : Register V}
    {c d : Causal.Cell (Operation V) JsString} (hl : l.register? t = some v) (hv : IsCell v c)
    (hr : r.register? t = some v') (hv' : IsCell v' d) :
    ∃ u, (mergeStates P l r).register? t = some u ∧ IsCell u (h.history.merge c d) := by
  rw [mergeStates_register P hlr, hl, hr]
  exact ⟨_, rfl, mergeRegister_isCell h _ hv hv'⟩

open scoped Classical in
theorem stateHolds_apply (hno : WellStamped P ops) {D : Finset (Operation V)} {s : State V}
    (hs : StateHolds h D s) {x : Operation V} (hx : x ∈ ops) :
    StateHolds h (D ∪ {x}) (applyToRecord P s x) := by
  have hk := (h.each x hx).keys
  have hsub : ∀ y ∈ D ∪ {x}, y ∈ ops := by
    intro y hy
    rcases Finset.mem_union.1 hy with hy | hy
    · exact hs.sub y hy
    · exact Finset.mem_singleton.1 hy ▸ hx
  have hwrites : ∀ t, x.target? = some t → writes (D ∪ {x}) t = writes D t ∪ {x} := by
    intro t ht
    rw [writes, Finset.filter_union, Finset.filter_singleton, if_pos ht]
    rfl
  have hother : ∀ t, x.target? ≠ some t → writes (D ∪ {x}) t = writes D t := by
    intro t ht
    rw [writes, Finset.filter_union, Finset.filter_singleton, if_neg ht, Finset.union_empty]
    rfl
  refine ⟨hsub, fun t hn => ?_, fun t r hr => ?_⟩
  · rw [applyToRecord_register] at hn
    split_ifs at hn with ht
    rw [hother t ht]
    exact hs.unwritten t hn
  · by_cases ht : x.target? = some t
    · rw [hwrites t ht]
      obtain ⟨hnone, hsome⟩ := applied_isCell h (s := s) ht hk
      rcases hst : s.register? t with _ | v
      · obtain ⟨r', hr', hc⟩ := hnone hst
        obtain rfl := Option.some.inj (hr.symm.trans hr')
        rw [hs.unwritten t hst, Finset.empty_union]
        exact ⟨_, hc, History.holds_cell hx⟩
      · obtain ⟨c, hvc, hc⟩ := hs.written t v hst
        obtain ⟨r', hr', hc'⟩ := hsome v c hst hvc
        obtain rfl := Option.some.inj (hr.symm.trans hr')
        refine ⟨_, hc', History.merge_holds ?_ hc (History.holds_cell hx)⟩
        rw [← hwrites t ht]
        exact hno.history h (fun y hy => hsub y (mem_writes.1 hy).1) fun y hy => (mem_writes.1 hy).2
    · rw [applyToRecord_register, if_neg ht] at hr
      rw [hother t ht]
      exact hs.written t r hr

open scoped Classical in
theorem stateHolds_merge (hno : WellStamped P ops) {D D' : Finset (Operation V)} {l r : State V}
    (hl : StateHolds h D l) (hr : StateHolds h D' r) (hlr : l.SameRecord r) :
    StateHolds h (D ∪ D') (mergeStates P l r) := by
  have hsub : ∀ y ∈ D ∪ D', y ∈ ops := by
    intro y hy
    rcases Finset.mem_union.1 hy with hy | hy
    · exact hl.sub y hy
    · exact hr.sub y hy
  have hwrites : ∀ t, writes (D ∪ D') t = writes D t ∪ writes D' t :=
    fun t => Finset.filter_union _ _ _
  refine ⟨hsub, fun t hn => ?_, fun t u hu => ?_⟩
  · rw [mergeStates_register P hlr] at hn
    rcases hrt : r.register? t with _ | v'
    · rw [hrt] at hn
      rw [hwrites, hl.unwritten t hn, hr.unwritten t hrt, Finset.empty_union]
    · simp [hrt] at hn
  · rw [hwrites]
    rcases hrt : r.register? t with _ | v'
    · rw [mergeStates_register P hlr, hrt] at hu
      rw [hr.unwritten t hrt, Finset.union_empty]
      exact hl.written t u hu
    · obtain ⟨d, hvd, hd⟩ := hr.written t v' hrt
      rcases hlt : l.register? t with _ | v
      · simp only [mergeStates_register P hlr, hrt, hlt, mergeRegister, Option.some.injEq] at hu
        subst hu
        rw [hl.unwritten t hlt, Finset.empty_union]
        exact ⟨d, hvd, hd⟩
      · obtain ⟨c, hvc, hc⟩ := hl.written t v hlt
        obtain ⟨u', hu', hcell⟩ := merged_isCell h hlr hlt hvc hrt hvd
        obtain rfl := Option.some.inj (hu.symm.trans hu')
        refine ⟨_, hcell, History.merge_holds ?_ hc hd⟩
        rw [← hwrites]
        exact hno.history h (fun y hy => hsub y (mem_writes.1 hy).1) fun y hy => (mem_writes.1 hy).2

end Steps

end Agid.AddressOfflineCrdt
