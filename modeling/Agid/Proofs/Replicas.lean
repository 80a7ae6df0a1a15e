import Agid.Lib.Causal
import Agid.Proofs.OfflineSync

/-!
# What holds in every run

A replica's state has seen every operation of the replica, and the clock of a state is the join of
the clocks of operations (`Inv`).  So to have seen a replica's count is to have seen the operation
of that count and all it had seen, and the operations of a run are a causal history
(`OpsInv.history`).
-/

namespace Agid.AddressOfflineCrdt

open Causal

variable {V : Type} [DecidableEq V] (P : Platform V) (record : CreateStateInput)

def WellKeyed (c : Clock) : Prop := ∀ a ∈ c.keys, IsKey a

omit [DecidableEq V] in
theorem joinClocks_count {c d : Clock} (hc : WellKeyed c) (hd : WellKeyed d) :
    (joinClocks P.nfkc (some c.raw) (some d.raw)).count = c.count ⊔ d.count :=
  (Reads.self (reads_joinClocks P.nfkc (Reads.self hc) (Reads.self hd)).keys).eq
    (reads_joinClocks P.nfkc (Reads.self hc) (Reads.self hd))

omit [DecidableEq V] in
theorem wellKeyed_joinClocks {c d : Clock} (hc : WellKeyed c) (hd : WellKeyed d) :
    WellKeyed (joinClocks P.nfkc (some c.raw) (some d.raw)) :=
  (reads_joinClocks P.nfkc (Reads.self hc) (Reads.self hd)).keys

/-- The outcomes of merging a register, by what the two clocks read. -/
theorem mergeRegister_cases (entityId : JsString) {c i : Register V} (hc : WellKeyed c.clock)
    (hi : WellKeyed i.clock) :
    (c.clock.count < i.clock.count ∧ (mergeRegister P entityId (some c) i).1 = i)
      ∨ (i.clock.count ≤ c.clock.count ∧ (mergeRegister P entityId (some c) i).1 = c)
      ∨ (¬ c.clock.count ≤ i.clock.count ∧ ¬ i.clock.count ≤ c.clock.count
        ∧ (mergeRegister P entityId (some c) i).1 = { winnerRegister c i with
          clock := joinClocks P.nfkc (some c.clock.raw) (some i.clock.raw) }) := by
  obtain ⟨h1, h2, h3, h4⟩ := compareClocks_eq P.nfkc (Reads.self hc) (Reads.self hi)
  simp only [mergeRegister]
  rcases ho : compareClocks P.nfkc (some c.clock.raw) (some i.clock.raw) with _ | _ | _ | _
  · exact Or.inr (Or.inl ⟨(h3.1 ho).ge, rfl⟩)
  · exact Or.inl ⟨h1.1 ho, rfl⟩
  · exact Or.inr (Or.inl ⟨(h2.1 ho).le, rfl⟩)
  · refine Or.inr (Or.inr ⟨(h4.1 ho).1, (h4.1 ho).2, ?_⟩)
    split_ifs <;> rfl

theorem mergeRegister_count (entityId : JsString) {c i : Register V} (hc : WellKeyed c.clock)
    (hi : WellKeyed i.clock) : (mergeRegister P entityId (some c) i).1.clock.count
      = c.clock.count ⊔ i.clock.count := by
  rcases mergeRegister_cases P entityId hc hi with ⟨hlt, h⟩ | ⟨hle, h⟩ | ⟨-, -, h⟩ <;> rw [h]
  · exact (sup_eq_right.2 hlt.le).symm
  · exact (sup_eq_left.2 hle).symm
  · exact joinClocks_count P hc hi

theorem mergeRegister_clock (entityId : JsString) {o : Option (Register V)} {i : Register V}
    {g : JsString → ℕ} (ho : ∀ c, o = some c → WellKeyed c.clock ∧ c.clock.count ≤ g)
    (hi : WellKeyed i.clock ∧ i.clock.count ≤ g) :
    WellKeyed (mergeRegister P entityId o i).1.clock
      ∧ (mergeRegister P entityId o i).1.clock.count ≤ g := by
  cases o with
  | none => exact hi
  | some c =>
    obtain ⟨hc, hcg⟩ := ho c rfl
    rcases mergeRegister_cases P entityId hc hi.1 with ⟨-, h⟩ | ⟨-, h⟩ | ⟨-, -, h⟩ <;> rw [h]
    · exact hi
    · exact ⟨hc, hcg⟩
    · refine ⟨wellKeyed_joinClocks P hc hi.1, ?_⟩
      rw [joinClocks_count P hc hi.1]
      exact sup_le hcg hi.2

/-! ## Operations -/

structure OpInv (x : Operation V) : Prop where
  record : sameEntity (emptyState P record 0) x
  keys : WellKeyed x.clock
  commitment : x.place? ≠ none → ∃ c, x.memberCommitment = some c ∧ c ≠ []

/-- The operations of a run, whose clocks know of each replica a first few operations. -/
structure OpsInv (ops : List (Operation V)) : Prop where
  each : ∀ x ∈ ops, OpInv P record x
  pos : ∀ x ∈ ops, 0 < x.clock.count (replicaOf P x)
  causal : ∀ x ∈ ops, ∀ y ∈ ops,
    x.clock.count (replicaOf P x) ≤ y.clock.count (replicaOf P x) → x.clock.count ≤ y.clock.count
  clock_inj : ∀ x ∈ ops, ∀ y ∈ ops, x.clock.count = y.clock.count → x = y
  id_inj : ∀ x ∈ ops, ∀ y ∈ ops, x.operationId = y.operationId → x = y

variable {P record}

omit [DecidableEq V] in
theorem OpsInv.of_subset {ops ops' : List (Operation V)} (h : OpsInv P record ops')
    (hs : ∀ x ∈ ops, x ∈ ops') : OpsInv P record ops where
  each x hx := h.each x (hs x hx)
  pos x hx := h.pos x (hs x hx)
  causal x hx y hy := h.causal x (hs x hx) y (hs y hy)
  clock_inj x hx y hy := h.clock_inj x (hs x hx) y (hs y hy)
  id_inj x hx y hy := h.id_inj x (hs x hx) y (hs y hy)

/-- Operations are keyed by their stamp and then by their id, as `winnerRegister` compares them. -/
def OpsInv.history {ops : List (Operation V)} (h : OpsInv P record ops) :
    History (Operation V) JsString (ℤ ×ₗ JsString) where
  events := {x | x ∈ ops}
  replica := replicaOf P
  clock x := x.clock.count
  key x := toLex (x.createdAt, x.operationId)
  causal := h.causal
  pos := h.pos
  clock_inj x hx y hy he := h.clock_inj x hx y hy he
  key_inj x hx y hy he := h.id_inj x hx y hy (congrArg Prod.snd (toLex.injective he))

/-! ## States -/

structure StateInv (P : Platform V) (record : CreateStateInput) (ops : List (Operation V))
    (s : State V) : Prop where
  record : s.SameRecord (emptyState P record 0)
  keys : WellKeyed s.clock
  seen : ∃ D : Finset (Operation V), (∀ x ∈ D, x ∈ ops)
    ∧ s.clock.count = D.sup fun x => x.clock.count
  registers : ∀ t r, s.register? t = some r →
    WellKeyed r.clock ∧ r.clock.count ≤ s.clock.count
  members : ∀ q m v, s.member? q m = some v → v.memberId = m ∧ v.memberCommitment ≠ []

omit [DecidableEq V] in
theorem StateInv.mono {ops ops' : List (Operation V)} {s : State V} (h : StateInv P record ops s)
    (hs : ∀ x ∈ ops, x ∈ ops') : StateInv P record ops' s := by
  obtain ⟨D, hD, hsup⟩ := h.seen
  exact ⟨h.record, h.keys, ⟨D, fun x hx => hs x (hD x hx), hsup⟩, h.registers, h.members⟩

omit [DecidableEq V] in
theorem SameRecord.of_empty {ops : List (Operation V)} {l r : State V}
    (hl : StateInv P record ops l) (hr : StateInv P record ops r) : l.SameRecord r := by
  obtain ⟨h1, h2, h3⟩ := hl.record
  obtain ⟨h4, h5, h6⟩ := hr.record
  exact ⟨h1.trans h4.symm, h2.trans h5.symm, h3.trans h6.symm⟩

omit [DecidableEq V] in
theorem stateInv_empty (ops : List (Operation V)) (now : ℤ) :
    StateInv P record ops (emptyState P record now) where
  record := ⟨rfl, rfl, rfl⟩
  keys a ha := by simp [emptyState, createState, Record.keys, Record.empty] at ha
  seen := ⟨∅, by simp, rfl⟩
  registers t r hr := by cases t <;> simp [State.register?, emptyState, createState] at hr
  members q m v hv := by simp [State.member?, emptyState, createState] at hv

omit [DecidableEq V] in
theorem register_clock (x : Operation V) : x.register.clock = x.clock := by
  unfold Operation.register
  cases x.action <;> rfl

theorem truthy_some {s : JsString} (h : s ≠ []) : truthy (some s) = some s := by
  obtain ⟨c, t, rfl⟩ := List.exists_cons_of_ne_nil h
  rfl

theorem stateInv_apply {ops : List (Operation V)} {s : State V} {x : Operation V}
    (h : StateInv P record ops s) (hx : x ∈ ops) (hop : OpInv P record x) :
    StateInv P record ops (applyToRecord P s x) := by
  classical
  have hclock : (applyToRecord P s x).clock.count = s.clock.count ⊔ x.clock.count := by
    rw [applyToRecord_clock, joinClocks_count P h.keys hop.keys]
  refine ⟨?_, ?_, ?_, fun t r hr => ?_, fun q m v hv => ?_⟩
  · obtain ⟨h1, h2, h3⟩ := applyToRecord_sameRecord P s x
    obtain ⟨h4, h5, h6⟩ := h.record
    exact ⟨h1.trans h4, h2.trans h5, h3.trans h6⟩
  · rw [applyToRecord_clock]
    exact wellKeyed_joinClocks P h.keys hop.keys
  · obtain ⟨D, hD, hsup⟩ := h.seen
    refine ⟨insert x D, fun y hy => ?_, ?_⟩
    · rcases Finset.mem_insert.1 hy with rfl | hy
      · exact hx
      · exact hD y hy
    · rw [hclock, hsup, Finset.sup_insert, sup_comm]
  · rw [applyToRecord_register] at hr
    rw [hclock]
    split_ifs at hr with ht
    · simp only [Option.some.injEq] at hr
      subst hr
      refine mergeRegister_clock P _ (fun c hc => ?_) ?_
      · exact ⟨(h.registers t c hc).1, (h.registers t c hc).2.trans le_sup_left⟩
      · rw [register_clock]
        exact ⟨hop.keys, le_sup_right⟩
    · exact ⟨(h.registers t r hr).1, (h.registers t r hr).2.trans le_sup_left⟩
  · rw [applyToRecord_member] at hv
    split_ifs at hv with hp
    · simp only [Option.some.injEq] at hv
      subst hv
      refine ⟨rfl, ?_⟩
      obtain ⟨c, hc, hne⟩ := hop.commitment (by rw [hp]; simp)
      rcases he : s.member? q m with _ | e
      · simp [appliedMember, truthy, hc, hne]
      · have hce := (h.members q m e he).2
        simp [appliedMember, truthy_some hce, hce]
    · exact h.members q m v hv

theorem stateInv_merge {ops : List (Operation V)} {l r : State V} (hl : StateInv P record ops l)
    (hr : StateInv P record ops r) : StateInv P record ops (mergeStates P l r) := by
  classical
  have hlr := SameRecord.of_empty hl hr
  have hclock : (mergeStates P l r).clock.count = l.clock.count ⊔ r.clock.count := by
    rw [mergeStates_clock P hlr, joinClocks_count P hl.keys hr.keys]
  refine ⟨?_, ?_, ?_, fun t v hv => ?_, fun q m v hv => ?_⟩
  · obtain ⟨h1, h2, h3⟩ := mergeStates_sameRecord P hlr
    obtain ⟨h4, h5, h6⟩ := hl.record
    exact ⟨h1.trans h4, h2.trans h5, h3.trans h6⟩
  · rw [mergeStates_clock P hlr]
    exact wellKeyed_joinClocks P hl.keys hr.keys
  · obtain ⟨D, hD, hsup⟩ := hl.seen
    obtain ⟨D', hD', hsup'⟩ := hr.seen
    refine ⟨D ∪ D', fun y hy => ?_, by rw [hclock, hsup, hsup', Finset.sup_union]⟩
    rcases Finset.mem_union.1 hy with hy | hy
    · exact hD y hy
    · exact hD' y hy
  · rw [mergeStates_register P hlr] at hv
    rw [hclock]
    rcases hrt : r.register? t with _ | i
    · rw [hrt] at hv
      exact ⟨(hl.registers t v hv).1, (hl.registers t v hv).2.trans le_sup_left⟩
    · simp only [hrt, Option.some.injEq] at hv
      subst hv
      have hi := hr.registers t i hrt
      exact mergeRegister_clock P _ (fun c hc =>
        ⟨(hl.registers t c hc).1, (hl.registers t c hc).2.trans le_sup_left⟩)
        ⟨hi.1, hi.2.trans le_sup_right⟩
  · rw [mergeStates_member P hlr] at hv
    rcases hrm : r.member? q m with _ | e
    · rw [hrm] at hv
      exact hl.members q m v hv
    · simp only [hrm, Option.some.injEq] at hv
      subst hv
      refine ⟨rfl, ?_⟩
      have he := (hr.members q m e hrm).2
      rcases hlm : l.member? q m with _ | e'
      · simp [mergedMember, truthy, he]
      · have he' := (hl.members q m e' hlm).2
        simp [mergedMember, truthy_some he', he']

/-! ## Runs -/

/-- The invariant of a run. -/
structure Inv (P : Platform V) (record : CreateStateInput) (w : World V) : Prop where
  ops : OpsInv P record w.operations
  states : ∀ s ∈ w.states, StateInv P record w.operations s
  current : ∀ r, w.current r ∈ w.states
  own : ∀ x ∈ w.operations, x.clock.count ≤ (w.current (replicaOf P x)).clock.count
  bounded : ∀ x ∈ w.operations, ∀ a, x.clock.count a ≤ (w.current a).clock.count a
  written : ∀ x ∈ w.operations, ∀ t, x.target? = some t →
    ∃ s ∈ w.states, s.register? t = some x.register

omit [DecidableEq V] in
theorem inv_init (now : JsString → ℤ) : Inv P record (World.init P record now) where
  ops := ⟨by simp [World.init], by simp [World.init], by simp [World.init], by simp [World.init],
    by simp [World.init]⟩
  states s hs := by
    obtain ⟨r, rfl⟩ := hs
    exact stateInv_empty _ _
  current r := ⟨r, rfl⟩
  own := by simp [World.init]
  bounded := by simp [World.init]
  written := by simp [World.init]

omit [DecidableEq V] in
theorem inv_hold {w : World V} (h : Inv P record w) {r : JsString} {s : State V}
    (hs : StateInv P record w.operations s) (hle : (w.current r).clock.count ≤ s.clock.count) :
    Inv P record (w.hold r s) where
  ops := h.ops
  states s' hs' := by
    rcases hs' with rfl | hs'
    · exact hs
    · exact h.states s' hs'
  current r' := by
    simp only [World.hold, Function.update_apply]
    split_ifs
    · exact Set.mem_insert s _
    · exact Set.mem_insert_of_mem s (h.current r')
  own x hx := by
    have hx' := h.own x hx
    simp only [World.hold, Function.update_apply]
    split_ifs with hr
    · exact (hr ▸ hx').trans hle
    · exact hx'
  bounded x hx a := by
    have hx' := h.bounded x hx a
    simp only [World.hold, Function.update_apply]
    split_ifs with hr
    · subst hr
      exact hx'.trans (hle a)
    · exact hx'
  written x hx t ht := by
    obtain ⟨s', hs', hr⟩ := h.written x hx t ht
    exact ⟨s', Set.mem_insert_of_mem s hs', hr⟩

theorem sameEntity_empty {ops : List (Operation V)} {s s' : State V} {x : Operation V}
    (h : StateInv P record ops s) (happly : applyOperation P (some s) x = .ok s') :
    s' = applyToRecord P s x ∧ sameEntity (emptyState P record 0) x := by
  obtain ⟨hs, hx⟩ := applyOperation_some P happly
  obtain ⟨h1, h2, h3⟩ := h.record
  exact ⟨hs, SameEntity.congr ⟨h1.symm, h2.symm, h3.symm⟩ hx⟩

theorem inv_deliver {w : World V} (h : Inv P record w) {r : JsString} {x : Operation V}
    {s : State V} (hx : x ∈ w.operations) (happly : applyOperation P (some (w.current r)) x = .ok s) :
    Inv P record (w.hold r s) := by
  have hc := h.states _ (h.current r)
  obtain ⟨rfl, -⟩ := applyOperation_some P happly
  have hop := h.ops.each x hx
  refine inv_hold h (stateInv_apply hc hx hop) ?_
  rw [applyToRecord_clock, joinClocks_count P hc.keys hop.keys]
  exact le_sup_left

theorem inv_merge {w : World V} (h : Inv P record w) (r : JsString) {s : State V}
    (hs : s ∈ w.states) : Inv P record (w.hold r (mergeStates P (w.current r) s)) := by
  have hc := h.states _ (h.current r)
  have hs' := h.states s hs
  have hrec := SameRecord.of_empty hc hs'
  refine inv_hold h (stateInv_merge hc hs') ?_
  rw [mergeStates_clock P hrec, joinClocks_count P hc.keys hs'.keys]
  exact le_sup_left

/-! ## A new operation -/

omit [DecidableEq V] in
theorem Created.reads {input : CreateOperationInput V} {x : Operation V}
    (h : Created P input x) {c : Clock} (hc : WellKeyed c) (hinput : input.clock = some c.raw) :
    Reads x.clock (Function.update c.count (replicaOf P x) (c.count (replicaOf P x) + 1)) := by
  have hk : IsKey (cleanKey P.nfkc (some x.actorId) localActor) := by
    rw [h.actorId]
    exact isKey_cleanKey_twice P.nfkc _ isKey_localActor
  rw [h.clock, hinput]
  exact reads_incrementClock P.nfkc (Reads.self hc) hk

/-- The new operation counts one more than any before it at its replica, and knows of another
operation's count only if it has seen the operation. -/
structure Fresh (w : World V) (x : Operation V) : Prop where
  pos : 0 < x.clock.count (replicaOf P x)
  count_self : ∀ y ∈ w.operations, y.clock.count (replicaOf P x) < x.clock.count (replicaOf P x)
  seen : ∀ y ∈ w.operations, y.clock.count (replicaOf P y) ≤ x.clock.count (replicaOf P y) →
    y.clock.count ≤ x.clock.count
  current_lt : (w.current (replicaOf P x)).clock.count < x.clock.count
  bounded : ∀ a, a ≠ replicaOf P x → x.clock.count a ≤ (w.current a).clock.count a

omit [DecidableEq V] in
theorem Created.fresh {w : World V} (h : Inv P record w) {input : CreateOperationInput V}
    {x : Operation V} (hx : Created P input x)
    (hinput : input.clock = some (w.current (replicaOf P x)).clock.raw) : Fresh (P := P) w x := by
  have hc := h.states _ (h.current (replicaOf P x))
  have hcount := (Reads.self (hx.reads hc.keys hinput).keys).eq (hx.reads hc.keys hinput)
  obtain ⟨D, hD, hsup⟩ := hc.seen
  have hle : (w.current (replicaOf P x)).clock.count ≤ x.clock.count := by
    rw [hcount]
    exact le_update_self_iff.2 (Nat.le_succ _)
  refine ⟨by rw [hcount, Function.update_self]; omega, fun y hy => ?_, fun y hy hyx => ?_, ?_,
    fun a ha => ?_⟩
  · have hb := h.bounded y hy (replicaOf P x)
    rw [hcount, Function.update_self]
    omega
  · by_cases hyr : replicaOf P y = replicaOf P x
    · exact (hyr ▸ h.own y hy).trans hle
    · rw [hcount, Function.update_of_ne hyr, hsup] at hyx
      obtain ⟨d, hd, hyd⟩ := History.exists_of_count_le (H := h.ops.history) hD hy hyx
      have hdD : d.clock.count ≤ (w.current (replicaOf P x)).clock.count := by
        rw [hsup]
        exact Finset.le_sup (f := fun x : Operation V => x.clock.count) hd
      exact (le_trans hyd hdD).trans hle
  · refine lt_of_le_not_ge hle fun hge => ?_
    have h1 : x.clock.count (replicaOf P x) ≤ (w.current (replicaOf P x)).clock.count (replicaOf P x) :=
      hge _
    rw [hcount, Function.update_self] at h1
    omega
  · rw [hcount, Function.update_of_ne ha, hsup, Finset.sup_apply]
    exact Finset.sup_le fun d hd => h.bounded d (hD d hd) a

omit [DecidableEq V] in
theorem opsInv_cons {w : World V} (h : OpsInv P record w.operations) {x : Operation V}
    (hop : OpInv P record x) (hf : Fresh (P := P) w x)
    (hid : ∀ y ∈ w.operations, y.operationId ≠ x.operationId) :
    OpsInv P record (x :: w.operations) where
  each y hy := by
    rcases List.mem_cons.1 hy with rfl | hy'
    · exact hop
    · exact h.each y hy'
  pos y hy := by
    rcases List.mem_cons.1 hy with rfl | hy'
    · exact hf.pos
    · exact h.pos y hy'
  causal y hy z hz hyz := by
    rcases List.mem_cons.1 hy with rfl | hy' <;> rcases List.mem_cons.1 hz with rfl | hz'
    · exact le_rfl
    · exact absurd hyz (hf.count_self z hz').not_ge
    · exact hf.seen y hy' hyz
    · exact h.causal y hy' z hz' hyz
  clock_inj y hy z hz he := by
    rcases List.mem_cons.1 hy with rfl | hy' <;> rcases List.mem_cons.1 hz with rfl | hz'
    · rfl
    · exact absurd (congrFun he _) (hf.count_self z hz').ne'
    · exact absurd (congrFun he _) (hf.count_self y hy').ne
    · exact h.clock_inj y hy' z hz' he
  id_inj y hy z hz he := by
    rcases List.mem_cons.1 hy with rfl | hy' <;> rcases List.mem_cons.1 hz with rfl | hz'
    · rfl
    · exact absurd he.symm (hid z hz')
    · exact absurd he (hid y hy')
    · exact h.id_inj y hy' z hz' he

theorem applied_register {s : State V} {x : Operation V} {ops : List (Operation V)}
    (hs : StateInv P record ops s) (hop : OpInv P record x) (hlt : s.clock.count < x.clock.count)
    {t : Target} (ht : x.target? = some t) :
    (applyToRecord P s x).register? t = some x.register := by
  rw [applyToRecord_register, if_pos ht]
  rcases hr : s.register? t with _ | c
  · rfl
  · obtain ⟨hk, hle⟩ := hs.registers t c hr
    have hxk : WellKeyed x.register.clock := register_clock x ▸ hop.keys
    rcases mergeRegister_cases P s.entityId hk hxk with ⟨-, h⟩ | ⟨h, -⟩ | ⟨h, -, -⟩
    · rw [h]
    · rw [register_clock] at h
      exact absurd (hlt.trans_le (h.trans hle)) (lt_irrefl _)
    · rw [register_clock] at h
      exact absurd (hle.trans hlt.le) h

theorem inv_create {w : World V} (h : Inv P record w) {input : CreateOperationInput V}
    {x : Operation V} {s : State V}
    (hclock : input.clock = some (w.current (replicaOf P x)).clock.raw)
    (hcreate : createOperation P input = .ok x)
    (hid : ∀ y ∈ w.operations, y.operationId ≠ x.operationId)
    (happly : applyOperation P (some (w.current (replicaOf P x))) x = .ok s) :
    Inv P record ({ w with operations := x :: w.operations }.hold (replicaOf P x) s) := by
  have hx := createOperation_ok P hcreate
  have hc := h.states _ (h.current (replicaOf P x))
  obtain ⟨rfl, hent⟩ := sameEntity_empty hc happly
  have hop : OpInv P record x := by
    refine ⟨hent, (hx.reads hc.keys hclock).keys, fun hp => hx.commitment ?_⟩
    by_contra hn
    exact hp (if_neg hn)
  have hf := hx.fresh h hclock
  have hcount : (applyToRecord P (w.current (replicaOf P x)) x).clock.count = x.clock.count := by
    rw [applyToRecord_clock, joinClocks_count P hc.keys hop.keys]
    exact sup_eq_right.2 hf.current_lt.le
  have hmono : ∀ y ∈ w.operations, y ∈ x :: w.operations := fun y hy => List.mem_cons_of_mem x hy
  have hnew : StateInv P record (x :: w.operations) (applyToRecord P (w.current (replicaOf P x)) x) :=
    stateInv_apply (hc.mono hmono) List.mem_cons_self hop
  refine ⟨opsInv_cons h.ops hop hf hid, ?_, ?_, ?_, ?_, ?_⟩
  · intro s' hs'
    rcases hs' with rfl | hs'
    · exact hnew
    · exact (h.states s' hs').mono hmono
  · intro r
    simp only [World.hold, Function.update_apply]
    split_ifs
    · exact Set.mem_insert _ _
    · exact Set.mem_insert_of_mem _ (h.current r)
  · intro y hy
    simp only [World.hold, Function.update_apply]
    rcases List.mem_cons.1 hy with rfl | hy
    · rw [if_pos rfl, hcount]
    · split_ifs with hr
      · rw [hcount]
        exact (hr ▸ h.own y hy).trans hf.current_lt.le
      · exact h.own y hy
  · intro y hy a
    simp only [World.hold, Function.update_apply]
    rcases List.mem_cons.1 hy with rfl | hy
    · split_ifs with ha
      · rw [hcount]
      · exact hf.bounded a ha
    · split_ifs with ha
      · subst ha
        rw [hcount]
        exact (hf.count_self y hy).le
      · exact h.bounded y hy a
  · intro y hy t ht
    rcases List.mem_cons.1 hy with rfl | hy
    · exact ⟨_, Set.mem_insert _ _, applied_register hc hop hf.current_lt ht⟩
    · obtain ⟨s', hs', hr⟩ := h.written y hy t ht
      exact ⟨s', Set.mem_insert_of_mem _ hs', hr⟩

theorem Step.inv {w w' : World V} (hstep : Step P w w') (h : Inv P record w) : Inv P record w' := by
  cases hstep with
  | create input x s hclock hcreate hnames hid happly => exact inv_create h hclock hcreate hid happly
  | deliver r x s hx happly => exact inv_deliver h hx happly
  | merge r s hs => exact inv_merge h r hs

theorem Reachable.inv {w : World V} (h : Reachable P record w) : Inv P record w := by
  induction h with
  | init now => exact inv_init now
  | step _ hstep ih => exact hstep.inv ih

/-- What holds of an empty state and is kept by an operation and by a merge holds of every state of
a run. -/
theorem Reachable.states {I : List (Operation V) → State V → Prop}
    (hmono : ∀ ops ops' s, (∀ x ∈ ops, x ∈ ops') → I ops s → I ops' s)
    (hempty : ∀ ops now, I ops (emptyState P record now))
    (happly : ∀ ops s x, x ∈ ops → I ops s → I ops (applyToRecord P s x))
    (hmerge : ∀ ops l r, l.SameRecord r → I ops l → I ops r → I ops (mergeStates P l r))
    {w : World V} (h : Reachable P record w) : ∀ s ∈ w.states, I w.operations s := by
  induction h with
  | init now =>
    rintro s ⟨r, rfl⟩
    exact hempty _ _
  | step hw hstep ih =>
    have hinv := hw.inv
    cases hstep with
    | create input x s hclock hcreate hnames hid hs =>
      have hold := fun s hs => hmono _ (x :: _) s (fun y hy => List.mem_cons_of_mem x hy) (ih s hs)
      rintro s' (rfl | hs')
      · obtain ⟨rfl, -⟩ := applyOperation_some P hs
        exact happly _ _ _ List.mem_cons_self (hold _ (hinv.current _))
      · exact hold s' hs'
    | deliver r x s hx hs =>
      rintro s' (rfl | hs')
      · obtain ⟨rfl, -⟩ := applyOperation_some P hs
        exact happly _ _ _ hx (ih _ (hinv.current r))
      · exact ih s' hs'
    | merge r s hs =>
      rintro s' (rfl | hs')
      · exact hmerge _ _ _ (SameRecord.of_empty (hinv.states _ (hinv.current r)) (hinv.states s hs))
          (ih _ (hinv.current r)) (ih s hs)
      · exact ih s' hs'

end Agid.AddressOfflineCrdt
