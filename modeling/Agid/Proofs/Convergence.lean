import Agid.Proofs.Registers
import Agid.Proofs.Members

/-!
# Convergence

Where no three writes of a run are misordered every state of the run is that of the operations it
has seen (`Reachable.holds`), so deliveries of the same operations have the same winners and merges
are unions.  Where three are, deliveries and merges of just those three differ.
-/

namespace Agid.AddressOfflineCrdt

open Causal

variable {V : Type} {P : Platform V} {record : CreateStateInput}

/-- Of three misordered writes only the second has seen another of them. -/
theorem Misordered.only {x y z : Operation V} (hm : Misordered P x y z) {a b : Operation V}
    (ha : a ∈ [x, y, z]) (hb : b ∈ [x, y, z])
    (hab : compareClocks P.nfkc (some a.clock.raw) (some b.clock.raw) = .before) :
    a = x ∧ b = y := by
  obtain ⟨-, hxy, hzx, hzy, -, -⟩ := hm
  rw [(compareClocks_iff P.nfkc _ _).1] at hxy hab
  rw [(compareClocks_iff P.nfkc _ _).2.2.2] at hzx hzy
  simp only [List.mem_cons, List.not_mem_nil, or_false] at ha hb
  rcases ha with rfl | rfl | rfl <;> rcases hb with rfl | rfl | rfl
  · exact absurd hab (lt_irrefl _)
  · exact ⟨rfl, rfl⟩
  · exact absurd hab.le hzx.2
  · exact absurd hab.le hxy.not_ge
  · exact absurd hab (lt_irrefl _)
  · exact absurd hab.le hzy.2
  · exact absurd hab.le hzx.1
  · exact absurd hab.le hzy.1
  · exact absurd hab (lt_irrefl _)

variable [DecidableEq V]

/-- In a run without misordered writes each state is that of some of the operations. -/
theorem Reachable.holds {w : World V} (h : Reachable P record w) :
    WellStamped P w.operations → ∀ s ∈ w.states, ∃ D, StateHolds h.inv.ops D s := by
  intro hno s hs
  refine Reachable.states (I := fun ops s => WellStamped P ops →
    ∀ h : OpsInv P record ops, ∃ D, StateHolds h D s) ?_ ?_ ?_ ?_ h s hs hno h.inv.ops
  · intro ops ops' s hsub hs hno h
    obtain ⟨D, hD⟩ := hs (fun x hx y hy z hz => hno x (hsub x hx) y (hsub y hy) z (hsub z hz))
      (h.of_subset hsub)
    exact ⟨D, hD.mono h hsub⟩
  · exact fun ops now _ h => ⟨∅, stateHolds_empty h now⟩
  · intro ops s x hx hs hno h
    obtain ⟨D, hD⟩ := hs hno h
    exact ⟨_, stateHolds_apply h hno hD hx⟩
  · intro ops l r hlr hl hr hno h
    obtain ⟨D, hD⟩ := hl hno h
    obtain ⟨D', hD'⟩ := hr hno h
    exact ⟨_, stateHolds_merge h hno hD hD' hlr⟩

/-! ## Deliveries -/

section Deliveries

variable {ops : List (Operation V)} (h : OpsInv P record ops)

include h in
theorem deliver_ops {l : List (Operation V)} (hl : ∀ x ∈ l, x ∈ ops) (now : ℤ) :
    deliver P (emptyState P record now) l
      = .ok (l.foldl (applyToRecord P) (emptyState P record now)) :=
  deliver_ok P l fun x hx => SameEntity.congr ⟨rfl, rfl, rfl⟩ (h.each x (hl x hx)).record

open scoped Classical in
theorem foldl_holds (hno : WellStamped P ops) : ∀ (l : List (Operation V)), (∀ x ∈ l, x ∈ ops) →
    ∀ {D : Finset (Operation V)} {s : State V}, StateHolds h D s →
      StateHolds h (D ∪ l.toFinset) (l.foldl (applyToRecord P) s)
  | [], _, D, s, hs => by simpa using hs
  | x :: l, hl, D, s, hs => by
    have hx := stateHolds_apply h hno hs (hl x List.mem_cons_self)
    have := foldl_holds hno l (fun y hy => hl y (List.mem_cons_of_mem x hy)) hx
    rwa [Finset.union_assoc, ← Finset.insert_eq, ← List.toFinset_cons] at this

/-- Three writes of one register, delivered in a row to an empty state. -/
theorem deliver_three {x y z : Operation V} {t : Target} (hx : x.target? = some t)
    (hy : y.target? = some t) (hz : z.target? = some t) (hox : x ∈ ops) (hoy : y ∈ ops)
    (hoz : z ∈ ops) (now : ℤ) :
    ∃ r, ([x, y, z].foldl (applyToRecord P) (emptyState P record now)).register? t = some r
      ∧ IsCell r (h.history.merge (h.history.merge (h.history.cell x) (h.history.cell y))
        (h.history.cell z)) := by
  have hempty : (emptyState P record now : State V).register? t = none := by cases t <;> rfl
  obtain ⟨r, hr, hc⟩ := (applied_isCell h hx (h.each x hox).keys).1 hempty
  obtain ⟨r', hr', hc'⟩ := (applied_isCell h hy (h.each y hoy).keys).2 r _ hr hc
  exact (applied_isCell h hz (h.each z hoz).keys).2 r' _ hr' hc'

end Deliveries

/-- Deliveries of the same operations have the same winners in exactly the runs in which no three
writes are misordered. -/
theorem converges_iff (w : World V) (hw : Reachable P record w) :
    Converges P record w ↔ StampsFollow P w := by
  classical
  have h := hw.inv.ops
  constructor
  · intro hconv x hx y hy z hz hm
    obtain ⟨⟨ht, hty, htz⟩, hmis⟩ := (Misordered.history h hx hy hz).1 hm
    obtain ⟨t, htx⟩ := Option.ne_none_iff_exists'.1 ht
    have hyx : y ≠ x := fun he => by
      rw [he] at hmis
      exact lt_irrefl _ hmis.seen
    have hyz : y ≠ z := fun he => hmis.apart_right.1 (he ▸ le_rfl)
    have hops : ∀ l : List (Operation V), (∀ a, a ∈ l ↔ a ∈ [x, y, z]) → ∀ a ∈ l, a ∈ w.operations := by
      intro l hl a ha
      have := (hl a).1 ha
      simp only [List.mem_cons, List.not_mem_nil, or_false] at this
      rcases this with rfl | rfl | rfl <;> assumption
    have hmem : ∀ a, a ∈ [z, x, y] ↔ a ∈ [x, y, z] := fun a => by
      simp only [List.mem_cons, List.not_mem_nil, or_false]
      tauto
    have honly : ∀ a ∈ [x, y, z], ∀ b ∈ [x, y, z], (replicaOf P a = replicaOf P b
        ∧ compareClocks P.nfkc (some a.clock.raw) (some b.clock.raw) = .before) → a = x ∧ b = y :=
      fun a ha b hb hab => hm.only ha hb hab.2
    have hl : Delivers P [x, y, z] [z, x, y] :=
      Delivery.delivers_of_only honly hmem (u := [z, x]) (v := []) rfl (by simp) (by simp [hyx, hyz])
    have hl' : Delivers P [x, y, z] [x, y, z] :=
      Delivery.delivers_of_only honly (fun a => Iff.rfl) (u := [x]) (v := [z]) rfl (by simp)
        (by simpa using hyx)
    obtain ⟨s, s', hs, hs', hwin⟩ := hconv [x, y, z] (hops _ fun a => Iff.rfl) _ _ hl hl' 0 0
    rw [deliver_ops h (hops _ hmem)] at hs
    rw [deliver_ops h (hops _ fun a => Iff.rfl)] at hs'
    obtain rfl := Except.ok.inj hs
    obtain rfl := Except.ok.inj hs'
    obtain ⟨r, hr, hc⟩ := deliver_three h (htz.trans htx) htx (hty.trans htx) hz hx hy 0
    obtain ⟨r', hr', hc'⟩ := deliver_three h htx (hty.trans htx) (htz.trans htx) hx hy hz 0
    have hid := hwin t
    rw [hr, hr', Option.map_some, Option.map_some, Option.some.injEq] at hid
    have hid' : r.operationId = r'.operationId := congrArg Prod.fst hid
    rw [hc.stamp.2, hc'.stamp.2, hmis.merge_left hx hy hz] at hid'
    refine hmis.merge_right.1 (h.id_inj _ ?_ x hx hid'.symm)
    have hwinner := History.merge_winner (H := h.history) x y z
    rcases hwinner with he | he | he <;> rw [he] <;> assumption
  · intro hno S hS l l' hl hl' now now'
    have hops : ∀ a ∈ l, a ∈ w.operations := fun a ha => hS a ((hl.mem a).1 ha)
    have hops' : ∀ a ∈ l', a ∈ w.operations := fun a ha => hS a ((hl'.mem a).1 ha)
    refine ⟨_, _, deliver_ops h hops now, deliver_ops h hops' now', fun t => ?_⟩
    have h1 := foldl_holds h hno l hops (stateHolds_empty h now)
    have h2 := foldl_holds h hno l' hops' (stateHolds_empty h now')
    have heq : l.toFinset = l'.toFinset := by
      ext a
      rw [List.mem_toFinset, List.mem_toFinset, hl.mem, hl'.mem]
    rw [heq] at h1
    exact h1.winning_eq h h2 t

/-! ## A replica whose clock of the wall goes back -/

/-- The step that creates an operation, computed. -/
def World.create (P : Platform V) (w : World V) (r : JsString) (input : CreateOperationInput V) :
    Option (World V) :=
  match createOperation P { input with clock := some (w.current r).clock.raw } with
  | .error _ => none
  | .ok x =>
    if replicaOf P x = r ∧ plainNames P x ∧ ∀ y ∈ w.operations, y.operationId ≠ x.operationId then
      match applyOperation P (some (w.current r)) x with
      | .error _ => none
      | .ok s => some ({ w with operations := x :: w.operations }.hold r s)
    else none

theorem World.create_step {w w' : World V} {r : JsString} {input : CreateOperationInput V}
    (h : World.create P w r input = some w') : Step P w w' ∧ ∀ s ∈ w.states, s ∈ w'.states := by
  unfold World.create at h
  split at h
  · simp at h
  · rename_i x hx
    split_ifs at h with hc
    split at h
    · simp at h
    · rename_i s hs
      obtain ⟨rfl, hnames, hid⟩ := hc
      obtain rfl := Option.some.inj h
      exact ⟨.create w _ x s rfl hx hnames hid hs, fun s' hs' => Set.mem_insert_of_mem s hs'⟩

def statusInput (actorId : JsString) (now : ℤ) (value : JsString) :
    CreateOperationInput JsString :=
  { blankInput with
    actorId := actorId
    now := now
    field := some (js "status")
    publicValue := some value }

/-- `pos-b` writes at 5 and then at 1. -/
def skewed1 : World JsString :=
  (World.create asciiPlatform (.init asciiPlatform sampleRecord fun _ => 0) (js "pos-b")
    (statusInput (js "pos-b") 5 (js "Rejected"))).get (by decide)

def skewed2 : World JsString :=
  (World.create asciiPlatform skewed1 (js "pos-b")
    (statusInput (js "pos-b") 1 (js "Recipient Pending"))).get (by decide)

/-- `pos-a` writes at 3 and has seen neither. -/
def skewedWorld : World JsString :=
  (World.create asciiPlatform skewed2 (js "pos-a")
    (statusInput (js "pos-a") 3 (js "Carrier Scan OK"))).get (by decide)

theorem skewed1_step : Step asciiPlatform (.init asciiPlatform sampleRecord fun _ => 0) skewed1 :=
  (World.create_step (Option.some_get _).symm).1

theorem skewed2_step : Step asciiPlatform skewed1 skewed2
    ∧ ∀ s ∈ skewed1.states, s ∈ skewed2.states :=
  World.create_step (Option.some_get _).symm

theorem skewedWorld_step : Step asciiPlatform skewed2 skewedWorld
    ∧ ∀ s ∈ skewed2.states, s ∈ skewedWorld.states :=
  World.create_step (Option.some_get _).symm

theorem skewed1_reachable : Reachable asciiPlatform sampleRecord skewed1 :=
  .step (.init fun _ => 0) skewed1_step

theorem skewedWorld_reachable : Reachable asciiPlatform sampleRecord skewedWorld :=
  .step (.step skewed1_reachable skewed2_step.1) skewedWorld_step.1

theorem converges_iff_skewed :
    Converges asciiPlatform sampleRecord skewedWorld ↔ StampsFollow asciiPlatform skewedWorld :=
  converges_iff skewedWorld skewedWorld_reachable

/-- Of the three writes the second of `pos-b` alone has seen another. -/
theorem skewed_operations : ∃ z y x : Operation JsString, skewedWorld.operations = [z, y, x]
    ∧ y ≠ z ∧ y ≠ x ∧ ∀ a ∈ [z, y, x], ∀ b ∈ [z, y, x],
      compareClocks asciiPlatform.nfkc (some a.clock.raw) (some b.clock.raw) = .before →
        a = x ∧ b = y := by
  have hlen : skewedWorld.operations.length = 3 := by decide
  have horder : (skewedWorld.operations.map fun a => skewedWorld.operations.map fun b =>
      compareClocks asciiPlatform.nfkc (some a.clock.raw) (some b.clock.raw))
        = [[.equal, .concurrent, .concurrent], [.concurrent, .equal, .after],
          [.concurrent, .before, .equal]] := by decide
  have htime : (skewedWorld.operations.map fun a => a.createdAt) = [3, 1, 5] := by decide
  obtain ⟨z, y, x, he⟩ := List.length_eq_three.1 hlen
  rw [he] at horder htime
  simp only [List.map_cons, List.map_nil, List.cons.injEq, and_true] at horder htime
  refine ⟨z, y, x, he, ?_, ?_, ?_⟩
  · rintro rfl
    omega
  · rintro rfl
    omega
  · simp only [List.mem_cons, List.not_mem_nil, or_false]
    rintro a (rfl | rfl | rfl) b (rfl | rfl | rfl) hab <;> simp_all

/-- The value of the status. -/
def statusOf (s : State JsString) : Option JsString :=
  (s.register? (.field (js "status"))).bind Register.publicValue

/-- With the third write between the other two the first of all wins. -/
theorem skewed_not_convergent : Reachable asciiPlatform sampleRecord skewedWorld
    ∧ ∃ l l', Delivers asciiPlatform skewedWorld.operations l
      ∧ Delivers asciiPlatform skewedWorld.operations l'
      ∧ ((deliver asciiPlatform (emptyState asciiPlatform sampleRecord 0) l).toOption.map statusOf
        = some (some (js "Carrier Scan OK")))
      ∧ ((deliver asciiPlatform (emptyState asciiPlatform sampleRecord 0) l').toOption.map statusOf
        = some (some (js "Rejected"))) := by
  refine ⟨skewedWorld_reachable, skewedWorld.operations.reverse,
    skewedWorld.operations.drop 2 ++ skewedWorld.operations.take 2, ?_, ?_, by decide,
    by decide⟩
  · obtain ⟨z, y, x, he, hyz, hyx, honly⟩ := skewed_operations
    rw [he]
    exact Delivery.delivers_of_only (fun a ha b hb hab => honly a ha b hb hab.2)
      (fun a => List.mem_reverse) (u := [x]) (v := [z]) rfl (by simp) (by simpa using hyx)
  · obtain ⟨z, y, x, he, hyz, hyx, honly⟩ := skewed_operations
    rw [he]
    exact Delivery.delivers_of_only (fun a ha b hb hab => honly a ha b hb hab.2)
      (fun a => by simp only [List.drop, List.take, List.mem_append, List.mem_cons,
        List.not_mem_nil, or_false]; tauto)
      (u := [x, z]) (v := []) rfl (by simp) (by simp [hyx, hyz])

/-! ## Merges -/

section Merges

variable {ops : List (Operation V)} (h : OpsInv P record ops)

omit [DecidableEq V] in
theorem StateInv.ownIds {s : State V} (hs : StateInv P record ops s) : s.OwnIds :=
  fun q m v hv => (hs.members q m v hv).1

theorem merge_count {l r : State V} (hl : StateInv P record ops l) (hr : StateInv P record ops r) :
    (mergeStates P l r).clock.count = l.clock.count ⊔ r.clock.count := by
  rw [mergeStates_clock P (SameRecord.of_empty hl hr), joinClocks_count P hl.keys hr.keys]

omit [DecidableEq V] in
theorem visible_congr {s s' : State V} (hs : s.OwnIds) (hs' : s'.OwnIds)
    (hadd : ∀ q m tag, tag ∈ s.addTags q m ↔ tag ∈ s'.addTags q m)
    (hremove : ∀ q m tag, tag ∈ s.removeTags q m ↔ tag ∈ s'.removeTags q m) (setName m : JsString) :
    m ∈ visibleIds P s setName ↔ m ∈ visibleIds P s' setName := by
  rw [mem_visibleIds P hs, mem_visibleIds P hs']
  simp only [hadd, hremove]

omit [DecidableEq V] in
/-- States of one record that have seen the same operations, by clocks and tags that read the same,
agree. -/
theorem StateHolds.agrees {D : Finset (Operation V)} {s s' : State V} (hs : StateHolds h D s)
    (hs' : StateHolds h D s') (hi : StateInv P record ops s) (hi' : StateInv P record ops s')
    (hclock : s.clock.count = s'.clock.count)
    (hadd : ∀ q m tag, tag ∈ s.addTags q m ↔ tag ∈ s'.addTags q m)
    (hremove : ∀ q m tag, tag ∈ s.removeTags q m ↔ tag ∈ s'.removeTags q m) : Agree P s s' where
  winning := hs.winning_eq h hs'
  registerClock := hs.count_eq h hs'
  clock := congrFun hclock
  visible := visible_congr hi.ownIds hi'.ownIds hadd hremove

section Laws

variable {a b c : State V} (ha : StateInv P record ops a) (hb : StateInv P record ops b)
  (hc : StateInv P record ops c) (hno : WellStamped P ops) {A B C : Finset (Operation V)}
  (hA : StateHolds h A a) (hB : StateHolds h B b) (hC : StateHolds h C c)

include ha hb hc hno hA hB hC in
theorem agree_assoc : Agree P (mergeStates P a (mergeStates P b c))
    (mergeStates P (mergeStates P a b) c) := by
  classical
  have hab := SameRecord.of_empty ha hb
  have hbc := SameRecord.of_empty hb hc
  have habi := stateInv_merge ha hb
  have hbci := stateInv_merge hb hc
  have h1 := SameRecord.of_empty ha hbci
  have h2 := SameRecord.of_empty habi hc
  have hl := stateHolds_merge h hno hA (stateHolds_merge h hno hB hC hbc) h1
  have hr := stateHolds_merge h hno (stateHolds_merge h hno hA hB hab) hC h2
  rw [← Finset.union_assoc] at hl
  refine hl.agrees h hr (stateInv_merge ha hbci) (stateInv_merge habi hc) ?_ (fun q m tag => ?_)
    fun q m tag => ?_
  · rw [merge_count ha hbci, merge_count hb hc, merge_count habi hc, merge_count ha hb, sup_assoc]
  · rw [mem_addTags_merge P h1, mem_addTags_merge P hbc, mem_addTags_merge P h2,
      mem_addTags_merge P hab, or_assoc]
  · rw [mem_removeTags_merge P h1, mem_removeTags_merge P hbc, mem_removeTags_merge P h2,
      mem_removeTags_merge P hab, or_assoc]

include ha hb hno hA hB in
theorem agree_comm : Agree P (mergeStates P a b) (mergeStates P b a) := by
  classical
  have hab := SameRecord.of_empty ha hb
  have hba := SameRecord.of_empty hb ha
  have hl := stateHolds_merge h hno hA hB hab
  have hr := stateHolds_merge h hno hB hA hba
  rw [Finset.union_comm] at hl
  refine hl.agrees h hr (stateInv_merge ha hb) (stateInv_merge hb ha) ?_ (fun q m tag => ?_)
    fun q m tag => ?_
  · rw [merge_count ha hb, merge_count hb ha, sup_comm]
  · rw [mem_addTags_merge P hab, mem_addTags_merge P hba, or_comm]
  · rw [mem_removeTags_merge P hab, mem_removeTags_merge P hba, or_comm]

include ha hno hA in
theorem agree_idem : Agree P (mergeStates P a a) a := by
  classical
  have haa := SameRecord.of_empty ha ha
  have hl := stateHolds_merge h hno hA hA haa
  rw [Finset.union_self] at hl
  refine hl.agrees h hA (stateInv_merge ha ha) ha ?_ (fun q m tag => ?_) fun q m tag => ?_
  · rw [merge_count ha ha, sup_idem]
  · rw [mem_addTags_merge P haa, or_self]
  · rw [mem_removeTags_merge P haa, or_self]

end Laws

end Merges

/-- Merging is a join of the states of exactly the runs in which no three writes are misordered. -/
theorem mergeLaws_iff (w : World V) (hw : Reachable P record w) :
    MergeLaws P w ↔ StampsFollow P w := by
  have hinv := hw.inv
  have h := hinv.ops
  constructor
  · intro hlaws x hx y hy z hz hm
    obtain ⟨⟨ht, hty, htz⟩, hmis⟩ := (Misordered.history h hx hy hz).1 hm
    obtain ⟨t, htx⟩ := Option.ne_none_iff_exists'.1 ht
    obtain ⟨sx, hsx, hrx⟩ := hinv.written x hx t htx
    obtain ⟨sy, hsy, hry⟩ := hinv.written y hy t (hty.trans htx)
    obtain ⟨sz, hsz, hrz⟩ := hinv.written z hz t (htz.trans htx)
    have hix := hinv.states sx hsx
    have hiy := hinv.states sy hsy
    have hiz := hinv.states sz hsz
    have hcx := isCell_register h (h.each x hx).keys
    have hcy := isCell_register h (h.each y hy).keys
    have hcz := isCell_register h (h.each z hz).keys
    obtain ⟨u, hu, hcu⟩ := merged_isCell h (SameRecord.of_empty hix hiy) hrx hcx hry hcy
    obtain ⟨v, hv, hcv⟩ := merged_isCell h (SameRecord.of_empty hiz (stateInv_merge hix hiy))
      hrz hcz hu hcu
    obtain ⟨u', hu', hcu'⟩ := merged_isCell h (SameRecord.of_empty hiz hix) hrz hcz hrx hcx
    obtain ⟨v', hv', hcv'⟩ := merged_isCell h (SameRecord.of_empty (stateInv_merge hiz hix) hiy)
      hu' hcu' hry hcy
    have hwin := (hlaws sz hsz sx hsx sy hsy).1.winning t
    rw [hv, hv', Option.map_some, Option.map_some, Option.some.injEq] at hwin
    have hid : v.operationId = v'.operationId := congrArg Prod.fst hwin
    rw [hcv.stamp.2, hcv'.stamp.2, hmis.merge_left hx hy hz] at hid
    have hmem : (h.history.merge (h.history.cell z)
        (h.history.merge (h.history.cell x) (h.history.cell y))).winner ∈ w.operations := by
      rcases History.merge_winner_or (H := h.history) (h.history.cell z)
        (h.history.merge (h.history.cell x) (h.history.cell y)) with he | he <;> rw [he]
      · exact hz
      · rcases History.merge_winner_or (H := h.history) (h.history.cell x)
          (h.history.cell y) with he | he <;> rw [he]
        · exact hx
        · exact hy
    exact hmis.merge_right.2 (h.id_inj _ hmem x hx hid)
  · intro hno a ha b hb c hc
    obtain ⟨A, hA⟩ := hw.holds hno a ha
    obtain ⟨B, hB⟩ := hw.holds hno b hb
    obtain ⟨C, hC⟩ := hw.holds hno c hc
    have hia := hinv.states a ha
    have hib := hinv.states b hb
    exact ⟨agree_assoc h hia hib (hinv.states c hc) hno hA hB hC,
      agree_comm h hia hib hno hA hB, agree_idem h hia hno hA⟩

theorem mergeLaws_iff_skewed : MergeLaws asciiPlatform skewedWorld
    ↔ StampsFollow asciiPlatform skewedWorld := mergeLaws_iff skewedWorld skewedWorld_reachable

/-- The state of `pos-a` and the two of `pos-b`, merged one way and the other. -/
theorem skewed_not_associative : Reachable asciiPlatform sampleRecord skewedWorld
    ∧ ∃ a ∈ skewedWorld.states, ∃ b ∈ skewedWorld.states, ∃ c ∈ skewedWorld.states,
      statusOf (mergeStates asciiPlatform a (mergeStates asciiPlatform b c))
          = some (js "Carrier Scan OK")
        ∧ statusOf (mergeStates asciiPlatform (mergeStates asciiPlatform a b) c)
          = some (js "Rejected") := by
  have hkept : ∀ s ∈ skewed1.states, s ∈ skewedWorld.states := fun s hs =>
    skewedWorld_step.2 s (skewed2_step.2 s hs)
  have hheld := skewedWorld_reachable.inv.current
  exact ⟨skewedWorld_reachable, skewedWorld.current (js "pos-a"), hheld _,
    skewed1.current (js "pos-b"), hkept _ (skewed1_reachable.inv.current _),
    skewedWorld.current (js "pos-b"), hheld _, by decide, by decide⟩

end Agid.AddressOfflineCrdt
