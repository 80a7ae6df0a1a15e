import Agid.Proofs.Convergence

/-!
# The conflict log

A merge logs what the two states logged and what it finds (`conflictIds_merge`), and a conflict it
finds is named by its two operations, the one of the left state first.  So the log depends on the
direction where the states conflict and have not logged it both ways.  The two results of a merge
hold the same registers; they can differ only in the commitment of a member.
-/

namespace Agid.AddressOfflineCrdt

variable {V : Type} (P : Platform V)

/-! ## What is logged -/

theorem conflictIds_mergeConflictLists (lists : List (List Conflict)) :
    conflictIds (mergeConflictLists lists) = ⋃ log ∈ lists, conflictIds log := by
  have hmem : ∀ c, c ∈ mergeConflictLists lists
      ↔ (lists.flatten.filter (·.conflictId = c.conflictId)).getLast? = some c := by
    intro c
    unfold mergeConflictLists
    rw [List.mem_insertionSort, Record.mem_values]
    simp only [Record.get?_foldl_set_last, Record.get?_empty, Option.or_none]
    constructor
    · rintro ⟨k, hk⟩
      have hc := (List.mem_filter.1 (List.mem_of_getLast? hk)).2
      simp only [decide_eq_true_eq] at hc
      rw [hc]
      exact hk
    · exact fun h => ⟨_, h⟩
  ext id
  simp only [Set.mem_iUnion, exists_prop]
  constructor
  · rintro ⟨c, hc, rfl⟩
    have := (List.mem_filter.1 (List.mem_of_getLast? ((hmem c).1 hc))).1
    obtain ⟨log, hlog, hcl⟩ := List.mem_flatten.1 this
    exact ⟨log, hlog, c, hcl, rfl⟩
  · rintro ⟨log, hlog, c, hc, rfl⟩
    have hne : lists.flatten.filter (·.conflictId = c.conflictId) ≠ [] := List.ne_nil_of_mem
      (List.mem_filter.2 ⟨List.mem_flatten.2 ⟨log, hlog, hc⟩, by simp⟩)
    have hlast := List.getLast?_eq_some_getLast hne
    have hid := (List.mem_filter.1 (List.mem_of_getLast? hlast)).2
    simp only [decide_eq_true_eq] at hid
    refine ⟨_, (hmem _).2 ?_, hid⟩
    rw [hid]
    exact hlast

theorem conflictIds_pair (log found : List Conflict) :
    conflictIds (mergeConflictLists [log, found]) = conflictIds log ∪ conflictIds found := by
  rw [conflictIds_mergeConflictLists]
  simp [Set.iUnion_iUnion_eq_or_left]

theorem conflictIds_logConflicts (log found : List Conflict) :
    conflictIds (logConflicts log found) = conflictIds log ∪ conflictIds found := by
  cases found with
  | nil => simp [logConflicts, conflictIds]
  | cons c found => exact conflictIds_pair log (c :: found)

/-- The ids of the conflicts built from the inputs. -/
def foundIds (found : List ConflictInput) : Set JsString := {id | ∃ c ∈ found, conflictId P c = id}

theorem conflictIds_map (found : List ConflictInput) :
    conflictIds (found.map (buildConflict P)) = foundIds P found := by
  ext id
  simp [conflictIds, foundIds, conflictId]

theorem foundIds_append (found found' : List ConflictInput) :
    foundIds P (found ++ found') = foundIds P found ∪ foundIds P found' := by
  ext id
  simp only [foundIds, List.mem_append, Set.mem_union, Set.mem_ofPred_eq, or_and_right, exists_or]

theorem foundIds_flatMap {α : Type*} (l : List α) (f : α → List ConflictInput) :
    foundIds P (l.flatMap f) = ⋃ a ∈ l, foundIds P (f a) := by
  ext id
  simp only [foundIds, List.mem_flatMap, Set.mem_iUnion, Set.mem_ofPred_eq, exists_prop]
  tauto

theorem commitmentConflicts_eq (entityId setName memberId : JsString) (existing : Option SetMember)
    (member : SetMember) (detectedAt : ℤ) :
    commitmentConflicts P entityId setName memberId existing (some member.memberCommitment)
        member.addTags.head? detectedAt
      = (memberConflicts entityId setName memberId detectedAt existing member).map
        (buildConflict P) := by
  cases existing with
  | none => rfl
  | some e =>
    unfold commitmentConflicts memberConflicts
    simp only [Option.some.injEq]
    split_ifs <;> rfl

variable [DecidableEq V]

theorem mergeRegister_conflicts (entityId : JsString) (current : Option (Register V))
    (incoming : Register V) : (mergeRegister P entityId current incoming).2
      = (registerConflicts P entityId current incoming).map (buildConflict P) := by
  cases current with
  | none => rfl
  | some c =>
    unfold mergeRegister registerConflicts
    by_cases ho : compareClocks P.nfkc (some c.clock.raw) (some incoming.clock.raw) = .concurrent
    · cases hs : sameDigest c incoming <;> simp [ho, hs, Clash, registerConflict]
    · have hc : ¬ Clash P c incoming := fun h => ho h.1
      simp only [hc, if_false, List.map_nil]
      split
      · rfl
      · rfl
      · rfl
      · exact absurd ‹_› ho

section Merge

variable {l r : State V}

theorem mergedFields_conflictIds (l r : State V) :
    conflictIds (mergedFields P l r).conflicts = (conflictIds l.conflicts ∪ conflictIds r.conflicts)
      ∪ ⋃ e ∈ r.fields.entries,
        foundIds P (registerConflicts P l.entityId (l.fields.get? e.1) e.2) := by
  have h := Record.foldl_found (mergeField P) Prod.fst (fun s : State V => conflictIds s.conflicts)
    (fun s e => foundIds P (registerConflicts P s.entityId (s.fields.get? e.1) e.2))
    (fun s e => by
      simp only [mergeField, conflictIds_pair, mergeRegister_conflicts, conflictIds_map])
    (fun s e e' he => by simp only [mergeField, Record.get?_set_of_ne _ _ he])
    r.fields.entries r.fields.nodup (mergeStart P l r)
  rw [mergedFields, h]
  simp only [mergeStart, conflictIds_pair]

theorem mergedTombstone_conflictIds (l r : State V) :
    conflictIds (mergedTombstone P l r).conflicts = conflictIds (mergedFields P l r).conflicts
      ∪ foundIds P (r.tombstone.toList.flatMap (registerConflicts P l.entityId l.tombstone)) := by
  have hl : (mergedFields P l r).tombstone = l.tombstone :=
    foldl_keeps State.tombstone (mergeField P) (fun _ _ => rfl) _ _
  have he : (mergedFields P l r).entityId = l.entityId :=
    foldl_keeps State.entityId (mergeField P) (fun _ _ => rfl) _ _
  rw [mergedTombstone]
  cases r.tombstone with
  | none => simp [mergeTombstone, foundIds]
  | some v =>
    simp only [mergeTombstone, conflictIds_pair, mergeRegister_conflicts, conflictIds_map, hl, he,
      Option.toList_some, List.flatMap_cons, List.flatMap_nil, List.append_nil]

omit [DecidableEq V] in
theorem mergeMember_conflictIds (q : JsString) (s : State V) (e : JsString × SetMember) :
    conflictIds (mergeMember P q s e).conflicts = conflictIds s.conflicts
      ∪ foundIds P (memberConflicts s.entityId q e.1 s.updatedAt (s.member? q e.1) e.2) := by
  simp only [mergeMember, conflictIds_logConflicts, commitmentConflicts_eq, conflictIds_map]

omit [DecidableEq V] in
theorem mergeSet_conflictIds (s : State V) (e : JsString × Record JsString SetMember) :
    conflictIds (mergeSet P s e).conflicts = conflictIds s.conflicts
      ∪ ⋃ f ∈ e.2.entries,
        foundIds P (memberConflicts s.entityId e.1 f.1 s.updatedAt (s.member? e.1 f.1) f.2) := by
  have h := Record.foldl_found (mergeMember P e.1) Prod.fst
    (fun s : State V => conflictIds s.conflicts)
    (fun s f => foundIds P (memberConflicts s.entityId e.1 f.1 s.updatedAt (s.member? e.1 f.1) f.2))
    (mergeMember_conflictIds P e.1)
    (fun s f f' hf => by
      rw [mergeMember_member, if_neg fun h => hf h.2]
      rfl)
    e.2.entries e.2.nodup (withSet s e.1)
  obtain ⟨h1, -, -, h4⟩ := withSet_header s e.1
  simp only [State.header, Prod.mk.injEq] at h1
  rw [mergeSet_eq, h]
  simp only [withSet_member, h1, h4]

/-- The log of a merge. -/
theorem conflictIds_merge (h : l.SameRecord r) :
    conflictIds (mergeStates P l r).conflicts = (conflictIds l.conflicts ∪ conflictIds r.conflicts)
      ∪ foundIds P (foundConflicts P l r) := by
  have hsets := Record.foldl_found (mergeSet P) Prod.fst (fun s : State V => conflictIds s.conflicts)
    (fun s e => ⋃ f ∈ e.2.entries,
      foundIds P (memberConflicts s.entityId e.1 f.1 s.updatedAt (s.member? e.1 f.1) f.2))
    (mergeSet_conflictIds P)
    (fun s e e' he => by
      have hh := (mergeSet_header P s e).1
      simp only [State.header, Prod.mk.injEq] at hh
      simp only [mergeSet_member, if_neg he, hh])
    r.sets.entries r.sets.nodup (mergedTombstone P l r)
  have hh := mergedTombstone_header P l r
  have hsub : (mergedTombstone P l r).sets = l.sets :=
    (mergeTombstone_header P _ _).2.2.trans (foldl_keeps State.sets (mergeField P) (fun _ _ => rfl) _ _)
  have hm : ∀ q m, (mergedTombstone P l r).member? q m = l.member? q m := fun q m => by
    rw [State.member?, hsub, State.member?]
  have hmax : (if l.updatedAt > r.updatedAt then l.updatedAt else r.updatedAt)
      = max l.updatedAt r.updatedAt := by
    split_ifs <;> omega
  simp only [State.header, mergeStart, Prod.mk.injEq, hmax] at hh
  rw [mergeStates_of_sameRecord P h, hsets, mergedTombstone_conflictIds, mergedFields_conflictIds]
  simp only [hm, hh, foundConflicts, foundIds_append, foundIds_flatMap, Set.union_assoc]

end Merge

/-! ## What a merge finds -/

theorem mem_registerConflicts {entityId : JsString} {o : Option (Register V)} {i : Register V}
    {c : ConflictInput} : c ∈ registerConflicts P entityId o i
      ↔ ∃ a, o = some a ∧ Clash P a i ∧ c = registerConflict entityId a i := by
  cases o with
  | none => simp [registerConflicts]
  | some a => simp [registerConflicts]

theorem mem_memberConflicts {entityId q m : JsString} {detectedAt : ℤ} {o : Option SetMember}
    {v : SetMember} {c : ConflictInput} : c ∈ memberConflicts entityId q m detectedAt o v
      ↔ ∃ e, o = some e ∧ e.memberCommitment ≠ v.memberCommitment
        ∧ c = memberConflict entityId q m detectedAt e.addTags.head? v.addTags.head? := by
  cases o with
  | none => simp [memberConflicts]
  | some e => simp [memberConflicts]

theorem mem_foundConflicts {l r : State V} {c : ConflictInput} : c ∈ foundConflicts P l r
    ↔ (∃ t a b, l.register? t = some a ∧ r.register? t = some b ∧ Clash P a b
        ∧ c = registerConflict l.entityId a b)
      ∨ ∃ q m e e', l.member? q m = some e ∧ r.member? q m = some e'
        ∧ e.memberCommitment ≠ e'.memberCommitment
        ∧ c = memberConflict l.entityId q m (max l.updatedAt r.updatedAt) e.addTags.head?
          e'.addTags.head? := by
  simp only [foundConflicts, List.mem_append, List.mem_flatMap, mem_registerConflicts,
    mem_memberConflicts, Prod.exists, Record.mem_entries, Option.mem_toList]
  constructor
  · rintro ((⟨k, b, hb, a, ha, h⟩ | ⟨b, hb, a, ha, h⟩) | ⟨q, set, hset, m, e', he', e, he, h⟩)
    · exact Or.inl ⟨.field k, a, b, ha, hb, h⟩
    · exact Or.inl ⟨.entity, a, b, ha, hb, h⟩
    · refine Or.inr ⟨q, m, e, e', he, ?_, h⟩
      rw [State.member?, hset]
      exact he'
  · rintro (⟨t, a, b, ha, hb, h⟩ | ⟨q, m, e, e', he, he', h⟩)
    · cases t with
      | field k => exact Or.inl (Or.inl ⟨k, b, hb, a, ha, h⟩)
      | entity => exact Or.inl (Or.inr ⟨b, hb, a, ha, h⟩)
    · obtain ⟨set, hset, hm⟩ := Option.bind_eq_some_iff.1 he'
      exact Or.inr ⟨q, set, hset, m, e', hm, e, he, h⟩

/-! ## What the states of a run hold -/

variable {P} {record : CreateStateInput}

/-- The registers of a state are of operations of the run, and its tags are sorted. -/
structure Written (ops : List (Operation V)) (s : State V) : Prop where
  registers : ∀ t v, s.register? t = some v →
    ∃ x ∈ ops, x.target? = some t ∧ v = { x.register with clock := v.clock }
  tags : ∀ q m e, s.member? q m = some e → ∃ tags, e.addTags = sortedSet tags

omit [DecidableEq V] in
theorem Written.mono {ops ops' : List (Operation V)} {s : State V} (h : Written ops s)
    (hs : ∀ x ∈ ops, x ∈ ops') : Written ops' s where
  registers t v hv := by
    obtain ⟨x, hx, h1, h2⟩ := h.registers t v hv
    exact ⟨x, hs x hx, h1, h2⟩
  tags := h.tags

omit [DecidableEq V] in
theorem written_empty (ops : List (Operation V)) (now : ℤ) :
    Written ops (emptyState P record now) where
  registers t v hv := by cases t <;> simp [State.register?, emptyState, createState] at hv
  tags q m e he := by simp [State.member?, emptyState, createState] at he

theorem written_apply {ops : List (Operation V)} {s : State V} (h : Written ops s)
    {x : Operation V} (hx : x ∈ ops) : Written ops (applyToRecord P s x) where
  registers t v hv := by
    rw [applyToRecord_register] at hv
    split_ifs at hv with ht
    · obtain rfl := Option.some.inj hv
      rcases mergeRegister_content P s.entityId (s.register? t) x.register with
        ⟨c, hc, he⟩ | he
      · obtain ⟨y, hy, hty, hcy⟩ := h.registers t c hc
        refine ⟨y, hy, hty, he.trans ?_⟩
        rw [hcy]
      · exact ⟨x, hx, ht, he⟩
    · exact h.registers t v hv
  tags q m e he := by
    rw [applyToRecord_member] at he
    split_ifs at he with hp
    · obtain rfl := Option.some.inj he
      exact ⟨_, rfl⟩
    · exact h.tags q m e he

theorem written_merge {ops : List (Operation V)} {l r : State V} (hlr : l.SameRecord r)
    (hl : Written ops l) (hr : Written ops r) : Written ops (mergeStates P l r) where
  registers t v hv := by
    rw [mergeStates_register P hlr] at hv
    rcases hrt : r.register? t with _ | i
    · rw [hrt] at hv
      exact hl.registers t v hv
    · simp only [hrt, Option.some.injEq] at hv
      subst hv
      rcases mergeRegister_content P l.entityId (l.register? t) i with ⟨c, hc, he⟩ | he
      · obtain ⟨y, hy, hty, hcy⟩ := hl.registers t c hc
        refine ⟨y, hy, hty, he.trans ?_⟩
        rw [hcy]
      · obtain ⟨y, hy, hty, hiy⟩ := hr.registers t i hrt
        refine ⟨y, hy, hty, he.trans ?_⟩
        rw [hiy]
  tags q m e he := by
    rw [mergeStates_member P hlr] at he
    rcases hrm : r.member? q m with _ | e'
    · rw [hrm] at he
      exact hl.tags q m e he
    · simp only [hrm, Option.some.injEq] at he
      subst he
      exact ⟨_, rfl⟩

theorem Reachable.written {w : World V} (h : Reachable P record w) :
    ∀ s ∈ w.states, Written w.operations s :=
  Reachable.states (fun _ _ _ hs h => h.mono hs) written_empty (fun _ _ _ hx h => written_apply h hx)
    (fun _ _ _ hlr hl hr => written_merge hlr hl hr) h

/-! ## Both directions -/

theorem Clash.symm {a b : Register V} (h : Clash P a b) : Clash P b a := by
  obtain ⟨ho, hs⟩ := h
  refine ⟨?_, ?_⟩
  · rw [(compareClocks_iff P.nfkc _ _).2.2.2] at ho ⊢
    exact ho.symm
  · rw [← hs]
    simp only [sameDigest, eq_comm (a := b.publicValue), eq_comm (a := b.valueCommitment),
      eq_comm (a := b.tombstone)]

omit [DecidableEq V] in
theorem Logged.symm {l r : State V} {c : ConflictInput} (h : Logged P l r c) : Logged P r l c := by
  unfold Logged
  rw [Set.union_comm]
  exact h

section Directions

variable {ops : List (Operation V)} (h : OpsInv P record ops) {l r : State V}
  (hl : StateInv P record ops l) (hr : StateInv P record ops r) (hwl : Written ops l)
  (hwr : Written ops r)

include hl hr in
/-- The two results hold registers of one clock. -/
theorem merged_not_clash {t : Target} {u v : Register V}
    (hu : (mergeStates P l r).register? t = some u) (hv : (mergeStates P r l).register? t = some v) :
    ¬ Clash P u v := by
  have hlr := SameRecord.of_empty hl hr
  have hrl := SameRecord.of_empty hr hl
  have hku := (stateInv_merge hl hr).registers t u hu
  have hkv := (stateInv_merge hr hl).registers t v hv
  suffices hcount : u.clock.count = v.clock.count by
    rintro ⟨ho, -⟩
    exact ((compareClocks_eq P.nfkc (Reads.self hku.1) (Reads.self hkv.1)).2.2.2.1 ho).1 hcount.le
  rw [mergeStates_register P hlr] at hu
  rw [mergeStates_register P hrl] at hv
  rcases hlt : l.register? t with _ | a <;> rcases hrt : r.register? t with _ | b <;>
    simp only [hlt, hrt, Option.some.injEq, reduceCtorEq] at hu hv
  · rw [← hu, ← hv]
    rfl
  · rw [← hu, ← hv]
    rfl
  · have ha := (hl.registers t a hlt).1
    have hb := (hr.registers t b hrt).1
    rw [← hu, ← hv, mergeRegister_count P _ ha hb, mergeRegister_count P _ hb ha, sup_comm]

/-- The first tag of both members. -/
def firstTag (e e' : SetMember) : Option JsString := (sortedSet (e.addTags ++ e'.addTags)).head?

omit [DecidableEq V] in
theorem firstTag_comm (e e' : SetMember) : firstTag e e' = firstTag e' e :=
  congrArg List.head? (SortedSet.ofList_congr fun tag => by rw [List.mem_append, List.mem_append, or_comm])

include hl hr in
/-- The member of two commitments has the left one after a merge. -/
theorem merged_member {q m : JsString} {e e' : SetMember} (he : l.member? q m = some e)
    (he' : r.member? q m = some e') :
    ∃ v, (mergeStates P l r).member? q m = some v ∧ v.memberCommitment = e.memberCommitment
      ∧ v.addTags.head? = firstTag e e' := by
  rw [mergeStates_member P (SameRecord.of_empty hl hr), he, he']
  refine ⟨_, rfl, ?_, rfl⟩
  simp [mergedMember, truthy_some (hl.members q m e he).2]

include hl hr in
/-- Where the results have a member under two commitments so have the states. -/
theorem merged_mismatch {q m : JsString} {v v' : SetMember}
    (hv : (mergeStates P l r).member? q m = some v) (hv' : (mergeStates P r l).member? q m = some v')
    (hne : v.memberCommitment ≠ v'.memberCommitment) :
    ∃ e e', l.member? q m = some e ∧ r.member? q m = some e'
      ∧ e.memberCommitment ≠ e'.memberCommitment ∧ v.addTags.head? = firstTag e e'
      ∧ v'.addTags.head? = firstTag e e' := by
  rcases hlm : l.member? q m with _ | e <;> rcases hrm : r.member? q m with _ | e'
  · rw [mergeStates_member P (SameRecord.of_empty hl hr), hlm, hrm] at hv
    cases hv
  · rw [mergeStates_member P (SameRecord.of_empty hl hr), hlm, hrm] at hv
    rw [mergeStates_member P (SameRecord.of_empty hr hl), hlm, hrm] at hv'
    obtain rfl := Option.some.inj hv
    obtain rfl := Option.some.inj hv'
    exact absurd rfl hne
  · rw [mergeStates_member P (SameRecord.of_empty hl hr), hlm, hrm] at hv
    rw [mergeStates_member P (SameRecord.of_empty hr hl), hlm, hrm] at hv'
    obtain rfl := Option.some.inj hv
    obtain rfl := Option.some.inj hv'
    exact absurd rfl hne
  · obtain ⟨u, hu, hc, ht⟩ := merged_member hl hr hlm hrm
    obtain ⟨u', hu', hc', ht'⟩ := merged_member hr hl hrm hlm
    obtain rfl := Option.some.inj (hv.symm.trans hu)
    obtain rfl := Option.some.inj (hv'.symm.trans hu')
    rw [hc, hc'] at hne
    exact ⟨e, e', rfl, rfl, hne, ht, ht'.trans (firstTag_comm e' e)⟩

include hl hr in
/-- Merging the results finds the members of two commitments only, under the first of all tags. -/
theorem mem_foundConflicts_merged {c : ConflictInput} :
    c ∈ foundConflicts P (mergeStates P l r) (mergeStates P r l)
      ↔ ∃ q m e e', l.member? q m = some e ∧ r.member? q m = some e'
        ∧ e.memberCommitment ≠ e'.memberCommitment
        ∧ c = memberConflict l.entityId q m (max l.updatedAt r.updatedAt) (firstTag e e')
          (firstTag e e') := by
  have hlr := SameRecord.of_empty hl hr
  have hrl := SameRecord.of_empty hr hl
  have hentity : (mergeStates P l r).entityId = l.entityId := (mergeStates_sameRecord P hlr).1
  have hat : max (mergeStates P l r).updatedAt (mergeStates P r l).updatedAt
      = max l.updatedAt r.updatedAt := by
    rw [mergeStates_updatedAt P hlr, mergeStates_updatedAt P hrl]
    omega
  rw [mem_foundConflicts, hentity, hat]
  constructor
  · rintro (⟨t, u, v, hu, hv, hc, -⟩ | ⟨q, m, v, v', hv, hv', hne, rfl⟩)
    · exact absurd hc (merged_not_clash hl hr hu hv)
    · obtain ⟨e, e', he, he', hne', ht, ht'⟩ := merged_mismatch hl hr hv hv' hne
      exact ⟨q, m, e, e', he, he', hne', by rw [ht, ht']⟩
  · rintro ⟨q, m, e, e', he, he', hne, rfl⟩
    obtain ⟨v, hv, hc, ht⟩ := merged_member hl hr he he'
    obtain ⟨v', hv', hc', ht'⟩ := merged_member hr hl he' he
    refine Or.inr ⟨q, m, v, v', hv, hv', by rwa [hc, hc'], ?_⟩
    rw [ht, ht', firstTag_comm e' e]

omit [DecidableEq V] in
theorem conflictId_inj {c d : ConflictInput} (hcd : conflictId P c = conflictId P d) :
    P.conflictDigest c = P.conflictDigest d := List.append_cancel_left hcd

include h hwl hwr in
/-- A conflict of two registers is found one way only. -/
theorem registerConflict_not_found {t : Target} {a b : Register V} (ha : l.register? t = some a)
    (hb : r.register? t = some b) (hc : Clash P a b) :
    registerConflict l.entityId a b ∉ foundConflicts P r l := by
  rw [mem_foundConflicts]
  rintro (⟨t', b', a', hb', ha', -, he⟩ | ⟨q, m, e, e', -, -, -, he⟩)
  · simp only [registerConflict, ConflictInput.mk.injEq, Option.some.injEq] at he
    obtain ⟨x, hx, htx, hax⟩ := hwl.registers t a ha
    obtain ⟨y, hy, hty, hby⟩ := hwr.registers t' b' hb'
    have hxy : x = y := h.id_inj x hx y hy (by
      rw [← (register_stamp x).2, ← (register_stamp y).2]
      rw [hax, hby] at he
      exact he.2.2.2.2.2.2.1)
    subst hxy
    obtain rfl := Option.some.inj (htx.symm.trans hty)
    obtain rfl := Option.some.inj (hb.symm.trans hb')
    have hs := hc.2
    rw [hax, hby] at hs
    simp [sameDigest] at hs
  · simp [registerConflict, memberConflict] at he

/-- A member's conflict is found one way only where the first tags differ. -/
theorem memberConflict_not_found {q m : JsString} {e e' : SetMember}
    {detectedAt : ℤ} (he' : r.member? q m = some e')
    (hne : e.addTags.head? ≠ e'.addTags.head?) :
    memberConflict l.entityId q m detectedAt e.addTags.head? e'.addTags.head?
      ∉ foundConflicts P r l := by
  rw [mem_foundConflicts]
  rintro (⟨t, b, a, -, -, -, hc⟩ | ⟨q', m', f', f, hf', hf, -, hc⟩)
  · simp [registerConflict, memberConflict] at hc
  · simp only [memberConflict, ConflictInput.mk.injEq, Option.some.injEq] at hc
    obtain ⟨-, -, -, -, rfl, rfl, h1, -, -⟩ := hc
    obtain rfl := Option.some.inj (he'.symm.trans hf')
    exact hne h1

/-! ## One log -/

/-- The digests of what the two directions find differ. -/
def DirectionsDiffer (P : Platform V) (l r : State V) : Prop :=
  ∀ c ∈ foundConflicts P l r, ∀ d ∈ foundConflicts P r l,
    P.conflictDigest c = P.conflictDigest d → c = d

/-- What one direction alone finds has to be in a log already. -/
theorem logged_of_direction (hlr : l.SameRecord r) (hd : DirectionsDiffer P l r)
    (hsame : conflictIds (mergeStates P l r).conflicts = conflictIds (mergeStates P r l).conflicts)
    {c : ConflictInput} (hc : c ∈ foundConflicts P l r) (hn : c ∉ foundConflicts P r l) :
    Logged P l r c := by
  have hrl : r.SameRecord l := ⟨hlr.1.symm, hlr.2.1.symm, hlr.2.2.symm⟩
  have hmem : conflictId P c ∈ conflictIds (mergeStates P l r).conflicts := by
    rw [conflictIds_merge P hlr]
    exact Or.inr ⟨c, hc, rfl⟩
  rw [hsame, conflictIds_merge P hrl, Set.union_comm (conflictIds r.conflicts)] at hmem
  rcases hmem with hlog | ⟨d, hdm, hid⟩
  · exact hlog
  · exact absurd (hd c hc d hdm (conflictId_inj hid.symm) ▸ hdm) hn

include h hl hr hwl hwr in
theorem registers_logged (hd : DirectionsDiffer P l r)
    (hsame : conflictIds (mergeStates P l r).conflicts = conflictIds (mergeStates P r l).conflicts)
    {t : Target} {a b : Register V} (ha : l.register? t = some a) (hb : r.register? t = some b)
    (hc : Clash P a b) : Logged P l r (registerConflict l.entityId a b) :=
  logged_of_direction (SameRecord.of_empty hl hr) hd hsame
    ((mem_foundConflicts P).2 (Or.inl ⟨t, a, b, ha, hb, hc, rfl⟩))
    (registerConflict_not_found h hwl hwr ha hb hc)

include hl hr in
theorem members_logged (hd : DirectionsDiffer P l r)
    (hsame : conflictIds (mergeStates P l r).conflicts = conflictIds (mergeStates P r l).conflicts)
    {q m : JsString} {e e' : SetMember} (he : l.member? q m = some e)
    (he' : r.member? q m = some e') (hne : e.memberCommitment ≠ e'.memberCommitment)
    (ht : e.addTags.head? ≠ e'.addTags.head?) :
    Logged P l r (memberConflict l.entityId q m (max l.updatedAt r.updatedAt) e.addTags.head?
      e'.addTags.head?) :=
  logged_of_direction (SameRecord.of_empty hl hr) hd hsame
    ((mem_foundConflicts P).2 (Or.inr ⟨q, m, e, e', he, he', hne, rfl⟩))
    (memberConflict_not_found he' ht)

include h hl hr hwl hwr in
theorem bothOrdersLogged_of_oneLog (hd : DigestsDiffer P l r) (ho : OneLog P l r) :
    BothOrdersLogged P l r := by
  have hlr := SameRecord.of_empty hl hr
  have hentity : r.entityId = l.entityId := hlr.1.symm
  have hd1 : DirectionsDiffer P l r := fun c hc d hd' =>
    hd c (List.mem_append_left _ (List.mem_append_left _ hc)) d
      (List.mem_append_left _ (List.mem_append_right _ hd'))
  have hd2 : DirectionsDiffer P r l := fun c hc d hd' he => (hd1 d hd' c hc he.symm).symm
  refine ⟨fun t a b ha hb hc => ⟨registers_logged h hl hr hwl hwr hd1 ho.direction ha hb hc, ?_⟩,
    fun q m e e' he he' hne ht => ⟨members_logged hl hr hd1 ho.direction he he' hne ht, ?_, ?_⟩⟩
  · have := registers_logged h hr hl hwr hwl hd2 ho.direction.symm hb ha hc.symm
    rw [hentity] at this
    exact this.symm
  · have := members_logged hr hl hd2 ho.direction.symm he' he hne.symm ht.symm
    rw [hentity, max_comm] at this
    exact this.symm
  · -- the two results find the member once more
    set c := memberConflict l.entityId q m (max l.updatedAt r.updatedAt) (firstTag e e')
      (firstTag e e') with hc
    have hfound : c ∈ foundConflicts P (mergeStates P l r) (mergeStates P r l) :=
      (mem_foundConflicts_merged hl hr).2 ⟨q, m, e, e', he, he', hne, rfl⟩
    have hmem : conflictId P c ∈ conflictIds (mergeStates P (mergeStates P l r)
        (mergeStates P r l)).conflicts := by
      rw [conflictIds_merge P (SameRecord.of_empty (stateInv_merge hl hr) (stateInv_merge hr hl))]
      exact Or.inr ⟨c, hfound, rfl⟩
    rw [ho.again, conflictIds_merge P hlr] at hmem
    rcases hmem with hlog | ⟨d, hdm, hid⟩
    · exact hlog
    · have hdc : d = c := hd d (List.mem_append_left _ (List.mem_append_left _ hdm)) c
        (List.mem_append_right _ hfound) (conflictId_inj hid)
      rw [hdc, mem_foundConflicts] at hdm
      rcases hdm with ⟨t, a, b, -, -, -, hcc⟩ | ⟨q', m', f, f', hf, hf', -, hcc⟩
      · simp [hc, registerConflict, memberConflict] at hcc
      · simp only [hc, memberConflict, ConflictInput.mk.injEq, Option.some.injEq] at hcc
        obtain ⟨-, -, -, -, rfl, rfl, h1, h2, -⟩ := hcc
        obtain rfl := Option.some.inj (he.symm.trans hf)
        obtain rfl := Option.some.inj (he'.symm.trans hf')
        exact absurd (h1.symm.trans h2) ht

omit [DecidableEq V] in
include hwl hwr in
/-- A first tag that is both members' is the first of all their tags. -/
theorem firstTag_eq {q m : JsString} {e e' : SetMember} (he : l.member? q m = some e)
    (he' : r.member? q m = some e') (ht : e.addTags.head? = e'.addTags.head?) :
    firstTag e e' = e.addTags.head? := by
  obtain ⟨tags, hs⟩ := hwl.tags q m e he
  obtain ⟨tags', hs'⟩ := hwr.tags q m e' he'
  rw [hs, hs'] at ht
  rw [firstTag, hs, hs']
  exact SortedSet.head_ofList_append ht

theorem BothOrdersLogged.symm (hlr : l.SameRecord r) (hb : BothOrdersLogged P l r) :
    BothOrdersLogged P r l where
  registers t a b ha hb' hc := by
    obtain ⟨h1, h2⟩ := hb.registers t b a hb' ha hc.symm
    rw [← hlr.1]
    exact ⟨h2.symm, h1.symm⟩
  members q m e e' he he' hne ht := by
    obtain ⟨h1, h2, h3⟩ := hb.members q m e' e he' he hne.symm ht.symm
    rw [← hlr.1, max_comm]
    refine ⟨h2.symm, h1.symm, ?_⟩
    have := firstTag_comm e e'
    unfold firstTag at this
    rw [this]
    exact h3.symm

include hl hr hwl hwr in
/-- With both orders logged one direction logs what the other does, and merging the results finds
nothing new. -/
theorem direction_of_bothOrdersLogged (hb : BothOrdersLogged P l r) :
    conflictIds (mergeStates P l r).conflicts ⊆ conflictIds (mergeStates P r l).conflicts
      ∧ foundIds P (foundConflicts P (mergeStates P l r) (mergeStates P r l))
        ⊆ conflictIds (mergeStates P l r).conflicts := by
  have hlr := SameRecord.of_empty hl hr
  have hrl := SameRecord.of_empty hr hl
  have hlogged : ∀ c, Logged P l r c → conflictId P c ∈ conflictIds (mergeStates P l r).conflicts
      ∧ conflictId P c ∈ conflictIds (mergeStates P r l).conflicts := fun c hc => by
    rw [conflictIds_merge P hlr, conflictIds_merge P hrl]
    exact ⟨Or.inl hc, Or.inl hc.symm⟩
  constructor
  · rw [conflictIds_merge P hlr]
    rintro id (hid | ⟨c, hc, rfl⟩)
    · rw [conflictIds_merge P hrl, Set.union_comm (conflictIds r.conflicts)]
      exact Or.inl hid
    · rcases (mem_foundConflicts P).1 hc with ⟨t, a, b, ha, hb', hcl, rfl⟩
        | ⟨q, m, e, e', he, he', hne, rfl⟩
      · exact (hlogged _ (hb.registers t a b ha hb' hcl).1).2
      · by_cases ht : e.addTags.head? = e'.addTags.head?
        · -- the other direction finds the same conflict
          rw [conflictIds_merge P hrl]
          refine Or.inr ⟨_, (mem_foundConflicts P).2 (Or.inr ⟨q, m, e', e, he', he, hne.symm, rfl⟩), ?_⟩
          rw [ht, hlr.1, max_comm]
        · exact (hlogged _ (hb.members q m e e' he he' hne ht).1).2
  · rintro id ⟨c, hc, rfl⟩
    obtain ⟨q, m, e, e', he, he', hne, rfl⟩ := (mem_foundConflicts_merged hl hr).1 hc
    by_cases ht : e.addTags.head? = e'.addTags.head?
    · rw [conflictIds_merge P hlr]
      refine Or.inr ⟨_, (mem_foundConflicts P).2 (Or.inr ⟨q, m, e, e', he, he', hne, rfl⟩), ?_⟩
      rw [firstTag_eq hwl hwr he he' ht, ht]
    · exact (hlogged _ (hb.members q m e e' he he' hne ht).2.2).1

include hl hr hwl hwr in
theorem oneLog_of_bothOrdersLogged (hb : BothOrdersLogged P l r) : OneLog P l r := by
  have hlr := SameRecord.of_empty hl hr
  obtain ⟨h1, h2⟩ := direction_of_bothOrdersLogged hl hr hwl hwr hb
  obtain ⟨h3, h4⟩ := direction_of_bothOrdersLogged hr hl hwr hwl (hb.symm hlr)
  have hml := stateInv_merge hl hr
  have hmr := stateInv_merge hr hl
  refine ⟨h1.antisymm h3, ?_, ?_⟩
  · rw [conflictIds_merge P (SameRecord.of_empty hml hmr), Set.union_assoc]
    exact Set.union_eq_left.2 (Set.union_subset h3 h2)
  · rw [conflictIds_merge P (SameRecord.of_empty hmr hml), Set.union_assoc]
    exact Set.union_eq_left.2 (Set.union_subset h1 h4)

end Directions

/-- The log of two states of a run does not depend on the direction if and only if what they have in
conflict has been logged in both. -/
theorem oneLog_iff (w : World V) (hw : Reachable P record w) (l r : State V) (hl : l ∈ w.states)
    (hr : r ∈ w.states) (hd : DigestsDiffer P l r) : OneLog P l r ↔ BothOrdersLogged P l r := by
  have hil := hw.inv.states l hl
  have hir := hw.inv.states r hr
  have hwl := hw.written l hl
  have hwr := hw.written r hr
  exact ⟨bothOrdersLogged_of_oneLog hw.inv.ops hil hir hwl hwr hd,
    oneLog_of_bothOrdersLogged hil hir hwl hwr⟩

/-- `pos-b` has written the status and `pos-a`, which has not seen it, writes another one. -/
def clashWorld : World JsString :=
  (World.create asciiPlatform skewed1 (js "pos-a")
    (statusInput (js "pos-a") 3 (js "Carrier Scan OK"))).get (by decide)

theorem clashWorld_reachable : Reachable asciiPlatform sampleRecord clashWorld :=
  .step skewed1_reachable (World.create_step (Option.some_get _).symm).1

theorem oneLog_iff_clash : OneLog asciiPlatform (clashWorld.current (js "pos-a"))
      (clashWorld.current (js "pos-b"))
    ↔ BothOrdersLogged asciiPlatform (clashWorld.current (js "pos-a"))
      (clashWorld.current (js "pos-b")) :=
  oneLog_iff clashWorld clashWorld_reachable _ _ (clashWorld_reachable.inv.current _)
    (clashWorld_reachable.inv.current _) (by unfold DigestsDiffer; decide)

/-- The state of `pos-a` merged with that of `pos-b` has one conflict id and the other way round
another. -/
theorem clash_not_oneLog : Reachable asciiPlatform sampleRecord clashWorld
    ∧ ∃ l ∈ clashWorld.states, ∃ r ∈ clashWorld.states, ¬ OneLog asciiPlatform l r := by
  have hheld := clashWorld_reachable.inv.current
  refine ⟨clashWorld_reachable, _, hheld (js "pos-a"), _, hheld (js "pos-b"), fun h => ?_⟩
  have hl : (mergeStates asciiPlatform (clashWorld.current (js "pos-a"))
      (clashWorld.current (js "pos-b"))).conflicts.map Conflict.conflictId
        = [js "AOSC-CONFLICT-/AOSC-pos-a\u0003/AOSC-pos-b\u0005"] := by decide
  have hr : (mergeStates asciiPlatform (clashWorld.current (js "pos-b"))
      (clashWorld.current (js "pos-a"))).conflicts.map Conflict.conflictId
        = [js "AOSC-CONFLICT-/AOSC-pos-b\u0005/AOSC-pos-a\u0003"] := by decide
  have hids : ∀ log : List Conflict, conflictIds log = {id | id ∈ log.map Conflict.conflictId} :=
    fun log => by
      ext id
      simp [conflictIds]
  have hdir := h.direction
  rw [hids, hids, hl, hr] at hdir
  simp only [List.mem_singleton, Set.ofPred_eq_eq_singleton, Set.singleton_eq_singleton_iff] at hdir
  exact absurd hdir (by decide)

end Agid.AddressOfflineCrdt
