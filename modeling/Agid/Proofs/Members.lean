import Agid.Proofs.OfflineSync

/-!
# Members of the sets

A member is visible if one of its add tags is not among its remove tags (`mem_visibleIds`).  A
merge joins both lists of tags; an operation adds its id to the one, or to the other the tags it
names, and those that are there where it names none.  So an add that is not covered shows or not,
with a remove that names no tags, as the one or the other comes first.
-/

namespace Agid.AddressOfflineCrdt

section Tags

variable {V : Type} (P : Platform V)

/-- The add tags of a member, none where it is not there. -/
def State.addTags (s : State V) (q m : JsString) : List JsString :=
  ((s.member? q m).map SetMember.addTags).getD []

def State.removeTags (s : State V) (q m : JsString) : List JsString :=
  ((s.member? q m).map SetMember.removeTags).getD []

/-- The members go by the ids they are kept under. -/
def State.OwnIds (s : State V) : Prop := ∀ q m v, s.member? q m = some v → v.memberId = m

theorem setMemberVisible_iff (v : SetMember) :
    setMemberVisible v = true ↔ ∃ tag ∈ v.addTags, tag ∉ v.removeTags := by
  simp [setMemberVisible]

theorem mem_visibleIds {s : State V} (hs : s.OwnIds) (setName m : JsString) :
    m ∈ visibleIds P s setName ↔ ∃ tag ∈ s.addTags (cleanKey P.nfkc (some setName) []) m,
      tag ∉ s.removeTags (cleanKey P.nfkc (some setName) []) m := by
  unfold visibleIds getVisibleSetMembers State.addTags State.removeTags
  generalize hq : cleanKey P.nfkc (some setName) [] = q
  simp only [List.mem_map, List.mem_insertionSort, List.mem_filter, Record.mem_values,
    setMemberVisible_iff]
  have hget : ∀ m v, ((s.sets.get? q).getD .empty).get? m = some v ↔ s.member? q m = some v := by
    intro m v
    unfold State.member?
    cases s.sets.get? q <;> simp
  simp only [hget]
  constructor
  · rintro ⟨v, ⟨⟨m', hv⟩, hvis⟩, rfl⟩
    rw [← hs q m' v hv] at hv
    rw [hv]
    exact hvis
  · rintro ⟨tag, htag, hn⟩
    rcases hv : s.member? q m with _ | v
    · simp [hv] at htag
    · rw [hv] at htag hn
      exact ⟨v, ⟨⟨m, hv⟩, tag, htag, hn⟩, hs q m v hv⟩

end Tags

section Steps

variable {V : Type} [DecidableEq V] (P : Platform V)

theorem mem_addTags_merge {l r : State V} (h : l.SameRecord r) (q m tag : JsString) :
    tag ∈ (mergeStates P l r).addTags q m ↔ tag ∈ l.addTags q m ∨ tag ∈ r.addTags q m := by
  unfold State.addTags
  rw [mergeStates_member P h]
  rcases hr : r.member? q m with _ | v
  · simp
  · simp only [Option.map_some, Option.getD_some, mergedMember, SortedSet.mem_ofList, List.mem_append]

theorem mem_removeTags_merge {l r : State V} (h : l.SameRecord r) (q m tag : JsString) :
    tag ∈ (mergeStates P l r).removeTags q m ↔ tag ∈ l.removeTags q m ∨ tag ∈ r.removeTags q m := by
  unfold State.removeTags
  rw [mergeStates_member P h]
  rcases hr : r.member? q m with _ | v
  · simp
  · simp only [Option.map_some, Option.getD_some, mergedMember, SortedSet.mem_ofList, List.mem_append]

theorem ownIds_merge {l r : State V} (h : l.SameRecord r) (hl : l.OwnIds) :
    (mergeStates P l r).OwnIds := by
  intro q m v hv
  rw [mergeStates_member P h] at hv
  rcases hrm : r.member? q m with _ | e
  · rw [hrm] at hv
    exact hl q m v hv
  · simp only [hrm, Option.some.injEq] at hv
    subst hv
    rfl

/-- The tags a remove resolves to at a state. -/
def resolvedTags (s : State V) (x : Operation V) (q m : JsString) : List JsString :=
  if x.observedAddTags.getD [] = [] then s.addTags q m else x.observedAddTags.getD []

theorem mem_addTags_apply (s : State V) (x : Operation V) (q m tag : JsString) :
    tag ∈ (applyToRecord P s x).addTags q m ↔ tag ∈ s.addTags q m
      ∨ (x.action = .addSetMember ∧ x.place? = some (q, m) ∧ tag = x.operationId) := by
  unfold State.addTags
  rw [applyToRecord_member]
  split_ifs with hp
  · simp only [Option.map_some, Option.getD_some, appliedMember, SortedSet.mem_ofList]
    by_cases ha : x.action = .addSetMember
    · simp [ha, hp]
    · simp [ha]
  · simp [hp]

theorem mem_removeTags_apply (s : State V) (x : Operation V) (q m tag : JsString) :
    tag ∈ (applyToRecord P s x).removeTags q m ↔ tag ∈ s.removeTags q m
      ∨ (x.action = .removeSetMember ∧ x.place? = some (q, m) ∧ tag ∈ resolvedTags s x q m) := by
  unfold State.removeTags
  rw [applyToRecord_member]
  split_ifs with hp
  · have haction : x.action = .addSetMember ∨ x.action = .removeSetMember := by
      by_contra hn
      rw [Operation.place?, if_neg hn] at hp
      simp at hp
    simp only [Option.map_some, Option.getD_some, appliedMember, SortedSet.mem_ofList]
    rcases haction with ha | ha
    · simp [ha]
    · simp only [ha, reduceCtorEq, if_false, List.mem_append, hp, true_and]
      unfold resolvedTags State.addTags
      rcases x.observedAddTags with _ | _ | ⟨t, ts⟩ <;> simp
  · simp [hp]

theorem ownIds_apply {s : State V} (hs : s.OwnIds) (x : Operation V) :
    (applyToRecord P s x).OwnIds := by
  intro q m v hv
  rw [applyToRecord_member] at hv
  split_ifs at hv with hp
  · simp only [Option.some.injEq] at hv
    subst hv
    rfl
  · exact hs q m v hv

/-! ## Deliveries -/

theorem ownIds_deliver : ∀ (l : List (Operation V)) {s : State V}, s.OwnIds →
    (l.foldl (applyToRecord P) s).OwnIds
  | [], _, h => h
  | x :: l, _, h => ownIds_deliver l (ownIds_apply P h x)

theorem mem_addTags_deliver (q m tag : JsString) : ∀ (l : List (Operation V)) (s : State V),
    tag ∈ (l.foldl (applyToRecord P) s).addTags q m ↔ tag ∈ s.addTags q m
      ∨ ∃ x ∈ l, x.action = .addSetMember ∧ x.place? = some (q, m) ∧ tag = x.operationId
  | [], s => by simp
  | x :: l, s => by
    rw [List.foldl_cons, mem_addTags_deliver q m tag l, mem_addTags_apply]
    simp only [List.mem_cons, exists_eq_or_imp, or_assoc]

theorem removeTags_mono (q m tag : JsString) : ∀ (l : List (Operation V)) (s : State V),
    tag ∈ s.removeTags q m → tag ∈ (l.foldl (applyToRecord P) s).removeTags q m
  | [], _, h => h
  | x :: l, s, h =>
    removeTags_mono q m tag l _ ((mem_removeTags_apply P s x q m tag).2 (Or.inl h))

/-- The tags a remove names are removed for good. -/
theorem named_mem_removeTags {r : Operation V} (hr : r.action = .removeSetMember) {q m tag : JsString}
    (hp : r.place? = some (q, m)) (htag : tag ∈ r.observedAddTags.getD []) :
    ∀ (l : List (Operation V)) (s : State V), r ∈ l →
      tag ∈ (l.foldl (applyToRecord P) s).removeTags q m
  | x :: l, s, h => by
    rcases List.mem_cons.1 h with rfl | h
    · refine removeTags_mono P q m tag l _ ((mem_removeTags_apply P s r q m tag).2 ?_)
      refine Or.inr ⟨hr, hp, ?_⟩
      rwa [resolvedTags, if_neg (List.ne_nil_of_mem htag)]
    · exact named_mem_removeTags hr hp htag l _ h

/-- A removed tag is one a remove names, or a remove that names none has found it there. -/
theorem removeTags_source (q m tag : JsString) : ∀ (l : List (Operation V)) (s : State V),
    tag ∈ (l.foldl (applyToRecord P) s).removeTags q m →
      tag ∈ s.removeTags q m ∨ ∃ r ∈ l, r.action = .removeSetMember ∧ r.place? = some (q, m)
        ∧ (tag ∈ r.observedAddTags.getD [] ∨ (r.observedAddTags.getD [] = []
          ∧ tag ∈ (l.foldl (applyToRecord P) s).addTags q m))
  | [], s, h => Or.inl h
  | x :: l, s, h => by
    rcases removeTags_source q m tag l (applyToRecord P s x) h with h | ⟨r, hr, hsource⟩
    · rw [mem_removeTags_apply] at h
      rcases h with h | ⟨ha, hp, htag⟩
      · exact Or.inl h
      · refine Or.inr ⟨x, List.mem_cons_self, ha, hp, ?_⟩
        unfold resolvedTags at htag
        split_ifs at htag with hn
        · exact Or.inr ⟨hn, (mem_addTags_deliver P q m tag (x :: l) s).2 (Or.inl htag)⟩
        · exact Or.inl htag
    · exact Or.inr ⟨r, List.mem_cons_of_mem x hr, hsource⟩

end Steps

section Observed

variable {V : Type} {P : Platform V} {record : CreateStateInput}

theorem ownIds_empty (now : ℤ) : (emptyState P record now).OwnIds := by
  intro q m v hv
  simp [State.member?, emptyState, createState] at hv

theorem exists_delivers (O : List (Operation V)) : ∃ l, Delivers P O l := by
  classical
  let follows := fun x y : Operation V => replicaOf P x = replicaOf P y
    ∧ compareClocks P.nfkc (some x.clock.raw) (some y.clock.raw) = .before
  obtain ⟨l, hl⟩ : ∃ l, Delivery.Delivers follows O.toFinset.toList l := Delivery.exists_delivers
    (fun x h => lt_irrefl _ ((compareClocks_iff P.nfkc _ _).1.1 h.2))
    (fun x y z h h' => ⟨h.1.trans h'.1, (compareClocks_iff P.nfkc _ _).1.2
      (((compareClocks_iff P.nfkc _ _).1.1 h.2).trans ((compareClocks_iff P.nfkc _ _).1.1 h'.2))⟩)
    O.toFinset
  refine ⟨l, fun x => ?_, fun l₁ y l₂ he x hx => hl.order l₁ y l₂ he x ?_⟩
  · rw [hl.mem, Finset.mem_toList, List.mem_toFinset]
  · rwa [Finset.mem_toList, List.mem_toFinset]

theorem place_of_action {x : Operation V} (hx : x.action = .addSetMember ∨ x.action = .removeSetMember)
    (hcreate : ∃ input, createOperation P input = .ok x) :
    ∃ setName m, x.place? = some (cleanKey P.nfkc (some setName) [], m) := by
  obtain ⟨input, hc⟩ := hcreate
  obtain ⟨setName, hs⟩ := (createOperation_ok P hc).setName hx
  exact ⟨setName, _, by rw [Operation.place?, if_pos hx, hs]; rfl⟩

variable [DecidableEq V]

/-- What a delivery leaves. -/
theorem delivered {O l : List (Operation V)} (hO : SetOperations P record O) (hl : Delivers P O l)
    (now : ℤ) :
    deliver P (emptyState P record now) l
        = .ok (l.foldl (applyToRecord P) (emptyState P record now))
      ∧ ∀ setName m, m ∈ visibleIds P (l.foldl (applyToRecord P) (emptyState P record now)) setName
        ↔ ∃ add ∈ O, add.action = .addSetMember
          ∧ add.place? = some (cleanKey P.nfkc (some setName) [], m)
          ∧ add.operationId ∉ (l.foldl (applyToRecord P) (emptyState P record now)).removeTags
            (cleanKey P.nfkc (some setName) []) m := by
  refine ⟨deliver_ok P l fun x hx => (hO x ((hl.mem x).1 hx)).2.2.1, fun setName m => ?_⟩
  rw [mem_visibleIds P (ownIds_deliver P l (ownIds_empty now))]
  have hempty : ∀ q m, (emptyState P record now : State V).addTags q m = [] := fun q m => rfl
  simp only [mem_addTags_deliver, hempty, List.not_mem_nil, false_or]
  constructor
  · rintro ⟨tag, ⟨x, hx, ha, hp, rfl⟩, hn⟩
    exact ⟨x, (hl.mem x).1 hx, ha, hp, hn⟩
  · rintro ⟨x, hx, ha, hp, hn⟩
    exact ⟨_, ⟨x, (hl.mem x).2 hx, ha, hp, rfl⟩, hn⟩

/-- With the tags named a delivery shows the members that the adds and the removes say. -/
theorem visible_of_tagsNamed {O l : List (Operation V)} (hO : SetOperations P record O)
    (hnamed : TagsNamed O) (hl : Delivers P O l) (now : ℤ) (setName m : JsString) :
    m ∈ visibleIds P (l.foldl (applyToRecord P) (emptyState P record now)) setName
      ↔ Observed P O setName m := by
  rw [(delivered hO hl now).2]
  refine exists_congr fun add => and_congr_right fun hadd => and_congr_right fun ha =>
    and_congr_right fun hp => not_congr ⟨fun h => ?_, ?_⟩
  · rcases removeTags_source P _ m _ l _ h with h | ⟨r, hr, hra, hrp, hsource⟩
    · simp [State.removeTags, State.member?, emptyState, createState] at h
    · have hplace : r.place? = add.place? := hrp.trans hp.symm
      rcases hsource with htag | ⟨hnone, -⟩
      · exact ⟨r, (hl.mem r).1 hr, hra, hplace, htag⟩
      · exact hnamed r ((hl.mem r).1 hr) hra hnone add hadd ha hplace.symm
  · rintro ⟨r, hr, hra, hrp, htag⟩
    exact named_mem_removeTags P hra (hrp.trans hp) htag l _ ((hl.mem r).2 hr)

/-- A remove that names no tags, delivered again at the end, hides its member. -/
theorem hidden_by_last {O l : List (Operation V)} (hO : SetOperations P record O)
    (hl : Delivers P O l) {r : Operation V} (hr : r ∈ O) (hra : r.action = .removeSetMember)
    (hnone : r.observedAddTags.getD [] = []) {setName m : JsString}
    (hp : r.place? = some (cleanKey P.nfkc (some setName) [], m)) (now : ℤ) :
    m ∉ visibleIds P ((l ++ [r]).foldl (applyToRecord P) (emptyState P record now)) setName := by
  rw [(delivered hO (hl.again hr) now).2]
  rintro ⟨add, hadd, ha, hpa, hn⟩
  refine hn ?_
  rw [List.foldl_append, List.foldl_cons, List.foldl_nil, mem_removeTags_apply]
  refine Or.inr ⟨hra, hp, ?_⟩
  rw [resolvedTags, if_pos hnone, mem_addTags_deliver]
  exact Or.inr ⟨add, (hl.mem add).2 hadd, ha, hpa, rfl⟩

/-- The sets of the record are observed-remove sets on exactly the operations whose removes name
their tags, or need not. -/
theorem observedRemove_iff (O : List (Operation V)) (hO : SetOperations P record O) :
    ObservedRemove P record O ↔ TagsNamed O := by
  constructor
  · intro h r hr hra hnone add hadd ha hp
    by_contra hcov
    obtain ⟨l, hl⟩ := exists_delivers (P := P) O
    obtain ⟨setName, m, hplace⟩ := place_of_action (hO r hr).2.1 (hO r hr).1
    obtain ⟨s, s', hs, -, hvis⟩ := h _ _ (hl.again hr) (hl.again hr) 0 0
    rw [(delivered hO (hl.again hr) 0).1] at hs
    obtain rfl := Except.ok.inj hs
    refine hidden_by_last hO hl hr hra hnone hplace 0 ((hvis setName m).2.2 ?_)
    exact ⟨add, hadd, ha, hp.trans hplace, hcov⟩
  · intro hnamed l l' hl hl' now now'
    refine ⟨_, _, (delivered hO hl now).1, (delivered hO hl' now').1, fun setName m => ?_⟩
    have h1 := visible_of_tagsNamed hO hnamed hl now setName m
    have h2 := visible_of_tagsNamed hO hnamed hl' now' setName m
    exact ⟨h1.trans h2.symm, h1⟩

end Observed

/-! ## An add and a remove that names no tags -/

def addInput : CreateOperationInput JsString :=
  { blankInput with
    actorId := js "pos-a"
    action := .addSetMember
    now := 1
    setName := some (js "used-nullifiers")
    memberCommitment := some (js "sln:commitment:a") }

def untaggedInput : CreateOperationInput JsString :=
  { addInput with
    actorId := js "pos-b"
    action := .removeSetMember
    now := 2 }

def addOperation : Operation JsString :=
  (createOperation asciiPlatform addInput).toOption.get (by decide)

def untaggedOperation : Operation JsString :=
  (createOperation asciiPlatform untaggedInput).toOption.get (by decide)

theorem sample_setOperations :
    SetOperations asciiPlatform sampleRecord [addOperation, untaggedOperation] := by
  intro x hx
  simp only [List.mem_cons, List.not_mem_nil, or_false] at hx
  rcases hx with rfl | rfl
  · exact ⟨⟨addInput, ok_get _⟩, by decide, by decide, by decide⟩
  · exact ⟨⟨untaggedInput, ok_get _⟩, by decide, by decide, by decide⟩

theorem observedRemove_iff_untagged :
    ObservedRemove asciiPlatform sampleRecord [addOperation, untaggedOperation]
      ↔ TagsNamed [addOperation, untaggedOperation] :=
  observedRemove_iff _ sample_setOperations

/-- Whether the member shows depends on which of the two comes first. -/
theorem untagged_not_observedRemove :
    SetOperations asciiPlatform sampleRecord [addOperation, untaggedOperation]
      ∧ ¬ ObservedRemove asciiPlatform sampleRecord [addOperation, untaggedOperation] := by
  refine ⟨sample_setOperations, fun h => ?_⟩
  have hdel : ∀ l, (∀ x, x ∈ l ↔ x ∈ [addOperation, untaggedOperation]) →
      Delivers asciiPlatform [addOperation, untaggedOperation] l := by
    refine fun l hl => ⟨hl, fun l₁ y l₂ he x hx hxy => ?_⟩
    have hy := (hl y).1 (he ▸ by simp)
    simp only [List.mem_cons, List.not_mem_nil, or_false] at hx hy
    rcases hx with rfl | rfl <;> rcases hy with rfl | rfl <;> exact absurd hxy (by decide)
  obtain ⟨s, s', hs, hs', hvis⟩ := h [addOperation, untaggedOperation]
    [untaggedOperation, addOperation] (hdel _ fun x => Iff.rfl) (hdel _ fun x => by simp [or_comm])
    0 0
  have h1 : (deliver asciiPlatform (emptyState asciiPlatform sampleRecord 0)
      [addOperation, untaggedOperation]).toOption.map
        (visibleIds asciiPlatform · (js "used-nullifiers")) = some [] := by decide
  have h2 : (deliver asciiPlatform (emptyState asciiPlatform sampleRecord 0)
      [untaggedOperation, addOperation]).toOption.map
        (visibleIds asciiPlatform · (js "used-nullifiers")) = some [js "MEM-sln:commitment:a"] := by
    decide
  rw [hs] at h1
  rw [hs'] at h2
  simp only [Except.toOption, Option.map_some, Option.some.injEq] at h1 h2
  have := (hvis (js "used-nullifiers") (js "MEM-sln:commitment:a")).1
  rw [h1, h2] at this
  simp at this

end Agid.AddressOfflineCrdt
