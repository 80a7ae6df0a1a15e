import Agid.PostalLookup
import Agid.Proofs.SpatialScans

/-!
# The alternatives of a postal code

The search for contexts keeps every assertion of context of a node that it is done with, and the
walk follows them.  Two alternatives are taken for one where their ids are the same text once they
are joined, so the alternatives are the pairs that are asked for where no two pairs are such.
-/

namespace Agid.PostalContext

open Paths (Maximal met maximal_nil maximal_cons mem_met_nil mem_met_cons Gathers Adds)

/-! ## The nodes of a valid pack -/

theorem id_new_of_nodeErrors {release : ReleaseManifest} {node : Node} {ids : List JsString}
    (h : nodeErrors release node ids = []) : node.id ∉ ids := by
  simp only [nodeErrors, List.append_eq_nil_iff, report_eq_nil, decide_eq_false_iff_not,
    and_assoc] at h
  exact h.2.1

theorem nodup_ids_of_nodesErrors {release : ReleaseManifest} : ∀ {nodes : List Node}
    {ids : List JsString}, nodesErrors release ids nodes = [] →
      (nodes.map (·.id)).Nodup ∧ ∀ node ∈ nodes, node.id ∉ ids
  | [], _, _ => ⟨List.nodup_nil, fun _ hnode => absurd hnode List.not_mem_nil⟩
  | node :: nodes, ids, h => by
    rw [nodesErrors, List.append_eq_nil_iff] at h
    obtain ⟨hdistinct, hapart⟩ := nodup_ids_of_nodesErrors h.2
    have hnew := id_new_of_nodeErrors h.1
    refine ⟨List.nodup_cons.2 ⟨fun hmem => ?_, hdistinct⟩, fun other hother => ?_⟩
    · obtain ⟨other, hother, hid⟩ := List.mem_map.1 hmem
      exact hapart other hother (hid ▸ List.mem_append_right _ List.mem_cons_self)
    · rcases List.mem_cons.1 hother with rfl | hother
      · exact hnew
      · exact fun hid => hapart other hother (List.mem_append_left _ hid)

theorem mem_of_nodeById {nodes : List Node} {id : JsString} {node : Node}
    (h : nodeById nodes id = some node) : node ∈ nodes ∧ node.id = id :=
  ⟨List.mem_reverse.1 (List.mem_of_find?_eq_some h), by simpa using List.find?_some h⟩

theorem nodeById_eq_some_iff {nodes : List Node} (h : (nodes.map (·.id)).Nodup) {id : JsString}
    {node : Node} : nodeById nodes id = some node ↔ node ∈ nodes ∧ node.id = id := by
  refine ⟨mem_of_nodeById, ?_⟩
  rintro ⟨hmem, rfl⟩
  rcases hfind : nodeById nodes node.id with _ | other
  · exact absurd (decide_eq_true rfl)
      (List.find?_eq_none.1 hfind node (List.mem_reverse.2 hmem))
  · obtain ⟨hother, hid⟩ := mem_of_nodeById hfind
    rw [List.inj_on_of_nodup_map h hother hmem hid]

variable {P : Platform} {pack : RuntimePack} {options : RuntimeOptions} {runtime : PackRuntime}

theorem nodup_nodeIds_of_created (h : Created P pack runtime) :
    (pack.graph.nodes.map (·.id)).Nodup := by
  obtain ⟨countryCode, hvalid⟩ := h.valid
  obtain ⟨hgraph, -⟩ := errors_of_valid hvalid
  simp only [validatePostalContextGraph, List.append_eq_nil_iff, and_assoc] at hgraph
  exact (nodup_ids_of_nodesErrors hgraph.2.2.2.1).1

theorem node_eq_some_iff (h : Created P pack runtime) {id : JsString} {node : Node} :
    runtime.node id = some node ↔ node ∈ pack.graph.nodes ∧ node.id = id := by
  rw [PackRuntime.node, h.pack_eq]
  exact nodeById_eq_some_iff (nodup_nodeIds_of_created h)

theorem id_of_node {id : JsString} {node : Node} (h : runtime.node id = some node) :
    node.id = id := (mem_of_nodeById h).2

variable {validAt knownAt : JsString}

/-! ## Effective postal features -/

theorem firstTest_eq : ∀ {tests : List Bool} {examined examined' : ℕ} {found : Bool},
    firstTest examined tests = some (found, examined') → found = tests.any id
  | [], _, _, _, h => by
    cases h
    rfl
  | test :: tests, examined, examined', found, h => by
    rw [firstTest] at h
    split_ifs at h with hlimit htest
    · cases h
      simp [htest]
    · rw [firstTest_eq h]
      simp [htest]

theorem postalNodeEffective_eq {nodeId : JsString} {examined examined' : ℕ} {effective : Bool}
    (h : postalNodeEffective P runtime validAt knownAt nodeId examined
      = some (effective, examined')) :
    effective = ((runtime.node nodeId).isSome
      && (postalNodeTests P runtime validAt knownAt nodeId).any id) := by
  unfold postalNodeEffective at h
  split at h <;> rename_i hnode <;> rw [hnode]
  · cases h
    rfl
  · simpa using firstTest_eq h

theorem effectivePostalFeatures_eq : ∀ {nodes features : List Node} {examined : ℕ},
    effectivePostalFeatures P runtime validAt knownAt examined nodes = some features →
      features = nodes.filter fun node => (runtime.node node.id).isSome
        && (postalNodeTests P runtime validAt knownAt node.id).any id
  | [], _, _, h => by
    cases h
    rfl
  | node :: nodes, features, examined, h => by
    simp only [effectivePostalFeatures, Option.bind_eq_bind, Option.bind_eq_some_iff] at h
    obtain ⟨⟨effective, examined'⟩, heffective, rest, hrest, hfeatures⟩ := h
    rw [List.filter_cons, ← postalNodeEffective_eq heffective,
      ← effectivePostalFeatures_eq hrest]
    exact (Option.some.inj hfeatures).symm

theorem any_postalNodeTests {nodeId : JsString} :
    (postalNodeTests P runtime validAt knownAt nodeId).any id
      ↔ (∃ feature ∈ runtime.pack.geometry.features, eligiblePostalGeometry feature
          ∧ feature.nodeId = nodeId ∧ isPostalContextGeometryEffectiveAt P feature validAt knownAt)
        ∨ ∃ assertion ∈ runtime.publicAssertions,
          (assertion.fromNodeId = nodeId ∨ assertion.toNodeId = nodeId)
            ∧ supportsPostalFeature P runtime validAt knownAt assertion := by
  simp only [postalNodeTests, postalGeometryOf, PackRuntime.outgoingAssertions,
    PackRuntime.incomingAssertions, List.any_append, List.any_map, Bool.or_eq_true,
    List.any_eq_true, List.mem_filter, decide_eq_true_eq, Function.comp_apply, id, and_assoc,
    ← exists_or, ← and_or_left, ← or_and_right]

/-! ## The search for contexts -/

/-- An assertion of context from a node. -/
def IsContextFrom (P : Platform) (runtime : PackRuntime) (validAt knownAt id : JsString)
    (assertion : Assertion) : Prop :=
  assertion ∈ runtime.publicAssertions ∧ assertion.fromNodeId = id
    ∧ isContextAssertion P runtime validAt knownAt assertion

/-- What the search does with assertions from a node. -/
structure Searches (P : Platform) (runtime : PackRuntime) (validAt knownAt fromNodeId : JsString)
    (assertions : List Assertion) (s s' : ContextSearch) : Prop where
  byFrom : ∀ id a, a ∈ s'.contextAssertionsByFrom id ↔ a ∈ s.contextAssertionsByFrom id
    ∨ id = fromNodeId ∧ a ∈ assertions ∧ isContextAssertion P runtime validAt knownAt a
  targets : ∀ a ∈ assertions, isContextAssertion P runtime validAt knownAt a →
    a.toNodeId ∈ s'.contextIds
  contextIds : s.contextIds ⊆ s'.contextIds
  queue : s.queue ⊆ s'.queue
  queued : ∀ id ∈ s'.contextIds, id ∈ s.contextIds ∨ id ∈ s'.queue
  length : s'.queue.length + s.contextIds.length = s.queue.length + s'.contextIds.length
  bounded : s.contextIds.length ≤ QUERY_LIMITS.lookupContextNodes →
    s'.contextIds.length ≤ QUERY_LIMITS.lookupContextNodes

section Search

variable {fromNodeId : JsString} {assertions : List Assertion} {assertion : Assertion}
  {s s' s'' : ContextSearch}

theorem Searches.cons
    (h : Searches P runtime validAt knownAt fromNodeId [assertion] s s')
    (h' : Searches P runtime validAt knownAt fromNodeId assertions s' s'') :
    Searches P runtime validAt knownAt fromNodeId (assertion :: assertions) s s'' where
  byFrom id a := by
    rw [h'.byFrom, h.byFrom, List.mem_singleton, List.mem_cons]
    tauto
  targets a ha hcontext := by
    rcases List.mem_cons.1 ha with rfl | ha
    · exact h'.contextIds (h.targets a (List.mem_singleton_self a) hcontext)
    · exact h'.targets a ha hcontext
  contextIds := List.Subset.trans h.contextIds h'.contextIds
  queue := List.Subset.trans h.queue h'.queue
  queued id hid := by
    rcases h'.queued id hid with hid | hid
    · exact (h.queued id hid).imp_right fun hid => h'.queue hid
    · exact Or.inr hid
  length := by
    have hlength := h.length
    have hlength' := h'.length
    omega
  bounded hbounded := h'.bounded (h.bounded hbounded)

theorem mem_byFrom_append {byFrom : JsString → List Assertion}
    (hcontext : isContextAssertion P runtime validAt knownAt assertion) (id : JsString)
    (a : Assertion) :
    (a ∈ if id = fromNodeId then byFrom id ++ [assertion] else byFrom id)
      ↔ a ∈ byFrom id ∨ id = fromNodeId ∧ a ∈ [assertion]
        ∧ isContextAssertion P runtime validAt knownAt a := by
  have hone : a ∈ [assertion] ∧ isContextAssertion P runtime validAt knownAt a
      ↔ a ∈ [assertion] := by
    refine and_iff_left_of_imp fun ha => ?_
    rw [List.mem_singleton.1 ha]
    exact hcontext
  rw [hone]
  split_ifs with hid
  · rw [List.mem_append, and_iff_right hid]
  · rw [or_iff_left fun h => hid h.1]

theorem searches_of_searchStep
    (h : searchStep P runtime validAt knownAt fromNodeId s assertion = some s') :
    Searches P runtime validAt knownAt fromNodeId [assertion] s s' := by
  unfold searchStep at h
  dsimp only at h
  split_ifs at h with hlimit hcontext hmem hnodes
  · cases h
    rw [Bool.not_eq_true'] at hcontext
    exact ⟨fun id a => by simp +contextual [hcontext], by simp [hcontext], fun _ => id, fun _ => id,
      fun _ => Or.inl, rfl, id⟩
  · cases h
    rw [Bool.not_eq_true', Bool.not_eq_false] at hcontext
    exact ⟨mem_byFrom_append hcontext, by simp [hmem], fun _ => id, fun _ => id, fun _ => Or.inl,
      rfl, id⟩
  · cases h
    rw [Bool.not_eq_true', Bool.not_eq_false] at hcontext
    refine ⟨mem_byFrom_append hcontext, by simp, by simp, by simp, fun id hid => ?_, ?_,
      fun _ => ?_⟩
    · exact (List.mem_append.1 hid).imp_right fun hid => List.mem_append_right _ hid
    · simp only [List.length_append]
      omega
    · simp only [List.length_append, List.length_singleton]
      omega

theorem searches_of_foldlM : ∀ {assertions : List Assertion} {s s' : ContextSearch},
    assertions.foldlM (searchStep P runtime validAt knownAt fromNodeId) s = some s' →
      Searches P runtime validAt knownAt fromNodeId assertions s s'
  | [], _, _, h => by
    cases h
    exact ⟨by simp, by simp, fun _ => id, fun _ => id, fun _ => Or.inl, rfl, id⟩
  | assertion :: assertions, s, s'', h => by
    rw [List.foldlM_cons, Option.bind_eq_bind, Option.bind_eq_some_iff] at h
    obtain ⟨s', hstep, hrest⟩ := h
    exact (searches_of_searchStep hstep).cons (searches_of_foldlM hrest)

/-- The search has all assertions of context from a node, and where they lead. -/
def DoneWith (P : Platform) (runtime : PackRuntime) (validAt knownAt : JsString)
    (s : ContextSearch) (id : JsString) : Prop :=
  ∀ a, IsContextFrom P runtime validAt knownAt id a →
    a ∈ s.contextAssertionsByFrom id ∧ a.toNodeId ∈ s.contextIds

/-- What holds before each round of the search, with as many rounds left as may be needed. -/
structure Searching (P : Platform) (runtime : PackRuntime) (validAt knownAt : JsString)
    (starts : List JsString) (rounds : ℕ) (s : ContextSearch) : Prop where
  sound : ∀ id, ∀ a ∈ s.contextAssertionsByFrom id, IsContextFrom P runtime validAt knownAt id a
  done : ∀ id, id ∈ starts ∨ id ∈ s.contextIds →
    id ∈ s.queue ∨ DoneWith P runtime validAt knownAt s id
  rounds : s.queue.length + QUERY_LIMITS.lookupContextNodes ≤ rounds + s.contextIds.length
  bounded : s.contextIds.length ≤ QUERY_LIMITS.lookupContextNodes

variable {starts : List JsString} {rounds : ℕ}

theorem searching_round (h : Searching P runtime validAt knownAt starts (rounds + 1) s)
    {queue : List JsString} (hqueue : s.queue = fromNodeId :: queue)
    (hround : Searches P runtime validAt knownAt fromNodeId (runtime.outgoingAssertions fromNodeId)
      { s with queue } s') : Searching P runtime validAt knownAt starts rounds s' where
  sound id a ha := by
    rcases (hround.byFrom id a).1 ha with ha | ⟨rfl, ha, hcontext⟩
    · exact h.sound id a ha
    · obtain ⟨hpublic, hfrom⟩ := List.mem_filter.1 ha
      exact ⟨hpublic, of_decide_eq_true hfrom, hcontext⟩
  done id hid := by
    by_cases hfrom : id = fromNodeId
    · refine Or.inr fun a ha => ?_
      have hmem : a ∈ runtime.outgoingAssertions fromNodeId :=
        List.mem_filter.2 ⟨ha.1, decide_eq_true (ha.2.1.trans hfrom)⟩
      exact ⟨(hround.byFrom id a).2 (Or.inr ⟨hfrom, hmem, ha.2.2⟩),
        hround.targets a hmem ha.2.2⟩
    · rcases or_assoc.2 (hid.imp_right (hround.queued id)) with hid | hid
      · rcases h.done id hid with hin | hdone
        · rw [hqueue] at hin
          exact Or.inl (hround.queue ((List.mem_cons.1 hin).resolve_left hfrom))
        · exact Or.inr fun a ha =>
            ⟨(hround.byFrom id a).2 (Or.inl (hdone a ha).1), hround.contextIds (hdone a ha).2⟩
      · exact Or.inl hid
  rounds := by
    have hlength := hround.length
    have hrounds := h.rounds
    rw [hqueue, List.length_cons] at hrounds
    dsimp only at hlength
    omega
  bounded := hround.bounded h.bounded

theorem searching_searchContexts : ∀ {rounds : ℕ} {s s' : ContextSearch},
    searchContexts P runtime validAt knownAt rounds s = some s' →
    Searching P runtime validAt knownAt starts rounds s →
      s'.queue = [] ∧ ∃ rounds', Searching P runtime validAt knownAt starts rounds' s'
  | 0, s, s', h, hs => by
    cases h
    refine ⟨List.length_eq_zero_iff.1 ?_, _, hs⟩
    have hrounds := hs.rounds
    have hbounded := hs.bounded
    omega
  | rounds + 1, s, s', h, hs => by
    rw [searchContexts] at h
    split at h
    · rename_i hqueue
      cases h
      exact ⟨hqueue, _, hs⟩
    · rename_i fromNodeId queue hqueue
      rw [Option.bind_eq_bind, Option.bind_eq_some_iff] at h
      obtain ⟨s₁, hround, hrest⟩ := h
      exact searching_searchContexts hrest (searching_round hs hqueue (searches_of_foldlM hround))

/-- The search ends with an empty queue, with what it needs of each node that it came to. -/
theorem contextsOf_ends {postalFeatures : List Node} {search : ContextSearch}
    (h : contextsOf P runtime validAt knownAt postalFeatures = some search) :
    search.queue = [] ∧ ∀ id, id ∈ postalFeatures.map (·.id) ∨ id ∈ search.contextIds →
      (∀ a, a ∈ search.contextAssertionsByFrom id ↔ IsContextFrom P runtime validAt knownAt id a)
        ∧ ∀ a, IsContextFrom P runtime validAt knownAt id a → a.toNodeId ∈ search.contextIds := by
  have hstart : Searching P runtime validAt knownAt (postalFeatures.map (·.id))
      (postalFeatures.length + QUERY_LIMITS.lookupContextNodes)
      ⟨[], fun _ => [], postalFeatures.map (·.id), 0⟩ :=
    ⟨fun _ _ ha => absurd ha List.not_mem_nil,
      fun id hid => Or.inl (hid.resolve_right List.not_mem_nil), by simp, Nat.zero_le _⟩
  obtain ⟨hqueue, rounds, hend⟩ := searching_searchContexts h hstart
  refine ⟨hqueue, fun id hid => ?_⟩
  have hdone := (hend.done id hid).resolve_left (hqueue ▸ List.not_mem_nil)
  exact ⟨fun a => ⟨hend.sound id a, fun ha => (hdone a ha).1⟩, fun a ha => (hdone a ha).2⟩

end Search

/-! ## The walk -/

@[simp] theorem mem_unique {α : Type} [DecidableEq α] {a : α} : ∀ {l : List α}, a ∈ unique l ↔ a ∈ l
  | [] => Iff.rfl
  | b :: l => by
    rw [unique, List.mem_cons, List.mem_filter, mem_unique, List.mem_cons, decide_eq_true_eq]
    tauto

theorem nodup_unique {α : Type} [DecidableEq α] : ∀ l : List α, (unique l).Nodup
  | [] => List.nodup_nil
  | _ :: l => List.nodup_cons.2
    ⟨fun hmem => of_decide_eq_true (List.mem_filter.1 hmem).2 rfl, (nodup_unique l).filter _⟩

@[simp] theorem toFinset_unique {α : Type} [DecidableEq α] (l : List α) :
    (unique l).toFinset = l.toFinset := Finset.ext fun a => by simp

def AlternativeIds.pair (alternative : AlternativeIds) : JsString × Finset JsString :=
  (alternative.postalFeature.id, alternative.contextIds.toFinset)

namespace Alternatives

def pairs (s : Alternatives) : List (JsString × Finset JsString) := s.alternativeIds.map (·.pair)

def Tidy (s : Alternatives) : Prop := ∀ alternative ∈ s.alternativeIds, alternative.contextIds.Nodup

def Goes (s : Alternatives) : Prop := s.alternativeLimitExceeded = false

end Alternatives

abbrev AddsPairs := Adds joined Alternatives.pairs Alternatives.Tidy Alternatives.Goes

theorem insertionSort_eq_sort {l : List JsString} (h : l.Nodup) :
    l.insertionSort (· ≤ ·) = l.toFinset.sort (· ≤ ·) := by
  refine List.Perm.eq_of_pairwise' (r := (· ≤ ·)) (List.pairwise_insertionSort _ l)
    (Finset.pairwise_sort _ _) ?_
  exact (List.perm_insertionSort _ l).trans
    ((Finset.sort_perm_toList _ _).trans (List.toFinset_toList h)).symm

theorem key_eq_joined {alternative : AlternativeIds} (h : alternative.contextIds.Nodup) :
    alternative.key = joined alternative.pair := by
  rw [AlternativeIds.key, alternativeKey, insertionSort_eq_sort h]
  rfl

theorem adds_addAlternative (s : Alternatives) (alternative : AlternativeIds) :
    AddsPairs (fun pair => pair = alternative.pair) s (addAlternative s alternative) := by
  intro hs
  set normalized : AlternativeIds := { alternative with
    contextIds := unique alternative.contextIds
    assertionIds := unique alternative.assertionIds } with hnormalized
  have hnodup : normalized.contextIds.Nodup := nodup_unique _
  have hpair : normalized.pair = alternative.pair := by
    simp [AlternativeIds.pair, hnormalized]
  have hkey : normalized.key = joined alternative.pair := hpair ▸ key_eq_joined hnodup
  unfold addAlternative
  dsimp only
  rw [← hnormalized]
  split_ifs with hany hlimit
  · have hpairs : Alternatives.pairs { s with alternativeIds := s.alternativeIds.map fun existing =>
        if existing.key = normalized.key then
          { existing with
            assertionIds := unique (existing.assertionIds ++ alternative.assertionIds) }
        else existing } = s.pairs := by
      rw [Alternatives.pairs, Alternatives.pairs, List.map_map]
      refine List.map_congr_left fun existing _ => ?_
      dsimp only [Function.comp_apply]
      split_ifs
      · rfl
      · rfl
    refine ⟨fun a ha => ?_, fun hgoes => ⟨hgoes, ?_⟩⟩
    · obtain ⟨existing, hexisting, rfl⟩ := List.mem_map.1 ha
      split_ifs
      · exact hs existing hexisting
      · exact hs existing hexisting
    · rw [hpairs]
      refine ⟨fun _ => id, fun _ => Or.inl, ?_, id⟩
      rintro _ rfl
      obtain ⟨existing, hexisting, hsame⟩ := List.any_eq_true.1 hany
      refine ⟨existing.pair, List.mem_map_of_mem hexisting, ?_⟩
      rw [← key_eq_joined (hs existing hexisting), ← hkey]
      exact of_decide_eq_true hsame
  · exact ⟨hs, fun hgoes => absurd hgoes Bool.noConfusion⟩
  · have hpairs : Alternatives.pairs { s with alternativeIds := s.alternativeIds ++ [normalized] }
        = s.pairs ++ [alternative.pair] := by
      simp [Alternatives.pairs, hpair]
    refine ⟨fun a ha => ?_, fun hgoes => ⟨hgoes, ?_⟩⟩
    · rcases List.mem_append.1 ha with ha | ha
      · exact hs a ha
      · rw [List.mem_singleton.1 ha]
        exact hnodup
    · rw [hpairs]
      refine ⟨fun _ => List.mem_append_left _, fun pair hpair => ?_, ?_, fun hdistinct => ?_⟩
      · exact (List.mem_append.1 hpair).imp_right List.mem_singleton.1
      · rintro _ rfl
        exact ⟨_, List.mem_append_right _ (List.mem_singleton_self _), rfl⟩
      · rw [List.map_append, List.nodup_append]
        refine ⟨hdistinct, List.nodup_singleton _, ?_⟩
        intro key hkey' key' hkey'' hsame
        obtain ⟨pair, hpair', rfl⟩ := List.mem_map.1 hkey'
        obtain ⟨existing, hexisting, rfl⟩ := List.mem_map.1 hpair'
        rw [List.map_singleton, List.mem_singleton] at hkey''
        refine hany (List.any_eq_true.2 ⟨existing, hexisting, decide_eq_true ?_⟩)
        rw [key_eq_joined (hs existing hexisting), hkey, hsame, hkey'']

section Walk

variable {contextAssertionsByFrom : JsString → List Assertion} {region : JsString → Prop}

/-- The walk finds the assertions of context of the nodes of a region, and stays in it. -/
def Follows (P : Platform) (runtime : PackRuntime) (validAt knownAt : JsString)
    (contextAssertionsByFrom : JsString → List Assertion) (region : JsString → Prop) : Prop :=
  ∀ id, region id →
    (∀ a, a ∈ contextAssertionsByFrom id ↔ IsContextFrom P runtime validAt knownAt id a)
      ∧ ∀ a, IsContextFrom P runtime validAt knownAt id a → region a.toNodeId

theorem leads_iff (h : Follows P runtime validAt knownAt contextAssertionsByFrom region)
    {id : JsString} (hid : region id) {relations : List Relation} {target : JsString} :
    Leads P runtime validAt knownAt relations id target
      ↔ ∃ a ∈ contextAssertionsByFrom id, a.relation ∈ relations ∧ a.toNodeId = target := by
  simp only [(h id hid).1, IsContextFrom, Leads]
  constructor
  · rintro ⟨a, hpublic, hcontext, hrelation, hfrom, hto⟩
    exact ⟨a, ⟨hpublic, hfrom, hcontext⟩, hrelation, hto⟩
  · rintro ⟨a, ⟨hpublic, hfrom, hcontext⟩, hrelation, hto⟩
    exact ⟨a, hpublic, hcontext, hrelation, hfrom, hto⟩

theorem mem_targets_overlaysOf
    (h : Follows P runtime validAt knownAt contextAssertionsByFrom region) {id : JsString}
    (hid : region id) {target : JsString} :
    target ∈ (overlaysOf (contextAssertionsByFrom id)).map (·.toNodeId)
      ↔ LeadsToOverlay P runtime validAt knownAt id target := by
  rw [LeadsToOverlay, leads_iff h hid]
  simp only [overlaysOf, List.mem_map, List.mem_filter, decide_eq_true_eq, List.mem_singleton,
    and_assoc]

theorem mem_targets_hierarchyOf
    (h : Follows P runtime validAt knownAt contextAssertionsByFrom region) {id : JsString}
    (hid : region id) {target : JsString} :
    target ∈ (hierarchyOf (contextAssertionsByFrom id)).map (·.toNodeId)
      ↔ LeadsUp P runtime validAt knownAt id target := by
  rw [LeadsUp, leads_iff h hid]
  simp only [hierarchyOf, List.mem_map, List.mem_filter, Bool.or_eq_true, decide_eq_true_eq,
    List.mem_cons, List.not_mem_nil, or_false, and_assoc]

/-- A pair of a postal feature whose path has come to a node, with some contexts on the way. -/
def IsPairFrom (P : Platform) (runtime : PackRuntime) (validAt knownAt : JsString)
    (postalFeature : Node) (nodeId : JsString) (pathContextIds : List JsString)
    (pair : JsString × Finset JsString) : Prop :=
  ∃ path, Maximal (LeadsUp P runtime validAt knownAt) nodeId path ∧ pair.1 = postalFeature.id
    ∧ ∀ id, id ∈ pair.2 ↔ id ∈ pathContextIds
      ∨ id ∈ met (LeadsToOverlay P runtime validAt knownAt) nodeId path

/-- A walk from a node that no assertion leads up from. -/
theorem isPairFrom_top (h : Follows P runtime validAt knownAt contextAssertionsByFrom region)
    {postalFeature : Node} {nodeId : JsString} (hnode : region nodeId)
    (htop : hierarchyOf (contextAssertionsByFrom nodeId) = []) {pathContextIds : List JsString}
    {assertionIds : List JsString} {pair : JsString × Finset JsString} :
    pair = AlternativeIds.pair ⟨postalFeature, unique (pathContextIds
        ++ unique ((overlaysOf (contextAssertionsByFrom nodeId)).map (·.toNodeId))), assertionIds⟩
      ↔ IsPairFrom P runtime validAt knownAt postalFeature nodeId pathContextIds pair := by
  have hup : ∀ b, ¬ LeadsUp P runtime validAt knownAt nodeId b := fun b hb => by
    rw [← mem_targets_hierarchyOf h hnode, htop] at hb
    exact absurd hb List.not_mem_nil
  have hmem : ∀ id, id ∈ (unique (pathContextIds ++ unique ((overlaysOf
      (contextAssertionsByFrom nodeId)).map (·.toNodeId)))).toFinset
        ↔ id ∈ pathContextIds ∨ LeadsToOverlay P runtime validAt knownAt nodeId id := fun id => by
    rw [List.mem_toFinset, mem_unique, List.mem_append, mem_unique, mem_targets_overlaysOf h hnode]
  constructor
  · rintro rfl
    exact ⟨[], maximal_nil.2 hup, rfl, fun id => by rw [mem_met_nil]; exact hmem id⟩
  · rintro ⟨_ | ⟨b, path⟩, hpath, hfeature, hcontexts⟩
    · refine Prod.ext hfeature (Finset.ext fun id => ?_)
      rw [hcontexts, mem_met_nil]
      exact (hmem id).symm
    · exact absurd (maximal_cons.1 hpath).1 (hup b)

/-- A walk from a node goes on from each node that an assertion leads up to. -/
theorem isPairFrom_up (h : Follows P runtime validAt knownAt contextAssertionsByFrom region)
    {postalFeature : Node} {nodeId : JsString} (hnode : region nodeId)
    (hnot : hierarchyOf (contextAssertionsByFrom nodeId) ≠ []) {pathContextIds : List JsString}
    {pair : JsString × Finset JsString} :
    (∃ target ∈ unique ((hierarchyOf (contextAssertionsByFrom nodeId)).map (·.toNodeId)),
      IsPairFrom P runtime validAt knownAt postalFeature target (unique (pathContextIds
        ++ unique ((overlaysOf (contextAssertionsByFrom nodeId)).map (·.toNodeId))) ++ [target])
        pair)
      ↔ IsPairFrom P runtime validAt knownAt postalFeature nodeId pathContextIds pair := by
  simp only [mem_unique, mem_targets_hierarchyOf h hnode, IsPairFrom, List.mem_append,
    mem_targets_overlaysOf h hnode, List.mem_singleton]
  constructor
  · rintro ⟨target, hup, path, hpath, hfeature, hcontexts⟩
    refine ⟨target :: path, maximal_cons.2 ⟨hup, hpath⟩, hfeature, fun id => ?_⟩
    rw [hcontexts, mem_met_cons]
    tauto
  · rintro ⟨_ | ⟨target, path⟩, hpath, hfeature, hcontexts⟩
    · obtain ⟨a, ha⟩ := List.exists_mem_of_ne_nil _ hnot
      exact absurd ((mem_targets_hierarchyOf h hnode).1 (List.mem_map_of_mem ha))
        (maximal_nil.1 hpath a.toNodeId)
    · obtain ⟨hup, hpath⟩ := maximal_cons.1 hpath
      refine ⟨target, hup, path, hpath, hfeature, fun id => ?_⟩
      rw [hcontexts, mem_met_cons]
      tauto

theorem adds_walk (h : Follows P runtime validAt knownAt contextAssertionsByFrom region)
    (postalFeature : Node) : ∀ (levels : ℕ) (s : Alternatives) (nodeId : JsString)
    (pathContextIds pathAssertionIds visited : List JsString), region nodeId →
      AddsPairs (IsPairFrom P runtime validAt knownAt postalFeature nodeId pathContextIds) s
        (walkContextPaths contextAssertionsByFrom postalFeature levels s nodeId pathContextIds
          pathAssertionIds visited)
  | 0, s, _, _, _, _, _ => Adds.stopped id Bool.noConfusion
  | levels + 1, s, nodeId, pathContextIds, pathAssertionIds, visited, hnode => by
    rw [walkContextPaths]
    split_ifs with hexceeded
    · exact Adds.stopped id fun hgoes => Bool.noConfusion (hgoes.symm.trans hexceeded)
    dsimp only
    set hierarchy := hierarchyOf (contextAssertionsByFrom nodeId) with hhierarchy
    have hregion : ∀ target ∈ hierarchy.map (·.toNodeId), region target := by
      intro target htarget
      obtain ⟨a, ha, rfl⟩ := List.mem_map.1 htarget
      have hcontext := ((h nodeId hnode).1 a).1 (List.mem_filter.1 ha).1
      exact (h nodeId hnode).2 a hcontext
    by_cases hvisited : hierarchy.any (·.toNodeId ∈ visited)
    · -- a node is met again, and the walk reports that something is left out
      rw [if_pos hvisited]
      split_ifs with hfollowed
      · exact (adds_addAlternative _ _).after_stopped id Bool.noConfusion
      · have htargets : ∀ target ∈ unique ((hierarchy.filter (·.toNodeId ∉ visited)).map
            (·.toNodeId)), region target := fun target htarget =>
          hregion target (List.map_subset _ (List.filter_subset_self _) (mem_unique.1 htarget))
        exact Adds.after_stopped (Adds.foldl _ _ fun target htarget s =>
          adds_walk h postalFeature levels s target _ _ _ (htargets target htarget)) id
          Bool.noConfusion
    · have hall : hierarchy.filter (·.toNodeId ∉ visited) = hierarchy := by
        refine List.filter_eq_self.2 fun a ha => decide_eq_true fun hin => ?_
        exact hvisited (List.any_eq_true.2 ⟨a, ha, decide_eq_true hin⟩)
      rw [if_neg hvisited, hall]
      split_ifs with hfollowed
      · exact (adds_addAlternative s _).congr fun pair => isPairFrom_top h hnode hfollowed
      · refine (Adds.foldl _ s fun target htarget s => ?_).congr
          fun pair => isPairFrom_up h hnode hfollowed
        exact adds_walk h postalFeature levels s target _ _ _
          (hregion target (mem_unique.1 htarget))

end Walk

/-! ## The answer -/

theorem gathers_lookupAlternatives {contextAssertionsByFrom : JsString → List Assertion}
    {region : JsString → Prop} {postalFeatures : List Node}
    (h : Follows P runtime validAt knownAt contextAssertionsByFrom region)
    (hfeatures : ∀ node ∈ postalFeatures, region node.id)
    (hgoes : (lookupAlternatives contextAssertionsByFrom postalFeatures).Goes) :
    (lookupAlternatives contextAssertionsByFrom postalFeatures).alternativeIds ≠ []
      ∧ Gathers joined (fun pair => ∃ node ∈ postalFeatures,
          IsPairFrom P runtime validAt knownAt node node.id [] pair) []
        (lookupAlternatives contextAssertionsByFrom postalFeatures).pairs := by
  unfold lookupAlternatives at hgoes ⊢
  set s := postalFeatures.foldl (fun s postalFeature =>
    walkContextPaths contextAssertionsByFrom postalFeature
      (QUERY_LIMITS.lookupAlternativeDepth + 1) s postalFeature.id [] [] [postalFeature.id])
    ⟨[], false⟩
  have hwalks : AddsPairs (fun pair => ∃ node ∈ postalFeatures,
      IsPairFrom P runtime validAt knownAt node node.id [] pair) ⟨[], false⟩ s :=
    Adds.foldl _ _ fun node hnode s => adds_walk h node _ s node.id _ _ _ (hfeatures node hnode)
  have hstart : Alternatives.Tidy ⟨[], false⟩ := fun _ ha => absurd ha List.not_mem_nil
  dsimp only at hgoes ⊢
  split_ifs at hgoes ⊢ with hempty
  · have hbare : AddsPairs (fun pair => ∃ node ∈ postalFeatures.take
        QUERY_LIMITS.lookupAlternatives, pair = AlternativeIds.pair ⟨node, [], []⟩)
        { s with alternativeLimitExceeded := true } _ :=
      Adds.foldl _ _ fun node _ s => adds_addAlternative s ⟨node, [], []⟩
    exact absurd ((hbare (hwalks hstart).1).2 hgoes).1 Bool.noConfusion
  · exact ⟨fun hnil => hempty (List.isEmpty_iff.2 hnil), ((hwalks hstart).2 hgoes).2⟩

variable {normalize : JsString → Option JsString} {value : JsString} {includeGeometry : Bool}

/-- The code and the times of a request are those of a lookup. -/
def WellAsked (P : Platform) (normalize : JsString → Option JsString)
    (value validAt knownAt : JsString) : Prop :=
  truthy (normalize value) ≠ none ∧ instantValue P validAt ≠ none ∧ instantValue P knownAt ≠ none

theorem instantInRange_invalid {time : JsString} (h : instantValue P time = none)
    (range : TimeRange) : instantInRange P time range = false := by
  rw [instantInRange, h]

theorem wellAsked_of_effective {node : Node}
    (h : IsEffectiveFeature P runtime normalize value validAt knownAt node) :
    WellAsked P normalize value validAt knownAt := by
  obtain ⟨code, hcode, -⟩ := h.code
  refine ⟨fun hnone => ?_, fun hnone => ?_, fun hnone => ?_⟩
  · rw [hnone] at hcode
    cases hcode
  · have hrelease := h.release
    rw [PackRuntime.releaseEffective, instantInRange_invalid hnone] at hrelease
    cases hrelease
  · rcases h.supported with ⟨feature, -, -, -, heffective⟩ | ⟨assertion, -, -, hsupports⟩
    · rw [isPostalContextGeometryEffectiveAt, instantInRange_invalid hnone, Bool.and_false]
        at heffective
      cases heffective
    · rw [supportsPostalFeature, isPostalContextAssertionEffectiveAt,
        instantInRange_invalid hnone, Bool.and_false, Bool.and_false, Bool.false_and] at hsupports
      cases hsupports

/-- The nodes of a code that pass the tests are its effective postal features. -/
theorem mem_effective_iff (h : Created P pack runtime) {code : JsString}
    (hcode : truthy (normalize value) = some code) (hrelease : runtime.releaseEffective P validAt)
    {postalFeatures : List Node} {examined : ℕ}
    (hfeatures : effectivePostalFeatures P runtime validAt knownAt examined
      (postalByCode runtime normalize code) = some postalFeatures) {node : Node} :
    node ∈ postalFeatures
      ↔ IsEffectiveFeature P runtime normalize value validAt knownAt node := by
  rw [effectivePostalFeatures_eq hfeatures, List.mem_filter, postalByCode, List.mem_filter,
    Bool.and_eq_true, Bool.and_eq_true, any_postalNodeTests, decide_eq_true_eq, decide_eq_true_eq]
  constructor
  · rintro ⟨⟨hmem, hkind, hcode'⟩, -, hsupported⟩
    exact ⟨hmem, hkind, ⟨code, hcode, hcode'⟩, hrelease, hsupported⟩
  · rintro ⟨hmem, hkind, ⟨code', hcode', hnode⟩, -, hsupported⟩
    obtain rfl := Option.some.inj (hcode.symm.trans hcode')
    refine ⟨⟨hmem, hkind, hnode⟩, ?_, hsupported⟩
    rw [(node_eq_some_iff h).2 ⟨h.pack_eq ▸ hmem, rfl⟩]
    rfl

/-- A lookup with nothing left out, by the step that it has come to. -/
theorem lookup_cases (h : Created P pack runtime)
    (hwhole : (lookupPostalCode P runtime validAt knownAt normalize value
      includeGeometry).Untruncated) :
    (∃ status code errors warnings, lookupPostalCode P runtime validAt knownAt normalize value
        includeGeometry = baseLookup runtime status code errors warnings
      ∧ (∀ node, ¬ IsEffectiveFeature P runtime normalize value validAt knownAt node)
      ∧ (status = .invalid ∧ ¬ WellAsked P normalize value validAt knownAt
        ∨ status = .no_match ∧ WellAsked P normalize value validAt knownAt))
    ∨ ∃ code postalFeatures search, postalFeatures ≠ []
      ∧ (∀ node, node ∈ postalFeatures
        ↔ IsEffectiveFeature P runtime normalize value validAt knownAt node)
      ∧ contextsOf P runtime validAt knownAt postalFeatures = some search
      ∧ (lookupAlternatives search.contextAssertionsByFrom postalFeatures).Goes
      ∧ lookupPostalCode P runtime validAt knownAt normalize value includeGeometry
        = lookupResult P runtime validAt knownAt code postalFeatures
          (lookupAlternatives search.contextAssertionsByFrom postalFeatures) includeGeometry := by
  have hnone (hnot : ¬ WellAsked P normalize value validAt knownAt) (node : Node) :
      ¬ IsEffectiveFeature P runtime normalize value validAt knownAt node :=
    fun hnode => hnot (wellAsked_of_effective hnode)
  have hlimit {error : JsString} (herror : error ∈ LOOKUP_LIMIT_ERRORS) {status : LookupStatus}
      {code : Option JsString} {warnings : List JsString} :
      ¬ (baseLookup runtime status code [error] warnings).Untruncated :=
    fun hwhole => hwhole.1 error herror (List.mem_singleton_self error)
  unfold lookupPostalCode at hwhole ⊢
  dsimp only at hwhole ⊢
  split at hwhole
  · rename_i hcode
    have hnot : ¬ WellAsked P normalize value validAt knownAt := fun hasked => hasked.1 hcode
    exact Or.inl ⟨_, _, _, _, rfl, hnone hnot, Or.inl ⟨rfl, hnot⟩⟩
  rename_i code hcode
  split_ifs at hwhole ⊢ with htimes hrelease hcount
  · have hnot : ¬ WellAsked P normalize value validAt knownAt := fun hasked => by
      simp only [Bool.or_eq_true, decide_eq_true_eq] at htimes
      exact htimes.elim hasked.2.1 hasked.2.2
    exact Or.inl ⟨_, _, _, _, rfl, hnone hnot, Or.inl ⟨rfl, hnot⟩⟩
  all_goals
    have hasked : WellAsked P normalize value validAt knownAt := by
      simp only [Bool.or_eq_true, decide_eq_true_eq, not_or] at htimes
      exact ⟨hcode ▸ nofun, htimes⟩
  · refine Or.inl ⟨_, _, _, _, rfl, fun node hnode => ?_, Or.inr ⟨rfl, hasked⟩⟩
    rw [hnode.release] at hrelease
    cases hrelease
  · exact absurd hwhole (hlimit (by simp [LOOKUP_LIMIT_ERRORS]))
  rw [Bool.not_eq_true', Bool.not_eq_false] at hrelease
  split at hwhole
  · exact absurd hwhole (hlimit (by simp [LOOKUP_LIMIT_ERRORS]))
  · rename_i hfeatures
    refine Or.inl ⟨_, _, _, _, rfl, fun node hnode => ?_, Or.inr ⟨rfl, hasked⟩⟩
    exact absurd ((mem_effective_iff h hcode hrelease hfeatures).2 hnode) List.not_mem_nil
  rename_i postalFeatures hsome hfeatures
  split at hwhole
  · exact absurd hwhole (hlimit (by simp [LOOKUP_LIMIT_ERRORS]))
  rename_i search hsearch
  refine Or.inr ⟨code, postalFeatures, search, hsome,
    fun node => mem_effective_iff h hcode hrelease hfeatures, hsearch, ?_, rfl⟩
  rw [Alternatives.Goes]
  by_contra hexceeded
  rw [Bool.not_eq_false] at hexceeded
  refine hwhole.2 ?_
  simp only [lookupResult, hexceeded]
  exact List.mem_append_left _ (List.mem_singleton_self _)

theorem isPair_iff {pair : JsString × Finset JsString} :
    IsPair P runtime normalize value validAt knownAt pair
      ↔ ∃ node, IsEffectiveFeature P runtime normalize value validAt knownAt node
        ∧ IsPairFrom P runtime validAt knownAt node node.id [] pair := by
  simp only [IsPair, IsPairFrom, Set.ext_iff, Finset.mem_coe, List.not_mem_nil, false_or,
    exists_and_left]

/-- What a lookup answers, told by its own alternatives. -/
structure Answered (P : Platform) (runtime : PackRuntime) (normalize : JsString → Option JsString)
    (value validAt knownAt : JsString) (result : PostalLookupResult) : Prop where
  gathers : Gathers joined (IsPair P runtime normalize value validAt knownAt) []
    (result.alternatives.map (·.pair))
  invalid : result.status = .invalid ↔ ¬ WellAsked P normalize value validAt knownAt
  no_match : result.status = .no_match
    ↔ WellAsked P normalize value validAt knownAt ∧ result.alternatives = []
  unique : result.status = .unique ↔ result.alternatives.length = 1
  contexts : ∀ id, id ∈ result.contexts.map (·.id)
    ↔ result.alternatives ≠ [] ∧ ∀ pair ∈ result.alternatives.map (·.pair), id ∈ pair.2

theorem ids_componentsOf {ids : List JsString} (h : ∀ id ∈ ids, (runtime.node id).isSome) :
    (componentsOf runtime ids).map (·.id) = ids := by
  rw [componentsOf, List.map_filterMap]
  refine (List.filterMap_congr fun id hid => ?_).trans List.filterMap_some
  obtain ⟨node, hnode⟩ := Option.isSome_iff_exists.1 (h id hid)
  rw [hnode, Option.map_some, Option.map_some, publicComponent, id_of_node hnode]

theorem node_of_leads {relations : List Relation} {fromNodeId toNodeId : JsString}
    (h : Leads P runtime validAt knownAt relations fromNodeId toNodeId) :
    (runtime.node toNodeId).isSome := by
  obtain ⟨a, -, hcontext, -, -, rfl⟩ := h
  rw [isContextAssertion, Bool.and_eq_true] at hcontext
  have hnodes := hcontext.2
  split at hnodes
  · rename_i htarget
    rw [htarget]
    rfl
  · cases hnodes

theorem node_of_isPair {pair : JsString × Finset JsString}
    (h : IsPair P runtime normalize value validAt knownAt pair) {id : JsString}
    (hid : id ∈ pair.2) : (runtime.node id).isSome := by
  obtain ⟨node, path, -, hpath, -, hcontexts⟩ := h
  rw [← Finset.mem_coe, hcontexts] at hid
  exact Paths.of_mem_met (q := fun id => (runtime.node id).isSome) (fun _ _ => node_of_leads)
    (fun _ _ => node_of_leads) hpath hid

theorem mem_commonIds {s : Alternatives} (hgoes : s.Goes) {id : JsString} :
    id ∈ commonIds (·.contextIds) s
      ↔ s.alternativeIds ≠ [] ∧ ∀ pair ∈ s.pairs, id ∈ pair.2 := by
  have hpairs : (∀ pair ∈ s.pairs, id ∈ pair.2) ↔ ∀ a ∈ s.alternativeIds, id ∈ a.contextIds := by
    simp [Alternatives.pairs, AlternativeIds.pair]
  rw [hpairs]
  unfold commonIds
  split
  · rename_i hnil
    simp [hnil]
  · rename_i first rest hsome
    rw [if_neg (by rw [hgoes]; exact Bool.noConfusion), hsome]
    simp only [List.mem_filter, List.all_eq_true, decide_eq_true_eq, List.forall_mem_cons]
    tauto

theorem answered_lookupResult {code : JsString} {postalFeatures : List Node} {s : Alternatives}
    (hasked : WellAsked P normalize value validAt knownAt) (hgoes : s.Goes)
    (hgathers : Gathers joined (IsPair P runtime normalize value validAt knownAt) [] s.pairs)
    (hsome : s.alternativeIds ≠ []) :
    Answered P runtime normalize value validAt knownAt
      (lookupResult P runtime validAt knownAt code postalFeatures s includeGeometry) := by
  have hnode : ∀ a ∈ s.alternativeIds, ∀ id ∈ a.contextIds, (runtime.node id).isSome := by
    intro a ha id hid
    have hpair := (hgathers.only a.pair (List.mem_map_of_mem ha)).resolve_left List.not_mem_nil
    exact node_of_isPair hpair (List.mem_toFinset.2 hid)
  have halternatives : (lookupResult P runtime validAt knownAt code postalFeatures s
      includeGeometry).alternatives = s.alternativeIds.map fun alternative =>
        { postalFeature := publicComponent alternative.postalFeature
          contexts := componentsOf runtime alternative.contextIds
          assertionIds := alternative.assertionIds } := rfl
  have hpairs : (lookupResult P runtime validAt knownAt code postalFeatures s
      includeGeometry).alternatives.map (·.pair) = s.pairs := by
    rw [halternatives, List.map_map]
    refine List.map_congr_left fun a ha => ?_
    simp only [Function.comp_apply, PostalLookupAlternative.pair, ids_componentsOf (hnode a ha)]
    rfl
  have hstatus : (lookupResult P runtime validAt knownAt code postalFeatures s
      includeGeometry).status = if s.alternativeIds.length = 1 then .unique else .ambiguous := by
    rw [Alternatives.Goes] at hgoes
    simp only [lookupResult, baseLookup, hgoes, Bool.not_false, Bool.and_true, decide_eq_true_eq]
  refine ⟨hpairs ▸ hgathers, ?_, ?_, ?_, fun id => ?_⟩
  · rw [hstatus]
    refine iff_of_false ?_ (not_not.2 hasked)
    split_ifs
    · exact nofun
    · exact nofun
  · rw [hstatus, halternatives, List.map_eq_nil_iff]
    refine iff_of_false ?_ fun h => hsome h.2
    split_ifs
    · exact nofun
    · exact nofun
  · rw [hstatus, halternatives, List.length_map]
    split_ifs with hone
    · exact iff_of_true rfl hone
    · exact iff_of_false nofun hone
  · have hcommon : ∀ id ∈ commonIds (·.contextIds) s, (runtime.node id).isSome := by
      intro id hid
      obtain ⟨a, ha⟩ := List.exists_mem_of_ne_nil _ hsome
      have hall := ((mem_commonIds hgoes).1 hid).2 a.pair (List.mem_map_of_mem ha)
      exact hnode a ha id (List.mem_toFinset.1 hall)
    rw [hpairs, halternatives, ne_eq, List.map_eq_nil_iff, ← mem_commonIds hgoes]
    change id ∈ (componentsOf runtime (commonIds (·.contextIds) s)).map (·.id) ↔ _
    rw [ids_componentsOf hcommon]

theorem answered_lookupPostalCode (h : Created P pack runtime)
    (hwhole : (lookupPostalCode P runtime validAt knownAt normalize value
      includeGeometry).Untruncated) :
    Answered P runtime normalize value validAt knownAt
      (lookupPostalCode P runtime validAt knownAt normalize value includeGeometry) := by
  obtain ⟨status, code, errors, warnings, hlookup, hnone, hstatus⟩ |
    ⟨code, postalFeatures, search, hsome, hfeatures, hsearch, hgoes, hlookup⟩ :=
      lookup_cases h hwhole
  · have hpair : ∀ pair, ¬ IsPair P runtime normalize value validAt knownAt pair :=
      fun pair ⟨node, _, hnode, _⟩ => hnone node hnode
    rw [hlookup]
    refine ⟨Gathers.refl hpair, ?_, ?_, ?_, fun id =>
      iff_of_false List.not_mem_nil fun h => h.1 rfl⟩
    · rcases hstatus with ⟨rfl, hnot⟩ | ⟨rfl, hasked⟩
      · exact iff_of_true rfl hnot
      · exact iff_of_false nofun (not_not.2 hasked)
    · rcases hstatus with ⟨rfl, hnot⟩ | ⟨rfl, hasked⟩
      · exact iff_of_false nofun fun h => hnot h.1
      · exact iff_of_true rfl ⟨hasked, rfl⟩
    · rcases hstatus with ⟨rfl, -⟩ | ⟨rfl, -⟩
      · exact iff_of_false nofun nofun
      · exact iff_of_false nofun nofun
  · rw [hlookup]
    obtain ⟨-, hend⟩ := contextsOf_ends hsearch
    have hfollows : Follows P runtime validAt knownAt search.contextAssertionsByFrom fun id =>
        id ∈ postalFeatures.map (·.id) ∨ id ∈ search.contextIds := fun id hid =>
      ⟨(hend id hid).1, fun a ha => Or.inr ((hend id hid).2 a ha)⟩
    obtain ⟨hnonempty, hgathers⟩ := gathers_lookupAlternatives hfollows
      (fun node hnode => Or.inl (List.mem_map_of_mem hnode)) hgoes
    obtain ⟨first, hfirst⟩ := List.exists_mem_of_ne_nil _ hsome
    refine answered_lookupResult (wellAsked_of_effective ((hfeatures first).1 hfirst)) hgoes
      (hgathers.congr fun pair => ?_) hnonempty
    rw [isPair_iff]
    exact exists_congr fun node => and_congr_left fun _ => hfeatures node

/-! ## Another order of the pack -/

section Reordered

variable {pack' : RuntimePack} {runtime' : PackRuntime}

theorem node_reordered (h : Created P pack runtime) (h' : Created P pack' runtime')
    (horder : pack.Reordered pack') : runtime'.node = runtime.node := by
  funext id
  refine Option.ext fun node => ?_
  rw [node_eq_some_iff h, node_eq_some_iff h', horder.nodes.mem_iff]

theorem mem_publicAssertions_reordered (h : Created P pack runtime)
    (h' : Created P pack' runtime') (horder : pack.Reordered pack') {assertion : Assertion} :
    assertion ∈ runtime'.publicAssertions ↔ assertion ∈ runtime.publicAssertions := by
  rw [PackRuntime.publicAssertions, PackRuntime.publicAssertions, h.pack_eq, h'.pack_eq,
    (horder.assertions.filter _).mem_iff]

theorem isEffectiveFeature_reordered (h : Created P pack runtime) (h' : Created P pack' runtime')
    (horder : pack.Reordered pack') {node : Node}
    (hnode : IsEffectiveFeature P runtime normalize value validAt knownAt node) :
    IsEffectiveFeature P runtime' normalize value validAt knownAt node where
  mem := by
    rw [h'.pack_eq, ← horder.nodes.mem_iff, ← h.pack_eq]
    exact hnode.mem
  kind := hnode.kind
  code := hnode.code
  release := by
    rw [PackRuntime.releaseEffective, h'.pack_eq, horder.rest, ← h.pack_eq]
    exact hnode.release
  supported := by
    rw [h'.pack_eq, horder.rest, ← h.pack_eq]
    simp only [mem_publicAssertions_reordered h h' horder, supportsPostalFeature,
      node_reordered h h' horder]
    exact hnode.supported

theorem leads_reordered (h : Created P pack runtime) (h' : Created P pack' runtime')
    (horder : pack.Reordered pack') :
    Leads P runtime' validAt knownAt = Leads P runtime validAt knownAt := by
  funext relations fromNodeId toNodeId
  simp only [Leads, mem_publicAssertions_reordered h h' horder, isContextAssertion,
    node_reordered h h' horder]

theorem RuntimePack.Reordered.symm (h : pack.Reordered pack') : pack'.Reordered pack where
  nodes := h.nodes.symm
  assertions := h.assertions.symm
  rest := by rw [h.rest]

theorem isPair_reordered (h : Created P pack runtime) (h' : Created P pack' runtime')
    (horder : pack.Reordered pack') {pair : JsString × Finset JsString} :
    IsPair P runtime' normalize value validAt knownAt pair
      ↔ IsPair P runtime normalize value validAt knownAt pair := by
  simp only [IsPair, LeadsUp, LeadsToOverlay, leads_reordered h h' horder]
  constructor
  · rintro ⟨node, path, hnode, hpair⟩
    exact ⟨node, path, isEffectiveFeature_reordered h' h horder.symm hnode, hpair⟩
  · rintro ⟨node, path, hnode, hpair⟩
    exact ⟨node, path, isEffectiveFeature_reordered h h' horder hnode, hpair⟩

end Reordered

/-! ## The lookup -/

section Lawful

variable {result result' : PostalLookupResult}

theorem nodup_pairs (h : Answered P runtime normalize value validAt knownAt result) :
    (result.alternatives.map (·.pair)).Nodup :=
  List.Nodup.of_map joined (h.gathers.distinct List.nodup_nil)

/-- The pairs that are asked for are those of the alternatives where their joined ids are apart. -/
theorem mem_pairs_iff (h : Answered P runtime normalize value validAt knownAt result)
    (hapart : JoinedApart P runtime normalize value validAt knownAt)
    {pair : JsString × Finset JsString} : pair ∈ result.alternatives.map (·.pair)
      ↔ IsPair P runtime normalize value validAt knownAt pair :=
  h.gathers.mem_iff_iff.2 hapart pair

theorem alternatives_ne_nil_iff (h : Answered P runtime normalize value validAt knownAt result)
    (hapart : JoinedApart P runtime normalize value validAt knownAt) :
    result.alternatives ≠ [] ↔ ∃ pair, IsPair P runtime normalize value validAt knownAt pair := by
  simp only [← mem_pairs_iff h hapart]
  constructor
  · intro hsome
    obtain ⟨a, ha⟩ := List.exists_mem_of_ne_nil _ hsome
    exact ⟨a.pair, List.mem_map_of_mem ha⟩
  · rintro ⟨pair, hpair⟩ hnil
    rw [hnil] at hpair
    exact absurd hpair List.not_mem_nil

theorem unique_iff (h : Answered P runtime normalize value validAt knownAt result)
    (hapart : JoinedApart P runtime normalize value validAt knownAt) : result.status = .unique
      ↔ ∃! pair, IsPair P runtime normalize value validAt knownAt pair := by
  rw [h.unique, ← List.length_map (f := (·.pair)), List.length_eq_one_iff]
  simp only [← mem_pairs_iff h hapart]
  constructor
  · rintro ⟨pair, hpair⟩
    exact ⟨pair, by simp [hpair], fun other hother => by simpa [hpair] using hother⟩
  · rintro ⟨pair, hpair, honly⟩
    refine ⟨pair, List.perm_singleton.1 ((List.perm_ext_iff_of_nodup (nodup_pairs h)
      (List.nodup_singleton pair)).2 fun other => ?_)⟩
    rw [List.mem_singleton]
    exact ⟨honly other, fun hother => hother ▸ hpair⟩

theorem LookupStatus.eq_of_iff {status status' : LookupStatus}
    (hinvalid : status = .invalid ↔ status' = .invalid)
    (hno_match : status = .no_match ↔ status' = .no_match)
    (hunique : status = .unique ↔ status' = .unique) : status = status' := by
  cases status <;> cases status' <;> simp_all

theorem sameAs_of_answered {runtime' : PackRuntime}
    (h : Answered P runtime normalize value validAt knownAt result)
    (h' : Answered P runtime' normalize value validAt knownAt result')
    (hapart : JoinedApart P runtime normalize value validAt knownAt)
    (hpairs : ∀ pair, IsPair P runtime' normalize value validAt knownAt pair
      ↔ IsPair P runtime normalize value validAt knownAt pair) : result.SameAs result' := by
  have hapart' : JoinedApart P runtime' normalize value validAt knownAt := by
    simpa only [JoinedApart, hpairs] using hapart
  have hmem (pair : JsString × Finset JsString) : pair ∈ result.alternatives.map (·.pair)
      ↔ pair ∈ result'.alternatives.map (·.pair) := by
    rw [mem_pairs_iff h hapart, mem_pairs_iff h' hapart', hpairs]
  have hnil : result.alternatives ≠ [] ↔ result'.alternatives ≠ [] := by
    rw [alternatives_ne_nil_iff h hapart, alternatives_ne_nil_iff h' hapart']
    simp only [hpairs]
  refine ⟨LookupStatus.eq_of_iff ?_ ?_ ?_, hmem, fun id => ?_⟩
  · rw [h.invalid, h'.invalid]
  · rw [h.no_match, h'.no_match, not_iff_not.1 hnil]
  · rw [unique_iff h hapart, unique_iff h' hapart']
    simp only [hpairs]
  · rw [h.contexts, h'.contexts, hnil]
    simp only [hmem]

end Lawful

/-- A lookup that leaves nothing out is lawful where no two of its pairs are one text. -/
theorem lookupLawful_iff_joinedApart (h : PackRuntime.create P pack options = .ok runtime)
    (hwhole : (lookupPostalCode P runtime validAt knownAt normalize value
      includeGeometry).Untruncated) :
    LookupLawful P runtime normalize value validAt knownAt pack options includeGeometry
      ↔ JoinedApart P runtime normalize value validAt knownAt := by
  have hanswered := answered_lookupPostalCode (created h) hwhole
  constructor
  · exact fun hlawful => hanswered.gathers.mem_iff_iff.1 hlawful.pairs
  · intro hapart
    refine ⟨fun postalFeatures search hsearch => (contextsOf_ends hsearch).1,
      fun pair => mem_pairs_iff hanswered hapart, nodup_pairs hanswered,
      unique_iff hanswered hapart, fun id => ?_, fun pack' runtime' horder hcreate hwhole' => ?_⟩
    · rw [hanswered.contexts, alternatives_ne_nil_iff hanswered hapart]
      simp only [mem_pairs_iff hanswered hapart]
    · exact sameAs_of_answered hanswered (answered_lookupPostalCode (created hcreate) hwhole')
        hapart fun pair => isPair_reordered (created h) (created hcreate) horder

/-! ## Ids without NUL -/

theorem id_ne_nil_of_nodesErrors {release : ReleaseManifest} : ∀ {nodes : List Node}
    {ids : List JsString}, nodesErrors release ids nodes = [] → ∀ node ∈ nodes, node.id ≠ []
  | [], _, _ => fun _ hnode => absurd hnode List.not_mem_nil
  | node :: nodes, ids, h => by
    rw [nodesErrors, List.append_eq_nil_iff] at h
    intro other hother
    rcases List.mem_cons.1 hother with rfl | hother
    · have hid := h.1
      simp only [nodeErrors, List.append_eq_nil_iff, report_eq_nil, decide_eq_false_iff_not,
        and_assoc] at hid
      exact hid.1
    · exact id_ne_nil_of_nodesErrors h.2 other hother

theorem id_ne_nil_of_created (h : Created P pack runtime) {node : Node}
    (hnode : node ∈ pack.graph.nodes) : node.id ≠ [] := by
  obtain ⟨countryCode, hvalid⟩ := h.valid
  obtain ⟨hgraph, -⟩ := errors_of_valid hvalid
  simp only [validatePostalContextGraph, List.append_eq_nil_iff, and_assoc] at hgraph
  exact id_ne_nil_of_nodesErrors hgraph.2.2.2.1 node hnode

theorem joined_eq_intercalate (pair : JsString × Finset JsString) :
    joined pair = [0].intercalate (joinedParts pair) := by
  unfold joined joinedParts
  split_ifs with hempty
  · rw [hempty, Finset.sort_empty, List.intercalate_cons_cons, List.intercalate_singleton]
    rfl
  · have hsort : pair.2.sort (· ≤ ·) ≠ [] := fun hnil => by
      rw [← List.length_eq_zero_iff, Finset.length_sort, Finset.card_eq_zero] at hnil
      exact hempty hnil
    rw [List.intercalate_cons_of_ne_nil hsort, List.append_assoc]

theorem joined_inj {pair pair' : JsString × Finset JsString}
    (hnul : ∀ part ∈ joinedParts pair, 0 ∉ part) (hnul' : ∀ part ∈ joinedParts pair', 0 ∉ part)
    (hids : [] ∉ pair.2) (hids' : [] ∉ pair'.2) (h : joined pair = joined pair') :
    pair = pair' := by
  rw [joined_eq_intercalate, joined_eq_intercalate] at h
  have hparts : joinedParts pair = joinedParts pair' := by
    rw [← List.splitOn_intercalate (0 : CodeUnit) hnul (List.cons_ne_nil _ _), h,
      List.splitOn_intercalate (0 : CodeUnit) hnul' (List.cons_ne_nil _ _)]
  obtain ⟨hfeature, hrest⟩ := List.cons.inj hparts
  have hmem (pair : JsString × Finset JsString) (hids : [] ∉ pair.2) {id : JsString} :
      id ∈ pair.2 ↔ id ≠ [] ∧ id ∈ if pair.2 = ∅ then [[]] else pair.2.sort (· ≤ ·) := by
    split_ifs with hempty
    · simp [hempty]
    · rw [Finset.mem_sort]
      exact ⟨fun hid => ⟨fun hnil => hids (hnil ▸ hid), hid⟩, fun hid => hid.2⟩
  refine Prod.ext hfeature (Finset.ext fun id => ?_)
  rw [hmem pair hids, hmem pair' hids', hrest]

/-- Ids without NUL are apart when they are joined. -/
theorem joinedApart_of_no_nul (h : Created P pack runtime)
    (hnul : ∀ node ∈ pack.graph.nodes, 0 ∉ node.id) :
    JoinedApart P runtime normalize value validAt knownAt := by
  have hcontext {pair : JsString × Finset JsString}
      (hpair : IsPair P runtime normalize value validAt knownAt pair) {id : JsString}
      (hid : id ∈ pair.2) : 0 ∉ id ∧ id ≠ [] := by
    obtain ⟨node, hnode⟩ := Option.isSome_iff_exists.1 (node_of_isPair hpair hid)
    obtain ⟨hmem, rfl⟩ := (node_eq_some_iff h).1 hnode
    exact ⟨hnul node hmem, id_ne_nil_of_created h hmem⟩
  have hparts {pair : JsString × Finset JsString}
      (hpair : IsPair P runtime normalize value validAt knownAt pair) :
      ∀ part ∈ joinedParts pair, 0 ∉ part := by
    intro part hpart
    rcases List.mem_cons.1 hpart with rfl | hpart
    · obtain ⟨node, path, hnode, -, hfeature, -⟩ := hpair
      rw [hfeature]
      exact hnul node (h.pack_eq ▸ hnode.mem)
    · split_ifs at hpart with hempty
      · rw [List.mem_singleton.1 hpart]
        exact List.not_mem_nil
      · exact (hcontext hpair ((Finset.mem_sort _).1 hpart)).1
  intro pair hpair pair' hpair' hjoined
  exact joined_inj (hparts hpair) (hparts hpair') (fun hnil => (hcontext hpair hnil).2 rfl)
    (fun hnil => (hcontext hpair' hnil).2 rfl) hjoined

/-! ## An id with NUL -/

/-- Six digits, as in Singapore. -/
def sixDigits (value : JsString) : Option JsString :=
  if value.length = 6 && value.all isDigit then some value else none

/-- A postal feature with two ways up: to `a` and `b`, and to one node whose id has both. -/
def nulPack (assertions : List Assertion) : RuntimePack := samplePack
  [{ sampleNode (js "postal-1") .postal_feature .standard_area .none with
      postalCode := some (js "100001") },
    sampleNode (js "a") .locality .locality .none, sampleNode (js "b") .locality .locality .none,
    sampleNode (js "a" ++ [0] ++ js "b") .locality .locality .none]
  assertions []

def nulAssertions : List Assertion :=
  [sampleAssertion (js "within-1") (js "postal-1") (js "a") .admin_within,
    sampleAssertion (js "within-2") (js "a") (js "b") .admin_within,
    sampleAssertion (js "within-3") (js "postal-1") (js "a" ++ [0] ++ js "b") .admin_within]

theorem isSome_nulPack :
    (PackRuntime.create samplePlatform (nulPack nulAssertions) ⟨none, none⟩).toOption.isSome := by
  decide

def nulRuntime : PackRuntime := Option.get _ isSome_nulPack

theorem create_nulPack : PackRuntime.create samplePlatform (nulPack nulAssertions) ⟨none, none⟩
    = .ok nulRuntime := eq_ok_of_toOption_get isSome_nulPack

theorem isSome_nulPack_reverse : (PackRuntime.create samplePlatform (nulPack nulAssertions.reverse)
    ⟨none, none⟩).toOption.isSome := by
  decide

def nulRuntimeReverse : PackRuntime := Option.get _ isSome_nulPack_reverse

def nulLookup (runtime : PackRuntime) : PostalLookupResult :=
  lookupPostalCode samplePlatform runtime (js "2026-06-01T00:00:00Z") (js "2026-06-01T00:00:00Z")
    sixDigits (js "100001") false

theorem untruncated_iff {result : PostalLookupResult} : result.Untruncated
    ↔ (LOOKUP_LIMIT_ERRORS.all (· ∉ result.errors)
      && ALTERNATIVES_TRUNCATED ∉ result.warnings) := by
  simp [PostalLookupResult.Untruncated]

theorem untruncated_nulLookup : (nulLookup nulRuntime).Untruncated :=
  untruncated_iff.2 (by decide)

theorem reordered_nulPack {assertions assertions' : List Assertion}
    (h : assertions.Perm assertions') : (nulPack assertions).Reordered (nulPack assertions') :=
  ⟨List.Perm.refl _, h, rfl⟩

/-- The two ways up are taken for one: the lookup is unique, and which contexts it lists depends on
the order of the assertions. -/
theorem nulPack_not_lawful :
    PackRuntime.create samplePlatform (nulPack nulAssertions) ⟨none, none⟩ = .ok nulRuntime
      ∧ (lookupPostalCode samplePlatform nulRuntime (js "2026-06-01T00:00:00Z")
        (js "2026-06-01T00:00:00Z") sixDigits (js "100001") false).Untruncated
      ∧ (lookupPostalCode samplePlatform nulRuntime (js "2026-06-01T00:00:00Z")
        (js "2026-06-01T00:00:00Z") sixDigits (js "100001") false).status = .unique
      ∧ ¬ LookupLawful samplePlatform nulRuntime sixDigits (js "100001")
        (js "2026-06-01T00:00:00Z") (js "2026-06-01T00:00:00Z") (nulPack nulAssertions)
        ⟨none, none⟩ false := by
  refine ⟨create_nulPack, untruncated_nulLookup, by decide, fun hlawful => ?_⟩
  have hsame := hlawful.reordered (nulPack nulAssertions.reverse) nulRuntimeReverse
    (reordered_nulPack (List.reverse_perm _).symm) (eq_ok_of_toOption_get isSome_nulPack_reverse)
    (untruncated_iff.2 (by decide))
  have hcontexts := hsame.contexts (js "a")
  exact absurd hcontexts (by decide)

/-- The same postal feature without the id that has NUL. -/
def plainAssertions : List Assertion :=
  [sampleAssertion (js "within-1") (js "postal-1") (js "a") .admin_within,
    sampleAssertion (js "within-2") (js "postal-1") (js "b") .admin_within]

def plainPack : RuntimePack := samplePack
  [{ sampleNode (js "postal-1") .postal_feature .standard_area .none with
      postalCode := some (js "100001") },
    sampleNode (js "a") .locality .locality .none, sampleNode (js "b") .locality .locality .none]
  plainAssertions []

theorem isSome_plainPack :
    (PackRuntime.create samplePlatform plainPack ⟨none, none⟩).toOption.isSome := by
  decide

def plainRuntime : PackRuntime := Option.get _ isSome_plainPack

theorem create_plainPack :
    PackRuntime.create samplePlatform plainPack ⟨none, none⟩ = .ok plainRuntime :=
  eq_ok_of_toOption_get isSome_plainPack

theorem lookupLawful_plainPack :
    LookupLawful samplePlatform plainRuntime sixDigits (js "100001") (js "2026-06-01T00:00:00Z")
      (js "2026-06-01T00:00:00Z") plainPack ⟨none, none⟩ false :=
  (lookupLawful_iff_joinedApart create_plainPack (untruncated_iff.2 (by decide))).2
    (joinedApart_of_no_nul (created create_plainPack) (by decide))

end Agid.PostalContext
