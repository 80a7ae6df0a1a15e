import Agid.StructuralEquivalence

/-!
# Clusters of bounded diameter

The distance does not see the order of the two vectors, and lies between zero and one.  A candidate
that joins a cluster is within the bound of each member, so any two members of a cluster are, in
whichever order they came.
-/

namespace Agid.Chapter6

open GreedyGroups

/-! ## The distance -/

theorem tallyKey_comm (left right : StructuralFeatureVector) :
    tallyKey left right = tallyKey right left := by
  funext tally entry
  obtain ⟨key, weight⟩ := entry
  simp only [tallyKey, and_comm (a := left key = none), or_comm (a := left key = none),
    eq_comm (a := left key) (b := right key), and_left_comm (a := left key ≠ none)]

theorem computeChapter6StructuralDistance_comm (left right : StructuralFeatureVector)
    (purpose : Purpose) :
    computeChapter6StructuralDistance left right purpose
      = computeChapter6StructuralDistance right left purpose := by
  unfold computeChapter6StructuralDistance
  rw [tallyKey_comm]

/-- What is gathered of the mismatches is at most what is gathered of the weights. -/
def Tally.Bounded (tally : Tally) : Prop :=
  0 ≤ tally.numerator ∧ tally.numerator ≤ tally.denominator

/-- A key adds a part of its weight to the one and its weight to the other. -/
theorem Tally.Bounded.tallyKey {tally : Tally} (h : tally.Bounded)
    (left right : StructuralFeatureVector) (entry : FeatureKey × ℚ) :
    (tallyKey left right tally entry).Bounded := by
  obtain ⟨key, weight⟩ := entry
  obtain ⟨hnonneg, hle⟩ := h
  have hpart {mismatch : ℚ} (hweight : 0 < weight) (h0 : 0 ≤ mismatch) (h1 : mismatch ≤ 1) :
      0 ≤ tally.numerator + weight * mismatch
        ∧ tally.numerator + weight * mismatch ≤ tally.denominator + weight :=
    ⟨add_nonneg hnonneg (mul_nonneg hweight.le h0),
      add_le_add hle (mul_le_of_le_one_right hweight.le h1)⟩
  unfold Chapter6.tallyKey
  dsimp only
  by_cases hweight : weight ≤ 0
  · rw [if_pos hweight]
    exact ⟨hnonneg, hle⟩
  rw [if_neg hweight]
  have hpos := not_le.1 hweight
  by_cases hnone : left key = none ∧ right key = none
  · rw [if_pos hnone]
    exact ⟨hnonneg, hle⟩
  rw [if_neg hnone]
  unfold Tally.Bounded
  dsimp only
  refine hpart hpos ?_ ?_
  · split_ifs <;> norm_num
  · split_ifs <;> norm_num

theorem bounded_foldl (left right : StructuralFeatureVector) : ∀ (entries : List (FeatureKey × ℚ))
    {tally : Tally}, tally.Bounded → (entries.foldl (tallyKey left right) tally).Bounded
  | [], _, h => h
  | entry :: entries, _, h => bounded_foldl left right entries (h.tallyKey left right entry)

theorem round_mem {value : ℚ} (h0 : 0 ≤ value) (h1 : value ≤ 1) :
    0 ≤ round value ∧ round value ≤ 1 := by
  have hlow : 0 ≤ ⌊value * 10000 + 1 / 2⌋ := Int.floor_nonneg.2 (by linarith)
  have hhigh : ⌊value * 10000 + 1 / 2⌋ ≤ 10000 := by
    refine Int.lt_add_one_iff.1 (Int.floor_lt.2 ?_)
    push_cast
    linarith
  have hlow' : (0 : ℚ) ≤ ⌊value * 10000 + 1 / 2⌋ := by exact_mod_cast hlow
  have hhigh' : (⌊value * 10000 + 1 / 2⌋ : ℚ) ≤ 10000 := by exact_mod_cast hhigh
  unfold round
  exact ⟨by positivity, by linarith⟩

theorem distance_mem (left right : StructuralFeatureVector) (purpose : Purpose) :
    0 ≤ (computeChapter6StructuralDistance left right purpose).distance
      ∧ (computeChapter6StructuralDistance left right purpose).distance ≤ 1 := by
  obtain ⟨hnonneg, hle⟩ := bounded_foldl left right (CHAPTER6_PURPOSE_WEIGHTS purpose)
    (show Tally.Bounded ⟨0, 0, [], []⟩ from ⟨le_rfl, le_rfl⟩)
  unfold computeChapter6StructuralDistance
  dsimp only
  split_ifs with hzero
  · exact ⟨zero_le_one, le_rfl⟩
  · have hpos := lt_of_le_of_ne (hnonneg.trans hle) (Ne.symm hzero)
    exact round_mem (div_nonneg hnonneg hpos.le) ((div_le_one hpos).2 hle)

/-! ## The diameter -/

theorem round_round (value : ℚ) : round (round value) = round value := by
  have hback : round value * 10000 = ⌊value * 10000 + 1 / 2⌋ := by
    unfold round
    ring
  rw [round, hback]
  have hfloor : ⌊(⌊value * 10000 + 1 / 2⌋ : ℚ) + 1 / 2⌋ = ⌊value * 10000 + 1 / 2⌋ := by
    rw [Int.floor_intCast_add]
    norm_num
  rw [hfloor]
  rfl

theorem round_distance (left right : StructuralFeatureVector) (purpose : Purpose) :
    round (computeChapter6StructuralDistance left right purpose).distance
      = (computeChapter6StructuralDistance left right purpose).distance := by
  unfold computeChapter6StructuralDistance
  dsimp only
  split_ifs
  · norm_num [round]
  · exact round_round _

/-- A rounded number between zero and the bound. -/
def Within (delta diameter : ℚ) : Prop :=
  (0 ≤ diameter ∧ diameter ≤ delta) ∧ round diameter = diameter

/-- It stays so when it is raised to a distance within the bound. -/
theorem Within.max_distance {purpose : Purpose} {delta diameter : ℚ}
    {left right : StructuralFeatureVector} (h : Within delta diameter)
    (hle : (computeChapter6StructuralDistance left right purpose).distance ≤ delta) :
    Within delta
      (max diameter (computeChapter6StructuralDistance left right purpose).distance) := by
  rcases max_choice diameter (computeChapter6StructuralDistance left right purpose).distance
    with hmax | hmax <;> rw [hmax]
  · exact h
  · exact ⟨⟨(distance_mem left right purpose).1, hle⟩, round_distance left right purpose⟩

theorem Within.foldl_max {purpose : Purpose} {delta : ℚ} {left : StructuralFeatureVector} :
    ∀ (others : List Candidate) {diameter : ℚ}, Within delta diameter →
    (∀ b ∈ others, (computeChapter6StructuralDistance left b.features purpose).distance ≤ delta) →
    Within delta (others.foldl (fun diameter other => max diameter
      (computeChapter6StructuralDistance left other.features purpose).distance) diameter)
  | [], _, h, _ => h
  | other :: others, _, h, hothers =>
    foldl_max others (h.max_distance (hothers other List.mem_cons_self))
      fun b hb => hothers b (List.mem_cons_of_mem other hb)

theorem Within.diameterLoop {purpose : Purpose} {delta : ℚ} : ∀ (candidates : List Candidate)
    {diameter : ℚ}, Within delta diameter → candidates.Pairwise (fun a b =>
      (computeChapter6StructuralDistance a.features b.features purpose).distance ≤ delta) →
    Within delta (diameterLoop purpose candidates diameter)
  | [], _, h, _ => h
  | _ :: rest, _, h, hpairs =>
    have hsplit := List.pairwise_cons.1 hpairs
    diameterLoop rest (h.foldl_max rest hsplit.1) hsplit.2

theorem computeChapter6ClusterDiameter_le {purpose : Purpose} {delta : ℚ} (hdelta : 0 ≤ delta)
    {candidates : List Candidate} (h : candidates.Pairwise fun a b =>
      (computeChapter6StructuralDistance a.features b.features purpose).distance ≤ delta) :
    computeChapter6ClusterDiameter candidates purpose ≤ delta := by
  have hzero : Within delta 0 := ⟨⟨le_rfl, hdelta⟩, by norm_num [round]⟩
  obtain ⟨⟨-, hle⟩, hround⟩ := hzero.diameterLoop candidates h
  rw [computeChapter6ClusterDiameter, hround]
  exact hle

/-! ## Clusters -/

theorem distance_le_of_equivalent {result : StructuralDistanceResult} {delta : ℚ}
    {evidenceOk candidateSufficient : Bool}
    (h : (decideChapter6StructuralEquivalence result delta evidenceOk candidateSufficient).state
      = .equivalent) : result.distance ≤ delta := by
  unfold decideChapter6StructuralEquivalence at h
  dsimp only at h
  by_contra hle
  rw [if_neg hle] at h
  split_ifs at h

theorem pairwise_cluster (purpose : Purpose) (delta : ℚ) (candidates : List Candidate) :
    ∀ g ∈ groups (matchesCluster purpose delta) candidates, g.Pairwise fun a b =>
      (computeChapter6StructuralDistance a.features b.features purpose).distance ≤ delta := by
  refine pairwise_groups (fun candidate cluster hmatches member hmember => ?_) candidates
  have hstate := List.all_eq_true.1 hmatches member hmember
  rw [computeChapter6StructuralDistance_comm]
  exact distance_le_of_equivalent (of_decide_eq_true hstate)

/-- Every cluster is made of a group of the candidates. -/
theorem exists_group {candidates : List Candidate} {purpose : Purpose} {delta : ℚ}
    {cluster : Cluster} (h : cluster ∈ buildChapter6BoundedClusters candidates purpose delta) :
    ∃ g ∈ groups (matchesCluster purpose delta) candidates,
      cluster.memberIds = g.map (·.id)
        ∧ cluster.diameter = computeChapter6ClusterDiameter g purpose := by
  obtain ⟨index, hindex, rfl⟩ := List.mem_mapIdx.1 h
  exact ⟨_, List.getElem_mem hindex, rfl, rfl⟩

theorem flatMap_memberIds (candidates : List Candidate) (purpose : Purpose) (delta : ℚ) :
    (buildChapter6BoundedClusters candidates purpose delta).flatMap (·.memberIds)
      = (groups (matchesCluster purpose delta) candidates).flatten.map (·.id) := by
  unfold buildChapter6BoundedClusters
  dsimp only
  rw [List.flatMap_def, List.map_flatten]
  refine congrArg List.flatten (List.ext_getElem (by simp) fun index _ _ => ?_)
  simp

/-- The clusters share out the candidates, each pair of members is within the bound, and so is each
diameter; the distance they are measured by is symmetric and lies between zero and one. -/
theorem buildChapter6BoundedClusters_bounded {candidates : List Candidate} (purpose : Purpose)
    {delta : ℚ} (hids : (candidates.map (·.id)).Nodup) (hdelta : 0 ≤ delta ∧ delta ≤ 1) :
    (((buildChapter6BoundedClusters candidates purpose delta).flatMap (·.memberIds)).Perm
        (candidates.map (·.id))
      ∧ ∀ cluster ∈ buildChapter6BoundedClusters candidates purpose delta,
        cluster.memberIds ≠ [] ∧ cluster.diameter ≤ delta
          ∧ ∀ a ∈ candidates, ∀ b ∈ candidates, a.id ∈ cluster.memberIds →
            b.id ∈ cluster.memberIds → a.id ≠ b.id →
              (computeChapter6StructuralDistance a.features b.features purpose).distance ≤ delta)
      ∧ ∀ left right : StructuralFeatureVector,
        (computeChapter6StructuralDistance left right purpose).distance
            = (computeChapter6StructuralDistance right left purpose).distance
          ∧ 0 ≤ (computeChapter6StructuralDistance left right purpose).distance
          ∧ (computeChapter6StructuralDistance left right purpose).distance ≤ 1 := by
  refine ⟨⟨?_, fun cluster hcluster => ?_⟩, fun left right =>
    ⟨by rw [computeChapter6StructuralDistance_comm], distance_mem left right purpose⟩⟩
  · rw [flatMap_memberIds]
    exact (perm_groups candidates).map _
  · obtain ⟨g, hg, hmembers, hdiameter⟩ := exists_group hcluster
    have hpairs := pairwise_cluster purpose delta candidates g hg
    have hin {a : Candidate} (ha : a ∈ candidates) (hid : a.id ∈ cluster.memberIds) : a ∈ g := by
      rw [hmembers] at hid
      obtain ⟨c, hc, hcid⟩ := List.mem_map.1 hid
      rwa [← List.inj_on_of_nodup_map hids (mem_of_mem_groups hg hc) ha hcid]
    refine ⟨?_, ?_, fun a ha b hb haid hbid hne => ?_⟩
    · rw [hmembers]
      exact fun h => ne_nil_of_mem_groups hg (List.map_eq_nil_iff.1 h)
    · rw [hdiameter]
      exact computeChapter6ClusterDiameter_le hdelta.1 hpairs
    · have : Std.Symm fun a b : Candidate =>
          (computeChapter6StructuralDistance a.features b.features purpose).distance ≤ delta :=
        ⟨fun a b h => by rwa [computeChapter6StructuralDistance_comm]⟩
      exact hpairs.forall (hin ha haid) (hin hb hbid) fun h => hne (congrArg Candidate.id h)

/-- The candidates of `buildChapter6TransitiveChainCounterexample`. -/
def chainCandidates : List Candidate :=
  let building : StructuralFeatureVector
    | .country => some (js "XX")
    | .building => some (js "B-1")
    | _ => none
  [⟨js "r1", fun key => if key = .entrance then some (js "front") else building key⟩,
    ⟨js "r2", building⟩,
    ⟨js "r3", fun key => if key = .entrance then some (js "loading") else building key⟩]

theorem buildChapter6BoundedClusters_chain :
    ((buildChapter6BoundedClusters chainCandidates .delivery (3 / 10)).flatMap (·.memberIds)).Perm
        [js "r1", js "r2", js "r3"]
      ∧ ∀ cluster ∈ buildChapter6BoundedClusters chainCandidates .delivery (3 / 10),
        cluster.diameter ≤ 3 / 10 := by
  have hids : (chainCandidates.map (·.id)).Nodup := by decide
  have hdelta : 0 ≤ (3 / 10 : ℚ) ∧ (3 / 10 : ℚ) ≤ 1 := by norm_num
  obtain ⟨⟨hperm, hclusters⟩, -⟩ := buildChapter6BoundedClusters_bounded .delivery hids hdelta
  exact ⟨hperm, fun cluster hcluster => (hclusters cluster hcluster).2.1⟩

end Agid.Chapter6
