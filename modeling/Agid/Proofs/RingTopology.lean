import Agid.RingTopology

/-!
# What the sweeps leave out

In the order of first longitudes a segment that begins after the end of another is only followed by
such ones, so that a sweep sees just the pairs whose boxes meet (`ringsConflict_iff`,
`ringSelfIntersects_iff`).  Two segments can be in conflict within the tolerance with their boxes
apart.
-/

namespace Agid.RingTopology

variable {stop skip pass hit : Segment → Bool} {left right ring : LinearRing}

/-! ## One loop -/

theorem scan_found : ∀ {segments : List Segment} {remaining : ℤ},
    (scan stop skip pass hit segments remaining).1 = .found →
      ∃ s ∈ segments, stop s = false ∧ skip s = false ∧ pass s = false ∧ hit s = true
  | [], _, h => by cases h
  | s :: segments, remaining, h => by
    unfold scan at h
    split_ifs at h with hstop hskip hbudget hpass hhit
    · obtain ⟨t, ht, hseen⟩ := scan_found h
      exact ⟨t, List.mem_cons_of_mem _ ht, hseen⟩
    · obtain ⟨t, ht, hseen⟩ := scan_found h
      exact ⟨t, List.mem_cons_of_mem _ ht, hseen⟩
    · exact ⟨s, List.mem_cons_self, by simpa using hstop, by simpa using hskip,
        by simpa using hpass, hhit⟩
    · obtain ⟨t, ht, hseen⟩ := scan_found h
      exact ⟨t, List.mem_cons_of_mem _ ht, hseen⟩

/-- Where the loop only ends at segments that are followed by such ones, it sees all the others. -/
theorem scan_clear : ∀ {segments : List Segment} {remaining : ℤ},
    segments.Pairwise (fun s t => stop s → stop t) →
    (scan stop skip pass hit segments remaining).1 = .clear →
      ∀ s ∈ segments, stop s = false → skip s = false → pass s = false → hit s = false
  | [], _, _, _ => fun _ hs => absurd hs List.not_mem_nil
  | s :: segments, remaining, hsorted, h => by
    obtain ⟨hafter, hsorted⟩ := List.pairwise_cons.1 hsorted
    rw [List.forall_mem_cons]
    unfold scan at h
    split_ifs at h with hstop hskip hbudget hpass hhit
    · exact ⟨fun hs => absurd hstop (by simp [hs]), fun t ht hnot =>
        absurd (hafter t ht hstop) (by simp [hnot])⟩
    · exact ⟨fun _ hs => absurd hskip (by simp [hs]), scan_clear hsorted h⟩
    · exact ⟨fun _ _ hs => absurd hpass (by simp [hs]), scan_clear hsorted h⟩
    · exact ⟨fun _ _ _ => by simpa using hhit, scan_clear hsorted h⟩

theorem sweep_found : ∀ {inners : List (ℤ → Outcome × ℤ)} {remaining : ℤ},
    (sweep inners remaining).1 = .found →
      ∃ inner ∈ inners, ∃ remaining, (inner remaining).1 = .found
  | [], _, h => by cases h
  | inner :: inners, remaining, h => by
    unfold sweep at h
    split at h
    · obtain ⟨inner', hinner', hfound⟩ := sweep_found h
      exact ⟨inner', List.mem_cons_of_mem _ hinner', hfound⟩
    · exact ⟨inner, List.mem_cons_self, remaining, h⟩

theorem sweep_clear : ∀ {inners : List (ℤ → Outcome × ℤ)} {remaining : ℤ},
    (sweep inners remaining).1 = .clear →
      ∀ inner ∈ inners, ∃ remaining, (inner remaining).1 = .clear
  | [], _, _ => fun _ hinner => absurd hinner List.not_mem_nil
  | inner :: inners, remaining, h => by
    unfold sweep at h
    rw [List.forall_mem_cons]
    split at h
    · rename_i remaining' hclear
      exact ⟨⟨remaining, by rw [hclear]⟩, sweep_clear h⟩
    · rename_i hne
      exact (hne (inner remaining).2 (Prod.ext h rfl)).elim

theorem answer_eq_some {outcome : Outcome} {found : Bool} (h : outcome.answer = some found) :
    (outcome = .found ∧ found = true) ∨ (outcome = .clear ∧ found = false) := by
  rcases outcome with _ | _ | _
  · exact .inl ⟨rfl, (Option.some.inj h).symm⟩
  · cases h
  · exact .inr ⟨rfl, (Option.some.inj h).symm⟩

/-! ## The order of the segments -/

instance : Std.Total Segment.Precedes where
  total s t := by
    rcases lt_trichotomy s.minimumLongitude t.minimumLongitude with h | h | h
    · exact .inl (.inl h)
    · rcases le_total s.index t.index with hi | hi
      · exact .inl (.inr ⟨h, hi⟩)
      · exact .inr (.inr ⟨h.symm, hi⟩)
    · exact .inr (.inl h)

instance : IsTrans Segment Segment.Precedes where
  trans s t u := by
    rintro (h | ⟨h, hi⟩) (h' | ⟨h', hi'⟩)
    · exact .inl (h.trans h')
    · exact .inl (h'.symm ▸ h)
    · exact .inl (h ▸ h')
    · exact .inr ⟨h.trans h', hi.trans hi'⟩

theorem Segment.Precedes.le {s t : Segment} (h : s.Precedes t) :
    s.minimumLongitude ≤ t.minimumLongitude := by
  rcases h with h | h
  · exact h.le
  · exact h.1.le

theorem Segment.minimumLongitude_le (s : Segment) : s.minimumLongitude ≤ s.maximumLongitude :=
  min_le_max

theorem mem_sortedSegments {s : Segment} : s ∈ sortedSegments ring ↔ s ∈ ringSegments ring :=
  (List.perm_insertionSort _ _).mem_iff

theorem length_sortedSegments : (sortedSegments ring).length = (ringSegments ring).length :=
  (List.perm_insertionSort _ _).length_eq

theorem pairwise_sortedSegments : (sortedSegments ring).Pairwise Segment.Precedes :=
  List.pairwise_insertionSort _ _

/-- After a segment that begins too far on there are only such ones. -/
theorem pairwise_stop (x : ℚ) {segments : List Segment} (h : segments.Pairwise Segment.Precedes) :
    segments.Pairwise fun s t =>
      decide (x < s.minimumLongitude) → decide (x < t.minimumLongitude) :=
  h.imp fun hst hs => by
    rw [decide_eq_true_eq] at hs ⊢
    exact hs.trans_le hst.le

theorem latitudesApart_eq_false {s t : Segment} : latitudesApart s t = false
    ↔ s.minimumLatitude ≤ t.maximumLatitude ∧ t.minimumLatitude ≤ s.maximumLatitude := by
  rw [latitudesApart, Bool.or_eq_false_iff, decide_eq_false_iff_not, decide_eq_false_iff_not,
    not_lt, not_lt]
  exact and_comm

/-! ## The sweeps -/

theorem ringsConflict_iff {remaining : ℤ} {found : Bool}
    (h : (ringsConflict left right remaining).1 = some found) :
    found = true ↔ ∃ first ∈ ringSegments left, ∃ second ∈ ringSegments right,
      BoxesMeet first second ∧ conflict first second := by
  have hseen {first second : Segment} : BoxesMeet first second
      ↔ decide (first.maximumLongitude < second.minimumLongitude) = false
        ∧ (decide (second.maximumLongitude < first.minimumLongitude)
          || latitudesApart first second) = false := by
    rw [Bool.or_eq_false_iff, latitudesApart_eq_false, decide_eq_false_iff_not,
      decide_eq_false_iff_not, not_lt, not_lt, BoxesMeet]
    tauto
  rcases answer_eq_some h with ⟨hfound, rfl⟩ | ⟨hclear, rfl⟩
  · refine iff_of_true rfl ?_
    obtain ⟨inner, hinner, remaining', hinner'⟩ := sweep_found hfound
    obtain ⟨first, hfirst, rfl⟩ := List.mem_map.1 hinner
    obtain ⟨second, hsecond, hstop, hskip, -, hhit⟩ := scan_found hinner'
    exact ⟨first, mem_sortedSegments.1 hfirst, second, mem_sortedSegments.1 hsecond,
      hseen.2 ⟨hstop, hskip⟩, hhit⟩
  · refine iff_of_false Bool.false_ne_true ?_
    rintro ⟨first, hfirst, second, hsecond, hmeet, hhit⟩
    obtain ⟨remaining', hinner⟩ := sweep_clear hclear _
      (List.mem_map_of_mem (mem_sortedSegments.2 hfirst))
    have hmissed := scan_clear (pairwise_stop _ pairwise_sortedSegments) hinner second
      (mem_sortedSegments.2 hsecond) (hseen.1 hmeet).1 (hseen.1 hmeet).2 rfl
    exact absurd hhit (by rw [hmissed]; exact Bool.false_ne_true)

/-- A segment is in the list after the place of another just where it comes after. -/
theorem mem_drop_iff {segments : List Segment} {t : Segment} {i : ℕ} :
    t ∈ segments.drop (i + 1) ↔ ∃ j, i < j ∧ segments[j]? = some t := by
  rw [List.mem_iff_getElem?]
  constructor
  · rintro ⟨k, hk⟩
    rw [List.getElem?_drop] at hk
    exact ⟨i + 1 + k, by omega, hk⟩
  · rintro ⟨j, hij, hj⟩
    refine ⟨j - (i + 1), ?_⟩
    rw [List.getElem?_drop, Nat.add_sub_cancel' hij, hj]

theorem precedes_of_lt {s t : Segment} {i j : ℕ} (hij : i < j)
    (hs : (sortedSegments ring)[i]? = some s) (ht : (sortedSegments ring)[j]? = some t) :
    s.Precedes t := by
  obtain ⟨hi, rfl⟩ := List.getElem?_eq_some_iff.1 hs
  obtain ⟨hj, rfl⟩ := List.getElem?_eq_some_iff.1 ht
  exact List.pairwise_iff_getElem.1 pairwise_sortedSegments i j hi hj hij

theorem ne_of_not_adjacent {s t : Segment} {n : ℕ}
    (h : adjacentSegments s.index t.index n = false) :
    s.index ≠ t.index := by
  intro hindex
  rw [adjacentSegments, hindex] at h
  simp at h

theorem ringSelfIntersects_iff {remaining : ℤ} {found : Bool}
    (h : (ringSelfIntersects ring remaining).1 = some found) :
    found = true ↔ ∃ left ∈ ringSegments ring, ∃ right ∈ ringSegments ring,
      left.Precedes right ∧ BoxesMeet left right
        ∧ adjacentSegments left.index right.index (ringSegments ring).length = false
        ∧ selfConflict left right := by
  rcases answer_eq_some h with ⟨hfound, rfl⟩ | ⟨hclear, rfl⟩
  · refine iff_of_true rfl ?_
    obtain ⟨inner, hinner, remaining', hinner'⟩ := sweep_found hfound
    obtain ⟨⟨left, i⟩, hleft, rfl⟩ := List.mem_map.1 hinner
    obtain ⟨right, hright, hstop, hskip, hpass, hhit⟩ := scan_found hinner'
    rw [List.mem_zipIdx_iff_getElem?] at hleft
    obtain ⟨j, hij, hj⟩ := mem_drop_iff.1 hright
    have hbefore := precedes_of_lt hij hleft hj
    rw [decide_eq_false_iff_not, not_lt] at hstop
    rw [length_sortedSegments] at hskip
    exact ⟨left, mem_sortedSegments.1 (List.mem_of_getElem? hleft), right,
      mem_sortedSegments.1 (List.mem_of_getElem? hj), hbefore,
      ⟨⟨hbefore.le.trans right.minimumLongitude_le, hstop⟩, latitudesApart_eq_false.1 hpass⟩,
      hskip, hhit⟩
  · refine iff_of_false Bool.false_ne_true ?_
    rintro ⟨left, hleft, right, hright, hbefore, hmeet, hadjacent, hhit⟩
    obtain ⟨i, hi⟩ := List.mem_iff_getElem?.1 (mem_sortedSegments.2 hleft)
    obtain ⟨j, hj⟩ := List.mem_iff_getElem?.1 (mem_sortedSegments.2 hright)
    have hne := ne_of_not_adjacent hadjacent
    -- were the right one first, each would precede the other, and they have different indices
    have hij : i < j := by
      rcases lt_trichotomy i j with hij | rfl | hji
      · exact hij
      · rw [hi, Option.some.injEq] at hj
        exact absurd (congrArg Segment.index hj) hne
      · have hafter := precedes_of_lt hji hj hi
        rcases hbefore with hlt | ⟨heq, hle⟩
        · exact absurd hafter.le hlt.not_ge
        · rcases hafter with hlt | ⟨-, hge⟩
          · exact absurd heq hlt.ne'
          · exact absurd (le_antisymm hle hge) hne
    obtain ⟨remaining', hinner⟩ := sweep_clear hclear _
      (List.mem_map_of_mem ((List.mem_zipIdx_iff_getElem? (x := (left, i))).2 hi))
    rw [← length_sortedSegments] at hadjacent
    have hmissed := scan_clear (pairwise_stop _ (pairwise_sortedSegments.sublist
      (List.drop_sublist _ _))) hinner right (mem_drop_iff.2 ⟨j, hij, hj⟩)
      (decide_eq_false hmeet.1.2.not_gt) hadjacent (latitudesApart_eq_false.2 hmeet.2)
    exact absurd hhit (by rw [hmissed]; exact Bool.false_ne_true)

/-- The sweeps find what brute force does just where they keep some conflict, if there is one. -/
theorem sweeps_iff {remaining remaining' : ℤ} {crosses conflicts : Bool}
    (hself : (ringSelfIntersects ring remaining).1 = some crosses)
    (hrings : (ringsConflict left right remaining').1 = some conflicts) :
    ((crosses = true ↔ SelfIntersects ring) ∧ (conflicts = true ↔ RingsIntersect left right))
      ↔ KeepsSelf ring ∧ KeepsRings left right := by
  rw [ringSelfIntersects_iff hself, ringsConflict_iff hrings]
  refine and_congr ⟨fun h => h.2, fun h => ⟨?_, h⟩⟩ ⟨fun h => h.2, fun h => ⟨?_, h⟩⟩
  · rintro ⟨s, hs, t, ht, -, -, hadjacent, hhit⟩
    exact ⟨s, hs, t, ht, hadjacent, hhit⟩
  · rintro ⟨s, hs, t, ht, -, hhit⟩
    exact ⟨s, hs, t, ht, hhit⟩

/-! ## Two squares with almost one side -/

def upperSquare : LinearRing := [(0, 0), (1, 0), (1, 1), (0, 1), (0, 0)]

def lowerSquare : LinearRing :=
  [(0, -1), (1, -1), (1, -(1 / (2 * 10 ^ 12))), (0, -(1 / (2 * 10 ^ 12))), (0, -1)]

theorem squares_swept :
    (ringSelfIntersects upperSquare 2000000).1 = some false
      ∧ (ringsConflict upperSquare lowerSquare 2000000).1 = some false
      ∧ (⟨0, (0, 0), (1, 0)⟩ : Segment) ∈ ringSegments upperSquare
      ∧ (⟨2, (1, -(1 / (2 * 10 ^ 12))), (0, -(1 / (2 * 10 ^ 12)))⟩ : Segment)
        ∈ ringSegments lowerSquare
      ∧ conflict ⟨0, (0, 0), (1, 0)⟩
        ⟨2, (1, -(1 / (2 * 10 ^ 12))), (0, -(1 / (2 * 10 ^ 12)))⟩ := by
  decide +kernel

/-- A side of one lies along a side of the other within the tolerance, and the sweep is over before
it compares anything. -/
theorem squares_intersect :
    (ringsConflict upperSquare lowerSquare 2000000).1 = some false
      ∧ RingsIntersect upperSquare lowerSquare := by
  obtain ⟨-, hswept, hupper, hlower, hconflict⟩ := squares_swept
  exact ⟨hswept, _, hupper, _, hlower, hconflict⟩

theorem sweeps_iff_squares :
    ((false = true ↔ SelfIntersects upperSquare)
        ∧ (false = true ↔ RingsIntersect upperSquare lowerSquare))
      ↔ KeepsSelf upperSquare ∧ KeepsRings upperSquare lowerSquare :=
  sweeps_iff squares_swept.1 squares_swept.2.1

end Agid.RingTopology
