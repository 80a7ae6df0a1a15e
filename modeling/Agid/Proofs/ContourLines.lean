import Agid.ContourLines

/-!
# The canonical form of a contour

A closed contour is given back as the least of its turns, which are the same from any point and
either way.  The candidates of the code are the turns that start at a least coordinate, and any
other turn is greater already at its start.
-/

namespace Agid.Topographic

open Lines

/-! ## The order of coordinates -/

/-- The coordinate, to be compared number by number. -/
def ContourCoordinate.key (a : ContourCoordinate) : ℚ ×ₗ ℚ ×ₗ ℚ := toLex (a.1, toLex a.2)

variable {a b : ContourCoordinate} {l l' ring line other : List ContourCoordinate}

theorem key_injective : Function.Injective ContourCoordinate.key := fun _ _ h => by
  have h' := toLex.injective h
  exact Prod.ext (congrArg Prod.fst h') (toLex.injective (congrArg Prod.snd h'))

theorem compareContourCoordinates_neg : compareContourCoordinates a b < 0 ↔ a.key < b.key := by
  simp only [ContourCoordinate.key, Prod.Lex.toLex_lt_toLex, compareContourCoordinates]
  split_ifs with hlongitude hlatitude
  · rw [sub_neg, or_iff_left fun h => hlongitude (sub_eq_zero.2 h.1)]
  · rw [not_not, sub_eq_zero] at hlongitude
    rw [sub_neg, or_iff_right hlongitude.not_lt, and_iff_right hlongitude,
      or_iff_left fun h => hlatitude (sub_eq_zero.2 h.1)]
  · rw [not_not, sub_eq_zero] at hlongitude hlatitude
    rw [sub_neg, or_iff_right hlongitude.not_lt, and_iff_right hlongitude,
      or_iff_right hlatitude.not_lt, and_iff_right hlatitude]

theorem compareContourCoordinates_eq_zero : compareContourCoordinates a b = 0 ↔ a = b := by
  constructor
  · intro h
    unfold compareContourCoordinates at h
    split_ifs at h with hlongitude hlatitude
    · exact absurd h hlongitude
    · exact absurd h hlatitude
    · rw [not_not, sub_eq_zero] at hlongitude hlatitude
      exact Prod.ext hlongitude (Prod.ext hlatitude (sub_eq_zero.1 h))
  · rintro rfl
    simp [compareContourCoordinates]

theorem compareContourCoordinates_pos : 0 < compareContourCoordinates a b ↔ b.key < a.key := by
  rw [lt_iff_le_and_ne, lt_iff_le_and_ne, ← not_lt, compareContourCoordinates_neg, not_lt,
    ne_comm, ne_eq, compareContourCoordinates_eq_zero, ne_comm, key_injective.ne_iff]

/-- The order by which the candidates are sorted. -/
def SequenceLe (l l' : List ContourCoordinate) : Prop := compareCoordinateSequences l l' ≤ 0

instance : DecidableRel SequenceLe := fun l l' =>
  inferInstanceAs (Decidable (compareCoordinateSequences l l' ≤ 0))

theorem compareCoordinateSequences_pos : ∀ {l l' : List ContourCoordinate},
    0 < compareCoordinateSequences l l'
      ↔ l'.map ContourCoordinate.key < l.map ContourCoordinate.key
  | [], l' => by
    refine iff_of_false ?_ (List.not_lt_nil _)
    simp [compareCoordinateSequences]
  | a :: l, [] => by
    refine iff_of_true ?_ (List.nil_lt_cons _ _)
    rw [compareCoordinateSequences, List.length_nil, Nat.cast_zero, sub_zero, Nat.cast_pos]
    · exact Nat.succ_pos _
    · exact nofun
  | a :: l, b :: l' => by
    rw [compareCoordinateSequences, List.map_cons, List.map_cons, List.cons_lt_cons_iff,
      ← compareCoordinateSequences_pos]
    split_ifs with hcompare
    · have hne : b.key ≠ a.key := fun h =>
        hcompare (compareContourCoordinates_eq_zero.2 (key_injective h.symm))
      rw [or_iff_left fun h => hne h.1, compareContourCoordinates_pos]
    · rw [not_not, compareContourCoordinates_eq_zero] at hcompare
      rw [hcompare, or_iff_right (lt_irrefl _), and_iff_right rfl]

theorem sequenceLe_iff :
    SequenceLe l l' ↔ l.map ContourCoordinate.key ≤ l'.map ContourCoordinate.key := by
  rw [SequenceLe, ← not_lt, compareCoordinateSequences_pos, not_lt]

instance : Std.Total SequenceLe := ⟨fun _ _ => by
  rw [sequenceLe_iff, sequenceLe_iff]
  exact le_total _ _⟩

instance : IsTrans _ SequenceLe := ⟨fun _ _ _ h h' => by
  rw [sequenceLe_iff] at h h' ⊢
  exact h.trans h'⟩

theorem sequenceLe_antisymm (h : SequenceLe l l') (h' : SequenceLe l' l) : l = l' := by
  rw [sequenceLe_iff] at h h'
  exact List.map_injective_iff.2 key_injective (le_antisymm h h')

/-! ## The candidates -/

theorem getElem?_back {α : Type*} : ∀ (ring : List α) (i : ℕ), i < ring.length →
    (back ring)[i]? = ring[(ring.length - i) % ring.length]?
  | [], i, h => absurd h (Nat.not_lt_zero i)
  | a :: l, 0, _ => by simp [back]
  | a :: l, i + 1, h => by
    rw [List.length_cons] at h
    have hmod : (l.length + 1 - (i + 1)) % (l.length + 1) = l.length - 1 - i + 1 := by
      rw [Nat.mod_eq_of_lt (by omega)]
      omega
    rw [back, List.length_cons, hmod, List.getElem?_cons_succ, List.getElem?_cons_succ,
      List.getElem?_reverse (by omega)]

/-- The coordinates at some places of the ring, as many as it has. -/
theorem filterMap_range_eq {α : Type*} {ring l : List α} {place : ℕ → ℕ}
    (hlength : l.length = ring.length) (h : ∀ i < ring.length, ring[place i]? = l[i]?) :
    (List.range ring.length).filterMap (fun i => ring[place i]?) = l := by
  have hplaces : ∀ i ∈ List.range ring.length, ring[place i]? = l[i]? := fun i hi =>
    h i (List.mem_range.1 hi)
  rw [List.filterMap_congr hplaces, ← hlength]
  have hmap : (List.range l.length).map (fun i => l[i]?) = l.map some := by
    refine List.ext_getElem (by simp) fun i hi hi' => ?_
    rw [List.length_map] at hi'
    simp [List.getElem?_eq_getElem hi']
  have hfilterMap : (List.range l.length).filterMap (fun i => l[i]?)
      = ((List.range l.length).map fun i => l[i]?).filterMap id := by
    rw [List.filterMap_map]
    rfl
  rw [hfilterMap, hmap, List.filterMap_map]
  exact List.filterMap_some

theorem candidate_forward (start : ℕ) :
    candidate ring start 1 = closed (ring.rotate start) := by
  have hline : (List.range ring.length).filterMap (fun (offset : ℕ) =>
      ring[(((start : ℤ) + 1 * offset + ring.length) % ring.length).toNat]?)
        = ring.rotate start := by
    refine filterMap_range_eq (List.length_rotate ring start) fun i hi => ?_
    rw [List.getElem?_rotate hi]
    congr 1
    have hcast : ((start : ℤ) + 1 * i + ring.length) % ring.length
        = ((i + start) % ring.length : ℕ) := by
      push_cast
      rw [Int.add_emod_right, one_mul, add_comm]
    rw [hcast, Int.toNat_natCast]
  simp only [candidate, hline]
  rfl

theorem candidate_backward (start : ℕ) :
    candidate ring start (-1) = (closed (ring.rotate start)).reverse := by
  have hline : (List.range ring.length).filterMap (fun (offset : ℕ) =>
      ring[(((start : ℤ) + -1 * offset + ring.length) % ring.length).toNat]?)
        = back (ring.rotate start) := by
    have hlength : (back (ring.rotate start)).length = ring.length := by
      rw [(back_isRotated _).perm.length_eq, List.length_reverse, List.length_rotate]
    refine filterMap_range_eq hlength fun i hi => ?_
    have hpos : 0 < ring.length := hi.trans_le' (Nat.zero_le i)
    rw [getElem?_back _ _ (by rwa [List.length_rotate]), List.length_rotate,
      List.getElem?_rotate (Nat.mod_lt _ hpos)]
    congr 1
    have hcast : ((start : ℤ) + -1 * i + ring.length) % ring.length
        = (((ring.length - i) % ring.length + start) % ring.length : ℕ) := by
      push_cast [Nat.cast_sub hi.le]
      rw [Int.emod_add_emod]
      congr 1
      ring
    rw [hcast, Int.toNat_natCast]
  simp only [candidate, hline, closed_reverse]
  rfl

theorem minimumCoordinate_spec : ∀ {l : List ContourCoordinate} {a : ContourCoordinate},
    minimumCoordinate a l ∈ a :: l ∧ ∀ b ∈ a :: l, (minimumCoordinate a l).key ≤ b.key
  | [], a => ⟨List.mem_cons_self, fun b hb => by rw [List.mem_singleton.1 hb]; exact le_rfl⟩
  | c :: l, a => by
    rw [minimumCoordinate, List.foldl_cons]
    change minimumCoordinate _ l ∈ _ ∧ ∀ b ∈ _, (minimumCoordinate _ l).key ≤ _
    split_ifs with hless
    · rw [compareContourCoordinates_neg] at hless
      obtain ⟨hmem, hleast⟩ := minimumCoordinate_spec (l := l) (a := c)
      refine ⟨List.mem_cons_of_mem a hmem, fun b hb => ?_⟩
      rcases List.mem_cons.1 hb with rfl | hb
      · exact (hleast c List.mem_cons_self).trans hless.le
      · exact hleast b hb
    · rw [compareContourCoordinates_neg, not_lt] at hless
      obtain ⟨hmem, hleast⟩ := minimumCoordinate_spec (l := l) (a := a)
      refine ⟨?_, fun b hb => ?_⟩
      · rcases List.mem_cons.1 hmem with hmem | hmem
        · rw [hmem]
          exact List.mem_cons_self
        · exact List.mem_cons_of_mem a (List.mem_cons_of_mem c hmem)
      · rcases List.mem_cons.1 hb with rfl | hb
        · exact hleast _ List.mem_cons_self
        rcases List.mem_cons.1 hb with rfl | hb
        · exact (hleast a List.mem_cons_self).trans hless
        · exact hleast b (List.mem_cons_of_mem a hb)

/-- The candidates are the turns that start at the minimum. -/
theorem mem_candidates_iff {minimum : ContourCoordinate} :
    line ∈ candidates ring minimum ↔ line ∈ turns ring ∧ line.head? = some minimum := by
  have hhead (start : ℕ) (hstart : start < ring.length) :
      (closed (ring.rotate start)).head? = ring[start]?
        ∧ (closed (ring.rotate start)).reverse.head? = ring[start]? := by
    have hrotate : (ring.rotate start).head? = ring[start]? := by
      rw [List.head?_rotate hstart]
    obtain ⟨a, l, hcons⟩ := List.exists_cons_of_ne_nil
      (List.length_pos_iff.1 (by rw [List.length_rotate]; omega) : ring.rotate start ≠ [])
    rw [hcons] at hrotate ⊢
    rw [closed_reverse]
    exact ⟨hrotate, hrotate⟩
  unfold candidates
  simp only [List.mem_flatMap, List.mem_range]
  constructor
  · rintro ⟨start, hstart, hline⟩
    split_ifs at hline with hskip
    · exact absurd hline List.not_mem_nil
    have hminimum : ring[start]? = some minimum := by
      rw [List.getElem?_eq_getElem hstart, Option.any_some, decide_eq_true_eq, not_not,
        compareContourCoordinates_eq_zero] at hskip
      rw [List.getElem?_eq_getElem hstart, hskip]
    have hrotated : (ring.rotate start).IsRotated ring := List.IsRotated.symm ⟨start, rfl⟩
    rw [candidate_forward, candidate_backward] at hline
    simp only [List.mem_cons, List.not_mem_nil, or_false] at hline
    rcases hline with rfl | rfl
    · exact ⟨⟨_, hrotated, Or.inl rfl⟩, (hhead start hstart).1.trans hminimum⟩
    · exact ⟨⟨_, hrotated, Or.inr rfl⟩, (hhead start hstart).2.trans hminimum⟩
  · rintro ⟨⟨r, hr, hline⟩, hminimum⟩
    have hne : ring ≠ [] := by
      rintro rfl
      rw [List.isRotated_nil_iff.1 hr] at hline
      rcases hline with rfl | rfl
      · cases hminimum
      · cases hminimum
    obtain ⟨n, hn⟩ := hr.symm
    have hpos := List.length_pos_iff.2 hne
    have hmod : ring.rotate (n % ring.length) = r := by
      rw [List.rotate_mod, hn]
    have hstart : n % ring.length < ring.length := Nat.mod_lt n hpos
    refine ⟨n % ring.length, hstart, ?_⟩
    have hplace : ring[n % ring.length]? = some minimum := by
      rcases hline with rfl | rfl
      · rw [← (hhead _ hstart).1, hmod, hminimum]
      · rw [← (hhead _ hstart).2, hmod, hminimum]
    rw [if_neg (by simp [hplace, compareContourCoordinates_eq_zero]), candidate_forward,
      candidate_backward, hmod]
    rcases hline with rfl | rfl
    · exact List.mem_cons_self
    · exact List.mem_cons_of_mem _ (List.mem_singleton_self _)

/-! ## The canonical form -/

theorem sequenceLe_of_head_lt {c : ContourCoordinate} (hline : line.head? = some a)
    (hother : other.head? = some c) (h : a.key < c.key) : SequenceLe line other := by
  obtain ⟨l, rfl⟩ := List.head?_eq_some_iff.1 hline
  obtain ⟨l', rfl⟩ := List.head?_eq_some_iff.1 hother
  rw [sequenceLe_iff]
  exact (List.cons_lt_cons_iff.2 (Or.inl h)).le

/-- A closed contour is given back as the least of its turns. -/
theorem canonicalize_closed (hne : ring ≠ []) :
    ∃ line, canonicalizeContourLine (closed ring) = some line ∧ line ∈ turns ring
      ∧ ∀ other ∈ turns ring, SequenceLe line other := by
  obtain ⟨a, l, rfl⟩ := List.exists_cons_of_ne_nil hne
  obtain ⟨hmem, hleast⟩ := minimumCoordinate_spec (l := l) (a := a)
  set minimum := minimumCoordinate a l with hminimum
  have hcanonical : canonicalizeContourLine (closed (a :: l))
      = ((candidates (a :: l) minimum).insertionSort SequenceLe).head? := by
    have hends : closed (a :: l) = (a :: l) ++ [a] := rfl
    unfold canonicalizeContourLine
    rw [hends, List.head?_append_of_ne_nil _ hne, List.getLast?_concat, List.dropLast_concat]
    simp only [List.head?_cons, Option.bind_eq_bind, Option.bind_some, List.tail_cons]
    rw [if_neg (not_not.2 (compareContourCoordinates_eq_zero.2 rfl))]
    rfl
  -- the minimum is on the ring, so there is a candidate
  obtain ⟨start, hstart, hplace⟩ := List.getElem_of_mem hmem
  have hsome : (candidates (a :: l) minimum).insertionSort SequenceLe ≠ [] := by
    have hcandidate : closed ((a :: l).rotate start) ∈ candidates (a :: l) minimum := by
      refine mem_candidates_iff.2 ⟨⟨_, List.IsRotated.symm ⟨start, rfl⟩, Or.inl rfl⟩, ?_⟩
      rw [closed, List.head?_append_of_ne_nil _ (by simp), List.head?_rotate hstart,
        List.getElem?_eq_getElem hstart, hplace]
    exact List.ne_nil_of_mem ((List.mem_insertionSort SequenceLe).2 hcandidate)
  obtain ⟨line, lines, hsorted⟩ := List.exists_cons_of_ne_nil hsome
  have hline : line ∈ candidates (a :: l) minimum :=
    (List.mem_insertionSort SequenceLe).1 (hsorted ▸ List.mem_cons_self)
  obtain ⟨hturn, hhead⟩ := mem_candidates_iff.1 hline
  refine ⟨line, hcanonical.trans (by rw [hsorted]; rfl), hturn, fun other hother => ?_⟩
  obtain ⟨r, rfl, hr⟩ := exists_closed_of_mem hother
  obtain ⟨c, r', rfl⟩ : ∃ c r', r = c :: r' := List.exists_cons_of_ne_nil fun hnil => by
    rw [hnil] at hr
    exact absurd ((hr a).2 List.mem_cons_self) List.not_mem_nil
  rcases (hleast c ((hr c).1 List.mem_cons_self)).lt_or_eq with hless | hsame
  · exact sequenceLe_of_head_lt hhead rfl hless
  · have hcandidate : closed (c :: r') ∈ candidates (a :: l) minimum :=
      mem_candidates_iff.2 ⟨hother, congrArg some (key_injective hsame).symm⟩
    have hpairwise := List.pairwise_insertionSort SequenceLe (candidates (a :: l) minimum)
    have hin := (List.mem_insertionSort SequenceLe).2 hcandidate
    rw [hsorted] at hpairwise hin
    rcases List.mem_cons.1 hin with hin | hin
    · rw [hin]
      exact (Std.Total.total (r := SequenceLe) line line).elim id id
    · exact List.rel_of_pairwise_cons hpairwise hin

/-- Any two turns of a ring have one canonical form. -/
theorem canonicalize_turn (hne : ring ≠ []) (hother : other ∈ turns ring)
    (hline : line ∈ turns ring) (hleast : ∀ other ∈ turns ring, SequenceLe line other) :
    canonicalizeContourLine other = some line := by
  obtain ⟨r, rfl, hr⟩ := exists_closed_of_mem hother
  have hsome : r ≠ [] := by
    rintro rfl
    obtain ⟨a, ha⟩ := List.exists_mem_of_ne_nil ring hne
    exact absurd ((hr a).2 ha) List.not_mem_nil
  obtain ⟨line', hcanonical, hturn, hleast'⟩ := canonicalize_closed hsome
  rw [turns_of_mem hother hsome] at hturn hleast'
  rw [hcanonical, sequenceLe_antisymm (hleast' line hline) (hleast line' hturn)]

theorem mem_turns_of_same (h : SameContour l other) (hl : l = closed ring) :
    other ∈ turns ring := by
  rcases h with _ | ⟨ring', k, hne'⟩ | ⟨ring', k, hne'⟩
  · rw [hl]
    exact ⟨ring, List.IsRotated.refl ring, Or.inr rfl⟩
  · rw [closed_inj hne' hl]
    exact ⟨_, List.IsRotated.symm ⟨k, rfl⟩, Or.inl rfl⟩
  · rw [closed_inj hne' hl]
    exact ⟨_, List.IsRotated.symm ⟨k, rfl⟩, Or.inr rfl⟩

theorem canonicalize_open (hfirst : l.head? = some a) (hlast : l.getLast? = some b) (hne : a ≠ b) :
    canonicalizeContourLine l = some (if b.key < a.key then l.reverse else l) := by
  unfold canonicalizeContourLine
  simp only [hfirst, hlast, Option.bind_eq_bind, Option.bind_some, compareContourCoordinates_neg]
  rw [if_pos fun h => hne (compareContourCoordinates_eq_zero.1 h)]
  rfl

/-- A line that ends where it starts is the closed line of its ring. -/
theorem eq_closed_of_ends (hlength : 2 ≤ l.length) (hfirst : l.head? = some a)
    (hlast : l.getLast? = some a) : l = closed l.dropLast ∧ l.dropLast ≠ [] := by
  have hne : l.dropLast ≠ [] := List.length_pos_iff.1 (by rw [List.length_dropLast]; omega)
  obtain ⟨c, l', rfl⟩ := List.exists_cons_of_ne_nil (List.length_pos_iff.1 (by omega) : l ≠ [])
  obtain rfl : c = a := Option.some.inj hfirst
  refine ⟨?_, hne⟩
  have hconcat := List.dropLast_append_getLast? _ hlast
  have hhead : (c :: l').dropLast.take 1 = [c] := by
    rcases l' with _ | ⟨d, l'⟩
    · exact absurd rfl hne
    · rfl
  rw [closed, hhead]
  exact hconcat.symm

/-- The canonical form of a contour is its own canonical form, has its edges, and is that of the
contour given in the other direction and, where it is closed, from any other point. -/
theorem canonicalizeContourLine_canonical {coordinates : List ContourCoordinate}
    (h : 2 ≤ coordinates.length) :
    ∃ line, canonicalizeContourLine coordinates = some line
      ∧ canonicalizeContourLine line = some line
      ∧ edges line = edges coordinates
      ∧ ∀ other, SameContour coordinates other → canonicalizeContourLine other = some line := by
  have hne : coordinates ≠ [] := List.length_pos_iff.1 (by omega)
  obtain ⟨a, hfirst⟩ := Option.ne_none_iff_exists'.1 fun hnone =>
    hne (List.head?_eq_none_iff.1 hnone)
  obtain ⟨b, hlast⟩ := Option.ne_none_iff_exists'.1 fun hnone =>
    hne (List.getLast?_eq_none_iff.1 hnone)
  by_cases hclosed : a = b
  · obtain ⟨hring, hsome⟩ := eq_closed_of_ends h hfirst (hclosed ▸ hlast)
    set ring := coordinates.dropLast
    obtain ⟨line, hcanonical, hturn, hleast⟩ := canonicalize_closed hsome
    refine ⟨line, hring ▸ hcanonical, canonicalize_turn hsome hturn hturn hleast, ?_,
      fun other hother => ?_⟩
    · rw [edges_of_mem_turns hturn, ← hring]
    · exact canonicalize_turn hsome (mem_turns_of_same hother hring) hturn hleast
  · have hopen := canonicalize_open hfirst hlast hclosed
    have hback := canonicalize_open (l := coordinates.reverse) (by rw [List.head?_reverse, hlast])
      (by rw [List.getLast?_reverse, hfirst]) (Ne.symm hclosed)
    rw [List.reverse_reverse] at hback
    have hnot : ∀ ring : List ContourCoordinate, ring ≠ [] → coordinates ≠ closed ring := by
      rintro ring hring rfl
      obtain ⟨c, l', rfl⟩ := List.exists_cons_of_ne_nil hring
      exact hclosed ((Option.some.inj hfirst).symm.trans
        (Option.some.inj (List.getLast?_concat.symm.trans hlast)))
    have hsame : ∀ other, SameContour coordinates other → other = coordinates.reverse := by
      rintro other (_ | ⟨ring, k, hring⟩ | ⟨ring, k, hring⟩)
      · rfl
      · exact absurd rfl (hnot ring hring)
      · exact absurd rfl (hnot ring hring)
    by_cases hless : b.key < a.key
    · rw [if_pos hless] at hopen
      rw [if_neg hless.not_gt] at hback
      exact ⟨_, hopen, hback, edges_reverse _, fun other hother => hsame other hother ▸ hback⟩
    · have hgreater : a.key < b.key := lt_of_le_of_ne (not_lt.1 hless)
        fun hkey => hclosed (key_injective hkey)
      rw [if_neg hless] at hopen
      rw [if_pos hgreater] at hback
      exact ⟨_, hopen, hopen, rfl, fun other hother => hsame other hother ▸ hback⟩

/-- A square, which is given back from its least corner. -/
theorem canonicalizeContourLine_square :
    ∃ line, canonicalizeContourLine [(1, 0, 5), (1, 1, 5), (0, 1, 5), (0, 0, 5), (1, 0, 5)]
        = some line
      ∧ canonicalizeContourLine line = some line
      ∧ edges line = edges [(1, 0, 5), (1, 1, 5), (0, 1, 5), (0, 0, 5), (1, 0, 5)]
      ∧ ∀ other, SameContour [(1, 0, 5), (1, 1, 5), (0, 1, 5), (0, 0, 5), (1, 0, 5)] other →
        canonicalizeContourLine other = some line :=
  canonicalizeContourLine_canonical (by decide)

end Agid.Topographic
