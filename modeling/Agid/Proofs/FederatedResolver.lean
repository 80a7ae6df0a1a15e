import Agid.FederatedResolver

/-!
# What the consensus accepts

A group has the results for its key, however they are ordered (`get?_groupsOf`).  So a key is
accepted just where it leads (`decision_accept_iff`), and only the numbers of the groups decide on
the outcome.  The results that count for a key need not be of different sources, and their mean is
compared when it is rounded (`sound_orderFree_iff`).
-/

namespace Agid.FederatedResolver

variable {results results' : List FederatedResolverSourceResult} {options : Options}

/-! ## Groups -/

/-- The group of some results for a key. -/
def groupFrom (key : JsString) (named : List FederatedResolverSourceResult) : Group where
  key
  count := named.length
  weightedConfidence := (named.map weight).sum
  sourceIds := named.map (·.sourceId)

def naming (key : JsString) (l : List FederatedResolverSourceResult) :
    List FederatedResolverSourceResult :=
  l.filter fun result => result.targetKey.getD [] = key

theorem get?_groupsOf (key : JsString) (l : List FederatedResolverSourceResult) :
    (groupsOf l).get? key
      = if naming key l = [] then none else some (groupFrom key (naming key l)) := by
  induction l using List.reverseRecOn with
  | nil => rfl
  | append_singleton l result ih =>
    have hstep : groupsOf (l ++ [result])
        = addVote (groupsOf l) (result.targetKey.getD []) result := List.foldl_concat _ _ _ _
    have hnaming : naming key (l ++ [result])
        = naming key l ++ if result.targetKey.getD [] = key then [result] else [] := by
      unfold naming
      rw [List.filter_append, List.filter_singleton]
      split_ifs <;> simp_all
    rw [hstep, addVote, Record.get?_set, hnaming]
    by_cases hkey : result.targetKey.getD [] = key
    · rw [if_pos hkey, if_pos hkey, if_neg (by simp), hkey, ih]
      rcases hold : naming key l with _ | ⟨old, rest⟩ <;> simp [groupFrom, add_assoc]
    · rw [if_neg hkey, if_neg hkey, List.append_nil, ih]

theorem vote_eq_some {minTrustScore : ℚ} {result : FederatedResolverSourceResult}
    {key : JsString} : vote minTrustScore result = some key ↔
      (vote minTrustScore result).isSome ∧ result.targetKey.getD [] = key := by
  unfold vote
  split_ifs
  · rcases htarget : result.targetKey with _ | target
    · simp
    · by_cases hne : target = [] <;> simp [Option.filter, hne]
  · simp

theorem naming_eligibleResults (key : JsString) :
    naming key (eligibleResults results options.minTrustScore)
      = supporters results options key := by
  unfold naming eligibleResults supporters
  rw [List.filter_filter]
  refine List.filter_congr fun result _ => ?_
  rw [Bool.eq_iff_iff]
  simp only [Bool.and_eq_true, decide_eq_true_eq, vote_eq_some]
  tauto

/-- The groups, in the order that they are compared in. -/
def sortedGroups (results : List FederatedResolverSourceResult) (options : Options) : List Group :=
  sortGroups (groupsOf (eligibleResults results options.minTrustScore)).values

theorem mem_sortedGroups {group : Group} : group ∈ sortedGroups results options
    ↔ supporters results options group.key ≠ []
      ∧ group = groupFrom group.key (supporters results options group.key) := by
  rw [sortedGroups, sortGroups, List.mem_insertionSort, Record.mem_values]
  simp only [get?_groupsOf, naming_eligibleResults]
  constructor
  · rintro ⟨key, h⟩
    split_ifs at h with hnone
    obtain rfl := Option.some.inj h
    exact ⟨hnone, rfl⟩
  · rintro ⟨hne, heq⟩
    refine ⟨group.key, ?_⟩
    rw [if_neg hne, ← heq]

theorem nodup_keys_sortedGroups : ((sortedGroups results options).map (·.key)).Nodup := by
  have hperm := (List.perm_insertionSort Before
    (groupsOf (eligibleResults results options.minTrustScore)).values).map (·.key)
  refine hperm.nodup_iff.2 ?_
  have hkeys : (groupsOf (eligibleResults results options.minTrustScore)).values.map (·.key)
      = (groupsOf (eligibleResults results options.minTrustScore)).keys := by
    unfold Record.values Record.keys
    rw [List.map_map]
    refine List.map_congr_left fun entry hentry => ?_
    have hget := Record.mem_entries.1 hentry
    rw [get?_groupsOf] at hget
    split_ifs at hget
    rw [Function.comp, ← Option.some.inj hget]
    rfl
  rw [hkeys]
  exact (groupsOf _).nodup

theorem before_total (left right : Group) : Before left right ∨ Before right left := by
  unfold Before
  rcases lt_trichotomy left.count right.count with h | h | h
  · exact Or.inr (Or.inl h)
  · rcases le_total left.weightedConfidence right.weightedConfidence with hw | hw
    · exact Or.inr (Or.inr ⟨h, hw⟩)
    · exact Or.inl (Or.inr ⟨h.symm, hw⟩)
  · exact Or.inl (Or.inl h)

theorem before_trans {a b c : Group} (hab : Before a b) (hbc : Before b c) : Before a c := by
  rcases hab with hab | ⟨hab, hab'⟩ <;> rcases hbc with hbc | ⟨hbc, hbc'⟩
  · exact Or.inl (hbc.trans hab)
  · exact Or.inl (hbc ▸ hab)
  · exact Or.inl (hab ▸ hbc)
  · exact Or.inr ⟨hbc.trans hab, hbc'.trans hab'⟩

instance : Std.Total Before := ⟨before_total⟩

instance : IsTrans Group Before := ⟨fun _ _ _ => before_trans⟩

theorem pairwise_sortedGroups (results : List FederatedResolverSourceResult) (options : Options) :
    (sortedGroups results options).Pairwise Before :=
  List.pairwise_insertionSort Before _

theorem count_of_mem {group : Group} (h : group ∈ sortedGroups results options) :
    group.count = (supporters results options group.key).length := by
  rw [(mem_sortedGroups.1 h).2]
  rfl

theorem count_pos {group : Group} (h : group ∈ sortedGroups results options) :
    0 < group.count := by
  rw [count_of_mem h]
  exact List.length_pos_iff.2 (mem_sortedGroups.1 h).1

theorem mean_of_mem {group : Group} (h : group ∈ sortedGroups results options) :
    group.weightedConfidence / max 1 group.count = mean results options group.key := by
  have hpos : 1 ≤ group.count := count_pos h
  have hweight : group.weightedConfidence
      = ((supporters results options group.key).map weight).sum :=
    congrArg Group.weightedConfidence (mem_sortedGroups.1 h).2
  rw [max_eq_right hpos, mean, ← count_of_mem h, hweight]

/-! ## The outcome -/

/-- No group after the first has almost a quorum. -/
def Unopposed (quorum : ℤ) (rest : List Group) : Prop :=
  ∀ group ∈ rest, (group.count : ℤ) < max 1 (quorum - 1)

instance (quorum : ℤ) (rest : List Group) : Decidable (Unopposed quorum rest) :=
  inferInstanceAs (Decidable (∀ group ∈ rest, _))

/-- The first group has a quorum, and its mean reaches the minimum. -/
def Accepted (options : Options) (top : Group) : Prop :=
  options.quorum ≤ top.count
    ∧ options.minResolvedConfidence ≤ clamp01 (top.weightedConfidence / max 1 top.count)

instance (options : Options) (top : Group) : Decidable (Accepted options top) :=
  inferInstanceAs (Decidable (_ ∧ _))

theorem conflictKeys_eq_nil (quorum : ℤ) {top : Group} {rest : List Group}
    (hnodup : ((top :: rest).map (·.key)).Nodup) :
    ((top :: rest).filter (isConflicting quorum top)).map (·.key) = []
      ↔ Unopposed quorum rest := by
  rw [List.map_cons, List.nodup_cons] at hnodup
  rw [List.map_eq_nil_iff, List.filter_eq_nil_iff, List.forall_mem_cons]
  refine (and_iff_right (by simp [isConflicting])).trans (forall₂_congr fun group hgroup => ?_)
  have hne : group.key ≠ top.key := fun h =>
    hnodup.1 (h ▸ List.mem_map_of_mem (f := (·.key)) hgroup)
  simp only [isConflicting, ne_eq, hne, not_false_eq_true, decide_true, Bool.true_and,
    decide_eq_true_eq, not_le]

/-- The outcome by the groups in order. -/
theorem buildConsensus_cons {top : Group} {rest : List Group}
    (h : sortedGroups results options = top :: rest) :
    (buildConsensus results options).status
        = (if tiedConflict top rest.head? then .conflict
          else if Accepted options top ∧ Unopposed options.quorum rest then .resolved
          else .partialResult)
      ∧ (buildConsensus results options).decision
        = (if tiedConflict top rest.head? = false
            ∧ Accepted options top ∧ Unopposed options.quorum rest then .accept else .review)
      ∧ (buildConsensus results options).winningTargetKey = some top.key := by
  have hnodup : ((top :: rest).map (·.key)).Nodup := h ▸ nodup_keys_sortedGroups
  have hopposed := conflictKeys_eq_nil options.quorum hnodup
  have hsorted : sortGroups (groupsOf (eligibleResults results options.minTrustScore)).values
      = top :: rest := h
  unfold buildConsensus
  simp only [hsorted, Bool.and_eq_true, decide_eq_true_eq, hopposed, Bool.not_eq_true', Accepted,
    and_assoc, and_self]

theorem buildConsensus_nil (h : sortedGroups results options = []) :
    (buildConsensus results options).status = .unresolved
      ∧ (buildConsensus results options).decision = .reject
      ∧ (buildConsensus results options).winningTargetKey = none := by
  have hsorted : sortGroups (groupsOf (eligibleResults results options.minTrustScore)).values
      = [] := h
  unfold buildConsensus
  simp only [hsorted, and_self]

/-- What is accepted leads. -/
theorem leads_of_accept (h : (buildConsensus results options).decision = .accept) :
    ∃ key, (buildConsensus results options).winningTargetKey = some key
      ∧ Leads results options key := by
  rcases hsorted : sortedGroups results options with _ | ⟨top, rest⟩
  · rw [(buildConsensus_nil hsorted).2.1] at h
    cases h
  obtain ⟨-, hdecision, hkey⟩ := buildConsensus_cons hsorted
  rw [hdecision] at h
  split_ifs at h with haccept
  obtain ⟨-, ⟨hquorum, hmean⟩, hunopposed⟩ := haccept
  have htop : top ∈ sortedGroups results options := hsorted ▸ List.mem_cons_self
  refine ⟨top.key, hkey, (mem_sortedGroups.1 htop).1, ?_, ?_, fun other hother => ?_⟩
  · rwa [count_of_mem htop] at hquorum
  · rwa [mean_of_mem htop] at hmean
  · by_cases hnone : supporters results options other = []
    · rw [hnone]
      exact lt_of_lt_of_le zero_lt_one (le_max_left _ _)
    · have hmem : groupFrom other (supporters results options other)
          ∈ sortedGroups results options := mem_sortedGroups.2 ⟨hnone, rfl⟩
      rw [hsorted] at hmem
      rcases List.mem_cons.1 hmem with heq | hrest
      · exact absurd (congrArg Group.key heq) hother
      · exact hunopposed _ hrest

/-- What leads is accepted. -/
theorem accept_of_leads {key : JsString} (h : Leads results options key) :
    (buildConsensus results options).decision = .accept := by
  have hmem : groupFrom key (supporters results options key) ∈ sortedGroups results options :=
    mem_sortedGroups.2 ⟨h.named, rfl⟩
  have hcount : max 1 (options.quorum - 1) ≤ ((supporters results options key).length : ℤ) := by
    have := List.length_pos_iff.2 h.named
    have := h.quorum
    omega
  rcases hsorted : sortedGroups results options with _ | ⟨top, rest⟩
  · rw [hsorted] at hmem
    cases hmem
  have hin {group : Group} (hgroup : group ∈ top :: rest) :
      group ∈ sortedGroups results options := hsorted ▸ hgroup
  have hfewer {group : Group} (hgroup : group ∈ top :: rest) (hne : group.key ≠ key) :
      (group.count : ℤ) < max 1 (options.quorum - 1) := by
    rw [count_of_mem (hin hgroup)]
    exact h.others _ hne
  -- no other group has as many results, so the first one has this key
  have htop : top.key = key := by
    by_contra hne
    rw [hsorted] at hmem
    rcases List.mem_cons.1 hmem with heq | hrest
    · exact hne (congrArg Group.key heq).symm
    · have hbefore := (List.pairwise_cons.1 (hsorted ▸ pairwise_sortedGroups results options :
        (top :: rest).Pairwise Before)).1 _ hrest
      have hless := hfewer List.mem_cons_self hne
      have hle : (supporters results options key).length ≤ top.count :=
        hbefore.elim (fun h => h.le) fun h => h.1.le
      omega
  have hnodup : ((top :: rest).map (·.key)).Nodup := hsorted ▸ nodup_keys_sortedGroups
  rw [List.map_cons, List.nodup_cons] at hnodup
  have hunopposed : Unopposed options.quorum rest := fun group hgroup =>
    hfewer (List.mem_cons_of_mem _ hgroup) fun heq =>
      hnodup.1 (List.mem_map.2 ⟨group, hgroup, heq.trans htop.symm⟩)
  have htopCount := count_of_mem (hin List.mem_cons_self)
  have huntied : tiedConflict top rest.head? = false := by
    rcases rest with _ | ⟨second, rest⟩
    · rfl
    · have hless := hunopposed second List.mem_cons_self
      have hne : top.count ≠ second.count := by
        rw [htopCount, htop]
        omega
      simp only [tiedConflict, List.head?_cons, Option.any_some, hne, decide_false,
        Bool.false_and]
  rw [(buildConsensus_cons hsorted).2.1, if_pos]
  refine ⟨huntied, ⟨?_, ?_⟩, hunopposed⟩
  · rw [htopCount, htop]
    exact h.quorum
  · rw [mean_of_mem (hin List.mem_cons_self), htop]
    exact h.mean

theorem decision_accept_iff :
    (buildConsensus results options).decision = .accept ↔ ∃ key, Leads results options key :=
  ⟨fun h => (leads_of_accept h).imp fun _ h => h.2, fun ⟨_, h⟩ => accept_of_leads h⟩

/-! ## Soundness -/

theorem supported_iff {key : JsString} (h : Leads results options key) :
    Supported results options key ↔ Counted results options key := by
  constructor
  · rintro ⟨⟨ids, hnodup, hquorum, hids⟩, hmean, -⟩
    refine ⟨hquorum.trans ?_, hmean⟩
    have hsub : ids.toFinset ⊆ ((supporters results options key).map (·.sourceId)).toFinset := by
      intro id hid
      obtain ⟨result, hresult, rfl⟩ := hids id (List.mem_toFinset.1 hid)
      exact List.mem_toFinset.2 (List.mem_map_of_mem hresult)
    have := Finset.card_le_card hsub
    rw [List.toFinset_card_of_nodup hnodup] at this
    exact_mod_cast this
  · rintro ⟨hquorum, hmean⟩
    refine ⟨⟨((supporters results options key).map (·.sourceId)).dedup, List.nodup_dedup _, ?_,
      fun id hid => ?_⟩, hmean, h.others⟩
    · rwa [← List.card_toFinset]
    · obtain ⟨result, hresult, heq⟩ := List.mem_map.1 (List.mem_dedup.1 hid)
      exact ⟨result, hresult, heq⟩

theorem leads_unique {key other : JsString} (h : Leads results options key)
    (h' : Leads results options other) : other = key := by
  by_contra hne
  have hless := h.others other hne
  have hpos := List.length_pos_iff.2 h'.named
  have hquorum := h'.quorum
  omega

theorem sound_iff :
    Sound results options ↔ ∀ key, Leads results options key → Counted results options key := by
  constructor
  · intro hsound key hkey
    obtain ⟨winner, hwinner, hsupported⟩ := hsound (accept_of_leads hkey)
    obtain ⟨winner', hwinner', hleads⟩ := leads_of_accept (accept_of_leads hkey)
    obtain rfl := Option.some.inj (hwinner.symm.trans hwinner')
    obtain rfl := leads_unique hleads hkey
    exact (supported_iff hkey).1 hsupported
  · intro hcounted haccept
    obtain ⟨key, hkey, hleads⟩ := leads_of_accept haccept
    exact ⟨key, hkey, (supported_iff hleads).2 (hcounted key hleads)⟩

/-! ## Another order -/

theorem perm_supporters (options : Options) (h : results.Perm results') (key : JsString) :
    (supporters results options key).Perm (supporters results' options key) := h.filter _

/-- What is compared of a group. -/
def rank (group : Group) : ℕ × ℚ := (group.count, group.weightedConfidence)

theorem rank_eq_iff {left right : Group} :
    rank left = rank right ↔ Before left right ∧ Before right left := by
  simp only [rank, Prod.mk.injEq, Before]
  constructor
  · rintro ⟨hcount, hweight⟩
    exact ⟨Or.inr ⟨hcount.symm, hweight.ge⟩, Or.inr ⟨hcount, hweight.le⟩⟩
  · rintro ⟨h | ⟨h, hw⟩, h' | ⟨h', hw'⟩⟩
    · omega
    · omega
    · omega
    · exact ⟨h.symm, le_antisymm hw' hw⟩

/-- In another order each group has a counterpart with its key and its numbers. -/
theorem counterpart (h : results.Perm results') {group : Group}
    (hgroup : group ∈ sortedGroups results options) :
    ∃ group' ∈ sortedGroups results' options,
      group'.key = group.key ∧ rank group' = rank group := by
  obtain ⟨hne, heq⟩ := mem_sortedGroups.1 hgroup
  have hperm := perm_supporters options h group.key
  refine ⟨groupFrom group.key (supporters results' options group.key),
    mem_sortedGroups.2 ⟨fun hnil => hne (List.perm_nil.1 (hnil ▸ hperm)), rfl⟩, rfl, ?_⟩
  rw [heq]
  exact Prod.ext hperm.length_eq.symm (hperm.map weight).sum_eq.symm

/-- The numbers of the groups in order are the same. -/
theorem ranks_eq (options : Options) (h : results.Perm results') :
    (sortedGroups results options).map rank = (sortedGroups results' options).map rank := by
  have hsorted : ∀ results : List FederatedResolverSourceResult,
      ((sortedGroups results options).map rank).Pairwise
        fun x y => y.1 < x.1 ∨ y.1 = x.1 ∧ y.2 ≤ x.2 := fun results =>
    List.pairwise_map.2 (pairwise_sortedGroups results options)
  have hscored : ∀ {results results' : List FederatedResolverSourceResult}, results.Perm results' →
      ∀ x, x ∈ (sortedGroups results options).map (fun group => (group.key, rank group)) →
        x ∈ (sortedGroups results' options).map (fun group => (group.key, rank group)) := by
    intro results results' h x hx
    obtain ⟨group, hgroup, rfl⟩ := List.mem_map.1 hx
    obtain ⟨group', hgroup', hkey, hrank⟩ := counterpart h hgroup
    exact List.mem_map.2 ⟨group', hgroup', by rw [hkey, hrank]⟩
  have hnodup : ∀ results : List FederatedResolverSourceResult,
      ((sortedGroups results options).map (fun group => (group.key, rank group))).Nodup := by
    intro results
    refine List.Nodup.of_map Prod.fst ?_
    rw [List.map_map]
    exact nodup_keys_sortedGroups
  have hperm := ((List.perm_ext_iff_of_nodup (hnodup results) (hnodup results')).2 fun x =>
    ⟨hscored h x, hscored h.symm x⟩).map Prod.snd
  rw [List.map_map, List.map_map] at hperm
  refine List.Perm.eq_of_pairwise (fun x y _ _ hxy hyx => ?_) (hsorted results) (hsorted results')
    hperm
  refine Prod.ext ?_ ?_
  · rcases hxy with h | ⟨h, -⟩ <;> rcases hyx with h' | ⟨h', -⟩ <;> omega
  · rcases hxy with h | ⟨h, hw⟩ <;> rcases hyx with h' | ⟨h', hw'⟩
    · omega
    · omega
    · omega
    · exact le_antisymm hw' hw

theorem tiedConflict_congr {top top' : Group} {rest rest' : List Group}
    (htop : rank top = rank top') (hrest : rest.map rank = rest'.map rank) :
    tiedConflict top rest.head? = tiedConflict top' rest'.head? := by
  obtain ⟨hcount, hweight⟩ := Prod.mk.inj htop
  rcases rest with _ | ⟨second, rest⟩ <;> rcases rest' with _ | ⟨second', rest'⟩
  · rfl
  · cases hrest
  · cases hrest
  · obtain ⟨hcount', hweight'⟩ := Prod.mk.inj (List.cons.inj hrest).1
    simp only [tiedConflict, List.head?_cons, Option.any_some, hcount, hweight, hcount', hweight']

theorem accepted_congr {top top' : Group} (h : rank top = rank top') :
    Accepted options top ↔ Accepted options top' := by
  obtain ⟨hcount, hweight⟩ := Prod.mk.inj h
  rw [Accepted, Accepted, hcount, hweight]

theorem unopposed_congr {quorum : ℤ} {rest rest' : List Group}
    (h : rest.map rank = rest'.map rank) : Unopposed quorum rest ↔ Unopposed quorum rest' := by
  have hranks : ∀ rest : List Group, Unopposed quorum rest
      ↔ ∀ x ∈ rest.map rank, (x.1 : ℤ) < max 1 (quorum - 1) := fun rest => by
    rw [List.forall_mem_map]
    rfl
  rw [hranks, hranks, h]

/-- Two groups that tie conflict. -/
theorem tiedConflict_of_rank_eq {top second : Group} (h : rank top = rank second) :
    tiedConflict top (some second) = true := by
  obtain ⟨hcount, hweight⟩ := Prod.mk.inj h
  simp only [tiedConflict, Option.any_some, hcount, hweight, sub_self, abs_zero, decide_true,
    Bool.true_and, decide_eq_true_eq]
  norm_num

/-- The first group without a conflict is the only one of its numbers. -/
theorem key_eq_of_untied {top group : Group} {rest : List Group}
    (hsorted : (top :: rest).Pairwise Before) (huntied : tiedConflict top rest.head? = false)
    (hmem : group ∈ top :: rest) (hrank : rank group = rank top) : group.key = top.key := by
  rcases List.mem_cons.1 hmem with rfl | hrest
  · rfl
  exfalso
  rcases rest with _ | ⟨second, rest⟩
  · cases hrest
  have hpairwise := List.pairwise_cons.1 hsorted
  have hafter : Before second group := by
    rcases List.mem_cons.1 hrest with rfl | hlater
    · exact (before_total group group).elim id id
    · exact (List.pairwise_cons.1 hpairwise.2).1 group hlater
  have hsecond : rank top = rank second := rank_eq_iff.2
    ⟨hpairwise.1 second List.mem_cons_self, before_trans hafter (rank_eq_iff.1 hrank).1⟩
  rw [List.head?_cons, tiedConflict_of_rank_eq hsecond] at huntied
  cases huntied

theorem orderFree (results : List FederatedResolverSourceResult) (options : Options) :
    OrderFree results options := by
  intro results' hperm
  have hranks := ranks_eq options hperm
  rcases hsorted : sortedGroups results options with _ | ⟨top, rest⟩
  · rw [hsorted] at hranks
    have hsorted' := List.map_eq_nil_iff.1 hranks.symm
    obtain ⟨hstatus, hdecision, hkey⟩ := buildConsensus_nil hsorted
    obtain ⟨hstatus', hdecision', hkey'⟩ := buildConsensus_nil hsorted'
    exact ⟨hstatus'.trans hstatus.symm, hdecision'.trans hdecision.symm,
      fun _ => hkey'.trans hkey.symm⟩
  rcases hsorted' : sortedGroups results' options with _ | ⟨top', rest'⟩
  · rw [hsorted, hsorted'] at hranks
    cases hranks
  rw [hsorted, hsorted', List.map_cons, List.map_cons] at hranks
  obtain ⟨htop, hrest⟩ := List.cons.inj hranks
  obtain ⟨hstatus, hdecision, hkey⟩ := buildConsensus_cons hsorted
  obtain ⟨hstatus', hdecision', hkey'⟩ := buildConsensus_cons hsorted'
  have htied := tiedConflict_congr htop hrest
  refine ⟨?_, ?_, fun hconflict => ?_⟩
  · simp only [hstatus, hstatus', htied, accepted_congr htop, unopposed_congr hrest]
  · simp only [hdecision, hdecision', htied, accepted_congr htop, unopposed_congr hrest]
  · have huntied : tiedConflict top rest.head? = false := by
      rw [← Bool.not_eq_true]
      intro htied
      exact hconflict (by rw [hstatus, if_pos htied])
    obtain ⟨group, hgroup, hgroupKey, hgroupRank⟩ :=
      counterpart hperm.symm (hsorted' ▸ List.mem_cons_self : top' ∈ sortedGroups results' options)
    have hsame := key_eq_of_untied (hsorted ▸ pairwise_sortedGroups results options) huntied
      (hsorted ▸ hgroup) (hgroupRank.trans htop.symm)
    rw [hkey, hkey', ← hsame, hgroupKey]

/-- The outcome does not depend on the order, and what is accepted is supported just where each key
that leads is counted by its sources. -/
theorem sound_orderFree_iff (results : List FederatedResolverSourceResult) (options : Options) :
    (Sound results options ∧ OrderFree results options)
      ↔ ∀ key, Leads results options key → Counted results options key :=
  (and_iff_left (orderFree results options)).trans sound_iff

/-! ## A source that answers twice -/

def sampleResult (sourceId : String) : FederatedResolverSourceResult where
  sourceId := js sourceId
  status := .resolved
  confidence := 1
  trustScore := 9 / 10
  targetKey := some (js "commitment:1")
  errors := []

def twice : List FederatedResolverSourceResult := [sampleResult "dns", sampleResult "dns"]

theorem leads_twice : Leads twice (consensusOptions none none none) (js "commitment:1") := by
  have hvote : vote (consensusOptions none none none).minTrustScore (sampleResult "dns")
      = some (js "commitment:1") := by
    rw [vote, if_pos ⟨Or.inl rfl, rfl, by norm_num [consensusOptions, sampleResult, clamp01]⟩]
    rfl
  have hall : ∀ result ∈ twice, result = sampleResult "dns" := by simp [twice]
  have hsupporters : supporters twice (consensusOptions none none none) (js "commitment:1")
      = twice := by
    refine List.filter_eq_self.2 fun result hresult => ?_
    rw [hall result hresult, hvote, decide_eq_true_eq]
  refine ⟨by rw [hsupporters]; exact List.cons_ne_nil _ _, ?_, ?_, fun other hother => ?_⟩
  · rw [hsupporters]
    norm_num [consensusOptions, twice]
  · rw [mean, hsupporters]
    norm_num [consensusOptions, twice, weight, sampleResult, clamp01]
  · have hnone : supporters twice (consensusOptions none none none) other = [] := by
      refine List.filter_eq_nil_iff.2 fun result hresult h => hother ?_
      rw [hall result hresult, hvote, decide_eq_true_eq] at h
      exact (Option.some.inj h).symm
    rw [hnone]
    exact lt_of_lt_of_le zero_lt_one (le_max_left _ _)

/-- One source gives two results, and they are a quorum of two. -/
theorem twice_not_sound :
    ¬ (Sound twice (consensusOptions none none none)
      ∧ OrderFree twice (consensusOptions none none none)) := by
  rw [sound_orderFree_iff]
  intro h
  have hcard := (h _ leads_twice).1
  revert hcard
  decide +kernel

end Agid.FederatedResolver
