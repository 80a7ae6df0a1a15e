import Mathlib.Data.List.Basic
import Mathlib.Logic.Function.Basic
import Mathlib.Tactic.SplitIfs

/-!
# The last owner of a key

Claims of keys are read one after another, and each makes its claimant the owner of its key.  A
claim is disputed where the last owner is another one that is not blank (`disputes_eq_false_iff`).
What is disputed depends on the order only where a blank owner and another one claim one key
(`verdict_in_every_order_iff`).
-/

namespace LastOwner

section Claims

variable {κ ω : Type*} [DecidableEq κ] [DecidableEq ω] (blank : ω)

/-- The owners after some claims. -/
def owned (owners : κ → Option ω) (claims : List (κ × ω)) : κ → Option ω :=
  claims.foldl (fun owners claim => Function.update owners claim.1 (some claim.2)) owners

/-- A claim of a key that has such an owner is disputed. -/
def disputed (owner : Option ω) (claimant : ω) : Bool :=
  match owner with
  | some owner => owner ≠ blank && owner ≠ claimant
  | none => false

/-- One of the claims is disputed. -/
def disputes (owners : κ → Option ω) : List (κ × ω) → Bool
  | [] => false
  | claim :: claims => disputed blank (owners claim.1) claim.2
      || disputes (Function.update owners claim.1 (some claim.2)) claims

/-- The first claimant does not dispute what the second one claims. -/
def Silent (first second : κ × ω) : Prop :=
  first.1 = second.1 → first.2 = blank ∨ first.2 = second.2

variable {blank}

theorem disputed_eq_false_iff {owner : Option ω} {claimant : ω} :
    disputed blank owner claimant = false
      ↔ ∀ other, owner = some other → other = blank ∨ other = claimant := by
  rcases owner with _ | owner
  · simp [disputed]
  · simp only [disputed, ne_eq, Bool.and_eq_false_iff, decide_eq_false_iff_not, not_not,
      Option.some.injEq]
    constructor
    · rintro h other rfl
      exact h
    · exact fun h => h owner rfl

theorem disputes_append : ∀ (owners : κ → Option ω) (claims later : List (κ × ω)),
    disputes blank owners (claims ++ later)
      = (disputes blank owners claims || disputes blank (owned owners claims) later)
  | _, [], _ => rfl
  | owners, claim :: claims, later => by
    rw [List.cons_append, disputes, disputes_append _ claims later, disputes, Bool.or_assoc]
    rfl

/-- No claim is disputed where none is by the owners at the beginning or by an earlier claimant. -/
theorem disputes_eq_false_iff : ∀ {owners : κ → Option ω} {claims : List (κ × ω)},
    disputes blank owners claims = false
      ↔ claims.Pairwise (Silent blank)
        ∧ ∀ claim ∈ claims, disputed blank (owners claim.1) claim.2 = false
  | owners, [] => by simp [disputes]
  | owners, claim :: claims => by
    rw [disputes, Bool.or_eq_false_iff, disputes_eq_false_iff, List.pairwise_cons,
      List.forall_mem_cons]
    constructor
    · rintro ⟨hfirst, hpairs, hupdated⟩
      have hsilent : ∀ other ∈ claims, Silent blank claim other := by
        intro other hother hkey
        have hlater := hupdated other hother
        rw [← hkey, Function.update_self, disputed_eq_false_iff] at hlater
        exact hlater claim.2 rfl
      refine ⟨⟨hsilent, hpairs⟩, hfirst, fun other hother => ?_⟩
      by_cases hkey : claim.1 = other.1
      · rw [disputed_eq_false_iff]
        intro owner howner
        rw [← hkey] at howner
        rcases disputed_eq_false_iff.1 hfirst owner howner with hblank | hclaim
        · exact Or.inl hblank
        · rw [hclaim]
          exact hsilent other hother hkey
      · have hlater := hupdated other hother
        rwa [Function.update_of_ne (Ne.symm hkey)] at hlater
    · rintro ⟨⟨hsilent, hpairs⟩, hfirst, hlater⟩
      refine ⟨hfirst, hpairs, fun other hother => ?_⟩
      by_cases hkey : claim.1 = other.1
      · rw [← hkey, Function.update_self, disputed_eq_false_iff]
        rintro owner howner
        obtain rfl := Option.some.inj howner
        exact hsilent other hother hkey
      · rw [Function.update_of_ne (Ne.symm hkey)]
        exact hlater other hother

/-- Without an owner at the beginning. -/
theorem disputes_none_iff {claims : List (κ × ω)} :
    disputes blank (fun _ => none) claims = false ↔ claims.Pairwise (Silent blank) := by
  rw [disputes_eq_false_iff]
  exact ⟨And.left, fun h => ⟨h, fun _ _ => rfl⟩⟩

/-- A loop that keeps the owners and notes a dispute, in each round about the claims of an item. -/
theorem foldl_notes (blank : ω) {σ ρ : Type*} (step : σ → ρ → σ)
    (owners : σ → κ → Option ω) (noted : σ → Bool)
    (own : ρ → Bool) (claims : ρ → List (κ × ω))
    (howners : ∀ state item, owners (step state item) = owned (owners state) (claims item))
    (hnoted : ∀ state item, noted (step state item)
      = (noted state || own item || disputes blank (owners state) (claims item))) :
    ∀ (items : List ρ) (state : σ), noted (items.foldl step state)
      = (noted state || items.any own || disputes blank (owners state) (items.flatMap claims))
  | [], state => by simp [disputes]
  | item :: items, state => by
    rw [List.foldl_cons, foldl_notes blank step owners noted own claims howners hnoted items,
      hnoted,
      howners, List.any_cons, List.flatMap_cons, disputes_append]
    grind

end Claims

/-! ## All orders -/

section Orders

variable {α ω : Type*} {meets : α → α → Prop} {owner : α → ω} {blank : ω}

/-- Two items with different owners meet. -/
def Differ (meets : α → α → Prop) (owner : α → ω) (items : List α) : Prop :=
  ∃ first ∈ items, ∃ second ∈ items, meets first second ∧ owner first ≠ owner second

/-- Two items with different owners meet, and neither owner is blank. -/
def Clash (meets : α → α → Prop) (owner : α → ω) (blank : ω) (items : List α) : Prop :=
  ∃ first ∈ items, ∃ second ∈ items, meets first second ∧ owner first ≠ owner second
    ∧ owner first ≠ blank ∧ owner second ≠ blank

/-- No earlier item disputes a later one. -/
def Quiet (meets : α → α → Prop) (owner : α → ω) (blank : ω) (items : List α) : Prop :=
  items.Pairwise fun first second =>
    meets first second → owner first = blank ∨ owner first = owner second

theorem quiet_of_not_differ {items : List α} (h : ¬ Differ meets owner items) :
    Quiet meets owner blank items := by
  refine List.pairwise_of_forall_mem_list fun first hfirst second hsecond hmeets => Or.inr ?_
  by_contra hne
  exact h ⟨first, hfirst, second, hsecond, hmeets, hne⟩

theorem not_quiet_of_clash (hsymm : ∀ {first second}, meets first second → meets second first)
    {items : List α} (h : Clash meets owner blank items) : ¬ Quiet meets owner blank items := by
  obtain ⟨first, hfirst, second, hsecond, hmeets, hne, hfilled, hfilled'⟩ := h
  intro hquiet
  obtain ⟨i, hi, rfl⟩ := List.mem_iff_getElem.1 hfirst
  obtain ⟨j, hj, rfl⟩ := List.mem_iff_getElem.1 hsecond
  rcases Nat.lt_trichotomy i j with hlt | rfl | hlt
  · rcases List.pairwise_iff_getElem.1 hquiet i j hi hj hlt hmeets with hblank | heq
    · exact hfilled hblank
    · exact hne heq
  · exact hne rfl
  · rcases List.pairwise_iff_getElem.1 hquiet j i hj hi hlt (hsymm hmeets) with hblank | heq
    · exact hfilled' hblank
    · exact hne heq.symm

/-- Two items claim one key. -/
def Meets {κ : Type*} (claims : α → List (κ × ω)) (first second : α) : Prop :=
  ∃ claim ∈ claims first, ∃ other ∈ claims second, claim.1 = other.1

theorem Meets.symm {κ : Type*} {claims : α → List (κ × ω)} {first second : α} :
    Meets claims first second → Meets claims second first
  | ⟨claim, hclaim, other, hother, hkey⟩ => ⟨other, hother, claim, hclaim, hkey.symm⟩

/-- The claims of items, each of one claimant. -/
theorem flatMap_silent_iff {κ : Type*} {claims : α → List (κ × ω)}
    (howner : ∀ item, ∀ claim ∈ claims item, claim.2 = owner item) {items : List α} :
    (items.flatMap claims).Pairwise (Silent blank) ↔ Quiet (Meets claims) owner blank items := by
  rw [List.pairwise_flatMap]
  constructor
  · rintro ⟨-, hpairs⟩
    refine hpairs.imp fun {first second} h hmeets => ?_
    obtain ⟨claim, hclaim, other, hother, hkey⟩ := hmeets
    rw [← howner first claim hclaim, ← howner second other hother]
    exact h claim hclaim other hother hkey
  · refine fun hquiet => ⟨fun item _ => ?_, hquiet.imp fun {first second} h => ?_⟩
    · refine List.pairwise_of_forall_mem_list fun claim hclaim other hother _ => Or.inr ?_
      rw [howner item claim hclaim, howner item other hother]
    · intro claim hclaim other hother hkey
      rw [howner first claim hclaim, howner second other hother]
      exact h ⟨claim, hclaim, other, hother, hkey⟩

/-- Where no owner is blank the order does not matter. -/
theorem quiet_perm (hsymm : ∀ {first second}, meets first second → meets second first)
    (hfilled : ∀ item, owner item ≠ blank) {items other : List α} (hperm : items.Perm other) :
    Quiet meets owner blank items ↔ Quiet meets owner blank other := by
  refine hperm.pairwise_iff fun {first second} h hmeets => Or.inr ?_
  exact ((h (hsymm hmeets)).resolve_left (hfilled first)).symm

variable [DecidableEq ω]

/-- The items of the blank owner first. -/
def blanksFirst (owner : α → ω) (blank : ω) (items : List α) : List α :=
  items.filter (owner · = blank) ++ items.filter fun item => !decide (owner item = blank)

/-- The items of the blank owner last. -/
def blanksLast (owner : α → ω) (blank : ω) (items : List α) : List α :=
  items.filter (fun item => !decide (owner item = blank)) ++ items.filter (owner · = blank)

theorem perm_blanksFirst (items : List α) : items.Perm (blanksFirst owner blank items) :=
  (List.filter_append_perm _ items).symm

theorem perm_blanksLast (items : List α) : items.Perm (blanksLast owner blank items) :=
  (perm_blanksFirst items).trans List.perm_append_comm

theorem quiet_blanksFirst {items : List α} (h : ¬ Clash meets owner blank items) :
    Quiet meets owner blank (blanksFirst owner blank items) := by
  refine List.pairwise_append.2 ⟨?_, ?_, ?_⟩
  · refine List.pairwise_of_forall_mem_list fun first hfirst second _ _ => Or.inl ?_
    exact of_decide_eq_true (List.mem_filter.1 hfirst).2
  · refine List.pairwise_of_forall_mem_list fun first hfirst second hsecond hmeets => Or.inr ?_
    obtain ⟨hfirst, hfilled⟩ := List.mem_filter.1 hfirst
    obtain ⟨hsecond, hfilled'⟩ := List.mem_filter.1 hsecond
    by_contra hne
    exact h ⟨first, hfirst, second, hsecond, hmeets, hne, by simpa using hfilled,
      by simpa using hfilled'⟩
  · exact fun first hfirst second _ _ =>
      Or.inl (of_decide_eq_true (List.mem_filter.1 hfirst).2)

theorem not_quiet_blanksLast (hsymm : ∀ {first second}, meets first second → meets second first)
    {items : List α} (h : ¬ Clash meets owner blank items) (hdiffer : Differ meets owner items) :
    ¬ Quiet meets owner blank (blanksLast owner blank items) := by
  obtain ⟨first, hfirst, second, hsecond, hmeets, hne⟩ := hdiffer
  intro hquiet
  have hcross := (List.pairwise_append.1 hquiet).2.2
  by_cases hblank : owner first = blank
  · have hfilled : owner second ≠ blank := fun h => hne (hblank.trans h.symm)
    rcases hcross second (List.mem_filter.2 ⟨hsecond, by simpa using hfilled⟩) first
      (List.mem_filter.2 ⟨hfirst, by simpa using hblank⟩) (hsymm hmeets) with h | h
    · exact hfilled h
    · exact hne h.symm
  · by_cases hblank' : owner second = blank
    · rcases hcross first (List.mem_filter.2 ⟨hfirst, by simpa using hblank⟩) second
        (List.mem_filter.2 ⟨hsecond, by simpa using hblank'⟩) hmeets with h | h
      · exact hblank h
      · exact hne h
    · exact h ⟨first, hfirst, second, hsecond, hmeets, hne, hblank, hblank'⟩

/-- A verdict is right in every order of the items where owners that are not blank clash in a bad
list, or where no owners differ in a good one. -/
theorem verdict_in_every_order_iff
    (hsymm : ∀ {first second}, meets first second → meets second first) {items : List α}
    {bad : Prop} :
    (∀ other, items.Perm other → (Quiet meets owner blank other ↔ ¬ bad))
      ↔ (Clash meets owner blank items ∧ bad) ∨ (¬ Differ meets owner items ∧ ¬ bad) := by
  constructor
  · intro hright
    by_cases hclash : Clash meets owner blank items
    · refine Or.inl ⟨hclash, ?_⟩
      have hquiet := not_quiet_of_clash hsymm hclash
      rw [hright items (List.Perm.refl items)] at hquiet
      exact not_not.1 hquiet
    · have hgood := (hright _ (perm_blanksFirst items)).1 (quiet_blanksFirst hclash)
      refine Or.inr ⟨fun hdiffer => ?_, hgood⟩
      exact not_quiet_blanksLast hsymm hclash hdiffer
        ((hright _ (perm_blanksLast items)).2 hgood)
  · rintro (⟨hclash, hbad⟩ | ⟨hdiffer, hgood⟩) other hperm
    · refine iff_of_false (not_quiet_of_clash hsymm ?_) (not_not.2 hbad)
      obtain ⟨first, hfirst, second, hsecond, h⟩ := hclash
      exact ⟨first, hperm.mem_iff.1 hfirst, second, hperm.mem_iff.1 hsecond, h⟩
    · refine iff_of_true (quiet_of_not_differ fun hother => hdiffer ?_) hgood
      obtain ⟨first, hfirst, second, hsecond, h⟩ := hother
      exact ⟨first, hperm.mem_iff.2 hfirst, second, hperm.mem_iff.2 hsecond, h⟩

end Orders

end LastOwner
