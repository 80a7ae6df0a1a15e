import Mathlib.Data.List.Nodup
import Mathlib.Data.Set.Function
import Mathlib.Data.Set.Insert

/-!
# Gathering along maximal paths

A path goes up from a node until it can go no further; with it come the nodes that it meets and
those beside them.  What a run gathers, one item for each key, is told by `Gathers`, and a run that
may stop early by `Adds`, which says nothing of a run that has stopped.
-/

namespace Paths

variable {α : Type*} (up beside : α → α → Prop)

/-- A path up from a node, which is not on it, to one that has none above it. -/
inductive Maximal : α → List α → Prop
  | top {a} (h : ∀ b, ¬ up a b) : Maximal a []
  | cons {a b path} (h : up a b) (hpath : Maximal b path) : Maximal a (b :: path)

/-- The nodes on a path from a node, and those beside them and beside the node. -/
def met (a : α) (path : List α) : Set α := {c | c ∈ path ∨ ∃ b ∈ a :: path, beside b c}

variable {up beside} {a b c : α} {path : List α}

theorem maximal_nil : Maximal up a [] ↔ ∀ b, ¬ up a b := by
  constructor
  · rintro ⟨h⟩
    exact h
  · exact Maximal.top

theorem maximal_cons : Maximal up a (b :: path) ↔ up a b ∧ Maximal up b path := by
  constructor
  · rintro (- | ⟨h, hpath⟩)
    exact ⟨h, hpath⟩
  · exact fun h => Maximal.cons h.1 h.2

@[simp] theorem mem_met_nil : c ∈ met beside a [] ↔ beside a c := by
  simp [met]

@[simp] theorem mem_met_cons :
    c ∈ met beside a (b :: path) ↔ beside a c ∨ c = b ∨ c ∈ met beside b path := by
  simp only [met, Set.mem_ofPred_eq, List.mem_cons, exists_eq_or_imp]
  tauto

theorem of_mem_met {q : α → Prop} (hup : ∀ a b, up a b → q b) (hbeside : ∀ a b, beside a b → q b) :
    Maximal up a path → c ∈ met beside a path → q c := by
  intro hpath
  induction hpath with
  | top => exact fun hc => hbeside _ _ (mem_met_nil.1 hc)
  | cons h _ ih =>
    intro hc
    rcases mem_met_cons.1 hc with hc | rfl | hc
    · exact hbeside _ _ hc
    · exact hup _ _ h
    · exact ih hc

/-! ## Gathering -/

section Gathers

variable {ι κ : Type*} {key : ι → κ} {wanted wanted' : ι → Prop} {l l' l'' : List ι}

/-- From `l` to `l'` the items that are wanted are gathered, or others with their keys. -/
structure Gathers (key : ι → κ) (wanted : ι → Prop) (l l' : List ι) : Prop where
  kept : ∀ i ∈ l, i ∈ l'
  only : ∀ i ∈ l', i ∈ l ∨ wanted i
  all : ∀ i, wanted i → ∃ j ∈ l', key j = key i
  distinct : (l.map key).Nodup → (l'.map key).Nodup

namespace Gathers

theorem refl (h : ∀ i, ¬ wanted i) : Gathers key wanted l l :=
  ⟨fun _ => id, fun _ => Or.inl, fun i hi => absurd hi (h i), id⟩

theorem trans (h : Gathers key wanted l l') (h' : Gathers key wanted' l' l'') :
    Gathers key (fun i => wanted i ∨ wanted' i) l l'' where
  kept i hi := h'.kept i (h.kept i hi)
  only i hi := by
    rcases h'.only i hi with hi | hi
    · exact (h.only i hi).imp_right Or.inl
    · exact Or.inr (Or.inr hi)
  all i := by
    rintro (hi | hi)
    · obtain ⟨j, hj, hkey⟩ := h.all i hi
      exact ⟨j, h'.kept j hj, hkey⟩
    · exact h'.all i hi
  distinct hl := h'.distinct (h.distinct hl)

theorem congr (h : Gathers key wanted l l') (hiff : ∀ i, wanted i ↔ wanted' i) :
    Gathers key wanted' l l' := funext (fun i => propext (hiff i)) ▸ h

/-- What is gathered from nothing is what is wanted, where no two keys of that are the same. -/
theorem mem_iff_iff (h : Gathers key wanted [] l) :
    (∀ i, i ∈ l ↔ wanted i) ↔ Set.InjOn key {i | wanted i} := by
  constructor
  · intro hl i hi j hj
    exact List.inj_on_of_nodup_map (h.distinct List.nodup_nil) ((hl i).2 hi) ((hl j).2 hj)
  · intro hinj i
    refine ⟨fun hi => (h.only i hi).resolve_left List.not_mem_nil, fun hi => ?_⟩
    obtain ⟨j, hj, hkey⟩ := h.all i hi
    have hwanted := (h.only j hj).resolve_left List.not_mem_nil
    exact hinj hwanted hi hkey ▸ hj

end Gathers

variable {σ β : Type*} {items : σ → List ι} {kept : σ → Prop} {goes : σ → Prop} {s s' s'' : σ}

/-- A run that may stop: where it goes on to the end, it went on before, and what is wanted is
gathered.  Something is kept all the way. -/
def Adds (key : ι → κ) (items : σ → List ι) (kept goes : σ → Prop) (wanted : ι → Prop)
    (s s' : σ) : Prop :=
  kept s → kept s' ∧ (goes s' → goes s ∧ Gathers key wanted (items s) (items s'))

namespace Adds

theorem refl (h : ∀ i, ¬ wanted i) : Adds key items kept goes wanted s s :=
  fun hs => ⟨hs, fun hgoes => ⟨hgoes, Gathers.refl h⟩⟩

theorem trans (h : Adds key items kept goes wanted s s')
    (h' : Adds key items kept goes wanted' s' s'') :
    Adds key items kept goes (fun i => wanted i ∨ wanted' i) s s'' := by
  intro hs
  obtain ⟨hs', hadds⟩ := h hs
  obtain ⟨hs'', hadds'⟩ := h' hs'
  refine ⟨hs'', fun hgoes => ?_⟩
  obtain ⟨hgoes', hgathers'⟩ := hadds' hgoes
  obtain ⟨hgoes, hgathers⟩ := hadds hgoes'
  exact ⟨hgoes, hgathers.trans hgathers'⟩

theorem congr (h : Adds key items kept goes wanted s s') (hiff : ∀ i, wanted i ↔ wanted' i) :
    Adds key items kept goes wanted' s s' := fun hs =>
  ⟨(h hs).1, fun hgoes => ⟨((h hs).2 hgoes).1, ((h hs).2 hgoes).2.congr hiff⟩⟩

theorem stopped (hkept : kept s → kept s') (hstop : ¬ goes s') :
    Adds key items kept goes wanted s s' :=
  fun hs => ⟨hkept hs, fun hgoes => absurd hgoes hstop⟩

theorem after_stopped (h : Adds key items kept goes wanted s' s'') (hkept : kept s → kept s')
    (hstop : ¬ goes s') : Adds key items kept goes wanted' s s'' :=
  fun hs => ⟨(h (hkept hs)).1, fun hgoes => absurd ((h (hkept hs)).2 hgoes).1 hstop⟩

/-- A loop gathers what its rounds do. -/
theorem foldl {step : σ → β → σ} {wanted : β → ι → Prop} : ∀ (l : List β) (s : σ),
    (∀ b ∈ l, ∀ s, Adds key items kept goes (wanted b) s (step s b)) →
    Adds key items kept goes (fun i => ∃ b ∈ l, wanted b i) s (l.foldl step s)
  | [], _, _ => refl (by simp)
  | b :: l, s, h => by
    have hfirst := h b List.mem_cons_self s
    have hrest := foldl l (step s b) fun b' hb' => h b' (List.mem_cons_of_mem b hb')
    exact (hfirst.trans hrest).congr (by simp)

end Adds

end Gathers

end Paths
