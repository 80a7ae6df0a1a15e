import Mathlib

/-!
# Interleaved tasks

Tasks over one store.  A request starts a task, which then advances by steps that read and change
the store; between two of its steps the other tasks may take any number of theirs.  What holds of
every run is proved task by task: a property of the store, one of each task, one of each two of
them, and that the step of one task leaves the others theirs.
-/

namespace Tasks

structure World (S T : Type*) where
  store : S
  tasks : List T

/-- How a request starts a task, and what its next step does, with what it reads from outside. -/
structure System (S T R E : Type*) where
  start : R → T
  advance : E → S → T → Option (S × T)

/-- What is asked of the steps of a run: which requests come, how the store may change, and which
two tasks may stand next to each other. -/
structure Condition (S T R : Type*) where
  accepts : R → Prop
  keeps : S → S → Prop
  meet : T → T → Prop

variable {S T R E : Type*}

def World.init (s : S) : World S T := ⟨s, []⟩

def Condition.free : Condition S T R := ⟨fun _ => True, fun _ _ => True, fun _ _ => True⟩

inductive Step (sys : System S T R E) (c : Condition S T R) : World S T → World S T → Prop
  | start {w : World S T} {r : R} (accepts : c.accepts r)
      (meet : ∀ u ∈ w.tasks, c.meet (sys.start r) u) :
      Step sys c w ⟨w.store, w.tasks ++ [sys.start r]⟩
  | advance {w : World S T} {i : ℕ} {t t' : T} {s' : S} (e : E) (task : w.tasks[i]? = some t)
      (next : sys.advance e w.store t = some (s', t')) (keeps : c.keeps w.store s')
      (meet : ∀ j u, w.tasks[j]? = some u → j ≠ i → c.meet t' u) :
      Step sys c w ⟨s', w.tasks.set i t'⟩

/-- From the store `s` and no task. -/
def Run (sys : System S T R E) (c : Condition S T R) (s : S) (w : World S T) : Prop :=
  Relation.ReflTransGen (Step sys c) (.init s) w

theorem Run.init (sys : System S T R E) (c : Condition S T R) (s : S) : Run sys c s (.init s) := .refl

/-- What the store has come to hold, some task has made: a step adds only what its task has then
made, and a task does not lose what it has made. -/
theorem Run.made {sys : System S T R E} {c : Condition S T R} {ι : Type*} (has : S → ι → Prop)
    (mine : T → ι → Prop) {s : S} (hinit : ∀ i, ¬ has s i)
    (hmine : ∀ {e s t s' t'}, sys.advance e s t = some (s', t') → ∀ i, mine t i → mine t' i)
    (hhas : ∀ {e s t s' t'}, sys.advance e s t = some (s', t') →
      ∀ i, has s' i → has s i ∨ mine t' i)
    {w : World S T} (h : Run sys c s w) : ∀ i, has w.store i → ∃ t ∈ w.tasks, mine t i := by
  induction h with
  | refl => exact fun i hi => (hinit i hi).elim
  | tail _ hstep ih =>
    intro i hi
    cases hstep with
    | start =>
      obtain ⟨t, ht, hti⟩ := ih i hi
      exact ⟨t, List.mem_append_left _ ht, hti⟩
    | @advance j t t' s' e task next =>
      have hlt := (List.getElem?_eq_some_iff.1 task).1
      rcases hhas next i hi with hold | hnew
      · obtain ⟨u, hu, hui⟩ := ih i hold
        obtain ⟨k, hk, rfl⟩ := List.getElem_of_mem hu
        by_cases hjk : j = k
        · subst hjk
          rw [List.getElem?_eq_getElem hk, Option.some.injEq] at task
          subst task
          exact ⟨t', List.mem_set hlt t', hmine next i hui⟩
        · refine ⟨_, List.mem_of_getElem? (i := k) ?_, hui⟩
          rw [List.getElem?_set_ne hjk, List.getElem?_eq_getElem hk]
      · exact ⟨t', List.mem_set hlt t', hnew⟩

/-- A task-by-task invariant: `inv` of the store, `own` of each task and `apart` of each two. -/
structure Rule (sys : System S T R E) (c : Condition S T R) where
  inv : S → Prop
  own : S → T → Prop
  apart : T → T → Prop
  symm : ∀ {t u}, apart t u → apart u t
  start : ∀ {s r}, inv s → c.accepts r → own s (sys.start r)
  start_apart : ∀ {s r u}, inv s → c.accepts r → own s u → c.meet (sys.start r) u →
    apart (sys.start r) u
  advance : ∀ {e s t s' t'}, inv s → own s t → sys.advance e s t = some (s', t') →
    c.keeps s s' → inv s' ∧ own s' t'
  frame : ∀ {e s t s' t' u}, inv s → own s t → own s u → apart t u →
    sys.advance e s t = some (s', t') → c.keeps s s' → c.meet t' u → own s' u ∧ apart t' u

namespace Rule

variable {sys : System S T R E} {c : Condition S T R} (rule : Rule sys c)

structure Holds (w : World S T) : Prop where
  inv : rule.inv w.store
  own : ∀ t ∈ w.tasks, rule.own w.store t
  apart : w.tasks.Pairwise rule.apart

theorem apart_get {l : List T} (h : l.Pairwise rule.apart) {i j : ℕ} {t u : T}
    (hi : l[i]? = some t) (hj : l[j]? = some u) (hij : i ≠ j) : rule.apart t u := by
  obtain ⟨hi', rfl⟩ := List.getElem?_eq_some_iff.1 hi
  obtain ⟨hj', rfl⟩ := List.getElem?_eq_some_iff.1 hj
  rcases Nat.lt_or_gt_of_ne hij with hlt | hlt
  · exact List.pairwise_iff_getElem.1 h i j hi' hj' hlt
  · exact rule.symm (List.pairwise_iff_getElem.1 h j i hj' hi' hlt)

theorem Holds.step {w w' : World S T} (h : rule.Holds w) (hs : Step sys c w w') :
    rule.Holds w' := by
  cases hs with
  | @start r accepts meet =>
    refine ⟨h.inv, fun t ht => ?_, ?_⟩
    · rcases List.mem_append.1 ht with ht | ht
      · exact h.own t ht
      · rw [List.mem_singleton.1 ht]
        exact rule.start h.inv accepts
    · refine List.pairwise_append.2 ⟨h.apart, List.pairwise_singleton _ _, fun u hu t ht => ?_⟩
      rw [List.mem_singleton.1 ht]
      exact rule.symm (rule.start_apart h.inv accepts (h.own u hu) (meet u hu))
  | @advance i t t' s' e task next keeps meet =>
    have ht := h.own t (List.mem_of_getElem? task)
    have hframe : ∀ j u, w.tasks[j]? = some u → j ≠ i → rule.own s' u ∧ rule.apart t' u :=
      fun j u hu hj => rule.frame h.inv ht (h.own u (List.mem_of_getElem? hu))
        (rule.apart_get h.apart task hu hj.symm) next keeps (meet j u hu hj)
    obtain ⟨hinv, hown⟩ := rule.advance h.inv ht next keeps
    refine ⟨hinv, fun u hu => ?_, List.pairwise_iff_getElem.2 fun j k hj hk hjk => ?_⟩
    · obtain ⟨j, hj, hju⟩ := List.getElem_of_mem hu
      rw [List.getElem_set] at hju
      split_ifs at hju with hij
      · exact hju ▸ hown
      · exact (hframe j u (hju ▸ List.getElem?_eq_getElem _) (Ne.symm hij)).1
    · rw [List.length_set] at hj hk
      simp only [List.getElem_set]
      split_ifs with hij hik hik
      · omega
      · exact (hframe k _ (List.getElem?_eq_getElem hk) (Ne.symm hik)).2
      · exact rule.symm (hframe j _ (List.getElem?_eq_getElem hj) (Ne.symm hij)).2
      · exact List.pairwise_iff_getElem.1 h.apart j k hj hk hjk

theorem Holds.steps {w w' : World S T} (h : rule.Holds w)
    (hs : Relation.ReflTransGen (Step sys c) w w') : rule.Holds w' := by
  induction hs with
  | refl => exact h
  | tail _ hstep ih => exact ih.step rule hstep

/-- What the rule says of the first store holds in every run. -/
theorem holds {s : S} (hs : rule.inv s) {w : World S T} (h : Run sys c s w) : rule.Holds w :=
  Holds.steps rule ⟨hs, by simp [World.init], by simp [World.init]⟩ h

end Rule

/-- One step of a schedule. -/
inductive Move (R E : Type*) where
  | start (r : R)
  | advance (i : ℕ) (e : E)

section Schedule

variable (sys : System S T R E) (c : Condition S T R) [DecidablePred c.accepts]
  [DecidableRel c.keeps] [DecidableRel c.meet]

def play (w : World S T) : Move R E → Option (World S T)
  | .start r =>
    if c.accepts r ∧ ∀ u ∈ w.tasks, c.meet (sys.start r) u then
      some ⟨w.store, w.tasks ++ [sys.start r]⟩
    else none
  | .advance i e =>
    match w.tasks[i]? with
    | none => none
    | some t =>
      match sys.advance e w.store t with
      | none => none
      | some (s', t') =>
        if c.keeps w.store s' ∧ ∀ u ∈ w.tasks.eraseIdx i, c.meet t' u then
          some ⟨s', w.tasks.set i t'⟩
        else none

def playAll (w : World S T) : List (Move R E) → Option (World S T)
  | [] => some w
  | m :: ms => (play sys c w m).bind (playAll · ms)

variable {sys c}

theorem play_step {w w' : World S T} {m : Move R E} (h : play sys c w m = some w') :
    Step sys c w w' := by
  cases m with
  | start r =>
    simp only [play, Option.ite_none_right_eq_some, Option.some.injEq] at h
    obtain ⟨⟨haccepts, hmeet⟩, rfl⟩ := h
    exact .start haccepts hmeet
  | advance i e =>
    simp only [play] at h
    split at h
    · cases h
    · rename_i t ht
      split at h
      · cases h
      · rename_i s' t' hnext
        simp only [Option.ite_none_right_eq_some, Option.some.injEq] at h
        obtain ⟨⟨hkeeps, hmeet⟩, rfl⟩ := h
        exact .advance e ht hnext hkeeps fun j u hu hj =>
          hmeet u (List.mem_eraseIdx_iff_getElem?.2 ⟨j, hj, hu⟩)

theorem playAll_steps {w w' : World S T} :
    ∀ {ms : List (Move R E)}, playAll sys c w ms = some w' →
      Relation.ReflTransGen (Step sys c) w w'
  | [], h => by
    simp only [playAll, Option.some.injEq] at h
    exact h ▸ .refl
  | m :: ms, h => by
    obtain ⟨w₁, h₁, h⟩ := Option.bind_eq_some_iff.1 h
    exact .head (play_step h₁) (playAll_steps h)

/-- What a schedule leads to, in a run that has come to its first world. -/
theorem Run.play {s : S} {w₀ : World S T} (h : Run sys c s w₀) {α : Type*} (f : World S T → α)
    {a : α} (ms : List (Move R E)) (hplay : (playAll sys c w₀ ms).map f = some a) :
    ∃ w, Run sys c s w ∧ f w = a := by
  obtain ⟨w, hw, rfl⟩ := Option.map_eq_some_iff.1 hplay
  exact ⟨w, h.trans (playAll_steps hw), rfl⟩

/-- The same with a world on the way. -/
theorem Run.playTwice {s : S} {w₀ : World S T} (h : Run sys c s w₀) {α : Type*}
    (f : World S T → World S T → α) {a : α} (ms ms' : List (Move R E))
    (hplay : ((playAll sys c w₀ ms).bind fun w => (playAll sys c w ms').map (f w)) = some a) :
    ∃ w w', Run sys c s w ∧ Relation.ReflTransGen (Step sys c) w w' ∧ f w w' = a := by
  obtain ⟨w, hw, hplay⟩ := Option.bind_eq_some_iff.1 hplay
  obtain ⟨w', hw', rfl⟩ := Option.map_eq_some_iff.1 hplay
  exact ⟨w, w', h.trans (playAll_steps hw), playAll_steps hw', rfl⟩

end Schedule

instance : DecidablePred (Condition.free : Condition S T R).accepts := fun _ => .isTrue trivial
instance : DecidableRel (Condition.free : Condition S T R).keeps := fun _ _ => .isTrue trivial
instance : DecidableRel (Condition.free : Condition S T R).meet := fun _ _ => .isTrue trivial

end Tasks
