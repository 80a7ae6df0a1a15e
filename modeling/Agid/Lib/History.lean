import Mathlib

/-!
# Runs that keep their past

A machine takes a step on an event or refuses it.  A run keeps each event it took with the state it
took it in, so that a property of one step can speak of the steps before it.  What is shown of one
step, whatever the run before it, holds of every step of every run.
-/

namespace History

variable {S E : Type*}

/-- The events taken, each with the state it was taken in, the last one first. -/
abbrev Past (S E : Type*) := List (S × E)

inductive Run (next : S → E → Option S) (s₀ : S) : Past S E → S → Prop
  | init : Run next s₀ [] s₀
  | step {past : Past S E} {s s' : S} {e : E} (run : Run next s₀ past s)
      (taken : next s e = some s') : Run next s₀ ((s, e) :: past) s'

/-- The property holds of each step, given those before it. -/
def Every (p : Past S E → S → E → Prop) : Past S E → Prop
  | [] => True
  | (s, e) :: past => p past s e ∧ Every p past

instance instDecidableEvery {p : Past S E → S → E → Prop} [∀ past s e, Decidable (p past s e)] :
    ∀ past, Decidable (Every p past)
  | [] => .isTrue trivial
  | (s, e) :: past =>
    have : Decidable (Every p past) := instDecidableEvery past
    inferInstanceAs (Decidable (p past s e ∧ Every p past))

theorem Every.mono {p q : Past S E → S → E → Prop} (hpq : ∀ past s e, p past s e → q past s e) :
    ∀ {past : Past S E}, Every p past → Every q past
  | [], _ => trivial
  | (s, e) :: past, h => ⟨hpq past s e h.1, h.2.mono hpq⟩

variable {next : S → E → Option S} {s₀ s : S} {past : Past S E}

theorem Every.append {p : Past S E → S → E → Prop} {past : Past S E} (h : Every p past)
    (hp : ∀ past past' s e, p past s e → p past' s e) :
    ∀ {newer : Past S E}, Every p newer → Every p (newer ++ past)
  | [], _ => h
  | (s, e) :: _, hnewer => ⟨hp _ _ s e hnewer.1, h.append hp hnewer.2⟩

/-- A run that goes on. -/
theorem Run.append {newer : Past S E} {s' : S} (h : Run next s₀ past s)
    (hnewer : Run next s newer s') : Run next s₀ (newer ++ past) s' := by
  induction hnewer with
  | init => exact h
  | step _ taken ih => exact ih.step taken

theorem Run.invariant {inv : Past S E → S → Prop} (init : inv [] s₀)
    (step : ∀ {past s e s'}, Run next s₀ past s → inv past s → next s e = some s' →
      inv ((s, e) :: past) s') (h : Run next s₀ past s) : inv past s := by
  induction h with
  | init => exact init
  | step run taken ih => exact step run ih taken

theorem Run.every {p : Past S E → S → E → Prop}
    (step : ∀ {past s e s'}, Run next s₀ past s → next s e = some s' → p past s e)
    (h : Run next s₀ past s) : Every p past := by
  induction h with
  | init => trivial
  | step run taken ih => exact ⟨step run taken, ih⟩

/-- Two properties that agree on each step of a run whose steps before it have the second hold of
the same runs. -/
theorem Run.every_iff_of {p q : Past S E → S → E → Prop}
    (step : ∀ {past s e s'}, Run next s₀ past s → Every q past → next s e = some s' →
      (p past s e ↔ q past s e)) (h : Run next s₀ past s) : Every p past ↔ Every q past := by
  induction h with
  | init => exact Iff.rfl
  | step run taken ih =>
    rw [Every, Every, ih]
    exact and_congr_left fun hq => step run hq taken

theorem Run.every_iff {p q : Past S E → S → E → Prop}
    (step : ∀ {past s e s'}, Run next s₀ past s → next s e = some s' → (p past s e ↔ q past s e))
    (h : Run next s₀ past s) : Every p past ↔ Every q past :=
  h.every_iff_of fun run _ taken => step run taken

/-- The run on a list of events. -/
def play (next : S → E → Option S) : Past S E → S → List E → Option (Past S E × S)
  | past, s, [] => some (past, s)
  | past, s, e :: es =>
    match next s e with
    | none => none
    | some s' => play next ((s, e) :: past) s' es

theorem Run.play {w : Past S E × S} : ∀ {es : List E} {past : Past S E} {s : S},
    Run next s₀ past s → History.play next past s es = some w → Run next s₀ w.1 w.2
  | [], past, s, h, hplay => by
    cases hplay
    exact h
  | e :: es, past, s, h, hplay => by
    unfold History.play at hplay
    split at hplay
    · cases hplay
    · rename_i s' taken
      exact (h.step taken).play hplay

end History
