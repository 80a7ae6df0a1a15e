import Mathlib

/-!
# Checks that end at the first failure

A computation in `Except` that ends well did every step of it well.
-/

namespace Checks

variable {ε α β : Type}

theorem bind_eq_ok {x : Except ε α} {f : α → Except ε β} {b : β} :
    x >>= f = .ok b ↔ ∃ a, x = .ok a ∧ f a = .ok b := by
  cases x with
  | error e => simp [Bind.bind, Except.bind]
  | ok a => simp [Bind.bind, Except.bind]

theorem bind_eq_error {x : Except ε α} {f : α → Except ε β} {e : ε} :
    x >>= f = .error e ↔ x = .error e ∨ ∃ a, x = .ok a ∧ f a = .error e := by
  cases x with
  | error e => simp [Bind.bind, Except.bind]
  | ok a => simp [Bind.bind, Except.bind]

theorem eq_ok_of_toOption {x : Except ε α} {a : α} (h : x.toOption = some a) : x = .ok a := by
  rcases x with e | b
  · cases h
  · rw [Option.some.inj h]

theorem forM_eq_ok {f : α → Except ε Unit} : ∀ {l : List α},
    forM l f = .ok () ↔ ∀ a ∈ l, f a = .ok ()
  | [] => by simp [pure, Except.pure]
  | a :: l => by
    rw [List.forM_cons, bind_eq_ok, List.forall_mem_cons, forM_eq_ok]
    exact ⟨fun ⟨(), ha, hl⟩ => ⟨ha, hl⟩, fun ⟨ha, hl⟩ => ⟨(), ha, hl⟩⟩

theorem mapM_eq_ok {f : α → Except ε β} : ∀ {l : List α} {bs : List β},
    l.mapM f = .ok bs ↔ List.Forall₂ (fun a b => f a = .ok b) l bs
  | [], bs => by simp [pure, Except.pure, eq_comm]
  | a :: l, bs => by
    simp only [List.mapM_cons, bind_eq_ok, mapM_eq_ok, pure, Except.pure, Except.ok.injEq,
      List.forall₂_cons_left_iff]
    constructor
    · rintro ⟨b, hb, bs', hbs, rfl⟩
      exact ⟨b, bs', hb, hbs, rfl⟩
    · rintro ⟨b, bs', hb, hbs, rfl⟩
      exact ⟨b, hb, bs', hbs, rfl⟩

theorem exists_of_forall₂ {r : α → β → Prop} {a : α} : ∀ {l : List α} {bs : List β},
    List.Forall₂ r l bs → a ∈ l → ∃ b ∈ bs, r a b
  | _ :: _, b :: _, .cons hr h, ha => by
    rcases List.mem_cons.1 ha with rfl | ha
    · exact ⟨b, List.mem_cons_self, hr⟩
    · obtain ⟨b', hb', hr'⟩ := exists_of_forall₂ h ha
      exact ⟨b', List.mem_cons_of_mem b hb', hr'⟩
  | [], _, .nil, ha => by simp at ha

theorem exists_of_mapM {f : α → Except ε β} {l : List α} {bs : List β} (h : l.mapM f = .ok bs)
    {a : α} (ha : a ∈ l) : ∃ b ∈ bs, f a = .ok b :=
  exists_of_forall₂ (mapM_eq_ok.1 h) ha

/-- An error comes from one of the steps. -/
theorem exists_of_mapM_error {f : α → Except ε β} {e : ε} : ∀ {l : List α},
    l.mapM f = .error e → ∃ a ∈ l, f a = .error e
  | [], h => by cases h
  | a :: l, h => by
    rw [List.mapM_cons] at h
    rcases ha : f a with e' | b
    · rw [ha] at h
      obtain rfl : e' = e := Except.error.inj h
      exact ⟨a, List.mem_cons_self, ha⟩
    · rw [ha] at h
      rcases hl : l.mapM f with e' | bs
      · rw [hl] at h
        obtain rfl : e' = e := Except.error.inj h
        obtain ⟨a', ha', hf⟩ := exists_of_mapM_error hl
        exact ⟨a', List.mem_cons_of_mem a ha', hf⟩
      · rw [hl] at h
        cases h

end Checks
