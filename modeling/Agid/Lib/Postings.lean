import Agid.Lib.Record

/-!
# Inverted indexes

For each key the ids that are filed under it, without repetition; a key under which no id is left is
taken out.  What is filed is a relation of keys and ids, and putting in or taking out pairs is told by
what becomes of it.
-/

abbrev Postings (κ ι : Type*) := Record κ (List ι)

namespace Postings

variable {κ ι : Type*} [DecidableEq κ] [DecidableEq ι]

/-- The ids under a key. -/
def ids (p : Postings κ ι) (k : κ) : List ι := (p.get? k).getD []

def add (p : Postings κ ι) (k : κ) (i : ι) : Postings κ ι :=
  match p.get? k with
  | some l => p.set k (if i ∈ l then l else l ++ [i])
  | none => p.set k [i]

def remove (p : Postings κ ι) (k : κ) (i : ι) : Postings κ ι :=
  match p.get? k with
  | some l => if l.filter (· ≠ i) = [] then p.erase k else p.set k (l.filter (· ≠ i))
  | none => p

def addAll (p : Postings κ ι) (ks : List κ) (i : ι) : Postings κ ι :=
  ks.foldl (fun p k => add p k i) p

def removeAll (p : Postings κ ι) (ks : List κ) (i : ι) : Postings κ ι :=
  ks.foldl (fun p k => remove p k i) p

/-- No key is kept without ids, and none of its ids is there twice. -/
def Proper (p : Postings κ ι) : Prop := ∀ k l, p.get? k = some l → l ≠ [] ∧ l.Nodup

variable {p : Postings κ ι} {k k' : κ} {i i' : ι}

theorem ids_add : ids (add p k i) k'
    = if k = k' then if i ∈ ids p k then ids p k else ids p k ++ [i] else ids p k' := by
  unfold add ids
  rcases p.get? k with _ | l <;>
    simp only [Record.get?_set, Option.getD_none, Option.getD_some, List.not_mem_nil, if_false]
  · split_ifs with hk
    · rfl
    · rfl
  · split_ifs with hk hi
    · rfl
    · rfl
    · rfl

theorem mem_ids_add : i' ∈ ids (add p k i) k' ↔ i' ∈ ids p k' ∨ k' = k ∧ i' = i := by
  rw [ids_add]
  by_cases hk : k = k'
  · subst hk
    rw [if_pos rfl]
    split_ifs with hi
    · exact ⟨.inl, fun h => h.elim id fun h => h.2 ▸ hi⟩
    · simp
  · rw [if_neg hk]
    exact ⟨.inl, fun h => h.elim id fun h => absurd h.1.symm hk⟩

theorem ids_remove : ids (remove p k i) k'
    = if k = k' then (ids p k).filter (· ≠ i) else ids p k' := by
  unfold remove ids
  rcases hp : p.get? k with _ | l
  · by_cases hk : k = k'
    · subst hk
      simp [hp]
    · simp [hk]
  · simp only []
    split_ifs with hempty hk hk
    · rw [Record.get?_erase, if_pos hk, Option.getD_some, hempty]
      rfl
    · rw [Record.get?_erase, if_neg hk]
    · rw [Record.get?_set, if_pos hk]
      rfl
    · rw [Record.get?_set, if_neg hk]

theorem mem_ids_remove : i' ∈ ids (remove p k i) k' ↔ i' ∈ ids p k' ∧ ¬ (k' = k ∧ i' = i) := by
  rw [ids_remove]
  by_cases hk : k = k'
  · subst hk
    simp
  · have hk' : ¬ k' = k := fun h => hk h.symm
    simp [hk, hk']

theorem mem_ids_addAll {ks : List κ} :
    i' ∈ ids (addAll p ks i) k' ↔ i' ∈ ids p k' ∨ k' ∈ ks ∧ i' = i := by
  induction ks generalizing p with
  | nil => simp [addAll]
  | cons k ks ih =>
    rw [addAll, List.foldl_cons, ← addAll, ih, mem_ids_add, or_assoc, List.mem_cons, or_and_right]

theorem mem_ids_removeAll {ks : List κ} :
    i' ∈ ids (removeAll p ks i) k' ↔ i' ∈ ids p k' ∧ ¬ (k' ∈ ks ∧ i' = i) := by
  induction ks generalizing p with
  | nil => simp [removeAll]
  | cons k ks ih =>
    rw [removeAll, List.foldl_cons, ← removeAll, ih, mem_ids_remove, and_assoc, List.mem_cons,
      or_and_right, not_or]

/-! ## Proper indexes -/

theorem Proper.add (h : Proper p) : Proper (add p k i) := by
  intro k' l hl
  unfold Postings.add at hl
  rcases hp : p.get? k with _ | m <;> simp only [hp, Record.get?_set] at hl
  · split_ifs at hl with hk
    · cases hl
      exact ⟨List.cons_ne_nil _ _, List.nodup_singleton i⟩
    · exact h k' l hl
  · split_ifs at hl with hk hi
    · cases hl
      exact h k _ hp
    · cases hl
      refine ⟨List.append_ne_nil_of_right_ne_nil _ (List.cons_ne_nil _ _), ?_⟩
      exact List.nodup_append.2 ⟨(h k m hp).2, List.nodup_singleton i, fun a ha b hb => by
        rw [List.mem_singleton.1 hb]
        rintro rfl
        exact hi ha⟩
    · exact h k' l hl

theorem Proper.remove (h : Proper p) : Proper (remove p k i) := by
  intro k' l hl
  unfold Postings.remove at hl
  rcases hp : p.get? k with _ | m <;> simp only [hp] at hl
  · exact h k' l hl
  · split_ifs at hl with hempty
    · rw [Record.get?_erase] at hl
      split_ifs at hl
      exact h k' l hl
    · rw [Record.get?_set] at hl
      split_ifs at hl with hk
      · cases hl
        exact ⟨hempty, (h k m hp).2.filter _⟩
      · exact h k' l hl

theorem Proper.addAll {ks : List κ} (h : Proper p) : Proper (addAll p ks i) := by
  induction ks generalizing p with
  | nil => exact h
  | cons k ks ih => exact ih h.add

theorem Proper.removeAll {ks : List κ} (h : Proper p) : Proper (removeAll p ks i) := by
  induction ks generalizing p with
  | nil => exact h
  | cons k ks ih => exact ih h.remove

omit [DecidableEq ι] in
theorem proper_empty : Proper (Record.empty : Postings κ ι) := by
  intro k l h
  cases h

end Postings
