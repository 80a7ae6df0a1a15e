import Mathlib

/-!
# Records

A record is the list of its entries in the order they were first set, one entry to a key.  `get?`
reads an entry, `set` writes one in place or at the end.
-/

/-- A record with keys in `κ` and values in `α`. -/
structure Record (κ α : Type*) where
  entries : List (κ × α)
  nodup : (entries.map Prod.fst).Nodup

namespace Record

variable {κ α : Type*} [DecidableEq κ]

/-- The value of the first entry at `k`. -/
def lookup (k : κ) : List (κ × α) → Option α
  | [] => none
  | e :: l => if e.1 = k then some e.2 else lookup k l

/-- The entries with the one at `k` replaced, or a new one at the end. -/
def upsert (k : κ) (v : α) : List (κ × α) → List (κ × α)
  | [] => [(k, v)]
  | e :: l => if e.1 = k then (k, v) :: l else e :: upsert k v l

theorem keys_upsert (k : κ) (v : α) : ∀ l : List (κ × α),
    (upsert k v l).map Prod.fst
      = if k ∈ l.map Prod.fst then l.map Prod.fst else l.map Prod.fst ++ [k]
  | [] => by simp [upsert]
  | e :: l => by
    by_cases he : e.1 = k
    · simp [upsert, he]
    · have hk : ¬ k = e.1 := fun h => he h.symm
      simp only [upsert, he, if_false, List.map_cons, keys_upsert k v l, List.mem_cons, hk,
        false_or]
      split_ifs <;> rfl

theorem nodup_upsert (k : κ) (v : α) {l : List (κ × α)} (h : (l.map Prod.fst).Nodup) :
    ((upsert k v l).map Prod.fst).Nodup := by
  rw [keys_upsert]
  split_ifs with hk
  · exact h
  · exact List.nodup_append.2 ⟨h, by simp, by
      rintro a ha b hb rfl
      simp only [List.mem_singleton] at hb
      exact hk (hb ▸ ha)⟩

theorem lookup_upsert (k k' : κ) (v : α) : ∀ l : List (κ × α),
    lookup k' (upsert k v l) = if k = k' then some v else lookup k' l
  | [] => rfl
  | e :: l => by
    by_cases he : e.1 = k
    · subst he
      by_cases h : e.1 = k' <;> simp [upsert, lookup, h]
    · rw [upsert, if_neg he, lookup, lookup, lookup_upsert k k' v l]
      by_cases h : e.1 = k'
      · rw [if_pos h, if_neg fun h' => he (h.trans h'.symm), if_pos h]
      · rw [if_neg h, if_neg h]

theorem mem_of_lookup {k : κ} {v : α} : ∀ {l : List (κ × α)}, lookup k l = some v → (k, v) ∈ l
  | [], h => by simp [lookup] at h
  | e :: l, h => by
    unfold lookup at h
    split_ifs at h with he
    · obtain ⟨a, b⟩ := e
      simp only [Option.some.injEq] at h he
      subst h he
      exact List.mem_cons_self
    · exact List.mem_cons_of_mem _ (mem_of_lookup h)

theorem lookup_of_mem {k : κ} {v : α} : ∀ {l : List (κ × α)}, (l.map Prod.fst).Nodup →
    (k, v) ∈ l → lookup k l = some v
  | e :: l, hn, h => by
    rw [List.map_cons, List.nodup_cons] at hn
    rcases List.mem_cons.1 h with rfl | h
    · simp [lookup]
    · have hne : e.1 ≠ k := fun he => hn.1 (he ▸ List.mem_map_of_mem h)
      rw [lookup, if_neg hne]
      exact lookup_of_mem hn.2 h

theorem lookup_eq_none {k : κ} : ∀ {l : List (κ × α)}, k ∉ l.map Prod.fst → lookup k l = none
  | [], _ => rfl
  | e :: l, h => by
    simp only [List.map_cons, List.mem_cons, not_or] at h
    rw [lookup, if_neg (Ne.symm h.1)]
    exact lookup_eq_none h.2

/-! ## Reading and writing -/

def empty : Record κ α := ⟨[], by simp⟩

def get? (r : Record κ α) (k : κ) : Option α := lookup k r.entries

def set (r : Record κ α) (k : κ) (v : α) : Record κ α :=
  ⟨upsert k v r.entries, nodup_upsert k v r.nodup⟩

def keys (r : Record κ α) : List κ := r.entries.map Prod.fst

def values (r : Record κ α) : List α := r.entries.map Prod.snd

@[simp] theorem get?_empty (k : κ) : (empty : Record κ α).get? k = none := rfl

theorem get?_set (r : Record κ α) (k k' : κ) (v : α) :
    (r.set k v).get? k' = if k = k' then some v else r.get? k' :=
  lookup_upsert k k' v r.entries

@[simp] theorem get?_set_self (r : Record κ α) (k : κ) (v : α) : (r.set k v).get? k = some v := by
  rw [get?_set, if_pos rfl]

theorem get?_set_of_ne (r : Record κ α) {k k' : κ} (v : α) (h : k ≠ k') :
    (r.set k v).get? k' = r.get? k' := by
  rw [get?_set, if_neg h]

theorem mem_entries {r : Record κ α} {k : κ} {v : α} : (k, v) ∈ r.entries ↔ r.get? k = some v :=
  ⟨lookup_of_mem r.nodup, mem_of_lookup⟩

theorem mem_values {r : Record κ α} {v : α} : v ∈ r.values ↔ ∃ k, r.get? k = some v := by
  simp only [values, List.mem_map, Prod.exists, exists_eq_right, mem_entries]

theorem mem_keys {r : Record κ α} {k : κ} : k ∈ r.keys ↔ ∃ v, r.get? k = some v := by
  simp only [keys, List.mem_map, Prod.exists, exists_and_right, exists_eq_right, mem_entries]

theorem upsert_of_notMem {k : κ} (v : α) : ∀ {l : List (κ × α)}, k ∉ l.map Prod.fst →
    upsert k v l = l ++ [(k, v)]
  | [], _ => rfl
  | e :: l, h => by
    simp only [List.map_cons, List.mem_cons, not_or] at h
    rw [upsert, if_neg (Ne.symm h.1), upsert_of_notMem v h.2, List.cons_append]

/-- A new key comes last. -/
theorem values_set_new {r : Record κ α} {k : κ} (v : α) (h : r.get? k = none) :
    (r.set k v).values = r.values ++ [v] := by
  have hk : k ∉ r.entries.map Prod.fst := fun hk => by
    obtain ⟨e, he, rfl⟩ := List.mem_map.1 hk
    rw [mem_entries.1 (he : (e.1, e.2) ∈ r.entries)] at h
    cases h
  simp [values, set, upsert_of_notMem v hk]

theorem values_foldl_set_new (key : α → κ) : ∀ {l : List α} {r : Record κ α},
    (l.map key).Nodup → (∀ a ∈ l, r.get? (key a) = none) →
      (l.foldl (fun r a => r.set (key a) a) r).values = r.values ++ l
  | [], r, _, _ => by simp
  | a :: l, r, hn, hr => by
    rw [List.map_cons, List.nodup_cons] at hn
    rw [List.foldl_cons, values_foldl_set_new key hn.2, values_set_new a (hr a List.mem_cons_self),
      List.append_assoc, List.singleton_append]
    intro b hb
    have hne : key a ≠ key b := fun h => hn.1 (h ▸ List.mem_map_of_mem hb)
    rw [get?_set_of_ne _ _ hne]
    exact hr b (List.mem_cons_of_mem _ hb)

def erase (r : Record κ α) (k : κ) : Record κ α :=
  ⟨r.entries.filter (·.1 ≠ k), r.nodup.sublist (List.filter_sublist.map _)⟩

theorem get?_erase (r : Record κ α) (k k' : κ) :
    (r.erase k).get? k' = if k = k' then none else r.get? k' := by
  split_ifs with hk
  · refine lookup_eq_none fun h => ?_
    obtain ⟨e, he, rfl⟩ := List.mem_map.1 h
    simp [erase, hk] at he
  · rcases hv : r.get? k' with _ | v
    · refine lookup_eq_none fun h => ?_
      obtain ⟨e, he, rfl⟩ := List.mem_map.1 h
      rw [mem_entries.1 (List.mem_of_mem_filter he : (e.1, e.2) ∈ r.entries)] at hv
      cases hv
    · refine mem_entries.1 (List.mem_filter.2 ⟨mem_entries.2 hv, ?_⟩)
      simpa using Ne.symm hk

def map {β : Type*} (f : α → β) (r : Record κ α) : Record κ β :=
  ⟨r.entries.map fun e => (e.1, f e.2), by
    rw [List.map_map]
    exact r.nodup⟩

theorem lookup_map {β : Type*} (f : α → β) (k : κ) : ∀ l : List (κ × α),
    lookup k (l.map fun e => (e.1, f e.2)) = (lookup k l).map f
  | [] => rfl
  | e :: l => by
    by_cases he : e.1 = k
    · simp [lookup, he]
    · rw [List.map_cons, lookup, if_neg he, lookup, if_neg he, lookup_map f k l]

@[simp] theorem get?_map {β : Type*} (f : α → β) (r : Record κ α) (k : κ) :
    (r.map f).get? k = (r.get? k).map f := lookup_map f k r.entries

/-- Updating a record at each of some entries with different keys: at a key, from what was there
and the entry. -/
theorem get?_foldl_set (f : Option α → α → α) (k : κ) :
    ∀ (l : List (κ × α)), (l.map Prod.fst).Nodup → ∀ r : Record κ α,
      (l.foldl (fun r e => r.set e.1 (f (r.get? e.1) e.2)) r).get? k
        = match lookup k l with
          | none => r.get? k
          | some v => some (f (r.get? k) v)
  | [], _, r => rfl
  | e :: l, hn, r => by
    rw [List.map_cons, List.nodup_cons] at hn
    rw [List.foldl_cons, get?_foldl_set f k l hn.2]
    by_cases he : e.1 = k
    · subst he
      rw [lookup_eq_none hn.1, lookup, if_pos rfl]
      exact get?_set_self _ _ _
    · rw [get?_set_of_ne _ _ he, lookup, if_neg he]

theorem get?_foldl_set_key (f : κ → α) (k : κ) : ∀ (l : List κ) (r : Record κ α),
    (l.foldl (fun r a => r.set a (f a)) r).get? k = if k ∈ l then some (f k) else r.get? k
  | [], r => rfl
  | a :: l, r => by
    rw [List.foldl_cons, get?_foldl_set_key f k l, get?_set]
    by_cases ha : a = k
    · subst ha
      simp
    · simp [ha, Ne.symm ha]

/-- Setting the elements of a list at keys of their own: the last one of a key stays. -/
theorem get?_foldl_set_last (key : α → κ) (k : κ) : ∀ (l : List α) (r : Record κ α),
    (l.foldl (fun r a => r.set (key a) a) r).get? k
      = ((l.filter fun a => key a = k).getLast?).or (r.get? k)
  | [], r => rfl
  | a :: l, r => by
    rw [List.foldl_cons, get?_foldl_set_last key k l, get?_set]
    by_cases ha : key a = k
    · rw [if_pos ha, List.filter_cons_of_pos (by simpa using ha), List.getLast?_cons]
      cases (l.filter fun a => key a = k).getLast? <;> rfl
    · rw [if_neg ha, List.filter_cons_of_neg (by simpa using ha)]

/-- `UPDATE … WHERE key = k AND p`: nothing where no entry matches. -/
def updateAt (r : Record κ α) (k : κ) (p : α → Bool) (f : α → α) : Option (Record κ α) :=
  match r.get? k with
  | some a => if p a then some (r.set k (f a)) else none
  | none => none

theorem updateAt_eq_some {r r' : Record κ α} {k : κ} {p : α → Bool} {f : α → α} :
    r.updateAt k p f = some r' ↔ ∃ a, r.get? k = some a ∧ p a = true ∧ r' = r.set k (f a) := by
  unfold updateAt
  rcases r.get? k with _ | a
  · simp
  · simp only [Option.ite_none_right_eq_some, Option.some.injEq, exists_eq_left']
    exact and_congr_right fun _ => eq_comm

theorem updateAt_eq_none {r : Record κ α} {k : κ} {p : α → Bool} {f : α → α} :
    r.updateAt k p f = none ↔ ∀ a, r.get? k = some a → p a = false := by
  unfold updateAt
  rcases r.get? k with _ | a
  · simp
  · by_cases hp : p a = true <;> simp [hp]

theorem get?_updateAt_getD (r : Record κ α) (k k' : κ) (p : α → Bool) (f : α → α) :
    ((r.updateAt k p f).getD r).get? k'
      = if k = k' then (r.get? k').map fun a => if p a then f a else a else r.get? k' := by
  rcases hu : r.updateAt k p f with _ | r'
  · rw [Option.getD_none]
    split_ifs with hk
    · subst hk
      rcases hr : r.get? k with _ | a
      · rfl
      · simp [updateAt_eq_none.1 hu a hr]
    · rfl
  · obtain ⟨a, ha, hp, rfl⟩ := updateAt_eq_some.1 hu
    rw [Option.getD_some, get?_set]
    split_ifs with hk
    · subst hk
      simp [ha, hp]
    · rfl

/-- `UPDATE … WHERE p`. -/
def updateWhere (r : Record κ α) (p : κ → α → Bool) (f : α → α) : Record κ α :=
  ⟨r.entries.map fun e => (e.1, if p e.1 e.2 then f e.2 else e.2), by
    rw [List.map_map]
    exact r.nodup⟩

theorem get?_updateWhere (r : Record κ α) (p : κ → α → Bool) (f : α → α) (k : κ) :
    (r.updateWhere p f).get? k = (r.get? k).map fun a => if p k a then f a else a := by
  have lookup_updateWhere : ∀ l : List (κ × α),
      lookup k (l.map fun e => (e.1, if p e.1 e.2 then f e.2 else e.2))
        = (lookup k l).map fun a => if p k a then f a else a := by
    intro l
    induction l with
    | nil => rfl
    | cons e l ih =>
      by_cases he : e.1 = k
      · subst he
        simp [lookup]
      · rw [List.map_cons, lookup, if_neg he, lookup, if_neg he, ih]
  exact lookup_updateWhere r.entries

omit [DecidableEq κ] in
/-- A loop over entries with different keys that only logs: what a step finds at an entry does not
depend on the steps at the others. -/
theorem foldl_found {σ ε ι : Type*} (step : σ → ε → σ) (key : ε → κ) (log : σ → Set ι)
    (found : σ → ε → Set ι) (hlog : ∀ s e, log (step s e) = log s ∪ found s e)
    (hframe : ∀ s e e', key e ≠ key e' → found (step s e) e' = found s e') :
    ∀ (l : List ε), (l.map key).Nodup → ∀ s, log (l.foldl step s) = log s ∪ ⋃ e ∈ l, found s e
  | [], _, s => by simp
  | e :: l, hn, s => by
    rw [List.map_cons, List.nodup_cons] at hn
    have hrest : ∀ e' ∈ l, found (step s e) e' = found s e' := fun e' he' =>
      hframe s e e' fun h => hn.1 (h ▸ List.mem_map_of_mem he')
    rw [List.foldl_cons, foldl_found step key log found hlog hframe l hn.2, hlog,
      Set.iUnion₂_congr hrest, Set.union_assoc]
    simp only [List.mem_cons, Set.iUnion_iUnion_eq_or_left]

end Record
