import Agid.Lib.Record

/-!
# Tables of rows

A table is a list of rows.  A row is added in the place of the rows with its key (`replace`), or
only where no row of the table clashes with it (`ignore`).  A record keyed by the same key holds
what the table holds when one owner's rows are taken out and new ones of that owner added, under
conditions that `agree_replace` and `agree_ignore` give exactly.
-/

namespace Rows

variable {α κ ω : Type*}

/-- `INSERT OR IGNORE`. -/
def ignore (clashes : α → α → Bool) (rows : List α) (row : α) : List α :=
  if rows.any (clashes row) then rows else rows ++ [row]

theorem mem_ignore {clashes : α → α → Bool} {rows : List α} {row x : α} :
    x ∈ ignore clashes rows row ↔ x ∈ rows ∨ (x = row ∧ ∀ y ∈ rows, clashes row y = false) := by
  unfold ignore
  split_ifs with h
  · simp only [List.any_eq_true] at h
    obtain ⟨y, hy, hrow⟩ := h
    refine ⟨Or.inl, fun h => h.resolve_right ?_⟩
    rintro ⟨-, hnone⟩
    rw [hnone y hy] at hrow
    cases hrow
  · simp only [List.any_eq_true, not_exists, not_and, Bool.not_eq_true] at h
    rw [List.mem_append, List.mem_singleton]
    exact or_congr_right ⟨fun hx => ⟨hx, h⟩, And.left⟩

theorem mem_of_mem_foldl_ignore {clashes : α → α → Bool} {l rows : List α} {x : α}
    (h : x ∈ l.foldl (ignore clashes) rows) : x ∈ rows ∨ x ∈ l := by
  induction l generalizing rows with
  | nil => exact .inl h
  | cons a l ih =>
    rcases ih h with h | h
    · rcases mem_ignore.1 h with h | ⟨rfl, -⟩
      · exact .inl h
      · exact .inr List.mem_cons_self
    · exact .inr (List.mem_cons_of_mem _ h)

/-- Of rows that do not clash with one another, those come in that clash with no row. -/
theorem mem_foldl_ignore {clashes : α → α → Bool} {l : List α}
    (hl : l.Pairwise fun a b => clashes b a = false) {rows : List α} {x : α} :
    x ∈ l.foldl (ignore clashes) rows
      ↔ x ∈ rows ∨ (x ∈ l ∧ ∀ y ∈ rows, clashes x y = false) := by
  induction l using List.reverseRecOn generalizing x with
  | nil => simp
  | append_singleton l a ih =>
    rw [List.pairwise_append] at hl
    rw [List.foldl_concat, mem_ignore, ih hl.1, List.mem_append, List.mem_singleton]
    constructor
    · rintro ((hx | ⟨hx, hclear⟩) | ⟨rfl, hclear⟩)
      · exact .inl hx
      · exact .inr ⟨.inl hx, hclear⟩
      · exact .inr ⟨.inr rfl, fun y hy => hclear y ((ih hl.1).2 (.inl hy))⟩
    · rintro (hx | ⟨hx | rfl, hclear⟩)
      · exact .inl (.inl hx)
      · exact .inl (.inr ⟨hx, hclear⟩)
      · refine .inr ⟨rfl, fun y hy => ?_⟩
        rcases (ih hl.1).1 hy with hy | ⟨hy, -⟩
        · exact hclear y hy
        · exact hl.2.2 y hy x (List.mem_singleton_self x)

section Back

/-- What is read back of a table has the key and the owner of its row. -/
structure Reads (key : α → κ) (owner : α → ω) (back : α → α) : Prop where
  key : ∀ x, key (back x) = key x
  owner : ∀ x, owner (back x) = owner x

variable [DecidableEq ω] {key : α → κ} {owner : α → ω} {back : α → α} {rows l : List α} {o : ω}

theorem Reads.mem_without (h : Reads key owner back) {x : α} :
    x ∈ (rows.filter (owner · ≠ o)).map back ↔ x ∈ rows.map back ∧ owner x ≠ o := by
  simp only [List.mem_map, List.mem_filter, decide_eq_true_eq]
  constructor
  · rintro ⟨y, ⟨hy, ho⟩, rfl⟩
    exact ⟨⟨y, hy, rfl⟩, by rwa [h.owner]⟩
  · rintro ⟨⟨y, hy, rfl⟩, ho⟩
    exact ⟨y, ⟨hy, by rwa [h.owner] at ho⟩, rfl⟩

theorem Reads.mem_ignored (h : Reads key owner back) {clashes : α → α → Bool}
    (hclashes : ∀ x y, clashes x (back y) = clashes x y)
    (hl : l.Pairwise fun a b => clashes b a = false) {x : α} :
    x ∈ (l.foldl (ignore clashes) (rows.filter (owner · ≠ o))).map back
      ↔ (∃ y ∈ l, back y = x ∧ ∀ z ∈ rows.map back, owner z ≠ o → clashes y z = false)
        ∨ (x ∈ rows.map back ∧ owner x ≠ o) := by
  rw [← h.mem_without]
  simp only [List.mem_map (f := back), mem_foldl_ignore hl]
  have hclear : ∀ y, (∀ z ∈ rows.filter (owner · ≠ o), clashes y z = false)
      ↔ ∀ z ∈ rows.map back, owner z ≠ o → clashes y z = false := fun y => by
    constructor
    · intro hy z hz ho
      obtain ⟨w, hw, rfl⟩ := List.mem_map.1 (h.mem_without.2 ⟨hz, ho⟩)
      rw [hclashes]
      exact hy w hw
    · intro hy z hz
      have hz' := h.mem_without.1 (List.mem_map_of_mem (f := back) hz)
      rw [← hclashes]
      exact hy _ hz'.1 hz'.2
  constructor
  · rintro ⟨y, hy | ⟨hy, hfree⟩, rfl⟩
    · exact .inr ⟨y, hy, rfl⟩
    · exact .inl ⟨y, hy, rfl, by simpa only [List.mem_map] using (hclear y).1 hfree⟩
  · rintro (⟨y, hy, rfl, hfree⟩ | ⟨y, hy, rfl⟩)
    · exact ⟨y, .inr ⟨hy, (hclear y).2 (by simpa only [List.mem_map] using hfree)⟩, rfl⟩
    · exact ⟨y, .inl hy, rfl⟩

end Back

section Keyed

variable [DecidableEq κ] (key : α → κ)

/-- `INSERT OR REPLACE`. -/
def replace (rows : List α) (row : α) : List α :=
  rows.filter (key · ≠ key row) ++ [row]

/-- The last row of a list with the key of `x` is `x`. -/
def IsLast (l : List α) (x : α) : Prop :=
  (l.filter fun a => key a = key x).getLast? = some x

theorem isLast_concat {l : List α} {a x : α} :
    IsLast key (l ++ [a]) x ↔ if key a = key x then a = x else IsLast key l x := by
  unfold IsLast
  rw [List.filter_append]
  by_cases ha : key a = key x
  · simp [ha]
  · simp [ha, List.filter_cons_of_neg]

theorem IsLast.mem {l : List α} {x : α} (h : IsLast key l x) : x ∈ l :=
  List.mem_of_mem_filter (List.mem_of_getLast? h)

theorem isLast_of_nodup {l : List α} (hn : (l.map key).Nodup) {x : α} (hx : x ∈ l) :
    IsLast key l x := by
  induction l using List.reverseRecOn with
  | nil => cases hx
  | append_singleton l a ih =>
    rw [List.map_append, List.nodup_append] at hn
    rw [isLast_concat]
    rcases List.mem_append.1 hx with hx | hx
    · have hne : key a ≠ key x := fun h =>
        hn.2.2 _ (List.mem_map_of_mem hx) _ (by simp) h.symm
      rw [if_neg hne]
      exact ih hn.1 hx
    · simp [List.mem_singleton.1 hx]

theorem IsLast.eq {l : List α} {x y : α} (hx : IsLast key l x) (hy : IsLast key l y)
    (h : key x = key y) : x = y := by
  unfold IsLast at hx hy
  rw [h] at hx
  exact Option.some.inj (hx.symm.trans hy)

theorem exists_isLast {l : List α} {k : κ} (h : k ∈ l.map key) :
    ∃ x, IsLast key l x ∧ key x = k := by
  induction l using List.reverseRecOn with
  | nil => cases h
  | append_singleton l a ih =>
    by_cases ha : key a = k
    · exact ⟨a, (isLast_concat key).2 (by rw [if_pos rfl]), ha⟩
    · rw [List.map_append, List.mem_append] at h
      obtain ⟨x, hx, rfl⟩ := ih (h.resolve_right (by simpa using Ne.symm ha))
      exact ⟨x, (isLast_concat key).2 (by rwa [if_neg ha]), rfl⟩

theorem mem_replace {rows : List α} {row x : α} :
    x ∈ replace key rows row ↔ x = row ∨ (x ∈ rows ∧ key x ≠ key row) := by
  simp [replace, or_comm]

theorem mem_foldl_replace {rows l : List α} {x : α} :
    x ∈ l.foldl (replace key) rows ↔ IsLast key l x ∨ (x ∈ rows ∧ key x ∉ l.map key) := by
  induction l using List.reverseRecOn with
  | nil => simp [IsLast]
  | append_singleton l a ih =>
    rw [List.foldl_concat, mem_replace, ih, isLast_concat]
    by_cases ha : key a = key x
    · simp [ha, eq_comm]
    · have hx : x ≠ a := fun h => ha (h ▸ rfl)
      simp [ha, hx, Ne.symm ha]

/-! ## Records -/

/-- Each value stands under its own key. -/
def Keyed (r : Record κ α) : Prop := ∀ k x, r.get? k = some x → key x = k

variable {key} {r : Record κ α} {rows l : List α}

theorem Keyed.mem_values (h : Keyed key r) {x : α} :
    x ∈ r.values ↔ r.get? (key x) = some x := by
  rw [Record.mem_values]
  constructor
  · rintro ⟨k, hk⟩
    rwa [h k x hk]
  · exact fun hx => ⟨_, hx⟩

theorem keyed_empty : Keyed key (Record.empty : Record κ α) := fun _ _ h => by cases h

theorem Keyed.set (h : Keyed key r) (a : α) : Keyed key (r.set (key a) a) := fun k x hx => by
  rw [Record.get?_set] at hx
  split_ifs at hx with ha
  · rwa [← Option.some.inj hx]
  · exact h k x hx

theorem Keyed.setAll : ∀ {l : List α} {r : Record κ α}, Keyed key r →
    Keyed key (l.foldl (fun r a => r.set (key a) a) r)
  | [], _, h => h
  | a :: l, _, h => Keyed.setAll (l := l) (h.set a)

theorem Keyed.mem_setAll (h : Keyed key r) {x : α} :
    x ∈ (l.foldl (fun r a => r.set (key a) a) r).values
      ↔ IsLast key l x ∨ (x ∈ r.values ∧ key x ∉ l.map key) := by
  rw [h.setAll.mem_values, h.mem_values, Record.get?_foldl_set_last]
  unfold IsLast
  rcases hlast : (l.filter fun a => key a = key x).getLast? with _ | a
  · have hkey : key x ∉ l.map key := fun hx => by
      obtain ⟨b, hb, hkeys⟩ := exists_isLast key hx
      rw [IsLast, hkeys, hlast] at hb
      cases hb
    simp [hkey]
  · have hmem := List.mem_filter.1 (List.mem_of_getLast? hlast)
    have hkey : key x ∈ l.map key :=
      List.mem_map.2 ⟨a, hmem.1, by simpa using hmem.2⟩
    simp [hkey]

/-! ## One owner's rows again -/

section Agree

variable [DecidableEq ω] {owner : α → ω} {o : ω} {back : α → α}

theorem Reads.mem_replaced (h : Reads key owner back) {x : α} :
    x ∈ (l.foldl (replace key) (rows.filter (owner · ≠ o))).map back
      ↔ (∃ y, IsLast key l y ∧ back y = x)
        ∨ ((x ∈ rows.map back ∧ owner x ≠ o) ∧ key x ∉ l.map key) := by
  rw [← h.mem_without]
  simp only [List.mem_map (f := back), mem_foldl_replace]
  constructor
  · rintro ⟨y, hy | ⟨hy, hkey⟩, rfl⟩
    · exact .inl ⟨y, hy, rfl⟩
    · exact .inr ⟨⟨y, hy, rfl⟩, by rwa [h.key]⟩
  · rintro (⟨y, hy, rfl⟩ | ⟨⟨y, hy, rfl⟩, hkey⟩)
    · exact ⟨y, .inl hy, rfl⟩
    · exact ⟨y, .inr ⟨hy, by rwa [h.key] at hkey⟩, rfl⟩

/-- A table that replaces goes with a record exactly where the rows that come in are read back as
they are, and take the place of all the owner's rows. -/
theorem agree_replace (hback : Reads key owner back) (hr : Keyed key r)
    (hagree : ∀ x, x ∈ rows.map back ↔ x ∈ r.values) :
    (∀ x, x ∈ (l.foldl (replace key) (rows.filter (owner · ≠ o))).map back
        ↔ x ∈ (l.foldl (fun r a => r.set (key a) a) r).values)
      ↔ (∀ x, IsLast key l x → back x = x)
        ∧ ∀ x ∈ r.values, owner x = o → key x ∈ l.map key := by
  simp only [hback.mem_replaced, hr.mem_setAll, hagree]
  constructor
  · intro h
    refine ⟨fun x hx => ?_, fun x hx ho => ?_⟩
    · rcases (h x).2 (.inl hx) with ⟨y, hy, hyx⟩ | ⟨-, hkey⟩
      · have hkeys : key y = key x := by rw [← hyx, hback.key]
        rwa [IsLast.eq key hy hx hkeys] at hyx
      · exact absurd (List.mem_map_of_mem (hx.mem key)) hkey
    · by_contra hkey
      rcases (h x).2 (.inr ⟨hx, hkey⟩) with ⟨y, hy, rfl⟩ | ⟨⟨-, hne⟩, -⟩
      · exact hkey (by rw [hback.key]; exact List.mem_map_of_mem (hy.mem key))
      · exact hne ho
  · rintro ⟨hsame, hgone⟩ x
    refine or_congr ⟨?_, fun hx => ⟨x, hx, hsame x hx⟩⟩ ?_
    · rintro ⟨y, hy, rfl⟩
      rwa [hsame y hy]
    · exact ⟨fun h => ⟨h.1.1, h.2⟩, fun h => ⟨⟨h.1, fun ho => h.2 (hgone x h.1 ho)⟩, h.2⟩⟩

/-- A table that ignores goes with a record exactly where the rows added clash with no other
owner's, and take the place of all the owner's rows. -/
theorem agree_ignore (clashes : α → α → Bool) (hback : Reads key owner back) (hr : Keyed key r)
    (hagree : ∀ x, x ∈ rows.map back ↔ x ∈ r.values)
    (hclashes : ∀ x y, clashes x (back y) = clashes x y)
    (hkey : ∀ x y, key x = key y → clashes x y = true) (hl : ∀ x ∈ l, owner x = o)
    (hsame : ∀ x ∈ l, back x = x) (hfree : l.Pairwise fun a b => clashes b a = false) :
    (∀ x, x ∈ (l.foldl (ignore clashes) (rows.filter (owner · ≠ o))).map back
        ↔ x ∈ (l.foldl (fun r a => r.set (key a) a) r).values)
      ↔ (∀ x ∈ l, ∀ y ∈ r.values, owner y ≠ o → clashes x y = false)
        ∧ ∀ x ∈ r.values, owner x = o → key x ∈ l.map key := by
  have hn : (l.map key).Nodup := by
    refine List.pairwise_map.2 (hfree.imp fun hab h => ?_)
    rw [hkey _ _ h.symm] at hab
    cases hab
  have hlast : ∀ x, IsLast key l x ↔ x ∈ l := fun x => ⟨IsLast.mem key, isLast_of_nodup key hn⟩
  simp only [hback.mem_ignored hclashes hfree, hr.mem_setAll, hagree, hlast]
  constructor
  · intro h
    refine ⟨fun x hx => ?_, fun x hx ho => ?_⟩
    · rcases (h x).2 (.inl hx) with ⟨y, hy, hyx, hclear⟩ | ⟨-, hne⟩
      · rw [hsame y hy] at hyx
        rwa [← hyx]
      · exact absurd (hl x hx) hne
    · by_contra hgone
      rcases (h x).2 (.inr ⟨hx, hgone⟩) with ⟨y, hy, rfl, -⟩ | ⟨-, hne⟩
      · exact hgone (by rw [hback.key]; exact List.mem_map_of_mem hy)
      · exact hne ho
  · rintro ⟨hclear, hgone⟩ x
    refine or_congr ⟨?_, fun hx => ⟨x, hx, hsame x hx, hclear x hx⟩⟩ ?_
    · rintro ⟨y, hy, rfl, -⟩
      rwa [hsame y hy]
    · refine ⟨fun h => ⟨h.1, fun hk => ?_⟩, fun h => ⟨h.1, fun ho => h.2 (hgone x h.1 ho)⟩⟩
      obtain ⟨y, hy, hyx⟩ := List.mem_map.1 hk
      have hclash := hclear y hy x h.1 h.2
      rw [hkey y x hyx] at hclash
      cases hclash

end Agree

end Keyed

end Rows
