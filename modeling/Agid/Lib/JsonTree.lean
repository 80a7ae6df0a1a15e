import Agid.Lib.JsonText
import Agid.Lib.Record

/-!
# JSON values as leaves at paths

The leaves of a value with the keys that lead to them, the items of an array by an index, and the
object that a list of leaves at paths is written into.  What is selected of the leaves of a value is
read back from the object that it was written into, in the same order; so two values from which
different leaves are selected give different objects.
-/

namespace JsonTree

open JsonText (Text Value)

variable {N : Type*} (index : ℕ → Text)

/-- Neither an array nor an object. -/
def isLeaf : Value N → Bool
  | .array _ | .object _ => false
  | _ => true

mutual

def leaves : Value N → List (List Text × Value N)
  | .array items => itemLeaves 0 items
  | .object members => memberLeaves members
  | v => [([], v)]

def itemLeaves (i : ℕ) : List (Value N) → List (List Text × Value N)
  | [] => []
  | v :: items => (leaves v).map (fun l => (index i :: l.1, l.2)) ++ itemLeaves (i + 1) items

def memberLeaves : List (Text × Value N) → List (List Text × Value N)
  | [] => []
  | (k, v) :: members => (leaves v).map (fun l => (k :: l.1, l.2)) ++ memberLeaves members

end

/-- The object at a key, empty where there is none. -/
def objectAt (k : Text) (members : List (Text × Value N)) : List (Text × Value N) :=
  match Record.lookup k members with
  | some (.object inner) => inner
  | _ => []

/-- The members with a value at a path, and new objects where the path leads through none. -/
def setNested (members : List (Text × Value N)) : List Text → Value N → List (Text × Value N)
  | [], _ => members
  | [k], v => Record.upsert k v members
  | k :: path, v => Record.upsert k (.object (setNested (objectAt k members) path v)) members

def setAll (members : List (Text × Value N)) (l : List (List Text × Value N)) :
    List (Text × Value N) :=
  l.foldl (fun members l => setNested members l.1 l.2) members

mutual

/-- No object has a key twice. -/
def Proper : Value N → Prop
  | .array items => ProperItems items
  | .object members => (members.map Prod.fst).Nodup ∧ ProperMembers members
  | _ => True

def ProperItems : List (Value N) → Prop
  | [] => True
  | v :: items => Proper v ∧ ProperItems items

def ProperMembers : List (Text × Value N) → Prop
  | [] => True
  | (_, v) :: members => Proper v ∧ ProperMembers members

end

/-! ## Selecting leaves -/

/-- What to write for a leaf at a path, if anything. -/
abbrev Selection (N : Type*) := List Text → Value N → Option (Value N)

def Selection.under (f : Selection N) (k : Text) : Selection N := fun path => f (k :: path)

def select (f : Selection N) (l : List (List Text × Value N)) : List (List Text × Value N) :=
  l.filterMap fun l => (f l.1 l.2).map (l.1, ·)

theorem select_append (f : Selection N) (l l' : List (List Text × Value N)) :
    select f (l ++ l') = select f l ++ select f l' := List.filterMap_append ..

theorem select_under (f : Selection N) (k : Text) (l : List (List Text × Value N)) :
    select f (l.map fun l => (k :: l.1, l.2))
      = (select (f.under k) l).map fun l => (k :: l.1, l.2) := by
  simp only [select, List.filterMap_map, List.map_filterMap]
  refine List.filterMap_congr fun l _ => ?_
  simp only [Function.comp, Selection.under, Option.map_map]
  rfl

/-- An object, unless it is empty. -/
def objectOf : List (Text × Value N) → Option (Value N)
  | [] => none
  | member :: members => some (.object (member :: members))

def memberOf (k : Text) (v : Option (Value N)) : List (Text × Value N) :=
  (v.map fun v => (k, v)).toList

mutual

/-- The object of what is selected. -/
def prune (f : Selection N) : Value N → Option (Value N)
  | .array items => objectOf (pruneItems f 0 items)
  | .object members => objectOf (pruneMembers f members)
  | v => f [] v

def pruneItems (f : Selection N) (i : ℕ) : List (Value N) → List (Text × Value N)
  | [] => []
  | v :: items => memberOf (index i) (prune (f.under (index i)) v) ++ pruneItems f (i + 1) items

def pruneMembers (f : Selection N) : List (Text × Value N) → List (Text × Value N)
  | [] => []
  | (k, v) :: members => memberOf k (prune (f.under k) v) ++ pruneMembers f members

end

/-! ## Reading back -/

theorem memberLeaves_append (l l' : List (Text × Value N)) :
    memberLeaves index (l ++ l') = memberLeaves index l ++ memberLeaves index l' := by
  induction l with
  | nil => rfl
  | cons e l ih => simp only [List.cons_append, memberLeaves, ih, List.append_assoc]

theorem leaves_objectOf (members : List (Text × Value N)) :
    ((objectOf members).map (leaves index)).getD [] = memberLeaves index members := by
  cases members with
  | nil => rfl
  | cons member members => simp only [objectOf, Option.map_some, Option.getD_some, leaves]

theorem memberLeaves_memberOf (k : Text) (v : Option (Value N)) :
    memberLeaves index (memberOf k v)
      = ((v.map (leaves index)).getD []).map fun l => (k :: l.1, l.2) := by
  cases v with
  | none => rfl
  | some v => simp [memberOf, memberLeaves]

theorem leaves_of_isLeaf {v : Value N} (h : isLeaf v = true) : leaves index v = [([], v)] := by
  cases v <;> first | rfl | cases h

/-- A selection writes leaves for leaves. -/
def Selection.Leafy (f : Selection N) : Prop :=
  ∀ path v w, isLeaf v = true → f path v = some w → isLeaf w = true

theorem Selection.Leafy.under {f : Selection N} (h : f.Leafy) (k : Text) : (f.under k).Leafy :=
  fun path => h (k :: path)

theorem leaves_leaf {f : Selection N} (hf : f.Leafy) {v : Value N} (hv : isLeaf v = true) :
    ((f [] v).map (leaves index)).getD [] = select f (leaves index v) := by
  rw [leaves_of_isLeaf index hv]
  rcases hw : f [] v with _ | w
  · simp [select, hw]
  · simp [select, hw, leaves_of_isLeaf index (hf [] v w hv hw)]

mutual

theorem leaves_prune {f : Selection N} (hf : f.Leafy) :
    ∀ v : Value N, ((prune index f v).map (leaves index)).getD [] = select f (leaves index v)
  | .array items => by
    rw [prune, leaves_objectOf, leaves]
    exact memberLeaves_pruneItems hf 0 items
  | .object members => by
    rw [prune, leaves_objectOf, leaves]
    exact memberLeaves_pruneMembers hf members
  | .null => leaves_leaf index hf rfl
  | .bool _ => leaves_leaf index hf rfl
  | .number _ => leaves_leaf index hf rfl
  | .string _ => leaves_leaf index hf rfl

theorem memberLeaves_pruneItems {f : Selection N} (hf : f.Leafy) :
    ∀ (i : ℕ) (items : List (Value N)),
      memberLeaves index (pruneItems index f i items) = select f (itemLeaves index i items)
  | i, [] => rfl
  | i, v :: items => by
    rw [pruneItems, memberLeaves_append, memberLeaves_memberOf, leaves_prune (hf.under _) v,
      memberLeaves_pruneItems hf (i + 1) items, itemLeaves, select_append, select_under]

theorem memberLeaves_pruneMembers {f : Selection N} (hf : f.Leafy) :
    ∀ members : List (Text × Value N),
      memberLeaves index (pruneMembers index f members) = select f (memberLeaves index members)
  | [] => rfl
  | (k, v) :: members => by
    rw [pruneMembers, memberLeaves_append, memberLeaves_memberOf, leaves_prune (hf.under _) v,
      memberLeaves_pruneMembers hf members, memberLeaves, select_append, select_under]

end

/-! ## Writing -/

theorem setAll_append (members : List (Text × Value N)) (l l' : List (List Text × Value N)) :
    setAll members (l ++ l') = setAll (setAll members l) l' := List.foldl_append ..

theorem upsert_last {k : Text} {v w : Value N} : ∀ {members : List (Text × Value N)},
    k ∉ members.map Prod.fst →
      Record.upsert k w (members ++ [(k, v)]) = members ++ [(k, w)]
  | [], _ => by simp [Record.upsert]
  | e :: members, h => by
    simp only [List.map_cons, List.mem_cons, not_or] at h
    rw [List.cons_append, Record.upsert, if_neg (Ne.symm h.1), upsert_last h.2, List.cons_append]

theorem lookup_last {k : Text} {v : Value N} : ∀ {members : List (Text × Value N)},
    k ∉ members.map Prod.fst → Record.lookup k (members ++ [(k, v)]) = some v
  | [], _ => by simp [Record.lookup]
  | e :: members, h => by
    simp only [List.map_cons, List.mem_cons, not_or] at h
    rw [List.cons_append, Record.lookup, if_neg (Ne.symm h.1), lookup_last h.2]

theorem setNested_cons (members : List (Text × Value N)) (k : Text) {path : List Text}
    (hpath : path ≠ []) (v : Value N) :
    setNested members (k :: path) v
      = Record.upsert k (.object (setNested (objectAt k members) path v)) members := by
  rw [setNested]
  exact hpath

/-- Writing below one key that comes last. -/
theorem setAll_under_last {k : Text} {members : List (Text × Value N)}
    (hk : k ∉ members.map Prod.fst) :
    ∀ {l : List (List Text × Value N)}, (∀ e ∈ l, e.1 ≠ []) → ∀ inner : List (Text × Value N),
      setAll (members ++ [(k, .object inner)]) (l.map fun e => (k :: e.1, e.2))
        = members ++ [(k, .object (setAll inner l))]
  | [], _, inner => rfl
  | e :: l, hl, inner => by
    rw [List.map_cons, setAll, List.foldl_cons, setNested_cons _ _ (hl e List.mem_cons_self)]
    have hat : objectAt k (members ++ [(k, .object inner)]) = inner := by
      rw [objectAt, lookup_last hk]
    rw [hat, upsert_last hk]
    exact setAll_under_last hk (fun e he => hl e (List.mem_cons_of_mem _ he)) _

theorem setAll_under {k : Text} {members : List (Text × Value N)}
    (hk : k ∉ members.map Prod.fst) {l : List (List Text × Value N)} (hl : ∀ e ∈ l, e.1 ≠ []) :
    setAll members (l.map fun e => (k :: e.1, e.2))
      = members ++ if l = [] then [] else [(k, .object (setAll [] l))] := by
  cases l with
  | nil => simp [setAll]
  | cons e l =>
    have hat : objectAt k members = [] := by rw [objectAt, Record.lookup_eq_none hk]
    rw [List.map_cons, setAll, List.foldl_cons, setNested_cons _ _ (hl e List.mem_cons_self), hat,
      Record.upsert_of_notMem _ hk, if_neg (List.cons_ne_nil _ _)]
    exact setAll_under_last hk (fun e he => hl e (List.mem_cons_of_mem _ he)) _

theorem keys_memberOf {k key : Text} {v : Option (Value N)}
    (h : key ∈ (memberOf k v).map Prod.fst) : key = k := by
  cases v with
  | none => simp [memberOf] at h
  | some v => simpa [memberOf] using h

theorem select_paths {f : Selection N} {l : List (List Text × Value N)} (h : ∀ e ∈ l, e.1 ≠ []) :
    ∀ e ∈ select f l, e.1 ≠ [] := by
  intro e he
  obtain ⟨e', he', hsome⟩ := List.mem_filterMap.1 he
  obtain ⟨w, -, rfl⟩ := Option.map_eq_some_iff.1 hsome
  exact h e' he'

theorem itemLeaves_paths : ∀ (i : ℕ) (items : List (Value N)), ∀ e ∈ itemLeaves index i items,
    e.1 ≠ []
  | _, [], e, he => by cases he
  | i, v :: items, e, he => by
    rcases List.mem_append.1 he with he | he
    · obtain ⟨e', -, rfl⟩ := List.mem_map.1 he
      exact List.cons_ne_nil _ _
    · exact itemLeaves_paths (i + 1) items e he

theorem memberLeaves_paths : ∀ members : List (Text × Value N), ∀ e ∈ memberLeaves index members,
    e.1 ≠ []
  | [], e, he => by cases he
  | (k, v) :: members, e, he => by
    rcases List.mem_append.1 he with he | he
    · obtain ⟨e', -, rfl⟩ := List.mem_map.1 he
      exact List.cons_ne_nil _ _
    · exact memberLeaves_paths members e he

/-- Writing an object below a key, given what is written for its members and what they read. -/
theorem setAll_object {k : Text} {members inner : List (Text × Value N)}
    {l : List (List Text × Value N)} (hk : k ∉ members.map Prod.fst) (hl : ∀ e ∈ l, e.1 ≠ [])
    (hwrite : setAll [] l = inner) (hread : memberLeaves index inner = l) :
    setAll members (l.map fun e => (k :: e.1, e.2)) = members ++ memberOf k (objectOf inner) := by
  rw [setAll_under hk hl, hwrite]
  cases inner with
  | nil =>
    have hnil : l = [] := hread.symm
    rw [if_pos hnil]
    rfl
  | cons e inner =>
    have hne : l ≠ [] := by
      rintro rfl
      cases hwrite
    rw [if_neg hne]
    rfl

theorem setAll_leaf {f : Selection N} {v : Value N} (hv : leaves index v = [([], v)])
    {k : Text} {members : List (Text × Value N)} (hk : k ∉ members.map Prod.fst) :
    setAll members ((select f (leaves index v)).map fun e => (k :: e.1, e.2))
      = members ++ memberOf k (f [] v) := by
  rw [hv]
  rcases hw : f [] v with _ | w
  · simp [select, hw, setAll, memberOf]
  · simp [select, hw, setAll, memberOf, setNested, Record.upsert_of_notMem _ hk]

variable {index}

mutual

theorem setAll_select (hindex : index.Injective) {f : Selection N} (hf : f.Leafy) : ∀ {v : Value N}, Proper v →
    ∀ {k : Text} {members : List (Text × Value N)}, k ∉ members.map Prod.fst →
      setAll members ((select f (leaves index v)).map fun e => (k :: e.1, e.2))
        = members ++ memberOf k (prune index f v)
  | .array items, hv, k, members, hk => by
    rw [Proper] at hv
    rw [leaves, prune]
    exact setAll_object index hk (select_paths (itemLeaves_paths index 0 items))
      (setAll_selectItems hindex hf hv fun _ _ => List.not_mem_nil)
      (memberLeaves_pruneItems index hf 0 items)
  | .object inner, hv, k, members, hk => by
    rw [Proper] at hv
    rw [leaves, prune]
    exact setAll_object index hk (select_paths (memberLeaves_paths index inner))
      (setAll_selectMembers hindex hf hv.2 hv.1 fun _ _ => List.not_mem_nil)
      (memberLeaves_pruneMembers index hf inner)
  | .null, _, k, members, hk => setAll_leaf index rfl hk
  | .bool _, _, k, members, hk => setAll_leaf index rfl hk
  | .number _, _, k, members, hk => setAll_leaf index rfl hk
  | .string _, _, k, members, hk => setAll_leaf index rfl hk

theorem setAll_selectItems (hindex : index.Injective) {f : Selection N} (hf : f.Leafy) :
    ∀ {i : ℕ} {items : List (Value N)}, ProperItems items →
    ∀ {members : List (Text × Value N)}, (∀ j, i ≤ j → index j ∉ members.map Prod.fst) →
      setAll members (select f (itemLeaves index i items)) = members ++ pruneItems index f i items
  | i, [], _, members, _ => by simp [itemLeaves, select, setAll, pruneItems]
  | i, v :: items, hv, members, hnew => by
    rw [ProperItems] at hv
    rw [itemLeaves, select_append, select_under, setAll_append,
      setAll_select hindex (hf.under _) hv.1 (hnew i le_rfl), pruneItems, ← List.append_assoc]
    refine setAll_selectItems hindex hf hv.2 fun j hj hmem => ?_
    rw [List.map_append] at hmem
    rcases List.mem_append.1 hmem with hmem | hmem
    · exact hnew j (by omega) hmem
    · have := hindex (keys_memberOf hmem)
      omega

theorem setAll_selectMembers (hindex : index.Injective) {f : Selection N} (hf : f.Leafy) :
    ∀ {inner : List (Text × Value N)},
    ProperMembers inner → (inner.map Prod.fst).Nodup →
    ∀ {members : List (Text × Value N)}, (∀ k ∈ inner.map Prod.fst, k ∉ members.map Prod.fst) →
      setAll members (select f (memberLeaves index inner)) = members ++ pruneMembers index f inner
  | [], _, _, members, _ => by simp [memberLeaves, select, setAll, pruneMembers]
  | (k, v) :: inner, hv, hn, members, hnew => by
    rw [ProperMembers] at hv
    rw [List.map_cons, List.nodup_cons] at hn
    rw [memberLeaves, select_append, select_under, setAll_append,
      setAll_select hindex (hf.under _) hv.1 (hnew k List.mem_cons_self), pruneMembers,
      ← List.append_assoc]
    refine setAll_selectMembers hindex hf hv.2 hn.2 fun k' hk' hmem => ?_
    rw [List.map_append] at hmem
    rcases List.mem_append.1 hmem with hmem | hmem
    · exact hnew k' (List.mem_cons_of_mem _ hk') hmem
    · exact hn.1 (keys_memberOf hmem ▸ hk')

end

/-- Where different leaves are selected, different values are written. -/
theorem prune_inj {f g : Selection N} (hf : f.Leafy) (hg : g.Leafy) {v w : Value N}
    (h : prune index f v = prune index g w) :
    select f (leaves index v) = select g (leaves index w) := by
  rw [← leaves_prune index hf, ← leaves_prune index hg, h]

end JsonTree
