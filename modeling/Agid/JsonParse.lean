import Agid.Lib.JsonRead
import Agid.Proofs.JsonValues

/-!
# `JSON.parse`

What a JSON text gives as a value of the sources: of members with one name the last one counts, at
the place of the first, and the names that are array indexes come before all others.  A value whose
members stand in such an order, with safe integers for its numbers, is what its own text gives
(`parse_stringify`).
-/

namespace Agid

open JsonText

/-! ## Numbers -/

/-- The number of a text of digits. -/
def digitsValue (s : JsString) : ℕ := s.foldl (fun n c => 10 * n + (c.val - 48)) 0

/-- The safe integer that a text is the decimal of. -/
def safeInteger (s : JsString) : Option ℤ :=
  let z : ℤ := if s.head? = some 45 then -digitsValue s.tail else digitsValue s
  if js (toString z) = s ∧ -JsonNumber.MAX_SAFE_INTEGER ≤ z ∧ z ≤ JsonNumber.MAX_SAFE_INTEGER then
    some z
  else none

/-- The number of a text.  `other` reads those that are not the decimal of a safe integer, and
refuses what is no JSON number. -/
def readNumber (other : JsString → Option JsonNumber) (s : JsString) : Option JsonNumber :=
  match safeInteger s with
  | some z => some (.int z)
  | none => other s

/-! ## Members -/

/-- The array index that a name is. -/
def arrayIndex (name : JsString) : Option ℕ :=
  let n := digitsValue name
  if js (toString n) = name ∧ n < 4294967295 then some n else none

/-- A new name comes before the other one. -/
def comesBefore (name other : JsString) : Bool :=
  match arrayIndex name, arrayIndex other with
  | some m, some n => m < n
  | some _, none => true
  | none, _ => false

/-- `object[name] = value`. -/
def setMember (name : JsString) (value : JsonValue) :
    List (JsString × JsonValue) → List (JsString × JsonValue)
  | [] => [(name, value)]
  | (other, v) :: members =>
    if other = name then (name, value) :: members
    else if comesBefore name other then (name, value) :: (other, v) :: members
    else (other, v) :: setMember name value members

mutual

/-- The value that the members of each object leave when they are set one after another. -/
def settleValue : JsonValue → JsonValue
  | .null => .null
  | .bool b => .bool b
  | .number n => .number n
  | .string s => .string s
  | .array items => .array (settleItems items)
  | .object members => .object ((settleMembers members).foldl (fun o m => setMember m.1 m.2 o) [])

def settleItems : List JsonValue → List JsonValue
  | [] => []
  | v :: items => settleValue v :: settleItems items

def settleMembers : List (JsString × JsonValue) → List (JsString × JsonValue)
  | [] => []
  | (k, v) :: members => (k, settleValue v) :: settleMembers members

end

/-- `JSON.parse(text)`, none where it throws. -/
def parse (other : JsString → Option JsonNumber) (text : JsString) : Option JsonValue :=
  (read (readNumber other) text).map settleValue

/-! ## Values that keep their members -/

/-- A member is set after another one, and comes after it. -/
def Follows (name other : JsString) : Prop := name ≠ other ∧ comesBefore other name = false

instance (name other : JsString) : Decidable (Follows name other) :=
  inferInstanceAs (Decidable (_ ∧ _))

mutual

/-- The members of each object have different names, array indexes first and in their order. -/
def Settled : JsonValue → Prop
  | .null => True
  | .bool _ => True
  | .number _ => True
  | .string _ => True
  | .array items => SettledItems items
  | .object members => (members.map Prod.fst).Pairwise Follows ∧ SettledMembers members

def SettledItems : List JsonValue → Prop
  | [] => True
  | v :: items => Settled v ∧ SettledItems items

def SettledMembers : List (JsString × JsonValue) → Prop
  | [] => True
  | (_, v) :: members => Settled v ∧ SettledMembers members

end

theorem setMember_follows {name : JsString} {value : JsonValue} :
    ∀ {members : List (JsString × JsonValue)}, (∀ other ∈ members, Follows other.1 name) →
      setMember name value members = members ++ [(name, value)]
  | [], _ => rfl
  | (other, v) :: members, h => by
    obtain ⟨hne, hbefore⟩ := h (other, v) List.mem_cons_self
    rw [setMember, if_neg hne, if_neg (by rw [hbefore]; exact Bool.false_ne_true),
      setMember_follows fun m hm => h m (List.mem_cons_of_mem _ hm), List.cons_append]

theorem foldl_setMember : ∀ {members set : List (JsString × JsonValue)},
    ((set ++ members).map Prod.fst).Pairwise Follows →
      members.foldl (fun o m => setMember m.1 m.2 o) set = set ++ members
  | [], set, _ => (List.append_nil set).symm
  | (name, value) :: members, set, h => by
    have hset : ∀ other ∈ set, Follows other.1 name := by
      rw [List.map_append, List.pairwise_append] at h
      exact fun other hother => h.2.2 other.1 (List.mem_map_of_mem hother) name
        (List.mem_map_of_mem (f := Prod.fst) List.mem_cons_self)
    rw [List.foldl_cons, setMember_follows hset, foldl_setMember (by simpa using h),
      List.append_assoc, List.singleton_append]

mutual

theorem settleValue_of_settled : ∀ {v : JsonValue}, Settled v → settleValue v = v
  | .null, _ => by rw [settleValue]
  | .bool _, _ => by rw [settleValue]
  | .number _, _ => by rw [settleValue]
  | .string _, _ => by rw [settleValue]
  | .array items, h => by
    rw [Settled] at h
    rw [settleValue, settleItems_of_settled h]
  | .object members, h => by
    rw [Settled] at h
    rw [settleValue, settleMembers_of_settled h.2, foldl_setMember (by simpa using h.1),
      List.nil_append]

theorem settleItems_of_settled : ∀ {items : List JsonValue}, SettledItems items →
    settleItems items = items
  | [], _ => by rw [settleItems]
  | v :: items, h => by
    rw [SettledItems] at h
    rw [settleItems, settleValue_of_settled h.1, settleItems_of_settled h.2]

theorem settleMembers_of_settled : ∀ {members : List (JsString × JsonValue)},
    SettledMembers members → settleMembers members = members
  | [], _ => by rw [settleMembers]
  | (k, v) :: members, h => by
    rw [SettledMembers] at h
    rw [settleMembers, settleValue_of_settled h.1, settleMembers_of_settled h.2]

end

/-! ## The text of a value -/

theorem val_unit {c : Char} (hc : c.toNat < 65536) : (Fin.ofNat 65536 c.toNat).val = c.toNat := by
  rw [Fin.val_ofNat, Nat.mod_eq_of_lt hc]

theorem foldl_digits : ∀ {l : List Char} (n : ℕ), (∀ c ∈ l, c.toNat < 65536) →
    (l.map fun c => Fin.ofNat 65536 c.toNat).foldl (fun n c => 10 * n + (c.val - 48)) n
      = Nat.ofDigitChars 10 l n
  | [], _, _ => by rw [Nat.ofDigitChars_nil]; rfl
  | c :: l, n, h => by
    rw [List.map_cons, List.foldl_cons, val_unit (h c List.mem_cons_self),
      foldl_digits _ fun d hd => h d (List.mem_cons_of_mem c hd), Nat.ofDigitChars_cons]
    rfl

theorem digitsValue_repr (n : ℕ) : digitsValue (js (toString n)) = n := by
  have hdigits : ∀ c ∈ (toString (n : ℤ)).toList, c.toNat < 65536 := fun c hc => by
    have := toNat_of_mem_repr hc
    omega
  have hlist : (toString n).toList = Nat.toDigits 10 n := Nat.toList_repr
  rw [digitsValue, js]
  refine (foldl_digits 0 hdigits).trans ?_
  rw [show (toString (n : ℤ)).toList = (toString n).toList from rfl, hlist,
    Nat.ofDigitChars_ten_toDigits]

/-- An integer that is written by its digits. -/
def IsSafe (n : JsonNumber) : Prop :=
  ∃ z, n = .int z ∧ -JsonNumber.MAX_SAFE_INTEGER ≤ z ∧ z ≤ JsonNumber.MAX_SAFE_INTEGER

theorem js_toString_negSucc (n : ℕ) :
    js (toString (Int.negSucc n)) = 45 :: js (toString (n + 1)) := by
  rw [Int.toString_eq_repr, Int.repr_eq_if, if_neg (by omega), js, String.toList_append,
    List.map_append]
  rfl

theorem head_js_toString {n : ℕ} {c : CodeUnit} (h : (js (toString n)).head? = some c) :
    isDigit c = true := by
  rw [js, show (toString n).toList = Nat.toDigits 10 n from Nat.toList_repr, List.head?_map,
    Option.map_eq_some_iff] at h
  obtain ⟨d, hd, rfl⟩ := h
  have hdigit := Nat.isDigit_of_mem_toDigits (by decide) (by decide)
    (List.mem_of_head? hd)
  simp only [Char.isDigit, Bool.and_eq_true, decide_eq_true_eq] at hdigit
  have hlow : 48 ≤ d.toNat := hdigit.1
  have hhigh : d.toNat ≤ 57 := hdigit.2
  rw [isDigit, val_unit (by omega)]
  simp [hlow, hhigh]

/-- A name that begins with no digit comes after every other one. -/
theorem arrayIndex_eq_none {name : JsString} (h : name.head?.all isDigit = false) :
    arrayIndex name = none := by
  rw [arrayIndex]
  refine if_neg fun hindex => ?_
  rcases name with _ | ⟨c, name⟩
  · cases h
  · have hdigit := head_js_toString (n := digitsValue (c :: name)) (by rw [hindex.1]; rfl)
    rw [List.head?_cons, Option.all_some, hdigit] at h
    cases h

theorem pairwise_follows {names : List JsString} (hnodup : names.Nodup)
    (h : ∀ name ∈ names, name.head?.all isDigit = false) : names.Pairwise Follows := by
  refine List.Pairwise.imp_of_mem (fun {one other} _ hother hne => ⟨hne, ?_⟩) hnodup
  rw [comesBefore, arrayIndex_eq_none (h other hother)]

theorem safeInteger_repr {z : ℤ}
    (hz : -JsonNumber.MAX_SAFE_INTEGER ≤ z ∧ z ≤ JsonNumber.MAX_SAFE_INTEGER) :
    safeInteger (js (toString z)) = some z := by
  have hvalue : (if (js (toString z)).head? = some 45 then -(digitsValue (js (toString z)).tail : ℤ)
      else digitsValue (js (toString z))) = z := by
    rcases z with n | n
    · rw [show js (toString (Int.ofNat n)) = js (toString n) from rfl,
        if_neg fun h => absurd (head_js_toString h) (by decide)]
      exact congrArg Int.ofNat (digitsValue_repr n)
    · rw [js_toString_negSucc, List.head?_cons, if_pos rfl, List.tail_cons, digitsValue_repr]
      rfl
  rw [safeInteger]
  simp only [hvalue]
  rw [if_pos ⟨trivial, hz⟩]

theorem reads_safe (other : JsString → Option JsonNumber) {n : JsonNumber} (hn : IsSafe n) :
    Reads (readNumber other) JsonNumber.json n := by
  obtain ⟨z, rfl, hz⟩ := hn
  have hunits : ∀ c ∈ js (toString z), isNumberUnit c = true := by
    intro c hc
    obtain ⟨d, hd, rfl⟩ := List.mem_map.1 hc
    have := toNat_of_mem_repr hd
    simp only [isNumberUnit, val_unit (show d.toNat < 65536 by omega)]
    rcases this with h45 | ⟨hlow, hhigh⟩
    · rw [h45]
      decide
    · simp [hlow, hhigh]
  refine ⟨?_, hunits, ?_⟩
  · intro hnil
    have := safeInteger_repr hz
    rw [show js (toString z) = [] from hnil] at this
    have hz0 : safeInteger [] = none := by decide
    rw [hz0] at this
    cases this
  · rw [readNumber, show JsonNumber.json (.int z) = js (toString z) from rfl, safeInteger_repr hz]

/-- A value that its text gives. -/
structure Written (v : JsonValue) : Prop where
  settled : Settled v
  safe : Numbers IsSafe v

theorem parse_stringify (other : JsString → Option JsonNumber) {v : JsonValue} (hv : Written v) :
    parse other (stringify v) = some v := by
  rw [parse, stringify, read_write (hv.safe.imp fun _ => reads_safe other), Option.map_some,
    settleValue_of_settled hv.settled]

namespace Written

theorem null : Written .null where
  settled := by rw [Settled]; trivial
  safe := by rw [Numbers]; trivial

theorem bool (b : Bool) : Written (.bool b) where
  settled := by rw [Settled]; trivial
  safe := by rw [Numbers]; trivial

theorem string (s : JsString) : Written (.string s) where
  settled := by rw [Settled]; trivial
  safe := by rw [Numbers]; trivial

theorem number {n : JsonNumber} (h : IsSafe n) : Written (.number n) where
  settled := by rw [Settled]; trivial
  safe := by rw [Numbers]; exact h

theorem natural {n : ℕ} (h : (n : ℤ) ≤ JsonNumber.MAX_SAFE_INTEGER) :
    Written (.number (.int n)) := by
  have hleast : -JsonNumber.MAX_SAFE_INTEGER ≤ 0 := by decide
  exact number ⟨n, rfl, by omega, h⟩

theorem array {items : List JsonValue} (h : ∀ v ∈ items, Written v) : Written (.array items) := by
  have hitems : SettledItems items ∧ NumbersItems IsSafe items := by
    induction items with
    | nil =>
      rw [SettledItems, NumbersItems]
      exact ⟨trivial, trivial⟩
    | cons v items ih =>
      have hv := h v List.mem_cons_self
      obtain ⟨hsettled, hsafe⟩ := ih fun w hw => h w (List.mem_cons_of_mem v hw)
      rw [SettledItems, NumbersItems]
      exact ⟨⟨hv.settled, hsettled⟩, hv.safe, hsafe⟩
  constructor
  · rw [Settled]
    exact hitems.1
  · rw [Numbers]
    exact hitems.2

theorem members {members : List (JsString × JsonValue)}
    (hnames : (members.map Prod.fst).Pairwise Follows) (h : ∀ m ∈ members, Written m.2) :
    Written (.object members) := by
  have hmembers : SettledMembers members ∧ NumbersMembers IsSafe members := by
    clear hnames
    induction members with
    | nil =>
      rw [SettledMembers, NumbersMembers]
      exact ⟨trivial, trivial⟩
    | cons m members ih =>
      have hm := h m List.mem_cons_self
      obtain ⟨hsettled, hsafe⟩ := ih fun w hw => h w (List.mem_cons_of_mem m hw)
      rw [SettledMembers, NumbersMembers]
      exact ⟨⟨hm.settled, hsettled⟩, hm.safe, hsafe⟩
  constructor
  · rw [Settled]
    exact ⟨hnames, hmembers.1⟩
  · rw [Numbers]
    exact hmembers.2

theorem object {members : List (JsString × JsonValue)} (hnodup : (members.map Prod.fst).Nodup)
    (hnames : ∀ name ∈ members.map Prod.fst, name.head?.all isDigit = false)
    (h : ∀ m ∈ members, Written m.2) : Written (.object members) :=
  Written.members (pairwise_follows hnodup hnames) h

end Written

end Agid
