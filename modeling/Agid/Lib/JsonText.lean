import Mathlib

/-!
# JSON texts

A JSON value, over any numbers that are printed by a text, and the text it is written as, without
spaces.  The text of a value can be read off the front of a longer text: a reader that counts the
brackets that are open outside of strings passes over all of it, and stops at the comma or bracket
after it.  So where two texts begin with the texts of two values, these are one text.
-/

namespace JsonText

/-- The literals of code units all go by this instance. -/
instance neZero_units : NeZero 65536 := ⟨by decide⟩

/-- A text of UTF-16 code units. -/
abbrev Text := List (Fin 65536)

/-- A JSON value with numbers in `N`, the members of an object in their order. -/
inductive Value (N : Type*) where
  | null
  | bool (b : Bool)
  | number (n : N)
  | string (s : Text)
  | array (items : List (Value N))
  | object (members : List (Text × Value N))

/-- The text of ASCII characters. -/
def ascii (s : String) : Text := s.toList.map fun c => Fin.ofNat 65536 c.toNat

/-! ## Writing -/

def isHigh (c : Fin 65536) : Bool := 0xD800 ≤ c.val && c.val < 0xDC00

def isLow (c : Fin 65536) : Bool := 0xDC00 ≤ c.val && c.val < 0xE000

def hexDigit (n : ℕ) : Fin 65536 := Fin.ofNat 65536 (if n < 10 then 48 + n else 87 + n)

/-- A backslash, `u` and four digits. -/
def unicodeEscape (c : Fin 65536) : Text :=
  [92, 117, hexDigit (c.val / 4096), hexDigit (c.val / 256 % 16), hexDigit (c.val / 16 % 16),
    hexDigit (c.val % 16)]

/-- What stands in a string for a code unit that is not one of a pair of surrogates. -/
def escape (c : Fin 65536) : Text :=
  if c = 8 then [92, 98]
  else if c = 9 then [92, 116]
  else if c = 10 then [92, 110]
  else if c = 12 then [92, 102]
  else if c = 13 then [92, 114]
  else if c = 34 ∨ c = 92 then [92, c]
  else if c.val < 32 ∨ isHigh c ∨ isLow c then unicodeEscape c
  else [c]

/-- A string after its opening quote. -/
def quoted : Text → Text
  | [] => [34]
  | [c] => escape c ++ [34]
  | c :: d :: s =>
    if isHigh c && isLow d then c :: d :: quoted s else escape c ++ quoted (d :: s)

section Write

variable {N : Type*} (print : N → Text)

mutual

def write : Value N → Text
  | .null => ascii "null"
  | .bool true => ascii "true"
  | .bool false => ascii "false"
  | .number n => print n
  | .string s => 34 :: quoted s
  | .array [] => [91, 93]
  | .array (v :: items) => 91 :: (write v ++ writeItems items)
  | .object [] => [123, 125]
  | .object ((k, v) :: members) =>
    123 :: 34 :: (quoted k ++ 58 :: (write v ++ writeMembers members))

def writeItems : List (Value N) → Text
  | [] => [93]
  | v :: items => 44 :: (write v ++ writeItems items)

def writeMembers : List (Text × Value N) → Text
  | [] => [125]
  | (k, v) :: members => 44 :: 34 :: (quoted k ++ 58 :: (write v ++ writeMembers members))

end

end Write

example : write (fun n : ℕ => ascii (toString n)) (.array [.number 12, .string [34], .null])
    = ascii "[12,\"\\\"\",null]" := by decide

/-! ## Reading past a value -/

/-- Where a reader is: between tokens, in a string, or in a string after a backslash. -/
inductive Place
  | outside
  | inside
  | escaped

/-- What is left of a text where the value ends that a reader is in, `depth` brackets deep. -/
def rest : ℕ → Place → Text → Text
  | _, _, [] => []
  | depth, .inside, c :: s =>
    if c = 34 then rest depth .outside s
    else if c = 92 then rest depth .escaped s
    else rest depth .inside s
  | depth, .escaped, _ :: s => rest depth .inside s
  | depth, .outside, c :: s =>
    if c = 34 then rest depth .inside s
    else if c = 91 ∨ c = 123 then rest (depth + 1) .outside s
    else if c = 93 ∨ c = 125 then if depth = 0 then c :: s else rest (depth - 1) .outside s
    else if c = 44 ∧ depth = 0 then c :: s
    else rest depth .outside s

/-- The code units that a text outside of strings and brackets does not have. -/
def delimiters : Text := [34, 44, 91, 93, 123, 125]

def Plain (s : Text) : Prop := ∀ c ∈ s, c ∉ delimiters

instance (s : Text) : Decidable (Plain s) := List.decidableBAll (fun c => c ∉ delimiters) s

theorem rest_plain (depth : ℕ) (r : Text) :
    ∀ {s : Text}, Plain s → rest depth .outside (s ++ r) = rest depth .outside r
  | [], _ => rfl
  | c :: s, h => by
    have hc : c ∉ ([34, 44, 91, 93, 123, 125] : Text) := h c List.mem_cons_self
    simp only [List.mem_cons, List.not_mem_nil, or_false, not_or] at hc
    obtain ⟨h34, h44, h91, h93, h123, h125⟩ := hc
    rw [List.cons_append, rest, if_neg h34, if_neg (not_or.2 ⟨h91, h123⟩),
      if_neg (not_or.2 ⟨h93, h125⟩), if_neg fun h => h44 h.1]
    exact rest_plain depth r fun d hd => h d (List.mem_cons_of_mem c hd)

theorem rest_inside (depth : ℕ) (r : Text) :
    ∀ {s : Text}, (∀ c ∈ s, c ≠ 34 ∧ c ≠ 92) →
      rest depth .inside (s ++ r) = rest depth .inside r
  | [], _ => rfl
  | c :: s, h => by
    obtain ⟨h34, h92⟩ := h c List.mem_cons_self
    rw [List.cons_append, rest, if_neg h34, if_neg h92]
    exact rest_inside depth r fun d hd => h d (List.mem_cons_of_mem c hd)

theorem rest_backslash (depth : ℕ) (c : Fin 65536) (r : Text) :
    rest depth .inside (92 :: c :: r) = rest depth .inside r := by
  rw [rest, if_neg (by decide), if_pos rfl, rest]

theorem hexDigit_mem {n : ℕ} (h : n < 16) : hexDigit n ≠ 34 ∧ hexDigit n ≠ 92 := by
  interval_cases n <;> decide

theorem rest_escape (depth : ℕ) (c : Fin 65536) (r : Text) :
    rest depth .inside (escape c ++ r) = rest depth .inside r := by
  unfold escape
  split_ifs with h1 h2 h3 h4 h5 h6 h7
  iterate 6 exact rest_backslash depth _ r
  · have hc := c.isLt
    rw [unicodeEscape, List.cons_append, List.cons_append, rest_backslash]
    refine rest_inside depth r fun d hd => ?_
    simp only [List.mem_cons, List.not_mem_nil, or_false] at hd
    rcases hd with rfl | rfl | rfl | rfl <;> exact hexDigit_mem (by omega)
  · refine rest_inside depth r fun d hd => ?_
    rw [List.mem_singleton.1 hd]
    exact not_or.1 h6

theorem rest_quoted (depth : ℕ) (r : Text) :
    ∀ s : Text, rest depth .inside (quoted s ++ r) = rest depth .outside r
  | [] => by rw [quoted, List.singleton_append, rest, if_pos rfl]
  | [c] => by
    rw [quoted, List.append_assoc, rest_escape, List.singleton_append, rest, if_pos rfl]
  | c :: d :: s => by
    rw [quoted]
    split_ifs with h
    · simp only [Bool.and_eq_true, isHigh, isLow, decide_eq_true_eq] at h
      have hne : ∀ e ∈ [c, d], e ≠ 34 ∧ e ≠ 92 := by
        intro e he
        simp only [List.mem_cons, List.not_mem_nil, or_false] at he
        constructor <;> rintro rfl <;> rcases he with rfl | rfl <;> simp at h
      exact (rest_inside depth (quoted s ++ r) hne).trans (rest_quoted depth r s)
    · rw [List.append_assoc, rest_escape]
      exact rest_quoted depth r (d :: s)

theorem rest_open (depth : ℕ) {c : Fin 65536} (hc : c = 91 ∨ c = 123) (r : Text) :
    rest depth .outside (c :: r) = rest (depth + 1) .outside r := by
  rw [rest, if_neg (by rcases hc with rfl | rfl <;> decide), if_pos hc]

theorem rest_close (depth : ℕ) {c : Fin 65536} (hc : c = 93 ∨ c = 125) (r : Text) :
    rest (depth + 1) .outside (c :: r) = rest depth .outside r := by
  rw [rest, if_neg (by rcases hc with rfl | rfl <;> decide),
    if_neg (by rcases hc with rfl | rfl <;> decide), if_pos hc, if_neg depth.succ_ne_zero,
    Nat.add_sub_cancel]

theorem rest_quote (depth : ℕ) (r : Text) :
    rest depth .outside (34 :: r) = rest depth .inside r := by
  rw [rest, if_pos rfl]

theorem rest_comma (depth : ℕ) (r : Text) :
    rest (depth + 1) .outside (44 :: r) = rest (depth + 1) .outside r := by
  rw [rest, if_neg (by decide), if_neg (by decide), if_neg (by decide), if_neg (by simp)]

theorem rest_colon (depth : ℕ) (r : Text) :
    rest depth .outside (58 :: r) = rest depth .outside r :=
  rest_plain depth r (s := [58]) (by decide)

section Write

variable {N : Type*} {print : N → Text}

mutual

/-- A reader passes over the text of a value. -/
theorem rest_write (hprint : ∀ n, Plain (print n)) (depth : ℕ) (r : Text) :
    ∀ v : Value N, rest depth .outside (write print v ++ r) = rest depth .outside r
  | .null => by
    rw [write]
    exact rest_plain depth r (by decide)
  | .bool true => by
    rw [write]
    exact rest_plain depth r (by decide)
  | .bool false => by
    rw [write]
    exact rest_plain depth r (by decide)
  | .number n => by
    rw [write]
    exact rest_plain depth r (hprint n)
  | .string s => by rw [write, List.cons_append, rest_quote, rest_quoted]
  | .array [] => by
    rw [write]
    exact (rest_open depth (.inl rfl) _).trans (rest_close depth (.inl rfl) r)
  | .array (v :: items) => by
    rw [write, List.cons_append, rest_open depth (.inl rfl), List.append_assoc,
      rest_write hprint (depth + 1) _ v, rest_writeItems hprint depth r items]
  | .object [] => by
    rw [write]
    exact (rest_open depth (.inr rfl) _).trans (rest_close depth (.inr rfl) r)
  | .object ((k, v) :: members) => by
    rw [write]
    simp only [List.cons_append, List.append_assoc]
    rw [rest_open depth (.inr rfl), rest_quote, rest_quoted, rest_colon,
      rest_write hprint (depth + 1) _ v, rest_writeMembers hprint depth r members]

theorem rest_writeItems (hprint : ∀ n, Plain (print n)) (depth : ℕ) (r : Text) :
    ∀ items : List (Value N),
      rest (depth + 1) .outside (writeItems print items ++ r) = rest depth .outside r
  | [] => by
    rw [writeItems]
    exact rest_close depth (.inl rfl) r
  | v :: items => by
    rw [writeItems, List.cons_append, rest_comma, List.append_assoc,
      rest_write hprint (depth + 1) _ v, rest_writeItems hprint depth r items]

theorem rest_writeMembers (hprint : ∀ n, Plain (print n)) (depth : ℕ) (r : Text) :
    ∀ members : List (Text × Value N),
      rest (depth + 1) .outside (writeMembers print members ++ r) = rest depth .outside r
  | [] => by
    rw [writeMembers]
    exact rest_close depth (.inr rfl) r
  | (k, v) :: members => by
    rw [writeMembers]
    simp only [List.cons_append, List.append_assoc]
    rw [rest_comma, rest_quote, rest_quoted, rest_colon, rest_write hprint (depth + 1) _ v,
      rest_writeMembers hprint depth r members]

end

/-- Two texts that go on after a value with a comma or a closing bracket. -/
theorem write_append_inj (hprint : ∀ n, Plain (print n)) {v w : Value N} {c d : Fin 65536}
    {r s : Text} (hc : c = 44 ∨ c = 93 ∨ c = 125) (hd : d = 44 ∨ d = 93 ∨ d = 125)
    (h : write print v ++ c :: r = write print w ++ d :: s) :
    write print v = write print w ∧ c :: r = d :: s := by
  have stops {c : Fin 65536} (hc : c = 44 ∨ c = 93 ∨ c = 125) (r : Text) :
      rest 0 .outside (c :: r) = c :: r := by
    rcases hc with rfl | rfl | rfl <;> simp [rest]
  have hrest := congrArg (rest 0 .outside) h
  rw [rest_write hprint, rest_write hprint, stops hc, stops hd] at hrest
  rw [hrest] at h
  exact ⟨List.append_cancel_right h, hrest⟩

end Write

end JsonText
