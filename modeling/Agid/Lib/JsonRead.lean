import Agid.Lib.JsonText

/-!
# Reading JSON texts

A reader of JSON texts with spaces between tokens, over any reader of numbers.  It reads the members
of an object in their order, so that what becomes of a repeated name is left to whoever asks.  What
is written is read again (`read_write`), where every number of it is.
-/

namespace JsonText

/-! ## Tokens -/

def isSpace (c : Fin 65536) : Bool := c = 32 || c = 9 || c = 10 || c = 13

def skip (s : Text) : Text := s.dropWhile isSpace

/-- The value of a hexadecimal digit. -/
def hexUnit (c : Fin 65536) : Option ℕ :=
  if 48 ≤ c.val ∧ c.val ≤ 57 then some (c.val - 48)
  else if 65 ≤ c.val ∧ c.val ≤ 70 then some (c.val - 55)
  else if 97 ≤ c.val ∧ c.val ≤ 102 then some (c.val - 87)
  else none

/-- The code unit of four hexadecimal digits. -/
def fourUnits (a b c d : Fin 65536) : Option (Fin 65536) := do
  let a ← hexUnit a
  let b ← hexUnit b
  let c ← hexUnit c
  let d ← hexUnit d
  some (Fin.ofNat 65536 (a * 4096 + b * 256 + c * 16 + d))

/-- The code unit that a letter after a backslash stands for. -/
def unescaped (c : Fin 65536) : Option (Fin 65536) :=
  if c = 34 ∨ c = 92 ∨ c = 47 then some c
  else if c = 98 then some 8
  else if c = 102 then some 12
  else if c = 110 then some 10
  else if c = 114 then some 13
  else if c = 116 then some 9
  else none

/-- A string after its opening quote, and what follows its closing one. -/
def readString : Text → Option (Text × Text)
  | [] => none
  | c :: s =>
    if c = 34 then some ([], s)
    else if c = 92 then
      match s with
      | [] => none
      | e :: s =>
        if e = 117 then
          match s with
          | h1 :: h2 :: h3 :: h4 :: s => do
            let u ← fourUnits h1 h2 h3 h4
            (readString s).map fun (t, r) => (u :: t, r)
          | _ => none
        else do
          let u ← unescaped e
          (readString s).map fun (t, r) => (u :: t, r)
    else if c.val < 32 then none
    else (readString s).map fun (t, r) => (c :: t, r)

def isNumberUnit (c : Fin 65536) : Bool :=
  48 ≤ c.val && c.val ≤ 57 || c = 43 || c = 45 || c = 46 || c = 69 || c = 101

/-- What follows a token, where a text begins with it. -/
def after (token s : Text) : Option Text :=
  if token.isPrefixOf s then some (s.drop token.length) else none

section Read

variable {N : Type} (number : Text → Option N)

/-- A value that is no string, array or object. -/
def readPlain (s : Text) : Option (Value N × Text) :=
  match after (ascii "null") s, after (ascii "true") s, after (ascii "false") s with
  | some r, _, _ => some (.null, r)
  | _, some r, _ => some (.bool true, r)
  | _, _, some r => some (.bool false, r)
  | none, none, none =>
    (number (s.takeWhile isNumberUnit)).map fun n => (.number n, s.dropWhile isNumberUnit)

mutual

/-- A value, and what follows it. -/
def readValue : ℕ → Text → Option (Value N × Text)
  | 0, _ => none
  | fuel + 1, s =>
    match skip s with
    | [] => none
    | c :: t =>
      if c = 34 then (readString t).map fun (k, r) => (.string k, r)
      else if c = 91 then
        match after [93] (skip t) with
        | some r => some (.array [], r)
        | none => (readItems fuel t).map fun (items, r) => (.array items, r)
      else if c = 123 then
        match after [125] (skip t) with
        | some r => some (.object [], r)
        | none => (readMembers fuel t).map fun (members, r) => (.object members, r)
      else readPlain number (c :: t)

/-- The items of an array after its bracket. -/
def readItems : ℕ → Text → Option (List (Value N) × Text)
  | 0, _ => none
  | fuel + 1, s => do
    let (v, r) ← readValue fuel s
    match after [93] (skip r), after [44] (skip r) with
    | some u, _ => some ([v], u)
    | none, some u => (readItems fuel u).map fun (items, r) => (v :: items, r)
    | none, none => none

/-- The members of an object after its bracket. -/
def readMembers : ℕ → Text → Option (List (Text × Value N) × Text)
  | 0, _ => none
  | fuel + 1, s => do
    let (k, r) ← readString (← after [34] (skip s))
    let (v, r) ← readValue fuel (← after [58] (skip r))
    match after [125] (skip r), after [44] (skip r) with
    | some u, _ => some ([(k, v)], u)
    | none, some u => (readMembers fuel u).map fun (members, r) => ((k, v) :: members, r)
    | none, none => none

end

/-- The value of a text that is that of one value. -/
def read (s : Text) : Option (Value N) := do
  let (v, r) ← readValue number (2 * s.length) s
  if skip r = [] then some v else none

end Read

example : (read (fun s => some s.length) (ascii " [12 ,\"\\u0041\"] ")).map
    (write fun n => ascii (toString n)) = some (ascii "[2,\"A\"]") := by decide +kernel

/-! ## Strings -/

theorem hexUnit_hexDigit {n : ℕ} (h : n < 16) : hexUnit (hexDigit n) = some n := by
  interval_cases n <;> decide

theorem fourUnits_hexDigit (c : Fin 65536) :
    fourUnits (hexDigit (c.val / 4096)) (hexDigit (c.val / 256 % 16))
      (hexDigit (c.val / 16 % 16)) (hexDigit (c.val % 16)) = some c := by
  have hc := c.isLt
  rw [fourUnits, hexUnit_hexDigit (by omega), hexUnit_hexDigit (by omega),
    hexUnit_hexDigit (by omega), hexUnit_hexDigit (by omega)]
  simp only [Option.bind_eq_bind, Option.bind_some, Option.some_inj]
  apply Fin.ext
  rw [Fin.val_ofNat]
  omega

theorem readString_unicode (c : Fin 65536) (r : Text) :
    readString (unicodeEscape c ++ r) = (readString r).map fun (t, u) => (c :: t, u) := by
  rw [unicodeEscape]
  simp only [List.cons_append, List.nil_append]
  rw [readString, if_neg (by decide), if_pos rfl]
  simp only [if_pos]
  rw [fourUnits_hexDigit]
  rfl

theorem readString_short {c e : Fin 65536} (he : e ≠ 117) (hc : unescaped e = some c) (r : Text) :
    readString (92 :: e :: r) = (readString r).map fun (t, u) => (c :: t, u) := by
  rw [readString.eq_def]
  dsimp only
  rw [if_neg (by decide), if_pos rfl, if_neg he, hc]
  rfl

theorem readString_plain {c : Fin 65536} (hquote : c ≠ 34) (hslash : c ≠ 92) (hlow : ¬ c.val < 32)
    (r : Text) :
    readString (c :: r) = (readString r).map fun (t, u) => (c :: t, u) := by
  rw [readString.eq_def]
  dsimp only
  rw [if_neg hquote, if_neg hslash, if_neg hlow]

theorem readString_quote (r : Text) : readString (34 :: r) = some ([], r) := by
  rw [readString.eq_def]
  dsimp only
  rw [if_pos rfl]

theorem readString_escape (c : Fin 65536) (r : Text) :
    readString (escape c ++ r) = (readString r).map fun (t, u) => (c :: t, u) := by
  unfold escape
  split_ifs with h1 h2 h3 h4 h5 h6 h7
  · exact readString_short (by decide) (by rw [h1]; decide) r
  · exact readString_short (by decide) (by rw [h2]; decide) r
  · exact readString_short (by decide) (by rw [h3]; decide) r
  · exact readString_short (by decide) (by rw [h4]; decide) r
  · exact readString_short (by decide) (by rw [h5]; decide) r
  · refine readString_short ?_ ?_ r
    · rcases h6 with rfl | rfl <;> decide
    · rcases h6 with rfl | rfl <;> decide
  · exact readString_unicode c r
  · exact readString_plain (fun h => h6 (.inl h)) (fun h => h6 (.inr h))
      (fun h => h7 (.inl h)) r

theorem readString_quoted (r : Text) : ∀ s : Text, readString (quoted s ++ r) = some (s, r)
  | [] => by rw [quoted, List.singleton_append, readString_quote]
  | [c] => by
    rw [quoted, List.append_assoc, readString_escape, List.singleton_append, readString_quote]
    rfl
  | c :: d :: s => by
    rw [quoted]
    split_ifs with h
    · simp only [Bool.and_eq_true, isHigh, isLow, decide_eq_true_eq] at h
      rw [List.cons_append, List.cons_append,
        readString_plain (by rintro rfl; simp at h) (by rintro rfl; simp at h) (by omega),
        readString_plain (by rintro rfl; simp at h) (by rintro rfl; simp at h) (by omega),
        readString_quoted r s]
      rfl
    · rw [List.append_assoc, readString_escape, readString_quoted r (d :: s)]
      rfl

/-! ## Values -/

/-- What can follow a value in the text of another one. -/
def Ends (r : Text) : Prop := ∀ c ∈ r.head?, c = 44 ∨ c = 93 ∨ c = 125

theorem Ends.nil : Ends [] := by simp [Ends]

theorem Ends.cons {c : Fin 65536} (hc : c = 44 ∨ c = 93 ∨ c = 125) (r : Text) :
    Ends (c :: r) := by
  intro d hd
  obtain rfl := Option.some.inj hd
  exact hc

theorem skip_of_head {c : Fin 65536} (hc : isSpace c = false) (r : Text) :
    skip (c :: r) = c :: r := by
  rw [skip, List.dropWhile_cons, if_neg (by rw [hc]; exact Bool.false_ne_true)]

theorem Ends.skip {r : Text} (h : Ends r) : skip r = r := by
  rcases r with _ | ⟨c, r⟩
  · rfl
  · refine skip_of_head ?_ r
    rcases h c rfl with rfl | rfl | rfl <;> decide

section Read

variable {N : Type} {number : Text → Option N} {print : N → Text}

mutual

/-- All numbers of a value have the property. -/
def Numbers (p : N → Prop) : Value N → Prop
  | .null => True
  | .bool _ => True
  | .number n => p n
  | .string _ => True
  | .array items => NumbersItems p items
  | .object members => NumbersMembers p members

def NumbersItems (p : N → Prop) : List (Value N) → Prop
  | [] => True
  | v :: items => Numbers p v ∧ NumbersItems p items

def NumbersMembers (p : N → Prop) : List (Text × Value N) → Prop
  | [] => True
  | (_, v) :: members => Numbers p v ∧ NumbersMembers p members

end

mutual

theorem Numbers.imp {p q : N → Prop} (hpq : ∀ n, p n → q n) :
    ∀ {v : Value N}, Numbers p v → Numbers q v
  | .null, _ => by rw [Numbers]; trivial
  | .bool _, _ => by rw [Numbers]; trivial
  | .number n, h => by rw [Numbers] at h ⊢; exact hpq n h
  | .string _, _ => by rw [Numbers]; trivial
  | .array items, h => by rw [Numbers] at h ⊢; exact NumbersItems.imp hpq h
  | .object members, h => by rw [Numbers] at h ⊢; exact NumbersMembers.imp hpq h

theorem NumbersItems.imp {p q : N → Prop} (hpq : ∀ n, p n → q n) :
    ∀ {items : List (Value N)}, NumbersItems p items → NumbersItems q items
  | [], _ => by rw [NumbersItems]; trivial
  | v :: items, h => by
    rw [NumbersItems] at h ⊢
    exact ⟨h.1.imp hpq, NumbersItems.imp hpq h.2⟩

theorem NumbersMembers.imp {p q : N → Prop} (hpq : ∀ n, p n → q n) :
    ∀ {members : List (Text × Value N)}, NumbersMembers p members → NumbersMembers q members
  | [], _ => by rw [NumbersMembers]; trivial
  | (k, v) :: members, h => by
    rw [NumbersMembers] at h ⊢
    exact ⟨h.1.imp hpq, NumbersMembers.imp hpq h.2⟩

end

/-- What is printed for a number is a text of a number, and is read as it. -/
structure Reads (number : Text → Option N) (print : N → Text) (n : N) : Prop where
  nonempty : print n ≠ []
  units : ∀ c ∈ print n, isNumberUnit c = true
  reads : number (print n) = some n

theorem head_of_units {s : Text} (hne : s ≠ []) (h : ∀ c ∈ s, isNumberUnit c = true) :
    ∃ c t, s = c :: t ∧ isSpace c = false ∧ c ≠ 34 ∧ c ≠ 91 ∧ c ≠ 123 ∧ c ≠ 110 ∧ c ≠ 116
      ∧ c ≠ 102 := by
  obtain ⟨c, t, rfl⟩ := List.exists_cons_of_ne_nil hne
  have hc := h c List.mem_cons_self
  have hnot {d : Fin 65536} (hd : isNumberUnit d = false) : c ≠ d := by
    rintro rfl
    rw [hd] at hc
    cases hc
  refine ⟨c, t, rfl, ?_, hnot (by decide), hnot (by decide), hnot (by decide), hnot (by decide),
    hnot (by decide), hnot (by decide)⟩
  simp only [isSpace, Bool.or_eq_false_iff, decide_eq_false_iff_not]
  exact ⟨⟨⟨hnot (by decide), hnot (by decide)⟩, hnot (by decide)⟩, hnot (by decide)⟩

theorem after_append (token r : Text) : after token (token ++ r) = some r := by
  rw [after, if_pos (List.isPrefixOf_iff_prefix.2 (List.prefix_append token r)),
    List.drop_left]

theorem after_cons_ne {a c : Fin 65536} (hc : c ≠ a) (token r : Text) :
    after (a :: token) (c :: r) = none := by
  rw [after, if_neg]
  simp only [List.isPrefixOf_cons_cons, Bool.and_eq_true, beq_iff_eq, not_and]
  exact fun h => absurd h.symm hc

theorem readPlain_number {n : N} (hn : Reads number print n) {r : Text} (hr : Ends r) :
    readPlain number (print n ++ r) = some (.number n, r) := by
  obtain ⟨c, t, hprint, -, -, -, -, h110, h116, h102⟩ := head_of_units hn.nonempty hn.units
  have hstop : r.takeWhile isNumberUnit = [] ∧ r.dropWhile isNumberUnit = r := by
    rcases r with _ | ⟨d, r⟩
    · exact ⟨rfl, rfl⟩
    · have hd : isNumberUnit d = false := by
        rcases hr d rfl with rfl | rfl | rfl <;> decide
      simp [hd]
  have htake : (print n ++ r).takeWhile isNumberUnit = print n := by
    rw [List.takeWhile_append_of_pos hn.units, hstop.1, List.append_nil]
  have hdrop : (print n ++ r).dropWhile isNumberUnit = r := by
    rw [List.dropWhile_append_of_pos hn.units, hstop.2]
  have hnone {a : Fin 65536} (ha : c ≠ a) (token : Text) :
      after (a :: token) (print n ++ r) = none := by
    rw [hprint]
    exact after_cons_ne ha token _
  unfold readPlain
  rw [show ascii "null" = 110 :: [117, 108, 108] from by decide,
    show ascii "true" = 116 :: [114, 117, 101] from by decide,
    show ascii "false" = 102 :: [97, 108, 115, 101] from by decide, hnone h110, hnone h116,
    hnone h102, htake, hdrop, hn.reads]
  rfl

theorem head_write {v : Value N} (hv : Numbers (Reads number print) v) :
    ∃ c t, write print v = c :: t ∧ isSpace c = false ∧ c ≠ 93 ∧ c ≠ 125 := by
  rcases v with _ | b | n | s | items | members
  · exact ⟨110, [117, 108, 108], by rw [write]; decide, by decide, by decide, by decide⟩
  · cases b
    · exact ⟨102, [97, 108, 115, 101], by rw [write]; decide, by decide, by decide, by decide⟩
    · exact ⟨116, [114, 117, 101], by rw [write]; decide, by decide, by decide, by decide⟩
  · rw [Numbers] at hv
    rw [write]
    obtain ⟨c, t, hprint⟩ := List.exists_cons_of_ne_nil hv.nonempty
    have hc := hv.units c (hprint ▸ List.mem_cons_self)
    refine ⟨c, t, hprint, ?_, ?_, ?_⟩
    · obtain ⟨c', t', hprint', hspace, -⟩ := head_of_units hv.nonempty hv.units
      obtain ⟨rfl, -⟩ := List.cons.inj (hprint.symm.trans hprint')
      exact hspace
    · rintro rfl
      exact absurd hc (by decide)
    · rintro rfl
      exact absurd hc (by decide)
  · exact ⟨34, _, by rw [write], by decide, by decide, by decide⟩
  · rcases items with _ | ⟨v, items⟩
    · exact ⟨91, _, by rw [write], by decide, by decide, by decide⟩
    · exact ⟨91, _, by rw [write], by decide, by decide, by decide⟩
  · rcases members with _ | ⟨⟨k, v⟩, members⟩
    · exact ⟨123, _, by rw [write], by decide, by decide, by decide⟩
    · exact ⟨123, _, by rw [write], by decide, by decide, by decide⟩

theorem length_writeItems_pos (print : N → Text) (items : List (Value N)) :
    0 < (writeItems print items).length := by
  cases items with
  | nil => rw [writeItems]; exact Nat.zero_lt_one
  | cons v items => rw [writeItems]; exact Nat.succ_pos _

theorem length_writeMembers_pos (print : N → Text) (members : List (Text × Value N)) :
    0 < (writeMembers print members).length := by
  cases members with
  | nil => rw [writeMembers]; exact Nat.zero_lt_one
  | cons member members => rw [writeMembers]; exact Nat.succ_pos _

theorem ends_writeItems (items : List (Value N)) (r : Text) :
    Ends (writeItems print items ++ r) := by
  cases items with
  | nil => rw [writeItems]; exact Ends.cons (.inr (.inl rfl)) _
  | cons v items => rw [writeItems]; exact Ends.cons (.inl rfl) _

theorem ends_writeMembers (members : List (Text × Value N)) (r : Text) :
    Ends (writeMembers print members ++ r) := by
  cases members with
  | nil => rw [writeMembers]; exact Ends.cons (.inr (.inr rfl)) _
  | cons member members =>
    rw [writeMembers]
    exact Ends.cons (.inl rfl) _

theorem readPlain_null (r : Text) :
    readPlain number (ascii "null" ++ r) = some (.null, r) := by
  unfold readPlain
  rw [after_append]

theorem readPlain_true (r : Text) :
    readPlain number (ascii "true" ++ r) = some (.bool true, r) := by
  have hnull : after (ascii "null") (ascii "true" ++ r) = none :=
    after_cons_ne (by decide) [117, 108, 108] _
  unfold readPlain
  rw [after_append, hnull]

theorem readPlain_false (r : Text) :
    readPlain number (ascii "false" ++ r) = some (.bool false, r) := by
  have hnull : after (ascii "null") (ascii "false" ++ r) = none :=
    after_cons_ne (by decide) [117, 108, 108] _
  have htrue : after (ascii "true") (ascii "false" ++ r) = none :=
    after_cons_ne (by decide) [114, 117, 101] _
  unfold readPlain
  rw [after_append, hnull, htrue]

/-- A value that is no string, array or object is read as its own text. -/
theorem readValue_plain {fuel : ℕ} {c : Fin 65536} {t : Text} (hspace : isSpace c = false)
    (h34 : c ≠ 34) (h91 : c ≠ 91) (h123 : c ≠ 123) :
    readValue number (fuel + 1) (c :: t) = readPlain number (c :: t) := by
  rw [readValue, skip_of_head hspace]
  dsimp only
  rw [if_neg h34, if_neg h91, if_neg h123]

mutual

/-- The text of a value is read as the value, whatever follows it. -/
theorem readValue_write : ∀ {v : Value N} {fuel : ℕ} {r : Text}, Numbers (Reads number print) v →
    2 * (write print v).length ≤ fuel → Ends r →
    readValue number fuel (write print v ++ r) = some (v, r)
  | .null, 0, r, _, hfuel, _ => by simp [write, ascii] at hfuel
  | .null, fuel + 1, r, _, _, _ => by
    rw [write]
    exact (readValue_plain (by decide) (by decide) (by decide) (by decide)).trans
      (readPlain_null r)
  | .bool true, 0, r, _, hfuel, _ => by simp [write, ascii] at hfuel
  | .bool true, fuel + 1, r, _, _, _ => by
    rw [write]
    exact (readValue_plain (by decide) (by decide) (by decide) (by decide)).trans
      (readPlain_true r)
  | .bool false, 0, r, _, hfuel, _ => by simp [write, ascii] at hfuel
  | .bool false, fuel + 1, r, _, _, _ => by
    rw [write]
    exact (readValue_plain (by decide) (by decide) (by decide) (by decide)).trans
      (readPlain_false r)
  | .number n, 0, r, hv, hfuel, _ => by
    rw [Numbers] at hv
    rw [write] at hfuel
    have := List.length_pos_of_ne_nil hv.nonempty
    omega
  | .number n, fuel + 1, r, hv, _, hr => by
    rw [Numbers] at hv
    rw [write]
    obtain ⟨c, t, hprint, hspace, h34, h91, h123, -⟩ := head_of_units hv.nonempty hv.units
    have hread := readPlain_number hv hr
    rw [hprint, List.cons_append] at hread ⊢
    rw [readValue_plain hspace h34 h91 h123, hread]
  | .string s, 0, r, _, hfuel, _ => by simp [write] at hfuel
  | .string s, fuel + 1, r, _, _, _ => by
    rw [write, List.cons_append, readValue, skip_of_head (by decide)]
    dsimp only
    rw [if_pos rfl, readString_quoted]
    rfl
  | .array [], 0, r, _, hfuel, _ => by simp [write] at hfuel
  | .array [], fuel + 1, r, _, _, _ => by
    rw [write, List.cons_append, readValue, skip_of_head (by decide)]
    dsimp only
    rw [if_neg (by decide), if_pos rfl, List.cons_append, skip_of_head (by decide)]
    rw [show after [93] (93 :: ([] ++ r)) = some r from after_append [93] r]
  | .array (v :: items), 0, r, _, hfuel, _ => by simp [write] at hfuel
  | .array (v :: items), fuel + 1, r, hv, hfuel, _ => by
    rw [Numbers] at hv
    rw [write] at hfuel ⊢
    obtain ⟨c, t, hwrite, hspace, h93, -⟩ := head_write hv.1
    have hread := @readItems_write v items fuel r hv
      (by simp only [List.length_cons] at hfuel; omega)
    rw [List.cons_append, readValue, skip_of_head (by decide)]
    dsimp only
    rw [if_neg (by decide), if_pos rfl]
    rw [hwrite, List.cons_append, List.cons_append] at hread ⊢
    rw [skip_of_head hspace, after_cons_ne h93, hread]
    rfl
  | .object [], 0, r, _, hfuel, _ => by simp [write] at hfuel
  | .object [], fuel + 1, r, _, _, _ => by
    rw [write, List.cons_append, readValue, skip_of_head (by decide)]
    dsimp only
    rw [if_neg (by decide), if_neg (by decide), if_pos rfl, List.cons_append,
      skip_of_head (by decide)]
    rw [show after [125] (125 :: ([] ++ r)) = some r from after_append [125] r]
  | .object ((k, v) :: members), 0, r, _, hfuel, _ => by simp [write] at hfuel
  | .object ((k, v) :: members), fuel + 1, r, hv, hfuel, _ => by
    rw [Numbers] at hv
    rw [write] at hfuel ⊢
    have hread := @readMembers_write k v members fuel r hv
      (by simp only [List.length_cons] at hfuel ⊢; omega)
    rw [List.cons_append, readValue, skip_of_head (by decide)]
    dsimp only
    rw [if_neg (by decide), if_neg (by decide), if_pos rfl]
    rw [List.cons_append] at hread ⊢
    rw [skip_of_head (by decide), after_cons_ne (by decide), hread]
    rfl

theorem readItems_write : ∀ (v : Value N) (items : List (Value N)) {fuel : ℕ} {r : Text},
    NumbersItems (Reads number print) (v :: items) →
    2 * (write print v ++ writeItems print items).length ≤ fuel →
    readItems number fuel (write print v ++ writeItems print items ++ r) = some (v :: items, r)
  | v, items, 0, r, _, hfuel => by
    have := length_writeItems_pos print items
    rw [List.length_append] at hfuel
    omega
  | v, items, fuel + 1, r, hv, hfuel => by
    rw [NumbersItems] at hv
    have hpos := length_writeItems_pos print items
    rw [List.length_append] at hfuel
    rw [readItems, List.append_assoc, readValue_write hv.1 (by omega) (ends_writeItems items r)]
    simp only [Option.bind_eq_bind, Option.bind_some, (ends_writeItems items r).skip]
    rcases items with _ | ⟨v', items⟩
    · rw [writeItems, after_append]
    · rw [writeItems] at hfuel ⊢
      rw [List.cons_append, after_cons_ne (by decide),
        show after [44] (44 :: (write print v' ++ writeItems print items ++ r))
          = some (write print v' ++ writeItems print items ++ r) from after_append [44] _]
      dsimp only
      rw [readItems_write v' items hv.2
        (by simp only [List.length_cons] at hfuel; omega)]
      rfl

theorem readMembers_write : ∀ (k : Text) (v : Value N) (members : List (Text × Value N))
    {fuel : ℕ} {r : Text}, NumbersMembers (Reads number print) ((k, v) :: members) →
    2 * (34 :: (quoted k ++ 58 :: (write print v ++ writeMembers print members))).length ≤ fuel →
    readMembers number fuel
        (34 :: (quoted k ++ 58 :: (write print v ++ writeMembers print members)) ++ r)
      = some ((k, v) :: members, r)
  | k, v, members, 0, r, _, hfuel => by simp at hfuel
  | k, v, members, fuel + 1, r, hv, hfuel => by
    rw [NumbersMembers] at hv
    have hpos := length_writeMembers_pos print members
    simp only [List.length_cons, List.length_append] at hfuel
    have hquote (t : Text) : after [34] (34 :: t) = some t := after_append [34] t
    have hcolon (t : Text) : after [58] (58 :: t) = some t := after_append [58] t
    rw [readMembers, List.cons_append, skip_of_head (by decide), hquote]
    simp only [Option.bind_eq_bind, Option.bind_some, List.append_assoc, readString_quoted,
      List.cons_append]
    rw [skip_of_head (by decide), hcolon]
    simp only [Option.bind_some]
    rw [readValue_write hv.1 (by omega) (ends_writeMembers members r)]
    simp only [Option.bind_some, (ends_writeMembers members r).skip]
    rcases members with _ | ⟨⟨k', v'⟩, members⟩
    · rw [writeMembers, show after [125] ([125] ++ r) = some r from after_append [125] r]
    · rw [writeMembers] at hfuel ⊢
      rw [List.cons_append, after_cons_ne (by decide),
        show ∀ t : Text, after [44] (44 :: t) = some t from after_append [44]]
      dsimp only
      rw [readMembers_write k' v' members hv.2
        (by simp only [List.length_cons, List.length_append] at hfuel ⊢; omega)]
      rfl

end

/-- What is written is read again. -/
theorem read_write {v : Value N} (hv : Numbers (Reads number print) v) :
    read number (write print v) = some v := by
  have hread := readValue_write hv le_rfl (Ends.nil)
  rw [List.append_nil] at hread
  rw [read, hread]
  rfl

end Read

end JsonText
