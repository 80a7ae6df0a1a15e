import Agid.Lib.JsonText

/-!
# Strings of JSON texts

What stands between the quotes of a string can be read back, so a string or an array of strings is
written as no other one is.
-/

namespace JsonText

/-! ## Reading a string -/

/-- The value of a hexadecimal digit. -/
def hexDigitValue (c : Fin 65536) : ℕ := if c.val < 97 then c.val - 48 else c.val - 87

theorem hexDigitValue_hexDigit {n : ℕ} (h : n < 16) : hexDigitValue (hexDigit n) = n := by
  interval_cases n <;> decide

/-- What an escape of one letter stands for. -/
def letterEscape (c : Fin 65536) : Fin 65536 :=
  if c = 98 then 8 else if c = 116 then 9 else if c = 110 then 10 else if c = 102 then 12
  else if c = 114 then 13 else c

/-- The string whose quotes a text is in. -/
def unquoted : Text → Text
  | [] => []
  | [_] => []
  | c :: e :: s =>
    if c = 34 then []
    else if c = 92 then
      if e = 117 then
        match s with
        | a :: b :: c :: d :: s =>
          Fin.ofNat 65536 (4096 * hexDigitValue a + 256 * hexDigitValue b + 16 * hexDigitValue c
            + hexDigitValue d) :: unquoted s
        | _ => []
      else letterEscape e :: unquoted s
    else c :: unquoted (e :: s)

theorem unquoted_backslash {e : Fin 65536} (he : e ≠ 117) (s : Text) :
    unquoted (92 :: e :: s) = letterEscape e :: unquoted s := by
  rw [unquoted.eq_def]
  simp [he]

theorem unquoted_plain {c : Fin 65536} (h34 : c ≠ 34) (h92 : c ≠ 92) {s : Text} (hs : s ≠ []) :
    unquoted (c :: s) = c :: unquoted s := by
  obtain ⟨e, s, rfl⟩ := List.exists_cons_of_ne_nil hs
  rw [unquoted.eq_def]
  simp [h34, h92]

theorem unquoted_unicodeEscape (c : Fin 65536) (s : Text) :
    unquoted (unicodeEscape c ++ s) = c :: unquoted s := by
  have hc := c.isLt
  rw [unicodeEscape, List.cons_append, List.cons_append, unquoted.eq_def]
  simp only [List.cons_append, List.nil_append, if_true]
  rw [if_neg (by decide), hexDigitValue_hexDigit (by omega),
    hexDigitValue_hexDigit (by omega), hexDigitValue_hexDigit (by omega),
    hexDigitValue_hexDigit (by omega)]
  refine congrArg (· :: _) (Fin.ext ?_)
  rw [Fin.val_ofNat]
  omega

theorem unquoted_escape (c : Fin 65536) {s : Text} (hs : s ≠ []) :
    unquoted (escape c ++ s) = c :: unquoted s := by
  unfold escape
  split_ifs with h1 h2 h3 h4 h5 h6 h7
  iterate 5
    · subst_vars
      exact unquoted_backslash (by decide) s
  · rcases h6 with rfl | rfl <;> exact unquoted_backslash (by decide) s
  · exact unquoted_unicodeEscape c s
  · exact unquoted_plain (not_or.1 h6).1 (not_or.1 h6).2 hs

theorem quoted_ne_nil : ∀ s : Text, quoted s ≠ []
  | [] => List.cons_ne_nil _ _
  | [c] => List.append_ne_nil_of_right_ne_nil _ (List.cons_ne_nil _ _)
  | c :: d :: s => by
    rw [quoted]
    split_ifs
    · exact List.cons_ne_nil _ _
    · exact List.append_ne_nil_of_right_ne_nil _ (quoted_ne_nil (d :: s))

/-- One of a pair of surrogates is neither a quote nor a backslash. -/
theorem surrogate_ne {c : Fin 65536} (h : isHigh c = true ∨ isLow c = true) : c ≠ 34 ∧ c ≠ 92 := by
  constructor <;> rintro rfl <;> exact absurd h (by decide)

theorem unquoted_quoted : ∀ s : Text, unquoted (quoted s) = s
  | [] => rfl
  | [c] => by rw [quoted, unquoted_escape c (List.cons_ne_nil _ _), unquoted]
  | c :: d :: s => by
    rw [quoted]
    split_ifs with h
    · rw [Bool.and_eq_true] at h
      obtain ⟨hc34, hc92⟩ := surrogate_ne (.inl h.1)
      obtain ⟨hd34, hd92⟩ := surrogate_ne (.inr h.2)
      rw [unquoted_plain hc34 hc92 (List.cons_ne_nil _ _),
        unquoted_plain hd34 hd92 (quoted_ne_nil s), unquoted_quoted s]
    · rw [unquoted_escape c (quoted_ne_nil (d :: s)), unquoted_quoted (d :: s)]

theorem quoted_inj {s t : Text} (h : quoted s = quoted t) : s = t := by
  rw [← unquoted_quoted s, h, unquoted_quoted]

/-! ## Arrays of strings -/

section Strings

variable {N : Type*} {print : N → Text}

variable (print) in
theorem writeItems_head (items : List (Value N)) :
    ∃ c r, writeItems print items = c :: r ∧ (c = 44 ∨ c = 93 ∨ c = 125) := by
  rcases items with _ | ⟨v, items⟩
  · exact ⟨93, [], by rw [writeItems], .inr (.inl rfl)⟩
  · exact ⟨44, _, by rw [writeItems], .inl rfl⟩

theorem write_string_inj {s t : Text} (h : write print (.string s) = write print (.string t)) :
    s = t := by
  rw [write, write, List.cons.injEq] at h
  exact quoted_inj h.2

theorem writeItems_string_inj (hprint : ∀ n, Plain (print n)) : ∀ {l l' : List Text},
    writeItems print (l.map .string) = writeItems print (l'.map .string) → l = l'
  | [], [], _ => rfl
  | [], s :: l', h => by
    rw [List.map_nil, List.map_cons, writeItems, writeItems, List.cons.injEq] at h
    exact absurd h.1 (by decide)
  | s :: l, [], h => by
    rw [List.map_nil, List.map_cons, writeItems, writeItems, List.cons.injEq] at h
    exact absurd h.1 (by decide)
  | s :: l, t :: l', h => by
    rw [List.map_cons, List.map_cons, writeItems, writeItems, List.cons.injEq] at h
    obtain ⟨c, r, hc, hcend⟩ := writeItems_head print (l.map Value.string)
    obtain ⟨d, q, hd, hdend⟩ := writeItems_head print (l'.map Value.string)
    have hboth := h.2
    rw [hc, hd] at hboth
    obtain ⟨hstring, hrest⟩ := write_append_inj hprint hcend hdend hboth
    rw [← hc, ← hd] at hrest
    exact congrArg₂ List.cons (write_string_inj hstring) (writeItems_string_inj hprint hrest)

theorem write_strings_inj (hprint : ∀ n, Plain (print n)) {l l' : List Text}
    (h : write print (.array (l.map .string)) = write print (.array (l'.map .string))) :
    l = l' := by
  refine writeItems_string_inj hprint ?_
  rcases l with _ | ⟨s, l⟩ <;> rcases l' with _ | ⟨t, l'⟩
  · rfl
  · simp only [List.map_nil, List.map_cons, write, List.cons_append, List.cons.injEq] at h
    exact absurd h.2.1 (by decide)
  · simp only [List.map_nil, List.map_cons, write, List.cons_append, List.cons.injEq] at h
    exact absurd h.2.1 (by decide)
  · simp only [List.map_cons, write, List.cons.injEq, true_and] at h
    simp only [List.map_cons, writeItems, write, h]

end Strings

end JsonText
