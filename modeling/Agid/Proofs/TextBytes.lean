import Agid.JsText
import Agid.Lib.JsonStrings

/-!
# Strings and their bytes

A string without a surrogate that is alone can be read back from its bytes, and the bytes are at
most three to a code unit.
-/

namespace Agid

/-! ## Code points -/

/-- The code units of a code point. -/
def unitsOf (p : ℕ) : JsString :=
  if p < 0x10000 then [Fin.ofNat 65536 p]
  else [Fin.ofNat 65536 (0xD800 + (p - 0x10000) / 0x400),
    Fin.ofNat 65536 (0xDC00 + (p - 0x10000) % 0x400)]

theorem codePoint_single (c : CodeUnit) : codePoint [c] = c.val := rfl

theorem codePoint_pair (c d : CodeUnit) :
    codePoint [c, d] = 0x10000 + (c.val - 0xD800) * 0x400 + (d.val - 0xDC00) := rfl

theorem unitsOf_single (c : CodeUnit) : unitsOf (codePoint [c]) = [c] := by
  have hsmall {p : ℕ} (h : p < 0x10000) : unitsOf p = [Fin.ofNat 65536 p] := if_pos h
  rw [codePoint_single, hsmall c.isLt, Fin.ofNat_val_eq_self]

/-- A pair of surrogates. -/
def IsPair (c d : CodeUnit) : Prop := isHighSurrogate c = true ∧ isLowSurrogate d = true

theorem IsPair.bounds {c d : CodeUnit} (h : IsPair c d) :
    (0xD800 ≤ c.val ∧ c.val < 0xDC00) ∧ 0xDC00 ≤ d.val ∧ d.val < 0xE000 := by
  simpa only [IsPair, isHighSurrogate, isLowSurrogate, Bool.and_eq_true, decide_eq_true_eq] using h

theorem unitsOf_pair {c d : CodeUnit} (h : IsPair c d) : unitsOf (codePoint [c, d]) = [c, d] := by
  obtain ⟨hc, hd⟩ := h.bounds
  have hlarge {p : ℕ} (h : ¬ p < 0x10000) : unitsOf p
      = [Fin.ofNat 65536 (0xD800 + (p - 0x10000) / 0x400),
        Fin.ofNat 65536 (0xDC00 + (p - 0x10000) % 0x400)] := if_neg h
  rw [codePoint_pair, hlarge (by omega)]
  refine congrArg₂ (fun a b => [a, b]) (Fin.ext ?_) (Fin.ext ?_)
  · rw [Fin.val_ofNat]
    omega
  · rw [Fin.val_ofNat]
    omega

theorem chars_pair {c d : CodeUnit} (h : IsPair c d) (s : JsString) :
    chars (c :: d :: s) = [c, d] :: chars s := by
  rw [chars, h.1, h.2, Bool.and_self, if_pos rfl]

theorem chars_single {c d : CodeUnit} (h : ¬ IsPair c d) (s : JsString) :
    chars (c :: d :: s) = [c] :: chars (d :: s) := by
  rw [chars, if_neg (by rwa [Bool.and_eq_true])]

theorem codePoints_pair {c d : CodeUnit} (h : IsPair c d) (s : JsString) :
    codePoints (c :: d :: s) = codePoint [c, d] :: codePoints s := by
  rw [codePoints, chars_pair h, List.map_cons, codePoints]

theorem codePoints_single {c d : CodeUnit} (h : ¬ IsPair c d) (s : JsString) :
    codePoints (c :: d :: s) = codePoint [c] :: codePoints (d :: s) := by
  rw [codePoints, chars_single h, List.map_cons, codePoints]

theorem flatten_chars : ∀ s : JsString, (chars s).flatten = s
  | [] => rfl
  | [c] => rfl
  | c :: d :: s => by
    by_cases h : IsPair c d
    · rw [chars_pair h, List.flatten_cons, flatten_chars s]
      rfl
    · rw [chars_single h, List.flatten_cons, flatten_chars (d :: s)]
      rfl

/-- A string is what its code points are made of. -/
theorem flatMap_unitsOf : ∀ s : JsString, (codePoints s).flatMap unitsOf = s
  | [] => rfl
  | [c] => by
    rw [codePoints, chars, List.map_singleton, List.flatMap_singleton, unitsOf_single]
  | c :: d :: s => by
    by_cases h : IsPair c d
    · rw [codePoints_pair h, List.flatMap_cons, unitsOf_pair h, flatMap_unitsOf s]
      rfl
    · rw [codePoints_single h, List.flatMap_cons, unitsOf_single, flatMap_unitsOf (d :: s)]
      rfl

theorem codePoints_inj {s t : JsString} (h : codePoints s = codePoints t) : s = t := by
  rw [← flatMap_unitsOf s, h, flatMap_unitsOf]

/-! ## Well-formed strings -/

theorem isWellFormed_iff {s : JsString} :
    isWellFormed s = true ↔ ∀ p ∈ codePoints s, p.isValidChar := by
  simp only [isWellFormed, List.all_eq_true, decide_eq_true_eq]

theorem codePoints_append {t : JsString} : ∀ {s : JsString}, isWellFormed s = true →
    codePoints (s ++ t) = codePoints s ++ codePoints t
  | [], _ => rfl
  | [c], h => by
    have hc : c.val.isValidChar := isWellFormed_iff.1 h _ List.mem_cons_self
    rcases t with _ | ⟨d, t⟩
    · rfl
    · have hpair : ¬ IsPair c d := fun hpair => by
        have := hpair.bounds
        rcases hc with hc | hc <;> omega
      rw [codePoints, List.singleton_append, chars_single hpair]
      rfl
  | c :: d :: s, h => by
    rw [isWellFormed_iff] at h
    by_cases hpair : IsPair c d
    · rw [codePoints_pair hpair, List.forall_mem_cons] at h
      rw [List.cons_append, List.cons_append, codePoints_pair hpair, codePoints_pair hpair,
        codePoints_append (isWellFormed_iff.2 h.2), List.cons_append]
    · rw [codePoints_single hpair, List.forall_mem_cons] at h
      have ih := codePoints_append (t := t) (isWellFormed_iff.2 h.2)
      rw [List.cons_append] at ih
      rw [List.cons_append, List.cons_append, codePoints_single hpair, ih, codePoints_single hpair,
        List.cons_append]

theorem isWellFormed_append {s t : JsString} (hs : isWellFormed s = true)
    (ht : isWellFormed t = true) : isWellFormed (s ++ t) = true := by
  rw [isWellFormed_iff] at *
  intro p hp
  rw [codePoints_append (isWellFormed_iff.2 hs)] at hp
  exact (List.mem_append.1 hp).elim (hs p) (ht p)

/-- A string of code units below the surrogates. -/
theorem isWellFormed_low : ∀ {s : JsString}, (∀ c ∈ s, c.val < 0xD800) → isWellFormed s = true
  | [], _ => rfl
  | c :: s, h => by
    rw [List.forall_mem_cons] at h
    have hsingle : isWellFormed [c] = true := by
      rw [isWellFormed_iff]
      intro p hp
      rw [List.mem_singleton.1 hp]
      exact .inl h.1
    exact isWellFormed_append (s := [c]) hsingle (isWellFormed_low h.2)

/-! ## Bytes -/

theorem toNat_scalar {p : ℕ} (h : p.isValidChar) : (scalar p).toNat = p := by
  rw [scalar, if_pos h]
  unfold Char.ofNat
  rw [dif_pos h]
  rfl

/-- Strings with the same bytes have the same scalar values. -/
theorem scalars_of_textEncode {s t : JsString} (h : textEncode s = textEncode t) :
    (codePoints s).map scalar = (codePoints t).map scalar := by
  refine String.ofList_injective (String.toByteArray_inj.1 ?_)
  rw [String.toByteArray_ofList, String.toByteArray_ofList, List.utf8Encode, List.utf8Encode,
    List.flatMap_map, List.flatMap_map]
  exact congrArg List.toByteArray h

theorem textEncode_inj {s t : JsString} (hs : isWellFormed s = true) (ht : isWellFormed t = true)
    (h : textEncode s = textEncode t) : s = t := by
  rw [isWellFormed_iff] at hs ht
  have hback (u : JsString) (hu : ∀ p ∈ codePoints u, p.isValidChar) :
      ((codePoints u).map scalar).map Char.toNat = codePoints u := by
    rw [List.map_map]
    exact (List.map_congr_left fun p hp => toNat_scalar (hu p hp)).trans (List.map_id _)
  refine codePoints_inj ?_
  rw [← hback s hs, scalars_of_textEncode h, hback t ht]

/-- A string with the bytes of a text of ASCII characters is that text: a surrogate that is alone has
the bytes of another character. -/
theorem eq_of_textEncode_ascii {s t : JsString} (ht : ∀ p ∈ codePoints t, p < 128)
    (h : textEncode s = textEncode t) : s = t := by
  have hvalid : ∀ p ∈ codePoints t, p.isValidChar := fun p hp => Or.inl (by have := ht p hp; omega)
  refine textEncode_inj (isWellFormed_iff.2 fun p hp => ?_) (isWellFormed_iff.2 hvalid) h
  by_contra hp'
  have hmem : scalar p ∈ (codePoints t).map scalar := by
    rw [← scalars_of_textEncode h]
    exact List.mem_map_of_mem hp
  obtain ⟨q, hq, hsame⟩ := List.mem_map.1 hmem
  have hnat := toNat_scalar (hvalid q hq)
  rw [hsame, scalar, if_neg hp'] at hnat
  have hlt := ht q hq
  have hreplacement : (Char.ofNat 0xFFFD).toNat = 0xFFFD := by decide
  omega

/-! ## Lengths -/

theorem utf8Size_scalar {p : ℕ} (h : p < 0x10000) : (scalar p).utf8Size ≤ 3 := by
  have hsmall : (scalar p).toNat ≤ 0xFFFF := by
    by_cases hp : p.isValidChar
    · rw [toNat_scalar hp]
      omega
    · rw [scalar, if_neg hp]
      decide
  have hfour : (scalar p).utf8Size ≠ 4 := fun h4 => by
    have hlt := UInt32.lt_iff_toNat_lt.1 (Char.utf8Size_eq_four_iff.1 h4)
    exact absurd hlt (not_lt.2 hsmall)
  have := Char.utf8Size_le_four (scalar p)
  omega

theorem utf8Size_pair {c d : CodeUnit} (h : IsPair c d) :
    2 ≤ (scalar (codePoint [c, d])).utf8Size := by
  obtain ⟨hc, hd⟩ := h.bounds
  have hvalid : (codePoint [c, d]).isValidChar := by
    rw [codePoint_pair]
    exact .inr ⟨by omega, by omega⟩
  have hone : (scalar (codePoint [c, d])).utf8Size ≠ 1 := fun h1 => by
    have hle : (scalar (codePoint [c, d])).toNat ≤ 127 :=
      UInt32.le_iff_toNat_le.1 (Char.utf8Size_eq_one_iff.1 h1)
    rw [toNat_scalar hvalid, codePoint_pair] at hle
    omega
  have := Char.utf8Size_pos (scalar (codePoint [c, d]))
  omega

theorem length_textEncode_le : ∀ s : JsString, (textEncode s).length ≤ 3 * s.length
  | [] => Nat.zero_le _
  | [c] => by
    have := utf8Size_scalar c.isLt
    rw [textEncode, codePoints, chars, List.map_singleton, List.flatMap_singleton,
      String.length_utf8EncodeChar, codePoint_single, List.length_singleton]
    omega
  | c :: d :: s => by
    by_cases h : IsPair c d
    · have ih := length_textEncode_le s
      have := Char.utf8Size_le_four (scalar (codePoint [c, d]))
      rw [textEncode] at ih
      rw [textEncode, codePoints_pair h, List.flatMap_cons, List.length_append,
        String.length_utf8EncodeChar, List.length_cons, List.length_cons]
      omega
    · have ih := length_textEncode_le (d :: s)
      have := utf8Size_scalar c.isLt
      rw [textEncode, List.length_cons] at ih
      rw [textEncode, codePoints_single h, List.flatMap_cons, List.length_append,
        String.length_utf8EncodeChar, codePoint_single, List.length_cons, List.length_cons]
      omega

theorem length_le_textEncode : ∀ s : JsString, s.length ≤ (textEncode s).length
  | [] => Nat.zero_le _
  | [c] => by
    have := Char.utf8Size_pos (scalar (codePoint [c]))
    rw [textEncode, codePoints, chars, List.map_singleton, List.flatMap_singleton,
      String.length_utf8EncodeChar, List.length_singleton]
    omega
  | c :: d :: s => by
    by_cases h : IsPair c d
    · have ih := length_le_textEncode s
      have := utf8Size_pair h
      rw [textEncode] at ih
      rw [textEncode, codePoints_pair h, List.flatMap_cons, List.length_append,
        String.length_utf8EncodeChar, List.length_cons, List.length_cons]
      omega
    · have ih := length_le_textEncode (d :: s)
      have := Char.utf8Size_pos (scalar (codePoint [c]))
      rw [textEncode, List.length_cons] at ih
      rw [textEncode, codePoints_single h, List.flatMap_cons, List.length_append,
        String.length_utf8EncodeChar, List.length_cons, List.length_cons]
      omega

/-! ## ASCII texts -/

theorem utf8EncodeChar_low {c : Char} (h : ∀ b ∈ String.utf8EncodeChar c, b.toNat < 128) :
    (String.utf8EncodeChar c).map (fun b => Fin.ofNat 65536 b.toNat)
      = [Fin.ofNat 65536 c.toNat] := by
  revert h
  fun_cases String.utf8EncodeChar c
  case case1 v hv =>
    intro _
    rw [List.map_singleton, UInt8.toNat_ofNat', Nat.mod_eq_of_lt (by omega)]
    rfl
  all_goals
    intro h
    have hfirst := h _ List.mem_cons_self
    rw [UInt8.toNat_ofNat'] at hfirst
    omega

theorem map_utf8Encode_low : ∀ {l : List Char},
    (∀ b ∈ l.flatMap String.utf8EncodeChar, b.toNat < 128) →
      (l.flatMap String.utf8EncodeChar).map (fun b => Fin.ofNat 65536 b.toNat)
        = l.map fun c => Fin.ofNat 65536 c.toNat
  | [], _ => rfl
  | c :: l, h => by
    rw [List.flatMap_cons, List.forall_mem_append] at h
    rw [List.flatMap_cons, List.map_append, utf8EncodeChar_low h.1, map_utf8Encode_low h.2,
      List.map_cons, List.singleton_append]

/-- The units of a text, read off its bytes where they are those of ASCII characters. -/
def asciiUnits (s : String) : JsString :=
  let bytes := s.toByteArray.data.toList
  if bytes.all (·.toNat < 128) then bytes.map fun b => Fin.ofNat 65536 b.toNat else js s

theorem js_eq_asciiUnits : js = asciiUnits := by
  funext s
  have hbytes : s.toByteArray.data.toList = s.toList.flatMap String.utf8EncodeChar := by
    conv_lhs => rw [← String.ofList_toList (s := s)]
    rw [String.toByteArray_ofList, List.utf8Encode, List.data_toByteArray]
  simp only [asciiUnits, hbytes, List.all_eq_true, decide_eq_true_eq]
  split_ifs with h
  · exact (map_utf8Encode_low h).symm
  · rfl

/-! ## JSON texts -/

section Json

open JsonText

theorem isWellFormed_single {c : CodeUnit} (h : isHigh c = false) (h' : isLow c = false) :
    isWellFormed [c] = true := by
  rw [isWellFormed_iff]
  intro p hp
  have hc := c.isLt
  simp only [isHigh, isLow, Bool.and_eq_false_iff, decide_eq_false_iff_not] at h h'
  rw [List.mem_singleton.1 hp, codePoint_single]
  unfold Nat.isValidChar
  omega

theorem isWellFormed_pair {c d : CodeUnit} (h : IsPair c d) {s : JsString}
    (hs : isWellFormed s = true) : isWellFormed (c :: d :: s) = true := by
  obtain ⟨hc, hd⟩ := h.bounds
  rw [isWellFormed_iff] at hs ⊢
  rw [codePoints_pair h, List.forall_mem_cons, codePoint_pair]
  exact ⟨.inr ⟨by omega, by omega⟩, hs⟩

theorem hexDigit_lt {n : ℕ} (h : n < 16) : (hexDigit n).val < 0xD800 := by
  interval_cases n <;> decide

theorem isWellFormed_escape (c : CodeUnit) : isWellFormed (escape c) = true := by
  have hc := c.isLt
  unfold escape
  split_ifs with h1 h2 h3 h4 h5 h6 h7
  iterate 5 decide
  · rcases h6 with rfl | rfl <;> decide
  · refine isWellFormed_low fun d hd => ?_
    simp only [unicodeEscape, List.mem_cons, List.not_mem_nil, or_false] at hd
    rcases hd with rfl | rfl | rfl | rfl | rfl | rfl
    iterate 2 decide
    all_goals exact hexDigit_lt (by omega)
  · simp only [not_or, Bool.not_eq_true] at h7
    exact isWellFormed_single h7.2.1 h7.2.2

theorem isWellFormed_quoted : ∀ s : JsString, isWellFormed (quoted s) = true
  | [] => by decide
  | [c] => isWellFormed_append (isWellFormed_escape c) (by decide)
  | c :: d :: s => by
    rw [quoted]
    split_ifs with h
    · rw [Bool.and_eq_true] at h
      exact isWellFormed_pair h (isWellFormed_quoted s)
    · exact isWellFormed_append (isWellFormed_escape c) (isWellFormed_quoted (d :: s))

theorem length_escape_le (c : CodeUnit) : (escape c).length ≤ 6 := by
  unfold escape
  split_ifs
  all_goals simp [unicodeEscape]

theorem length_quoted_le : ∀ s : JsString, (quoted s).length ≤ 6 * s.length + 1
  | [] => le_refl _
  | [c] => by
    have := length_escape_le c
    rw [quoted, List.length_append, List.length_singleton, List.length_singleton]
    omega
  | c :: d :: s => by
    have := length_escape_le c
    have := length_quoted_le s
    have := length_quoted_le (d :: s)
    rw [quoted]
    split_ifs
    · rw [List.length_cons, List.length_cons, List.length_cons, List.length_cons]
      omega
    · rw [List.length_append]
      simp only [List.length_cons] at *
      omega

variable {N : Type*} {print : N → Text}

variable (print) in
theorem isWellFormed_writeItems : ∀ l : List JsString,
    isWellFormed (writeItems print (l.map .string)) = true
  | [] => by
    rw [List.map_nil, writeItems]
    decide
  | s :: l => by
    rw [List.map_cons, writeItems, write]
    have h := isWellFormed_append (isWellFormed_quoted s) (isWellFormed_writeItems l)
    exact isWellFormed_append (s := [44, 34]) (by decide) h

variable (print) in
theorem length_writeItems_le {n : ℕ} : ∀ {l : List JsString}, (∀ s ∈ l, s.length ≤ n) →
    (writeItems print (l.map .string)).length ≤ (6 * n + 3) * l.length + 1
  | [], _ => by
    rw [List.map_nil, writeItems]
    exact le_refl _
  | s :: l, h => by
    rw [List.forall_mem_cons] at h
    have hs := length_quoted_le s
    have ih := length_writeItems_le h.2
    rw [List.map_cons, writeItems, write, List.length_cons, List.length_append, List.length_cons,
      List.length_cons, Nat.mul_succ]
    omega

theorem isWellFormed_strings (l : List JsString) :
    isWellFormed (write print (.array (l.map .string))) = true := by
  rcases l with _ | ⟨s, l⟩
  · rw [List.map_nil, write]
    decide
  · rw [List.map_cons, write, write]
    have h := isWellFormed_append (isWellFormed_quoted s)
      (isWellFormed_writeItems print l)
    exact isWellFormed_append (s := [91, 34]) (by decide) h

variable (print) in
theorem length_strings_le {n : ℕ} {l : List JsString} (h : ∀ s ∈ l, s.length ≤ n) :
    (write print (.array (l.map .string))).length ≤ (6 * n + 3) * l.length + 2 := by
  rcases l with _ | ⟨s, l⟩
  · rw [List.map_nil, write]
    exact le_refl _
  · have hitems := length_writeItems_le print h
    rw [List.map_cons, writeItems, List.length_cons] at hitems
    rw [List.map_cons, write, List.length_cons]
    omega

end Json

end Agid
