import Agid.JsonValues
import Agid.Lib.Checks
import Std.Data.String.ToInt

/-!
# What is read of parsed JSON

The text of an integer is its own, and that of any number has no delimiter.  A check that ends well
held.
-/

namespace Agid

open JsonText JsonValue

/-! ## Numbers -/

theorem mem_repr {z : ℤ} {c : Char} (h : c ∈ (toString z).toList) : c = '-' ∨ c.isDigit := by
  rw [Int.toString_eq_repr, Int.repr_eq_if] at h
  split_ifs at h
  · rw [Nat.toList_repr] at h
    exact .inr (Nat.isDigit_of_mem_toDigits (by decide) (by decide) h)
  · rw [String.toList_append, Nat.toList_repr] at h
    rcases List.mem_append.1 h with h | h
    · exact .inl (by simpa using h)
    · exact .inr (Nat.isDigit_of_mem_toDigits (by decide) (by decide) h)

theorem toNat_of_mem_repr {z : ℤ} {c : Char} (h : c ∈ (toString z).toList) :
    c.toNat = 45 ∨ 48 ≤ c.toNat ∧ c.toNat ≤ 57 := by
  rcases mem_repr h with rfl | h
  · exact .inl rfl
  · simp only [Char.isDigit, Bool.and_eq_true, decide_eq_true_eq] at h
    exact .inr h

/-- A text of characters below U+10000 is read back from its code units. -/
theorem map_ofNat_js {s : String} (h : ∀ c ∈ s.toList, c.toNat < 65536) :
    (js s).map (fun c => Char.ofNat c.val) = s.toList := by
  rw [js, List.map_map]
  refine (List.map_congr_left fun c hc => ?_).trans (List.map_id _)
  rw [Function.comp_apply, Fin.val_ofNat, Nat.mod_eq_of_lt (h c hc), Char.ofNat_toNat, id]

theorem js_toString_inj {y z : ℤ} (h : js (toString y) = js (toString z)) : y = z := by
  have hdigits (x : ℤ) : ∀ c ∈ (toString x).toList, c.toNat < 65536 := fun c hc => by
    have := toNat_of_mem_repr hc
    omega
  have heq := congrArg (List.map fun c => Char.ofNat c.val) h
  rw [map_ofNat_js (hdigits y), map_ofNat_js (hdigits z)] at heq
  exact Int.repr_injective (String.toList_injective heq)

theorem plain_json (n : JsonNumber) : Plain n.json := by
  cases n with
  | int z =>
    intro d hd
    obtain ⟨c, hc, rfl⟩ := List.mem_map.1 hd
    have hc := toNat_of_mem_repr hc
    have hval : (Fin.ofNat 65536 c.toNat).val = c.toNat := by
      rw [Fin.val_ofNat, Nat.mod_eq_of_lt (by omega)]
    simp only [delimiters, List.mem_cons, List.not_mem_nil, or_false, Fin.ext_iff, hval]
    omega
  | other text plain => exact plain
  | infinite => exact (by decide : Plain (js "null"))

/-! ## Checks -/

theorem require_eq_ok {holds : Bool} {message : JsString} {u : Unit} :
    require holds message = .ok u ↔ holds = true := by
  unfold require
  split_ifs with h <;> simp [h]

theorem same_string {v : Option JsonValue} {s : JsString} :
    same v (some (.string s)) = true ↔ v = some (.string s) := by
  constructor
  · intro h
    unfold same at h
    split at h <;> simp_all
  · rintro rfl
    simp [same]

theorem same_null {v : Option JsonValue} : same v (some .null) = true ↔ v = some .null := by
  constructor
  · intro h
    unfold same at h
    split at h <;> simp_all
  · rintro rfl
    rfl

theorem get_object (members : List (JsString × JsonValue)) (name : String) :
    JsonValue.get (some (.object members)) name = .ok (member (js name) members) := rfl

end Agid
