import Agid.Proofs.Codec

/-!
# The hash of a cell

The packed value is the face over the 42 bits of the place.  `encodeBase32` writes its lowest
`length` digits and `decodeBase32` reads them back, each the other's inverse on the values of at
most that many digits.  45 bits are nine digits; `encodeAGID` writes ten, the first a zero.
-/

namespace Agid

variable (project : ℤ → ℚ → ℚ → LatLon)

/-! ## Packing -/

theorem packAGID_eq (face : ℕ) {h : ℕ} (hh : h < 2 ^ 42) :
    packAGID face h = (face * 2 ^ 42 + h : ℕ) := by
  have e : packAGID face h = (face <<< 42 ||| h : ℕ) := rfl
  rw [e, ← Nat.shiftLeft_add_eq_or_of_lt hh, Nat.shiftLeft_eq]

theorem unpackAGID_eq (p : ℕ) : unpackAGID p = (((p / 2 ^ 42 : ℕ) : ℤ), ((p % 2 ^ 42 : ℕ) : ℤ)) := by
  have e : unpackAGID p = (((p >>> 42 : ℕ) : ℤ), ((p &&& (2 ^ 42 - 1) : ℕ) : ℤ)) := rfl
  rw [e, Nat.shiftRight_eq_div_pow, Nat.and_two_pow_sub_one_eq_mod]

/-- A packed value in range is a face under six over a place. -/
theorem inRange_iff (packed : ℤ) :
    isAgidPackedValueInRange packed = true ↔ ∃ p : ℕ, packed = p ∧ p < 6 * 2 ^ 42 := by
  have hmax : AGID_MAX_PACKED_VALUE = 2 ^ 45 - 1 := by decide
  have h6 : AGID_FACE_COUNT = 6 := rfl
  rw [isAgidPackedValueInRange, hmax, h6]
  constructor
  · intro h
    split_ifs at h with h1
    simp only [Int.shiftRight_eq_div_pow, decide_eq_true_eq] at h
    exact ⟨packed.toNat, by omega, by omega⟩
  · rintro ⟨p, rfl, hp⟩
    rw [if_neg (by omega)]
    simp only [Int.shiftRight_eq_div_pow, decide_eq_true_eq]
    omega

/-! ## Digits -/

theorem alphabet_idxOf {c : CodeUnit} {d : ℕ} (h : BASE32_ALPHABET.idxOf? c = some d) :
    d < 32 ∧ textAt BASE32_ALPHABET d = [c] := by
  rw [List.idxOf?, List.findIdx?_eq_some_iff_getElem] at h
  obtain ⟨hlt, hc, -⟩ := h
  refine ⟨hlt, ?_⟩
  simp only [beq_iff_eq] at hc
  simp [textAt, hlt, hc]

theorem alphabet_nodup : BASE32_ALPHABET.Nodup := by decide

theorem alphabet_digit {d : ℕ} (hd : d < 32) : ∃ c, textAt BASE32_ALPHABET d = [c]
    ∧ BASE32_ALPHABET.idxOf? c = some d := by
  have hlt : d < BASE32_ALPHABET.length := hd
  refine ⟨BASE32_ALPHABET[d], by simp [textAt, hlt], ?_⟩
  rw [List.idxOf?, List.findIdx?_eq_some_iff_getElem]
  refine ⟨hlt, by simp, fun j hj => ?_⟩
  simp only [beq_iff_eq]
  intro h
  have := (List.Nodup.getElem_inj_iff alphabet_nodup).1 h
  omega

theorem encodeBase32Loop_succ (n : ℕ) (v : ℕ) (result : JsString) :
    encodeBase32Loop (n + 1) v result
      = encodeBase32Loop n (v / 32 : ℕ) (textAt BASE32_ALPHABET (v % 32 : ℕ) ++ result) := rfl

theorem encodeBase32Loop_length : ∀ (n v : ℕ) (result : JsString),
    (encodeBase32Loop n v result).length = n + result.length
  | 0, _, _ => by simp [encodeBase32Loop]
  | n + 1, v, result => by
    obtain ⟨c, hc, -⟩ := alphabet_digit (Nat.mod_lt v (by omega : 0 < 32))
    rw [encodeBase32Loop_succ, encodeBase32Loop_length n, List.length_append, hc,
      List.length_singleton]
    omega

theorem decode_encodeLoop : ∀ (n : ℕ) {v : ℕ}, v < 32 ^ n → ∀ (result : JsString) (acc : ℤ),
    decodeBase32Loop (encodeBase32Loop n v result) acc
      = decodeBase32Loop result (acc * 32 ^ n + v)
  | 0, v, hv, result, acc => by
    obtain rfl : v = 0 := by simpa using hv
    simp [encodeBase32Loop]
  | n + 1, v, hv, result, acc => by
    obtain ⟨c, hc, hi⟩ := alphabet_digit (Nat.mod_lt v (by omega : 0 < 32))
    have hlt : v / 32 < 32 ^ n := by
      rw [pow_succ] at hv
      omega
    rw [encodeBase32Loop_succ, decode_encodeLoop n hlt, hc, List.singleton_append,
      decodeBase32Loop, hi]
    simp only
    congr 1
    rw [pow_succ]
    push_cast
    have := Int.emod_add_mul_ediv (v : ℤ) 32
    linear_combination this

theorem decode_encodeBase32 {n v : ℕ} (hv : v < 32 ^ n) :
    decodeBase32 (encodeBase32 v n) = .ok (v : ℤ) := by
  rw [decodeBase32, encodeBase32, decode_encodeLoop n hv]
  simp [decodeBase32Loop]

theorem decodeBase32Loop_append (s t : JsString) (acc : ℤ) :
    decodeBase32Loop (s ++ t) acc = (decodeBase32Loop s acc).bind (decodeBase32Loop t) := by
  induction s generalizing acc with
  | nil => rfl
  | cons c s ih =>
    rw [List.cons_append, decodeBase32Loop, decodeBase32Loop]
    cases BASE32_ALPHABET.idxOf? c with
    | none => rfl
    | some d => exact ih _

/-- A text that decodes is the digits of the value it decodes to. -/
theorem encode_decodeBase32 (hash : JsString) :
    ∀ v : ℤ, decodeBase32 hash = .ok v →
      ∃ r : ℕ, v = r ∧ ∀ result, encodeBase32Loop hash.length r result = hash ++ result := by
  induction hash using List.reverseRecOn with
  | nil =>
    intro v h
    simp only [decodeBase32, decodeBase32Loop, Except.ok.injEq] at h
    exact ⟨0, h.symm, fun result => rfl⟩
  | append_singleton s c ih =>
    intro v h
    rw [decodeBase32, decodeBase32Loop_append] at h
    rcases hs : decodeBase32Loop s 0 with e | u
    · rw [hs] at h
      cases h
    · obtain ⟨r, rfl, hr⟩ := ih u hs
      simp only [hs, Except.bind, decodeBase32Loop] at h
      rcases hc : BASE32_ALPHABET.idxOf? c with _ | d
      · simp [hc] at h
      · obtain ⟨hd, ht⟩ := alphabet_idxOf hc
        simp only [hc, Except.ok.injEq] at h
        refine ⟨r * 32 + d, by rw [← h]; push_cast; ring, fun result => ?_⟩
        have h1 : (r * 32 + d) / 32 = r := by omega
        have h2 : (r * 32 + d) % 32 = d := by omega
        rw [List.length_append, List.length_singleton, encodeBase32Loop_succ, h1, h2, ht, hr,
          List.append_assoc]

/-! ## Cells -/

/-- The packed value of a cell, in numbers. -/
theorem pack_cell (loaded : Bool) (c : Cell) :
    packAGID c.face (encodeHilbert (getAgidWasmCore project loaded) K c.qx c.qy)
      = (c.face * 2 ^ 42 + Hilbert.index 21 (c.qx, c.qy) : ℕ) := by
  rw [encodeHilbert_eq project loaded c.qx_lt c.qy_lt, packAGID_eq _ (place_lt c.qx_lt c.qy_lt)]

/-- A packed value of a face and a place unpacks to the face and the place's cell. -/
theorem unpack_place (loaded : Bool) (face : ℕ) {h : ℕ} (hh : h < 2 ^ 42) :
    unpackAGID (face * 2 ^ 42 + h : ℕ) = ((face : ℤ), (h : ℤ))
      ∧ decodeHilbert (getAgidWasmCore project loaded) K h
        = (((Hilbert.point 21 h).1 : ℤ), ((Hilbert.point 21 h).2 : ℤ)) := by
  refine ⟨?_, decodeHilbert_eq project loaded hh⟩
  have h1 : (face * 2 ^ 42 + h) / 2 ^ 42 = face := by omega
  have h2 : (face * 2 ^ 42 + h) % 2 ^ 42 = h := by omega
  rw [unpackAGID_eq, h1, h2]

theorem unpack_cell (loaded : Bool) (c : Cell) :
    let packed := packAGID c.face (encodeHilbert (getAgidWasmCore project loaded) K c.qx c.qy)
    (unpackAGID packed).1 = c.face
      ∧ decodeHilbert (getAgidWasmCore project loaded) K (unpackAGID packed).2
        = ((c.qx : ℤ), (c.qy : ℤ)) := by
  obtain ⟨h1, h2⟩ := unpack_place project loaded c.face (place_lt c.qx_lt c.qy_lt)
  rw [Hilbert.point_index 21 (p := (c.qx, c.qy)) ⟨c.qx_lt, c.qy_lt⟩] at h2
  simp only [pack_cell, h1, h2, and_self]

/-- A packed value in range is a cell's. -/
theorem exists_cell (loaded : Bool) {packed : ℤ} (h : isAgidPackedValueInRange packed = true) :
    ∃ c : Cell, packAGID c.face (encodeHilbert (getAgidWasmCore project loaded) K c.qx c.qy)
      = packed := by
  obtain ⟨p, rfl, hp⟩ := (inRange_iff packed).1 h
  have hr : p % 2 ^ 42 < 4 ^ 21 := by omega
  obtain ⟨hx, hy⟩ := Hilbert.point_mem 21 hr
  refine ⟨⟨p / 2 ^ 42, _, _, by omega, hx, hy⟩, ?_⟩
  rw [pack_cell]
  simp only [Prod.mk.eta, Hilbert.index_point 21 hr]
  congr 1
  omega

theorem pack_cell_inRange (loaded : Bool) (c : Cell) :
    isAgidPackedValueInRange
      (packAGID c.face (encodeHilbert (getAgidWasmCore project loaded) K c.qx c.qy)) = true := by
  have h1 := place_lt c.qx_lt c.qy_lt
  have h2 := c.face_lt
  rw [pack_cell]
  exact (inRange_iff _).2 ⟨_, rfl, by omega⟩

theorem decode_hash (loaded : Bool) (c : Cell) {n : ℕ} (hn : 9 ≤ n) :
    decodeBase32 (encodeBase32
        (packAGID c.face (encodeHilbert (getAgidWasmCore project loaded) K c.qx c.qy)) n)
      = .ok (packAGID c.face (encodeHilbert (getAgidWasmCore project loaded) K c.qx c.qy)) := by
  have h1 := place_lt c.qx_lt c.qy_lt
  have h2 := c.face_lt
  have h3 : 32 ^ 9 ≤ 32 ^ n := Nat.pow_le_pow_right (by omega) hn
  rw [pack_cell]
  exact decode_encodeBase32 (by omega)

theorem Cell.ext_of {c d : Cell} (h1 : (c.face : ℤ) = d.face)
    (h2 : ((c.qx : ℤ), (c.qy : ℤ)) = ((d.qx : ℤ), (d.qy : ℤ))) : c = d := by
  obtain ⟨f, x, y, _, _, _⟩ := c
  obtain ⟨f', x', y', _, _, _⟩ := d
  simp only [Prod.mk.injEq, Nat.cast_inj] at h1 h2
  obtain ⟨rfl, rfl⟩ := h2
  subst h1
  rfl

/-- The packed value of a cell. -/
def packCell (wasmCore : Option AgidWasmExports) (c : Cell) : ℤ :=
  packAGID c.face (encodeHilbert wasmCore K c.qx c.qy)

def AcceptedHash (hash : JsString) : Prop :=
  ∃ packed, decodeBase32 hash = .ok packed ∧ isAgidPackedValueInRange packed = true

/-- Cells and the accepted hashes of a length correspond one to one, for every length from nine
on; the hash `encodeAGID` writes has ten digits. -/
structure HashBijection (wasmCore : Option AgidWasmExports) : Prop where
  decode : ∀ n, 9 ≤ n → ∀ c : Cell, ∃ packed,
    decodeBase32 (encodeBase32 (packCell wasmCore c) n) = .ok packed
      ∧ (unpackAGID packed).1 = c.face
      ∧ decodeHilbert wasmCore K (unpackAGID packed).2 = ((c.qx : ℤ), (c.qy : ℤ))
  repack : ∀ packed, isAgidPackedValueInRange packed = true →
    let q := decodeHilbert wasmCore K (unpackAGID packed).2
    packAGID (unpackAGID packed).1 (encodeHilbert wasmCore K q.1 q.2) = packed
  injective : ∀ n, 9 ≤ n → Function.Injective fun c => encodeBase32 (packCell wasmCore c) n
  range : ∀ n, 9 ≤ n → Set.range (fun c => encodeBase32 (packCell wasmCore c) n)
    = {hash | hash.length = n ∧ AcceptedHash hash}
  hash : ∀ c : Cell, decodeAGIDHash wasmCore (encodeAGIDHash wasmCore c.face c.qx c.qy)
    = some ((c.face : ℤ), (c.qx : ℤ), (c.qy : ℤ))

/-- The correspondence holds whichever core computes the curve. -/
theorem agid_hash_bijection (loaded : Bool) : HashBijection (getAgidWasmCore project loaded) := by
  have hround : ∀ n, 9 ≤ n → ∀ c : Cell,
      decodeBase32 (encodeBase32 (packCell (getAgidWasmCore project loaded) c) n)
        = .ok (packCell (getAgidWasmCore project loaded) c) :=
    fun n hn c => decode_hash project loaded c hn
  refine ⟨fun n hn c => ⟨_, hround n hn c, unpack_cell project loaded c⟩, ?_, ?_, ?_, fun c => ?_⟩
  · intro packed h
    obtain ⟨c, rfl⟩ := exists_cell project loaded h
    obtain ⟨h1, h2⟩ := unpack_cell project loaded c
    simp only [h1, h2]
  · intro n hn c d hcd
    have heq : packCell (getAgidWasmCore project loaded) c
        = packCell (getAgidWasmCore project loaded) d := by
      have h := hround n hn c
      simp only at hcd
      rw [hcd, hround n hn d] at h
      exact (Except.ok.inj h).symm
    obtain ⟨h1, h2⟩ := unpack_cell project loaded c
    obtain ⟨h3, h4⟩ := unpack_cell project loaded d
    refine Cell.ext_of ?_ ?_
    · rw [← h1, ← h3]
      exact congrArg (fun p => (unpackAGID p).1) heq
    · rw [← h2, ← h4]
      exact congrArg
        (fun p => decodeHilbert (getAgidWasmCore project loaded) K (unpackAGID p).2) heq
  · refine fun n hn => Set.ext fun hash => ⟨?_, ?_⟩
    · rintro ⟨c, rfl⟩
      refine ⟨?_, _, hround n hn c, pack_cell_inRange project loaded c⟩
      simp only [packCell, pack_cell, encodeBase32, encodeBase32Loop_length, List.length_nil,
        add_zero]
    · rintro ⟨rfl, packed, hd, hr⟩
      obtain ⟨c, hc⟩ := exists_cell project loaded hr
      obtain ⟨r, rfl, hr'⟩ := encode_decodeBase32 hash packed hd
      refine ⟨c, ?_⟩
      simp only [packCell, hc, encodeBase32, hr', List.append_nil]
  · obtain ⟨h1, h2⟩ := unpack_cell project loaded c
    have h3 := pack_cell_inRange project loaded c
    have h4 := hround AGID_HASH_LENGTH (by decide) c
    simp only [packCell] at h4
    rw [decodeAGIDHash, encodeAGIDHash, h4]
    simp only [h1, h2, h3, if_true]

end Agid
