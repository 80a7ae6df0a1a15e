import Agid.SecureBase32
import Agid.Lib.Checks
import Agid.Lib.Regroup
import Agid.Proofs.Hash
import Agid.Proofs.SecurePos
import Agid.Proofs.Sha256
import Agid.Proofs.TextBytes

/-!
# Bytes and their digits

The low bits of the accumulators are those that are still to be put out, whatever is above them, so
both loops cut the same string of bits, one in fives and the other in eights.  What is decoded is
encoded as the text it was read from unless the bits that were left over make a digit of their own.
-/

namespace Agid.AgidSecureShare

open Sha256 (bitOr shiftLeft shiftRight shiftRight_eq ofInt_bitOr ofInt_shiftLeft)
open Fips180 (number number_append number_lt)
open Regroup

/-! ## The accumulator -/

/-- The low bits of a number are the bits that are still to be put out. -/
def Pending (value : ℤ) (p : List Bool) : Prop :=
  (BitVec.ofInt 32 value).toNat % 2 ^ p.length = number p

theorem pending_nil (value : ℤ) : Pending value [] := Nat.mod_one _

theorem bitAnd_mask {k : ℕ} (hk : k < 32) (x : ℤ) :
    bitAnd x (2 ^ k - 1 : ℕ) = ((BitVec.ofInt 32 x).toNat % 2 ^ k : ℕ) := by
  have hpow : 2 ^ k ≤ 2 ^ 31 := Nat.pow_le_pow_right (by decide) (by omega)
  have hmask : (BitVec.ofInt 32 ((2 ^ k - 1 : ℕ) : ℤ)).toNat = 2 ^ k - 1 := by
    rw [BitVec.ofInt_natCast, BitVec.toNat_ofNat, Nat.mod_eq_of_lt (by omega)]
  have hand : (BitVec.ofInt 32 x &&& BitVec.ofInt 32 ((2 ^ k - 1 : ℕ) : ℤ)).toNat
      = (BitVec.ofInt 32 x).toNat % 2 ^ k := by
    rw [BitVec.toNat_and, hmask, Nat.and_two_pow_sub_one_eq_mod]
  have hlt := Nat.mod_lt (BitVec.ofInt 32 x).toNat (Nat.two_pow_pos k)
  rw [bitAnd, BitVec.toInt_eq_toNat_of_lt (by rw [hand]; omega), hand]

theorem Pending.drop {value : ℤ} {p : List Bool} (h : Pending value p) (n : ℕ) :
    Pending value (p.drop n) := by
  have hsplit : number p = number (p.take n) * 2 ^ (p.drop n).length + number (p.drop n) := by
    rw [← number_append, List.take_append_drop]
  have hdvd : 2 ^ (p.drop n).length ∣ 2 ^ p.length :=
    Nat.pow_dvd_pow 2 (by rw [List.length_drop]; omega)
  unfold Pending at h ⊢
  rw [← Nat.mod_mod_of_dvd _ hdvd, h, hsplit, Nat.mul_add_mod_self_right,
    Nat.mod_eq_of_lt (number_lt _)]

/-- The bits before the others are the digit that is masked out. -/
theorem Pending.take {value : ℤ} {p : List Bool} (h : Pending value p) {w : ℕ} (h0 : 0 < w)
    (hw : w < 32) (hle : w ≤ p.length) (hlength : p.length ≤ 32) :
    bitAnd (shiftRight value (p.length - w)) (2 ^ w - 1 : ℕ) = (number (p.take w) : ℕ) := by
  have hdrop : (p.drop w).length = p.length - w := List.length_drop
  have hsplit : number p = number (p.take w) * 2 ^ (p.length - w) + number (p.drop w) := by
    rw [← hdrop, ← number_append, List.take_append_drop]
  have hpow : 2 ^ (p.length - w) * 2 ^ w = 2 ^ p.length := by
    rw [← pow_add]
    congr 1
    omega
  have hlow := number_lt (p.drop w)
  rw [hdrop] at hlow
  unfold Pending at h
  rw [bitAnd_mask hw, Sha256.ofInt_shiftRight, BitVec.toNat_ushiftRight, Nat.shiftRight_eq_div_pow,
    Nat.mod_eq_of_lt (a := p.length - w) (by omega), ← Nat.mod_mul_right_div_self, hpow, h, hsplit,
    mul_comm, Nat.mul_add_div (Nat.two_pow_pos _), Nat.div_eq_of_lt hlow, add_zero]

/-- Zeros that are put behind the bits up to the width. -/
theorem Pending.fill {value : ℤ} {p : List Bool} (h : Pending value p) {w : ℕ} (hw : w < 32)
    (hle : p.length ≤ w) :
    bitAnd (shiftLeft value (w - p.length)) (2 ^ w - 1 : ℕ)
      = (number p * 2 ^ (w - p.length) : ℕ) := by
  have hpow : 2 ^ w = 2 ^ p.length * 2 ^ (w - p.length) := by
    rw [← pow_add]
    congr 1
    omega
  have hdvd : 2 ^ w ∣ 2 ^ 32 := Nat.pow_dvd_pow 2 hw.le
  unfold Pending at h
  rw [bitAnd_mask hw, ofInt_shiftLeft, BitVec.toNat_shiftLeft, Nat.shiftLeft_eq,
    Nat.mod_eq_of_lt (a := w - p.length) (by omega), Nat.mod_mod_of_dvd _ hdvd, hpow,
    Nat.mul_mod_mul_right, h]

theorem number_append_digitBits (p : List Bool) {w d : ℕ} (hd : d < 2 ^ w) :
    number (p ++ digitBits w d) = number p * 2 ^ w + d := by
  rw [number_append, number_digitBits hd, length_digitBits]

/-- A digit that is shifted in is put behind the bits. -/
theorem Pending.push {value : ℤ} {p : List Bool} (h : Pending value p) {w d : ℕ} (hw : w < 32)
    (hlength : p.length + w ≤ 32) (hd : d < 2 ^ w) :
    Pending (bitOr (shiftLeft value w) d) (p ++ digitBits w d) := by
  have hpow : (2 : ℕ) ^ 32 = 2 ^ (32 - w) * 2 ^ w := by
    rw [← pow_add]
    congr 1
    omega
  have hdvd : 2 ^ p.length ∣ 2 ^ (32 - w) := Nat.pow_dvd_pow 2 (by omega)
  have hlt : d < 2 ^ 32 := hd.trans_le (Nat.pow_le_pow_right (by decide) (by omega))
  have hpush : (BitVec.ofInt 32 (bitOr (shiftLeft value w) d)).toNat
      = (BitVec.ofInt 32 value).toNat % 2 ^ (32 - w) * 2 ^ w + d := by
    rw [ofInt_bitOr, ofInt_shiftLeft, BitVec.toNat_or, BitVec.toNat_shiftLeft, Nat.shiftLeft_eq,
      Nat.mod_eq_of_lt hw, BitVec.ofInt_natCast, BitVec.toNat_ofNat, Nat.mod_eq_of_lt hlt, hpow,
      Nat.mul_mod_mul_right, Sha256.or_byte hd]
  unfold Pending at h ⊢
  rw [hpush, number_append_digitBits p hd, List.length_append, length_digitBits, pow_add,
    mul_comm (2 ^ p.length), Nat.mod_mul, Nat.mul_add_mod_self_right, Nat.mod_eq_of_lt hd,
    mul_comm _ (2 ^ w), Nat.mul_add_div (Nat.two_pow_pos w), Nat.div_eq_of_lt hd, add_zero,
    Nat.mod_mod_of_dvd _ hdvd, h]
  ring

/-! ## Encoding -/

def digitText (d : ℕ) : JsString := textAt BASE32_ALPHABET d

theorem emitDigits_eq {value : ℤ} (p : List Bool) : ∀ output : JsString, Pending value p →
    p.length ≤ 32 → emitDigits value p.length output
      = ((rest 5 p).length, output ++ (digits 5 p).flatMap digitText)
        ∧ Pending value (rest 5 p) := by
  induction p using rest.induct 5 with
  | case1 p h ih =>
    intro output hpending hlength
    obtain ⟨hemit, hrest⟩ := ih (output ++ digitText (number (p.take 5)))
      (hpending.drop 5) (by rw [List.length_drop]; omega)
    have htake := hpending.take (by decide) (by decide) h.2 hlength
    rw [emitDigits, if_pos h.2, digits, rest, if_pos h, if_pos h, ← List.length_drop,
      List.flatMap_cons, ← List.append_assoc, ← hemit]
    refine ⟨?_, hrest⟩
    rw [List.length_drop, digitText, ← htake]
    rfl
  | case2 p h =>
    intro output hpending hlength
    rw [emitDigits, if_neg (by omega), digits, rest, if_neg h, if_neg h, List.flatMap_nil,
      List.append_nil]
    exact ⟨rfl, hpending⟩

/-- What the loop over the bytes has put out of a string of bits. -/
def Encoded (s : Encoding) (m : List Bool) : Prop :=
  s.bits = (rest 5 m).length ∧ s.output = (digits 5 m).flatMap digitText
    ∧ Pending s.value (rest 5 m)

theorem Encoded.encodeByte {s : Encoding} {m : List Bool} (h : Encoded s m) (byte : UInt8) :
    Encoded (encodeByte s byte) (m ++ digitBits 8 byte.toNat) := by
  obtain ⟨hbits, houtput, hpending⟩ := h
  have hlt := length_rest_lt (w := 5) (by decide) m
  have hpush := hpending.push (w := 8) (by decide) (by omega) byte.toNat_lt
  have hlength : (rest 5 m ++ digitBits 8 byte.toNat).length = s.bits + 8 := by
    rw [List.length_append, length_digitBits, hbits]
  obtain ⟨hemit, hrest⟩ := emitDigits_eq _ s.output hpush (by omega)
  obtain ⟨hdigits, hcut⟩ := digits_append (w := 5) (by decide) m (digitBits 8 byte.toNat)
  unfold Encoded AgidSecureShare.encodeByte
  dsimp only
  rw [← hlength, hemit, hdigits, hcut, List.flatMap_append, ← houtput]
  exact ⟨rfl, rfl, hrest⟩

/-- The bits of the bytes. -/
def byteBits (bytes : List UInt8) : List Bool := (bytes.map UInt8.toNat).flatMap (digitBits 8)

theorem encoded_foldl : ∀ (bytes : List UInt8) {s : Encoding} {m : List Bool}, Encoded s m →
    Encoded (bytes.foldl encodeByte s) (m ++ byteBits bytes)
  | [], _, _, h => by rwa [byteBits, List.map_nil, List.flatMap_nil, List.append_nil]
  | byte :: bytes, _, _, h => by
    rw [byteBits, List.map_cons, List.flatMap_cons, ← byteBits, ← List.append_assoc]
    exact encoded_foldl bytes (h.encodeByte byte)

/-- The bits, and the zeros that make the last digit complete. -/
def padded (m : List Bool) : List Bool :=
  m ++ List.replicate ((5 - m.length % 5) % 5) false

theorem number_replicate_false (k : ℕ) : number (List.replicate k false) = 0 := by
  induction k with
  | zero => rfl
  | succ k ih =>
    rw [List.replicate_succ, Fips180.number_cons, ih, Bool.toNat_false, zero_mul]

theorem length_rest (m : List Bool) (w : ℕ) (hw : 0 < w) : (rest w m).length = m.length % w := by
  rw [← length_digits w m, Nat.mul_add_mod, Nat.mod_eq_of_lt (length_rest_lt hw m)]

theorem base32Encode_eq (bytes : List UInt8) :
    base32Encode bytes = (digits 5 (padded (byteBits bytes))).flatMap digitText := by
  obtain ⟨hbits, houtput, hpending⟩ := encoded_foldl bytes (s := ⟨0, 0, []⟩) (m := [])
    ⟨by rw [rest_of_lt (by decide)]; rfl, by rw [digits_of_lt (by decide)]; rfl, by
      rw [rest_of_lt (by decide)]
      exact pending_nil 0⟩
  rw [List.nil_append] at hbits houtput hpending
  have hlt := length_rest_lt (w := 5) (by decide) (byteBits bytes)
  have hmod := length_rest (byteBits bytes) 5 (by decide)
  obtain ⟨hdigits, -⟩ := digits_append (w := 5) (by decide) (byteBits bytes)
    (List.replicate ((5 - (byteBits bytes).length % 5) % 5) false)
  rw [padded, hdigits, List.flatMap_append, ← houtput]
  unfold base32Encode
  dsimp only
  split_ifs with hpos
  · have hfill := hpending.fill (w := 5) (by decide) hlt.le
    have hfull : (rest 5 (byteBits bytes)
        ++ List.replicate ((5 - (byteBits bytes).length % 5) % 5) false).length = 5 := by
      rw [List.length_append, List.length_replicate]
      omega
    have hone := digits_append_of_length (w := 5) (by decide) hfull []
    rw [List.append_nil, digits_of_lt (m := []) (by decide)] at hone
    have hlast : (5 - (byteBits bytes).length % 5) % 5 = 5 - (rest 5 (byteBits bytes)).length := by
      omega
    rw [hone, List.flatMap_singleton, number_append, number_replicate_false,
      List.length_replicate, add_zero, hlast, digitText, ← hfill, ← hbits]
    rfl
  · have hzero : (5 - (byteBits bytes).length % 5) % 5 = 0 := by omega
    have hnil : rest 5 (byteBits bytes) = [] := List.eq_nil_of_length_eq_zero (by omega)
    rw [hzero, hnil, List.replicate_zero, List.append_nil, digits_of_lt (m := []) (by decide),
      List.flatMap_nil, List.append_nil]

/-! ## Decoding -/

/-- What the loop over the characters has put out of a string of bits. -/
def Decoded (s : Decoding) (m : List Bool) : Prop :=
  s.bits = (rest 8 m).length ∧ s.bytes = (digits 8 m).map UInt8.ofNat
    ∧ Pending s.buffer (rest 8 m)

theorem Decoded.decodeDigit {s : Decoding} {m : List Bool} (h : Decoded s m) {d : ℕ}
    (hd : d < 32) : Decoded (decodeDigit s d) (m ++ digitBits 5 d) := by
  obtain ⟨hbits, hbytes, hpending⟩ := h
  have hlt := length_rest_lt (w := 8) (by decide) m
  have hpush := hpending.push (w := 5) (d := d) (by decide) (by omega) hd
  have hlength : (rest 8 m ++ digitBits 5 d).length = s.bits + 5 := by
    rw [List.length_append, length_digitBits, hbits]
  obtain ⟨hdigits, hcut⟩ := digits_append (w := 8) (by decide) m (digitBits 5 d)
  unfold Decoded AgidSecureShare.decodeDigit
  dsimp only
  rw [hdigits, hcut]
  split_ifs with hfull
  · have hle : 8 ≤ (rest 8 m ++ digitBits 5 d).length := by omega
    have hdrop : ((rest 8 m ++ digitBits 5 d).drop 8).length < 8 := by
      rw [List.length_drop]
      omega
    have htake := hpush.take (w := 8) (by decide) (by decide) hle (by omega)
    rw [hlength] at htake
    rw [digits.eq_def 8 (_ ++ _), rest.eq_def 8 (_ ++ _), if_pos ⟨by decide, hle⟩,
      if_pos ⟨by decide, hle⟩, digits_of_lt hdrop, rest_of_lt hdrop, List.map_append, ← hbytes]
    refine ⟨by rw [List.length_drop, hlength], ?_, hpush.drop 8⟩
    rw [List.map_singleton]
    exact congrArg (fun x : ℤ => s.bytes ++ [UInt8.ofNat x.toNat]) htake
  · have hshort : (rest 8 m ++ digitBits 5 d).length < 8 := by omega
    rw [digits_of_lt hshort, rest_of_lt hshort, List.append_nil, hlength]
    exact ⟨rfl, hbytes, hpush⟩

theorem decoded_foldl : ∀ {ds : List ℕ} {s : Decoding} {m : List Bool}, (∀ d ∈ ds, d < 32) →
    Decoded s m → Decoded (ds.foldl decodeDigit s) (m ++ ds.flatMap (digitBits 5))
  | [], _, _, _, h => by rwa [List.flatMap_nil, List.append_nil]
  | d :: ds, _, _, hds, h => by
    rw [List.flatMap_cons, ← List.append_assoc]
    exact decoded_foldl (fun d hd => hds d (List.mem_cons_of_mem _ hd))
      (h.decodeDigit (hds d List.mem_cons_self))

theorem base32Digit_digitText {d : ℕ} (hd : d < 32) : base32Digit (digitText d) = some d := by
  obtain ⟨c, hc, hidx⟩ := alphabet_digit hd
  rw [digitText, hc]
  exact hidx

theorem digitText_of_base32Digit {char : JsString} {d : ℕ} (h : base32Digit char = some d) :
    d < 32 ∧ digitText d = char := by
  unfold base32Digit at h
  split at h
  · exact alphabet_idxOf h
  · cases h

theorem decodeChars_eq_ok : ∀ {l : List JsString} {s s' : Decoding},
    decodeChars l s = .ok s' ↔ ∃ ds : List ℕ, (∀ d ∈ ds, d < 32) ∧ l = ds.map digitText
      ∧ s' = ds.foldl decodeDigit s
  | [], s, s' => by
    constructor
    · intro h
      obtain rfl := Except.ok.inj h
      exact ⟨[], fun d hd => absurd hd List.not_mem_nil, rfl, rfl⟩
    · rintro ⟨ds, -, hl, rfl⟩
      obtain rfl := List.map_eq_nil_iff.1 hl.symm
      rfl
  | char :: l, s, s' => by
    unfold decodeChars
    constructor
    · intro h
      rcases hdigit : base32Digit char with _ | d <;> rw [hdigit] at h
      · cases h
      · obtain ⟨hd, hchar⟩ := digitText_of_base32Digit hdigit
        obtain ⟨ds, hds, rfl, rfl⟩ := decodeChars_eq_ok.1 h
        refine ⟨d :: ds, fun x hx => ?_, by rw [List.map_cons, hchar], rfl⟩
        rcases List.mem_cons.1 hx with rfl | hx
        · exact hd
        · exact hds x hx
    · rintro ⟨ds, hds, hl, rfl⟩
      rcases ds with _ | ⟨d, ds⟩
      · cases hl
      · obtain ⟨rfl, rfl⟩ := List.cons.inj hl
        rw [base32Digit_digitText (hds d List.mem_cons_self)]
        exact decodeChars_eq_ok.2 ⟨ds, fun x hx => hds x (List.mem_cons_of_mem d hx), rfl, rfl⟩

theorem number_eq_zero : ∀ {m : List Bool}, number m = 0 → m = List.replicate m.length false
  | [], _ => rfl
  | b :: m, h => by
    rw [Fips180.number_cons] at h
    have hpow := Nat.two_pow_pos m.length
    cases b with
    | false =>
      rw [Bool.toNat_false, zero_mul, zero_add] at h
      rw [List.length_cons, List.replicate_succ, ← number_eq_zero h]
    | true =>
      rw [Bool.toNat_true] at h
      omega

/-- What is accepted: digits whose bits are those of the bytes, and zeros. -/
theorem base32Decode_eq_ok {toUpperCase : JsString → JsString} {text : JsString}
    {bytes : List UInt8} :
    base32Decode toUpperCase text = .ok bytes ↔
      ∃ ds : List ℕ, (∀ d ∈ ds, d < 32) ∧ chars (toUpperCase (trim text)) = ds.map digitText
        ∧ bytes = (digits 8 (ds.flatMap (digitBits 5))).map UInt8.ofNat
        ∧ number (rest 8 (ds.flatMap (digitBits 5))) = 0 := by
  have hdecoded {ds : List ℕ} (hds : ∀ d ∈ ds, d < 32) :
      Decoded (ds.foldl decodeDigit ⟨0, 0, []⟩) (ds.flatMap (digitBits 5)) := by
    refine decoded_foldl (m := []) hds ⟨?_, ?_, ?_⟩
    · rw [rest_of_lt (by decide)]
      rfl
    · rw [digits_of_lt (by decide)]
      rfl
    · rw [rest_of_lt (by decide)]
      exact pending_nil 0
  have hcheck {ds : List ℕ} (hds : ∀ d ∈ ds, d < 32) :
      ((ds.foldl decodeDigit ⟨0, 0, []⟩).bits > 0
        ∧ bitAnd (shiftLeft (ds.foldl decodeDigit ⟨0, 0, []⟩).buffer
          (8 - (ds.foldl decodeDigit ⟨0, 0, []⟩).bits)) 0xff ≠ 0)
        ↔ number (rest 8 (ds.flatMap (digitBits 5))) ≠ 0 := by
    obtain ⟨hbits, -, hpending⟩ := hdecoded hds
    have hlt := length_rest_lt (w := 8) (by decide) (ds.flatMap (digitBits 5))
    have hfill := hpending.fill (w := 8) (by decide) hlt.le
    have hpow := Nat.two_pow_pos (8 - (rest 8 (ds.flatMap (digitBits 5))).length)
    rw [hbits]
    constructor
    · rintro ⟨-, hne⟩ hzero
      rw [hzero, zero_mul] at hfill
      exact hne hfill
    · intro hne
      refine ⟨List.length_pos_iff.2 fun hnil => hne (by rw [hnil]; rfl), fun hzero => ?_⟩
      have hmul := hfill.symm.trans hzero
      rcases Nat.mul_eq_zero.1 (Int.natCast_eq_zero.1 hmul) with h | h
      · exact hne h
      · omega
  unfold base32Decode
  constructor
  · intro h
    obtain ⟨s, hs, h⟩ := Checks.bind_eq_ok.1 h
    obtain ⟨ds, hds, hchars, rfl⟩ := decodeChars_eq_ok.1 hs
    split_ifs at h with hpadding
    obtain rfl := Except.ok.inj h
    exact ⟨ds, hds, hchars, (hdecoded hds).2.1, by_contra fun hne => hpadding ((hcheck hds).2 hne)⟩
  · rintro ⟨ds, hds, hchars, rfl, hzero⟩
    refine Checks.bind_eq_ok.2 ⟨_, decodeChars_eq_ok.2 ⟨ds, hds, hchars, rfl⟩, ?_⟩
    rw [if_neg fun hpadding => (hcheck hds).1 hpadding hzero, (hdecoded hds).2.1]

/-! ## Both ways -/

theorem length_byteBits (bytes : List UInt8) : (byteBits bytes).length = 8 * bytes.length := by
  rw [byteBits, length_flatMap_digitBits, List.length_map]

theorem length_padded (m : List Bool) : (padded m).length % 5 = 0 := by
  rw [padded, List.length_append, List.length_replicate]
  omega

theorem rest_padded (m : List Bool) : rest 5 (padded m) = [] :=
  List.eq_nil_of_length_eq_zero (by rw [length_rest _ _ (by decide), length_padded])

theorem flatMap_digits_padded (m : List Bool) :
    (digits 5 (padded m)).flatMap (digitBits 5) = padded m := by
  have h := flatMap_digits 5 (padded m)
  rwa [rest_padded, List.append_nil] at h

theorem length_digitText {d : ℕ} (hd : d < 32) : (digitText d).length = 1 := by
  obtain ⟨c, hc, -⟩ := alphabet_digit hd
  rw [digitText, hc, List.length_singleton]

theorem mem_alphabet_of_mem_digitText {d : ℕ} (hd : d < 32) {c : CodeUnit}
    (hc : c ∈ digitText d) : c ∈ BASE32_ALPHABET := by
  obtain ⟨c', hc', hidx⟩ := alphabet_digit hd
  rw [digitText, hc', List.mem_singleton] at hc
  subst hc
  exact List.isSome_idxOf?.1 (by rw [hidx]; rfl)

theorem length_flatMap_digitText : ∀ {ds : List ℕ}, (∀ d ∈ ds, d < 32) →
    (ds.flatMap digitText).length = ds.length
  | [], _ => rfl
  | d :: ds, h => by
    rw [List.flatMap_cons, List.length_append, length_digitText (h d List.mem_cons_self),
      length_flatMap_digitText fun x hx => h x (List.mem_cons_of_mem d hx), List.length_cons]
    omega

theorem alphabet_units {c : CodeUnit} (hc : c ∈ BASE32_ALPHABET) : isUpperAlphanumeric c = true
    ∧ isWhiteSpace c = false ∧ isHighSurrogate c = false := by
  have hall : (BASE32_ALPHABET.all fun c =>
      isUpperAlphanumeric c && !isWhiteSpace c && !isHighSurrogate c) = true := by rfl
  simpa [and_assoc] using List.all_eq_true.1 hall c hc

theorem chars_flatMap_digitText {ds : List ℕ} (h : ∀ d ∈ ds, d < 32) :
    chars (ds.flatMap digitText) = ds.map digitText := by
  have hunits : ∀ c ∈ ds.flatMap digitText, isHighSurrogate c = false := fun c hc => by
    obtain ⟨d, hd, hc⟩ := List.mem_flatMap.1 hc
    exact (alphabet_units (mem_alphabet_of_mem_digitText (h d hd) hc)).2.2
  rw [Sha256.chars_of_units hunits]
  clear hunits
  induction ds with
  | nil => rfl
  | cons d ds ih =>
    obtain ⟨c, hc, -⟩ := alphabet_digit (h d List.mem_cons_self)
    rw [List.flatMap_cons, List.map_append, ih fun x hx => h x (List.mem_cons_of_mem d hx),
      List.map_cons, digitText, hc]
    rfl

/-- Upper case keeps a text of capital letters and digits. -/
def KeepsUpper (toUpperCase : JsString → JsString) : Prop :=
  ∀ s : JsString, (∀ c ∈ s, isUpperAlphanumeric c = true) → toUpperCase s = s

theorem mem_alphabet_of_encoded {bytes : List UInt8} {c : CodeUnit} (hc : c ∈ base32Encode bytes) :
    c ∈ BASE32_ALPHABET := by
  rw [base32Encode_eq] at hc
  obtain ⟨d, hd, hc⟩ := List.mem_flatMap.1 hc
  exact mem_alphabet_of_mem_digitText (lt_of_mem_digits 5 _ d hd) hc

theorem base32Decode_base32Encode {toUpperCase : JsString → JsString}
    (hupper : KeepsUpper toUpperCase) (bytes : List UInt8) :
    base32Decode toUpperCase (base32Encode bytes) = .ok bytes := by
  have hcleaned : toUpperCase (trim (base32Encode bytes)) = base32Encode bytes := by
    rw [trim_eq_self fun c hc => (alphabet_units (mem_alphabet_of_encoded hc)).2.1,
      hupper _ fun c hc => (alphabet_units (mem_alphabet_of_encoded hc)).1]
  have hds : ∀ d ∈ digits 5 (padded (byteBits bytes)), d < 32 := lt_of_mem_digits 5 _
  have hbytes : ∀ d ∈ bytes.map UInt8.toNat, d < 2 ^ 8 := fun d hd => by
    obtain ⟨byte, -, rfl⟩ := List.mem_map.1 hd
    exact byte.toNat_lt
  obtain ⟨hdigits, hrest⟩ := digits_flatMap (w := 8) (by decide) hbytes
    (List.replicate ((5 - (byteBits bytes).length % 5) % 5) false)
  have hshort : (List.replicate ((5 - (byteBits bytes).length % 5) % 5) false).length < 8 := by
    rw [List.length_replicate]
    omega
  rw [digits_of_lt hshort, List.append_nil] at hdigits
  rw [rest_of_lt hshort] at hrest
  rw [← byteBits] at hdigits hrest
  refine base32Decode_eq_ok.2 ⟨_, hds, ?_, ?_, ?_⟩
  · rw [hcleaned, base32Encode_eq, chars_flatMap_digitText hds]
  · rw [flatMap_digits_padded, padded, hdigits, List.map_map]
    exact (List.map_id'' (fun byte => UInt8.ofNat_toNat) bytes).symm
  · rw [flatMap_digits_padded, padded]
    exact (congrArg number hrest).trans (number_replicate_false _)

/-- The bits that were left over do not make a digit. -/
theorem base32Encode_eq_iff {toUpperCase : JsString → JsString} {text : JsString}
    {bytes : List UInt8} (h : base32Decode toUpperCase text = .ok bytes) :
    base32Encode bytes = toUpperCase (trim text)
      ↔ (toUpperCase (trim text)).length % 8 ∉ [1, 3, 6] := by
  obtain ⟨ds, hds, hchars, rfl, hzero⟩ := base32Decode_eq_ok.1 h
  have htext : toUpperCase (trim text) = ds.flatMap digitText := by
    rw [← flatten_chars (toUpperCase (trim text)), hchars, List.flatMap_def]
  have hlength : (toUpperCase (trim text)).length = ds.length := by
    rw [htext, length_flatMap_digitText hds]
  have hmod := length_rest (ds.flatMap (digitBits 5)) 8 (by decide)
  rw [length_flatMap_digitBits] at hmod
  have hback : byteBits ((digits 8 (ds.flatMap (digitBits 5))).map UInt8.ofNat)
      = (digits 8 (ds.flatMap (digitBits 5))).flatMap (digitBits 8) := by
    rw [byteBits, List.map_map]
    refine congrArg _ ((List.map_congr_left fun d hd => ?_).trans (List.map_id _))
    exact UInt8.toNat_ofNat_of_lt (lt_of_mem_digits 8 _ d hd)
  have hsplit := flatMap_digits 8 (ds.flatMap (digitBits 5))
  rw [← hback, number_eq_zero hzero, hmod] at hsplit
  have hcut := congrArg List.length hsplit
  rw [List.length_append, List.length_replicate, length_flatMap_digitBits] at hcut
  set m := byteBits ((digits 8 (ds.flatMap (digitBits 5))).map UInt8.ofNat) with hm
  have hsmall : (toUpperCase (trim text)).length % 8 ∉ [1, 3, 6] ↔ 5 * ds.length % 8 < 5 := by
    have hall : ∀ r : Fin 8, r.val ∉ [1, 3, 6] ↔ 5 * r.val % 8 < 5 := by decide
    rw [hlength, ← Nat.mul_mod_mod]
    exact hall ⟨ds.length % 8, Nat.mod_lt _ (by decide)⟩
  rw [hsmall, base32Encode_eq, ← hm, htext]
  constructor
  · intro hsame
    have hsame := congrArg List.length hsame
    rw [length_flatMap_digitText (lt_of_mem_digits 5 _), length_flatMap_digitText hds] at hsame
    have hdigits := length_digits 5 (padded m)
    rw [rest_padded, List.length_nil, hsame, padded, List.length_append,
      List.length_replicate] at hdigits
    omega
  · intro hlt
    have hzeros : (5 - m.length % 5) % 5 = 5 * ds.length % 8 := by omega
    have hall := digits_flatMap (w := 5) (by decide) hds []
    rw [padded, hzeros, hsplit]
    rw [List.append_nil, digits_of_lt (m := []) (by decide), List.append_nil] at hall
    rw [hall.1]

/-- Decoding undoes encoding, and encoding undoes decoding but for the texts whose length leaves the
bits of a whole digit over. -/
theorem base32_bijective_iff {toUpperCase : JsString → JsString} (hupper : KeepsUpper toUpperCase) :
    (∀ bytes, base32Decode toUpperCase (base32Encode bytes) = .ok bytes)
      ∧ ∀ text bytes, base32Decode toUpperCase text = .ok bytes →
        (base32Encode bytes = toUpperCase (trim text)
          ↔ (toUpperCase (trim text)).length % 8 ∉ [1, 3, 6]) :=
  ⟨base32Decode_base32Encode hupper, fun _ _ h => base32Encode_eq_iff h⟩

/-- `toUpperCase` of a text of ASCII characters. -/
def upperAsciiText (s : JsString) : JsString :=
  s.map fun c => if 97 ≤ c.val ∧ c.val ≤ 122 then c - 32 else c

/-- One digit is read, and its five zeros are left over: no byte is made of them. -/
theorem base32_rewrites_zero : ¬ ((∀ bytes,
      base32Decode upperAsciiText (base32Encode bytes) = .ok bytes)
    ∧ ∀ text bytes, base32Decode upperAsciiText text = .ok bytes →
      base32Encode bytes = upperAsciiText (trim text)) := by
  rintro ⟨-, hback⟩
  have hdecoded : base32Decode upperAsciiText (js "0") = .ok [] := by decide
  have hnil : base32Encode [] = [] := by decide
  exact absurd (hnil.symm.trans (hback _ _ hdecoded)) (by decide)

theorem keepsUpper_upperAsciiText : KeepsUpper upperAsciiText := fun s hs => by
  refine (List.map_congr_left fun c hc => ?_).trans (List.map_id s)
  have hupper := hs c hc
  simp only [isUpperAlphanumeric, Bool.or_eq_true, Bool.and_eq_true, decide_eq_true_eq] at hupper
  rw [if_neg (by omega)]
  rfl

theorem base32_bijective_upperAscii :
    (∀ bytes, base32Decode upperAsciiText (base32Encode bytes) = .ok bytes)
      ∧ ∀ text bytes, base32Decode upperAsciiText text = .ok bytes →
        (base32Encode bytes = upperAsciiText (trim text)
          ↔ (upperAsciiText (trim text)).length % 8 ∉ [1, 3, 6]) :=
  base32_bijective_iff keepsUpper_upperAsciiText

end Agid.AgidSecureShare
