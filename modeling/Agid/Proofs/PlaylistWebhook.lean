import Agid.PlaylistWebhook
import Agid.Proofs.Sha256
import Agid.Proofs.TextBytes

/-!
# The browser signs as the server does

The hash over typed arrays keeps the words of the standard: where it leaves a sign in a sum, the sum
is still exact and the sign is lost in the 32 bits.  The padded array is the padded message, the
block of the key is the block of the construction, and the digits are those of the digest.
-/

namespace Agid.PlaylistWebhook

open Sha256
open Fips180 (Word Words)

/-! ## Typed arrays -/

theorem setBytes_append (array rest : List UInt8) {middle values : List UInt8}
    (h : middle.length = values.length) :
    setBytes (array ++ (middle ++ rest)) values array.length = array ++ (values ++ rest) := by
  rw [setBytes, List.take_left, List.append_assoc]
  congr 2
  rw [← h, ← List.append_assoc, ← List.length_append, List.drop_left]

theorem setUint32_append (array rest : List UInt8) {middle : List UInt8} (value : ℤ)
    (h : middle.length = 4) :
    setUint32 (array ++ (middle ++ rest)) array.length value
      = array ++ (bytesOf (BitVec.ofInt 32 value) ++ rest) := setBytes_append array rest h

theorem concatBytes_eq (parts : List (List UInt8)) : concatBytes parts = parts.flatten := by
  have total : ∀ (parts : List (List UInt8)) (n : ℕ),
      parts.foldl (fun sum part => sum + part.length) n = n + parts.flatten.length := by
    intro parts
    induction parts with
    | nil => exact fun _ => rfl
    | cons part parts ih =>
      intro n
      rw [List.foldl_cons, ih, List.flatten_cons, List.length_append, add_assoc]
  have filled : ∀ (parts : List (List UInt8)) (output : List UInt8),
      (parts.foldl
        (fun state part => (setBytes state.1 part state.2, state.2 + part.length))
        (output ++ List.replicate parts.flatten.length 0, output.length)).1
        = output ++ parts.flatten := by
    intro parts
    induction parts with
    | nil => exact fun _ => rfl
    | cons part parts ih =>
      intro output
      have hset := setBytes_append output (List.replicate parts.flatten.length 0)
        (List.length_replicate (n := part.length) (a := 0))
      rw [List.foldl_cons, List.flatten_cons, List.length_append, List.replicate_add]
      dsimp only
      rw [hset, ← List.append_assoc, ← List.length_append, ih, List.append_assoc]
  unfold concatBytes
  rw [total, Nat.zero_add]
  exact filled parts []

/-! ## Sums -/

/-- A number that the operators give, or a word. -/
def Short (x : ℤ) : Prop := -2 ^ 31 ≤ x ∧ x < 2 ^ 32

theorem short_num (v : Word) : Short (num v) := by
  have := num_nonneg v
  have := num_lt v
  exact ⟨by omega, by omega⟩

theorem short_bitXor (x y : ℤ) : Short (bitXor x y) := by
  have hlow := BitVec.le_toInt (BitVec.ofInt 32 x ^^^ BitVec.ofInt 32 y)
  have hhigh := BitVec.toInt_lt (x := BitVec.ofInt 32 x ^^^ BitVec.ofInt 32 y)
  exact ⟨hlow, hhigh.trans (by decide)⟩

theorem plus_exact {x y : ℤ} (hlow : -2 ^ 52 ≤ x + y) (hhigh : x + y ≤ 2 ^ 52) :
    plus x y = x + y := nearestNumber_of_lt (by omega)

theorem shiftRight_plus₂ {x y : ℤ} (hx : Short x) (hy : Short y) :
    shiftRight (plus x y) 0 = num (BitVec.ofInt 32 x + BitVec.ofInt 32 y) := by
  unfold Short at hx hy
  rw [plus_exact (by omega) (by omega), shiftRight_zero, BitVec.ofInt_add]

theorem shiftRight_plus_four {x₁ x₂ x₃ x₄ : ℤ} (h₁ : Short x₁) (h₂ : Short x₂) (h₃ : Short x₃)
    (h₄ : Short x₄) : shiftRight (plus (plus (plus x₁ x₂) x₃) x₄) 0
      = num (BitVec.ofInt 32 x₁ + BitVec.ofInt 32 x₂ + BitVec.ofInt 32 x₃
        + BitVec.ofInt 32 x₄) := by
  unfold Short at h₁ h₂ h₃ h₄
  rw [plus_exact (x := x₁) (by omega) (by omega), plus_exact (x := x₁ + x₂) (by omega) (by omega),
    plus_exact (x := x₁ + x₂ + x₃) (by omega) (by omega), shiftRight_zero]
  simp only [BitVec.ofInt_add]

theorem shiftRight_plus_five {x₁ x₂ x₃ x₄ x₅ : ℤ} (h₁ : Short x₁) (h₂ : Short x₂) (h₃ : Short x₃)
    (h₄ : Short x₄) (h₅ : Short x₅) : shiftRight (plus (plus (plus (plus x₁ x₂) x₃) x₄) x₅) 0
      = num (BitVec.ofInt 32 x₁ + BitVec.ofInt 32 x₂ + BitVec.ofInt 32 x₃ + BitVec.ofInt 32 x₄
        + BitVec.ofInt 32 x₅) := by
  unfold Short at h₁ h₂ h₃ h₄ h₅
  rw [plus_exact (x := x₁) (by omega) (by omega), plus_exact (x := x₁ + x₂) (by omega) (by omega),
    plus_exact (x := x₁ + x₂ + x₃) (by omega) (by omega),
    plus_exact (x := x₁ + x₂ + x₃ + x₄) (by omega) (by omega), shiftRight_zero]
  simp only [BitVec.ofInt_add]

/-! ## Blocks -/

theorem ofInt_rotateRight (v : Word) {n : ℕ} (h0 : 0 < n) (h : n < 32) :
    BitVec.ofInt 32 (rotateRight (num v) n) = v.rotateRight n := by
  rw [← ofInt_num v, ← ofInt_rotr _ h0 h, ofInt_num]
  rfl

/-- What the words of the operators are on words. -/
theorem ofInt_sigma (v : Word) {i j k : ℕ} (hi : 0 < i ∧ i < 32) (hj : 0 < j ∧ j < 32)
    (hk : 0 < k ∧ k < 32) :
    BitVec.ofInt 32 (bitXor (bitXor (rotateRight (num v) i) (rotateRight (num v) j))
      (rotateRight (num v) k)) = v.rotateRight i ^^^ v.rotateRight j ^^^ v.rotateRight k := by
  rw [ofInt_bitXor, ofInt_bitXor, ofInt_rotateRight v hi.1 hi.2, ofInt_rotateRight v hj.1 hj.2,
    ofInt_rotateRight v hk.1 hk.2]

theorem ofInt_shiftSigma (v : Word) {i j k : ℕ} (hi : 0 < i ∧ i < 32) (hj : 0 < j ∧ j < 32)
    (hk : k < 32) :
    BitVec.ofInt 32 (bitXor (bitXor (rotateRight (num v) i) (rotateRight (num v) j))
      (shiftRight (num v) k)) = v.rotateRight i ^^^ v.rotateRight j ^^^ v >>> k := by
  rw [ofInt_bitXor, ofInt_bitXor, ofInt_rotateRight v hi.1 hi.2, ofInt_rotateRight v hj.1 hj.2,
    ofInt_shiftRight, ofInt_num, Nat.mod_eq_of_lt hk]

theorem extendedWord_eq {w : List ℤ} {i : ℕ} {x₁ x₂ x₃ x₄ : Word}
    (h₁ : w.getD (i - 16) 0 = num x₁) (h₂ : w.getD (i - 15) 0 = num x₂)
    (h₃ : w.getD (i - 7) 0 = num x₃) (h₄ : w.getD (i - 2) 0 = num x₄) :
    extendedWord w i = num (Fips180.smallSigma1 x₄ + x₃ + Fips180.smallSigma0 x₂ + x₁) := by
  unfold extendedWord
  dsimp only
  rw [h₁, h₂, h₃, h₄, shiftRight_plus_four (short_num _) (short_bitXor _ _) (short_num _)
    (short_bitXor _ _), ofInt_shiftSigma x₂ (by decide) (by decide) (by decide),
    ofInt_shiftSigma x₄ (by decide) (by decide) (by decide), ofInt_num, ofInt_num]
  refine congrArg num ?_
  simp only [Fips180.smallSigma0, Fips180.smallSigma1]
  ac_rfl

theorem roundStep_eq (k w : Word) (s : Words) :
    roundStep (num k) (num w) (ofWords s) = ofWords (Fips180.round k w s) := by
  have hsigma1 := ofInt_sigma s.e (i := 6) (j := 11) (k := 25) (by decide) (by decide) (by decide)
  have hsigma0 := ofInt_sigma s.a (i := 2) (j := 13) (k := 22) (by decide) (by decide) (by decide)
  unfold roundStep
  dsimp only [ofWords]
  rw [shiftRight_plus_five (short_num _) (short_bitXor _ _) (short_bitXor _ _) (short_num _)
    (short_num _), shiftRight_plus₂ (short_bitXor _ _) (short_bitXor _ _), hsigma1, hsigma0,
    shiftRight_plus, shiftRight_plus]
  simp only [ofInt_bitXor, ofInt_bitAnd, ofInt_bitNot, ofInt_num, Fips180.round, Fips180.bigSigma0,
    Fips180.bigSigma1, Fips180.ch, Fips180.maj]

theorem getUint32_eq {bytes : List UInt8} {k : ℕ} (h : 4 * k + 4 ≤ bytes.length) :
    getUint32 bytes (4 * k) = num (Fips180.word (bitsOf bytes) k) := by
  have htake : (bytes.drop (4 * k)).take 4
      = [bytes[4 * k], bytes[4 * k + 1], bytes[4 * k + 2], bytes[4 * k + 3]] := by
    rw [List.drop_eq_getElem_cons (by omega), List.drop_eq_getElem_cons (by omega),
      List.drop_eq_getElem_cons (by omega), List.drop_eq_getElem_cons (by omega)]
    rfl
  have getD_eq {j : ℕ} (hj : j < bytes.length) : bytes.getD j 0 = bytes[j] := by
    rw [List.getD_eq_getElem?_getD, List.getElem?_eq_getElem hj, Option.getD_some]
  have h₀ := bytes[4 * k].toNat_lt
  have h₁ := bytes[4 * k + 1].toNat_lt
  have h₂ := bytes[4 * k + 2].toNat_lt
  have h₃ := bytes[4 * k + 3].toNat_lt
  rw [word_bitsOf htake, getUint32, getD_eq (by omega), getD_eq (by omega), getD_eq (by omega),
    getD_eq (by omega), num, BitVec.toNat_ofNat, Nat.mod_eq_of_lt (by omega)]

theorem blockStep_eq {padded : List UInt8} {i : ℕ} (h : 64 * i + 64 ≤ padded.length) (s : Words) :
    blockStep padded (64 * i) (ofWords s)
      = ofWords (Fips180.compress (Fips180.block (bitsOf padded) i) s) := by
  have hfirst : ∀ j < 16, getUint32 padded (64 * i + j * 4)
      = num (Fips180.block (bitsOf padded) i j) := fun j hj => by
    rw [Fips180.block, ← getUint32_eq (by omega)]
    congr 1
    omega
  have hwords : blockWords padded (64 * i)
      = (List.range 64).map fun t =>
        num (Fips180.schedule (Fips180.block (bitsOf padded) i) t) :=
    foldl_extend_eq extendedWord_eq hfirst
  have hreads : ∀ t ∈ List.range 64, SHA256_K.getD t 0 = num (Fips180.K t)
      ∧ (blockWords padded (64 * i)).getD t 0
        = num (Fips180.schedule (Fips180.block (bitsOf padded) i) t) := fun t ht => by
    refine ⟨Sha256.K_eq t (List.mem_range.1 ht), ?_⟩
    rw [hwords]
    simp [List.getD_eq_getElem?_getD, List.mem_range.1 ht]
  have hrounds := foldl_round_eq roundStep_eq (s := s) hreads
  simp only [blockStep, hrounds, Fips180.compress]
  simp only [ofWords, shiftRight_plus, add_comm]

/-! ## Padding -/

theorem padMessage_eq (message : List UInt8) : padMessage message = padding message := by
  have hlength : paddedLength message
      = message.length + (1 + ((119 - message.length % 64) % 64 + (4 + 4))) := by
    simp only [paddedLength, SHA256_BLOCK_BYTES]
    omega
  have hset : setBytes (List.replicate (paddedLength message) 0) message 0
      = message ++ (0 :: (List.replicate ((119 - message.length % 64) % 64) 0
        ++ (List.replicate 4 0 ++ List.replicate 4 0))) := by
    rw [hlength, List.replicate_add, List.replicate_add, List.replicate_add, List.replicate_add]
    exact setBytes_append [] _ (List.length_replicate ..)
  have hmark : (message ++ (0 :: (List.replicate ((119 - message.length % 64) % 64) 0
        ++ (List.replicate 4 0 ++ List.replicate 4 0)))).set message.length 0x80
      = message ++ 0x80 :: List.replicate ((119 - message.length % 64) % 64) 0
        ++ (List.replicate 4 0 ++ List.replicate 4 0) := by
    rw [List.set_append_right _ _ le_rfl, Nat.sub_self, List.set_cons_zero, List.append_assoc,
      List.cons_append]
  have hhigh : paddedLength message - 8
      = (message ++ 0x80 :: List.replicate ((119 - message.length % 64) % 64) 0).length := by
    rw [List.length_append, List.length_cons, List.length_replicate]
    omega
  have hlow : paddedLength message - 4
      = (message ++ 0x80 :: List.replicate ((119 - message.length % 64) % 64) 0
        ++ bytesOf (BitVec.ofInt 32 ((message.length : ℤ) * 8 / 0x100000000))).length := by
    rw [List.length_append, ← hhigh, bytesOf]
    simp only [List.length_cons, List.length_nil]
    omega
  have hbits : (message.length : ℤ) * 8 = (8 * message.length : ℕ) := by
    push_cast
    ring
  have hquotient : BitVec.ofInt 32 ((message.length : ℤ) * 8 / 0x100000000)
      = .ofNat 32 (8 * message.length / 2 ^ 32) := by
    rw [hbits, ← BitVec.ofInt_natCast]
    rfl
  have hremainder : BitVec.ofInt 32 (shiftRight ((message.length : ℤ) * 8) 0)
      = .ofNat 32 (8 * message.length) := by
    rw [shiftRight_zero, ofInt_num, hbits, BitVec.ofInt_natCast]
  unfold padMessage
  dsimp only
  have hend := setUint32_append
    (message ++ 0x80 :: List.replicate ((119 - message.length % 64) % 64) 0
      ++ bytesOf (BitVec.ofInt 32 ((message.length : ℤ) * 8 / 0x100000000))) []
    (shiftRight ((message.length : ℤ) * 8) 0) (List.length_replicate (n := 4) (a := 0))
  rw [List.append_nil, List.append_nil, ← hlow, List.append_assoc] at hend
  rw [hset, hmark, hhigh, setUint32_append _ _ _ (List.length_replicate ..), hend, hquotient,
    hremainder, padding]
  simp only [List.append_assoc, List.cons_append]

/-! ## The hash -/

theorem initialHash_eq : initialHash = ofWords Fips180.initial := initial_eq

theorem bits_eq_ofBytes (v : Word) : Fips180.bits v = Fips180.ofBytes (bytesOf v) := by
  have hlength : (Fips180.ofBytes (bytesOf v)).length = 8 * (bytesOf v).length :=
    length_bitsOf (bytesOf v)
  refine Fips180.number_injective ?_ ?_
  · rw [Fips180.length_bits, hlength]
    rfl
  · rw [Fips180.number_bits]
    exact (number_bytesOf v).symm

/-- The words are set in the digest one after the other. -/
theorem foldl_setUint32 : ∀ (words : List Word) (output : List UInt8) {k : ℕ},
    output.length = k * 4 →
    ((words.map num).zipIdx k).foldl
      (fun digest (value, index) => setUint32 digest (index * 4) value)
      (output ++ List.replicate (4 * words.length) 0) = output ++ words.flatMap bytesOf
  | [], _, _, _ => rfl
  | v :: words, output, k, h => by
    have hset := setUint32_append output (List.replicate (4 * words.length) 0) (num v)
      (List.length_replicate (n := 4) (a := 0))
    have hnext : (output ++ bytesOf v).length = (k + 1) * 4 := by
      rw [List.length_append, h, bytesOf]
      simp only [List.length_cons, List.length_nil]
      omega
    rw [List.map_cons, List.zipIdx_cons, List.foldl_cons, List.length_cons, Nat.mul_succ, add_comm,
      List.replicate_add, List.flatMap_cons]
    dsimp only
    rw [← h, hset, ofInt_num, ← List.append_assoc, foldl_setUint32 words _ hnext, List.append_assoc]

/-- The bytes of a digest are those of its words. -/
theorem hashBytes_eq (message : List UInt8) :
    Fips180.hashBytes message = (Fips180.sha256 (bitsOf message)).toList.flatMap bytesOf := by
  have hdigest : Fips180.digest (Fips180.ofBytes message)
      = Fips180.ofBytes ((Fips180.sha256 (bitsOf message)).toList.flatMap bytesOf) := by
    conv_rhs => rw [Fips180.ofBytes, List.flatMap_assoc]
    exact List.flatMap_congr fun v _ => bits_eq_ofBytes v
  rw [Fips180.hashBytes, hdigest, Fips180.toBytes_ofBytes]

theorem sha256Bytes_eq (message : List UInt8) :
    sha256Bytes message = Fips180.hashBytes message := by
  have hmod := length_padding message
  have hlength : (padMessage message).length = paddedLength message := by
    rw [padMessage_eq]
    simp only [padding, List.length_append, List.length_cons, List.length_replicate, bytesOf,
      List.length_nil, paddedLength, SHA256_BLOCK_BYTES]
    omega
  have hblocks : (List.range (paddedLength message / SHA256_BLOCK_BYTES)).foldl
      (fun h i => blockStep (padMessage message) (SHA256_BLOCK_BYTES * i) h) initialHash
        = ofWords (Fips180.sha256 (bitsOf message)) := by
    have hcount : paddedLength message / SHA256_BLOCK_BYTES
        = (Fips180.pad (bitsOf message)).length / 512 := by
      rw [← bitsOf_padding, length_bitsOf, ← padMessage_eq, hlength, SHA256_BLOCK_BYTES]
      omega
    rw [initialHash_eq, Fips180.sha256, ← hcount, ← bitsOf_padding, ← padMessage_eq]
    refine foldl_block_eq fun i hi s => blockStep_eq ?_ s
    have hi := List.mem_range.1 hi
    rw [SHA256_BLOCK_BYTES] at hi
    omega
  unfold sha256Bytes
  dsimp only
  rw [hblocks, hashBytes_eq]
  exact foldl_setUint32 (Fips180.sha256 (bitsOf message)).toList [] (k := 0) rfl

theorem length_hashBytes (message : List UInt8) : (Fips180.hashBytes message).length = 32 := by
  rw [hashBytes_eq]
  rfl

/-! ## The signature -/

theorem bytesToHex_eq (bytes : List UInt8) : bytesToHex bytes = hexDigest bytes := by
  have hbyte (b : UInt8) :
      padStart0 (toString16 b.toNat) 2 = hexText (Fips180.bits b.toBitVec) := by
    have hdigits := toDigits_number (k := 1) (Fips180.length_bits b.toBitVec)
    rw [Fips180.number_bits, UInt8.toNat_toBitVec] at hdigits
    rw [hexText, ← hdigits, js_ofList, padStart0, toString16, js_ofList, List.map_append,
      List.map_replicate, List.length_map]
    rfl
  induction bytes with
  | nil => rfl
  | cons b bytes ih =>
    have hsplit : hexDigest (b :: bytes) = hexText (Fips180.bits b.toBitVec) ++ hexDigest bytes :=
      hexText_append (by rw [Fips180.length_bits]; decide)
    rw [bytesToHex, List.flatMap_cons, ← bytesToHex, ih, hbyte, hsplit]

/-- The block that is made of the secret. -/
theorem keyBlock_eq (rawKey : List UInt8) :
    setBytes (List.replicate SHA256_BLOCK_BYTES 0)
        (if rawKey.length > SHA256_BLOCK_BYTES then sha256Bytes rawKey else rawKey) 0
      = Hmac.keyBlock Fips180.hashBytes 64 rawKey := by
  have fits {key : List UInt8} (h : key.length ≤ 64) :
      setBytes (List.replicate 64 0) key 0 = key ++ List.replicate (64 - key.length) 0 := by
    have hsplit : 64 = key.length + (64 - key.length) := by omega
    conv_lhs => rw [hsplit, List.replicate_add]
    exact setBytes_append [] _ (List.length_replicate ..)
  have hhash := length_hashBytes rawKey
  unfold Hmac.keyBlock SHA256_BLOCK_BYTES
  dsimp only
  rw [sha256Bytes_eq]
  refine fits ?_
  split_ifs with hlong <;> omega

theorem map_range_getD {block : List UInt8} {n : ℕ} (h : block.length = n) (pad : UInt8) :
    ((List.range n).map fun index => block.getD index 0 ^^^ pad) = block.map (· ^^^ pad) := by
  subst h
  refine List.ext_getElem (by simp) fun index hindex hindex' => ?_
  rw [List.length_map] at hindex'
  simp [List.getD_eq_getElem?_getD, hindex']

theorem hmacSha256Hex_eq (secret message : JsString) :
    hmacSha256Hex secret message = hexDigest (createHmac secret message) := by
  have hshort : ∀ m, (Fips180.hashBytes m).length ≤ 64 := fun m => by
    rw [length_hashBytes]
    decide
  have hblock := Hmac.length_keyBlock hshort (textEncode secret)
  unfold hmacSha256Hex createHmac Hmac.hmac
  dsimp only
  rw [keyBlock_eq, bytesToHex_eq, SHA256_BLOCK_BYTES, map_range_getD hblock,
    map_range_getD hblock, Hmac.zipWith_replicate _ _ hblock, Hmac.zipWith_replicate _ _ hblock,
    concatBytes_eq, concatBytes_eq, sha256Bytes_eq, sha256Bytes_eq]
  simp only [List.flatten_cons, List.flatten_nil, List.append_nil]

theorem constantTimeEqual_iff {left right : JsString} :
    constantTimeEqual left right = true ↔ textEncode left = textEncode right := by
  unfold constantTimeEqual
  dsimp only
  constructor
  · intro h
    split_ifs at h
    exact eq_of_beq h
  · intro h
    rw [h, if_neg (fun hne => hne rfl), beq_self_eq_true]

theorem ascii_hexDigest (bytes : List UInt8) : ∀ c ∈ hexDigest bytes, c.val < 128 := by
  intro c hc
  rw [hexDigest, js_ofList, List.map_map] at hc
  obtain ⟨d, hd, rfl⟩ := List.mem_map.1 hc
  have hall : ∀ d : Fin 16, (Nat.digitChar d.val).toNat % 65536 < 128 := by decide
  exact hall ⟨d, Fips180.lt_of_mem_hexDigits hd⟩

/-- The two sides sign alike, and what the server accepts as the signature of a payload is what the
browser signs it with. -/
theorem signatures_agree (payload secret : JsString) :
    signPlaylistCommerceWebhookPayload payload secret
        = signPlaylistCommerceWebhookPayloadServer payload secret
      ∧ ∀ signature, signatureErrorsServer signature payload secret
        = signatureErrors signature payload secret := by
  have hsign : signPlaylistCommerceWebhookPayload payload secret
      = signPlaylistCommerceWebhookPayloadServer payload secret := by
    rw [signPlaylistCommerceWebhookPayload, hmacSha256Hex_eq,
      signPlaylistCommerceWebhookPayloadServer]
  have hascii : ∀ p ∈ codePoints (signPlaylistCommerceWebhookPayloadServer payload secret),
      p < 128 := by
    have hname : ∀ c ∈ js "sha256=", c.val < 128 := by
      rw [← List.all_iff_forall_prop]
      rfl
    have hunits : ∀ c ∈ signPlaylistCommerceWebhookPayloadServer payload secret, c.val < 128 := by
      intro c hc
      rcases List.mem_append.1 hc with hc | hc
      · exact hname c hc
      · exact ascii_hexDigest _ c hc
    intro p hp
    rw [codePoints, chars_of_units fun c hc => by
      have := hunits c hc
      have hlow : ¬ 0xD800 ≤ c.val := by omega
      rw [isHighSurrogate, decide_eq_false hlow, Bool.false_and], List.map_map] at hp
    obtain ⟨c, hc, rfl⟩ := List.mem_map.1 hp
    exact hunits c hc
  refine ⟨hsign, fun signature => ?_⟩
  unfold signatureErrorsServer signatureErrors
  dsimp only
  rw [hsign]
  by_cases hsame : signature = signPlaylistCommerceWebhookPayloadServer payload secret
  · have hbytes : constantTimeEqual signature
        (signPlaylistCommerceWebhookPayloadServer payload secret) = true :=
      constantTimeEqual_iff.2 (congrArg textEncode hsame)
    rw [hbytes, Bool.not_true, if_neg Bool.false_ne_true, if_neg (not_not_intro hsame)]
  · have hbytes : constantTimeEqual signature
        (signPlaylistCommerceWebhookPayloadServer payload secret) = false := by
      rw [Bool.eq_false_iff]
      exact fun h => hsame (eq_of_textEncode_ascii hascii (constantTimeEqual_iff.1 h))
    rw [hbytes, Bool.not_false, if_pos rfl, if_pos hsame]

end Agid.PlaylistWebhook
