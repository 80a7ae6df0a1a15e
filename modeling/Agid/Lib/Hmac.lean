import Agid.Lib.Fips180

/-!
# Keyed hashing for message authentication

The construction over any hash of bytes that works on blocks of a fixed length, and SHA-256 as such a
hash: the standard states it on bits, here a message is the bits of its bytes.
-/

namespace Fips180

/-- The bits of a message of bytes. -/
def ofBytes (bytes : List UInt8) : List Bool := bytes.flatMap fun b => bits b.toBitVec

/-- The bytes of a string of bits, of eight each. -/
def toBytes : List Bool → List UInt8
  | b₀ :: b₁ :: b₂ :: b₃ :: b₄ :: b₅ :: b₆ :: b₇ :: m =>
    UInt8.ofNat (number [b₀, b₁, b₂, b₃, b₄, b₅, b₆, b₇]) :: toBytes m
  | _ => []

/-- The hash of a message of bytes. -/
def hashBytes (message : List UInt8) : List UInt8 := toBytes (digest (ofBytes message))

theorem toBytes_append {m : List Bool} (h : m.length = 8) (m' : List Bool) :
    toBytes (m ++ m') = UInt8.ofNat (number m) :: toBytes m' := by
  rcases m with _ | ⟨b₀, _ | ⟨b₁, _ | ⟨b₂, _ | ⟨b₃, _ | ⟨b₄, _ | ⟨b₅, _ | ⟨b₆, _ | ⟨b₇, m⟩⟩⟩⟩⟩⟩⟩⟩ <;>
    simp only [List.length_cons, List.length_nil] at h <;> try omega
  obtain rfl : m = [] := List.eq_nil_of_length_eq_zero (by omega)
  rfl

theorem toBytes_ofBytes : ∀ bytes : List UInt8, toBytes (ofBytes bytes) = bytes
  | [] => rfl
  | b :: bytes => by
    rw [ofBytes, List.flatMap_cons, ← ofBytes, toBytes_append (length_bits _), number_bits,
      toBytes_ofBytes bytes, UInt8.toNat_toBitVec, UInt8.ofNat_toNat]

end Fips180

namespace Hmac

variable (hash : List UInt8 → List UInt8) (B : ℕ)

/-- The key, or the hash of one that is longer than a block, with zeros up to the length of a
block. -/
def keyBlock (key : List UInt8) : List UInt8 :=
  let key := if B < key.length then hash key else key
  key ++ List.replicate (B - key.length) 0

def hmac (key text : List UInt8) : List UInt8 :=
  let ipad := List.replicate B (0x36 : UInt8)
  let opad := List.replicate B (0x5c : UInt8)
  let block := keyBlock hash B key
  hash (List.zipWith (· ^^^ ·) block opad ++ hash (List.zipWith (· ^^^ ·) block ipad ++ text))

variable {hash B}

/-- The block is as long as it should be when no hash is longer than it. -/
theorem length_keyBlock (h : ∀ message, (hash message).length ≤ B) (key : List UInt8) :
    (keyBlock hash B key).length = B := by
  unfold keyBlock
  dsimp only
  split_ifs with hlong
  · have := h key
    rw [List.length_append, List.length_replicate]
    omega
  · rw [List.length_append, List.length_replicate]
    omega

theorem zipWith_replicate (pad : UInt8) : ∀ (block : List UInt8) {n : ℕ}, block.length = n →
    List.zipWith (· ^^^ ·) block (List.replicate n pad) = block.map (· ^^^ pad)
  | [], _, rfl => rfl
  | b :: block, _, rfl => by
    rw [List.length_cons, List.replicate_succ, List.zipWith_cons_cons, List.map_cons,
      zipWith_replicate pad block rfl]

end Hmac
