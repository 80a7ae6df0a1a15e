import Agid.Native

/-!
# The native core with overflow checks

The loops of `native/agid-core/src/lib.rs` as a build with overflow checks compiles them: an
addition, a subtraction or a multiplication whose result does not fit panics, here `none`.
-/

namespace Agid.Native.Checked

section Words
variable {w : ℕ}

def add (a b : BitVec w) : Option (BitVec w) :=
  if a.toNat + b.toNat < 2 ^ w then some (a + b) else none

def sub (a b : BitVec w) : Option (BitVec w) :=
  if b.toNat ≤ a.toNat then some (a - b) else none

def mul (a b : BitVec w) : Option (BitVec w) :=
  if a.toNat * b.toNat < 2 ^ w then some (a * b) else none

theorem add_eq_some {a b c : BitVec w} :
    add a b = some c ↔ a.toNat + b.toNat < 2 ^ w ∧ c = a + b := by
  unfold add
  split_ifs with h <;> simp [h, eq_comm]

theorem sub_eq_some {a b c : BitVec w} :
    sub a b = some c ↔ b.toNat ≤ a.toNat ∧ c = a - b := by
  unfold sub
  split_ifs with h <;> simp [h, eq_comm]

theorem mul_eq_some {a b c : BitVec w} :
    mul a b = some c ↔ a.toNat * b.toNat < 2 ^ w ∧ c = a * b := by
  unfold mul
  split_ifs with h <;> simp [h, eq_comm]

end Words

def rot (n x y rx ry : U32) : Option (U32 × U32) :=
  if ry = 0 then
    if rx = 1 then do
      let x ← sub (← sub n 1) x
      let y ← sub (← sub n 1) y
      some (y, x)
    else some (y, x)
  else some (x, y)

/-- The loop of `encode_hilbert` from the step `s` on. -/
def encodeLoop (s x y : U32) (d : U64) : Option U64 :=
  if h : 0 < s then do
    let rx : U32 := if 0 < x &&& s then 1 else 0
    let ry : U32 := if 0 < y &&& s then 1 else 0
    let area ← mul (s.setWidth 64) (s.setWidth 64)
    let d ← add d (← mul area (((← mul 3 rx) ^^^ ry).setWidth 64))
    let p ← rot s x y rx ry
    encodeLoop (s / 2) p.1 p.2 d
  else some d
termination_by s.toNat
decreasing_by
  have hs : 0 < s.toNat := h
  have h2 : (2 : U32).toNat = 2 := rfl
  rw [BitVec.toNat_udiv, h2]
  omega

def encodeHilbert (n x y : U32) : Option U64 := encodeLoop (n / 2) x y 0

/-- The loop of `decode_hilbert` from the step `s` on.  `s` starts at 1 and doubles, so it is
positive until the doubling panics. -/
def decodeLoop (n s x y : U32) (t : U64) : Option (U32 × U32) :=
  if _h : 0 < s ∧ s < n then do
    let rx : U32 := (t / 2 &&& 1).setWidth 32
    let ry : U32 := ((t ^^^ rx.setWidth 64) &&& 1).setWidth 32
    let p ← rot s x y rx ry
    let x ← add p.1 (← mul s rx)
    let y ← add p.2 (← mul s ry)
    match hs : mul s 2 with
    | none => none
    | some s2 => decodeLoop n s2 x y (t / 4)
  else some (x, y)
termination_by n.toNat - s.toNat
decreasing_by
  obtain ⟨hlt, rfl⟩ := mul_eq_some.1 hs
  have hs : 0 < s.toNat := _h.1
  have hn : s.toNat < n.toNat := _h.2
  have h2 : (2 : U32).toNat = 2 := rfl
  rw [h2] at hlt
  rw [BitVec.toNat_mul, h2]
  omega

def decodeHilbert (n : U32) (d : U64) : Option (U32 × U32) := decodeLoop n 1 0 0 d

end Agid.Native.Checked
