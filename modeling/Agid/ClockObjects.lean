import Agid.Clock

/-!
# Vector clocks as objects

The clock functions of `src/lib/addressOfflineSyncCrdt.ts` on plain objects: a name that an object
inherits reads as a function, which is no number, and `__proto__` is not set by a number.  A count
is a double, and a clock that is given may be missing.
-/

namespace Agid.AddressOfflineCrdt

/-- `object[key] = value`, for a value that is no object. -/
def put {α : Type} (object : Record JsString α) (key : JsString) (value : α) : Record JsString α :=
  if key = js "__proto__" then object else object.set key value

/-- `c[actor] ?? 0`, none for what is inherited. -/
def slot (c : Clock) (actor : JsString) : Option ℕ :=
  match c.get? actor with
  | some n => some n
  | none => if actor ∈ objectPrototype then none else some 0

/-- `n + 1`: between 2⁵³ and 2⁵⁴ a double is even, and a tie goes to a multiple of four; from there
on 1 is too small. -/
def nextCount (n : ℕ) : ℕ :=
  if n < 2 ^ 53 then n + 1
  else if n < 2 ^ 54 ∧ n / 2 % 2 = 1 then n + 2
  else n

def numberOf : Option ℕ → JsNumber
  | some n => .finite n
  | none => .nan

/-- `Math.max(a, b)`. -/
def maxCount : Option ℕ → Option ℕ → Option ℕ
  | some a, some b => some (max a b)
  | _, _ => none

/-- `a < b`. -/
def lessCount : Option ℕ → Option ℕ → Bool
  | some a, some b => a < b
  | _, _ => false

section Clocks

variable (nfkc : Nfkc)

def normalizeObject (clock : Option RawClock) : Clock :=
  (clock.getD .empty).entries.foldl (fun result e =>
    let key := cleanKey nfkc (some e.1) []
    match finiteCount e.2 with
    | some numeric => if key ≠ [] then put result key numeric else result
    | none => result) .empty

def incrementAddressOfflineCrdtClock (clock : Option RawClock) (actorId : JsString) : RawClock :=
  let next := normalizeObject nfkc clock
  let actor := cleanKey nfkc (some actorId) localActor
  put next.raw actor (numberOf ((slot next actor).map nextCount))

/-- The replicas of two clocks. -/
def actors (left right : Clock) : List JsString := left.keys ++ right.keys

def joinAddressOfflineCrdtClocks (left right : Option RawClock) : RawClock :=
  let normalizedLeft := normalizeObject nfkc left
  let normalizedRight := normalizeObject nfkc right
  (actors normalizedLeft normalizedRight).foldl (fun result actor =>
    put result actor (numberOf (maxCount (slot normalizedLeft actor) (slot normalizedRight actor))))
    .empty

def compareAddressOfflineCrdtClocks (left right : Option RawClock) : ClockOrder :=
  let normalizedLeft := normalizeObject nfkc left
  let normalizedRight := normalizeObject nfkc right
  let leftLess := (actors normalizedLeft normalizedRight).any fun actor =>
    lessCount (slot normalizedLeft actor) (slot normalizedRight actor)
  let leftGreater := (actors normalizedLeft normalizedRight).any fun actor =>
    lessCount (slot normalizedRight actor) (slot normalizedLeft actor)
  if !leftLess && !leftGreater then .equal
  else if leftLess && !leftGreater then .before
  else if !leftLess && leftGreater then .after
  else .concurrent

/-! ## The laws of a semilattice -/

/-- The clock names these replicas only, with counts that are exact. -/
def Over (replicas : Set JsString) : Option RawClock → Prop
  | none => True
  | some clock => (∀ actor ∈ clock.keys, actor ∈ replicas)
    ∧ ∀ value ∈ clock.values, ∀ n, finiteCount value = some n → n < 2 ^ 53

/-- What the normalized clock counts of each replica. -/
def countsOf (clock : Option RawClock) : JsString → ℕ := (normalizeObject nfkc clock).count

/-- The first clock is before the second one, or equal to it. -/
def AtMost (left right : Option RawClock) : Prop :=
  compareAddressOfflineCrdtClocks nfkc left right = .before
    ∨ compareAddressOfflineCrdtClocks nfkc left right = .equal

/-- `compare` is a partial order that tells what clocks count. -/
structure Ordered (a b c : Option RawClock) : Prop where
  equal : compareAddressOfflineCrdtClocks nfkc a b = .equal ↔ countsOf nfkc a = countsOf nfkc b
  refl : AtMost nfkc a a
  antisymm : AtMost nfkc a b → AtMost nfkc b a →
    compareAddressOfflineCrdtClocks nfkc a b = .equal
  trans : AtMost nfkc a b → AtMost nfkc b c → AtMost nfkc a c
  after : compareAddressOfflineCrdtClocks nfkc a b = .after
    ↔ compareAddressOfflineCrdtClocks nfkc b a = .before

/-- `join` is the least upper bound. -/
structure Joined (a b c : Option RawClock) : Prop where
  left : AtMost nfkc a (some (joinAddressOfflineCrdtClocks nfkc a b))
  right : AtMost nfkc b (some (joinAddressOfflineCrdtClocks nfkc a b))
  least : AtMost nfkc a c → AtMost nfkc b c →
    AtMost nfkc (some (joinAddressOfflineCrdtClocks nfkc a b)) c
  comm : countsOf nfkc (some (joinAddressOfflineCrdtClocks nfkc a b))
    = countsOf nfkc (some (joinAddressOfflineCrdtClocks nfkc b a))
  assoc : countsOf nfkc (some (joinAddressOfflineCrdtClocks nfkc
      (some (joinAddressOfflineCrdtClocks nfkc a b)) c))
    = countsOf nfkc (some (joinAddressOfflineCrdtClocks nfkc a
      (some (joinAddressOfflineCrdtClocks nfkc b c))))
  idem : countsOf nfkc (some (joinAddressOfflineCrdtClocks nfkc a a)) = countsOf nfkc a

/-- Counting up a replica gives a later clock, which no clock without the new entry is above. -/
structure Incremented (a b : Option RawClock) (actorId : JsString) : Prop where
  later : compareAddressOfflineCrdtClocks nfkc a
    (some (incrementAddressOfflineCrdtClock nfkc a actorId)) = .before
  unseen : countsOf nfkc b (cleanKey nfkc (some actorId) localActor)
      < countsOf nfkc (some (incrementAddressOfflineCrdtClock nfkc a actorId))
        (cleanKey nfkc (some actorId) localActor) →
    compareAddressOfflineCrdtClocks nfkc
        (some (incrementAddressOfflineCrdtClock nfkc a actorId)) b = .after
      ∨ compareAddressOfflineCrdtClocks nfkc
        (some (incrementAddressOfflineCrdtClock nfkc a actorId)) b = .concurrent

/-- The laws for all clocks of some replicas. -/
def Semilattice (replicas : Set JsString) : Prop :=
  ∀ a b c, Over replicas a → Over replicas b → Over replicas c →
    Ordered nfkc a b c ∧ Joined nfkc a b c
      ∧ ∀ actorId ∈ replicas, Incremented nfkc a b actorId

/-- An identifier of a replica that has no key, or one that cleaning leaves alone and that no object
inherits. -/
def Plain (actorId : JsString) : Prop :=
  cleanKey nfkc (some actorId) [] = []
    ∨ cleanKey nfkc (some (cleanKey nfkc (some actorId) [])) [] = cleanKey nfkc (some actorId) []
      ∧ cleanKey nfkc (some actorId) [] ∉ objectPrototype

end Clocks

end Agid.AddressOfflineCrdt
