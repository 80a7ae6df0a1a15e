import Mathlib
import Agid.Lib.EditDistance

/-!
# Matching of addresses

`address_match` of `native/addressql-core/src/lib.rs` and what it calls, on exact numbers.  A string
is the list of its characters.
-/

namespace Agid.AddressMatch

/-- What the standard library knows of the characters. -/
structure Characters where
  to_lowercase : Char → List Char
  is_alphanumeric : Char → Bool

/-- `char::is_whitespace`. -/
def isWhitespace (c : Char) : Bool :=
  (9 ≤ c.toNat && c.toNat ≤ 13) || (8192 ≤ c.toNat && c.toNat ≤ 8202)
    || [32, 133, 160, 5760, 8232, 8233, 8239, 8287, 12288].contains c.toNat

def splitWhitespace (text : List Char) : List (List Char) :=
  (text.splitOnP isWhitespace).filter (· ≠ [])

def join (tokens : List (List Char)) : List Char := [' '].intercalate tokens

def cleanText (input : List Char) : List Char := join (splitWhitespace input)

def canonicalAddressToken (token : List Char) : List Char :=
  if token = "ave".toList ∨ token = "avenue".toList then "avenue".toList
  else if token = "blvd".toList ∨ token = "boulevard".toList then "boulevard".toList
  else if token = "rd".toList ∨ token = "road".toList then "road".toList
  else if token = "st".toList ∨ token = "street".toList ∨ token = "strasse".toList
      ∨ token = "straße".toList then "street".toList
  else token

def normalizeAddressMatchText (chars : Characters) (input : List Char) : List Char :=
  let punctuationFolded := (input.flatMap chars.to_lowercase).map fun character =>
    if chars.is_alphanumeric character then character else ' '
  join ((splitWhitespace (cleanText punctuationFolded)).map canonicalAddressToken)

/-! ## The distance of two texts -/

/-- The inner loop, at a character of the right text and its index. -/
def pushEntry (leftCharacter : Char) (previous current : List ℕ) (right : Char × ℕ) : List ℕ :=
  let (rightCharacter, rightIndex) := right
  let substitution := previous.getD rightIndex 0 + if leftCharacter = rightCharacter then 0 else 1
  current ++ [min (min (current.getD rightIndex 0 + 1) (previous.getD (rightIndex + 1) 0 + 1))
    substitution]

/-- The outer loop, at a character of the left text and its index. -/
def nextRow (right : List Char) (previous : List ℕ) (left : Char × ℕ) : List ℕ :=
  right.zipIdx.foldl (pushEntry left.1 previous) [left.2 + 1]

def editDistance (left right : List Char) : ℕ :=
  (left.zipIdx.foldl (nextRow right) (List.range (right.length + 1))).getD right.length 0

/-! ## The match -/

/-- `a / b`, which is no number where `b` is 0. -/
def quotient (a b : ℚ) : Option ℚ := if b = 0 then none else some (a / b)

/-- `clamp(0.0, 1.0)`. -/
def clamp (x : ℚ) : ℚ := max 0 (min x 1)

def addressSimilarity (left right : List Char) : Option ℚ :=
  if left = [] ∨ right = [] then some 0
  else if left = right then some 1
  else do
    let leftTokens := (splitWhitespace left).toFinset
    let rightTokens := (splitWhitespace right).toFinset
    let sharedTokens := (leftTokens ∩ rightTokens).card
    let tokenDice ← quotient (2 * sharedTokens : ℕ) (leftTokens.card + rightTokens.card : ℕ)
    let maxLength := max left.length right.length
    let characterSimilarity := 1 - (← quotient (editDistance left right) maxLength)
    some (clamp (tokenDice * (4 / 10) + characterSimilarity * (6 / 10)))

structure NormalizedAddress where
  normalizedText : List Char
  country : List Char

structure AddressMatchDecision where
  isMatch : Bool
  confidence : Option ℚ
  purpose : List Char
  sourceVersion : String
  nonClaims : List String

def SOURCE_VERSION : String := "synthetic-addressql-v0.2"

def sameCountry (a b : NormalizedAddress) : Bool :=
  a.country = [] || b.country = [] || a.country = b.country

def addressMatch (chars : Characters) (a b : NormalizedAddress) (purpose : List Char) :
    AddressMatchDecision :=
  let left := normalizeAddressMatchText chars a.normalizedText
  let right := normalizeAddressMatchText chars b.normalizedText
  let confidence := if sameCountry a b then addressSimilarity left right else some 0
  { isMatch := left ≠ [] && right ≠ [] && confidence.any (84 / 100 ≤ ·)
    confidence
    purpose := cleanText purpose
    sourceVersion := SOURCE_VERSION
    nonClaims := [
      "A match decision is purpose-relative and not proof of residence.",
      "Fuzzy lexical similarity is not delivery-point identity."] }

/-- What a match is for: its confidence is a number from 0 to 1, whichever address comes first, and
is 1 where the countries do not differ and the normal texts are one text. -/
structure Sound (chars : Characters) (a b : NormalizedAddress) (purpose : List Char) : Prop where
  symm : addressMatch chars a b purpose = addressMatch chars b a purpose
  confidence : ∃ c, (addressMatch chars a b purpose).confidence = some c ∧ 0 ≤ c ∧ c ≤ 1
    ∧ (c = 1 ↔ sameCountry a b
      ∧ normalizeAddressMatchText chars a.normalizedText ≠ []
      ∧ normalizeAddressMatchText chars a.normalizedText
        = normalizeAddressMatchText chars b.normalizedText)

end Agid.AddressMatch
