import Agid.Clock
import Agid.JsonValues

/-!
# Locality codes

`evaluateAgidPostalLocalitySeparation` and `generateAgidVirtualPostalLocalityCodes` of
`src/lib/agidPostalCodeEngine.ts`.  The numbers of a request are finite and exact.  A map of the
source is the function that looks a key up in it.
-/

namespace Agid.PostalCode

section Platform

/-! ## Texts -/

-- `s.toUpperCase()`
variable (toUpperCase : JsString → JsString)

def isUpperLetter (c : CodeUnit) : Bool := 65 ≤ c.val && c.val ≤ 90

/-- `[A-Z0-9]`. -/
def isCodeUnit (c : CodeUnit) : Bool := isUpperLetter c || isDigit c

/-- A unit that a locality id keeps. -/
def isLocalityUnit (c : CodeUnit) : Bool := isCodeUnit c || [58, 46, 95, 47, 45].contains c

def normalizeCountryCode (countryCode : JsString) : JsString := toUpperCase (trim countryCode)

/-- The second and third case of the source leave a text that is long enough. -/
def normalizeHierarchyCodePart (value : JsString) (length : ℕ) : JsString :=
  let text := (toUpperCase (trim value)).filter isCodeUnit
  if text = [] then List.replicate length 48
  else if text.all isDigit then List.replicate (length - text.length) 48 ++ text
  else text

def normalizeLocalityId (value : JsString) : JsString :=
  ((replaceRuns (!isLocalityUnit ·) 45 false (toUpperCase (trim value))).dropWhile
    (· = 45)).rdropWhile (· = 45)

def normalizePostalCodeValue (value : JsString) : JsString :=
  (toUpperCase (trim value)).filter (!isWhiteSpace ·)

def codeCarriesLocalityComponent (postalCode localityCode : JsString) : Bool :=
  ((postalCode.splitOn 45).map fun part => toUpperCase (trim part)).contains
    (toUpperCase localityCode)

/-! ## Separation of localities -/

structure AgidPostalLocalityRecord where
  countryCode : JsString
  islandCode : JsString
  localityId : JsString
  localityCode : JsString
  currentName : JsString
  previousLocalityId : Option JsString
  previousLocalityCode : Option JsString
  previousName : Option JsString
  postalCodes : List JsString
deriving DecidableEq

inductive SeparationMode where
  | localityPrefixSeparation
  | deliveryPriority
deriving DecidableEq

inductive CollisionKind where
  | localityCode
  | postalCode
  | renameCodeChange
deriving DecidableEq

structure Collision where
  kind : CollisionKind
  localityIds : List JsString
  value : JsString
deriving DecidableEq

abbrev Owners := JsString → Option JsString

structure SeparationState where
  collisions : List Collision
  localityCodeOwners : Owners
  postalCodeOwners : Owners
  localityStableCodes : Owners

/-- A text that is there and not empty. -/
def nonempty (value : Option JsString) : Option JsString := value.filter (· ≠ [])

/-- `owner && owner !== id`, with the owner that it is about. -/
def otherOwner (owner : Option JsString) (id : JsString) : Option JsString :=
  (nonempty owner).filter (· ≠ id)

def scopedKey (countryCode islandCode value : JsString) : JsString :=
  countryCode ++ [58] ++ islandCode ++ [58] ++ value

namespace AgidPostalLocalityRecord

variable (record : AgidPostalLocalityRecord)

def country : JsString := normalizeCountryCode toUpperCase record.countryCode

def island : JsString := normalizeHierarchyCodePart toUpperCase record.islandCode 2

def normalizedId : JsString := normalizeLocalityId toUpperCase record.localityId

def code : JsString := normalizeHierarchyCodePart toUpperCase record.localityCode 2

/-- The normalized postal codes that are not empty. -/
def codes : List JsString :=
  (record.postalCodes.map (normalizePostalCodeValue toUpperCase)).filter (· ≠ [])

def localityKey : JsString :=
  scopedKey (record.country toUpperCase) (record.island toUpperCase)
    (record.normalizedId toUpperCase)

def localityCodeKey : JsString :=
  scopedKey (record.country toUpperCase) (record.island toUpperCase) (record.code toUpperCase)

def postalKey (postalCode : JsString) : JsString :=
  scopedKey (record.country toUpperCase) (record.island toUpperCase) postalCode

def previousCode : JsString :=
  match nonempty record.previousLocalityCode with
  | some previous => normalizeHierarchyCodePart toUpperCase previous 2
  | none => record.code toUpperCase

/-- The collision of a record that says itself that a new name has changed its code. -/
def renamed : List Collision :=
  let previousLocalityId := normalizeLocalityId toUpperCase
    ((nonempty record.previousLocalityId).getD record.localityId)
  let nameChanged := (otherOwner record.previousName record.currentName).isSome
  if nameChanged && previousLocalityId = record.normalizedId toUpperCase
      && record.previousCode toUpperCase ≠ record.code toUpperCase then
    [{
      kind := .renameCodeChange
      localityIds := [record.normalizedId toUpperCase]
      value := record.previousCode toUpperCase ++ js "->" ++ record.code toUpperCase }]
  else []

end AgidPostalLocalityRecord

/-- One postal code of a record. -/
def postalStep (record : AgidPostalLocalityRecord) (state : SeparationState)
    (postalCode : JsString) : SeparationState :=
  let key := record.postalKey toUpperCase postalCode
  let localityId := record.normalizedId toUpperCase
  { state with
    collisions := state.collisions ++
      match otherOwner (state.postalCodeOwners key) localityId with
      | some owner => [{
          kind := .postalCode
          localityIds := [owner, localityId]
          value := postalCode }]
      | none => []
    postalCodeOwners := Function.update state.postalCodeOwners key (some localityId) }

/-- The loop over the records, for one of them. -/
def recordStep (state : SeparationState) (record : AgidPostalLocalityRecord) : SeparationState :=
  let localityId := record.normalizedId toUpperCase
  let localityCode := record.code toUpperCase
  let localityKey := record.localityKey toUpperCase
  let localityCodeKey := record.localityCodeKey toUpperCase
  let stable : List Collision :=
    match otherOwner (state.localityStableCodes localityKey) localityCode with
    | some stableCode => [{
        kind := .renameCodeChange
        localityIds := [localityId]
        value := stableCode ++ js "->" ++ localityCode }]
    | none => []
  let shared : List Collision :=
    match otherOwner (state.localityCodeOwners localityCodeKey) localityId with
    | some owner => [{
        kind := .localityCode
        localityIds := [owner, localityId]
        value := localityCode }]
    | none => []
  (record.codes toUpperCase).foldl (postalStep toUpperCase record) {
    collisions := state.collisions ++ record.renamed toUpperCase ++ stable ++ shared
    localityCodeOwners := Function.update state.localityCodeOwners localityCodeKey (some localityId)
    postalCodeOwners := state.postalCodeOwners
    localityStableCodes := Function.update state.localityStableCodes localityKey
      (some localityCode) }

def SeparationState.start : SeparationState where
  collisions := []
  localityCodeOwners _ := none
  postalCodeOwners _ := none
  localityStableCodes _ := none

structure SeparationDecision where
  mode : SeparationMode
  localityCodeInjective : Bool
  postalSetsDisjoint : Bool
  renameInvariant : Bool
  separated : Bool
  collisions : List Collision
  localitySeparation : Bool
  hierarchyRefinementPreservesSeparation : Bool
  rationale : List JsString

def separationRationale (mode : SeparationMode)
    (localityCodeInjective postalSetsDisjoint renameInvariant refinement : Bool) :
    List JsString := [
  if localityCodeInjective then
    ["Different LocalityID values use distinct locality code components",
      " within each country-island scope."].flatMap js
  else
    ["At least two different LocalityID values share the same locality code component."].flatMap js,
  if postalSetsDisjoint then
    js "Postal code sets are disjoint for different LocalityID values."
  else if mode = .deliveryPriority then
    ["Postal code sharing was detected but is tolerated in delivery-priority mode;",
      " display must still retain LocalityID."].flatMap js
  else js "Postal code sharing was detected across different LocalityID values.",
  if renameInvariant then
    js "Name changes preserve LocalityID and locality code components."
  else
    ["A name change attempted to change the locality code while preserving LocalityID."].flatMap js,
  if refinement then
    js "Child delivery zones carry the parent locality code component."
  else
    ["Some child delivery zones do not visibly carry the parent locality code",
      " component."].flatMap js]

def evaluateAgidPostalLocalitySeparation (records : List AgidPostalLocalityRecord)
    (mode : SeparationMode) : SeparationDecision :=
  let collisions := (records.foldl (recordStep toUpperCase) .start).collisions
  let localityCodeInjective := !collisions.any fun collision => collision.kind = .localityCode
  let postalSetsDisjoint := !collisions.any fun collision => collision.kind = .postalCode
  let renameInvariant := !collisions.any fun collision => collision.kind = .renameCodeChange
  let refinement := records.all fun record =>
    record.postalCodes.all fun code =>
      codeCarriesLocalityComponent toUpperCase (normalizePostalCodeValue toUpperCase code)
        (record.code toUpperCase)
  let localitySeparation := localityCodeInjective
    && (mode = .deliveryPriority || postalSetsDisjoint)
  { mode
    localityCodeInjective
    postalSetsDisjoint
    renameInvariant
    separated := localitySeparation && renameInvariant
    collisions
    localitySeparation
    hierarchyRefinementPreservesSeparation := refinement
    rationale := separationRationale mode localityCodeInjective postalSetsDisjoint
      renameInvariant refinement }

/-! ## Codes of virtual localities -/

def AGID_HASH_ALPHABET := js "ABCDEFGHJKMNPQRSTVWXYZ23456789"

/-- The first units of a number in the alphabet, its last digit first. -/
def tokenUnits : ℕ → ℕ → JsString
  | 0, _ => []
  | length + 1, cursor =>
    AGID_HASH_ALPHABET.getD (cursor % AGID_HASH_ALPHABET.length) 0
      :: tokenUnits length (cursor / AGID_HASH_ALPHABET.length)

def stableAuditToken (value : JsString) (length : ℕ) : JsString :=
  tokenUnits length
    (value.foldl (fun hash c => ((hash ^^^ c.val) * 1099511628211) % 2 ^ 64) 1469598103934665603)

/-- A text that ends is a unit short of the other one at each further place. -/
def hammingDistance : JsString → JsString → ℕ
  | [], right => right.length
  | left, [] => left.length
  | c :: left, d :: right => (if c ≠ d then 1 else 0) + hammingDistance left right

/-- The pairs of the two loops. -/
def pairDistances : List JsString → List ℕ
  | [] => []
  | code :: codes => codes.map (hammingDistance code) ++ pairDistances codes

def observedMinimumHammingDistance (codes : List JsString) : ℕ :=
  match codes with
  | [] => 0
  | [code] => code.length
  | codes => (pairDistances codes).min?.getD 0

def normalizedCodeAlphabet (value : Option JsString) : JsString :=
  let deduped :=
    ((toUpperCase ((nonempty value).getD AGID_HASH_ALPHABET)).filter isCodeUnit).eraseDups
  if 2 ≤ deduped.length then deduped else AGID_HASH_ALPHABET

structure CodeSetInput where
  count : ℚ
  codeLength : Option ℚ
  minHammingDistance : Option ℚ
  adjacentPairs : Option (List (ℚ × ℚ))
  adjacentMinHammingDistance : Option ℚ
  alphabet : Option JsString
  seed : Option JsString

/-- `Math.max(least, Math.floor(value || otherwise))`. -/
def atLeast (least : ℕ) (value : Option ℚ) (otherwise : ℚ) : ℕ :=
  (max (least : ℤ) ⌊(value.filter (· ≠ 0)).getD otherwise⌋).toNat

/-- What the search loop does not change. -/
structure Search where
  seed : JsString
  alphabet : JsString
  count : ℕ
  requestedCodeLength : ℕ
  minHammingDistance : ℕ
  adjacentMinHammingDistance : ℕ

def CodeSetInput.search (input : CodeSetInput) : Search :=
  let minHammingDistance := atLeast 1 input.minHammingDistance 3
  { seed := (nonempty input.seed).getD (js "virtual-postal-locality")
    alphabet := normalizedCodeAlphabet toUpperCase input.alphabet
    count := (max 0 ⌊input.count⌋).toNat
    requestedCodeLength := atLeast 1 input.codeLength 3
    minHammingDistance
    adjacentMinHammingDistance :=
      atLeast minHammingDistance input.adjacentMinHammingDistance minHammingDistance }

structure SearchState where
  codeLength : ℕ
  attempt : ℕ
  codes : List JsString

namespace Search

variable (search : Search)

def start : SearchState where
  codeLength := max (max search.requestedCodeLength search.minHammingDistance)
    search.adjacentMinHammingDistance
  attempt := 0
  codes := []

def longest : ℕ := max 12 (search.requestedCodeLength + 8)

def attempts : ℕ := max 5000 (search.count * 5000)

/-- The candidate of an attempt at a code length. -/
def candidate (codeLength attempt : ℕ) : JsString :=
  (stableAuditToken (search.seed ++ [58] ++ js (toString codeLength) ++ [58]
      ++ js (toString attempt)) codeLength).map fun char =>
    if search.alphabet.contains char then char
    else search.alphabet.getD (char.val % search.alphabet.length) 0

/-- The condition of the loop. -/
def goesOn (state : SearchState) : Bool :=
  state.codes.length < search.count && state.codeLength ≤ search.longest

/-- A candidate keeps the distance from every code. -/
def pairwiseOk (codes : List JsString) (candidate : JsString) : Bool :=
  codes.all fun code => search.minHammingDistance ≤ hammingDistance code candidate

def step (state : SearchState) : SearchState :=
  let candidate := search.candidate state.codeLength state.attempt
  let attempt := state.attempt + 1
  if state.codes.contains candidate then { state with attempt }
  else if !search.pairwiseOk state.codes candidate then
    if search.attempts < attempt then
      { codeLength := state.codeLength + 1, attempt := 0, codes := [] }
    else { state with attempt }
  else { state with attempt, codes := state.codes ++ [candidate] }

/-- The loop from a state on, none where it has not ended after so many rounds. -/
def run : ℕ → SearchState → Option SearchState
  | 0, state => if search.goesOn state then none else some state
  | rounds + 1, state =>
    if search.goesOn state then run rounds (search.step state) else some state

end Search

structure CodeSetDecision where
  codes : List JsString
  codeLength : ℕ
  requestedCodeLength : ℕ
  minHammingDistance : ℕ
  observedMinHammingDistance : ℕ
  adjacentMinHammingDistance : ℕ
  adjacencySatisfied : Bool
  rationale : List JsString

/-- `codes[index]`. -/
def codeAt (codes : List JsString) (index : ℚ) : Option JsString :=
  if index.den = 1 ∧ 0 ≤ index then codes[index.num.toNat]? else none

/-- The decision of a search that has ended. -/
def Search.decision (search : Search) (adjacentPairs : List (ℚ × ℚ)) (state : SearchState) :
    CodeSetDecision :=
  let observed := observedMinimumHammingDistance state.codes
  let adjacencySatisfied := adjacentPairs.all fun (leftIndex, rightIndex) =>
    match codeAt state.codes leftIndex, codeAt state.codes rightIndex with
    | some left, some right => search.adjacentMinHammingDistance ≤ hammingDistance left right
    | _, _ => true
  { codes := state.codes
    codeLength := state.codeLength
    requestedCodeLength := search.requestedCodeLength
    minHammingDistance := search.minHammingDistance
    observedMinHammingDistance := observed
    adjacentMinHammingDistance := search.adjacentMinHammingDistance
    adjacencySatisfied
    rationale := [
      js "count:" ++ js (toString search.count),
      js "requested-code-length:" ++ js (toString search.requestedCodeLength),
      js "actual-code-length:" ++ js (toString state.codeLength),
      js "min-hamming-distance:" ++ js (toString search.minHammingDistance),
      js "observed-min-hamming-distance:" ++ js (toString observed),
      if adjacencySatisfied then
        js "adjacent-virtual-locality-codes-satisfy-distance-constraint"
      else js "adjacent-virtual-locality-code-distance-review-required",
      if search.requestedCodeLength < state.codeLength then
        js "code-length-raised-to-satisfy-distance-constraint"
      else js "requested-code-length-satisfied"] }

/-- The decision of a request, where its search ends within so many rounds. -/
def generateAgidVirtualPostalLocalityCodes (rounds : ℕ) (input : CodeSetInput) :
    Option CodeSetDecision :=
  let search := input.search toUpperCase
  (search.run rounds search.start).map (search.decision (input.adjacentPairs.getD []))

end Platform

end Agid.PostalCode
