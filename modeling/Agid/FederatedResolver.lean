import Agid.Clock
import Agid.Lib.Record

/-!
# The consensus of federated sources

`eligibleResults` and `buildConsensus` of `src/lib/federatedResolver.ts`, with the options that
`resolveFederatedAddress` calls it with.  A number is a rational.  What a result holds besides the
key it names, and how the sources are asked, is left out.
-/

namespace Agid.FederatedResolver

inductive FederatedResolverSourceStatus
  | resolved
  | partialResult
  | unresolved
  | error
  | timeout
deriving DecidableEq

structure FederatedResolverSourceResult where
  sourceId : JsString
  status : FederatedResolverSourceStatus
  confidence : ℚ
  trustScore : ℚ
  targetKey : Option JsString
  errors : List JsString

inductive FederatedResolverStatus
  | resolved
  | partialResult
  | unresolved
  | conflict
deriving DecidableEq

inductive FederatedResolverDecision
  | accept
  | review
  | reject
deriving DecidableEq

structure FederatedResolverConsensus where
  status : FederatedResolverStatus
  decision : FederatedResolverDecision
  winningTargetKey : Option JsString
  confidence : ℚ
  agreementCount : ℕ
  eligibleSourceCount : ℕ
  quorum : ℤ
  quorumMet : Bool
  conflictKeys : List JsString
  supportingSourceIds : List JsString
  rejectedSourceIds : List JsString

structure Options where
  quorum : ℤ
  minTrustScore : ℚ
  minResolvedConfidence : ℚ

/-- `Math.round(value * 1000) / 1000`, kept between 0 and 1. -/
def clamp01 (value : ℚ) : ℚ := max 0 (min 1 (⌊value * 1000 + 1 / 2⌋ / 1000))

/-- The options that `resolveFederatedAddress` makes of its input. -/
def consensusOptions (quorum minTrustScore minResolvedConfidence : Option ℚ) : Options where
  quorum := max 1 ⌊quorum.getD 2⌋
  minTrustScore := clamp01 (minTrustScore.getD (35 / 100))
  minResolvedConfidence := clamp01 (minResolvedConfidence.getD (55 / 100))

/-! ## Votes -/

/-- The key that a result counts for: it names one that is not empty, without an error and with
enough trust. -/
def vote (minTrustScore : ℚ) (result : FederatedResolverSourceResult) : Option JsString :=
  if (result.status = .resolved ∨ result.status = .partialResult) ∧ result.errors = []
      ∧ minTrustScore ≤ result.trustScore then
    result.targetKey.filter (· ≠ [])
  else none

def eligibleResults (results : List FederatedResolverSourceResult) (minTrustScore : ℚ) :
    List FederatedResolverSourceResult :=
  results.filter fun result => (vote minTrustScore result).isSome

structure Group where
  key : JsString
  count : ℕ
  weightedConfidence : ℚ
  sourceIds : List JsString

def weight (result : FederatedResolverSourceResult) : ℚ :=
  clamp01 (result.confidence * result.trustScore)

def addVote (groups : Record JsString Group) (key : JsString)
    (result : FederatedResolverSourceResult) : Record JsString Group :=
  let group := (groups.get? key).getD ⟨key, 0, 0, []⟩
  groups.set key ⟨key, group.count + 1, group.weightedConfidence + weight result,
    group.sourceIds ++ [result.sourceId]⟩

def groupsOf (eligible : List FederatedResolverSourceResult) : Record JsString Group :=
  eligible.foldl (fun groups result => addVote groups (result.targetKey.getD []) result) .empty

/-- More results come first, and with as many the greater weight. -/
def Before (left right : Group) : Prop :=
  right.count < left.count
    ∨ right.count = left.count ∧ right.weightedConfidence ≤ left.weightedConfidence

instance : DecidableRel Before := fun _ _ => inferInstanceAs (Decidable (_ ∨ _))

def sortGroups (groups : List Group) : List Group := groups.insertionSort Before

/-- Whether the second group has as many results as the first, and almost its weight. -/
def tiedConflict (top : Group) (second : Option Group) : Bool :=
  second.any fun second => top.count = second.count
    && |top.weightedConfidence - second.weightedConfidence| < 5 / 100

def isConflicting (quorum : ℤ) (top group : Group) : Bool :=
  group.key ≠ top.key && max 1 (quorum - 1) ≤ (group.count : ℤ)

/-! ## The consensus -/

def buildConsensus (results : List FederatedResolverSourceResult) (options : Options) :
    FederatedResolverConsensus :=
  let eligible := eligibleResults results options.minTrustScore
  let sorted := sortGroups (groupsOf eligible).values
  let rejectedSourceIds := (results.filter fun result =>
    (vote options.minTrustScore result).isNone).map (·.sourceId)
  match sorted with
  | [] =>
    { status := .unresolved
      decision := .reject
      winningTargetKey := none
      confidence := 0
      agreementCount := 0
      eligibleSourceCount := eligible.length
      quorum := options.quorum
      quorumMet := false
      conflictKeys := []
      supportingSourceIds := []
      rejectedSourceIds }
  | top :: rest =>
    let confidence := clamp01 (top.weightedConfidence / max 1 top.count)
    let quorumMet := decide (options.quorum ≤ top.count)
    let conflictKeys := (sorted.filter (isConflicting options.quorum top)).map (·.key)
    let accepted := quorumMet && options.minResolvedConfidence ≤ confidence
    { status :=
        if tiedConflict top rest.head? then .conflict
        else if accepted && conflictKeys = [] then .resolved
        else .partialResult
      decision :=
        if !tiedConflict top rest.head? && accepted && conflictKeys = [] then .accept else .review
      winningTargetKey := some top.key
      confidence
      agreementCount := top.count
      eligibleSourceCount := eligible.length
      quorum := options.quorum
      quorumMet
      conflictKeys :=
        if tiedConflict top rest.head? then
          ((rest.head?.map (·.key)).toList ++ conflictKeys).eraseDups.filter (· ≠ [])
        else conflictKeys
      supportingSourceIds := top.sourceIds
      rejectedSourceIds }

/-! ## Support -/

section Support

variable (results : List FederatedResolverSourceResult) (options : Options)

/-- The results that count for a key. -/
def supporters (key : JsString) : List FederatedResolverSourceResult :=
  results.filter fun result => vote options.minTrustScore result = some key

/-- The mean weight of the results for a key. -/
def mean (key : JsString) : ℚ :=
  ((supporters results options key).map weight).sum / (supporters results options key).length

/-- Results of different sources, as many as the quorum, name the key; their mean reaches the
minimum, and no other key is named by almost a quorum. -/
structure Supported (key : JsString) : Prop where
  sources : ∃ ids : List JsString, ids.Nodup ∧ options.quorum ≤ ids.length
    ∧ ∀ id ∈ ids, ∃ result ∈ supporters results options key, result.sourceId = id
  mean : options.minResolvedConfidence ≤ mean results options key
  others : ∀ other, other ≠ key →
    ((supporters results options other).length : ℤ) < max 1 (options.quorum - 1)

/-- What is accepted is supported. -/
def Sound : Prop :=
  (buildConsensus results options).decision = .accept →
    ∃ key, (buildConsensus results options).winningTargetKey = some key
      ∧ Supported results options key

/-- Another order of the results makes no difference, save for the key of a conflict. -/
def OrderFree : Prop :=
  ∀ results', results.Perm results' →
    (buildConsensus results' options).status = (buildConsensus results options).status
      ∧ (buildConsensus results' options).decision = (buildConsensus results options).decision
      ∧ ((buildConsensus results options).status ≠ .conflict →
        (buildConsensus results' options).winningTargetKey
          = (buildConsensus results options).winningTargetKey)

/-- A key that has a quorum of results, and whose mean reaches the minimum when it is rounded, while
no other key has almost a quorum. -/
structure Leads (key : JsString) : Prop where
  named : supporters results options key ≠ []
  quorum : options.quorum ≤ (supporters results options key).length
  mean : options.minResolvedConfidence ≤ clamp01 (mean results options key)
  others : ∀ other, other ≠ key →
    ((supporters results options other).length : ℤ) < max 1 (options.quorum - 1)

/-- The results for a key count once for each source and still are a quorum, and the mean needs no
rounding. -/
def Counted (key : JsString) : Prop :=
  options.quorum ≤ ((supporters results options key).map (·.sourceId)).toFinset.card
    ∧ options.minResolvedConfidence ≤ mean results options key

end Support

end Agid.FederatedResolver
