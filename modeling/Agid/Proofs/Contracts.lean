import Agid.Contracts
import Agid.Lib.Checks

/-!
# The keys of the contracts

What a transaction does to the anchor of each pair of names, and when two pairs have one anchor.
-/

namespace Agid.Contracts

open Checks Encoding

variable {evm : Evm}

theorem requireThat_eq_ok {holds : Bool} {reason : String} :
    requireThat holds reason = .ok () ↔ holds = true := by
  unfold requireThat
  split_ifs with h
  · simp [h]
  · simp [h]

/-! ## Anchors -/

/-- A transaction that is accepted leaves each anchor, but the one of its own names. -/
theorem anchors_of_call {registry registry' : FreshnessRegistry} {call : FreshnessCall}
    (h : registry.call evm call = .ok registry') {key : Bytes32}
    (hkey : ∀ names ∈ call.names, anchorKey evm names ≠ key) :
    registry'.anchors key = registry.anchors key := by
  rcases call with hasRole | sender | sender | ⟨sender, time, names, _, _, validUntil⟩
  · cases h
    rfl
  · obtain ⟨access, -, h⟩ := bind_eq_ok.1 h
    cases h
    rfl
  · obtain ⟨access, -, h⟩ := bind_eq_ok.1 h
    cases h
    rfl
  · unfold FreshnessRegistry.call anchorRevocationFreshnessRoot at h
    simp only [bind_eq_ok] at h
    obtain ⟨-, -, -, -, -, -, -, -, -, -, h⟩ := h
    cases h
    exact Function.update_of_ne (hkey names rfl).symm _ _

/-- A run leaves the anchor of a key that no call is for. -/
theorem anchors_run {key : Bytes32} : ∀ {calls : List FreshnessCall} {registry : FreshnessRegistry},
    (∀ call ∈ calls, ∀ names ∈ call.names, anchorKey evm names ≠ key) →
    (registry.run evm calls).anchors key = registry.anchors key
  | [], _, _ => rfl
  | call :: calls, registry, hkey => by
    rw [FreshnessRegistry.run, List.foldl_cons]
    refine (anchors_run fun c hc => hkey c (List.mem_cons_of_mem _ hc)).trans ?_
    rcases hcall : registry.call evm call with reverted | registry'
    · rfl
    · exact anchors_of_call hcall (hkey call List.mem_cons_self)

/-- Two pairs of names have two keys, so that no run that anchors one of them changes what is read
for the other. -/
structure Apart (evm : Evm) (p q : Names) : Prop where
  key_ne : anchorKey evm p ≠ anchorKey evm q
  kept : ∀ (registry : FreshnessRegistry) (calls : List FreshnessCall),
    (∀ call ∈ calls, ∀ names ∈ call.names, names = p) →
    (registry.run evm calls).getAnchor evm q = registry.getAnchor evm q

theorem apart_of_key_ne {p q : Names} (h : anchorKey evm p ≠ anchorKey evm q) : Apart evm p q :=
  ⟨h, fun _ _ hcalls => anchors_run fun call hcall names hnames =>
    hcalls call hcall names hnames ▸ h⟩

theorem anchors_apart_iff {p q : Names} (hpq : p ≠ q)
    (hkeccak : evm.keccak256 (packed p) = evm.keccak256 (packed q) → packed p = packed q) :
    Apart evm p q ↔ ¬ Shifted 0x1f p q ∧ ¬ Shifted 0x1f q p := by
  constructor
  · intro h
    exact ⟨fun hshifted => h.key_ne (congrArg evm.keccak256 (joined_eq_of_shifted hshifted)),
      fun hshifted => h.key_ne (congrArg evm.keccak256 (joined_eq_of_shifted hshifted).symm)⟩
  · rintro ⟨hpq', hqp⟩
    refine apart_of_key_ne fun hkey => ?_
    rcases joined_eq_iff.1 (hkeccak hkey) with heq | hshifted | hshifted
    · exact hpq heq
    · exact hpq' hshifted
    · exact hqp hshifted

/-- The hash on three texts. -/
def sampleEvm : Evm where
  keccak256 bytes :=
    if bytes = [97, 31, 98] then
      0x03c93cd4f52d5e5bf77739c702b9c2f3e2f31373dbe6725f5cd52958e7b73d65
    else if bytes = [97, 31, 99] then
      0x893b6a276faaed9679d61e7a689c87e1712678d294b20ac8ed5800ddb8f9e6e4
    else if bytes = [97, 31, 98, 31, 99] then
      0x0ff2731cf75c686046bf071e5f54e487ac49c3ce3a9fc9254058e7da0da90a89
    else 0

theorem anchors_apart_iff_issuers : Apart sampleEvm ([97], [98]) ([97], [99]) := by
  refine (anchors_apart_iff (by decide) fun h => absurd h (by decide)).2 ⟨?_, ?_⟩
  · rintro ⟨m, hm, -⟩
    simp at hm
  · rintro ⟨m, hm, -⟩
    simp at hm

def emptyRegistry : FreshnessRegistry where
  access := { hasRole := fun _ _ => true, paused := false }
  anchors _ := ⟨0, 0, 0, 0⟩

/-- The issuer `c` of the registry `a\x1fb` has the anchor of the issuer `b\x1fc` of `a`, and sets
it back. -/
theorem anchors_not_apart :
    ((([97, 31, 98], [99]) : Names) ≠ ([97], [98, 31, 99]))
      ∧ anchorKey sampleEvm ([97, 31, 98], [99]) = anchorKey sampleEvm ([97], [98, 31, 99])
      ∧ (emptyRegistry.run sampleEvm
          [.anchor 1 0 ([97], [98, 31, 99]) 2 2 10]).getAnchor sampleEvm ([97], [98, 31, 99])
        = ⟨2, 2, 10, 0⟩
      ∧ (emptyRegistry.run sampleEvm
          [.anchor 1 0 ([97], [98, 31, 99]) 2 2 10,
            .anchor 1 0 ([97, 31, 98], [99]) 1 1 5]).getAnchor sampleEvm ([97], [98, 31, 99])
        = ⟨1, 1, 5, 0⟩
      ∧ ¬ Apart sampleEvm ([97, 31, 98], [99]) ([97], [98, 31, 99]) := by
  have hkey : anchorKey sampleEvm ([97, 31, 98], [99])
      = anchorKey sampleEvm ([97], [98, 31, 99]) := by decide
  exact ⟨by decide, hkey, by decide, by decide, fun h => h.key_ne hkey⟩

end Agid.Contracts
