import Agid.Proofs.OfflineSync

/-!
# Private fields

A state that is built of operations with no plaintext in sensitive fields has none, as a register
of a state is one that some operation wrote.  `createOperation` looks for it where a field is
written, not where it is removed.
-/

namespace Agid.AddressOfflineCrdt

variable {V : Type} (P : Platform V)

/-- The registers of sensitive fields hold no plaintext. -/
def PrivateFields (fields : Record JsString (Register V)) : Prop :=
  ∀ name r, fields.get? name = some r → isSensitiveField P (some name) → r.publicValue = none

/-- The input removes a sensitive field and comes with a plaintext. -/
def Discloses (input : CreateOperationInput V) : Prop :=
  input.action = .removeField
    ∧ isSensitiveField P (truthy ((truthy input.field).map fun f => cleanKey P.nfkc (some f) []))
    ∧ input.publicValue ≠ none

/-- An operation created of one of the inputs. -/
def Issued (inputs : Set (CreateOperationInput V)) (operation : Operation V) : Prop :=
  ∃ input ∈ inputs, createOperation P input = .ok operation

variable [DecidableEq V]

/-- The states that operations created of the inputs lead to, on any record and in any order. -/
inductive Built (inputs : Set (CreateOperationInput V)) : State V → Prop where
  | empty (input : CreateStateInput) : Built inputs (createState P input)
  | first {operation : Operation V} {s : State V} (hop : Issued P inputs operation)
      (happly : applyOperation P none operation = .ok s) : Built inputs s
  | apply {operation : Operation V} {s s' : State V} (hs : Built inputs s)
      (hop : Issued P inputs operation)
      (happly : applyOperation P (some s) operation = .ok s') : Built inputs s'
  | merge {l r : State V} (hl : Built inputs l) (hr : Built inputs r) :
      Built inputs (mergeStates P l r)

/-- No state built of the inputs, and no envelope of one, has plaintext in a sensitive field. -/
def KeepsPrivate (inputs : Set (CreateOperationInput V)) : Prop :=
  ∀ s, Built P inputs s →
    PrivateFields P s.fields ∧ PrivateFields P (buildSyncEnvelope P s).fields

variable {P}

omit [DecidableEq V] in
theorem privateFields_createState (input : CreateStateInput) :
    PrivateFields P (createState P input : State V).fields := by
  intro name r hr
  simp [createState] at hr

theorem mergeRegister_private {entityId : JsString} {o : Option (Register V)} {i : Register V}
    (ho : ∀ c, o = some c → c.publicValue = none) (hi : i.publicValue = none) :
    (mergeRegister P entityId o i).1.publicValue = none := by
  rcases mergeRegister_content P entityId o i with ⟨c, hc, he⟩ | he <;> rw [he]
  · exact ho c hc
  · exact hi

omit [DecidableEq V] in
/-- What an operation writes in a sensitive field. -/
theorem Created.private_register {input : CreateOperationInput V} {x : Operation V}
    (hx : Created P input x) (hn : ¬ Discloses P input) {name : JsString}
    (ht : x.target? = some (.field name)) (hs : isSensitiveField P (some name)) :
    x.register.publicValue = none := by
  have hfield : x.action = .upsertField ∨ x.action = .removeField → x.field = some name := by
    intro ha
    obtain ⟨f, hf⟩ := hx.named ha
    unfold Operation.target? at ht
    rcases ha with ha | ha <;> simp_all
  unfold Operation.register
  rcases ha : x.action with _ | _ | _ | _ | _
  · exact hx.sensitive ha (hfield (Or.inl ha) ▸ hs)
  · by_contra hv
    have hf := hfield (Or.inr ha)
    refine hn ⟨hx.action ▸ ha, ?_, hx.publicValue ▸ hv⟩
    rw [← hx.field, hf]
    exact hs
  · simp [Operation.target?, ha] at ht
  · simp [Operation.target?, ha] at ht
  · rfl

theorem privateFields_apply {s : State V} (h : PrivateFields P s.fields) {x : Operation V}
    {input : CreateOperationInput V} (hx : Created P input x) (hn : ¬ Discloses P input) :
    PrivateFields P (applyToRecord P s x).fields := by
  intro name r hr hs
  change (applyToRecord P s x).register? (.field name) = some r at hr
  rw [applyToRecord_register] at hr
  split_ifs at hr with ht
  · obtain rfl := Option.some.inj hr
    exact mergeRegister_private (fun c hc => h name c hc hs) (hx.private_register hn ht hs)
  · exact h name r hr hs

theorem privateFields_merge {l r : State V} (hl : PrivateFields P l.fields)
    (hr : PrivateFields P r.fields) : PrivateFields P (mergeStates P l r).fields := by
  by_cases hlr : l.SameRecord r
  · intro name v hv hs
    change (mergeStates P l r).register? (.field name) = some v at hv
    rw [mergeStates_register P hlr] at hv
    rcases hrt : r.register? (.field name) with _ | i
    · rw [hrt] at hv
      exact hl name v hv hs
    · simp only [hrt, Option.some.injEq] at hv
      subst hv
      exact mergeRegister_private (fun c hc => hl name c hc hs) (hr name i hrt hs)
  · -- states of different records: the left one, with a conflict
    have hne : l.entityId ≠ r.entityId ∨ l.entityKind ≠ r.entityKind ∨ l.domain ≠ r.domain := by
      by_contra hn
      simp only [not_or, not_not] at hn
      exact hlr hn
    unfold mergeStates
    rw [if_pos hne]
    exact hl

theorem Built.private {inputs : Set (CreateOperationInput V)}
    (hinputs : ∀ input ∈ inputs, ∀ x, createOperation P input = .ok x → ¬ Discloses P input)
    {s : State V} (h : Built P inputs s) : PrivateFields P s.fields := by
  induction h with
  | empty input => exact privateFields_createState input
  | first hop happly =>
    obtain ⟨input, hmem, hcreate⟩ := hop
    obtain ⟨rfl, -⟩ := applyOperation_some P happly
    exact privateFields_apply (privateFields_createState _) (createOperation_ok P hcreate)
      (hinputs input hmem _ hcreate)
  | apply hs hop happly ih =>
    obtain ⟨input, hmem, hcreate⟩ := hop
    obtain ⟨rfl, -⟩ := applyOperation_some P happly
    exact privateFields_apply ih (createOperation_ok P hcreate) (hinputs input hmem _ hcreate)
  | merge hl hr ihl ihr => exact privateFields_merge ihl ihr

/-- A remove with a plaintext, applied to an empty state, leaves the plaintext there. -/
theorem not_privateFields_apply {input : CreateOperationInput V} {x : Operation V}
    (hx : Created P input x) (hd : Discloses P input) (now : ℤ) :
    ¬ PrivateFields P (applyToRecord P
      (createState P ⟨input.entityId, input.entityKind, input.domain, now⟩) x).fields := by
  obtain ⟨ha, hs, hv⟩ := hd
  have hax : x.action = .removeField := hx.action.trans ha
  obtain ⟨name, hname⟩ := hx.named (Or.inr hax)
  rw [← hx.field, hname] at hs
  have ht : x.target? = some (.field name) := by
    simp [Operation.target?, hax, hname]
  intro h
  have hreg := applyToRecord_register P
    (createState P ⟨input.entityId, input.entityKind, input.domain, now⟩) x (.field name)
  rw [if_pos ht] at hreg
  have hnone := h name _ hreg hs
  have hpublic : x.register.publicValue = input.publicValue := by
    rw [← hx.publicValue]
    simp [Operation.register, hax, registerOf]
  exact hv (hpublic ▸ hnone)

theorem Built.created {inputs : Set (CreateOperationInput V)} {input : CreateOperationInput V}
    (hmem : input ∈ inputs) {x : Operation V} (hcreate : createOperation P input = .ok x) (now : ℤ) :
    Built P inputs (applyToRecord P
      (createState P ⟨input.entityId, input.entityKind, input.domain, now⟩) x) :=
  .apply (.empty _) ⟨input, hmem, hcreate⟩
    (applyOperation_of_sameEntity P ((createOperation_ok P hcreate).record now))

/-- Sensitive fields stay private for exactly the inputs of which none that is not refused removes
one with a plaintext. -/
theorem keepsPrivate_iff (inputs : Set (CreateOperationInput V)) : KeepsPrivate P inputs
    ↔ ∀ input ∈ inputs, ∀ x, createOperation P input = .ok x → ¬ Discloses P input := by
  constructor
  · intro h input hmem x hcreate hd
    exact not_privateFields_apply (createOperation_ok P hcreate) hd 0
      (h _ (.created hmem hcreate 0)).1
  · exact fun h s hs => ⟨hs.private h, hs.private h⟩

/-- A remove of a raw address that comes with the address. -/
def rawAddressInput : CreateOperationInput JsString :=
  { blankInput with
    actorId := js "pos-a"
    action := .removeField
    field := some (js "rawAddress")
    publicValue := some (js "1-1 Chiyoda") }

theorem rawAddress_not_private : ¬ KeepsPrivate asciiPlatform Set.univ := by
  intro h
  have hok : (createOperation asciiPlatform rawAddressInput).toOption.isSome := by decide
  have hcreate := ok_get hok
  exact not_privateFields_apply (createOperation_ok asciiPlatform hcreate)
    ⟨rfl, by decide, by decide⟩ 0 (h _ (.created (Set.mem_univ _) hcreate 0)).1

end Agid.AddressOfflineCrdt
