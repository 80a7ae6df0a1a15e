import Agid.LabelScans

/-!
# Borrowed evidence

The flags of a merged proof are read off the whole list and its ids off the first scan, so what
another waybill's scan shows is claimed too (`claimed_eq`).  A package receipt asks for one waybill,
one nullifier and no error (`packageReceipt_iff`), and is never borrowed.
-/

namespace Agid.LabelScans

variable {scans : List ScanResult} {terminalSigned : Option Bool}

theorem eraseDups_eq_nil {l : List JsString} : l.eraseDups = [] ↔ l = [] := by
  rcases l with _ | ⟨a, l⟩
  · simp
  · simp [List.eraseDups_cons]

theorem any_eraseDups (l : List JsString) (p : JsString → Bool) : l.eraseDups.any p = l.any p := by
  rw [Bool.eq_iff_iff]
  simp [List.any_eq_true, List.mem_eraseDups]

theorem hasBlocking_scans : hasBlockingAddressError (scans.flatMap (·.errors)).eraseDups
    = scans.any fun scan => hasBlockingAddressError scan.errors := by
  unfold hasBlockingAddressError
  rw [any_eraseDups, List.any_flatMap]

/-- What is claimed, of all scans together. -/
theorem claimed_eq (kind : Evidence) :
    (mergeShippingLabelScanProofsWithOptions scans terminalSigned).claimed kind = true
      ↔ (∃ scan ∈ scans, scan.shows kind)
        ∧ (kind = .address → ¬ ∃ scan ∈ scans, hasBlockingAddressError scan.errors) := by
  rcases kind with _ | _ | _
  · simp [MergedProof.claimed, mergeShippingLabelScanProofsWithOptions, hasBlocking_scans,
      ScanResult.shows]
  · simp [MergedProof.claimed, mergeShippingLabelScanProofsWithOptions, ScanResult.shows]
  · simp [MergedProof.claimed, mergeShippingLabelScanProofsWithOptions, ScanResult.shows]

theorem own_iff {scan : ScanResult} (hscan : scan ∈ scans) :
    (mergeShippingLabelScanProofsWithOptions scans terminalSigned).Own scan
      ↔ OfFirst scans scan := by
  unfold MergedProof.Own OfFirst
  rcases scans with _ | ⟨first, rest⟩
  · cases hscan
  · refine and_congr Iff.rfl ?_
    change scan.nullifier = (nonEmpty first.nullifier).getD [] ↔ _
    unfold nonEmpty
    split_ifs with hnil
    · simp [hnil]
    · simp

theorem proofLevel_eq (address carrier recipient delivered : Bool) :
    resolveShippingLabelProofLevel
        (buildShippingLabelProofStages address carrier recipient delivered)
      = if delivered then .deliveryCompleted else if recipient then .recipientControlled
        else if carrier then .carrierAccepted else if address then .addressValid else .none := by
  cases address <;> cases carrier <;> cases recipient <;> cases delivered <;> rfl

/-- The scans of a receipt are all of the first one's waybill and nullifier, without an error. -/
theorem packageReceipt_iff :
    (mergeShippingLabelScanProofsWithOptions scans terminalSigned).packageReceiptVerified = true
      ↔ (∀ scan ∈ scans, OfFirst scans scan ∧ scan.errors = [])
        ∧ (∃ scan ∈ scans, scan.shows .carrier) ∧ ∃ scan ∈ scans, scan.shows .recipient := by
  simp only [mergeShippingLabelScanProofsWithOptions, Bool.and_eq_true, List.isEmpty_iff,
    eraseDups_eq_nil, List.append_eq_nil_iff, List.flatMap_eq_nil_iff, List.any_eq_true,
    ScanResult.shows, ite_eq_left_iff, List.cons_ne_self, imp_false, not_not,
    List.all_eq_true, decide_eq_true_eq, OfFirst, forall₂_and]
  constructor
  · rintro ⟨⟨⟨hwaybill, hcarrier⟩, hrecipient⟩, ⟨⟨⟨herrors, -⟩, hnullifier⟩, -⟩, -⟩
    exact ⟨⟨⟨hwaybill, hnullifier⟩, herrors⟩, hcarrier, hrecipient⟩
  · rintro ⟨⟨⟨hwaybill, hnullifier⟩, herrors⟩, hcarrier, hrecipient⟩
    exact ⟨⟨⟨hwaybill, hcarrier⟩, hrecipient⟩,
      ⟨⟨⟨herrors, hwaybill⟩, hnullifier⟩, hcarrier⟩, hrecipient⟩

theorem delivered
    (h : (mergeShippingLabelScanProofsWithOptions scans terminalSigned).claims.deliveryCompleted) :
    (mergeShippingLabelScanProofsWithOptions scans terminalSigned).Delivered scans
      terminalSigned := by
  have hboth : (mergeShippingLabelScanProofsWithOptions scans terminalSigned).packageReceiptVerified
      = true ∧ terminalSigned.getD false = true := by
    simpa [mergeShippingLabelScanProofsWithOptions] using h
  obtain ⟨hreceipt, hsigned⟩ := hboth
  obtain ⟨hall, ⟨carrier, hcarrier, hshowsc⟩, recipient, hrecipient, hshowsr⟩ :=
    packageReceipt_iff.1 hreceipt
  refine ⟨⟨carrier, hcarrier, ?_, hshowsc, (hall carrier hcarrier).2⟩,
    ⟨recipient, hrecipient, ?_, hshowsr, (hall recipient hrecipient).2⟩, ?_⟩
  · exact (own_iff hcarrier).2 (hall carrier hcarrier).1
  · exact (own_iff hrecipient).2 (hall recipient hrecipient).1
  · rcases terminalSigned with _ | _ | _
    · cases hsigned
    · cases hsigned
    · rfl

/-! ## Orders -/

/-- Of one waybill, any scan may stand for the first. -/
theorem forall_ofFirst_iff {scans : List ScanResult}
    (h : ∃ waybillId, ∀ scan ∈ scans, scan.waybillId = waybillId) :
    (∀ scan ∈ scans, OfFirst scans scan)
      ↔ ∀ a ∈ scans, ∀ b ∈ scans, a.waybillId = (nonEmpty b.waybillId).getD (js "unknown")
        ∧ a.nullifier = b.nullifier := by
  obtain ⟨waybillId, h⟩ := h
  rcases scans with _ | ⟨first, rest⟩
  · simp
  have hfirst : first ∈ first :: rest := List.mem_cons_self
  unfold OfFirst
  simp only [List.head?_cons, Option.map_some, Option.bind_some, Option.some.injEq]
  constructor
  · intro hall a ha b hb
    obtain ⟨hwaybill, hnullifier⟩ := hall a ha
    rw [h b hb, ← h first hfirst]
    exact ⟨hwaybill, hnullifier.trans (hall b hb).2.symm⟩
  · exact fun hall scan hscan => hall scan hscan first hfirst

theorem claims_eq : (mergeShippingLabelScanProofsWithOptions scans terminalSigned).claims
    = let proof := mergeShippingLabelScanProofsWithOptions scans terminalSigned
      ⟨proof.claimed .address, proof.claimed .carrier, proof.claimed .recipient,
        proof.packageReceiptVerified, proof.packageReceiptVerified && terminalSigned.getD false⟩ :=
  rfl

theorem claims_perm {others : List ScanResult} (hperm : others.Perm scans)
    (h : ∃ waybillId, ∀ scan ∈ scans, scan.waybillId = waybillId) :
    (mergeShippingLabelScanProofsWithOptions others terminalSigned).claims
      = (mergeShippingLabelScanProofsWithOptions scans terminalSigned).claims := by
  have hclaimed : ∀ kind,
      (mergeShippingLabelScanProofsWithOptions others terminalSigned).claimed kind
        = (mergeShippingLabelScanProofsWithOptions scans terminalSigned).claimed kind := by
    intro kind
    rw [Bool.eq_iff_iff, claimed_eq, claimed_eq]
    simp only [hperm.mem_iff]
  have hothers : ∃ waybillId, ∀ scan ∈ others, scan.waybillId = waybillId := by
    simpa only [hperm.mem_iff] using h
  have hofFirst : (∀ scan ∈ others, OfFirst others scan) ↔ ∀ scan ∈ scans, OfFirst scans scan := by
    rw [forall_ofFirst_iff hothers, forall_ofFirst_iff h]
    simp only [hperm.mem_iff]
  have hreceipt :
      (mergeShippingLabelScanProofsWithOptions others terminalSigned).packageReceiptVerified
        = (mergeShippingLabelScanProofsWithOptions scans
          terminalSigned).packageReceiptVerified := by
    rw [Bool.eq_iff_iff, packageReceipt_iff, packageReceipt_iff, forall₂_and, forall₂_and,
      hofFirst]
    simp only [hperm.mem_iff]
  rw [claims_eq, claims_eq]
  simp only [hclaimed, hreceipt]

/-! ## The law -/

theorem level_supported
    (h : ∀ kind, (mergeShippingLabelScanProofsWithOptions scans terminalSigned).claimed kind →
      (mergeShippingLabelScanProofsWithOptions scans terminalSigned).Supported scans kind) :
    (mergeShippingLabelScanProofsWithOptions scans terminalSigned).SupportedLevel scans
      terminalSigned (mergeShippingLabelScanProofsWithOptions scans terminalSigned).proofLevel := by
  have hlevel : (mergeShippingLabelScanProofsWithOptions scans terminalSigned).proofLevel
      = let claims := (mergeShippingLabelScanProofsWithOptions scans terminalSigned).claims
        if claims.deliveryCompleted then .deliveryCompleted
        else if claims.recipientControl then .recipientControlled
        else if claims.carrierHandledPackage then .carrierAccepted
        else if claims.validAddressReference then .addressValid else .none :=
    proofLevel_eq _ _ _ _
  rw [hlevel]
  simp only
  split_ifs with hdelivered hrecipient hcarrier haddress
  · exact delivered hdelivered
  · exact h .recipient hrecipient
  · exact h .carrier hcarrier
  · exact h .address haddress
  · trivial

/-- The merge borrows no evidence exactly where no other waybill or nullifier brings any of its
own. -/
theorem neverBorrows_iff (scans : List ScanResult) (terminalSigned : Option Bool) :
    NeverBorrows scans terminalSigned ↔ NothingForeign scans := by
  have hsupported : ∀ kind,
      (mergeShippingLabelScanProofsWithOptions scans terminalSigned).Supported scans kind
        ↔ ∃ own ∈ scans, OfFirst scans own ∧ own.shows kind := fun kind =>
    exists_congr fun own => and_congr_right fun hown => by rw [own_iff hown]
  constructor
  · intro h kind scan hscan hforeign hshows
    by_cases hclaimed : (mergeShippingLabelScanProofsWithOptions scans terminalSigned).claimed kind
    · exact .inl ((hsupported kind).1 (h.claims kind hclaimed))
    · rw [claimed_eq, not_and_or, Classical.not_imp, not_not] at hclaimed
      exact .inr (hclaimed.resolve_left fun hnone => hnone ⟨scan, hscan, hshows⟩)
  · intro h
    have hclaims : ∀ kind,
        (mergeShippingLabelScanProofsWithOptions scans terminalSigned).claimed kind →
          (mergeShippingLabelScanProofsWithOptions scans terminalSigned).Supported scans kind := by
      intro kind hclaimed
      obtain ⟨⟨scan, hscan, hshows⟩, hblocking⟩ := (claimed_eq kind).1 hclaimed
      rw [hsupported]
      by_cases hown : OfFirst scans scan
      · exact ⟨scan, hscan, hown, hshows⟩
      · exact (h kind scan hscan hown hshows).resolve_right fun ⟨haddress, hother⟩ =>
          hblocking haddress hother
    exact ⟨hclaims, level_supported hclaims, delivered, fun _ hperm hone => claims_perm hperm hone⟩

/-- A recipient's scan with a wrong code, and a carrier's scan of another waybill. -/
def mixedScans : List ScanResult :=
  [⟨js "WB-A", js "J1", js "N1", .standard, .recipient, true, false, false,
      [js "recipient-proof-code-mismatch"], []⟩,
    ⟨js "WB-B", js "J2", js "N2", .standard, .carrier, true, true, false, [], []⟩]

theorem mixedScans_borrow : ¬ NeverBorrows mixedScans none := by
  intro h
  obtain ⟨scan, hscan, ⟨hwaybill, -⟩, hshows⟩ := h.claims .carrier (by decide)
  simp only [mixedScans, List.mem_cons, List.not_mem_nil, or_false] at hscan
  rcases hscan with rfl | rfl
  · exact absurd hshows (by decide)
  · exact absurd hwaybill (by decide)

end Agid.LabelScans
