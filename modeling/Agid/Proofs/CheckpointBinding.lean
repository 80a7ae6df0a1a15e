import Agid.CheckpointBinding
import Agid.Proofs.JsonValues
import Agid.Proofs.TextBytes

/-!
# The commitment of a binding

The fields of a binding that is accepted are short and can be read back from what is hashed
(`separated_inj`).  They say everything of the binding but what the map has besides the source
zones, and they follow the order of its refs where the sort leaves them as they were.
-/

namespace Agid.CheckpointBinding

open Encoding StableSort

variable {P : Platform}

/-! ## Fields -/

/-- A string that is read back from its bytes, of which there are not too many. -/
structure Sendable (s : JsString) : Prop where
  wellFormed : isWellFormed s = true
  short : (textEncode s).length < 256 ^ 4

theorem sendable_of_length {s : JsString} (hs : isWellFormed s = true) (h : s.length ≤ 2 ^ 30) :
    Sendable s :=
  ⟨hs, by have := length_textEncode_le s; omega⟩

theorem Sendable.inj {s t : JsString} (hs : Sendable s) (ht : Sendable t)
    (h : textEncode s = textEncode t) : s = t :=
  textEncode_inj hs.wellFormed ht.wellFormed h

/-- Both strings of a field. -/
def FieldSendable (field : Field) : Prop := Sendable field.1 ∧ Sendable field.2

theorem canonicalField_eq {field : Field} (h : FieldSendable field) :
    canonicalField field = some (tagged (utf8 field)) :=
  if_pos ⟨h.1.short, h.2.short⟩

theorem mapM_canonicalField : ∀ {fields : List Field}, (∀ field ∈ fields, FieldSendable field) →
    fields.mapM canonicalField = some (fields.map fun field => tagged (utf8 field))
  | [], _ => rfl
  | field :: fields, h => by
    rw [List.forall_mem_cons] at h
    rw [List.mapM_cons, canonicalField_eq h.1, mapM_canonicalField h.2]
    rfl

theorem separated_eq {domain : JsString} {fields : List Field} (hdomain : Sendable domain)
    (h : ∀ field ∈ fields, FieldSendable field) :
    separated domain fields
      = some (tagged (utf8 (js "domain", domain)) ++ (fields.map utf8).flatMap tagged) := by
  have hname : Sendable (js "domain") := sendable_of_length (by decide) (by decide)
  rw [separated, canonicalField_eq ⟨hname, hdomain⟩, mapM_canonicalField h, List.flatMap_map]
  rfl

theorem utf8_inj {field field' : Field} (h : FieldSendable field) (h' : FieldSendable field')
    (heq : utf8 field = utf8 field') : field = field' := by
  obtain ⟨hfirst, hsecond⟩ := Prod.ext_iff.1 heq
  exact Prod.ext (h.1.inj h'.1 hfirst) (h.2.inj h'.2 hsecond)

theorem map_utf8_inj : ∀ {fields fields' : List Field}, (∀ field ∈ fields, FieldSendable field) →
    (∀ field ∈ fields', FieldSendable field) → fields.map utf8 = fields'.map utf8 →
      fields = fields'
  | [], [], _, _, _ => rfl
  | [], _ :: _, _, _, h => absurd h (List.cons_ne_nil _ _).symm
  | _ :: _, [], _, _, h => absurd h (List.cons_ne_nil _ _)
  | field :: fields, field' :: fields', h, h', heq => by
    rw [List.forall_mem_cons] at h h'
    rw [List.map_cons, List.map_cons, List.cons.injEq] at heq
    exact congrArg₂ List.cons (utf8_inj h.1 h'.1 heq.1) (map_utf8_inj h.2 h'.2 heq.2)

/-- What is hashed tells the fields apart. -/
theorem separated_inj {domain : JsString} {fields fields' : List Field} (hdomain : Sendable domain)
    (h : ∀ field ∈ fields, FieldSendable field) (h' : ∀ field ∈ fields', FieldSendable field)
    (heq : separated domain fields = separated domain fields') : fields = fields' := by
  have hmeasurable {l : List Field} (hl : ∀ field ∈ l, FieldSendable field) :
      ∀ field ∈ l.map utf8, Measurable field := by
    intro field hfield
    obtain ⟨f, hf, rfl⟩ := List.mem_map.1 hfield
    exact ⟨(hl f hf).1.short, (hl f hf).2.short⟩
  rw [separated_eq hdomain h, separated_eq hdomain h', Option.some.injEq,
    List.append_cancel_left_eq] at heq
  exact map_utf8_inj h h' (flatMap_tagged_inj (hmeasurable h) (hmeasurable h') heq)

/-! ## Numbers -/

theorem when_eq_nil {holds : Bool} {error : JsString} : when holds error = [] ↔ holds = false := by
  cases holds <;> simp [when]

theorem low_of_digit {z : ℤ} {c : CodeUnit} (h : c ∈ js (toString z)) : c.val < 0xD800 := by
  obtain ⟨d, hd, rfl⟩ := List.mem_map.1 h
  have hval := toNat_of_mem_repr hd
  rw [Fin.val_ofNat]
  omega

theorem toString_natCast (n : ℕ) : toString (n : ℤ) = toString n := rfl

theorem length_toString {n k : ℕ} (hk : 0 < k) (h : n < 10 ^ k) :
    (js (toString n)).length ≤ k := by
  rw [js, List.length_map]
  have : (toString n).toList = Nat.toDigits 10 n := Nat.toList_repr
  rw [this]
  exact (Nat.length_toDigits_le_iff (by decide) hk).2 h

/-- An integer that the source takes for canonical. -/
def CanonicalInteger (n : JsNumber) : Prop :=
  ∃ k : ℕ, k ≤ 9007199254740991 ∧ n = .finite k

theorem canonicalInteger_iff {n : JsNumber} {path : JsString} :
    validateCanonicalInteger n path = [] ↔ CanonicalInteger n := by
  rw [validateCanonicalInteger, when_eq_nil, Bool.or_eq_false_iff, Bool.not_eq_false']
  constructor
  · rintro ⟨hsafe, hnegative⟩
    rcases n with q | _ | _ | _
    · simp only [isSafeInteger, Bool.and_eq_true, decide_eq_true_eq] at hsafe
      simp only [isNegative, decide_eq_false_iff_not, not_lt] at hnegative
      have hnum : 0 ≤ q.num := Rat.num_nonneg.2 hnegative
      refine ⟨q.num.natAbs, hsafe.2, congrArg JsNumber.finite ?_⟩
      rw [Nat.cast_natAbs, abs_of_nonneg hnum]
      exact (Rat.den_eq_one_iff q).1 hsafe.1 |>.symm
    all_goals cases hsafe
  · rintro ⟨k, hk, rfl⟩
    have hden : (k : ℚ).den = 1 := Rat.den_natCast k
    have hnum : (k : ℚ).num = k := Rat.num_natCast k
    simp only [isSafeInteger, isNegative, hden, hnum, Int.natAbs_natCast, hk, decide_true,
      Bool.and_self, true_and, decide_eq_false_iff_not, not_lt]
    exact Nat.cast_nonneg k

theorem CanonicalInteger.text {n : JsNumber} (h : CanonicalInteger n) :
    ∃ k : ℕ, n = .finite k ∧ k < 10 ^ 16 ∧ numberText P n = js (toString (k : ℤ)) := by
  obtain ⟨k, hk, rfl⟩ := h
  refine ⟨k, rfl, by omega, ?_⟩
  have hden : (k : ℚ).den = 1 := Rat.den_natCast k
  have hnum : (k : ℚ).num = k := Rat.num_natCast k
  rw [numberText, hden, hnum, if_pos ⟨rfl, by rw [Int.natAbs_natCast]; omega⟩]

theorem CanonicalInteger.sendable {n : JsNumber} (h : CanonicalInteger n) :
    Sendable (numberText P n) := by
  obtain ⟨k, rfl, hk, htext⟩ := h.text (P := P)
  rw [htext]
  refine sendable_of_length (isWellFormed_low fun c hc => low_of_digit hc) ?_
  rw [toString_natCast]
  have := length_toString (by decide) hk
  omega

theorem CanonicalInteger.inj {m n : JsNumber} (hm : CanonicalInteger m) (hn : CanonicalInteger n)
    (h : numberText P m = numberText P n) : m = n := by
  obtain ⟨k, rfl, -, hk⟩ := hm.text (P := P)
  obtain ⟨l, rfl, -, hl⟩ := hn.text (P := P)
  rw [hk, hl] at h
  have : (k : ℤ) = l := js_toString_inj h
  rw [Nat.cast_inj.1 this]

/-! ## What is accepted -/

/-- The UTF-8 of the string is short. -/
def Short (s : JsString) : Prop := (textEncode s).length ≤ maxUtf8BytesPerString

theorem short_of_canonical {s path : JsString} (h : validateCanonicalString P s path = []) :
    Short s := by
  rw [validateCanonicalString, List.append_eq_nil_iff, when_eq_nil, when_eq_nil] at h
  simpa [Short] using h.2

theorem Short.sendable {s : JsString} (h : Short s) (hs : isWellFormed s = true) : Sendable s :=
  ⟨hs, by unfold Short maxUtf8BytesPerString at h; omega⟩

theorem Short.length_le {s : JsString} (h : Short s) : s.length ≤ 4096 :=
  (length_le_textEncode s).trans h

theorem nodup_of_setSize {α : Type} [DecidableEq α] {l : List α} (h : setSize l = l.length) :
    l.Nodup := by
  rw [← (List.dedup_sublist l).eq_of_length h]
  exact List.nodup_dedup l

/-- Every element of the list has no errors, at some index. -/
theorem errors_nil {α : Type} {l : List α} {f : α × ℕ → List JsString}
    (h : l.zipIdx.flatMap f = []) : ∀ a ∈ l, ∃ i, f (a, i) = [] := by
  intro a ha
  obtain ⟨i, hi, rfl⟩ := List.getElem_of_mem ha
  refine ⟨i, List.flatMap_eq_nil_iff.1 h (l[i], i) ?_⟩
  rw [List.mk_mem_zipIdx_iff_getElem?, List.getElem?_eq_getElem hi]

structure Transition.Sound (t : Transition) : Prop where
  fromBoundaryEpoch : CanonicalInteger t.fromBoundaryEpoch
  toBoundaryEpoch : CanonicalInteger t.toBoundaryEpoch
  translatedReferentBefore : Short t.translatedReferentBefore
  translatedReferentAfter : Short t.translatedReferentAfter
  sourceCount : t.sourceZoneIds.length ≤ 512
  targetCount : t.targetZoneIds.length ≤ 512
  sourceNodup : t.sourceZoneIds.Nodup
  targetNodup : t.targetZoneIds.Nodup
  sourceZoneIds : ∀ zone ∈ t.sourceZoneIds, Short zone
  targetZoneIds : ∀ zone ∈ t.targetZoneIds, Short zone
  sourceToTargets : ∀ entry ∈ t.sourceToTargets.entries,
    entry.2.length ≤ 32 ∧ entry.2.Nodup ∧ ∀ target ∈ entry.2, Short target
  total : ∀ source ∈ t.sourceZoneIds, t.hasTargets source = true

/-- What an accepted binding is known to be. -/
structure AddressQlStatementCheckpointBinding.Sound (b : Binding) : Prop where
  version : b.version = ADDRESSQL_CHECKPOINT_BINDING_VERSION
  refCount : b.refs.length ≤ 16
  refs : ∀ ref ∈ b.refs,
    Short ref.checkpointDigest ∧ Short ref.rootHash ∧ CanonicalInteger ref.boundaryEpoch
  transition : ∀ t ∈ b.transition, t.Sound

theorem mapErrors_nil {entry : JsString × List JsString} (h : mapErrors P entry = []) :
    entry.2.length ≤ 32 ∧ entry.2.Nodup ∧ ∀ target ∈ entry.2, Short target := by
  simp only [mapErrors, List.append_eq_nil_iff, when_eq_nil, decide_eq_false_iff_not, not_lt,
    ne_eq, not_not] at h
  obtain ⟨⟨⟨-, hcount⟩, hnodup⟩, htargets⟩ := h
  refine ⟨hcount, nodup_of_setSize hnodup, fun target htarget => ?_⟩
  obtain ⟨i, hi⟩ := errors_nil htargets target htarget
  exact short_of_canonical hi

theorem transitionErrors_nil {t : Transition} (h : transitionErrors P t = []) : t.Sound := by
  simp only [transitionErrors, List.append_eq_nil_iff, when_eq_nil, decide_eq_false_iff_not,
    ne_eq, not_not, Bool.or_eq_false_iff, not_lt, canonicalInteger_iff] at h
  obtain ⟨⟨⟨⟨⟨⟨⟨⟨⟨⟨⟨⟨⟨hfrom, hto⟩, hbefore⟩, hafter⟩, hcount⟩, hsources⟩, htargets⟩, hsource⟩,
    htarget⟩, hmap⟩, htotal⟩, -⟩, -⟩, -⟩ := h
  exact {
    fromBoundaryEpoch := hfrom
    toBoundaryEpoch := hto
    translatedReferentBefore := short_of_canonical hbefore
    translatedReferentAfter := short_of_canonical hafter
    sourceCount := hcount.1
    targetCount := hcount.2
    sourceNodup := nodup_of_setSize hsources
    targetNodup := nodup_of_setSize htargets
    sourceZoneIds := fun zone hzone => by
      obtain ⟨i, hi⟩ := errors_nil hsource zone hzone
      exact short_of_canonical hi
    targetZoneIds := fun zone hzone => by
      obtain ⟨i, hi⟩ := errors_nil htarget zone hzone
      exact short_of_canonical hi
    sourceToTargets := fun entry hentry =>
      mapErrors_nil (List.flatMap_eq_nil_iff.1 hmap entry hentry)
    total := fun source hsource => by simpa using List.any_eq_false.1 htotal source hsource }

theorem refErrors_nil {ref : CheckpointBindingRef} {i : ℕ} (h : refErrors P ref i = []) :
    Short ref.checkpointDigest ∧ Short ref.rootHash ∧ CanonicalInteger ref.boundaryEpoch := by
  simp only [refErrors, List.append_eq_nil_iff, canonicalInteger_iff] at h
  exact ⟨short_of_canonical h.1.1.2, short_of_canonical h.1.2, h.2⟩

theorem accepted_sound {b : Binding} (h : Accepted P b) : b.Sound := by
  obtain ⟨checkpoints, decision, hverify, hstatus⟩ := h
  obtain ⟨required, -, rfl⟩ := Option.map_eq_some_iff.1 hverify
  have hnil : bindingErrors P b required.flatten = [] := by
    by_contra hne
    rw [← List.length_eq_zero_iff] at hne
    simp only [hne, if_false] at hstatus
    split_ifs at hstatus
  simp only [bindingErrors, List.append_eq_nil_iff, when_eq_nil, decide_eq_false_iff_not,
    ne_eq, not_not, not_lt] at hnil
  obtain ⟨⟨⟨⟨⟨⟨⟨hversion, -⟩, -⟩, hcount⟩, hrefs⟩, -⟩, -⟩, htransition⟩ := hnil
  refine ⟨hversion, hcount, fun ref href => ?_, fun t ht => ?_⟩
  · obtain ⟨i, hi⟩ := errors_nil hrefs ref href
    exact refErrors_nil hi
  · rw [Option.mem_def.1 ht] at htransition
    exact transitionErrors_nil htransition

/-! ## Lists of zones -/

open JsonText in
theorem sortedJson_sendable {ids : List JsString} (hids : ∀ id ∈ ids, Short id)
    (hcount : ids.length ≤ 512) : Sendable (sortedJson ids) := by
  have hshort : ∀ id ∈ ids.insertionSort (· ≤ ·), id.length ≤ 4096 := fun id hid =>
    (hids id ((List.mem_insertionSort _).1 hid)).length_le
  have hlength := length_strings_le JsonNumber.json hshort
  rw [List.length_insertionSort] at hlength
  exact sendable_of_length (isWellFormed_strings _) (hlength.trans (by omega))

/-- Lists without duplicates are written alike where they have the same elements. -/
theorem sortedJson_eq_iff {ids ids' : List JsString} (h : ids.Nodup) (h' : ids'.Nodup) :
    sortedJson ids = sortedJson ids' ↔ ∀ id, id ∈ ids ↔ id ∈ ids' := by
  have hsorted : sortedJson ids = sortedJson ids'
      ↔ ids.insertionSort (· ≤ ·) = ids'.insertionSort (· ≤ ·) :=
    ⟨fun h => JsonText.write_strings_inj plain_json h, fun h => by rw [sortedJson, h, sortedJson]⟩
  rw [hsorted, ← List.perm_ext_iff_of_nodup h h']
  constructor
  · intro heq
    exact (List.perm_insertionSort _ ids).symm.trans (heq ▸ List.perm_insertionSort _ ids')
  · intro hperm
    exact ((List.perm_insertionSort _ ids).trans (hperm.trans
      (List.perm_insertionSort _ ids').symm)).eq_of_sortedLE List.sortedLE_insertionSort
      List.sortedLE_insertionSort

/-! ## The fields of a binding -/

/-- The targets of a source in the map's own entry. -/
def Transition.own (t : Transition) (source : JsString) : List JsString :=
  (t.sourceToTargets.get? source).getD []

theorem Transition.related_iff {t : Transition} {source target : JsString} :
    t.Related source target ↔ target ∈ t.own source := by
  unfold Transition.Related Transition.own
  rcases t.sourceToTargets.get? source with _ | targets <;> simp

def zoneRow (t : Transition) (zone : JsString × ℕ) : List Field :=
  [(zoneTag zone.2 "source", zone.1), (zoneTag zone.2 "targets", sortedJson (t.own zone.1))]

def transitionRows (P : Platform) : Option Transition → List Field
  | none => [(js "transition", js "none")]
  | some t =>
    transitionHead P t ++ (t.sourceZoneIds.insertionSort (· ≤ ·)).zipIdx.flatMap (zoneRow t)

def bindingRows (P : Platform) (b : Binding) : List Field :=
  bindingHead b ++ (sortedRefs P b).zipIdx.flatMap (fun r => refFields P r.1 r.2)
    ++ transitionRows P b.transition

def OwnZones (t : Transition) : Prop :=
  ∀ source ∈ t.sourceZoneIds, t.sourceToTargets.get? source ≠ none

theorem zoneFields_own {t : Transition} {zone : JsString × ℕ}
    (h : t.sourceToTargets.get? zone.1 ≠ none) : zoneFields t zone = some (zoneRow t zone) := by
  obtain ⟨targets, htargets⟩ := Option.ne_none_iff_exists'.1 h
  simp only [zoneFields, Transition.targetsOf, zoneRow, Transition.own, htargets, Option.map_some,
    Option.getD_some]

/-- A source that has targets, but no entry of its own, inherits a function. -/
theorem zoneFields_inherited {t : Transition} {zone : JsString × ℕ}
    (h : t.sourceToTargets.get? zone.1 = none) (htotal : t.hasTargets zone.1 = true) :
    zoneFields t zone = none := by
  rw [Transition.hasTargets, h, Option.any_eq_true] at htotal
  obtain ⟨n, hn, -⟩ := htotal
  rw [zoneFields, Transition.targetsOf, h, hn]
  rfl

theorem mapM_zoneFields {t : Transition} : ∀ {zones : List (JsString × ℕ)},
    (∀ zone ∈ zones, t.sourceToTargets.get? zone.1 ≠ none) →
      zones.mapM (zoneFields t) = some (zones.map (zoneRow t))
  | [], _ => rfl
  | zone :: zones, h => by
    rw [List.forall_mem_cons] at h
    rw [List.mapM_cons, zoneFields_own h.1, mapM_zoneFields h.2]
    rfl

theorem transitionFields_own {t : Transition} (h : OwnZones t) :
    transitionFields P (some t) = some (transitionRows P (some t)) := by
  have hzones : ∀ zone ∈ (t.sourceZoneIds.insertionSort (· ≤ ·)).zipIdx,
      t.sourceToTargets.get? zone.1 ≠ none := fun zone hzone =>
    h zone.1 ((List.mem_insertionSort _).1 (List.fst_mem_of_mem_zipIdx hzone))
  rw [transitionFields, mapM_zoneFields hzones, Option.map_some, transitionRows, List.flatMap]

theorem mapM_eq_none {α β : Type} {f : α → Option β} {a : α} : ∀ {l : List α}, a ∈ l →
    f a = none → l.mapM f = none
  | b :: l, ha, hfa => by
    rw [List.mapM_cons]
    rcases List.mem_cons.1 ha with rfl | ha
    · rw [hfa]
      rfl
    · rw [mapM_eq_none ha hfa]
      cases f b <;> rfl

theorem transitionFields_inherited {t : Transition} (hsound : t.Sound) (h : ¬ OwnZones t) :
    transitionFields P (some t) = none := by
  simp only [OwnZones, not_forall, not_not] at h
  obtain ⟨source, hsource, hnone⟩ := h
  have hmem := (List.mem_insertionSort (· ≤ ·)).2 hsource
  obtain ⟨i, hi, hget⟩ := List.getElem_of_mem hmem
  have hzone : (source, i) ∈ (t.sourceZoneIds.insertionSort (· ≤ ·)).zipIdx := by
    rw [List.mk_mem_zipIdx_iff_getElem?, List.getElem?_eq_getElem hi, hget]
  have hthrows : zoneFields t (source, i) = none :=
    zoneFields_inherited hnone (hsound.total source hsource)
  rw [transitionFields, mapM_eq_none hzone hthrows]
  rfl

theorem bindingFields_own {b : Binding} (h : OwnEntries b) :
    bindingFields P b = some (bindingRows P b) := by
  have htransition : transitionFields P b.transition = some (transitionRows P b.transition) := by
    rcases ht : b.transition with _ | t
    · rfl
    · exact transitionFields_own (h t ht)
  rw [bindingFields, htransition, Option.map_some, bindingRows]

theorem bindingFields_inherited {b : Binding} (hsound : b.Sound) (h : ¬ OwnEntries b) :
    bindingFields P b = none := by
  simp only [OwnEntries, not_forall] at h
  obtain ⟨t, ht, source, hsource, hnone⟩ := h
  rw [bindingFields, Option.mem_def.1 ht,
    transitionFields_inherited (hsound.transition t ht) fun h => hnone (h source hsource),
    Option.map_none]

/-! ## Fields that can be sent -/

/-- A part of a tag. -/
def Part (s : JsString) : Prop := isWellFormed s = true ∧ s.length ≤ 64

theorem sendable_tag {start name : JsString} (hstart : Part start) (hname : Part name) {index : ℕ}
    (hindex : index < 512) : Sendable (start ++ js (toString index) ++ js "." ++ name) := by
  have hdigits : isWellFormed (js (toString index)) = true :=
    isWellFormed_low fun c hc => low_of_digit (z := index) hc
  have hdot : isWellFormed (js ".") = true := by decide
  have hlength := length_toString (k := 3) (by decide) (hindex.trans (by decide))
  refine sendable_of_length (isWellFormed_append (isWellFormed_append
    (isWellFormed_append hstart.1 hdigits) hdot) hname.1) ?_
  have hlengthDot : (js ".").length = 1 := rfl
  have := hstart.2
  have := hname.2
  simp only [List.length_append]
  omega

theorem kind_sendable (kind : AddressAuthorityKind) : Sendable kind.text := by
  have hall : isWellFormed kind.text = true ∧ kind.text.length ≤ 64 := by cases kind <;> decide
  exact sendable_of_length hall.1 (hall.2.trans (by decide))

theorem kind_inj {kind kind' : AddressAuthorityKind} (h : kind.text = kind'.text) :
    kind = kind' := by
  have hall : ∀ kind kind' : AddressAuthorityKind, kind.text = kind'.text → kind = kind' := by
    intro kind kind'
    cases kind <;> cases kind' <;> decide
  exact hall kind kind' h

theorem refFields_sendable {ref : CheckpointBindingRef} {index : ℕ} (hindex : index < 512)
    (hsound : Short ref.checkpointDigest ∧ Short ref.rootHash
      ∧ CanonicalInteger ref.boundaryEpoch)
    (hwell : isWellFormed ref.checkpointDigest ∧ isWellFormed ref.rootHash) :
    ∀ field ∈ refFields P ref index, FieldSendable field := by
  have hstart : Part (js "ref.") := by constructor <;> decide
  have hkind : Part (js "authorityKind") := by constructor <;> decide
  have hdigest : Part (js "checkpointDigest") := by constructor <;> decide
  have hroot : Part (js "rootHash") := by constructor <;> decide
  have hepoch : Part (js "boundaryEpoch") := by constructor <;> decide
  simp only [refFields, List.forall_mem_cons, List.not_mem_nil, false_imp_iff, implies_true,
    and_true]
  exact ⟨⟨sendable_tag hstart hkind hindex, kind_sendable _⟩,
    ⟨sendable_tag hstart hdigest hindex, hsound.1.sendable hwell.1⟩,
    ⟨sendable_tag hstart hroot hindex, hsound.2.1.sendable hwell.2⟩,
    ⟨sendable_tag hstart hepoch hindex, hsound.2.2.sendable⟩⟩

theorem own_sound {t : Transition} (hsound : t.Sound) (source : JsString) :
    (t.own source).length ≤ 32 ∧ (t.own source).Nodup ∧ ∀ target ∈ t.own source, Short target := by
  unfold Transition.own
  rcases hget : t.sourceToTargets.get? source with _ | targets
  · simp
  · exact hsound.sourceToTargets _ (Record.mem_entries.2 hget)

theorem zoneRow_sendable {t : Transition} (hsound : t.Sound) {zone : JsString × ℕ}
    (hindex : zone.2 < 512) (hshort : Short zone.1) (hwell : isWellFormed zone.1 = true) :
    ∀ field ∈ zoneRow t zone, FieldSendable field := by
  have hstart : Part (js "transition.sourceToTargets.") := by constructor <;> decide
  have hsource : Part (js "source") := by constructor <;> decide
  have htargets : Part (js "targets") := by constructor <;> decide
  obtain ⟨hcount, -, hown⟩ := own_sound hsound zone.1
  simp only [zoneRow, List.forall_mem_cons, List.not_mem_nil, false_imp_iff, implies_true,
    and_true]
  exact ⟨⟨sendable_tag hstart hsource hindex, hshort.sendable hwell⟩,
    ⟨sendable_tag hstart htargets hindex, sortedJson_sendable hown (hcount.trans (by decide))⟩⟩

theorem Part.sendable {s : JsString} (h : Part s) : Sendable s :=
  sendable_of_length h.1 (h.2.trans (by decide))

theorem transitionHead_sendable {t : Transition} (hsound : t.Sound) (hwell : t.WellFormed) :
    ∀ field ∈ transitionHead P t, FieldSendable field := by
  have hfrom : Part (js "transition.fromBoundaryEpoch") := by constructor <;> decide
  have hto : Part (js "transition.toBoundaryEpoch") := by constructor <;> decide
  have hsource : Part (js "transition.sourceZoneIds") := by constructor <;> decide
  have htarget : Part (js "transition.targetZoneIds") := by constructor <;> decide
  have hbefore : Part (js "transition.translatedReferentBefore") := by constructor <;> decide
  have hafter : Part (js "transition.translatedReferentAfter") := by constructor <;> decide
  simp only [transitionHead, List.forall_mem_cons, List.not_mem_nil, false_imp_iff,
    implies_true, and_true]
  exact ⟨⟨hfrom.sendable, hsound.fromBoundaryEpoch.sendable⟩,
    ⟨hto.sendable, hsound.toBoundaryEpoch.sendable⟩,
    ⟨hsource.sendable, sortedJson_sendable hsound.sourceZoneIds hsound.sourceCount⟩,
    ⟨htarget.sendable, sortedJson_sendable hsound.targetZoneIds hsound.targetCount⟩,
    ⟨hbefore.sendable, hsound.translatedReferentBefore.sendable hwell.translatedReferentBefore⟩,
    ⟨hafter.sendable, hsound.translatedReferentAfter.sendable hwell.translatedReferentAfter⟩⟩

theorem transitionRows_sendable : ∀ {transition : Option Transition},
    (∀ t ∈ transition, t.Sound ∧ t.WellFormed) →
      ∀ field ∈ transitionRows P transition, FieldSendable field
  | none, _, field, hfield => by
    have htransition : Part (js "transition") := by constructor <;> decide
    have hnone : Part (js "none") := by constructor <;> decide
    rw [List.mem_singleton.1 hfield]
    exact ⟨htransition.sendable, hnone.sendable⟩
  | some t, h, field, hfield => by
    obtain ⟨hsound, hwell⟩ := h t rfl
    rcases List.mem_append.1 hfield with hfield | hfield
    · exact transitionHead_sendable hsound hwell field hfield
    · obtain ⟨zone, hzone, hfield⟩ := List.mem_flatMap.1 hfield
      have hmem := (List.mem_insertionSort _).1 (List.fst_mem_of_mem_zipIdx hzone)
      have hindex := List.snd_lt_of_mem_zipIdx hzone
      rw [List.length_insertionSort] at hindex
      have := hsound.sourceCount
      exact zoneRow_sendable hsound (by omega) (hsound.sourceZoneIds _ hmem)
        (hwell.sourceZoneIds _ hmem) field hfield

theorem bindingHead_sendable {b : Binding} (hsound : b.Sound) :
    ∀ field ∈ bindingHead b, FieldSendable field := by
  have hversion : Part (js "version") := by constructor <;> decide
  have hclaim : Part (js "claimKind") := by constructor <;> decide
  have hpurpose : Part (js "purpose") := by constructor <;> decide
  have hversionText : Part b.version := by
    rw [hsound.version]
    constructor <;> decide
  have hclaimText : Part b.claimKind.text := by
    cases b.claimKind <;> constructor <;> decide
  have hpurposeText : Part b.purpose.text := by
    cases b.purpose <;> constructor <;> decide
  simp only [bindingHead, List.forall_mem_cons, List.not_mem_nil, false_imp_iff,
    implies_true, and_true]
  exact ⟨⟨hversion.sendable, hversionText.sendable⟩, ⟨hclaim.sendable, hclaimText.sendable⟩,
    ⟨hpurpose.sendable, hpurposeText.sendable⟩⟩

theorem bindingRows_sendable {b : Binding} (hsound : b.Sound) (hwell : b.WellFormed) :
    ∀ field ∈ bindingRows P b, FieldSendable field := by
  intro field hfield
  rcases List.mem_append.1 hfield with hfield | hfield
  · rcases List.mem_append.1 hfield with hfield | hfield
    · exact bindingHead_sendable hsound field hfield
    · obtain ⟨ref, href, hfield⟩ := List.mem_flatMap.1 hfield
      have hmem := (List.mem_insertionSort _).1 (List.fst_mem_of_mem_zipIdx href)
      have hindex := List.snd_lt_of_mem_zipIdx href
      rw [sortedRefs, List.length_insertionSort] at hindex
      have := hsound.refCount
      exact refFields_sendable (by omega) (hsound.refs _ hmem) (hwell.refs _ hmem) field hfield
  · exact transitionRows_sendable (fun t ht => ⟨hsound.transition t ht, hwell.transition t ht⟩)
      field hfield

/-! ## What the fields say -/

/-- A list of fields that no field of a ref is the first of. -/
def AfterRefs (fields : List Field) : Prop :=
  ∃ field rest, fields = field :: rest ∧ field.1.head? = some 116

theorem transitionRows_afterRefs : ∀ transition : Option Transition,
    AfterRefs (transitionRows P transition)
  | none => ⟨_, _, rfl, (by decide : (js "transition").head? = some 116)⟩
  | some _ => ⟨_, _, rfl, (by decide : (js "transition.fromBoundaryEpoch").head? = some 116)⟩

theorem head_refTag (index : ℕ) (name : String) : (refTag index name).head? = some 114 := by
  have hstart : js "ref." = [114, 101, 102, 46] := by decide
  rw [refTag, hstart]
  rfl

theorem refRows_ne {r : CheckpointBindingRef × ℕ} {fields rest : List Field}
    (hrest : AfterRefs rest) : refFields P r.1 r.2 ++ fields ≠ rest := by
  obtain ⟨field, others, rfl, hhead⟩ := hrest
  intro h
  rw [refFields, List.cons_append, List.cons.injEq] at h
  have htag := congrArg (fun f : Field => f.1.head?) h.1
  simp only [head_refTag, hhead] at htag
  exact absurd htag (by decide)

theorem refFields_inj {ref ref' : CheckpointBindingRef} {index : ℕ}
    (h : CanonicalInteger ref.boundaryEpoch) (h' : CanonicalInteger ref'.boundaryEpoch)
    (heq : refFields P ref index = refFields P ref' index) : ref = ref' := by
  simp only [refFields, List.cons.injEq, Prod.mk.injEq, true_and, and_true] at heq
  obtain ⟨hkind, hdigest, hroot, hepoch⟩ := heq
  rcases ref with ⟨kind, digest, root, epoch⟩
  rcases ref' with ⟨kind', digest', root', epoch'⟩
  exact (CheckpointBindingRef.mk.injEq ..).mpr
    ⟨kind_inj hkind, hdigest, hroot, h.inj h' hepoch⟩

theorem refRows_inj : ∀ {refs refs' : List CheckpointBindingRef} {index : ℕ}
    {rest rest' : List Field}, (∀ ref ∈ refs, CanonicalInteger ref.boundaryEpoch) →
    (∀ ref ∈ refs', CanonicalInteger ref.boundaryEpoch) → AfterRefs rest → AfterRefs rest' →
      (refs.zipIdx index).flatMap (fun r => refFields P r.1 r.2) ++ rest
        = (refs'.zipIdx index).flatMap (fun r => refFields P r.1 r.2) ++ rest' →
      refs = refs' ∧ rest = rest'
  | [], [], _, _, _, _, _, _, _, h => ⟨rfl, h⟩
  | [], ref' :: refs', _, _, _, _, _, hrest, _, h => by
    rw [List.zipIdx_cons, List.flatMap_cons, List.append_assoc] at h
    exact absurd h.symm (refRows_ne hrest)
  | ref :: refs, [], _, _, _, _, _, _, hrest', h => by
    rw [List.zipIdx_cons, List.flatMap_cons, List.append_assoc] at h
    exact absurd h (refRows_ne hrest')
  | ref :: refs, ref' :: refs', index, rest, rest', hrefs, hrefs', hrest, hrest', h => by
    rw [List.forall_mem_cons] at hrefs hrefs'
    rw [List.zipIdx_cons, List.zipIdx_cons, List.flatMap_cons, List.flatMap_cons,
      List.append_assoc, List.append_assoc] at h
    obtain ⟨hfirst, hothers⟩ := List.append_inj h rfl
    obtain ⟨htail, hrest⟩ := refRows_inj hrefs.2 hrefs'.2 hrest hrest' hothers
    exact ⟨congrArg₂ List.cons (refFields_inj hrefs.1 hrefs'.1 hfirst) htail, hrest⟩

theorem zoneRows_eq_iff {t t' : Transition} : ∀ {zones : List JsString} {index : ℕ},
    (zones.zipIdx index).flatMap (zoneRow t) = (zones.zipIdx index).flatMap (zoneRow t')
      ↔ ∀ zone ∈ zones, sortedJson (t.own zone) = sortedJson (t'.own zone)
  | [], _ => by simp
  | zone :: zones, index => by
    rw [List.zipIdx_cons, List.flatMap_cons, List.flatMap_cons, List.forall_mem_cons,
      ← @zoneRows_eq_iff t t' zones (index + 1)]
    constructor
    · intro h
      obtain ⟨hfirst, hothers⟩ := List.append_inj h rfl
      simp only [zoneRow, List.cons.injEq, Prod.mk.injEq, true_and, and_true] at hfirst
      exact ⟨hfirst, hothers⟩
    · rintro ⟨hfirst, hothers⟩
      rw [hothers, zoneRow, hfirst]
      rfl

theorem own_eq_iff {t t' : Transition} (hsound : t.Sound) (hsound' : t'.Sound)
    {source : JsString} : sortedJson (t.own source) = sortedJson (t'.own source)
      ↔ ∀ target, t.Related source target ↔ t'.Related source target := by
  rw [sortedJson_eq_iff (own_sound hsound source).2.1 (own_sound hsound' source).2.1]
  simp only [Transition.related_iff]

theorem transitionRows_some_iff {t t' : Transition} (hsound : t.Sound) (hsound' : t'.Sound) :
    transitionRows P (some t) = transitionRows P (some t')
      ↔ t.AgreeAt {zone | zone ∈ t.sourceZoneIds} t' := by
  have hsorted {ids ids' : List JsString} (h : ids.Nodup) (h' : ids'.Nodup)
      (hmem : ∀ id, id ∈ ids ↔ id ∈ ids') :
      ids.insertionSort (· ≤ ·) = ids'.insertionSort (· ≤ ·) :=
    JsonText.write_strings_inj plain_json ((sortedJson_eq_iff h h').2 hmem)
  constructor
  · intro h
    obtain ⟨hhead, hzones⟩ := List.append_inj h rfl
    simp only [transitionHead, List.cons.injEq, Prod.mk.injEq, true_and, and_true] at hhead
    obtain ⟨hfrom, hto, hsource, htarget, hbefore, hafter⟩ := hhead
    have hsources := (sortedJson_eq_iff hsound.sourceNodup hsound'.sourceNodup).1 hsource
    rw [← hsorted hsound.sourceNodup hsound'.sourceNodup hsources, zoneRows_eq_iff] at hzones
    exact {
      fromBoundaryEpoch := hsound.fromBoundaryEpoch.inj hsound'.fromBoundaryEpoch hfrom
      toBoundaryEpoch := hsound.toBoundaryEpoch.inj hsound'.toBoundaryEpoch hto
      sourceZoneIds := hsources
      targetZoneIds := (sortedJson_eq_iff hsound.targetNodup hsound'.targetNodup).1 htarget
      sourceToTargets := fun source hsource =>
        (own_eq_iff hsound hsound').1 (hzones source ((List.mem_insertionSort _).2 hsource))
      translatedReferentBefore := hbefore
      translatedReferentAfter := hafter }
  · intro h
    have hzones : (t.sourceZoneIds.insertionSort (· ≤ ·)).zipIdx.flatMap (zoneRow t)
        = (t'.sourceZoneIds.insertionSort (· ≤ ·)).zipIdx.flatMap (zoneRow t') := by
      rw [← hsorted hsound.sourceNodup hsound'.sourceNodup h.sourceZoneIds, zoneRows_eq_iff]
      exact fun zone hzone => (own_eq_iff hsound hsound').2
        (h.sourceToTargets zone ((List.mem_insertionSort _).1 hzone))
    rw [transitionRows, transitionRows, hzones, transitionHead, transitionHead,
      h.fromBoundaryEpoch, h.toBoundaryEpoch, h.translatedReferentBefore,
      h.translatedReferentAfter,
      (sortedJson_eq_iff hsound.sourceNodup hsound'.sourceNodup).2 h.sourceZoneIds,
      (sortedJson_eq_iff hsound.targetNodup hsound'.targetNodup).2 h.targetZoneIds]

theorem transitionRows_none_ne {t : Transition} :
    transitionRows P none ≠ transitionRows P (some t) := fun h => by
  have htag := (Prod.ext_iff.1 (List.cons.inj h).1).1
  have hne : js "transition" ≠ js "transition.fromBoundaryEpoch" := by decide
  exact hne htag

theorem transitionRows_eq_iff {transition transition' : Option Transition}
    (hsound : ∀ t ∈ transition, t.Sound) (hsound' : ∀ t ∈ transition', t.Sound) :
    transitionRows P transition = transitionRows P transition'
      ↔ Option.Rel (fun t => t.AgreeAt {zone | zone ∈ t.sourceZoneIds}) transition
        transition' := by
  rcases transition with _ | t <;> rcases transition' with _ | t'
  · exact ⟨fun _ => .none, fun _ => rfl⟩
  · exact ⟨fun h => absurd h transitionRows_none_ne, fun h => nomatch h⟩
  · exact ⟨fun h => absurd h.symm transitionRows_none_ne, fun h => nomatch h⟩
  · rw [transitionRows_some_iff (hsound t rfl) (hsound' t' rfl)]
    refine ⟨fun h => Option.Rel.some h, fun h => ?_⟩
    cases h with
    | some h => exact h

theorem claimKind_inj {kind kind' : ClaimKind} (h : kind.text = kind'.text) : kind = kind' := by
  have hall : ∀ kind kind' : ClaimKind, kind.text = kind'.text → kind = kind' := by
    intro kind kind'
    cases kind <;> cases kind' <;> decide
  exact hall kind kind' h

theorem purpose_inj {purpose purpose' : Purpose} (h : purpose.text = purpose'.text) :
    purpose = purpose' := by
  have hall : ∀ purpose purpose' : Purpose, purpose.text = purpose'.text → purpose = purpose' := by
    intro purpose purpose'
    cases purpose <;> cases purpose' <;> decide
  exact hall purpose purpose' h

/-! ## The order of the refs -/

theorem refLe_total (hordered : P.Ordered) (left right : CheckpointBindingRef) :
    RefLe P left right ∨ RefLe P right left := by
  have hkind := hordered.antisymm left.authorityKind.text right.authorityKind.text
  have hkind' := hordered.antisymm right.authorityKind.text left.authorityKind.text
  have hdigest := hordered.antisymm left.checkpointDigest right.checkpointDigest
  unfold RefLe refOrder
  split_ifs <;> omega

theorem refLe_trans (hordered : P.Ordered) {x y z : CheckpointBindingRef} (hxy : RefLe P x y)
    (hyz : RefLe P y z) : RefLe P x z := by
  have hxy' := hordered.antisymm x.authorityKind.text y.authorityKind.text
  have hyz' := hordered.antisymm y.authorityKind.text z.authorityKind.text
  have hzx := hordered.antisymm z.authorityKind.text x.authorityKind.text
  have hxz := hordered.antisymm x.authorityKind.text z.authorityKind.text
  have hkinds := hordered.trans x.authorityKind.text y.authorityKind.text z.authorityKind.text
  -- a kind that is not strictly before the next one would be before the first one again
  have hyzx := hordered.trans y.authorityKind.text z.authorityKind.text x.authorityKind.text
  have hzxy := hordered.trans z.authorityKind.text x.authorityKind.text y.authorityKind.text
  have hyx := hordered.antisymm y.authorityKind.text x.authorityKind.text
  have hzy := hordered.antisymm z.authorityKind.text y.authorityKind.text
  have hdigests := hordered.trans x.checkpointDigest y.checkpointDigest z.checkpointDigest
  unfold RefLe refOrder at *
  split_ifs at * <;> omega

theorem sortedRefs_eq_iff (hordered : P.Ordered) {b b' : Binding} :
    sortedRefs P b = sortedRefs P b' ↔ b.refs.Perm b'.refs ∧ SameTieOrder P b b' := by
  have : Std.Total (RefLe P) := ⟨refLe_total hordered⟩
  have : IsTrans CheckpointBindingRef (RefLe P) := ⟨fun _ _ _ => refLe_trans hordered⟩
  exact insertionSort_eq_iff

theorem bindingRows_eq_iff (hordered : P.Ordered) {b b' : Binding} (hsound : b.Sound)
    (hsound' : b'.Sound) :
    bindingRows P b = bindingRows P b' ↔ AgreeOnZones b b' ∧ SameTieOrder P b b' := by
  have hepochs {b : Binding} (hsound : b.Sound) :
      ∀ ref ∈ sortedRefs P b, CanonicalInteger ref.boundaryEpoch := fun ref href =>
    (hsound.refs ref ((List.mem_insertionSort _).1 href)).2.2
  constructor
  · intro h
    rw [bindingRows, bindingRows, List.append_assoc, List.append_assoc] at h
    obtain ⟨hhead, h⟩ := List.append_inj h rfl
    obtain ⟨hrefs, htransition⟩ := refRows_inj (hepochs hsound) (hepochs hsound')
      (transitionRows_afterRefs _) (transitionRows_afterRefs _) h
    obtain ⟨hperm, htied⟩ := (sortedRefs_eq_iff hordered).1 hrefs
    simp only [bindingHead, List.cons.injEq, Prod.mk.injEq, true_and, and_true] at hhead
    exact ⟨⟨hhead.1, claimKind_inj hhead.2.1, purpose_inj hhead.2.2, hperm,
      (transitionRows_eq_iff hsound.transition hsound'.transition).1 htransition⟩, htied⟩
  · rintro ⟨h, htied⟩
    rw [bindingRows, bindingRows, bindingHead, bindingHead, h.version, h.claimKind, h.purpose,
      (sortedRefs_eq_iff hordered).2 ⟨h.refs, htied⟩,
      (transitionRows_eq_iff hsound.transition hsound'.transition).2 h.transition]

/-! ## The commitments -/

theorem AgreeAt.mono {S S' : Transition → Set JsString} (hS : ∀ t, S' t ⊆ S t) {b b' : Binding}
    (h : AgreeAt S b b') : AgreeAt S' b b' := by
  have htransition := h.transition
  refine ⟨h.version, h.claimKind, h.purpose, h.refs, ?_⟩
  generalize b.transition = transition, b'.transition = transition' at htransition ⊢
  cases htransition with
  | none => exact .none
  | @some t _ ht =>
    exact Option.Rel.some { ht with
      sourceToTargets := fun source hsource => ht.sourceToTargets source (hS t hsource) }

theorem agree_iff {b b' : Binding} : Agree b b' ↔ AgreeOnZones b b' ∧ SameElsewhere b b' := by
  constructor
  · intro h
    refine ⟨h.mono fun _ => Set.subset_univ _, fun t ht t' ht' source _ => ?_⟩
    have htransition := h.transition
    rw [Option.mem_def.1 ht, Option.mem_def.1 ht'] at htransition
    cases htransition with
    | some htransition => exact htransition.sourceToTargets source (Set.mem_univ source)
  · rintro ⟨h, helsewhere⟩
    refine ⟨h.version, h.claimKind, h.purpose, h.refs, ?_⟩
    have htransition := h.transition
    rcases ht : b.transition with _ | t <;> rcases ht' : b'.transition with _ | t'
    · exact .none
    · rw [ht, ht'] at htransition
      cases htransition
    · rw [ht, ht'] at htransition
      cases htransition
    · rw [ht, ht'] at htransition
      cases htransition with
      | some htransition =>
        refine Option.Rel.some { htransition with sourceToTargets := fun source _ => ?_ }
        by_cases hsource : source ∈ t.sourceZoneIds
        · exact htransition.sourceToTargets source hsource
        · exact helsewhere t ht t' ht' source hsource

theorem domain_sendable : Sendable ADDRESSQL_PUBLIC_INPUT_DOMAIN := by
  have hpart : Part ADDRESSQL_PUBLIC_INPUT_DOMAIN := by constructor <;> decide
  exact hpart.sendable

theorem exists_preimage {b : Binding} (hsound : b.Sound) (hwell : b.WellFormed)
    (hown : OwnEntries b) :
    ∃ bytes, separated ADDRESSQL_PUBLIC_INPUT_DOMAIN (bindingRows P b) = some bytes
      ∧ preimage P b = some bytes
      ∧ checkpointBindingPublicInputCommitment P b = some (js "sha256:" ++ P.sha256Hex bytes) := by
  have hbytes := separated_eq domain_sendable (bindingRows_sendable (P := P) hsound hwell)
  refine ⟨_, hbytes, ?_, ?_⟩
  · rw [preimage, bindingFields_own hown, Option.bind_some, hbytes]
  · rw [checkpointBindingPublicInputCommitment, bindingFields_own hown, Option.bind_some,
      domainSeparatedDigest, hbytes, Option.map_some]

theorem commitment_inherited {b : Binding} (hsound : b.Sound) (h : ¬ OwnEntries b) :
    checkpointBindingPublicInputCommitment P b = none := by
  rw [checkpointBindingPublicInputCommitment, bindingFields_inherited hsound h, Option.bind_none]

/-- Of two accepted bindings with commitments, these are equal where the bindings agree on the
source zones and in the order of the refs that tie. -/
theorem commitment_eq_iff (hordered : P.Ordered) {b b' : Binding} (hsound : b.Sound)
    (hsound' : b'.Sound) (hwell : b.WellFormed) (hwell' : b'.WellFormed) (hown : OwnEntries b)
    (hown' : OwnEntries b') (hhash : NoCollision P b b') :
    checkpointBindingPublicInputCommitment P b = checkpointBindingPublicInputCommitment P b'
      ↔ AgreeOnZones b b' ∧ SameTieOrder P b b' := by
  obtain ⟨bytes, hbytes, hpre, hcommitment⟩ := exists_preimage (P := P) hsound hwell hown
  obtain ⟨bytes', hbytes', hpre', hcommitment'⟩ := exists_preimage (P := P) hsound' hwell' hown'
  rw [← bindingRows_eq_iff hordered hsound hsound', hcommitment, hcommitment', Option.some.injEq,
    List.append_cancel_left_eq]
  constructor
  · intro h
    have hsame := hhash bytes hpre bytes' hpre' h
    exact separated_inj domain_sendable (bindingRows_sendable hsound hwell)
      (bindingRows_sendable hsound' hwell') (by rw [hbytes, hbytes', hsame])
  · intro h
    rw [h, hbytes', Option.some.injEq] at hbytes
    rw [hbytes]

/-- The commitment of accepted bindings binds them where every source zone has an entry of its own
in the map, and where bindings that agree on their source zones have the refs that tie in the same
order just if they agree elsewhere. -/
theorem commitmentBinds_iff (hordered : P.Ordered) {b b' : Binding} (haccepted : Accepted P b)
    (haccepted' : Accepted P b') (hwell : b.WellFormed) (hwell' : b'.WellFormed)
    (hhash : NoCollision P b b') :
    CommitmentBinds P b b' ↔ OwnEntries b ∧ OwnEntries b'
      ∧ (AgreeOnZones b b' → (SameTieOrder P b b' ↔ SameElsewhere b b')) := by
  have hsound := accepted_sound haccepted
  have hsound' := accepted_sound haccepted'
  constructor
  · rintro ⟨c, c', hc, hc', hbinds⟩
    have hown : OwnEntries b := by
      by_contra h
      rw [commitment_inherited hsound h] at hc
      cases hc
    have hown' : OwnEntries b' := by
      by_contra h
      rw [commitment_inherited hsound' h] at hc'
      cases hc'
    have hequal := commitment_eq_iff hordered hsound hsound' hwell hwell' hown hown' hhash
    rw [hc, hc', Option.some.injEq, hbinds, agree_iff] at hequal
    refine ⟨hown, hown', fun hzones => ⟨fun htied => ?_, fun helsewhere => ?_⟩⟩
    · exact (hequal.2 ⟨hzones, htied⟩).2
    · exact (hequal.1 ⟨hzones, helsewhere⟩).2
  · rintro ⟨hown, hown', hiff⟩
    obtain ⟨_, -, -, hcommitment⟩ := exists_preimage (P := P) hsound hwell hown
    obtain ⟨_, -, -, hcommitment'⟩ := exists_preimage (P := P) hsound' hwell' hown'
    refine ⟨_, _, hcommitment, hcommitment', ?_⟩
    have hequal := commitment_eq_iff hordered hsound hsound' hwell hwell' hown hown' hhash
    rw [hcommitment, hcommitment', Option.some.injEq] at hequal
    rw [hequal, agree_iff]
    exact and_congr_right hiff

/-! ## A sample -/

def samplePlatform : Platform where
  normalizeNfc s := s
  localeCompare s t := if s < t then -1 else if t < s then 1 else 0
  sha256Hex bytes := bytes.map fun b => Fin.ofNat 65536 b.toNat
  fractionText _ := []

def sampleCheckpoint (kind : AddressAuthorityKind) : AddressStateCheckpoint where
  logId := js "log"
  authorityKind := kind
  epoch := .finite 8
  treeSize := .finite 128
  rootHash := js "root"
  policyVersion := js "policy"
  boundaryEpoch := .finite 4

def sampleRef (kind : AddressAuthorityKind) : CheckpointBindingRef where
  authorityKind := kind
  checkpointDigest := (checkpointDigest samplePlatform (sampleCheckpoint kind)).getD []
  rootHash := js "root"
  boundaryEpoch := .finite 4

/-- A binding with a transition from one zone to another. -/
def sampleBinding (kinds : List AddressAuthorityKind)
    (sourceToTargets : Record JsString (List JsString)) : Binding where
  version := ADDRESSQL_CHECKPOINT_BINDING_VERSION
  claimKind := .regionMembership
  purpose := .delivery
  refs := kinds.map sampleRef
  transition := some {
    fromBoundaryEpoch := .finite 4
    toBoundaryEpoch := .finite 5
    sourceZoneIds := [js "old"]
    targetZoneIds := [js "new"]
    sourceToTargets := sourceToTargets
    translatedReferentBefore := js "referent"
    translatedReferentAfter := js "referent" }

def oneEntry : Record JsString (List JsString) := Record.empty.set (js "old") [js "new"]

def twoEntries : Record JsString (List JsString) := oneEntry.set (js "other") [js "new"]

theorem samplePlatform_ordered : samplePlatform.Ordered := by
  constructor
  · intro s t
    simp only [samplePlatform]
    rcases lt_trichotomy s t with h | rfl | h
    · simp [h, h.not_gt]
    · simp
    · simp [h, h.not_gt]
  · intro s t u hst htu
    have hle {s t : JsString} :
        samplePlatform.localeCompare s t ≤ 0 ↔ s ≤ t := by
      simp only [samplePlatform]
      rcases lt_trichotomy s t with h | rfl | h
      · simp [h, h.le]
      · simp
      · simp [h, h.not_gt, h.not_ge]
    rw [hle] at *
    exact hst.trans htu

theorem sample_accepts {kinds : List AddressAuthorityKind}
    {sourceToTargets : Record JsString (List JsString)}
    (h : (verifyAddressQlCheckpointBinding samplePlatform (sampleBinding kinds sourceToTargets)
      ([.issuer, .revocation, .area].map sampleCheckpoint)).map (·.status) = some .accept) :
    Accepted samplePlatform (sampleBinding kinds sourceToTargets) := by
  obtain ⟨decision, hdecision, hstatus⟩ := Option.map_eq_some_iff.1 h
  exact ⟨_, decision, hdecision, hstatus⟩

theorem samples_accepted :
    Accepted samplePlatform (sampleBinding [.issuer, .revocation, .area] oneEntry)
      ∧ Accepted samplePlatform (sampleBinding [.issuer, .revocation, .area] twoEntries)
      ∧ Accepted samplePlatform (sampleBinding [.area, .issuer, .revocation] oneEntry) :=
  ⟨sample_accepts (by decide +kernel), sample_accepts (by decide +kernel),
    sample_accepts (by decide +kernel)⟩

theorem sampleRef_wellFormed (kind : AddressAuthorityKind) :
    isWellFormed (sampleRef kind).checkpointDigest = true := by
  simp only [sampleRef, checkpointDigest, domainSeparatedDigest]
  rcases separated ADDRESSQL_CHECKPOINT_DIGEST_DOMAIN _ with _ | bytes
  · rfl
  · refine isWellFormed_append (by decide) (isWellFormed_low fun c hc => ?_)
    obtain ⟨b, -, rfl⟩ := List.mem_map.1 hc
    have := b.toNat_lt
    rw [Fin.val_ofNat]
    omega

theorem sampleBinding_wellFormed {kinds : List AddressAuthorityKind}
    {sourceToTargets : Record JsString (List JsString)}
    (h : ∀ entry ∈ sourceToTargets.entries,
      isWellFormed entry.1 ∧ ∀ target ∈ entry.2, isWellFormed target) :
    (sampleBinding kinds sourceToTargets).WellFormed := by
  have hzones : isWellFormed (js "old") = true ∧ isWellFormed (js "new") = true
      ∧ isWellFormed (js "referent") = true := by decide
  have hversion : isWellFormed ADDRESSQL_CHECKPOINT_BINDING_VERSION = true := by decide
  refine ⟨hversion, fun ref href => ?_, fun t ht => ?_⟩
  · obtain ⟨kind, -, rfl⟩ := List.mem_map.1 href
    exact ⟨sampleRef_wellFormed kind, (by decide : isWellFormed (js "root") = true)⟩
  · obtain rfl := Option.some.inj ht
    exact {
      sourceZoneIds := fun zone hzone => List.mem_singleton.1 hzone ▸ hzones.1
      targetZoneIds := fun zone hzone => List.mem_singleton.1 hzone ▸ hzones.2.1
      sourceToTargets := h
      translatedReferentBefore := hzones.2.2
      translatedReferentAfter := hzones.2.2 }

theorem oneEntry_wellFormed (kinds : List AddressAuthorityKind) :
    (sampleBinding kinds oneEntry).WellFormed :=
  sampleBinding_wellFormed (by decide)

theorem sample_noCollision (b b' : Binding) : NoCollision samplePlatform b b' := by
  intro x _ y _ h
  refine List.map_injective_iff.2 (fun b c hbc => ?_) h
  have hval := congrArg Fin.val hbc
  have hb := b.toNat_lt
  have hc := c.toNat_lt
  rw [Fin.val_ofNat, Fin.val_ofNat, Nat.mod_eq_of_lt (by omega), Nat.mod_eq_of_lt (by omega)]
    at hval
  exact UInt8.toNat_inj.1 hval

/-- Two bindings with their refs in another order. -/
theorem commitmentBinds_reordered :
    CommitmentBinds samplePlatform (sampleBinding [.issuer, .revocation, .area] oneEntry)
        (sampleBinding [.area, .issuer, .revocation] oneEntry)
      ↔ OwnEntries (sampleBinding [.issuer, .revocation, .area] oneEntry)
        ∧ OwnEntries (sampleBinding [.area, .issuer, .revocation] oneEntry)
        ∧ (AgreeOnZones (sampleBinding [.issuer, .revocation, .area] oneEntry)
            (sampleBinding [.area, .issuer, .revocation] oneEntry)
          → (SameTieOrder samplePlatform (sampleBinding [.issuer, .revocation, .area] oneEntry)
              (sampleBinding [.area, .issuer, .revocation] oneEntry)
            ↔ SameElsewhere (sampleBinding [.issuer, .revocation, .area] oneEntry)
              (sampleBinding [.area, .issuer, .revocation] oneEntry))) :=
  commitmentBinds_iff samplePlatform_ordered samples_accepted.1 samples_accepted.2.2
    (oneEntry_wellFormed _) (oneEntry_wellFormed _) (sample_noCollision _ _)

/-- An entry of the map for what is no source zone is not in the commitment. -/
theorem otherEntry_not_bound :
    samplePlatform.Ordered
      ∧ Accepted samplePlatform (sampleBinding [.issuer, .revocation, .area] oneEntry)
      ∧ Accepted samplePlatform (sampleBinding [.issuer, .revocation, .area] twoEntries)
      ∧ (sampleBinding [.issuer, .revocation, .area] oneEntry).WellFormed
      ∧ (sampleBinding [.issuer, .revocation, .area] twoEntries).WellFormed
      ∧ NoCollision samplePlatform (sampleBinding [.issuer, .revocation, .area] oneEntry)
        (sampleBinding [.issuer, .revocation, .area] twoEntries)
      ∧ ¬ CommitmentBinds samplePlatform (sampleBinding [.issuer, .revocation, .area] oneEntry)
        (sampleBinding [.issuer, .revocation, .area] twoEntries) := by
  refine ⟨samplePlatform_ordered, samples_accepted.1, samples_accepted.2.1, oneEntry_wellFormed _,
    sampleBinding_wellFormed (by decide), sample_noCollision _ _, ?_⟩
  rintro ⟨c, c', hc, hc', hbinds⟩
  have hequal : bindingFields samplePlatform
        (sampleBinding [.issuer, .revocation, .area] oneEntry)
      = bindingFields samplePlatform
        (sampleBinding [.issuer, .revocation, .area] twoEntries) := by
    have htransition : transitionFields samplePlatform
          (sampleBinding [.issuer, .revocation, .area] oneEntry).transition
        = transitionFields samplePlatform
          (sampleBinding [.issuer, .revocation, .area] twoEntries).transition := by
      decide
    rw [bindingFields, htransition]
    rfl
  rw [checkpointBindingPublicInputCommitment, hequal, ← checkpointBindingPublicInputCommitment,
    hc', Option.some.injEq] at hc
  have hagree := hbinds.1 hc.symm
  obtain ⟨-, helsewhere⟩ := agree_iff.1 hagree
  have hother := (helsewhere _ rfl _ rfl (js "other") (by decide) (js "new")).2
    ⟨[js "new"], by decide, List.mem_singleton_self _⟩
  obtain ⟨targets, htargets, -⟩ := hother
  have hnone : oneEntry.get? (js "other") = none := by decide
  rw [hnone] at htargets
  cases htargets

end Agid.CheckpointBinding
