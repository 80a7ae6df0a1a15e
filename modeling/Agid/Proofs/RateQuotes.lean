import Agid.RateQuotes
import Agid.Lib.Checks
import Agid.Proofs.SecurePos

/-!
# Whose quotes a call changes

A selection only touches the quotes of its shipment (`get?_select`).  A save writes the terms of the
quote that it names, whosever it is, and leaves it with its shipment and its status.
-/

namespace Agid.RateQuotes

open Checks
open VeygritShip (ref Link)

variable {P : Platform} {db db' : Database} {e : Event} {past : Past}

theorem update_eq_self {q row : Quote} : q.update row = q ↔ q.terms = row.terms := by
  rcases q with ⟨_, _, _, _, _, _, _, _, _, _, _, _⟩
  simp only [Quote.update, Quote.terms, Quote.mk.injEq, Prod.mk.injEq, true_and]
  constructor
  · rintro ⟨h1, h2, h3, h4, h5, h6⟩
    exact ⟨h1.symm, h2.symm, h3.symm, h4.symm, h5.symm, h6.symm⟩
  · rintro ⟨h1, h2, h3, h4, h5, h6⟩
    exact ⟨h1.symm, h2.symm, h3.symm, h4.symm, h5.symm, h6.symm⟩

/-- The row that is proposed is one of the shipment that the call names, and is not selected. -/
theorem proposed_spec {input : RateQuoteInput} {k : JsString} {row : Quote}
    (h : proposed P db input = .ok (k, row)) :
    ref P.toPlatform input.shipmentRef (js "shipmentRef") 100 = .ok row.shipmentRef
      ∧ row.status = .offered := by
  unfold proposed at h
  obtain ⟨_, -, h⟩ := bind_eq_ok.1 h
  obtain ⟨shipmentRef, hshipment, h⟩ := bind_eq_ok.1 h
  obtain ⟨_, -, h⟩ := bind_eq_ok.1 h
  obtain ⟨_, -, h⟩ := bind_eq_ok.1 h
  obtain ⟨_, -, h⟩ := bind_eq_ok.1 h
  obtain ⟨_, -, h⟩ := bind_eq_ok.1 h
  split_ifs at h
  obtain ⟨_, -, h⟩ := bind_eq_ok.1 h
  obtain ⟨_, -, h⟩ := bind_eq_ok.1 h
  cases h
  exact ⟨hshipment, rfl⟩

/-- What each quote is after a save is done. -/
theorem get?_saved {input : RateQuoteInput} {quoteRef : JsString} {row : Quote}
    (h : proposed P db input = .ok (quoteRef, row)) : ∃ db', saveRateQuote P input db = .ok db'
      ∧ ∀ k, db'.quotes.get? k = if quoteRef = k then
          some (((db.quotes.get? k).map (·.update row)).getD row)
        else db.quotes.get? k := by
  refine ⟨_, by rw [saveRateQuote, h]; rfl, fun k => ?_⟩
  rw [Record.get?_set]
  split_ifs with hk
  · subst hk
    rcases db.quotes.get? quoteRef with _ | old <;> rfl
  · rfl

/-- What each quote is after a selection. -/
theorem get?_select (quotes : Record JsString Quote) (quoteRef shipmentRef k : JsString) :
    (select quotes quoteRef shipmentRef).get? k = (quotes.get? k).map fun q =>
      if q.shipmentRef = shipmentRef then
        { q with status := if k = quoteRef then .selected
            else if q.status = .selected then .rejected else q.status }
      else q := by
  rw [select, Record.get?_updateWhere, Record.get?_updateWhere, Option.map_map]
  congr 1
  funext q
  by_cases hs : q.shipmentRef = shipmentRef
  · subst hs
    by_cases hk : k = quoteRef
    · simp [hk]
    · by_cases hq : q.status = .selected <;> simp [hk, hq]
  · simp [hs]

theorem selectRateQuote_eq_ok {now : VeygritShip.Instant} {quoteRef shipmentRef : JsString}
    (h : selectRateQuote P now quoteRef shipmentRef db = .ok db') :
    ∃ q s, ref P.toPlatform shipmentRef (js "shipmentRef") 100 = .ok s
      ∧ db'.quotes = select db.quotes q s := by
  unfold selectRateQuote at h
  obtain ⟨q, -, h⟩ := bind_eq_ok.1 h
  obtain ⟨s, hs, h⟩ := bind_eq_ok.1 h
  simp only at h
  split_ifs at h
  cases h
  exact ⟨q, s, hs, rfl⟩

/-! ## One selected quote -/

/-- Each selected quote was one of its shipment before. -/
theorem OneSelected.of_kept (h : OneSelected db)
    (hkept : ∀ k q', db'.quotes.get? k = some q' → q'.status = .selected →
      ∃ q, db.quotes.get? k = some q ∧ q.status = .selected ∧ q.shipmentRef = q'.shipmentRef) :
    OneSelected db' := by
  intro k k' q q' hk hk' hq hq' hsame
  obtain ⟨old, hold, hselected, hshipment⟩ := hkept k q hk hq
  obtain ⟨old', hold', hselected', hshipment'⟩ := hkept k' q' hk' hq'
  exact h k k' old old' hold hold' hselected hselected' (by rw [hshipment, hshipment', hsame])

theorem oneSelected_saved {input : RateQuoteInput} (h : OneSelected db)
    (hsave : saveRateQuote P input db = .ok db') : OneSelected db' := by
  obtain ⟨⟨quoteRef, row⟩, hproposed, -⟩ := bind_eq_ok.1 hsave
  obtain ⟨_, hsaved, hget⟩ := get?_saved hproposed
  cases hsave.symm.trans hsaved
  refine h.of_kept fun k q' hk hq' => ?_
  rw [hget] at hk
  split_ifs at hk with hname
  · rcases hold : db.quotes.get? k with _ | old <;> rw [hold] at hk
    · cases hk
      have hoffered : row.status = .selected := hq'
      rw [(proposed_spec hproposed).2] at hoffered
      cases hoffered
    · cases hk
      exact ⟨old, rfl, hq', rfl⟩
  · exact ⟨q', hk, hq', rfl⟩

theorem oneSelected_selected {now : VeygritShip.Instant} {quoteRef shipmentRef : JsString}
    (h : OneSelected db) (hselect : selectRateQuote P now quoteRef shipmentRef db = .ok db') :
    OneSelected db' := by
  obtain ⟨name, shipment, -, hquotes⟩ := selectRateQuote_eq_ok hselect
  -- of this shipment it is the quote named, and the others keep theirs
  have hcases : ∀ k q', db'.quotes.get? k = some q' → q'.status = .selected →
      (k = name ∧ q'.shipmentRef = shipment)
        ∨ (db.quotes.get? k = some q' ∧ q'.shipmentRef ≠ shipment) := by
    intro k q' hk hq'
    rw [hquotes, get?_select] at hk
    obtain ⟨q, hq, hk⟩ := Option.map_eq_some_iff.1 hk
    split_ifs at hk with hs hname hwas
    · exact .inl ⟨hname, by rw [← hk]; exact hs⟩
    · rw [← hk] at hq'
      cases hq'
    · rw [← hk] at hq'
      exact absurd hq' hwas
    · rw [← hk]
      exact .inr ⟨hq, hs⟩
  intro k k' q q' hk hk' hq hq' hsame
  rcases hcases k q hk hq with ⟨rfl, hs⟩ | ⟨hold, hs⟩ <;>
    rcases hcases k' q' hk' hq' with ⟨rfl, hs'⟩ | ⟨hold', hs'⟩
  · rfl
  · exact absurd (hsame.symm.trans hs) hs'
  · exact absurd (hsame.trans hs') hs
  · exact h k k' q q' hold hold' hq hq' hsame

theorem oneSelected_next (h : OneSelected db) (hnext : next P db e = some db') :
    OneSelected db' := by
  unfold next at hnext
  split_ifs at hnext
  · cases hnext
    rcases hanswer : answer P db e with message | db'
    · exact h
    · rcases e with ⟨link, input⟩ | ⟨link, now, quoteRef, shipmentRef⟩
      · exact oneSelected_saved h hanswer
      · exact oneSelected_selected h hanswer
  · cases hnext
    exact h

theorem oneSelected_run {db₀ : Database} (h₀ : OneSelected db₀)
    (h : History.Run (next P) db₀ past db) : OneSelected db := by
  induction h with
  | init => exact h₀
  | step _ taken ih => exact oneSelected_next ih taken

/-! ## The quotes of others -/

theorem keepsOthers_refl : KeepsOthers P db e db := fun _ _ h _ => h

theorem keepsOthers_saved_iff {link : Link} {input : RateQuoteInput} {quoteRef : JsString}
    {row : Quote} (hproposed : proposed P db input = .ok (quoteRef, row))
    (hsave : saveRateQuote P input db = .ok db') :
    KeepsOthers P db (.save link input) db' ↔ ∀ q, db.quotes.get? quoteRef = some q →
      q.shipmentRef = row.shipmentRef ∨ q.terms = row.terms := by
  obtain ⟨_, hsaved, hget⟩ := get?_saved hproposed
  cases hsave.symm.trans hsaved
  have hshipment : (Event.save link input).shipmentRef P = some row.shipmentRef := by
    rw [Event.shipmentRef, (proposed_spec hproposed).1]
    rfl
  constructor
  · intro h q hq
    by_cases hs : q.shipmentRef = row.shipmentRef
    · exact .inl hs
    · have hkept := h quoteRef q hq (by rw [hshipment]; simpa using hs)
      rw [hget, if_pos rfl, hq] at hkept
      exact .inr (update_eq_self.1 (Option.some.inj hkept))
  · intro h k q hq hother
    rw [hget]
    split_ifs with hk
    · subst hk
      rcases h q hq with hs | hterms
      · exact absurd (by rw [hshipment, hs]) hother
      · rw [hq]
        exact congrArg some (update_eq_self.2 hterms)
    · exact hq

theorem keepsOthers_selected {link : Link} {now : VeygritShip.Instant}
    {quoteRef shipmentRef : JsString}
    (hselect : selectRateQuote P now quoteRef shipmentRef db = .ok db') :
    KeepsOthers P db (.select link now quoteRef shipmentRef) db' := by
  obtain ⟨name, shipment, hshipment, hquotes⟩ := selectRateQuote_eq_ok hselect
  intro k q hq hother
  rw [Event.shipmentRef, hshipment] at hother
  rw [hquotes, get?_select, hq, Option.map_some, if_neg fun h => hother (by rw [h]; rfl)]

theorem keepsOthers_iff (hnext : next P db e = some db') :
    KeepsOthers P db e db' ↔ NamesOwn P past db e := by
  unfold next at hnext
  rcases e with ⟨link, input⟩ | ⟨link, now, quoteRef, shipmentRef⟩
  · unfold NamesOwn
    split_ifs at hnext with hlink
    · cases hnext
      rcases hproposed : proposed P db input with message | ⟨quoteRef, row⟩
      · have hanswer : answer P db (.save link input) = .error message := by
          rw [answer, saveRateQuote, hproposed]
          rfl
        rw [hanswer]
        exact iff_of_true keepsOthers_refl fun _ k row h => by
          rw [hproposed] at h
          cases h
      · obtain ⟨db', hsave, -⟩ := get?_saved hproposed
        rw [answer, hsave]
        refine (keepsOthers_saved_iff hproposed hsave).trans ⟨fun h _ k row heq => ?_, fun h => ?_⟩
        · cases hproposed.symm.trans heq
          exact h
        · exact h hlink quoteRef row hproposed
    · cases hnext
      exact iff_of_true keepsOthers_refl fun h => absurd h hlink
  · refine iff_of_true ?_ trivial
    split_ifs at hnext
    · cases hnext
      rw [answer]
      rcases hanswer : selectRateQuote P now quoteRef shipmentRef db with message | db'
      · exact keepsOthers_refl
      · exact keepsOthers_selected hanswer
    · cases hnext
      exact keepsOthers_refl

/-- In a run the calls leave the quotes of other shipments alone, with one selected at most, just
where no save that is done names the quote of another shipment with other terms. -/
theorem keepsQuotes_iff {db₀ : Database} (h₀ : OneSelected db₀)
    (h : History.Run (next P) db₀ past db) :
    History.Every (Lawful P) past ↔ History.Every (NamesOwn P) past := by
  refine h.every_iff fun {past db e db'} run taken => ?_
  have hone := oneSelected_next (oneSelected_run h₀ run) taken
  constructor
  · exact fun hlawful => (keepsOthers_iff taken).1 (hlawful db' taken).1
  · intro hown db'' hnext
    cases taken.symm.trans hnext
    exact ⟨(keepsOthers_iff taken).2 hown, hone⟩

/-! ## A reference that two shipments use -/

def quotePlatform : Platform where
  nfkc := ⟨id, id_ascii⟩
  normalize_trim := id_trim
  dates := .ofTable ⟨[(1893456000000, js "2030-01-01T00:00:00.000Z")], by decide⟩ (by decide)
    (by decide)
  toUpperCase := id
  numeric
    | .finite q => .ok (some ⌊q * 10000 + 1 / 2⌋)
    | _ => .error (js "numeric field overflow")
  smallint
    | .finite q => .ok ⌊q⌋
    | _ => .error (js "invalid input syntax for type smallint")

def twoShipments : Database where
  connections := .empty
  shipments := ⟨[(js "S1", ⟨none, .draft⟩), (js "S2", ⟨none, .draft⟩)], by decide⟩
  quotes := .empty

def quoteFor (shipmentRef : JsString) (amount : ℚ) : RateQuoteInput where
  quoteRef := js "Q"
  shipmentRef := shipmentRef
  carrierConnectionRef := none
  carrier := .dhl
  adapter := none
  productIdCode := js "P"
  amount := .finite amount
  currency := js "EUR"
  deliveryDays := none
  estimatedDeliveryAt := none
  expiresAt := js "2030-01-01T00:00:00.000Z"
  carrierResponseRef := none

def firstSave : Event := .save .up (quoteFor (js "S1") 10)

def secondSave : Event := .save .up (quoteFor (js "S2") 25)

def savedFirst : Database :=
  (answer quotePlatform twoShipments firstSave).toOption.getD twoShipments

def savedSecond : Database :=
  (answer quotePlatform savedFirst secondSave).toOption.getD savedFirst

theorem savedSecond_run : History.Run (next quotePlatform) twoShipments
    [(savedFirst, secondSave), (twoShipments, firstSave)] savedSecond :=
  (History.Run.init.step rfl).step rfl

theorem oneSelected_twoShipments : OneSelected twoShipments := fun _ _ _ _ h => by cases h

theorem keepsQuotes_iff_savedSecond :
    History.Every (Lawful quotePlatform) [(savedFirst, secondSave), (twoShipments, firstSave)]
      ↔ History.Every (NamesOwn quotePlatform)
        [(savedFirst, secondSave), (twoShipments, firstSave)] :=
  keepsQuotes_iff oneSelected_twoShipments savedSecond_run

/-- The quote of `S1`, at 10, is at 25 once a quote of that reference is saved for `S2`. -/
theorem savedSecond_not_lawful :
    OneSelected twoShipments
      ∧ History.Run (next quotePlatform) twoShipments
        [(savedFirst, secondSave), (twoShipments, firstSave)] savedSecond
      ∧ (savedFirst.quotes.get? (js "Q")).map (fun q => (q.shipmentRef, q.amount))
        = some (js "S1", some 100000)
      ∧ (savedSecond.quotes.get? (js "Q")).map (fun q => (q.shipmentRef, q.amount))
        = some (js "S1", some 250000)
      ∧ ¬ History.Every (Lawful quotePlatform)
        [(savedFirst, secondSave), (twoShipments, firstSave)] := by
  have hfirst : (savedFirst.quotes.get? (js "Q")).map (fun q => (q.shipmentRef, q.amount))
      = some (js "S1", some 100000) := by decide +kernel
  have hsecond : (savedSecond.quotes.get? (js "Q")).map (fun q => (q.shipmentRef, q.amount))
      = some (js "S1", some 250000) := by decide +kernel
  refine ⟨oneSelected_twoShipments, savedSecond_run, hfirst, hsecond, fun h => ?_⟩
  obtain ⟨q, hq, hrow⟩ := Option.map_eq_some_iff.1 hfirst
  have hother : some q.shipmentRef ≠ secondSave.shipmentRef quotePlatform := by
    rw [(Prod.mk.inj hrow).1]
    decide
  have hkept := (h.1 savedSecond rfl).1 (js "Q") q hq hother
  rw [hkept, Option.map_some, hrow] at hsecond
  exact absurd hsecond (by decide)

end Agid.RateQuotes
