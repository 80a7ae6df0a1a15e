import Agid.ShipRuns

/-!
# Rate quotes

`saveRateQuote` and `selectRateQuote` of `src/server/shipping/veygritShipStore.ts`, over the quotes
and what they read of shipments and connections, each named by its reference.  A statement is one
step, and so is a transaction, and any can be refused, so that the checks of the tables on single
columns need no place of their own.
-/

namespace Agid.RateQuotes

open VeygritShip (Carrier Instant Link ShipmentStatus date isSafeUnit optionalDate ref trimmed)

/-- A `numeric(19,4)`, in ten-thousandths, or `NaN`. -/
abbrev Numeric := Option ℤ

/-- The columns that a number is stored in may refuse it. -/
structure Platform extends VeygritShip.Platform where
  toUpperCase : JsString → JsString
  numeric : JsNumber → Except JsString Numeric
  smallint : JsNumber → Except JsString ℤ

inductive QuoteStatus where
  | offered
  | selected
  | expired
  | rejected
deriving DecidableEq

structure Quote where
  shipmentRef : JsString
  connectionRef : Option JsString
  carrier : Carrier
  adapter : Option JsString
  productIdCode : JsString
  amount : Numeric
  currency : JsString
  deliveryDays : Option ℤ
  estimatedDeliveryAt : Option Instant
  expiresAt : Instant
  status : QuoteStatus
  carrierResponseRef : Option JsString
deriving DecidableEq

structure Shipment where
  merchantRef : Option JsString
  status : ShipmentStatus

/-- The merchants of the connections, the shipments and their quotes. -/
structure Database where
  connections : Record JsString JsString
  shipments : Record JsString Shipment
  quotes : Record JsString Quote

/-! ## The calls -/

/-- `/^[A-Z0-9_-]$/`. -/
def isCodeUnit (c : CodeUnit) : Bool := isSafeUnit c && !(97 ≤ c.val && c.val ≤ 122)

def upperCode (P : Platform) (value name : JsString) (length : ℕ) : Except JsString JsString := do
  let normalized := P.toUpperCase (← ref P.toPlatform value name length)
  let fits := if length = 2 ∨ length = 3 then normalized.length = length
    else 1 ≤ normalized.length && normalized.length ≤ length
  if fits && normalized.all isCodeUnit then return normalized
  else .error (name ++ js " is invalid.")

structure RateQuoteInput where
  quoteRef : JsString
  shipmentRef : JsString
  carrierConnectionRef : Option JsString
  carrier : Carrier
  adapter : Option JsString
  productIdCode : JsString
  amount : JsNumber
  currency : JsString
  deliveryDays : Option JsNumber
  estimatedDeliveryAt : Option JsString
  expiresAt : JsString
  carrierResponseRef : Option JsString

def optionalSmallint (P : Platform) : Option JsNumber → Except JsString (Option ℤ)
  | some value => (P.smallint value).map some
  | none => .ok none

/-- Whether there is the shipment and, if a connection is named, one of its merchant. -/
def Database.matches (db : Database) (shipmentRef : JsString) (connectionRef : Option JsString) :
    Bool :=
  (db.shipments.get? shipmentRef).any fun shipment =>
    connectionRef.all fun connectionRef =>
      (db.connections.get? connectionRef).any fun merchantRef =>
        shipment.merchantRef = some merchantRef

/-- The reference and the columns of the row that `saveRateQuote` proposes to insert. -/
def proposed (P : Platform) (db : Database) (input : RateQuoteInput) :
    Except JsString (JsString × Quote) := do
  let quoteRef ← ref P.toPlatform input.quoteRef (js "quoteRef") 100
  let shipmentRef ← ref P.toPlatform input.shipmentRef (js "shipmentRef") 100
  let connectionRef := trimmed input.carrierConnectionRef
  let productIdCode ← upperCode P input.productIdCode (js "productIdCode") 20
  let currency ← upperCode P input.currency (js "currency") 3
  let estimatedDeliveryAt ← optionalDate P.toPlatform (input.estimatedDeliveryAt.bind nonEmpty)
    (js "estimatedDeliveryAt")
  let expiresAt ← date P.toPlatform input.expiresAt (js "expiresAt")
  if db.matches shipmentRef connectionRef then
    let amount ← P.numeric input.amount
    let deliveryDays ← optionalSmallint P input.deliveryDays
    return (quoteRef, {
      shipmentRef, connectionRef
      carrier := input.carrier
      adapter := input.adapter
      productIdCode, amount, currency, deliveryDays, estimatedDeliveryAt, expiresAt
      status := .offered
      carrierResponseRef := trimmed input.carrierResponseRef })
  else .error (js "Shipment or matching carrier connection was not found for rate quote.")

/-- `ON CONFLICT (quote_ref) DO UPDATE SET`. -/
def Quote.update (old excluded : Quote) : Quote :=
  { old with
    amount := excluded.amount
    currency := excluded.currency
    deliveryDays := excluded.deliveryDays
    estimatedDeliveryAt := excluded.estimatedDeliveryAt
    expiresAt := excluded.expiresAt
    carrierResponseRef := excluded.carrierResponseRef }

def saveRateQuote (P : Platform) (input : RateQuoteInput) (db : Database) :
    Except JsString Database := do
  let (quoteRef, excluded) ← proposed P db input
  let row := match db.quotes.get? quoteRef with
    | some old => old.update excluded
    | none => excluded
  return { db with quotes := db.quotes.set quoteRef row }

/-- The `UPDATE` of the quotes of a shipment. -/
def select (quotes : Record JsString Quote) (quoteRef shipmentRef : JsString) :
    Record JsString Quote :=
  (quotes.updateWhere (fun k q => q.shipmentRef = shipmentRef && k ≠ quoteRef
      && q.status = .selected) ({ · with status := .rejected })).updateWhere
    (fun k q => q.shipmentRef = shipmentRef && k = quoteRef) ({ · with status := .selected })

def selectRateQuote (P : Platform) (now : Instant) (quoteRef shipmentRef : JsString)
    (db : Database) : Except JsString Database := do
  let normalizedQuoteRef ← ref P.toPlatform quoteRef (js "quoteRef") 100
  let normalizedShipmentRef ← ref P.toPlatform shipmentRef (js "shipmentRef") 100
  let available := (db.shipments.get? normalizedShipmentRef).isSome
    && (db.quotes.get? normalizedQuoteRef).any fun q =>
      q.shipmentRef = normalizedShipmentRef && q.status = .offered && now < q.expiresAt
  if available then
    return { db with
      quotes := select db.quotes normalizedQuoteRef normalizedShipmentRef
      shipments := db.shipments.updateWhere (fun k _ => k = normalizedShipmentRef)
        ({ · with status := .rated }) }
  else .error (js "Available rate quote was not found.")

/-! ## Runs -/

inductive Event where
  | save (link : Link) (input : RateQuoteInput)
  | select (link : Link) (now : Instant) (quoteRef shipmentRef : JsString)

def Event.link : Event → Link
  | .save link _ => link
  | .select link _ _ _ => link

def answer (P : Platform) (db : Database) : Event → Except JsString Database
  | .save _ input => saveRateQuote P input db
  | .select _ now quoteRef shipmentRef => selectRateQuote P now quoteRef shipmentRef db

/-- What is left in the tables.  A call that throws, or is refused, leaves them as they were. -/
def next (P : Platform) (db : Database) (e : Event) : Option Database :=
  if e.link.executes then some ((answer P db e).toOption.getD db) else some db

abbrev Past := History.Past Database Event

/-! ## What is asked of a run -/

/-- The shipment that a call names. -/
def Event.shipmentRef (P : Platform) : Event → Option JsString
  | .save _ input => (ref P.toPlatform input.shipmentRef (js "shipmentRef") 100).toOption
  | .select _ _ _ shipmentRef => (ref P.toPlatform shipmentRef (js "shipmentRef") 100).toOption

/-- The quotes of other shipments are left as they were, and with their shipments. -/
def KeepsOthers (P : Platform) (db : Database) (e : Event) (db' : Database) : Prop :=
  ∀ k q, db.quotes.get? k = some q → some q.shipmentRef ≠ e.shipmentRef P →
    db'.quotes.get? k = some q

/-- No shipment has two quotes that are selected. -/
def OneSelected (db : Database) : Prop :=
  ∀ k k' q q', db.quotes.get? k = some q → db.quotes.get? k' = some q' →
    q.status = .selected → q'.status = .selected → q.shipmentRef = q'.shipmentRef → k = k'

def Lawful (P : Platform) (_ : Past) (db : Database) (e : Event) : Prop :=
  ∀ db', next P db e = some db' → KeepsOthers P db e db' ∧ OneSelected db'

/-- What the save of a quote writes again. -/
def Quote.terms (q : Quote) :
    Numeric × JsString × Option ℤ × Option Instant × Instant × Option JsString :=
  (q.amount, q.currency, q.deliveryDays, q.estimatedDeliveryAt, q.expiresAt, q.carrierResponseRef)

/-- A save that is done does not name the quote of another shipment, unless it has its terms. -/
def NamesOwn (P : Platform) (_ : Past) (db : Database) : Event → Prop
  | .save link input =>
    link.executes → ∀ k row, proposed P db input = .ok (k, row) →
      ∀ q, db.quotes.get? k = some q → q.shipmentRef = row.shipmentRef ∨ q.terms = row.terms
  | .select .. => True

end Agid.RateQuotes
