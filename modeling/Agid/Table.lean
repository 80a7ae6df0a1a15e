import Agid.RedactedWorkflow
import Agid.Lib.Record

/-!
# Table orders

`buildTableMenu` and `createTableOrder` of `src/lib/table.ts`: a menu whose items have their
inventory with them, and the lines of an order with what they reserve.  What the two say of prices,
texts, categories, locations, sessions, the kitchen and the till is left out.
-/

namespace Agid.Table

open RedactedWorkflow

/-- `containsPrivateMaterial` is whether `PRIVATE_VALUE_RE` finds something in a text. -/
structure Platform extends RedactedWorkflow.Platform where
  containsPrivateMaterial : JsString → Bool

def TABLE_VERSION : JsString := js "table-v1"

inductive TableInventoryStatus
  | inStock
  | lowStock
  | soldOut
deriving DecidableEq

structure TableInventorySnapshot where
  itemId : JsString
  stockQuantity : ℚ
  reservedQuantity : ℚ
  availableQuantity : ℚ
  lowStockThreshold : ℚ
  status : TableInventoryStatus

inductive TableMenuAvailability
  | available
  | limited
  | soldOut
  | hidden
deriving DecidableEq

def TableMenuAvailability.text : TableMenuAvailability → String
  | available => "available"
  | limited => "limited"
  | soldOut => "sold-out"
  | hidden => "hidden"

structure TableModifier where
  modifierId : JsString
  active : Bool

structure TableMenuItem where
  itemId : JsString
  active : Bool
  modifiers : List TableModifier
  inventory : Option TableInventorySnapshot
  availability : TableMenuAvailability
  availableQuantity : ℚ
  canOrder : Bool
  warnings : List JsString

structure TableMenu where
  items : List TableMenuItem

inductive TableLineStatus
  | accepted
  | needsReview
  | unavailable
deriving DecidableEq

structure TableOrderLine where
  itemId : JsString
  quantity : ℕ
  modifierIds : List JsString
  status : TableLineStatus
  specialInstructions : Option JsString
  warnings : List JsString

structure TableInventoryReservation where
  itemId : JsString
  quantity : ℕ

structure TableOrder where
  lines : List TableOrderLine
  inventoryReservations : List TableInventoryReservation
  warnings : List JsString

structure TableOrderInput where
  menu : Option TableMenu
  menuItems : Option JsonValue
  inventory : Option JsonValue
  cartLines : Option JsonValue

section Table

variable (P : Platform)

/-! ## The menu -/

def publicRef (kind : String) (value : Option JsonValue) (fallbackSeed : JsonValue) : JsString :=
  let text := cleanTextTo 96 value
  if text ≠ [] ∧ P.containsPrivateMaterial (stableJson (.string text)) = false then text
  else stableId P.toPlatform kind (.object [
    (js "value", if text ≠ [] then .string text else fallbackSeed),
    (js "version", .string TABLE_VERSION)]) 12

/-- `{ record, index }`, under the name that the record has. -/
def seedAt (name : String) (record : List (JsString × JsonValue)) (index : ℕ) : JsonValue :=
  .object [(js "index", .number (.int index)), (js name, .object record)]

def normalizeInventory (input : JsonValue) : TableInventorySnapshot :=
  let record := asRecord (some input)
  let stockQuantity := cleanNonNegativeInteger P.toPlatform (field record "stockQuantity") 0
  let reservedQuantity :=
    min stockQuantity (cleanNonNegativeInteger P.toPlatform (field record "reservedQuantity") 0)
  let availableQuantity := stockQuantity - reservedQuantity
  let lowStockThreshold :=
    cleanNonNegativeInteger P.toPlatform (field record "lowStockThreshold") 3
  { itemId := publicRef P "item" (field record "itemId") (.object record)
    stockQuantity
    reservedQuantity
    availableQuantity
    lowStockThreshold
    status :=
      if stockQuantity = 0 then .soldOut
      else if availableQuantity ≤ lowStockThreshold then .lowStock
      else .inStock }

def normalizeModifier (input : JsonValue) (index : ℕ) : TableModifier :=
  let record := asRecord (some input)
  { modifierId := publicRef P "mod" (field record "modifierId") (seedAt "record" record index)
    active := cleanBoolean P.toPlatform (field record "active") true }

def normalizeMenuItem (inventoryByItemId : Record JsString TableInventorySnapshot)
    (input : JsonValue) (index : ℕ) : TableMenuItem :=
  let record := asRecord (some input)
  let itemId := publicRef P "item" (field record "itemId") (seedAt "record" record index)
  let active := cleanBoolean P.toPlatform (field record "active") true
  let inventory := inventoryByItemId.get? itemId
  let availability : TableMenuAvailability :=
    if !active then .hidden
    else if inventory.any (·.availableQuantity = 0) then .soldOut
    else if inventory.any (·.status = .lowStock) then .limited
    else .available
  { itemId
    active
    modifiers := (asArray (field record "modifiers")).zipIdx.map fun (modifier, modifierIndex) =>
      normalizeModifier P modifier modifierIndex
    inventory
    availability
    availableQuantity := (inventory.map (·.availableQuantity)).getD 999999
    canOrder := active && availability ≠ .soldOut && availability ≠ .hidden
    warnings :=
      match availability with
      | .soldOut => [js "inventory-sold-out"]
      | .limited => [js "inventory-low-stock"]
      | .hidden => [js "item-hidden"]
      | .available => [] }

def buildTableMenu (items inventory : Option JsonValue) : TableMenu where
  items :=
    let inventoryByItemId : Record JsString TableInventorySnapshot :=
      ((asArray inventory).map (normalizeInventory P)).foldl
        (fun map item => map.set item.itemId item) .empty
    ((asArray items).zipIdx.map fun (item, index) =>
      normalizeMenuItem P inventoryByItemId item index).filter (·.availability ≠ .hidden)

/-! ## The order -/

/-- `new Map(menu.items.map(item => [item.itemId, item]))`. -/
def menuByItemId (menu : TableMenu) : Record JsString TableMenuItem :=
  menu.items.foldl (fun map item => map.set item.itemId item) .empty

/-- The instruction without private material, and the warnings about it. -/
def redactInstruction (value : Option JsonValue) : Option JsString × List JsString :=
  let text := cleanTextTo 240 value
  if text = [] then (none, [])
  else if P.containsPrivateMaterial (stableJson (.string text)) then
    (some (js "redacted-private-instruction"),
      [js "special-instructions-redacted-private-material"])
  else (some text, [])

def lineItemId (input : JsonValue) (index : ℕ) : JsString :=
  let record := asRecord (some input)
  publicRef P "item" (field record "itemId") (seedAt "lineRecord" record index)

def lineQuantity (input : JsonValue) : ℕ :=
  max 1 (cleanNonNegativeInteger P.toPlatform (field (asRecord (some input)) "quantity") 1)

def selectLine (items : Record JsString TableMenuItem) (input : JsonValue) (index : ℕ) :
    TableOrderLine :=
  let record := asRecord (some input)
  let itemId := lineItemId P input index
  let item := items.get? itemId
  let modifierIds := (cleanTextArray (field record "modifierIds")).map fun modifierId =>
    publicRef P "mod" (some (.string modifierId)) (.string modifierId)
  let activeModifiers := (item.map (·.modifiers)).getD [] |>.filter fun modifier =>
    modifier.active && modifier.modifierId ∈ modifierIds
  let missing := modifierIds.any fun modifierId =>
    !(activeModifiers.any (·.modifierId = modifierId))
  let (specialInstructions, instructionWarnings) :=
    redactInstruction P (field record "specialInstructions")
  { itemId
    quantity := lineQuantity P input
    modifierIds := activeModifiers.map (·.modifierId)
    status :=
      if !(item.any (·.canOrder)) then .unavailable
      else if missing then .needsReview
      else .accepted
    specialInstructions
    warnings :=
      (match item with
        | none => [js "menu-item-missing"]
        | some item =>
          if item.canOrder then [] else [js "menu-item-" ++ js item.availability.text])
      ++ (if missing then [js "modifier-missing-or-inactive"] else []) ++ instructionWarnings }

/-- The menu of an order: the one that is given, or else a new one. -/
def orderMenu (input : TableOrderInput) : TableMenu :=
  input.menu.getD (buildTableMenu P input.menuItems input.inventory)

def createTableOrder (input : TableOrderInput) : TableOrder :=
  let items := menuByItemId (orderMenu P input)
  let selectedLines := (asArray input.cartLines).zipIdx.map fun (line, index) =>
    selectLine P items line index
  let lines := selectedLines.filter (0 < ·.quantity)
  let acceptedLines := lines.filter (·.status ≠ .unavailable)
  { lines
    inventoryReservations := acceptedLines.map fun line => ⟨line.itemId, line.quantity⟩
    warnings :=
      (if lines = [] then [js "order-empty"] else [])
      ++ (if lines.any (·.status = .unavailable) then [js "order-has-unavailable-lines"] else [])
      ++ (if lines.any (·.status = .needsReview) then [js "order-needs-review"] else [])
      ++ (if lines.any (js "special-instructions-redacted-private-material" ∈ ·.warnings) then
          [js "private-material-redacted"] else []) }

/-! ## Stock -/

def reservedQuantity (order : TableOrder) (itemId : JsString) : ℕ :=
  ((order.inventoryReservations.filter (·.itemId = itemId)).map (·.quantity)).sum

/-- The order reserves no more of an item with inventory than there is, and only items that can be
ordered. -/
structure NeverOversells (menu : TableMenu) (order : TableOrder) : Prop where
  quantities : ∀ item ∈ menu.items, item.inventory.isSome →
    (reservedQuantity order item.itemId : ℚ) ≤ item.availableQuantity
  orderable : ∀ reservation ∈ order.inventoryReservations, ∃ item ∈ menu.items,
    item.itemId = reservation.itemId ∧ item.canOrder

/-- What the lines of a cart ask of an item, by its id: nothing of one that cannot be ordered. -/
def askedQuantity (menu : TableMenu) (cartLines : List JsonValue) (itemId : JsString) : ℕ :=
  if ((menuByItemId menu).get? itemId).any (·.canOrder) then
    ((cartLines.zipIdx.filter fun (line, index) => lineItemId P line index = itemId).map
      fun (line, _) => lineQuantity P line).sum
  else 0

/-- The lines of the cart ask together for no more of an item than there is. -/
def Covered (input : TableOrderInput) : Prop :=
  ∀ item ∈ (orderMenu P input).items, item.inventory.isSome →
    (askedQuantity P (orderMenu P input) (asArray input.cartLines) item.itemId : ℚ)
      ≤ item.availableQuantity

end Table

end Agid.Table
