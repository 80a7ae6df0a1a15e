import Agid.Table

/-!
# What an order reserves

Every line of an item that can be ordered is reserved with its own quantity, and no line looks at
the others or at the stock.  So an order reserves what its lines ask for (`reserved_eq_asked`), and
it oversells just where they ask for too much (`neverOversells_iff`).
-/

namespace Agid.Table

open RedactedWorkflow (asArray)

variable {P : Platform} {input : TableOrderInput}

/-! ## Lines -/

theorem status_unavailable_iff {items : Record JsString TableMenuItem} {line : JsonValue}
    {index : ℕ} : (selectLine P items line index).status = .unavailable
      ↔ (items.get? (lineItemId P line index)).any (·.canOrder) = false := by
  simp only [selectLine]
  split_ifs with hany hmissing <;> simp_all

theorem quantity_pos {items : Record JsString TableMenuItem} {line : JsonValue} {index : ℕ} :
    0 < (selectLine P items line index).quantity :=
  lt_of_lt_of_le zero_lt_one (le_max_left _ _)

/-- The lines that are reserved: those of an item that can be ordered. -/
theorem inventoryReservations_eq (P : Platform) (input : TableOrderInput) :
    (createTableOrder P input).inventoryReservations
      = ((asArray input.cartLines).zipIdx.filter fun (line, index) =>
          ((menuByItemId (orderMenu P input)).get? (lineItemId P line index)).any (·.canOrder)).map
        fun (line, index) => ⟨lineItemId P line index, lineQuantity P line⟩ := by
  simp only [createTableOrder, List.filter_map, List.map_map, List.filter_filter]
  refine congrArg₂ List.map rfl (List.filter_congr fun e _ => ?_)
  obtain ⟨line, index⟩ := e
  simp only [Function.comp, quantity_pos, decide_true, Bool.and_true]
  rw [Bool.eq_iff_iff, decide_eq_true_eq, ne_eq, status_unavailable_iff, Bool.not_eq_false]

theorem reserved_eq_asked (P : Platform) (input : TableOrderInput) (itemId : JsString) :
    reservedQuantity (createTableOrder P input) itemId
      = askedQuantity P (orderMenu P input) (asArray input.cartLines) itemId := by
  unfold reservedQuantity askedQuantity
  rw [inventoryReservations_eq, List.filter_map, List.map_map, List.filter_filter]
  split_ifs with horder
  · refine congrArg List.sum (congrArg₂ List.map rfl (List.filter_congr fun e _ => ?_))
    obtain ⟨line, index⟩ := e
    by_cases hid : lineItemId P line index = itemId
    · simp only [Function.comp, hid, horder, decide_true, Bool.and_true]
    · simp only [Function.comp, hid, decide_false, Bool.false_and]
  · refine congrArg List.sum ((congrArg (List.map _) (List.filter_eq_nil_iff.2 ?_)).trans rfl)
    rintro ⟨line, index⟩ - hline
    simp only [Function.comp, Bool.and_eq_true, decide_eq_true_eq] at hline
    exact horder (hline.1 ▸ hline.2)

/-! ## Items -/

theorem get?_menuByItemId {menu : TableMenu} {itemId : JsString} {item : TableMenuItem}
    (h : (menuByItemId menu).get? itemId = some item) :
    item ∈ menu.items ∧ item.itemId = itemId := by
  have hget : (menuByItemId menu).get? itemId = _ :=
    Record.get?_foldl_set_last (fun item : TableMenuItem => item.itemId) itemId menu.items .empty
  rw [hget] at h
  simp only [Record.get?_empty, Option.or_none] at h
  have hmem := List.mem_filter.1 (List.mem_of_getLast? h)
  exact ⟨hmem.1, of_decide_eq_true hmem.2⟩

theorem orderable_of_reservation {reservation : TableInventoryReservation}
    (h : reservation ∈ (createTableOrder P input).inventoryReservations) :
    ∃ item ∈ (orderMenu P input).items,
      item.itemId = reservation.itemId ∧ item.canOrder := by
  rw [inventoryReservations_eq] at h
  obtain ⟨⟨line, index⟩, hline, rfl⟩ := List.mem_map.1 h
  obtain ⟨item, hitem, horder⟩ := (Option.any_eq_true _ _).1 (List.mem_filter.1 hline).2
  obtain ⟨hmem, hid⟩ := get?_menuByItemId hitem
  exact ⟨item, hmem, hid, horder⟩

/-- An order never oversells just where the lines of the cart are covered. -/
theorem neverOversells_iff (P : Platform) (input : TableOrderInput) :
    NeverOversells (orderMenu P input) (createTableOrder P input) ↔ Covered P input := by
  constructor
  · intro h item hitem hinventory
    rw [← reserved_eq_asked]
    exact h.quantities item hitem hinventory
  · intro h
    refine ⟨fun item hitem hinventory => ?_, fun _ => orderable_of_reservation⟩
    rw [reserved_eq_asked]
    exact h item hitem hinventory

/-! ## Two lines of one item -/

def plainPlatform : Platform where
  numberValue
    | .int z => .finite z
    | .other _ _ => .nan
    | .infinite negative => if negative then .negInfinity else .infinity
  toNumber _ := .nan
  toLowerCase := id
  toUpperCase := id
  sha256Hex := id
  containsPrivateMaterial _ := false

def ramen : JsString × JsonValue := (js "itemId", .string (js "ramen"))

def quantityOf (name : String) (quantity : ℤ) : JsString × JsonValue :=
  (js name, .number (.int quantity))

/-- Two bowls are left, and the cart has one line for two and one for one. -/
def twoLines : TableOrderInput where
  menu := none
  menuItems := some (.array [.object [ramen]])
  inventory := some (.array [.object [ramen, quantityOf "stockQuantity" 2]])
  cartLines := some (.array [.object [ramen, quantityOf "quantity" 2],
    .object [ramen, quantityOf "quantity" 1]])

/-- Three bowls are reserved where two are left. -/
theorem twoLines_oversells :
    ¬ NeverOversells (orderMenu plainPlatform twoLines)
      (createTableOrder plainPlatform twoLines) := by
  intro h
  have hitem : ∃ item ∈ (orderMenu plainPlatform twoLines).items, item.inventory.isSome
      ∧ item.availableQuantity = 2
      ∧ reservedQuantity (createTableOrder plainPlatform twoLines) item.itemId = 3 := by
    decide +kernel
  obtain ⟨item, hmem, hinventory, havailable, hreserved⟩ := hitem
  have hle := h.quantities item hmem hinventory
  rw [havailable, hreserved] at hle
  norm_num at hle

end Agid.Table
