import Acct.Main.Documents

/-!
# Shipping a sales order

`post_so_ship`. Each line is checked against what its order line has shipped, takes a snapshot of
its unit cost, and adds its legs to one batch, posted after the last line. The order line is read
without a lock; under the methods other than standard the value account is locked before the
snapshot.
-/

namespace Acct.Main

open Isolation Prog

variable (c : SoShip) (d : DocDb) (customerId : ℕ) (i : ShipInput) (sl : SoLine) (docId : ℕ)
  (sku : Sku) (qty : ℤ)

structure ShipInput where
  soLineId : ℕ
  qtyShipped : Option ℤ
  unitPrice : Option ℤ := none
  taxAmount : Option ℤ := none
  unitIds : Option (List ℕ) := none
  lotId : Option ℕ := none
  deriving DecidableEq

/-- A call of `post_so_ship`. -/
structure SoShip where
  soId : ℕ
  lines : List ShipInput
  businessDate : Date
  key : ℕ
  deriving DecidableEq

/-- The order line of a line, and its quantity, if that can still be shipped. -/
def checkShipLine : DocTx (SoLine × ℤ) := do
  let qty ← positiveQty i.qtyShipped .soShipInvalid
  let sl ← findRow (·.soLine? i.soLineId) .soShipInvalid
  ensure (sl.soId = c.soId) .soShipInvalid
  let already ← query (·.shipped i.soLineId)
  ensure (already + qty ≤ sl.qtyOrdered) .soLineOvershipped
  return (sl, qty)

/-- The product of a line. Units are accepted for products tracked by them only. -/
def shipSku (skuId : ℕ) : DocTx Sku := do
  let sku ← findRow (·.ledger.sku? skuId) (.ledger .notNullViolation)
  ensure (sku.costMethod ≠ .lot) .costMethodNotImplemented
  ensure (i.unitIds.isSome = true → sku.trackedBy = .lotAndSerial) .unitsInvalid
  return sku

structure ShipAccounts where
  qty : Account
  value : Account
  customerQty : Account
  unsettled : Account
  revenue : Account
  cogs : Account
  deriving DecidableEq

def shipAccounts : DocTx ShipAccounts := do
  let qty ← stockAccount .stockAvailable sl.skuId sl.shipLocationId
  let value ← stockValueAccount .invValueFg sl.skuId sl.shipLocationId sl.currency
  let customerQty ← partyQtyAccount .customerPool customerId
  let unsettled ← partyAccount .arUnsettled customerId sl.currency
  let revenue ← currencyAccount .revenue sl.currency
  let cogs ← currencyAccount .cogs sl.currency
  return { qty, value, customerQty, unsettled, revenue, cogs }

/-! ### The cost snapshot -/

def UnitStatus.isShippable : UnitStatus → Bool
  | .available | .reserved | .allocated => true
  | _ => false

/-- The lots of the given units that are at the place and can be shipped. -/
def Db.unitLots (db : Db) (ids : List ℕ) (skuId locationId : ℕ) : List ℕ :=
  (db.units.filter fun u => ids.contains u.id && u.productId == skuId &&
    u.locationId == locationId && u.status.isShippable).map (·.lotId)

def shipUnitLot : DocTx ℕ :=
  match i.unitIds with
  | none => .raise .soShipInvalid
  | some ids => do
    ensure (ids.length = qty) .unitsInvalid
    let rows ← query (·.ledger.unitRows ids)
    lockRows .update (rows.map fun u => .ledger (.unit u))
    let lots ← query (·.ledger.unitLots ids sl.skuId sl.shipLocationId)
    ensure (lots.length = ids.length) .unitsInvalid
    ensure (∀ a ∈ lots, ∀ b ∈ lots, a = b) .unitsInvalid
    lots.head?.elim (.raise .unitsInvalid) pure

/-- The lots that open reservations of an order line are pinned to. -/
def DocDb.pins (soLineId : ℕ) : List (Option ℕ) :=
  (d.reservations.filter fun r => r.soLineId == soLineId && r.isOpen && r.lotSpecific).map (·.lotId)

/-- A lot the caller names must be one that is pinned. -/
def matchPin (soLineId lotId : ℕ) : DocTx (Option ℕ) := do
  let ok ← query fun d => (d.pins soLineId).contains (some lotId)
  ensure (ok = true) .shipLotPinConflict
  return some lotId

def shipPinnedLot : DocTx (Option ℕ) := do
  let pins ← query (·.pins i.soLineId)
  match pins, i.lotId with
  | [], caller => return caller
  | [pin], none => return pin
  | _ :: _ :: _, none => .raise .ambiguousPinnedReservation
  | _ :: _, some lot => matchPin i.soLineId lot

def shipLot : DocTx (Option ℕ) :=
  if sku.trackedBy = .lotAndSerial then do
    let lot ← shipUnitLot i sl qty
    return some lot
  else shipPinnedLot i

structure ShipCost where
  unitCost : ℤ
  /-- `v_specific_lot_id` -/
  specificLot : Option ℕ := none
  /-- `v_audit_lot_id` -/
  auditLot : Option ℕ := none
  deriving DecidableEq

def shipAverage (accountId : ℕ) : DocTx ShipCost := do
  let qtyBalance ← query (·.ledger.classQty accountId)
  ensure (0 < qtyBalance) .costMethodNotImplemented
  let value ← query fun d => ((d.ledger.account? accountId).map (·.balance)).getD 0
  return { unitCost := (max 0 value).tdiv qtyBalance }

def shipLockedCost (value : Account) (qty : ℤ) : DocTx ShipCost :=
  match sku.costMethod with
  | .fifo => do
    let taken ← ledger (fifoWalkLayers sl.skuId sl.shipLocationId qty)
    return { unitCost := (walkCost taken).tdiv qty }
  | .lotFifo => do
    let lot ← shipLot i sl sku qty
    let taken ← ledger (lotWalkLayers sl.skuId sl.shipLocationId qty lot)
    return { unitCost := (walkCost taken).tdiv qty, specificLot := lot
             auditLot := lot.or (taken.head?.map (·.id)) }
  | _ => shipAverage value.id

/-- The unit cost of a line, before anything is posted. -/
def shipCost (value : Account) (qty : ℤ) : DocTx ShipCost :=
  if sku.costMethod = .standard then do
    let cost ← ledger (resolveStandardCostAt sl.skuId c.businessDate)
    return { unitCost := cost }
  else do
    lockRow (.ledger (.account value.id)) .update
    shipLockedCost i sl sku value qty

/-! ### The batch -/

def shipTaxAccount (tax : ℤ) : DocTx (Option Account) :=
  if 0 < tax then do
    let a ← currencyAccount .salesTaxPayable sl.currency
    return some a
  else return none

/-- What else is found out of a line before its insert. -/
structure ShipDraft where
  sku : Sku
  accounts : ShipAccounts
  cost : ShipCost
  tax : ℤ
  taxAccount : Option Account
  deriving DecidableEq

def draftShipLine : DocTx ShipDraft := do
  let tax := i.taxAmount.getD sl.taxAmount
  let sku ← shipSku i sl.skuId
  let accounts ← shipAccounts customerId sl
  let cost ← shipCost c i sl sku accounts.value qty
  let taxAccount ← shipTaxAccount sl tax
  return { sku, accounts, cost, tax, taxAccount }

def ShipDraft.row (w : ShipDraft) (i : ShipInput) (sl : SoLine) (qty : ℤ) (id docId : ℕ) :
    ShipmentLine where
  id := id
  shipmentId := docId
  soLineId := i.soLineId
  qtyShipped := qty
  unitCost := w.cost.unitCost
  unitPrice := i.unitPrice.getD sl.unitPrice
  taxAmount := w.tax
  costMethod := w.sku.costMethod
  lotId := w.cost.auditLot
  unitIds := i.unitIds

def shipEvent : ℕ → ℕ → Account → Account → ℤ → Option ℤ → Key → Event :=
  documentEvent .soShip c.businessDate

/-- The legs of a line: quantity, cost of goods sold, revenue, and tax. -/
def shipEvents (w : ShipDraft) (l : ShipmentLine) : DocTx (List Event) := do
  let qtyKey ← randomKey
  let valueKey ← randomKey
  let revenueKey ← randomKey
  let taxKey ← randomKey
  let a := w.accounts
  let qty := l.qtyShipped
  let value := shipEvent c docId l.id a.cogs a.value (qty * w.cost.unitCost) (some qty) valueKey
  return [shipEvent c docId l.id a.customerQty a.qty qty (some qty) qtyKey,
    if w.sku.costMethod = .lotFifo then { value with lotId := w.cost.specificLot } else value,
    shipEvent c docId l.id a.unsettled a.revenue (qty * l.unitPrice) none revenueKey] ++
    w.taxAccount.toList.map fun t => shipEvent c docId l.id a.unsettled t w.tax none taxKey

def shipLine (i : ShipInput) : DocTx (List Event) := do
  let checked ← checkShipLine c i
  let w ← draftShipLine c customerId i checked.1 checked.2
  let id ← nextval
  exec (.shipmentLine (w.row i checked.1 checked.2 id docId))
  shipEvents c docId w (w.row i checked.1 checked.2 id docId)

def shipLines (c : SoShip) (customerId docId : ℕ) : List ShipInput → DocTx (List Event)
  | [] => return []
  | i :: is => do
    let es ← shipLine c customerId docId i
    let rest ← shipLines c customerId docId is
    return es ++ rest

/-! ### After the batch -/

def shipReservations (soId : ℕ) : DocTx Unit :=
  .stmt (fun d => (d.reservations.filter fun r => r.soId == soId && r.isOpen).map fun r =>
    .setReservation r.id .shipped) fun _ => .ret ()

def DocDb.unitLines : List (ShipmentLine × List ℕ) :=
  (d.shipmentLines.filter (·.shipmentId == docId)).filterMap fun l =>
    l.unitIds.map fun ids => (l, ids)

def DocDb.shippedUnits : List ℕ :=
  (d.ledger.units.filter fun u => (d.unitLines docId).any fun l => l.2.contains u.id).map (·.id)

/-- The posting lines of a shipment line that take value out of finished goods. -/
def DocDb.cogsLines (lineId : ℕ) : List PostingLine :=
  d.ledger.lines.filter fun p => p.documentLineId == some lineId && p.reason == .soShip &&
    p.qty.isSome && d.ledger.accounts.any fun a =>
      a.id == p.creditAccountId && a.kind == .invValueFg

def DocDb.unitShipEvents (date : Date) : List UnitEvent :=
  (d.unitLines docId).flatMap fun l => (d.cogsLines l.1.id).flatMap fun p =>
    (d.ledger.units.filter fun u => l.2.contains u.id).map fun u =>
      ⟨u.id, date, .issue, some p.id, .shipped⟩

def shipUnits : DocTx Unit := do
  .stmt (fun d => (d.shippedUnits docId).map fun u => .ledger (.setUnit u .shipped))
    fun _ => .ret ()
  .stmt (fun d => (d.unitShipEvents docId c.businessDate).map fun e => .ledger (.unitEvent e))
    fun _ => .ret ()

def shipBody : DocTx Unit := do
  let batch ← shipLines c customerId docId c.lines
  shipReservations c.soId
  let _ ← ledger (postPostingLines batch false)
  shipUnits c docId

def shipCustomer (soId : ℕ) : DocTx ℕ := do
  let so ← findRow (·.salesOrder? soId) .soShipInvalid
  so.partyId.elim (.raise .soShipInvalid) pure

/-- `post_so_ship` -/
def postSoShip : DocTx ℕ :=
  unlessDocument .soShip c.key do
    let customerId ← shipCustomer c.soId
    ensure (c.lines ≠ []) .soShipInvalid
    withHeader .soShip c.key c.soId c.businessDate (shipBody c customerId)

end Acct.Main
