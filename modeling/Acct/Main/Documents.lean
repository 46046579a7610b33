import Acct.Isolation.Embed
import Acct.Main.WorkOrder

/-!
# Documents

The tables of orders, of the documents that fulfil, settle and reverse them, and of reservations,
beside the ledger's (`DocDb.ledger`). What a wrapper does to the ledger is a program over the main
schema (`ledger`). Every document header has an idempotency key of its own kind. The unique indexes
on a document's line numbers are never contended, since the document is the session's own.
-/

namespace Acct.Main

open Isolation

variable (d : DocDb) (kind : AccountKind)

/-! ### Kinds and reasons the ledger does not tell apart -/

namespace AccountKind

def ar : AccountKind := .other 1
def ap : AccountKind := .other 2
def stockScrap : AccountKind := .other 3
def stockQuarantine : AccountKind := .other 4
def varianceScrap : AccountKind := .other 5
def varianceMatchTolerance : AccountKind := .other 6
def variancePpvPriorPeriodAdj : AccountKind := .other 7
def accruedDisposalLiability : AccountKind := .other 8

end AccountKind

namespace Reason

def arInvoice : Reason := .other 1
def apBill : Reason := .other 2
def customerReturn : Reason := .other 3
def poReturnToVendor : Reason := .other 4

end Reason

/-! ### Rows -/

/-- `customers` and `vendors`, with the tolerance of the three-way match in hundredths of a percent.
-/
structure Party where
  id : ℕ
  tolerance : ℤ := 0
  deriving DecidableEq

/-- `purchase_orders` and `sales_orders` -/
structure Order where
  id : ℕ
  /-- `vendor_id`, `customer_id` -/
  partyId : Option ℕ
  deriving DecidableEq

/-- `purchase_order_lines` -/
structure PoLine where
  id : ℕ
  poId : ℕ
  skuId : ℕ
  locationId : ℕ
  qtyOrdered : ℤ
  unitCost : ℤ
  currency : Currency
  deriving DecidableEq

/-- `sales_order_lines` -/
structure SoLine where
  id : ℕ
  soId : ℕ
  skuId : ℕ
  shipLocationId : ℕ
  qtyOrdered : ℤ
  unitPrice : ℤ
  currency : Currency
  taxAmount : ℤ := 0
  deriving DecidableEq

inductive DocKind
  | poReceipt
  | soShip
  | customerInvoice
  | vendorBill
  | customerReturn
  | poReturn
  | soAllocate
  deriving DecidableEq

structure Header where
  id : ℕ
  kind : DocKind
  /-- `idempotency_key` -/
  key : ℕ
  /-- The order, or else the customer or vendor. -/
  ownerId : ℕ
  businessDate : Date
  deriving DecidableEq

/-- `po_receipt_lines` -/
structure ReceiptLine where
  id : ℕ
  receiptId : ℕ
  poLineId : ℕ
  qtyReceived : ℤ
  /-- `cost_method_at_receipt` -/
  costMethod : CostMethod
  deriving DecidableEq

/-- `so_shipment_lines` -/
structure ShipmentLine where
  id : ℕ
  shipmentId : ℕ
  soLineId : ℕ
  qtyShipped : ℤ
  unitCost : ℤ
  unitPrice : ℤ
  taxAmount : ℤ
  /-- `cost_method_at_ship` -/
  costMethod : CostMethod
  lotId : Option ℕ := none
  /-- Set right after the insert. -/
  unitIds : Option (List ℕ) := none
  deriving DecidableEq

inductive InvoiceItem
  | soMatch (soLineId : ℕ) (qty unitPrice : ℤ)
  | service (revenueAccountId : ℕ)
  deriving DecidableEq

/-- `customer_invoice_lines` -/
structure InvoiceLine where
  id : ℕ
  invoiceId : ℕ
  lineNo : ℕ
  item : InvoiceItem
  amount : ℤ
  taxAmount : ℤ
  deriving DecidableEq

inductive BillItem
  | poMatch (poLineId : ℕ) (qty unitCost : ℤ)
  | service (expenseAccountId : ℕ)
  | disposalMatch (woEventId byProductNo : ℕ) (qty unitCost : ℤ)
  deriving DecidableEq

/-- `vendor_bill_lines` -/
structure BillLine where
  id : ℕ
  billId : ℕ
  lineNo : ℕ
  item : BillItem
  amount : ℤ
  deriving DecidableEq

/-- `return_disposition` -/
inductive Disposition
  | restock
  | scrap
  | repair
  deriving DecidableEq

structure CustomerReturnLine where
  id : ℕ
  returnId : ℕ
  lineNo : ℕ
  shipLineId : ℕ
  /-- The order line of its shipment line, which the queries find by a join; shipment lines never
  change theirs. -/
  soLineId : ℕ
  qtyReturned : ℤ
  disposition : Disposition
  unitCost : ℤ
  unitPrice : ℤ
  taxAmount : ℤ
  qtyToArUnsettled : ℤ
  qtyToAr : ℤ
  deriving DecidableEq

structure PoReturnLine where
  id : ℕ
  returnId : ℕ
  lineNo : ℕ
  recvLineId : ℕ
  poLineId : ℕ
  qtyReturned : ℤ
  unitCost : ℤ
  qtyToApUnsettled : ℤ
  qtyToAp : ℤ
  deriving DecidableEq

/-- `reservation_status` -/
inductive ReservationStatus
  | active
  | allocated
  | shipped
  | cancelled
  | expired
  deriving DecidableEq

/-- `inventory_reservations` -/
structure Reservation where
  id : ℕ
  skuId : ℕ
  locationId : ℕ
  qty : ℤ
  soId : ℕ
  soLineId : ℕ
  status : ReservationStatus := .active
  expiresAt : ℤ
  lotId : Option ℕ := none
  lotSpecific : Bool := false
  deriving DecidableEq

/-- Still owed to the customer. -/
def Reservation.isOpen (r : Reservation) : Bool := r.status == .active || r.status == .allocated

/-- The status is set only if it is `active`. -/
def Reservation.moved (st : ReservationStatus) (r : Reservation) : Reservation :=
  if r.status = .active then { r with status := st } else r

/-- `wo_events` with the work order's currency. -/
structure WoEvent where
  id : ℕ
  woId : ℕ
  currency : Currency
  deriving DecidableEq

structure WoByProduct where
  woId : ℕ
  byProductNo : ℕ
  actualQty : ℤ
  unitValue : ℤ
  /-- `treatment` is `disposal_cost`. -/
  disposal : Bool
  disposalVendorId : Option ℕ
  deriving DecidableEq

/-! ### What of a line counts towards order line `id` -/

def ReceiptLine.counted (id : ℕ) (l : ReceiptLine) : ℤ :=
  if l.poLineId = id then l.qtyReceived else 0

def ShipmentLine.counted (id : ℕ) (l : ShipmentLine) : ℤ :=
  if l.soLineId = id then l.qtyShipped else 0

def InvoiceLine.counted (id : ℕ) (l : InvoiceLine) : ℤ :=
  match l.item with
  | .soMatch soLineId qty _ => if soLineId = id then qty else 0
  | .service _ => 0

def BillLine.counted (id : ℕ) (l : BillLine) : ℤ :=
  match l.item with
  | .poMatch poLineId qty _ => if poLineId = id then qty else 0
  | _ => 0

def CustomerReturnLine.toUnsettled (id : ℕ) (l : CustomerReturnLine) : ℤ :=
  if l.soLineId = id then l.qtyToArUnsettled else 0

def CustomerReturnLine.toAr (id : ℕ) (l : CustomerReturnLine) : ℤ :=
  if l.soLineId = id then l.qtyToAr else 0

def PoReturnLine.toUnsettled (id : ℕ) (l : PoReturnLine) : ℤ :=
  if l.poLineId = id then l.qtyToApUnsettled else 0

def PoReturnLine.toAp (id : ℕ) (l : PoReturnLine) : ℤ := if l.poLineId = id then l.qtyToAp else 0

/-! ### The database -/

structure DocDb where
  ledger : Db := {}
  customers : List Party := []
  vendors : List Party := []
  purchaseOrders : List Order := []
  poLines : List PoLine := []
  salesOrders : List Order := []
  soLines : List SoLine := []
  headers : List Header := []
  receiptLines : List ReceiptLine := []
  shipmentLines : List ShipmentLine := []
  invoiceLines : List InvoiceLine := []
  billLines : List BillLine := []
  customerReturnLines : List CustomerReturnLine := []
  poReturnLines : List PoReturnLine := []
  reservations : List Reservation := []
  woEvents : List WoEvent := []
  woByProducts : List WoByProduct := []
  deriving DecidableEq

namespace DocDb

def customer? (id : ℕ) : Option Party := d.customers.find? (·.id == id)

def vendor? (id : ℕ) : Option Party := d.vendors.find? (·.id == id)

def purchaseOrder? (id : ℕ) : Option Order := d.purchaseOrders.find? (·.id == id)

def salesOrder? (id : ℕ) : Option Order := d.salesOrders.find? (·.id == id)

def poLine? (id : ℕ) : Option PoLine := d.poLines.find? (·.id == id)

def soLine? (id : ℕ) : Option SoLine := d.soLines.find? (·.id == id)

def receiptLine? (id : ℕ) : Option ReceiptLine := d.receiptLines.find? (·.id == id)

def shipmentLine? (id : ℕ) : Option ShipmentLine := d.shipmentLines.find? (·.id == id)

def header? (kind : DocKind) (key : ℕ) : Option Header :=
  d.headers.find? fun h => h.kind == kind && h.key == key

def headerById? (id : ℕ) : Option Header := d.headers.find? (·.id == id)

/-! #### Sums -/

/-- `SUM(qty_received)` of a purchase order line -/
def received (id : ℕ) : ℤ := (d.receiptLines.map (ReceiptLine.counted id)).sum

/-- `SUM(qty_shipped)` of a sales order line -/
def shipped (id : ℕ) : ℤ := (d.shipmentLines.map (ShipmentLine.counted id)).sum

/-- `SUM(qty)` of the `so_match` lines of a sales order line -/
def invoiced (id : ℕ) : ℤ := (d.invoiceLines.map (InvoiceLine.counted id)).sum

/-- `SUM(qty)` of the `po_match` lines of a purchase order line -/
def billed (id : ℕ) : ℤ := (d.billLines.map (BillLine.counted id)).sum

/-- `SUM(qty_to_ar_unsettled)` of a sales order line -/
def returnedToArUnsettled (id : ℕ) : ℤ :=
  (d.customerReturnLines.map (CustomerReturnLine.toUnsettled id)).sum

/-- `SUM(qty_to_ap_unsettled)` of a purchase order line -/
def returnedToApUnsettled (id : ℕ) : ℤ :=
  (d.poReturnLines.map (PoReturnLine.toUnsettled id)).sum

/-- The return lines of other documents than `docId`. -/
def customerReturnsBut (docId : ℕ) : List CustomerReturnLine :=
  d.customerReturnLines.filter (·.returnId != docId)

def poReturnsBut (docId : ℕ) : List PoReturnLine :=
  d.poReturnLines.filter (·.returnId != docId)

end DocDb

/-! ### Errors -/

/-- The exceptions of the wrappers, by their message, and those of the ledger. -/
inductive DocErr
  | ledger (e : Err)
  /-- P0006 -/
  | costMethodNotImplemented
  | unitsInvalid
  /-- P0022 -/
  | poReceiptInvalid
  /-- P0023 -/
  | poLineOverreceived
  /-- P0024 -/
  | apBillThreeWayMismatch
  /-- P0025 -/
  | apBillInvalidLine
  /-- P0037 -/
  | soShipInvalid
  /-- P0038 -/
  | soLineOvershipped
  /-- P0040 -/
  | customerInvoiceThreeWayMismatch
  /-- P0041 -/
  | customerInvoiceInvalidLine
  /-- P0043 -/
  | soAllocateInvalid
  /-- P0044 -/
  | customerReturnInvalid
  /-- P0045 -/
  | customerReturnOverreturned
  /-- P0046 -/
  | poReturnInvalid
  /-- P0047 -/
  | poReturnOverreturned
  /-- P0010, of a lot -/
  | lotMissing
  /-- P0052 -/
  | lotSpecificRequiresLot
  /-- P0053 -/
  | pinnedLotUnderfulfilled
  /-- P0054 -/
  | shipLotPinConflict
  /-- P0055 -/
  | ambiguousPinnedReservation
  | checkViolation
  | uniqueViolation
  | foreignKeyViolation
  deriving DecidableEq

/-! ### Writes -/

inductive DocWrite
  | ledger (w : Write)
  | header (h : Header)
  | receiptLine (l : ReceiptLine)
  | shipmentLine (l : ShipmentLine)
  | invoiceLine (l : InvoiceLine)
  | billLine (l : BillLine)
  | customerReturnLine (l : CustomerReturnLine)
  | poReturnLine (l : PoReturnLine)
  | reservation (r : Reservation)
  /-- `UPDATE inventory_reservations SET status` -/
  | setReservation (id : ℕ) (status : ReservationStatus)
  /-- `UPDATE inventory_reservations SET status ... WHERE status = 'active'`, of one row -/
  | moveReservation (id : ℕ) (status : ReservationStatus)
  deriving DecidableEq

inductive DocRow
  | ledger (r : Row)
  /-- The entry of an idempotency key in its unique index. -/
  | header (kind : DocKind) (key : ℕ)
  | poLine (id : ℕ)
  | soLine (id : ℕ)
  | receiptLine (id : ℕ)
  | shipmentLine (id : ℕ)
  | reservation (id : ℕ)
  | woByProduct (woId byProductNo : ℕ)
  deriving DecidableEq

namespace DocWrite

def apply : DocWrite → DocDb → DocDb
  | .ledger w, d => { d with ledger := w.apply d.ledger }
  | .header h, d => { d with headers := d.headers ++ [h] }
  | .receiptLine l, d => { d with receiptLines := d.receiptLines ++ [l] }
  | .shipmentLine l, d => { d with shipmentLines := d.shipmentLines ++ [l] }
  | .invoiceLine l, d => { d with invoiceLines := d.invoiceLines ++ [l] }
  | .billLine l, d => { d with billLines := d.billLines ++ [l] }
  | .customerReturnLine l, d => { d with customerReturnLines := d.customerReturnLines ++ [l] }
  | .poReturnLine l, d => { d with poReturnLines := d.poReturnLines ++ [l] }
  | .reservation r, d => { d with reservations := d.reservations ++ [r] }
  | .setReservation i st, d =>
    { d with reservations :=
        Write.update Reservation.id i (fun r => { r with status := st }) d.reservations }
  | .moveReservation i st, d =>
    { d with reservations := Write.update Reservation.id i (·.moved st) d.reservations }

/-- Fails with `e` unless `p`. -/
def require (p : Prop) [Decidable p] (e : DocErr) : Except DocErr Unit :=
  if p then .ok () else .error e

def checkInvoiceItem : InvoiceItem → Prop
  | .soMatch _ qty unitPrice => 0 < qty ∧ 0 ≤ unitPrice
  | .service _ => True

def checkBillItem : BillItem → Prop
  | .poMatch _ qty unitCost | .disposalMatch _ _ qty unitCost => 0 < qty ∧ 0 ≤ unitCost
  | .service _ => True

instance : DecidablePred checkInvoiceItem
  | .soMatch _ qty unitPrice => inferInstanceAs (Decidable (0 < qty ∧ 0 ≤ unitPrice))
  | .service _ => inferInstanceAs (Decidable True)

instance : DecidablePred checkBillItem
  | .poMatch _ qty unitCost => inferInstanceAs (Decidable (0 < qty ∧ 0 ≤ unitCost))
  | .disposalMatch _ _ qty unitCost => inferInstanceAs (Decidable (0 < qty ∧ 0 ≤ unitCost))
  | .service _ => inferInstanceAs (Decidable True)

def check : DocWrite → DocDb → Except DocErr Unit
  | .ledger w, d => (w.check d.ledger).mapError .ledger
  | .header h, d => require (d.header? h.kind h.key = none) .uniqueViolation
  | .receiptLine l, d => do
    require (0 < l.qtyReceived) .checkViolation
    require (∀ r ∈ d.receiptLines, ¬ (r.receiptId = l.receiptId ∧ r.poLineId = l.poLineId))
      .uniqueViolation
  | .shipmentLine l, d => do
    require (0 < l.qtyShipped ∧ 0 ≤ l.unitCost ∧ 0 ≤ l.unitPrice ∧ 0 ≤ l.taxAmount) .checkViolation
    require (∀ r ∈ d.shipmentLines, ¬ (r.shipmentId = l.shipmentId ∧ r.soLineId = l.soLineId))
      .uniqueViolation
  | .invoiceLine l, _ =>
    require (0 < l.amount ∧ 0 ≤ l.taxAmount ∧ checkInvoiceItem l.item) .checkViolation
  | .billLine l, _ => require (0 < l.amount ∧ checkBillItem l.item) .checkViolation
  | .customerReturnLine l, _ =>
    require (0 < l.qtyReturned ∧ 0 ≤ l.unitCost ∧ 0 ≤ l.unitPrice ∧ 0 ≤ l.taxAmount ∧
      0 ≤ l.qtyToArUnsettled ∧ 0 ≤ l.qtyToAr ∧
      l.qtyToArUnsettled + l.qtyToAr = l.qtyReturned) .checkViolation
  | .poReturnLine l, _ =>
    require (0 < l.qtyReturned ∧ 0 ≤ l.unitCost ∧ 0 ≤ l.qtyToApUnsettled ∧ 0 ≤ l.qtyToAp ∧
      l.qtyToApUnsettled + l.qtyToAp = l.qtyReturned) .checkViolation
  | .reservation r, d => do
    require (0 < r.qty ∧ (r.lotSpecific = true → r.lotId.isSome = true)) .checkViolation
    require ((d.salesOrder? r.soId).isSome) .foreignKeyViolation
  | .setReservation _ _, _ | .moveReservation _ _, _ => .ok ()

/-- The rows a write locks, by its update, its unique index and its foreign keys to rows that others
lock. -/
def locks : DocWrite → List (DocRow × RowLock)
  | .ledger w => w.locks.map fun l => (.ledger l.1, l.2)
  | .header h => [(.header h.kind h.key, .update)]
  | .receiptLine l => [(.poLine l.poLineId, .keyShare)]
  | .shipmentLine l => [(.soLine l.soLineId, .keyShare)]
  | .invoiceLine l =>
    match l.item with
    | .soMatch soLineId _ _ => [(.soLine soLineId, .keyShare)]
    | .service accountId => [(.ledger (.account accountId), .keyShare)]
  | .billLine l =>
    match l.item with
    | .poMatch poLineId _ _ => [(.poLine poLineId, .keyShare)]
    | .service accountId => [(.ledger (.account accountId), .keyShare)]
    | .disposalMatch _ _ _ _ => []
  | .customerReturnLine l => [(.shipmentLine l.shipLineId, .keyShare)]
  | .poReturnLine l => [(.receiptLine l.recvLineId, .keyShare)]
  | .reservation _ => []
  | .setReservation i _ | .moveReservation i _ => [(.reservation i, .noKeyUpdate)]

end DocWrite

def docSchema : Schema DocDb DocWrite DocRow DocErr where
  apply := DocWrite.apply
  check := DocWrite.check
  locks := DocWrite.locks

abbrev DocTx (α : Type) := Prog DocDb DocWrite DocRow DocErr α

/-! ### The ledger as a part -/

def ledgerPart : Part Db Write Row Err DocDb DocWrite DocRow DocErr where
  part := DocDb.ledger
  write := .ledger
  row := .ledger
  error := .ledger

/-- A program over the main schema. -/
def ledger {α : Type} (p : Tx α) : DocTx α := p.embed ledgerPart

/-! ### What the wrappers share -/

def findRow {α : Type} (f : DocDb → Option α) (missing : DocErr) : DocTx α :=
  Prog.fetch fun d =>
    match f d with
    | some a => .ok a
    | none => .error missing

def positiveQty (qty : Option ℤ) (e : DocErr) : DocTx ℤ :=
  match qty with
  | some q => if 0 < q then return q else .raise e
  | none => .raise e

def unlessDocument (kind : DocKind) (key : ℕ) (new : DocTx ℕ) : DocTx ℕ := do
  let existing ← Prog.query fun d => (d.header? kind key).map (·.id)
  existing.elim new pure

/-- `INSERT ... ON CONFLICT (idempotency_key) DO NOTHING RETURNING id`. The entry of the key is
waited for, and if a document has come meanwhile its id is returned. -/
def withHeader (kind : DocKind) (key ownerId : ℕ) (date : Date) (body : ℕ → DocTx Unit) :
    DocTx ℕ := do
  Prog.lockRow (.header kind key) .update
  unlessDocument kind key do
    let id ← Prog.nextval
    Prog.exec (.header ⟨id, kind, key, ownerId, date⟩)
    body id
    return id

def stockAccount (skuId locationId : ℕ) : DocTx Account :=
  ledger (openAccount fun a => a.kind == kind && a.skuId == some skuId &&
    a.locationId == some locationId)

def stockValueAccount (skuId locationId : ℕ) (currency : Currency) : DocTx Account :=
  ledger (openAccount fun a => a.kind == kind && a.skuId == some skuId &&
    a.locationId == some locationId && a.ledger == .value currency)

/-- The open quantity account of a kind of a customer or vendor. -/
def partyQtyAccount (partyId : ℕ) : DocTx Account :=
  ledger (openAccount fun a => a.kind == kind && a.counterpartyId == some partyId &&
    a.ledger == .qty)

def partyAccount (partyId : ℕ) (currency : Currency) : DocTx Account :=
  ledger (openAccount fun a => a.kind == kind && a.counterpartyId == some partyId &&
    a.ledger == .value currency)

def currencyAccount (currency : Currency) : DocTx Account :=
  ledger (openAccount fun a => a.kind == kind && a.ledger == .value currency)

def documentEvent (reason : Reason) (date : Date) (docId lineId : ℕ) (d c : Account) (amount : ℤ)
    (qty : Option ℤ) (key : Key) : Event where
  reason := reason
  documentId := docId
  documentLineId := some lineId
  debitAccountId := d.id
  creditAccountId := c.id
  amount := some amount
  qty := qty
  businessDate := date
  key := key

def Db.unitRows (db : Db) (ids : List ℕ) : List ℕ :=
  ((db.units.filter fun u => ids.contains u.id).map (·.id)).insertionSort (· ≤ ·)

/-- A key of `gen_random_uuid()`. -/
def randomKey : DocTx Key := do
  let n ← Prog.nextval
  return .random n

end Acct.Main
