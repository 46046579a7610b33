import Acct.Main.Documents

/-!
# Returns

`post_customer_return` and `post_po_return`. What comes back of an order line is first set against
what was shipped or received and not yet settled, the rest against what was invoiced or billed. The
order line is locked before the sums, which leave out the lines of the return itself.
-/

namespace Acct.Main

open Isolation Prog

variable (c : PoReturn) (docId : ℕ)

structure Split where
  toUnsettled : ℤ
  toSettled : ℤ
  deriving DecidableEq

/-- `LEAST(qty, GREATEST(unsettled_rem, 0))` and the rest, if what is settled covers it. -/
def splitReturn (total settled priorToUnsettled priorToSettled qty : ℤ) (e : DocErr) :
    DocTx Split := do
  let toUnsettled := min qty (max (total - settled - priorToUnsettled) 0)
  ensure (qty - toUnsettled ≤ settled - priorToSettled) e
  return { toUnsettled, toSettled := qty - toUnsettled }

def openAccountOr (p q : Account → Bool) : DocTx Account :=
  ledger (fetch fun db =>
    match (db.accounts.find? fun a => p a && !a.isClosed).or
      (db.accounts.find? fun a => q a && !a.isClosed) with
    | some a => .ok a
    | none => .error .accountMissing)

def accountIf (needed : Prop) [Decidable needed] (p : DocTx Account) : DocTx (Option Account) :=
  if needed then do
    let a ← p
    return some a
  else return none

/-! ### From customers -/

structure CustomerReturnInput where
  shipLineId : ℕ
  qtyReturned : Option ℤ
  disposition : Disposition
  deriving DecidableEq

/-- A call of `post_customer_return`. -/
structure CustomerReturn where
  customerId : ℕ
  lines : List CustomerReturnInput
  businessDate : Date
  key : ℕ
  override : Bool := false
  deriving DecidableEq

/-- The shipment line of a line and its order line. It must belong to the customer, if its order
names one. -/
def findShipLine (c : CustomerReturn) (i : CustomerReturnInput) :
    DocTx (ShipmentLine × SoLine) := do
  let found ← findRow (fun d => do
    let ssl ← d.shipmentLine? i.shipLineId
    let sl ← d.soLine? ssl.soLineId
    let ss ← d.headerById? ssl.shipmentId
    let so ← d.salesOrder? ss.ownerId
    return ((ssl, sl), so)) .customerReturnInvalid
  ensure (∀ x ∈ found.2.partyId, x = c.customerId) .customerReturnInvalid
  return found.1

/-- The order line is locked and the quantity split by what the other documents say. -/
def splitCustomerReturn (soLineId : ℕ) (qty : ℤ) : DocTx Split := do
  lockRow (.soLine soLineId) .update
  let shipped ← query (·.shipped soLineId)
  let invoiced ← query (·.invoiced soLineId)
  let prior ← query fun d =>
    (((d.customerReturnsBut docId).map (CustomerReturnLine.toUnsettled soLineId)).sum,
      ((d.customerReturnsBut docId).map (CustomerReturnLine.toAr soLineId)).sum)
  splitReturn shipped invoiced prior.1 prior.2 qty .customerReturnOverreturned

def returnedTax (ssl : ShipmentLine) (qty : ℤ) : ℤ :=
  if 0 < ssl.taxAmount ∧ 0 < ssl.qtyShipped then (ssl.taxAmount * qty).tdiv ssl.qtyShipped else 0

structure CustomerReturnAccounts where
  qty : Account
  value : Account
  customerQty : Account
  cogs : Account
  revenue : Account
  unsettled : Option Account
  ar : Option Account
  deriving DecidableEq

def returnQtyAccount (sl : SoLine) : Disposition → DocTx Account
  | .restock => stockAccount .stockAvailable sl.skuId sl.shipLocationId
  | .scrap => ledger (openAccount fun a => a.kind == .stockScrap && a.skuId == some sl.skuId)
  | .repair => stockAccount .stockQuarantine sl.skuId sl.shipLocationId

def returnValueAccount (sl : SoLine) : Disposition → DocTx Account
  | .scrap => currencyAccount .varianceScrap sl.currency
  | _ => stockValueAccount .invValueFg sl.skuId sl.shipLocationId sl.currency

def customerReturnAccounts (c : CustomerReturn) (i : CustomerReturnInput) (sl : SoLine) (s : Split)
    (tax : ℤ) : DocTx CustomerReturnAccounts := do
  let qty ← returnQtyAccount sl i.disposition
  let value ← returnValueAccount sl i.disposition
  let customerQty ← openAccountOr
    (fun a => a.kind == .customerPool && a.counterpartyId == some c.customerId)
    (fun a => a.kind == .customerPool && a.counterpartyId == none)
  let cogs ← currencyAccount .cogs sl.currency
  let revenue ← currencyAccount .revenue sl.currency
  let unsettled ← accountIf (0 < s.toUnsettled ∨ 0 < tax) (openAccountOr
    (fun a => a.kind == .arUnsettled && a.counterpartyId == some c.customerId &&
      a.ledger == .value sl.currency)
    (fun a => a.kind == .arUnsettled && a.counterpartyId == none && a.ledger == .value sl.currency))
  let ar ← accountIf (0 < s.toSettled) (partyAccount .ar c.customerId sl.currency)
  return { qty, value, customerQty, cogs, revenue, unsettled, ar }

def customerReturnRow (i : CustomerReturnInput) (ssl : ShipmentLine) (qty tax : ℤ) (s : Split)
    (id docId idx : ℕ) : CustomerReturnLine where
  id := id
  returnId := docId
  lineNo := idx
  shipLineId := i.shipLineId
  soLineId := ssl.soLineId
  qtyReturned := qty
  disposition := i.disposition
  unitCost := ssl.unitCost
  unitPrice := ssl.unitPrice
  taxAmount := tax
  qtyToArUnsettled := s.toUnsettled
  qtyToAr := s.toSettled

/-- The tax leg, always against what is unsettled. -/
def returnTaxEvents (c : CustomerReturn) (docId lineId : ℕ) (a : CustomerReturnAccounts)
    (currency : Currency) (tax : ℤ) : DocTx (List Event) :=
  if 0 < tax then do
    let account ← currencyAccount .salesTaxPayable currency
    let key ← randomKey
    return a.unsettled.toList.map fun u =>
      documentEvent .customerReturn c.businessDate docId lineId account u tax none key
  else return []

/-- The legs of a line: quantity, cost of goods sold, revenue in two parts, and tax. -/
def customerReturnEvents (c : CustomerReturn) (docId : ℕ) (a : CustomerReturnAccounts)
    (currency : Currency) (l : CustomerReturnLine) : DocTx (List Event) := do
  let event := documentEvent .customerReturn c.businessDate docId l.id
  let qtyKey ← randomKey
  let cogsKey ← randomKey
  let unsettledKey ← randomKey
  let arKey ← randomKey
  let tax ← returnTaxEvents c docId l.id a currency l.taxAmount
  return [event a.qty a.customerQty l.qtyReturned (some l.qtyReturned) qtyKey,
      event a.value a.cogs (l.qtyReturned * l.unitCost) (some l.qtyReturned) cogsKey] ++
    (if 0 < l.qtyToArUnsettled then a.unsettled.toList.map fun u =>
      event a.revenue u (l.qtyToArUnsettled * l.unitPrice) none unsettledKey else []) ++
    (if 0 < l.qtyToAr then a.ar.toList.map fun r =>
      event a.revenue r (l.qtyToAr * l.unitPrice) none arKey else []) ++ tax

def customerReturnLine (c : CustomerReturn) (docId idx : ℕ) (i : CustomerReturnInput) :
    DocTx (List Event) := do
  let qty ← positiveQty i.qtyReturned .customerReturnInvalid
  let found ← findShipLine c i
  let s ← splitCustomerReturn docId found.1.soLineId qty
  let a ← customerReturnAccounts c i found.2 s (returnedTax found.1 qty)
  let id ← nextval
  exec (.customerReturnLine
    (customerReturnRow i found.1 qty (returnedTax found.1 qty) s id docId idx))
  customerReturnEvents c docId a found.2.currency
    (customerReturnRow i found.1 qty (returnedTax found.1 qty) s id docId idx)

/-- The loop over the lines, from line number `idx`. -/
def customerReturnLines (c : CustomerReturn) (docId : ℕ) :
    ℕ → List CustomerReturnInput → DocTx (List Event)
  | _, [] => return []
  | idx, i :: is => do
    let es ← customerReturnLine c docId idx i
    let rest ← customerReturnLines c docId (idx + 1) is
    return es ++ rest

def customerReturnBody (c : CustomerReturn) (docId : ℕ) : DocTx Unit := do
  let batch ← customerReturnLines c docId 1 c.lines
  let _ ← ledger (postPostingLines batch c.override)
  return ()

/-- `post_customer_return` -/
def postCustomerReturn (c : CustomerReturn) : DocTx ℕ :=
  unlessDocument .customerReturn c.key do
    let _ ← findRow (·.customer? c.customerId) .customerReturnInvalid
    ensure (c.lines ≠ []) .customerReturnInvalid
    withHeader .customerReturn c.key c.customerId c.businessDate (customerReturnBody c)

/-! ### To vendors -/

structure PoReturnInput where
  recvLineId : ℕ
  qtyReturned : Option ℤ
  deriving DecidableEq

/-- A call of `post_po_return`. -/
structure PoReturn where
  vendorId : ℕ
  lines : List PoReturnInput
  businessDate : Date
  key : ℕ
  override : Bool := false
  deriving DecidableEq

/-- The receipt line of a line, its order line, and the date of its receipt. It must belong to the
vendor, if its order names one. -/
def findRecvLine (i : PoReturnInput) : DocTx (ReceiptLine × PoLine × Date) := do
  let found ← findRow (fun d => do
    let rcl ← d.receiptLine? i.recvLineId
    let pol ← d.poLine? rcl.poLineId
    let pr ← d.headerById? rcl.receiptId
    let po ← d.purchaseOrder? pr.ownerId
    return ((rcl, pol, pr.businessDate), po)) .poReturnInvalid
  ensure (∀ x ∈ found.2.partyId, x = c.vendorId) .poReturnInvalid
  return found.1

/-- The order line is locked and the quantity split by what the other documents say. -/
def splitPoReturn (poLineId : ℕ) (qty : ℤ) : DocTx Split := do
  lockRow (.poLine poLineId) .update
  let received ← query (·.received poLineId)
  let billed ← query (·.billed poLineId)
  let prior ← query fun d =>
    (((d.poReturnsBut docId).map (PoReturnLine.toUnsettled poLineId)).sum,
      ((d.poReturnsBut docId).map (PoReturnLine.toAp poLineId)).sum)
  splitReturn received billed prior.1 prior.2 qty .poReturnOverreturned

/-- The unit value that leaves the stock, by the cost method at the receipt. -/
def returnUnit (rcl : ReceiptLine) (pol : PoLine) : DocTx ℤ :=
  match rcl.costMethod with
  | .standard => ledger (resolveStandardCostAt pol.skuId c.businessDate)
  | .wacPerpetual | .wacPeriodic | .wacRetroactive => return pol.unitCost
  | _ => .raise .costMethodNotImplemented

structure PoReturnAccounts where
  qty : Account
  value : Account
  vendorQty : Account
  unsettled : Option Account
  ap : Option Account
  variance : Option Account
  deriving DecidableEq

def returnVarianceKind (recvDate : Date) : DocTx AccountKind :=
  query fun d =>
    if (d.ledger.periods.find? (·.covers recvDate)).any (·.closed) then
      .variancePpvPriorPeriodAdj
    else .variancePpv

def poReturnAccounts (rcl : ReceiptLine) (pol : PoLine) (recvDate : Date) (unit : ℤ) (s : Split) :
    DocTx PoReturnAccounts := do
  let qty ← stockAccount .stockAvailable pol.skuId pol.locationId
  let value ← stockValueAccount .invValueRaw pol.skuId pol.locationId pol.currency
  let vendorQty ← openAccountOr
    (fun a => a.kind == .vendorPool && a.counterpartyId == some c.vendorId)
    (fun a => a.kind == .vendorPool && a.counterpartyId == none)
  let unsettled ← accountIf (0 < s.toUnsettled) (partyAccount .apUnsettled c.vendorId pol.currency)
  let ap ← accountIf (0 < s.toSettled) (partyAccount .ap c.vendorId pol.currency)
  let kind ← returnVarianceKind recvDate
  let variance ← accountIf (rcl.costMethod = .standard ∧ pol.unitCost ≠ unit)
    (currencyAccount kind pol.currency)
  return { qty, value, vendorQty, unsettled, ap, variance }

def poReturnRow (i : PoReturnInput) (rcl : ReceiptLine) (pol : PoLine) (qty : ℤ) (s : Split)
    (id docId idx : ℕ) : PoReturnLine where
  id := id
  returnId := docId
  lineNo := idx
  recvLineId := i.recvLineId
  poLineId := rcl.poLineId
  qtyReturned := qty
  unitCost := pol.unitCost
  qtyToApUnsettled := s.toUnsettled
  qtyToAp := s.toSettled

/-- The legs of one part of the split, against the vendor's account `party`: the variance on the
side its sign asks for, and the value that leaves the stock. -/
def returnPartEvents (lineId : ℕ) (value party : Account) (variance : Option Account)
    (part unit unitCost : ℤ) (ppvKey valueKey : Key) : List Event :=
  let ppv := part * unitCost - part * unit
  (if ppv = 0 then [] else variance.toList.map fun a =>
    if 0 < ppv then documentEvent .ppv c.businessDate docId lineId party a ppv none ppvKey
    else documentEvent .ppv c.businessDate docId lineId a party (-ppv) none ppvKey) ++
  if 0 < part * unit then
    [documentEvent .poReturnToVendor c.businessDate docId lineId party value (part * unit)
      (some part) valueKey]
  else []

/-- The legs of a line: quantity, and the two parts of the split. -/
def poReturnEvents (a : PoReturnAccounts) (unit : ℤ) (l : PoReturnLine) : DocTx (List Event) := do
  let qtyKey ← randomKey
  let ppvKey ← randomKey
  let valueKey ← randomKey
  let ppvKey' ← randomKey
  let valueKey' ← randomKey
  return documentEvent .poReturnToVendor c.businessDate docId l.id a.vendorQty a.qty l.qtyReturned
      (some l.qtyReturned) qtyKey ::
    (if 0 < l.qtyToApUnsettled then a.unsettled.toList.flatMap fun u =>
      returnPartEvents c docId l.id a.value u a.variance l.qtyToApUnsettled unit l.unitCost ppvKey
        valueKey else []) ++
    if 0 < l.qtyToAp then a.ap.toList.flatMap fun p =>
      returnPartEvents c docId l.id a.value p a.variance l.qtyToAp unit l.unitCost ppvKey' valueKey'
    else []

def poReturnLine (c : PoReturn) (docId idx : ℕ) (i : PoReturnInput) : DocTx (List Event) := do
  let qty ← positiveQty i.qtyReturned .poReturnInvalid
  let found ← findRecvLine c i
  let s ← splitPoReturn docId found.1.poLineId qty
  let unit ← returnUnit c found.1 found.2.1
  let a ← poReturnAccounts c found.1 found.2.1 found.2.2 unit s
  let id ← nextval
  exec (.poReturnLine (poReturnRow i found.1 found.2.1 qty s id docId idx))
  poReturnEvents c docId a unit (poReturnRow i found.1 found.2.1 qty s id docId idx)

/-- The loop over the lines, from line number `idx`. -/
def poReturnLines (c : PoReturn) (docId : ℕ) : ℕ → List PoReturnInput → DocTx (List Event)
  | _, [] => return []
  | idx, i :: is => do
    let es ← poReturnLine c docId idx i
    let rest ← poReturnLines c docId (idx + 1) is
    return es ++ rest

def poReturnBody : DocTx Unit := do
  let batch ← poReturnLines c docId 1 c.lines
  let _ ← ledger (postPostingLines batch c.override)
  return ()

/-- `post_po_return` -/
def postPoReturn : DocTx ℕ :=
  unlessDocument .poReturn c.key do
    let _ ← findRow (·.vendor? c.vendorId) .poReturnInvalid
    ensure (c.lines ≠ []) .poReturnInvalid
    withHeader .poReturn c.key c.vendorId c.businessDate (poReturnBody c)

end Acct.Main
