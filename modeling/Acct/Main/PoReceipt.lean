import Acct.Main.Documents

/-!
# Receiving a purchase order

`post_po_receipt`. The order line is locked before what it has received is summed. Under standard
cost the stock is valued at the standard and the difference to the order's price is a purchase price
variance. The receipt line's audit stamps of lot and units are left out.
-/

namespace Acct.Main

open Isolation Prog

variable (c : PoReceipt) (vendorId : ℕ) (pl : PoLine) (docId : ℕ) (i : ReceiptInput) (lineId : ℕ)
  (w : ReceiptDraft)

structure ReceiptInput where
  poLineId : ℕ
  qtyReceived : Option ℤ
  lotCode : Option String := none
  expirationDate : Option Date := none
  unitSerials : Option (List String) := none
  externalSerials : Option (List (Option String)) := none
  deriving DecidableEq

/-- A call of `post_po_receipt`. -/
structure PoReceipt where
  poId : ℕ
  lines : List ReceiptInput
  businessDate : Date
  key : ℕ
  deriving DecidableEq

/-- The order line of a line, locked, and its quantity, if that can still be received. -/
def checkReceiptLine : DocTx (PoLine × ℤ) := do
  let qty ← positiveQty i.qtyReceived .poReceiptInvalid
  lockRow (.poLine i.poLineId) .update
  let pl ← findRow (·.poLine? i.poLineId) .poReceiptInvalid
  ensure (pl.poId = c.poId) .poReceiptInvalid
  let already ← query (·.received i.poLineId)
  ensure (already + qty ≤ pl.qtyOrdered) .poLineOverreceived
  return (pl, qty)

/-- The product of a line, and what its cost method and tracking ask of the line. -/
def receiptSku (skuId : ℕ) (qty : ℤ) : DocTx Sku := do
  let sku ← findRow (·.ledger.sku? skuId) (.ledger .notNullViolation)
  ensure (sku.costMethod ≠ .lot) .costMethodNotImplemented
  ensure (sku.costMethod = .lotFifo → i.lotCode.getD "" ≠ "") .poReceiptInvalid
  ensure (i.unitSerials.isSome = true ∨ i.externalSerials.isSome = true →
    sku.trackedBy = .lotAndSerial) .unitsInvalid
  ensure (∀ us ∈ i.unitSerials, us.length = qty) .unitsInvalid
  ensure (∀ es ∈ i.externalSerials, es.length = qty) .unitsInvalid
  return sku

structure ReceiptAccounts where
  qty : Account
  value : Account
  vendorQty : Account
  unsettled : Account
  deriving DecidableEq

def receiptAccounts : DocTx ReceiptAccounts := do
  let qty ← stockAccount .stockAvailable pl.skuId pl.locationId
  let value ← stockValueAccount .invValueRaw pl.skuId pl.locationId pl.currency
  let vendorQty ← partyQtyAccount .vendorPool vendorId
  let unsettled ← partyAccount .apUnsettled vendorId pl.currency
  return { qty, value, vendorQty, unsettled }

/-- The value of a line and its purchase price variance. -/
def receiptValue (sku : Sku) (qty : ℤ) : DocTx (ℤ × ℤ) :=
  if sku.costMethod = .standard then do
    let std ← ledger (resolveStandardCostAt pl.skuId c.businessDate)
    return (qty * std, qty * (pl.unitCost - std))
  else return (qty * pl.unitCost, 0)

def receiptVarianceAccount (ppv : ℤ) : DocTx (Option Account) :=
  if ppv ≠ 0 then do
    let a ← currencyAccount .variancePpv pl.currency
    return some a
  else return none

/-- What else is found out of a line before its insert. -/
structure ReceiptDraft where
  sku : Sku
  accounts : ReceiptAccounts
  value : ℤ
  ppv : ℤ
  varianceAccount : Option Account
  deriving DecidableEq

def draftReceiptLine (pl : PoLine) (qty : ℤ) : DocTx ReceiptDraft := do
  let sku ← receiptSku i pl.skuId qty
  let accounts ← receiptAccounts vendorId pl
  let value ← receiptValue c pl sku qty
  let varianceAccount ← receiptVarianceAccount pl value.2
  return { sku, accounts, value := value.1, ppv := value.2, varianceAccount }

def ReceiptDraft.row (i : ReceiptInput) (qty : ℤ) (id docId : ℕ) : ReceiptLine :=
  ⟨id, docId, i.poLineId, qty, w.sku.costMethod⟩

def receiptEvent (reason : Reason) : ℕ → ℕ → Account → Account → ℤ → Option ℤ → Key → Event :=
  documentEvent reason c.businessDate

/-- The value leg, with what a lot and its units are made from. -/
def receiptValueEvent (i : ReceiptInput) (qty : ℤ) (key : Key) : Event :=
  let e := receiptEvent c .poReceipt docId lineId w.accounts.value w.accounts.unsettled w.value
    (some qty) key
  if w.sku.costMethod = .lotFifo then
    { e with
      lotCode := i.lotCode
      expirationDate := i.expirationDate
      unitSerials := i.unitSerials
      externalSerials := i.externalSerials }
  else e

/-- The variance leg, on the side its sign asks for. -/
def receiptVarianceEvent (key : Key) (a : Account) : Event :=
  if 0 < w.ppv then receiptEvent c .ppv docId lineId a w.accounts.unsettled w.ppv none key
  else receiptEvent c .ppv docId lineId w.accounts.unsettled a (-w.ppv) none key

/-- The legs of a line: quantity, value if there is any, and variance. -/
def receiptEvents (i : ReceiptInput) (qty : ℤ) : DocTx (List Event) := do
  let qtyKey ← randomKey
  let valueKey ← randomKey
  let ppvKey ← randomKey
  let a := w.accounts
  return receiptEvent c .poReceipt docId lineId a.qty a.vendorQty qty (some qty) qtyKey ::
    (if 0 < w.value then [receiptValueEvent c docId lineId w i qty valueKey] else []) ++
    w.varianceAccount.toList.map (receiptVarianceEvent c docId lineId w ppvKey)

def receiptLine (c : PoReceipt) (vendorId docId : ℕ) (i : ReceiptInput) : DocTx (List Event) := do
  let checked ← checkReceiptLine c i
  let w ← draftReceiptLine c vendorId i checked.1 checked.2
  let id ← nextval
  exec (.receiptLine (w.row i checked.2 id docId))
  receiptEvents c docId id w i checked.2

def receiptLines (c : PoReceipt) (vendorId docId : ℕ) : List ReceiptInput → DocTx (List Event)
  | [] => return []
  | i :: is => do
    let es ← receiptLine c vendorId docId i
    let rest ← receiptLines c vendorId docId is
    return es ++ rest

def receiptBody : DocTx Unit := do
  let batch ← receiptLines c vendorId docId c.lines
  let _ ← ledger (postPostingLines batch false)
  return ()

def receiptVendor (poId : ℕ) : DocTx ℕ := do
  let po ← findRow (·.purchaseOrder? poId) .poReceiptInvalid
  po.partyId.elim (.raise .poReceiptInvalid) pure

/-- `post_po_receipt` -/
def postPoReceipt : DocTx ℕ :=
  unlessDocument .poReceipt c.key do
    let vendorId ← receiptVendor c.poId
    ensure (c.lines ≠ []) .poReceiptInvalid
    withHeader .poReceipt c.key c.poId c.businessDate (receiptBody c vendorId)

end Acct.Main
