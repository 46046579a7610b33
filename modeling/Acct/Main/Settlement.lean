import Acct.Main.Documents

/-!
# Invoices and bills

`post_customer_invoice` and `post_ap_bill`: the three-way match with the order's price and with what
was shipped or received and not yet settled. A bill locks each order line before it sums. An invoice
reads its three sums once, before it locks any line, and keeps count of what it invoices itself. A
NULL among the numbers of a line fails at the latest at the CHECK of its insert.
-/

namespace Acct.Main

open Isolation Prog

/-! ### The price -/

/-- `ABS(price - base) * 100.0 / base` as `NUMERIC(10, 4)`, in ten-thousandths of a percent. -/
def diffPct (price base : ℤ) : ℤ := Rounding.roundHalfAway (|price - base| * 1000000) base

def WithinTolerance (tolerance price base : ℤ) : Prop :=
  price = base ∨ tolerance ≠ 0 ∧ base ≠ 0 ∧ diffPct price base ≤ tolerance * 100
  deriving Decidable

/-- The leg for the difference to the base price, between the party's account and the tolerance
variance: an invoice debits the party for more, a bill credits it. -/
def toleranceEvents (reason : Reason) (date : Date) (docId lineId : ℕ) (party : Account)
    (partyDebit : Bool) (currency : Currency) (diff : ℤ) : DocTx (List Event) :=
  if diff = 0 then return []
  else do
    let variance ← currencyAccount .varianceMatchTolerance currency
    let key ← randomKey
    return [
      if (0 < diff) = (partyDebit = true) then
        documentEvent reason date docId lineId party variance |diff| none key
      else documentEvent reason date docId lineId variance party |diff| none key]

def namedAccount (id : ℕ) (currency : Currency) (e : DocErr) : DocTx Account := do
  let a ← findRow (·.ledger.account? id) e
  ensure (a.isClosed = false) e
  ensure (a.ledger.isValue = true) e
  ensure (a.ledger = .value currency) e
  return a

/-! ### Invoices -/

structure InvoiceInput where
  item : InvoiceItem
  amount : ℤ
  taxAmount : Option ℤ := none
  deriving DecidableEq

/-- A call of `post_customer_invoice`. -/
structure CustomerInvoice where
  customerId : ℕ
  currency : Currency
  lines : List InvoiceInput
  businessDate : Date
  key : ℕ
  deriving DecidableEq

/-- The sums of the order lines, as read before the first line. -/
structure Aggregates where
  shipped : ℕ → ℤ
  invoiced : ℕ → ℤ
  returned : ℕ → ℤ

def readAggregates : DocTx Aggregates := do
  let shipped ← query DocDb.shipped
  let invoiced ← query DocDb.invoiced
  let returned ← query DocDb.returnedToArUnsettled
  return { shipped, invoiced, returned }

/-- `v_inflight_invoiced` after a line. -/
def InvoiceItem.addTo (inflight : ℕ → ℤ) : InvoiceItem → ℕ → ℤ
  | .soMatch soLineId qty _, id => if id = soLineId then inflight id + qty else inflight id
  | .service _, id => inflight id

structure InvoiceContext where
  call : CustomerInvoice
  docId : ℕ
  tolerance : ℤ
  ar : Account
  sums : Aggregates

def checkInvoiceMatch (x : InvoiceContext) (inflight : ℕ → ℤ) (amount : ℤ) (soLineId : ℕ)
    (qty unitPrice : ℤ) : DocTx SoLine := do
  lockRow (.soLine soLineId) .update
  let sl ← findRow (·.soLine? soLineId) .customerInvoiceInvalidLine
  let so ← findRow (·.salesOrder? sl.soId) .customerInvoiceInvalidLine
  ensure (so.partyId = some x.call.customerId) .customerInvoiceInvalidLine
  ensure (sl.currency = x.call.currency) .customerInvoiceInvalidLine
  ensure (WithinTolerance x.tolerance unitPrice sl.unitPrice) .customerInvoiceThreeWayMismatch
  ensure (amount = qty * unitPrice) .customerInvoiceThreeWayMismatch
  ensure (qty ≤ x.sums.shipped soLineId - (x.sums.invoiced soLineId + inflight soLineId) -
    x.sums.returned soLineId) .customerInvoiceThreeWayMismatch
  return sl

def invoiceMatchEvents (x : InvoiceContext) (unsettled : Account) (lineId : ℕ) (amount qty : ℤ)
    (sl : SoLine) : DocTx (List Event) := do
  let key ← randomKey
  let rest ← toleranceEvents .arInvoice x.call.businessDate x.docId lineId x.ar true x.call.currency
    (amount - qty * sl.unitPrice)
  return documentEvent .arInvoice x.call.businessDate x.docId lineId x.ar unsettled
    (qty * sl.unitPrice) none key :: rest

def invoiceTaxEvents (x : InvoiceContext) (lineId : ℕ) (tax : ℤ) : DocTx (List Event) :=
  if 0 < tax then do
    let account ← currencyAccount .salesTaxPayable x.call.currency
    let key ← randomKey
    return [documentEvent .arInvoice x.call.businessDate x.docId lineId x.ar account tax none key]
  else return []

def InvoiceInput.row (i : InvoiceInput) (id docId idx : ℕ) : InvoiceLine :=
  ⟨id, docId, idx, i.item, i.amount, i.taxAmount.getD 0⟩

def invoiceLine (x : InvoiceContext) (inflight : ℕ → ℤ) (idx : ℕ) (i : InvoiceInput) :
    DocTx (List Event) :=
  match i.item with
  | .soMatch soLineId qty unitPrice => do
    let sl ← checkInvoiceMatch x inflight i.amount soLineId qty unitPrice
    let unsettled ← partyAccount .arUnsettled x.call.customerId x.call.currency
    let id ← nextval
    exec (.invoiceLine (i.row id x.docId idx))
    invoiceMatchEvents x unsettled id i.amount qty sl
  | .service accountId => do
    let revenue ← namedAccount accountId x.call.currency .customerInvoiceInvalidLine
    let id ← nextval
    exec (.invoiceLine (i.row id x.docId idx))
    let key ← randomKey
    let tax ← invoiceTaxEvents x id (i.taxAmount.getD 0)
    return documentEvent .arInvoice x.call.businessDate x.docId id x.ar revenue i.amount none key ::
      tax

/-- The loop over the lines, from line number `idx`. -/
def invoiceLines (x : InvoiceContext) : (ℕ → ℤ) → ℕ → List InvoiceInput → DocTx (List Event)
  | _, _, [] => return []
  | inflight, idx, i :: is => do
    let es ← invoiceLine x inflight idx i
    let rest ← invoiceLines x (i.item.addTo inflight) (idx + 1) is
    return es ++ rest

def invoiceBody (c : CustomerInvoice) (tolerance : ℤ) (ar : Account) (docId : ℕ) : DocTx Unit := do
  let sums ← readAggregates
  let batch ← invoiceLines ⟨c, docId, tolerance, ar, sums⟩ (fun _ => 0) 1 c.lines
  let _ ← ledger (postPostingLines batch false)
  return ()

/-- `post_customer_invoice` -/
def postCustomerInvoice (c : CustomerInvoice) : DocTx ℕ :=
  unlessDocument .customerInvoice c.key do
    let customer ← findRow (·.customer? c.customerId) .customerInvoiceInvalidLine
    ensure (c.lines ≠ []) .customerInvoiceInvalidLine
    let ar ← partyAccount .ar c.customerId c.currency
    withHeader .customerInvoice c.key c.customerId c.businessDate
      (invoiceBody c customer.tolerance ar)

/-! ### Bills -/

structure BillInput where
  item : BillItem
  amount : ℤ
  deriving DecidableEq

/-- A call of `post_ap_bill`. -/
structure ApBill where
  vendorId : ℕ
  currency : Currency
  lines : List BillInput
  businessDate : Date
  key : ℕ
  deriving DecidableEq

structure BillContext where
  call : ApBill
  docId : ℕ
  tolerance : ℤ
  ap : Account

def checkBillMatch (x : BillContext) (amount : ℤ) (poLineId : ℕ) (qty unitCost : ℤ) :
    DocTx PoLine := do
  lockRow (.poLine poLineId) .update
  let pl ← findRow (·.poLine? poLineId) .apBillInvalidLine
  let po ← findRow (·.purchaseOrder? pl.poId) .apBillInvalidLine
  ensure (po.partyId = some x.call.vendorId) .apBillInvalidLine
  ensure (pl.currency = x.call.currency) .apBillInvalidLine
  ensure (WithinTolerance x.tolerance unitCost pl.unitCost) .apBillThreeWayMismatch
  ensure (amount = qty * unitCost) .apBillThreeWayMismatch
  let received ← query (·.received poLineId)
  let billed ← query (·.billed poLineId)
  let returned ← query (·.returnedToApUnsettled poLineId)
  ensure (qty ≤ received - billed - returned) .apBillThreeWayMismatch
  return pl

def DocDb.disposalBilled (d : DocDb) (eventId byProductNo : ℕ) : ℤ :=
  (d.billLines.map fun l =>
    match l.item with
    | .disposalMatch e n qty _ => if e = eventId ∧ n = byProductNo then qty else 0
    | _ => 0).sum

/-- The accrued unit value of a by-product's disposal, if the line matches it. -/
def checkBillDisposal (x : BillContext) (amount : ℤ) (eventId byProductNo : ℕ) (qty unitCost : ℤ) :
    DocTx ℤ := do
  let event ← findRow (fun d => d.woEvents.find? (·.id == eventId)) .apBillInvalidLine
  ensure (event.currency = x.call.currency) .apBillInvalidLine
  lockRow (.woByProduct event.woId byProductNo) .update
  let bp ← findRow (fun d => d.woByProducts.find? fun b =>
    b.woId == event.woId && b.byProductNo == byProductNo) .apBillInvalidLine
  ensure (bp.disposal = true) .apBillInvalidLine
  ensure (bp.disposalVendorId = some x.call.vendorId) .apBillInvalidLine
  ensure (WithinTolerance x.tolerance unitCost |bp.unitValue|) .apBillThreeWayMismatch
  ensure (amount = qty * unitCost) .apBillThreeWayMismatch
  let billed ← query (·.disposalBilled eventId byProductNo)
  ensure (qty ≤ bp.actualQty - billed) .apBillThreeWayMismatch
  return |bp.unitValue|

def billMatchEvents (x : BillContext) (accrual : Account) (lineId : ℕ) (amount atBase : ℤ) :
    DocTx (List Event) := do
  let key ← randomKey
  let rest ← toleranceEvents .apBill x.call.businessDate x.docId lineId x.ap false x.call.currency
    (amount - atBase)
  return documentEvent .apBill x.call.businessDate x.docId lineId accrual x.ap atBase none key
    :: rest

def BillInput.row (i : BillInput) (id docId idx : ℕ) : BillLine :=
  ⟨id, docId, idx, i.item, i.amount⟩

def billLine (x : BillContext) (idx : ℕ) (i : BillInput) : DocTx (List Event) :=
  match i.item with
  | .poMatch poLineId qty unitCost => do
    let pl ← checkBillMatch x i.amount poLineId qty unitCost
    let unsettled ← partyAccount .apUnsettled x.call.vendorId x.call.currency
    let id ← nextval
    exec (.billLine (i.row id x.docId idx))
    billMatchEvents x unsettled id i.amount (qty * pl.unitCost)
  | .service accountId => do
    let expense ← namedAccount accountId x.call.currency .apBillInvalidLine
    let id ← nextval
    exec (.billLine (i.row id x.docId idx))
    let key ← randomKey
    return [documentEvent .apBill x.call.businessDate x.docId id expense x.ap i.amount none key]
  | .disposalMatch eventId byProductNo qty unitCost => do
    let accrued ← checkBillDisposal x i.amount eventId byProductNo qty unitCost
    let liability ← partyAccount .accruedDisposalLiability x.call.vendorId x.call.currency
    let id ← nextval
    exec (.billLine (i.row id x.docId idx))
    billMatchEvents x liability id i.amount (qty * accrued)

/-- The loop over the lines, from line number `idx`. -/
def billLines (x : BillContext) : ℕ → List BillInput → DocTx (List Event)
  | _, [] => return []
  | idx, i :: is => do
    let es ← billLine x idx i
    let rest ← billLines x (idx + 1) is
    return es ++ rest

def billBody (c : ApBill) (tolerance : ℤ) (ap : Account) (docId : ℕ) : DocTx Unit := do
  let batch ← billLines ⟨c, docId, tolerance, ap⟩ 1 c.lines
  let _ ← ledger (postPostingLines batch false)
  return ()

/-- `post_ap_bill` -/
def postApBill (c : ApBill) : DocTx ℕ :=
  unlessDocument .vendorBill c.key do
    let vendor ← findRow (·.vendor? c.vendorId) .apBillInvalidLine
    ensure (c.lines ≠ []) .apBillInvalidLine
    let ap ← partyAccount .ap c.vendorId c.currency
    withHeader .vendorBill c.key c.vendorId c.businessDate (billBody c vendor.tolerance ap)

end Acct.Main
