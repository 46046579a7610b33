import Acct.Main.Pricing

/-!
# Applying an event

`_post_posting_lines_apply_event`: the checks, the two totals, the line, and what the cost method
keeps beside it. The line's currency and inventory rows are never read by the functions here: what
is modelled of them is when their inserts fail (`currencyRow`, `inventoryRow`). Left out are the
sources, dimensions and movements, that the monthly partitions of a movement, a layer or a depletion
must exist, and that the standard cost a movement copies is a `NUMERIC(19, 4)`.
-/

namespace Acct.Main

open Isolation Prog

variable (e : Event) (idx lineId : ℕ) (amount : ℤ) (productId : ℕ) (qty : ℤ) (locationId : ℕ)
  (d c : Account)

/-- `amount / |qty|` as `NUMERIC(19, 4)`, in ten-thousandths. -/
def unitCostOf : ℤ := Rounding.roundHalfAway (amount * 10000) |qty|

/-- The unit cost of what comes in. Between quantity accounts it is NULL, and the insert of a layer
or a lot fails on it. -/
def receiptUnitCost : Tx ℤ :=
  if d.ledger.isValue then return unitCostOf amount qty else .raise .notNullViolation

/-- `_fifo_write_depletions` -/
def fifoWriteDepletions (qty : ℤ) (issueDate : Date) : Tx Unit := do
  let taken ← fifoWalkLayers productId locationId qty
  execAll (taken.map fun t =>
    .depletion ⟨t.id, issueDate, t.allocation, t.unitCost, t.costAmount, lineId⟩)

def lotWriteIssues (qty : ℤ) (date : Date) (lotId : Option ℕ) : Tx Unit := do
  let taken ← lotWalkLayers productId locationId qty lotId
  execAll (taken.map fun t => .lotEvent ⟨t.id, date, .issue, -t.allocation, lineId⟩)

/-- `lpad(s, n, c)`, which also cuts a text that is too long. -/
def lpad (s : String) (n : ℕ) (c : Char) : String :=
  if n ≤ s.length then String.ofList (s.toList.take n)
  else String.ofList (List.replicate (n - s.length) c) ++ s

/-- `<lot_code>-U<padded-seq>` -/
def autoSerial (lotCode : String) (seq : ℕ) : String := lotCode ++ "-U" ++ lpad (toString seq) 6 '0'

/-- The units of a receipt, each with its receipt event. -/
def createUnits (lineId lotId productId locationId : ℕ) (date : Date) :
    List (String × Option String) → Tx Unit
  | [] => return ()
  | (serialNo, externalSerialNo) :: rest => do
    let id ← nextval
    execAll [
      .unit {
        id, productId, lotId, serialNo, externalSerialNo, locationId
        receiptLineId := lineId },
      .unitEvent ⟨id, date, .receipt, some lineId, .available⟩]
    createUnits lineId lotId productId locationId date rest

/-- The serials of a receipt: those given, or generated ones. -/
def unitSerials (e : Event) (idx count : ℕ) (lotCode : String) : Tx (List String) :=
  match e.unitSerials with
  | some serials => do
    ensure (serials.length = count) (.serialCountMismatch idx)
    return serials
  | none => return (List.range count).map fun i => autoSerial lotCode (i + 1)

def externalSerials (e : Event) (idx count : ℕ) : Tx (List (Option String)) :=
  match e.externalSerials with
  | some serials => do
    ensure (serials.length = count) (.externalCountMismatch idx)
    return serials
  | none => return List.replicate count none

/-- `_lot_create_from_event`: the new lot and its code. -/
def lotCreateFromEvent (qty unitCost : ℤ) : Tx (ℕ × String) :=
  match e.lotCode with
  | none => .raise (.lotCodeRequired idx)
  | some code => do
    ensure (code ≠ "") (.lotCodeRequired idx)
    let id ← nextval
    exec (.lot {
      id, productId, locationId, lotCode := code, receiptLineId := lineId
      receiptDate := e.businessDate, originalQuantity := qty, unitCost
      expirationDate := e.expirationDate })
    return (id, code)

/-- The product and location of an account with layers or lots. -/
def stocked? (a : Account) : Option (ℕ × ℕ) :=
  if a.kind.isStocked then
    match a.skuId, a.locationId with
    | some sku, some location => some (sku, location)
    | _, _ => none
  else none

/-- A layer for what comes in. -/
def fifoReceive : Tx Unit :=
  match stocked? d with
  | none => return ()
  | some (productId, locationId) => do
    let unitCost ← receiptUnitCost amount qty d
    let id ← nextval
    exec (.layer {
      id, productId, locationId, receiptLineId := lineId, receiptDate := e.businessDate
      originalQuantity := |qty|, unitCost })

def fifoIssue : Tx Unit :=
  match stocked? c with
  | none => return ()
  | some (productId, locationId) =>
    fifoWriteDepletions lineId productId locationId |qty| e.businessDate

def fifoBlock : Tx Unit := do
  fifoReceive e lineId amount qty d
  fifoIssue e lineId qty c

def receiveUnits (lotId productId locationId count : ℕ) (code : String) (tracking : Tracking) :
    Tx Unit :=
  if tracking = .lotAndSerial then do
    let serials ← unitSerials e idx count code
    let externals ← externalSerials e idx count
    createUnits lineId lotId productId locationId e.businessDate (serials.zip externals)
  else return ()

def lotReceive (tracking : Tracking) (d : Account) : Tx Unit :=
  match stocked? d with
  | none => return ()
  | some (productId, locationId) => do
    let unitCost ← receiptUnitCost amount qty d
    let lot ← lotCreateFromEvent e idx lineId productId locationId |qty| unitCost
    receiveUnits e idx lineId lot.1 productId locationId qty.natAbs lot.2 tracking

def lotIssue : Tx Unit :=
  match stocked? c with
  | none => return ()
  | some (productId, locationId) =>
    lotWriteIssues lineId productId locationId |qty| e.businessDate e.lotId

def lotBlock (tracking : Tracking) (d c : Account) : Tx Unit := do
  ensure (¬ (d.kind.isStocked = true ∧ c.kind.isStocked = true ∧
    d.skuId.isSome = true ∧ c.skuId.isSome = true)) (.lotTransferNotImplemented idx)
  lotReceive e idx lineId amount qty tracking d
  lotIssue e lineId qty c

def blocksFor (s : Sku) : Tx Unit :=
  if qty = 0 then return ()
  else if s.costMethod = .fifo then fifoBlock e lineId amount qty d c
  else if s.costMethod = .lotFifo ∧ e.reason ≠ .lotTransfer then
    lotBlock e idx lineId amount qty s.trackedBy d c
  else return ()

/-- The latest rate from `currency` into `functional` as of `date`. -/
def Db.fxRate? (db : Db) (currency functional : Currency) (date : Date) : Option ℤ :=
  ((db.fxRates.filter fun r => r.fromCurrency == currency && r.toCurrency == functional &&
    r.effectiveAt ≤ date).insertionSort fun a b => b.effectiveAt ≤ a.effectiveAt).head?.map (·.rate)

/-- Whether the line's row in `posting_line_currencies` can be written. Only a credit account that
is not in the functional currency of its legal entity has one. -/
def Db.currencyRow (db : Db) (c : Account) (date : Date) : Except Err Unit :=
  match c.ledger, db.entities.find? (·.id == c.legalEntityId) with
  | .value currency, some entity =>
    if currency = entity.functionalCurrency then .ok ()
    else match db.fxRate? currency entity.functionalCurrency date with
      | none => .error .missingFxRate
      | some rate => Write.require (0 < rate) .checkViolation
  | _, _ => .ok ()

/-- What the line's row in `posting_line_inventory` demands: a unit cost, which only value lines
have, within `NUMERIC(19, 4)`, and a positive quantity within `NUMERIC(19, 6)`. -/
def inventoryRow : Tx Unit := do
  ensure (d.ledger.isValue = true → unitCostOf amount qty < 10 ^ 19) .numericOutOfRange
  ensure (|qty| < 10 ^ 13) .numericOutOfRange
  ensure (qty ≠ 0) .checkViolation

/-- The inventory row and the blocks of a line with a quantity and a product. -/
def stockBlocks (qty : Option ℤ) (d c : Account) : Tx Unit :=
  match qty, costSku (some d) (some c) with
  | some qty, some sku => do
    inventoryRow amount qty d
    let row ← query (·.sku? sku)
    row.elim (pure ()) (blocksFor e idx lineId amount qty d c)
  | _, _ => return ()

/-- The cost method the caller priced under, or else the product's. -/
def resolveMethod (method : Option CostMethod) (d c : Account) : Tx (Option CostMethod) :=
  match method with
  | some m => return some m
  | none => query fun db => ((costSku (some d) (some c)).bind db.sku?).map (·.costMethod)

def flagLine (periodId : ℕ) : Option CostMethod → Tx Unit
  | some .wacPeriodic => exec (.flag ⟨lineId, periodId, .wacPeriodic, e.qty, none⟩)
  | some .wacRetroactive => exec (.flag ⟨lineId, periodId, .wacRetroactive, e.qty, none⟩)
  | _ => return ()

/-- Flags a value line that a period-end method has yet to finalize. -/
def flagProvisional (periodId : ℕ) (method : Option CostMethod) (d c : Account) : Tx Unit :=
  if e.reason.isProvisional = true ∧ d.ledger.isValue = true then
    resolveMethod method d c >>= flagLine e lineId periodId
  else return ()

/-- The period an event falls in. The row is read and not locked. -/
def periodFor (override : Bool) : Tx Period := do
  let p ← fetch fun db =>
    match db.periods.find? (·.covers e.businessDate) with
    | some p => .ok p
    | none => .error (.periodMissing idx)
  ensure (p.closed = true → override = true) (.periodClosed idx)
  return p

/-- The quantity on the line: the event's, or the amount between two quantity accounts. -/
def qtyForRow : Option ℤ :=
  e.qty.or (if d.ledger = .qty ∧ c.ledger = .qty then some amount else none)

def Event.toLine (id : ℕ) (amount : ℤ) (qty : Option ℤ) (d c : Account) (periodId : ℕ) :
    PostingLine where
  id := id
  reason := e.reason
  documentId := e.documentId
  documentLineId := e.documentLineId
  debitAccountId := d.id
  creditAccountId := c.id
  amount := amount
  qty := qty
  periodId := periodId
  businessDate := e.businessDate
  key := e.key
  postedAt := id

/-- The event between two accounts that exist, for an amount that is not NULL. -/
def applyChecked (method : Option CostMethod) (override : Bool) : Tx ℕ := do
  ensure (d.ledger.isValue = c.ledger.isValue) (.ledgerMismatch idx)
  ensure (d.ledger = c.ledger) (.currencyMismatch idx)
  let period ← periodFor e idx override
  exec (.debit d.id amount)
  exec (.credit c.id amount)
  let id ← nextval
  exec (.line (e.toLine id amount (qtyForRow e amount d c) d c period.id))
  flagProvisional e id period.id method d c
  fetch (·.currencyRow c e.businessDate)
  stockBlocks e idx id amount (qtyForRow e amount d c) d c
  return id

/-- `_post_posting_lines_apply_event`. With an account or the amount missing, the insert of the line
or a total's update fails on the NULL. -/
def applyEvent (amount : Option ℤ) (d c : Option Account) (method : Option CostMethod)
    (override : Bool) : Tx ℕ := do
  ensure (d.any (·.isClosed) = false ∧ c.any (·.isClosed) = false) (.accountClosed idx)
  match d, c, amount with
  | some d, some c, some amount => applyChecked e idx amount d c method override
  | _, _, _ => .raise .notNullViolation

end Acct.Main
