import Mathlib.Data.Int.Notation
import Acct.Isolation.Program

/-!
# The main schema

The tables of `db/migrations` that posting, costing and period close read and write, the writes they
make, and what the database enforces of each: CHECK and UNIQUE constraints, foreign keys, and row
locks. Ids and UUIDs are natural numbers, dates are day numbers, amounts and quantities are
integers, `NUMERIC(19, 4)` unit costs integers in ten-thousandths.
-/

namespace Acct.Main

open Isolation

abbrev Date := ℤ

/-- A `CHAR(3)` currency code. -/
abbrev Currency := ℕ

/-! ### Enumerations -/

/-- `ledger_kind` and `currency`: value accounts have a currency, quantity accounts have none. -/
inductive Ledger
  | qty
  | value (currency : Currency)
  deriving DecidableEq

def Ledger.isValue : Ledger → Bool
  | .qty => false
  | .value _ => true

/-- `balance_direction` -/
inductive NormalSide
  | debit
  | credit
  | unrestricted
  deriving DecidableEq

/-- `account_kind`, as far as the functions tell kinds apart. -/
inductive AccountKind
  | stockAvailable
  | stockConsumed
  | stockWip
  | vendorPool
  | customerPool
  | invValueRaw
  | invValueWip
  | invValueFg
  | cogs
  | apUnsettled
  | arUnsettled
  | revenue
  | salesTaxPayable
  | variancePpv
  | laborApplied
  | ohApplied
  | absorptionPool
  | other (code : ℕ)
  deriving DecidableEq

/-- `inv_value_raw` or `inv_value_fg`: the kinds with layers and lots. -/
def AccountKind.isStocked : AccountKind → Bool
  | .invValueRaw | .invValueFg => true
  | _ => false

/-- `posting_line_reason`, as far as the functions tell reasons apart. -/
inductive Reason
  | poReceipt
  | soShip
  | rmIssueToWo
  | opMove
  | opMoveV
  | woComplete
  | woCompleteV
  | scrap
  | scrapV
  | ppv
  | lotTransfer
  | laborApply
  | ohApply
  | burdenApply
  | lotChargeApply
  | other (code : ℕ)
  deriving DecidableEq

def Reason.isCost : Reason → Bool
  | .opMove | .scrap | .woComplete | .soShip => true
  | _ => false

/-- The reasons whose value legs are provisional under a period-end method. -/
def Reason.isProvisional : Reason → Bool
  | .opMove | .scrap | .woComplete | .soShip | .opMoveV | .scrapV | .woCompleteV | .rmIssueToWo =>
    true
  | _ => false

/-- `skus.cost_method` -/
inductive CostMethod
  | standard
  | wacPerpetual
  | wacPeriodic
  | wacRetroactive
  | fifo
  | lot
  | lotFifo
  deriving DecidableEq

def CostMethod.isWac : CostMethod → Bool
  | .wacPerpetual | .wacPeriodic | .wacRetroactive => true
  | _ => false

/-- `inventory_tracking` -/
inductive Tracking
  | none
  | lot
  | serial
  | lotAndSerial
  deriving DecidableEq

/-- `allocation_strategy` -/
inductive Allocation
  | fifo
  | fefo
  deriving DecidableEq

/-- `inventory_unit_status` -/
inductive UnitStatus
  | available
  | reserved
  | allocated
  | shipped
  | consumed
  | transferredOut
  | scrapped
  | lost
  | onHold
  | returned
  deriving DecidableEq

/-- The statuses that hold the serial in the partial unique indexes. -/
def UnitStatus.isActive : UnitStatus → Bool
  | .available | .reserved | .allocated | .onHold | .returned => true
  | _ => false

/-- Idempotency keys: the caller's, and those of `gen_random_uuid()`. -/
inductive Key
  | given (n : ℕ)
  | random (n : ℕ)
  deriving DecidableEq

/-! ### Rows -/

structure Sku where
  id : ℕ
  costMethod : CostMethod
  trackedBy : Tracking := .none
  allocation : Allocation := .fifo
  deriving DecidableEq

structure Period where
  id : ℕ
  opensAt : Date
  closesAt : Date
  /-- `closed_at` is set. -/
  closed : Bool := false
  deriving DecidableEq

def Period.covers (p : Period) (d : Date) : Bool := p.opensAt ≤ d && d ≤ p.closesAt

structure StandardCost where
  skuId : ℕ
  cost : ℤ
  effectiveAt : Date
  deriving DecidableEq

/-- `accounts` -/
structure Account where
  id : ℕ
  kind : AccountKind
  ledger : Ledger
  skuId : Option ℕ := none
  locationId : Option ℕ := none
  routingOp : Option ℤ := none
  counterpartyId : Option ℕ := none
  normalSide : NormalSide := .unrestricted
  debitsTotal : ℤ := 0
  creditsTotal : ℤ := 0
  isClosed : Bool := false
  legalEntityId : ℕ := 1
  deriving DecidableEq

def Account.balance (a : Account) : ℤ := a.debitsTotal - a.creditsTotal

/-- The CHECKs on the totals: non-negative, and on the normal side. -/
def Account.Valid (a : Account) : Prop :=
  0 ≤ a.debitsTotal ∧ 0 ≤ a.creditsTotal ∧
    (a.normalSide = .debit → a.creditsTotal ≤ a.debitsTotal) ∧
    (a.normalSide = .credit → a.debitsTotal ≤ a.creditsTotal)
  deriving Decidable

/-- The greatest `BIGINT`. -/
def maxBigint : ℤ := 9223372036854775807

/-- The totals are `BIGINT`s. What is below the least one is negative, and no `Valid` total. -/
def Account.Fits (a : Account) : Prop :=
  a.debitsTotal ≤ maxBigint ∧ a.creditsTotal ≤ maxBigint
  deriving Decidable

def Account.debited (a : Account) (amount : ℤ) : Account :=
  { a with debitsTotal := a.debitsTotal + amount }

def Account.credited (a : Account) (amount : ℤ) : Account :=
  { a with creditsTotal := a.creditsTotal + amount }

/-- `posting_lines` -/
structure PostingLine where
  id : ℕ
  reason : Reason
  documentId : ℕ
  documentLineId : Option ℕ := none
  debitAccountId : ℕ
  creditAccountId : ℕ
  amount : ℤ
  qty : Option ℤ
  periodId : ℕ
  businessDate : Date
  key : Key
  postedAt : ℕ
  deriving DecidableEq

structure Finalization where
  variance : ℤ
  /-- `variance_posting_line_id` -/
  lineId : Option ℕ
  deriving DecidableEq

/-- `posting_lines_provisional` -/
structure Provisional where
  lineId : ℕ
  periodId : ℕ
  costMethod : CostMethod
  qty : Option ℤ
  /-- Set with `finalized_at`. -/
  final : Option Finalization := none
  deriving DecidableEq

structure CostLayer where
  id : ℕ
  productId : ℕ
  locationId : ℕ
  receiptLineId : ℕ
  receiptDate : Date
  originalQuantity : ℤ
  unitCost : ℤ
  deriving DecidableEq

/-- `cost_layer_depletions` -/
structure Depletion where
  layerId : ℕ
  issueDate : Date
  quantity : ℤ
  unitCost : ℤ
  costAmount : ℤ
  lineId : ℕ
  deriving DecidableEq

/-- `inventory_lots` -/
structure Lot where
  id : ℕ
  productId : ℕ
  locationId : ℕ
  lotCode : String
  receiptLineId : ℕ
  receiptDate : Date
  originalQuantity : ℤ
  unitCost : ℤ
  expirationDate : Option Date := none
  deriving DecidableEq

/-- The event types of `inventory_lot_events` that the functions write. -/
inductive LotEventType
  | issue
  | adjustOut
  deriving DecidableEq

/-- `inventory_lot_events` -/
structure LotEvent where
  lotId : ℕ
  eventDate : Date
  eventType : LotEventType
  quantityChange : ℤ
  lineId : ℕ
  deriving DecidableEq

structure InventoryUnit where
  id : ℕ
  productId : ℕ
  lotId : ℕ
  serialNo : String
  externalSerialNo : Option String := none
  status : UnitStatus := .available
  locationId : ℕ
  receiptLineId : ℕ
  deriving DecidableEq

/-- The event types of `inventory_unit_events` that the functions write. -/
inductive UnitEventType
  | receipt
  | issue
  | transfer
  deriving DecidableEq

/-- `inventory_unit_events` -/
structure UnitEvent where
  unitId : ℕ
  eventDate : Date
  eventType : UnitEventType
  lineId : Option ℕ
  newStatus : UnitStatus
  deriving DecidableEq

/-- `wo_unit_consumption`, keyed by the event and the unit. -/
structure WoUnit where
  eventId : ℕ
  unitId : ℕ
  deriving DecidableEq

/-- `legal_entities` -/
structure LegalEntity where
  id : ℕ
  functionalCurrency : Currency
  deriving DecidableEq

/-- `fx_rates`; `rate` is `NUMERIC(20, 10)`, in units of the tenth decimal. -/
structure FxRate where
  fromCurrency : Currency
  toCurrency : Currency
  rate : ℤ
  effectiveAt : Date
  deriving DecidableEq

/-- The tables. -/
structure Db where
  skus : List Sku := []
  periods : List Period := []
  standardCosts : List StandardCost := []
  accounts : List Account := []
  lines : List PostingLine := []
  provisional : List Provisional := []
  layers : List CostLayer := []
  depletions : List Depletion := []
  lots : List Lot := []
  lotEvents : List LotEvent := []
  units : List InventoryUnit := []
  unitEvents : List UnitEvent := []
  woUnits : List WoUnit := []
  entities : List LegalEntity := []
  fxRates : List FxRate := []
  deriving DecidableEq

def Db.account? (db : Db) (id : ℕ) : Option Account := db.accounts.find? (·.id == id)

def Db.sku? (db : Db) (id : ℕ) : Option Sku := db.skus.find? (·.id == id)

def Db.period? (db : Db) (id : ℕ) : Option Period := db.periods.find? (·.id == id)

def Db.posted (db : Db) (key : Key) : Bool := db.lines.any (·.key == key)

/-! ### Errors -/

/-- The exceptions raised, by their message, with the event index it names, and the violations the
database reports itself. -/
inductive Err
  /-- P0001 -/
  | accountClosed (idx : ℕ)
  /-- P0002 -/
  | ledgerMismatch (idx : ℕ)
  /-- P0003 -/
  | currencyMismatch (idx : ℕ)
  /-- P0004 -/
  | periodMissing (idx : ℕ)
  /-- P0005 -/
  | periodClosed (idx : ℕ)
  /-- P0006, `cost_method_not_implemented` and what the strategies require -/
  | costMethodNotImplemented (idx : ℕ)
  | qtyBalance (idx : ℕ)
  | layersExhausted
  | lotResidualShort
  | unitsShort
  | walkInvalidQty
  | lotTransferNotImplemented (idx : ℕ)
  | lotCodeRequired (idx : ℕ)
  | serialCountMismatch (idx : ℕ)
  | externalCountMismatch (idx : ℕ)
  /-- P0010 -/
  | accountMissing
  | wacPoolQtyZero
  | consumptionWriteback
  /-- P0018 -/
  | standardCostNotEstablished
  /-- P0026 -/
  | woInvalid
  /-- P0050 -/
  | missingFxRate
  /-- 22003 -/
  | numericOutOfRange
  | checkViolation
  | uniqueViolation
  | foreignKeyViolation
  | notNullViolation
  deriving DecidableEq

/-! ### Writes -/

/-- The writes of the posting functions. -/
inductive Write
  /-- `UPDATE accounts SET debits_total = debits_total + amount` -/
  | debit (accountId : ℕ) (amount : ℤ)
  /-- `UPDATE accounts SET credits_total = credits_total + amount` -/
  | credit (accountId : ℕ) (amount : ℤ)
  | line (l : PostingLine)
  | flag (p : Provisional)
  | finalize (lineId : ℕ) (f : Finalization)
  | layer (l : CostLayer)
  | depletion (d : Depletion)
  | lot (l : Lot)
  | lotEvent (e : LotEvent)
  | unit (u : InventoryUnit)
  | unitEvent (e : UnitEvent)
  /-- `UPDATE inventory_units SET status` -/
  | setUnit (id : ℕ) (status : UnitStatus)
  | woUnit (u : WoUnit)
  /-- `UPDATE periods SET closed_at` -/
  | closePeriod (id : ℕ)
  deriving DecidableEq

/-- What locks are taken on. A key or a serial stands for its entry in a unique index, on which a
second insert waits for the first. -/
inductive Row
  | account (id : ℕ)
  | period (id : ℕ)
  | key (k : Key)
  | provisional (lineId : ℕ)
  | layer (id : ℕ)
  | lot (id : ℕ)
  | unit (id : ℕ)
  | woUnit (eventId unitId : ℕ)
  | lotCode (productId : ℕ) (code : String) (receiptDate : Date)
  | serial (productId : ℕ) (serialNo : String)
  | externalSerial (productId : ℕ) (serialNo : String)
  deriving DecidableEq

namespace Write

/-- The row with id `i` under `id`, replaced by `f` of it. -/
def update {α : Type} (id : α → ℕ) (i : ℕ) (f : α → α) (rows : List α) : List α :=
  rows.map fun r => if id r = i then f r else r

def apply : Write → Db → Db
  | .debit i a, db => { db with accounts := update Account.id i (·.debited a) db.accounts }
  | .credit i a, db => { db with accounts := update Account.id i (·.credited a) db.accounts }
  | .line l, db => { db with lines := db.lines ++ [l] }
  | .flag p, db => { db with provisional := db.provisional ++ [p] }
  | .finalize i f, db =>
    { db with provisional :=
        update Provisional.lineId i (fun p => { p with final := some f }) db.provisional }
  | .layer l, db => { db with layers := db.layers ++ [l] }
  | .depletion d, db => { db with depletions := db.depletions ++ [d] }
  | .lot l, db => { db with lots := db.lots ++ [l] }
  | .lotEvent e, db => { db with lotEvents := db.lotEvents ++ [e] }
  | .unit u, db => { db with units := db.units ++ [u] }
  | .unitEvent e, db => { db with unitEvents := db.unitEvents ++ [e] }
  | .setUnit i st, db =>
    { db with units := update InventoryUnit.id i (fun u => { u with status := st }) db.units }
  | .woUnit u, db => { db with woUnits := db.woUnits ++ [u] }
  | .closePeriod i, db =>
    { db with periods := update Period.id i (fun p => { p with closed := true }) db.periods }

/-- Fails with `e` unless `p`. -/
def require (p : Prop) [Decidable p] (e : Err) : Except Err Unit := if p then .ok () else .error e

/-- The account's ranges and CHECKs, on the row the update leaves. An update of no row checks nothing. -/
def checkAccount (db : Db) (i : ℕ) (f : Account → Account) : Except Err Unit :=
  match db.account? i with
  | none => .ok ()
  | some a => do
    require (f a).Fits .numericOutOfRange
    require (f a).Valid .checkViolation

/-- The constraints a write must meet. -/
def check : Write → Db → Except Err Unit
  | .debit i a, db => checkAccount db i (·.debited a)
  | .credit i a, db => checkAccount db i (·.credited a)
  | .line l, db => do
    require (l.amount ≤ maxBigint ∧ ∀ q ∈ l.qty, q ≤ maxBigint) .numericOutOfRange
    require (0 < l.amount) .checkViolation
    require (∀ q ∈ l.qty, 0 ≤ q) .checkViolation
    require (l.debitAccountId ≠ l.creditAccountId) .checkViolation
    require (db.posted l.key = false) .uniqueViolation
    require ((db.account? l.debitAccountId).isSome ∧ (db.account? l.creditAccountId).isSome ∧
      (db.period? l.periodId).isSome) .foreignKeyViolation
  | .flag p, db => do
    require (∀ r ∈ db.provisional, r.lineId ≠ p.lineId) .uniqueViolation
    require (∃ l ∈ db.lines, l.id = p.lineId) .foreignKeyViolation
  | .finalize i f, _ => do
    require (f.variance = 0 → f.lineId = none) .checkViolation
    require (f.lineId ≠ some i) .checkViolation
  | .layer l, _ => require (0 < l.originalQuantity ∧ 0 ≤ l.unitCost) .checkViolation
  | .depletion d, db => do
    require (d.costAmount ≤ maxBigint) .numericOutOfRange
    require (0 < d.quantity ∧ 0 ≤ d.unitCost) .checkViolation
    require (∃ l ∈ db.layers, l.id = d.layerId) .foreignKeyViolation
  | .lot l, db => do
    require (0 < l.originalQuantity ∧ 0 ≤ l.unitCost) .checkViolation
    require (∀ r ∈ db.lots, ¬ (r.productId = l.productId ∧ r.lotCode = l.lotCode ∧
      r.receiptDate = l.receiptDate)) .uniqueViolation
  | .lotEvent e, db => do
    -- both types written take stock out
    require (e.quantityChange < 0) .checkViolation
    require (∃ l ∈ db.lots, l.id = e.lotId) .foreignKeyViolation
  | .unit u, db => do
    require (∀ r ∈ db.units, r.status.isActive = true → u.status.isActive = true →
      ¬ (r.productId = u.productId ∧ r.serialNo = u.serialNo)) .uniqueViolation
    require (∀ r ∈ db.units, r.status.isActive = true → u.status.isActive = true →
      ∀ x ∈ u.externalSerialNo, ¬ (r.productId = u.productId ∧ r.externalSerialNo = some x))
      .uniqueViolation
    require (∃ l ∈ db.lots, l.id = u.lotId) .foreignKeyViolation
  | .unitEvent e, db => require (∃ u ∈ db.units, u.id = e.unitId) .foreignKeyViolation
  -- the statuses set release the serial
  | .setUnit _ _, _ => .ok ()
  | .woUnit u, db => require (u ∉ db.woUnits) .uniqueViolation
  | .closePeriod _, _ => .ok ()

/-- The rows a write locks: what it updates, the entries it adds to unique indexes, and, by its
foreign keys, what it refers to. -/
def locks : Write → List (Row × RowLock)
  | .debit i _ | .credit i _ => [(.account i, .noKeyUpdate)]
  | .line l => [(.key l.key, .update), (.account l.debitAccountId, .keyShare),
      (.account l.creditAccountId, .keyShare), (.period l.periodId, .keyShare)]
  | .flag p => [(.provisional p.lineId, .update), (.period p.periodId, .keyShare)]
  | .finalize i _ => [(.provisional i, .noKeyUpdate)]
  | .layer _ => []
  | .depletion d => [(.layer d.layerId, .keyShare)]
  | .lot l => [(.lotCode l.productId l.lotCode l.receiptDate, .update)]
  | .lotEvent e => [(.lot e.lotId, .keyShare)]
  | .unit u => (.serial u.productId u.serialNo, .update) :: (.lot u.lotId, .keyShare) ::
      (u.externalSerialNo.toList.map fun x => (.externalSerial u.productId x, .update))
  | .unitEvent e => [(.unit e.unitId, .keyShare)]
  | .setUnit i _ => [(.unit i, .noKeyUpdate)]
  | .woUnit u => [(.woUnit u.eventId u.unitId, .update), (.unit u.unitId, .keyShare)]
  | .closePeriod i => [(.period i, .noKeyUpdate)]

end Write

def schema : Schema Db Write Row Err where
  apply := Write.apply
  check := Write.check
  locks := Write.locks

/-- A transaction, or part of one, on the main schema. -/
abbrev Tx (α : Type) := Prog Db Write Row Err α

end Acct.Main
