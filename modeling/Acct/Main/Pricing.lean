import Acct.Main.Walk

/-!
# Pricing an event

`_post_posting_lines_compute_amount` and the strategies registered for it, one for each cost method
but `lot`. An account id that names no account gives a record of NULLs, comparisons with which never
raise; accounts are therefore options here, and only the insert of the line fails on a missing one.
-/

namespace Acct.Main

open Isolation

/-- An event of a batch: the keys of its JSON object that the functions read. -/
structure Event where
  reason : Reason
  documentId : ℕ := 0
  documentLineId : Option ℕ := none
  debitAccountId : ℕ
  creditAccountId : ℕ
  amount : Option ℤ := none
  qty : Option ℤ := none
  businessDate : Date
  key : Key
  /-- `lot_id`, the lot an issue is pinned to. -/
  lotId : Option ℕ := none
  lotCode : Option String := none
  expirationDate : Option Date := none
  unitSerials : Option (List String) := none
  externalSerials : Option (List (Option String)) := none
  deriving DecidableEq

/-- `COALESCE(p_c_acct.sku_id, p_d_acct.sku_id)` -/
def costSku (d c : Option Account) : Option ℕ := (c.bind (·.skuId)).or (d.bind (·.skuId))

/-- `COALESCE(p_c_acct.location_id, p_d_acct.location_id)` -/
def costLocation (d c : Option Account) : Option ℕ :=
  (c.bind (·.locationId)).or (d.bind (·.locationId))

/-- `ledger_kind = 'value'` of a record that may be NULL. -/
def isValue (a : Option Account) : Bool := a.any (·.ledger.isValue)

/-- `ledger_kind <> 'value'` of a record that may be NULL. -/
def isNotValue (a : Option Account) : Bool := a.any (!·.ledger.isValue)

/-! ### Standard cost -/

def Db.standardCostAt? (db : Db) (skuId : ℕ) (date : Date) : Option ℤ :=
  ((db.standardCosts.filter fun s => s.skuId == skuId && s.effectiveAt ≤ date).insertionSort
    fun a b => b.effectiveAt ≤ a.effectiveAt).head?.map (·.cost)

/-- `_resolve_standard_cost_at` -/
def resolveStandardCostAt (skuId : ℕ) (date : Date) : Tx ℤ :=
  Prog.fetch fun db =>
    match db.standardCostAt? skuId date with
    | some cost => .ok cost
    | none => .error .standardCostNotEstablished

def computeAmountStandardOutbound (e : Event) (sku : ℕ) (qty : ℤ) : Tx ℤ := do
  let unit ← resolveStandardCostAt sku e.businessDate
  return qty * unit

/-! ### Weighted average -/

def PostingLine.signedQty (l : PostingLine) (accountId : ℕ) : ℤ :=
  if l.debitAccountId = accountId then l.qty.getD 0
  else if l.creditAccountId = accountId then -l.qty.getD 0
  else 0

/-- The class quantity of a value account: the signed sum of `posting_lines.qty`. -/
def Db.classQty (db : Db) (accountId : ℕ) : ℤ :=
  (db.lines.map (·.signedQty accountId)).sum

/-- The three weighted-average strategies share the arithmetic. The period-end ones reject a credit
of work in progress first. -/
def computeAmountWacOutbound (rejectWip : Bool) (idx : ℕ) (c : Option Account) (qty : ℤ) :
    Tx ℤ := do
  Prog.ensure (¬ (rejectWip = true ∧ c.any (·.kind == .invValueWip) = true))
    (.costMethodNotImplemented idx)
  Prog.ensure (isNotValue c = false) (.costMethodNotImplemented idx)
  match c with
  | none => .raise (.qtyBalance idx)
  | some a =>
    let qtyBalance ← Prog.query (·.classQty a.id)
    Prog.ensure (0 < qtyBalance) (.qtyBalance idx)
    -- the account's record is the one the caller read
    return qty * (max 0 a.balance).tdiv qtyBalance

def computeAmountWacPerpetualOutbound : ℕ → Option Account → ℤ → Tx ℤ :=
  computeAmountWacOutbound false

def computeAmountWacPeriodicOutbound : ℕ → Option Account → ℤ → Tx ℤ :=
  computeAmountWacOutbound true

def computeAmountWacRetroactiveOutbound : ℕ → Option Account → ℤ → Tx ℤ :=
  computeAmountWacOutbound true

/-! ### Layers and lots -/

/-- The cost of a walk over layers or lots. -/
def computeAmountWalkOutbound (walk : ℕ → ℕ → ℤ → Tx (List Taken)) (idx : ℕ)
    (d c : Option Account) (qty : ℤ) : Tx ℤ := do
  Prog.ensure (isNotValue c = false) (.costMethodNotImplemented idx)
  match costSku d c, costLocation d c with
  | some product, some location =>
    let taken ← walk product location |qty|
    return walkCost taken
  | _, _ => .raise (.costMethodNotImplemented idx)

def computeAmountFifoOutbound : ℕ → Option Account → Option Account → ℤ → Tx ℤ :=
  computeAmountWalkOutbound fifoWalkLayers

def computeAmountLotFifoOutbound (e : Event) : ℕ → Option Account → Option Account → ℤ → Tx ℤ :=
  computeAmountWalkOutbound fun product location qty => lotWalkLayers product location qty e.lotId

/-! ### Dispatch -/

/-- `_post_posting_lines_compute_amount` -/
def computeAmount (e : Event) (idx : ℕ) (d c : Option Account) (method : Option CostMethod) :
    Tx ℤ :=
  match e.qty, costSku d c with
  | some qty, some sku =>
    match method with
    | some .standard => computeAmountStandardOutbound e sku qty
    | some .wacPerpetual => computeAmountWacPerpetualOutbound idx c qty
    | some .wacPeriodic => computeAmountWacPeriodicOutbound idx c qty
    | some .wacRetroactive => computeAmountWacRetroactiveOutbound idx c qty
    | some .fifo => computeAmountFifoOutbound idx d c qty
    | some .lotFifo => computeAmountLotFifoOutbound e idx d c qty
    -- no strategy is registered
    | some .lot | none => .raise (.costMethodNotImplemented idx)
  | _, _ => .raise (.costMethodNotImplemented idx)

def priceEvent (e : Event) (idx : ℕ) (d c : Option Account) : Tx (Option ℤ × Option CostMethod) :=
  match costSku d c with
  | none =>
    if e.reason = .soShip ∧ isValue d = true then return (e.amount, none)
    else .raise (.costMethodNotImplemented idx)
  | some sku => do
    let method ← Prog.query fun db => (db.sku? sku).map (·.costMethod)
    if isValue d then
      let amount ← computeAmount e idx d c method
      return (some amount, method)
    else
      -- quantity legs keep their amount under every method but `lot`
      Prog.ensure (method ≠ some .lot) (.costMethodNotImplemented idx)
      return (e.amount, method)

end Acct.Main
