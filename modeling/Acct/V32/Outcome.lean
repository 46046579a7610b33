import Acct.V32.Core.Plan
import Acct.V32.Direct.Cte

/-!
# What one line does

The methods of `plan_apply` without the snapshot: the `Outcome` of a line is the cost it records,
the new aggregate, what happens to the layers and the legs it posts, and names no id. `none` is any
error or panic. Which layer is consumed and where the line is stored is left to `Snapshot.record`
and `Outcome.push`.
-/

namespace Acct.V32

/-- A journal row without its line. -/
structure Leg where
  eventType : PostingEventType
  amount : ℤ
  debitAccount : ℤ
  creditAccount : ℤ
  deriving DecidableEq

inductive LayerChange
  | unchanged
  | opened (qty unitCost valueSum : ℤ)
  | consumed
  deriving DecidableEq

structure Outcome where
  /-- The cost on the `trx_line` row. -/
  unitCost : ℤ
  aggregate : Aggregate
  layers : LayerChange
  legs : List Leg
  deriving DecidableEq

def receiptLeg (accounts : ℤ × ℤ) (amount : ℤ) : Leg :=
  ⟨.inventoryReceipt, amount, accounts.1, accounts.2⟩

def depletionLeg (accounts : ℤ × ℤ) (amount : ℤ) : Leg :=
  ⟨.inventoryDepletion, amount, accounts.2, accounts.1⟩

def PoolStateRow.amounts (r : PoolStateRow) : Aggregate := ⟨r.qty, r.unitCost, r.valueSum⟩

section Methods

variable (accounts : PostingAccounts) (line : TrxLineRequest)

/-- The running average: kept while nothing is on hand. -/
def average? (unitCost value qty : ℤ) : Option ℤ :=
  if qty > 0 then bankerDiv value qty else some unitCost

/-- `aggregate_receipt`. -/
def wacReceiptOutcome? (old : Aggregate) : Option Outcome := do
  let qty ← toI64? (old.qty + line.qty)
  let valueSum ← toI64? (old.valueSum + line.qty * line.unitCost)
  let unitCost ← average? old.unitCost valueSum qty
  let amount ← toI64? (line.qty * line.unitCost)
  return ⟨line.unitCost, ⟨qty, unitCost, valueSum⟩, .unchanged,
    [receiptLeg (accounts.pairFor line.lineType) amount]⟩

/-- `aggregate_deplete` at the running average. -/
def wacDepleteOutcome? (old : Aggregate) : Option Outcome := do
  let qtyToDeplete ← toI64? |line.qty|
  if old.qty < qtyToDeplete then none
  else
    let qty := old.qty - qtyToDeplete
    let amount ← toI64? (qtyToDeplete * old.unitCost)
    let valueSum ← valueOrZero (old.valueSum - amount) qty
    let unitCost ← average? old.unitCost valueSum qty
    return ⟨old.unitCost, ⟨qty, unitCost, valueSum⟩, .unchanged,
      [depletionLeg (accounts.pairFor line.lineType) amount]⟩

/-- `apply_wac`. -/
def wacOutcome? (old : Aggregate) : Option Outcome :=
  if line.qty > 0 then wacReceiptOutcome? accounts line old
  else wacDepleteOutcome? accounts line old

def varianceLegs? (cStd : ℤ) : Option (List Leg) :=
  let variance := line.qty * (line.unitCost - cStd)
  let contra := (accounts.pairFor line.lineType).2
  if line.unitCost - cStd = 0 then some []
  else
    accounts.variance.bind fun varianceAccount =>
      (toI64? |variance|).map fun amount =>
        if variance > 0 then [⟨.variance, amount, varianceAccount, contra⟩]
        else [⟨.variance, amount, contra, varianceAccount⟩]

/-- `standard::receipt`. -/
def stdReceiptOutcome? (cStd oldQty : ℤ) : Option Outcome := do
  let qty ← toI64? (oldQty + line.qty)
  let valueSum ← toI64? (qty * cStd)
  let stdValue ← toI64? (line.qty * cStd)
  let variance ← varianceLegs? accounts line cStd
  return ⟨cStd, ⟨qty, cStd, valueSum⟩, .unchanged,
    receiptLeg (accounts.pairFor line.lineType) stdValue :: variance⟩

/-- `standard::deplete`. -/
def stdDepleteOutcome? (cStd oldQty : ℤ) : Option Outcome := do
  let qtyToDeplete ← toI64? |line.qty|
  if oldQty < qtyToDeplete then none
  else
    let qty := oldQty - qtyToDeplete
    let valueSum ← toI64? (qty * cStd)
    let amount ← toI64? (qtyToDeplete * cStd)
    return ⟨cStd, ⟨qty, cStd, valueSum⟩, .unchanged,
      [depletionLeg (accounts.pairFor line.lineType) amount]⟩

/-- `apply_std`. -/
def stdOutcome? (cStd oldQty : ℤ) : Option Outcome :=
  if line.qty > 0 then stdReceiptOutcome? accounts line cStd oldQty
  else stdDepleteOutcome? accounts line cStd oldQty

def specificReceiptOutcome? (old : Aggregate) : Option Outcome :=
  if old.qty > 0 then none
  else do
    let qty ← toI64? (old.qty + line.qty)
    let layerValueSum ← toI64? (line.qty * line.unitCost)
    let valueSum ← toI64? (qty * line.unitCost)
    let amount ← toI64? (line.qty * line.unitCost)
    return ⟨line.unitCost, ⟨qty, line.unitCost, valueSum⟩,
      .opened line.qty line.unitCost layerValueSum,
      [receiptLeg (accounts.pairFor line.lineType) amount]⟩

/-- `specific::deplete` on the lowest layer. -/
def specificDepleteOutcome? (old : Aggregate) (layer : Option Aggregate) : Option Outcome := do
  let qtyToDeplete ← toI64? |line.qty|
  let layer ← layer
  if layer.qty ≥ qtyToDeplete then
    let qty := max ((old.qty - qtyToDeplete).bmod (2 ^ 64)) 0
    let valueSum ← toI64? (qty * old.unitCost)
    let amount ← toI64? (qtyToDeplete * layer.unitCost)
    return ⟨layer.unitCost, ⟨qty, old.unitCost, valueSum⟩, .consumed,
      [depletionLeg (accounts.pairFor line.lineType) amount]⟩
  else none

/-- `apply_specific`. -/
def specificOutcome? (old : Aggregate) (layer : Option Aggregate) : Option Outcome :=
  if line.qty > 0 then specificReceiptOutcome? accounts line old
  else specificDepleteOutcome? accounts line old layer

end Methods

/-! ### Outcomes on a snapshot -/

namespace Outcome

variable (o : Outcome)

def source (layerId : Option ℤ) : Option ℤ :=
  match o.layers with
  | .consumed => layerId
  | _ => none

/-- The `pool_state` mutations of the line at index `idx`. -/
def mutations (p : ℤ) (idx : ℕ) (layerId : Option ℤ) : List PoolStateMutation :=
  let upsert := .upsertAggregate p o.aggregate.qty o.aggregate.unitCost o.aggregate.valueSum
  match o.layers with
  | .unchanged => [upsert]
  | .opened qty unitCost valueSum => [.insertLayer p idx qty unitCost valueSum, upsert]
  | .consumed => layerId.toList.map (.deleteLayer p ·) ++ [upsert]

end Outcome

def Leg.request (leg : Leg) (idx : ℕ) (postedAt : ℤ) : PostingLineRequest :=
  ⟨idx, leg.eventType, leg.amount, leg.debitAccount, leg.creditAccount, postedAt⟩

def Outcome.push (o : Outcome) (result : PlanResult) (line : TrxLineRequest) (postedAt : ℤ)
    (layerId : Option ℤ) : PlanResult :=
  result.push (line.output o.unitCost (o.source layerId))
    (o.mutations line.poolId result.trxLines.length layerId)
    (o.legs.map (·.request result.trxLines.length postedAt))

namespace Snapshot

variable (s : Snapshot)

def lowestLayerId (p : ℤ) : Option ℤ := (lowestLayer (s.pools p)).map (·.layerId)

/-- The snapshot after a line of pool `p`. -/
def record (p : ℤ) (o : Outcome) : Snapshot :=
  let s' := (o.source (s.lowestLayerId p)).elim s (s.dropLayer p)
  s'.putAggregate p o.aggregate.qty o.aggregate.unitCost o.aggregate.valueSum

def outcome? (line : TrxLineRequest) : Option Outcome := do
  let method ← s.methodOf line.poolId
  let aggregate := (s.readAggregate line.poolId).amounts
  match method with
  | .wac => wacOutcome? (← s.postingAccountsOf line.poolId) line aggregate
  | .std =>
    let cStd ← s.standardCostOf line.poolId
    stdOutcome? (← s.postingAccountsOf line.poolId) line cStd aggregate.qty
  | .specific =>
    specificOutcome? (← s.postingAccountsOf line.poolId) line aggregate
      ((lowestLayer (s.pools line.poolId)).map (·.amounts))
  | .fifo | .lifo => none

end Snapshot

end Acct.V32
