import Acct.Table.Keyed
import Acct.V32.Core.Snapshot

/-!
# `plan_apply`

The strict dispatcher of `ledger-core/src/method.rs` with its methods (`wac.rs`, `standard.rs`,
`specific.rs`) and the plan they write (`plan.rs`). Each line is planned on the snapshot the lines
before it left; rows refer to the lines of the plan by index.
-/

namespace Acct.V32

/-- The hot-path part of the SQL `posting_event_type` enum. -/
inductive PostingEventType
  | inventoryReceipt
  | inventoryDepletion
  | wipMovement
  | variance
  | scrap
  | adjustment
  | revaluation
  deriving DecidableEq

/-- One line of a submission; a positive quantity is a receipt, a negative one a depletion. -/
structure TrxLineRequest where
  poolId : ℤ
  lineType : LineType
  sourceId : Option ℤ
  qty : ℤ
  unitCost : ℤ
  deriving DecidableEq

/-- One row to insert into `trx_line`. -/
structure TrxLineOutput where
  poolId : ℤ
  qty : ℤ
  unitCost : ℤ
  sourceTrxLineId : Option ℤ
  lineType : LineType
  sourceId : Option ℤ
  deriving DecidableEq

inductive PoolStateMutation
  | upsertAggregate (poolId qty unitCost valueSum : ℤ)
  /-- The `layer_id` is the id of the plan's line `layerTrxLineIdx`. -/
  | insertLayer (poolId : ℤ) (layerTrxLineIdx : ℕ) (qty unitCost valueSum : ℤ)
  | deleteLayer (poolId layerId : ℤ)
  deriving DecidableEq

/-- One row to insert into `posting_line`. -/
structure PostingLineRequest where
  trxLineIdx : ℕ
  eventType : PostingEventType
  amount : ℤ
  debitAccount : ℤ
  creditAccount : ℤ
  postedAt : ℤ
  deriving DecidableEq

structure PlanResult where
  trxLines : List TrxLineOutput := []
  poolStateMutations : List PoolStateMutation := []
  postingLines : List PostingLineRequest := []
  deriving DecidableEq

def PlanResult.push (result : PlanResult) (trxLine : TrxLineOutput)
    (mutations : List PoolStateMutation) (postings : List PostingLineRequest) : PlanResult where
  trxLines := result.trxLines ++ [trxLine]
  poolStateMutations := result.poolStateMutations ++ mutations
  postingLines := result.postingLines ++ postings

/-- The `trx_line` row of a line, at the cost its method records. -/
def TrxLineRequest.output (line : TrxLineRequest) (unitCost : ℤ) (sourceTrxLineId : Option ℤ) :
    TrxLineOutput :=
  { poolId := line.poolId, qty := line.qty, unitCost, sourceTrxLineId
    lineType := line.lineType, sourceId := line.sourceId }

/-- The journal row of a receipt: debit inventory, credit contra. -/
def receiptPosting (idx : ℕ) (accounts : ℤ × ℤ) (amount postedAt : ℤ) : PostingLineRequest :=
  ⟨idx, .inventoryReceipt, amount, accounts.1, accounts.2, postedAt⟩

/-- The journal row of a depletion: the pair swapped. -/
def depletionPosting (idx : ℕ) (accounts : ℤ × ℤ) (amount postedAt : ℤ) : PostingLineRequest :=
  ⟨idx, .inventoryDepletion, amount, accounts.2, accounts.1, postedAt⟩

section Methods

variable (snapshot : Snapshot) (line : TrxLineRequest) (result : PlanResult) (postedAt : ℤ)

/-! ### WAC -/

/-- The running average: kept while nothing is on hand. -/
def runningAverage (unitCost value qty : ℤ) : Except Failure ℤ :=
  if qty > 0 then (bankerDiv value qty).elim (.error .panicked) .ok else .ok unitCost

/-- `aggregate_receipt` -/
def aggregateReceipt : Except Failure (Snapshot × PlanResult) := do
  let accounts ← snapshot.resolvePostingAccounts line.poolId
  let old := snapshot.readAggregate line.poolId
  let newQty ← checked (old.qty + line.qty) s!"receipt qty on pool {line.poolId}"
  let newValueSum ← checked (old.valueSum + line.qty * line.unitCost)
    s!"receipt value_sum on pool {line.poolId}"
  let newUnitCost ← runningAverage old.unitCost newValueSum newQty
  let amount ← checked (line.qty * line.unitCost) s!"receipt amount on pool {line.poolId}"
  return (snapshot.putAggregate line.poolId newQty newUnitCost newValueSum,
    result.push (line.output line.unitCost none)
      [.upsertAggregate line.poolId newQty newUnitCost newValueSum]
      [receiptPosting result.trxLines.length (accounts.pairFor line.lineType) amount postedAt])

/-- What is left of the value after a depletion: an emptied pool drops the residue. -/
def depletedValueSum (poolId valueSum amount newQty : ℤ) : Except Failure ℤ :=
  if newQty = 0 then .ok 0 else checked (valueSum - amount) s!"deplete value_sum on pool {poolId}"

/-- `aggregate_deplete` -/
def aggregateDeplete (appliedUnitCost : ℤ) : Except Failure (Snapshot × PlanResult) := do
  let accounts ← snapshot.resolvePostingAccounts line.poolId
  let qtyToDeplete ← checked |line.qty| s!"deplete qty.abs() on pool {line.poolId}"
  let current := snapshot.readAggregate line.poolId
  if current.qty < qtyToDeplete then
    .error (.raised (.insufficientInventory line.poolId qtyToDeplete current.qty))
  else
    let newQty := current.qty - qtyToDeplete
    let amount ← checked (qtyToDeplete * appliedUnitCost) s!"deplete amount on pool {line.poolId}"
    let newValueSum ← depletedValueSum line.poolId current.valueSum amount newQty
    let newUnitCost ← runningAverage current.unitCost newValueSum newQty
    return (snapshot.putAggregate line.poolId newQty newUnitCost newValueSum,
      result.push (line.output appliedUnitCost none)
        [.upsertAggregate line.poolId newQty newUnitCost newValueSum]
        [depletionPosting result.trxLines.length (accounts.pairFor line.lineType) amount postedAt])

/-- `apply_wac`: depletions go at the running average. -/
def applyWac : Except Failure (Snapshot × PlanResult) := do
  snapshot.expectMethod line.poolId .wac
  if line.qty = 0 then return (snapshot, result)
  else if line.qty > 0 then aggregateReceipt snapshot line result postedAt
  else aggregateDeplete snapshot line result postedAt (snapshot.readAggregate line.poolId).unitCost

/-! ### STD -/

/-- The purchase-price variance leg of an STD receipt. -/
def stdVariance (accounts : PostingAccounts) (idx : ℕ) (cStd : ℤ) :
    Except Failure (List PostingLineRequest) :=
  let variance := line.qty * (line.unitCost - cStd)
  let contra := (accounts.pairFor line.lineType).2
  if line.unitCost - cStd = 0 then .ok []
  else
    match accounts.variance with
    | none => .error (.raised (.missingVarianceAccount line.poolId))
    | some varianceAccount =>
      (checked |variance| s!"std variance on pool {line.poolId}").map fun amount =>
        -- paid more than standard: debit the variance account
        if variance > 0 then [⟨idx, .variance, amount, varianceAccount, contra, postedAt⟩]
        else [⟨idx, .variance, amount, contra, varianceAccount, postedAt⟩]

/-- `standard::receipt`. -/
def stdReceipt (cStd oldQty : ℤ) : Except Failure (Snapshot × PlanResult) := do
  let accounts ← snapshot.resolvePostingAccounts line.poolId
  let newQty ← checked (oldQty + line.qty) s!"std receipt qty on pool {line.poolId}"
  let valueSum ← checked (newQty * cStd) s!"std receipt value_sum on pool {line.poolId}"
  let stdValue ← checked (line.qty * cStd) s!"std value on pool {line.poolId}"
  let idx := result.trxLines.length
  let variance ← stdVariance line postedAt accounts idx cStd
  return (snapshot.putAggregate line.poolId newQty cStd valueSum,
    result.push (line.output cStd none) [.upsertAggregate line.poolId newQty cStd valueSum]
      (receiptPosting idx (accounts.pairFor line.lineType) stdValue postedAt :: variance))

/-- `standard::deplete`. -/
def stdDeplete (cStd oldQty : ℤ) : Except Failure (Snapshot × PlanResult) := do
  let accounts ← snapshot.resolvePostingAccounts line.poolId
  let qtyToDeplete ← checked |line.qty| s!"std deplete qty.abs() on pool {line.poolId}"
  if oldQty < qtyToDeplete then
    .error (.raised (.insufficientInventory line.poolId qtyToDeplete oldQty))
  else
    let newQty := oldQty - qtyToDeplete
    let valueSum ← checked (newQty * cStd) s!"std deplete value_sum on pool {line.poolId}"
    let amount ← checked (qtyToDeplete * cStd) s!"std deplete amount on pool {line.poolId}"
    return (snapshot.putAggregate line.poolId newQty cStd valueSum,
      result.push (line.output cStd none) [.upsertAggregate line.poolId newQty cStd valueSum]
        [depletionPosting result.trxLines.length (accounts.pairFor line.lineType) amount postedAt])

/-- `apply_std`: receipts and depletions at the standard cost. -/
def applyStd : Except Failure (Snapshot × PlanResult) := do
  snapshot.expectMethod line.poolId .std
  if line.qty = 0 then return (snapshot, result)
  else
    let cStd ← snapshot.resolveStandardCost line.poolId
    let oldQty := (snapshot.readAggregate line.poolId).qty
    if line.qty > 0 then stdReceipt snapshot line result postedAt cStd oldQty
    else stdDeplete snapshot line result postedAt cStd oldQty

/-! ### Specific -/

/-- `specific::receipt`: materializes the layer. The snapshot gets the aggregate only. -/
def specificReceipt : Except Failure (Snapshot × PlanResult) := do
  let accounts ← snapshot.resolvePostingAccounts line.poolId
  let oldQty := (snapshot.readAggregate line.poolId).qty
  if oldQty > 0 then .error (.raised (.specificPoolOccupied line.poolId oldQty))
  else
    let newQty ← checked (oldQty + line.qty) s!"specific receipt qty on pool {line.poolId}"
    let layerValueSum ← checked (line.qty * line.unitCost)
      s!"specific layer value_sum on pool {line.poolId}"
    let valueSum ← checked (newQty * line.unitCost)
      s!"specific receipt value_sum on pool {line.poolId}"
    let amount ← checked (line.qty * line.unitCost)
      s!"specific receipt amount on pool {line.poolId}"
    let idx := result.trxLines.length
    return (snapshot.putAggregate line.poolId newQty line.unitCost valueSum,
      result.push (line.output line.unitCost none)
        [.insertLayer line.poolId idx line.qty line.unitCost layerValueSum,
          .upsertAggregate line.poolId newQty line.unitCost valueSum]
        [receiptPosting idx (accounts.pairFor line.lineType) amount postedAt])

def lowestLayer (rows : List PoolStateRow) : Option PoolStateRow :=
  Table.earliest (·.layerId) (rows.filter (0 < ·.layerId))

def Snapshot.dropLayer (s : Snapshot) (poolId layerId : ℤ) : Snapshot :=
  let rows := (s.pools poolId).filter (·.layerId ≠ layerId)
  { s with pools := Function.update s.pools poolId rows }

/-- `specific::deplete` once the layer is found. The subtraction from the aggregate wraps. -/
def consumeLayer (accounts : PostingAccounts) (qtyToDeplete : ℤ) (layer : PoolStateRow) :
    Except Failure (Snapshot × PlanResult) := do
  let agg := snapshot.readAggregate line.poolId
  let newAggQty := max ((agg.qty - qtyToDeplete).bmod (2 ^ 64)) 0
  let newValueSum ← checked (newAggQty * agg.unitCost)
    s!"specific deplete value_sum on pool {line.poolId}"
  let amount ← checked (qtyToDeplete * layer.unitCost)
    s!"specific deplete amount on pool {line.poolId}"
  return ((snapshot.dropLayer line.poolId layer.layerId).putAggregate line.poolId newAggQty
      agg.unitCost newValueSum,
    result.push (line.output layer.unitCost (some layer.layerId))
      [.deleteLayer line.poolId layer.layerId,
        .upsertAggregate line.poolId newAggQty agg.unitCost newValueSum]
      [depletionPosting result.trxLines.length (accounts.pairFor line.lineType) amount postedAt])

/-- `specific::deplete`: consumes the single layer whole. -/
def specificDeplete : Except Failure (Snapshot × PlanResult) := do
  let accounts ← snapshot.resolvePostingAccounts line.poolId
  let qtyToDeplete ← checked |line.qty| s!"specific deplete qty.abs() on pool {line.poolId}"
  match lowestLayer (snapshot.pools line.poolId) with
  | none => .error (.raised (.insufficientInventory line.poolId qtyToDeplete 0))
  | some layer =>
    if layer.qty ≥ qtyToDeplete then
      consumeLayer snapshot line result postedAt accounts qtyToDeplete layer
    else .error (.raised (.insufficientInventory line.poolId qtyToDeplete layer.qty))

/-- `apply_specific` -/
def applySpecific : Except Failure (Snapshot × PlanResult) := do
  snapshot.expectMethod line.poolId .specific
  if line.qty = 0 then return (snapshot, result)
  else if line.qty > 0 then specificReceipt snapshot line result postedAt
  else specificDeplete snapshot line result postedAt

/-! ### The dispatcher -/

/-- One line of `plan_apply`. FIFO and LIFO pools are not costed here (`apply_fifo`,
`apply_lifo`). -/
def planLine : Except Failure (Snapshot × PlanResult) :=
  match snapshot.methodOf line.poolId with
  | none => .error (.raised (.unknownPool line.poolId))
  | some .wac => applyWac snapshot line result postedAt
  | some .std => applyStd snapshot line result postedAt
  | some .specific => applySpecific snapshot line result postedAt
  | some .fifo => .error (.raised (.methodMismatch line.poolId .fifo .fifo))
  | some .lifo => .error (.raised (.methodMismatch line.poolId .lifo .lifo))

end Methods

/-- The loop of `plan_apply`. -/
def planLines (postedAt : ℤ) (state : Snapshot × PlanResult) (lines : List TrxLineRequest) :
    Except Failure (Snapshot × PlanResult) :=
  lines.foldlM (fun st line => planLine st.1 line st.2 postedAt) state

/-- `plan_apply` -/
def planApply (snapshot : Snapshot) (lines : List TrxLineRequest) (postedAt : ℤ) :
    Except Failure PlanResult :=
  (planLines postedAt (snapshot, {}) lines).map (·.2)

end Acct.V32
