import Acct.V3.Core.Plan
import Mathlib.Data.List.Sort

/-!
# `plan_apply` of ledger-v3

`ledger-core/src/method.rs` and the six costing methods: each line of a submission advances the
pool's sequence, writes `trx_line` rows and postings, and moves the snapshot. All arithmetic on
amounts is checked `i64`; an error ends the plan, and the caller drops the snapshot.
-/

namespace Acct.V3

variable (snapshot : Snapshot) (poolId : ℤ) (line : TrxLineRequest) (result : PlanResult)
  (postedAt : ℤ)

/-- A checked `i64` operation. -/
def checked (x : ℤ) (detail : String) : Except LedgerError ℤ :=
  if InI64 x then .ok x else .error (.overflow detail)

namespace Snapshot

def setPool (rows : List PoolStateRow) : Snapshot :=
  { snapshot with pools := Function.update snapshot.pools poolId rows }

/-- The step of `next_trx_seq`, which `apply_std` has inline with its own message. -/
def advanceSeq (detail : String) : Except LedgerError (ℤ × Snapshot) := do
  let seq ← checked (snapshot.maxTrxSeqOf poolId + 1) detail
  return (seq, { snapshot with maxTrxSeqOf := Function.update snapshot.maxTrxSeqOf poolId seq })

/-- `next_trx_seq` -/
def nextTrxSeq : Except LedgerError (ℤ × Snapshot) :=
  snapshot.advanceSeq poolId s!"trx_seq overflow on pool {poolId}"

/-- `read_layer0`: quantity and value of a WAC pool, and whether its row exists. -/
def readLayer0 : ℤ × ℤ × Bool :=
  match (snapshot.pools poolId).find? (·.layerSeq = 0) with
  | some row => (row.qty, row.unitCost, true)
  | none => (0, 0, false)

end Snapshot

/-- Set quantity and value of the first row with `layer_seq = 0`, or push one. -/
def upsertLayer0 (qty valueSum : ℤ) : List PoolStateRow → List PoolStateRow
  | [] => [⟨0, qty, valueSum, 0⟩]
  | row :: rows =>
    if row.layerSeq = 0 then { row with qty := qty, unitCost := valueSum } :: rows
    else row :: upsertLayer0 qty valueSum rows

def Snapshot.upsertInMemoryLayer0 (qty valueSum : ℤ) : Snapshot :=
  snapshot.setPool poolId (upsertLayer0 qty valueSum (snapshot.pools poolId))

namespace PlanResult

/-- Push a `trx_line` row for a line. -/
def pushTrxLine (line : TrxLineRequest) (trxSeq qty unitCost : ℤ) (sourceTrxLineId : Option ℤ) :
    PlanResult :=
  { result with
    trxLines := result.trxLines ++
      [⟨line.poolId, trxSeq, qty, unitCost, sourceTrxLineId, line.lineType, line.sourceId⟩] }

def pushMutation (m : PoolStateMutation) : PlanResult :=
  { result with poolStateMutations := result.poolStateMutations ++ [m] }

/-- Push a posting of a line, for the `trx_line` row at an index. -/
def pushPosting (line : TrxLineRequest) (trxLineIdx : ℕ) (eventType : PostingEventType)
    (amount postedAt : ℤ) : PlanResult :=
  { result with
    postingLines := result.postingLines ++
      [⟨trxLineIdx, eventType, amount, line.debitAccount, line.creditAccount, postedAt⟩] }

def pushProvisional (p : ProvisionalPostingRequest) : PlanResult :=
  { result with provisionalPostings := result.provisionalPostings ++ [p] }

end PlanResult

/-! ### Standard -/

/-- `apply_std`, after its check of the method. -/
def applyStd : Except LedgerError (Snapshot × PlanResult) := do
  let pool := line.poolId
  let qty := line.qty
  let cost := line.unitCost
  let (trxSeq, snapshot) ← snapshot.advanceSeq pool s!"std trx_seq overflow on pool {pool}"
  let trxLineIdx := result.trxLines.length
  let result := result.pushTrxLine line trxSeq qty cost none
  let absQty ← checked |qty| s!"std qty.abs() overflow: qty={qty}"
  let amount ← checked (absQty * cost) s!"std posting amount overflow: {absQty} * {cost}"
  let eventType :=
    if qty ≥ 0 then PostingEventType.inventoryReceipt else .inventoryDepletion
  return (snapshot, result.pushPosting line trxLineIdx eventType amount postedAt)

/-! ### FIFO, LIFO, specific -/

inductive LayerOrder
  | ascending
  | descending
  deriving DecidableEq

namespace Layered

/-- `layered::receipt`. -/
def receipt (snapshot : Snapshot) (line : TrxLineRequest) (result : PlanResult) (postedAt : ℤ) :
    Except LedgerError (Snapshot × PlanResult) := do
  let pool := line.poolId
  let qty := line.qty
  let cost := line.unitCost
  let (trxSeq, snapshot) ← snapshot.nextTrxSeq pool
  let trxLineIdx := result.trxLines.length
  let result := result.pushTrxLine line trxSeq qty cost none
  let result := result.pushMutation (.insert pool trxSeq qty cost trxLineIdx)
  let snapshot := snapshot.setPool pool (snapshot.pools pool ++ [⟨trxSeq, qty, cost, 0⟩])
  let amount ← checked (qty * cost) s!"layered receipt amount: {qty} * {cost} (pool {pool})"
  return (snapshot, result.pushPosting line trxLineIdx .inventoryReceipt amount postedAt)

/-- The layers in the order they are depleted in, with their places in the pool. The sort is
stable. -/
def sortedIdx (order : LayerOrder) (layers : List PoolStateRow) : List (PoolStateRow × ℕ) :=
  let held := layers.zipIdx.filter (·.1.qty > 0)
  match order with
  | .ascending => held.insertionSort fun a b => a.1.layerSeq ≤ b.1.layerSeq
  | .descending => held.insertionSort fun a b => b.1.layerSeq ≤ a.1.layerSeq

/-- One planned take: the layer, its place, what is consumed and what is left. -/
structure Take where
  idx : ℕ
  layer : PoolStateRow
  consumed : ℤ
  newQty : ℤ
  deriving DecidableEq

/-- What each layer gives, in order, until nothing remains. -/
def takes : ℤ → List (PoolStateRow × ℕ) → List Take
  | _, [] => []
  | remaining, (layer, idx) :: layers =>
    if remaining = 0 then []
    else
      let consumed := min remaining layer.qty
      ⟨idx, layer, consumed, layer.qty - consumed⟩ :: takes (remaining - consumed) layers

def depleteTake (snapshot : Snapshot) (result : PlanResult) (t : Take) :
    Except LedgerError (Snapshot × PlanResult) := do
  let pool := line.poolId
  let consumed := t.consumed
  let cost := t.layer.unitCost
  let (trxSeq, snapshot) ← snapshot.nextTrxSeq pool
  let trxLineIdx := result.trxLines.length
  let source := if t.layer.lastTrxLineId > 0 then some t.layer.lastTrxLineId else none
  let result := result.pushTrxLine line trxSeq (-consumed) cost source
  let mutation :=
    if t.newQty = 0 then PoolStateMutation.delete pool t.layer.layerSeq
    else .update pool t.layer.layerSeq t.newQty
  let result := result.pushMutation mutation
  let amount ← checked (consumed * cost)
    s!"layered deplete amount: {consumed} * {cost} (pool {pool})"
  let result := result.pushPosting line trxLineIdx .inventoryDepletion amount postedAt
  let rows := (snapshot.pools pool).modify t.idx fun row => { row with qty := t.newQty }
  return (snapshot.setPool pool rows, result)

def depleteTakes (line : TrxLineRequest) (postedAt : ℤ) :
    Snapshot → PlanResult → List Take → Except LedgerError (Snapshot × PlanResult)
  | snapshot, result, [] => .ok (snapshot, result)
  | snapshot, result, t :: ts => do
    let (snapshot, result) ← depleteTake line postedAt snapshot result t
    depleteTakes line postedAt snapshot result ts

/-- `layered::deplete`. The sum of the layers wraps, as an `i64` sum does in a release build. -/
def deplete (snapshot : Snapshot) (line : TrxLineRequest) (result : PlanResult) (postedAt : ℤ)
    (order : LayerOrder) : Except LedgerError (Snapshot × PlanResult) := do
  let pool := line.poolId
  let qty := line.qty
  let total ← checked |qty| s!"layered deplete qty.abs() on pool {pool}: qty={qty}"
  let layers := snapshot.pools pool
  let available := (layers.map PoolStateRow.qty).sum.bmod (2 ^ 64)
  if available < total then
    .error (.insufficientInventory pool total available)
  else do
    let (snapshot, result) ←
      depleteTakes line postedAt snapshot result (takes total (sortedIdx order layers))
    return (snapshot.setPool pool ((snapshot.pools pool).filter (·.qty > 0)), result)

end Layered

def applyLayered (order : LayerOrder) (snapshot : Snapshot) (line : TrxLineRequest)
    (result : PlanResult) (postedAt : ℤ) : Except LedgerError (Snapshot × PlanResult) :=
  if line.qty = 0 then .ok (snapshot, result)
  else if line.qty > 0 then Layered.receipt snapshot line result postedAt
  else Layered.deplete snapshot line result postedAt order

/-! ### Running average

`wac.rs` and `wac_periodic.rs` differ in the word their messages begin with and in the provisional
posting a periodic depletion adds. -/

namespace Wac

/-- `wac::receipt` and `wac_periodic::receipt`. -/
def receipt (method : String) (snapshot : Snapshot) (line : TrxLineRequest) (result : PlanResult)
    (postedAt : ℤ) : Except LedgerError (Snapshot × PlanResult) := do
  let pool := line.poolId
  let qty := line.qty
  let cost := line.unitCost
  let (existingQty, existingValueSum, layerExisted) := snapshot.readLayer0 pool
  let addedValue ← checked (qty * cost) s!"{method} receipt value: {qty} * {cost} (pool {pool})"
  let newQty ← checked (existingQty + qty)
    s!"{method} receipt qty overflow on pool {pool}: {existingQty} + {qty}"
  let newValueSum ← checked (existingValueSum + addedValue)
    s!"{method} receipt value_sum overflow on pool {pool}: {existingValueSum} + {addedValue}"
  let (trxSeq, snapshot) ← snapshot.nextTrxSeq pool
  let trxLineIdx := result.trxLines.length
  let result := result.pushTrxLine line trxSeq qty cost none
  let mutation :=
    if layerExisted then PoolStateMutation.upsert pool 0 newQty newValueSum trxLineIdx
    else .insert pool 0 newQty newValueSum trxLineIdx
  let result := result.pushMutation mutation
  let snapshot := snapshot.upsertInMemoryLayer0 pool newQty newValueSum
  return (snapshot, result.pushPosting line trxLineIdx .inventoryReceipt addedValue postedAt)

/-- `wac::deplete` and `wac_periodic::deplete`. Rust's division truncates. -/
def deplete (method : String) (periodic : Bool) (snapshot : Snapshot) (line : TrxLineRequest)
    (result : PlanResult) (postedAt : ℤ) : Except LedgerError (Snapshot × PlanResult) := do
  let pool := line.poolId
  let qty := line.qty
  let total ← checked |qty| s!"{method} deplete qty.abs() on pool {pool}: qty={qty}"
  let (currentQty, currentValueSum, layerExisted) := snapshot.readLayer0 pool
  if currentQty < total then
    .error (.insufficientInventory pool total currentQty)
  else do
    let numerator ← checked (total * currentValueSum)
      s!"{method} deplete amount num: {total} * {currentValueSum} (pool {pool})"
    let amount := numerator.tdiv currentQty
    let newQty := currentQty - total
    let newValueSum := currentValueSum - amount
    let displayUnitCost := amount.tdiv total
    let (trxSeq, snapshot) ← snapshot.nextTrxSeq pool
    let trxLineIdx := result.trxLines.length
    let result := result.pushTrxLine line trxSeq qty displayUnitCost none
    let result := result.pushMutation (.upsert pool 0 newQty newValueSum trxLineIdx)
    let snapshot :=
      if layerExisted then snapshot.upsertInMemoryLayer0 pool newQty newValueSum else snapshot
    let postingLineIdx := result.postingLines.length
    let result := result.pushPosting line trxLineIdx .inventoryDepletion amount postedAt
    let result :=
      if periodic then result.pushProvisional ⟨postingLineIdx, pool, total, amount⟩ else result
    return (snapshot, result)

/-- The dispatch on the sign of the quantity. -/
def apply (method : String) (periodic : Bool) (snapshot : Snapshot) (line : TrxLineRequest)
    (result : PlanResult) (postedAt : ℤ) : Except LedgerError (Snapshot × PlanResult) :=
  if line.qty = 0 then .ok (snapshot, result)
  else if line.qty > 0 then receipt method snapshot line result postedAt
  else deplete method periodic snapshot line result postedAt

end Wac

def applyFifo := applyLayered .ascending

def applyLifo := applyLayered .descending

def applySpecific := applyLayered .ascending

/-- `apply_wac` -/
def applyWac := Wac.apply "wac" false

def applyWacPeriodic := Wac.apply "wac_periodic" true

/-! ### The dispatcher -/

/-- The method of a line's pool. The check each method makes again on entry passes. -/
def applyLine : Except LedgerError (Snapshot × PlanResult) :=
  match snapshot.methodOf line.poolId with
  | none => .error (.unknownPool line.poolId)
  | some .std => applyStd snapshot line result postedAt
  | some .fifo => applyFifo snapshot line result postedAt
  | some .lifo => applyLifo snapshot line result postedAt
  | some .wac => applyWac snapshot line result postedAt
  | some .wacPeriodic => applyWacPeriodic snapshot line result postedAt
  | some .specific => applySpecific snapshot line result postedAt

def applyLines (postedAt : ℤ) :
    Snapshot → PlanResult → List TrxLineRequest → Except LedgerError (Snapshot × PlanResult)
  | snapshot, result, [] => .ok (snapshot, result)
  | snapshot, result, line :: lines => do
    let (snapshot, result) ← applyLine snapshot line result postedAt
    applyLines postedAt snapshot result lines

/-- `plan_apply`: the plan and the snapshot it leaves. -/
def planApply (lines : List TrxLineRequest) (postedAt : ℤ) :
    Except LedgerError (Snapshot × PlanResult) := do
  let (snapshot, result) ← applyLines postedAt snapshot {} lines
  return (snapshot, result.dedupePoolStateMutations)

end Acct.V3
