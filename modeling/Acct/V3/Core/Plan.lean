import Mathlib.Algebra.Order.Ring.Int

/-!
# Plans of ledger-v3

`ledger-core/src/plan.rs`, `snapshot.rs`, `method.rs` and `error.rs`: what a submission asks for,
the snapshot of the pools it is planned on, and the rows a plan would write. The maps of the source
are functions; a pool with no rows has the empty list. Timestamps are integers (microseconds, UTC).
-/

namespace Acct.V3

/-- The values of an `i64`. -/
def InI64 (x : ℤ) : Prop := -2 ^ 63 ≤ x ∧ x < 2 ^ 63
  deriving Decidable

inductive LineType
  | poReceiptLine
  | woOutput
  | woBackflush
  | woScrap
  | invAdjustmentLine
  | transferShipmentLine
  | transferReceiptLine
  | manualAdjustmentLine
  | revaluationLine
  deriving DecidableEq

/-- The kinds of `PostingEventType` a plan posts. -/
inductive PostingEventType
  | inventoryReceipt
  | inventoryDepletion
  deriving DecidableEq

inductive PoolMethod
  | fifo
  | lifo
  | wac
  | wacPeriodic
  | std
  | specific
  deriving DecidableEq

/-- `TrxLineRequest`: one line of a submission. A positive quantity is a receipt, a negative one a
depletion. -/
structure TrxLineRequest where
  poolId : ℤ
  lineType : LineType
  sourceId : Option ℤ
  qty : ℤ
  unitCost : ℤ
  debitAccount : ℤ
  creditAccount : ℤ
  deriving DecidableEq

/-- `TrxLineOutput`: one row for `trx_line`. -/
structure TrxLineOutput where
  poolId : ℤ
  trxSeq : ℤ
  qty : ℤ
  unitCost : ℤ
  sourceTrxLineId : Option ℤ
  lineType : LineType
  sourceId : Option ℤ
  deriving DecidableEq

/-- `PoolStateMutation`. The index is into the plan's `trx_lines`. -/
inductive PoolStateMutation
  | insert (poolId layerSeq qty unitCost : ℤ) (lastTrxLineIdx : ℕ)
  | upsert (poolId layerSeq qty unitCost : ℤ) (lastTrxLineIdx : ℕ)
  | update (poolId layerSeq qty : ℤ)
  | delete (poolId layerSeq : ℤ)
  deriving DecidableEq

/-- Kind, pool and layer: what `dedupe_pool_state_mutations` compares. -/
def PoolStateMutation.dedupeKey : PoolStateMutation → ℕ × ℤ × ℤ
  | insert poolId layerSeq _ _ _ => (0, poolId, layerSeq)
  | upsert poolId layerSeq _ _ _ => (1, poolId, layerSeq)
  | update poolId layerSeq _ => (2, poolId, layerSeq)
  | delete poolId layerSeq => (3, poolId, layerSeq)

/-- `PostingLineRequest`. The index is into the plan's `trx_lines`. -/
structure PostingLineRequest where
  trxLineIdx : ℕ
  eventType : PostingEventType
  amount : ℤ
  debitAccount : ℤ
  creditAccount : ℤ
  postedAt : ℤ
  deriving DecidableEq

/-- `ProvisionalPostingRequest`. The index is into the plan's `posting_lines`. -/
structure ProvisionalPostingRequest where
  postingLineIdx : ℕ
  poolId : ℤ
  qty : ℤ
  provisionalAmount : ℤ
  deriving DecidableEq

structure PlanResult where
  trxLines : List TrxLineOutput := []
  poolStateMutations : List PoolStateMutation := []
  postingLines : List PostingLineRequest := []
  provisionalPostings : List ProvisionalPostingRequest := []
  deriving DecidableEq

/-- Keep a mutation only if no later one is of its kind, pool and layer. -/
def dedupeMutations : List PoolStateMutation → List PoolStateMutation
  | [] => []
  | m :: ms =>
    if m.dedupeKey ∈ ms.map PoolStateMutation.dedupeKey then dedupeMutations ms
    else m :: dedupeMutations ms

def PlanResult.dedupePoolStateMutations (result : PlanResult) : PlanResult :=
  { result with poolStateMutations := dedupeMutations result.poolStateMutations }

/-- `LedgerError`, as far as a plan raises it. -/
inductive LedgerError
  | insufficientInventory (poolId requested available : ℤ)
  | unknownPool (poolId : ℤ)
  | overflow (detail : String)
  deriving DecidableEq

/-- One `pool_state` row of a pool. A WAC pool has the one row with `layer_seq = 0`, whose
`unit_cost` is the pool's value. -/
structure PoolStateRow where
  layerSeq : ℤ
  qty : ℤ
  unitCost : ℤ
  lastTrxLineId : ℤ
  deriving DecidableEq

structure Snapshot where
  pools : ℤ → List PoolStateRow
  methodOf : ℤ → Option PoolMethod
  /-- A pool without an entry has 0. -/
  maxTrxSeqOf : ℤ → ℤ

end Acct.V3
