import Acct.V3.Core.Plan

/-!
# Writing a plan

`ledger-routed/src/bulk_write.rs`: a planned submission and the rows `apply_plan_result` writes for
it. The sequence numbers and new layers of a plan are new in their tables, and its pools and source
lines exist, since the snapshot was read under the pools' locks; so a plan is refused only for its
`trx_type`, its timestamp, the key of `trx` or its accounts. `last_trx_line_id` is not kept.
-/

namespace Acct.V3

variable (db : Db) (mutations : List PoolStateMutation)

inductive TrxType
  | poReceipt
  | woCompletion
  | invAdjustment
  | transferShipment
  | transferReceipt
  | manualAdjustment
  | revaluationRun
  deriving DecidableEq

/-- The cast to the SQL enum `trx_type`. -/
def castTrxType : String → Option TrxType
  | "po_receipt" => some .poReceipt
  | "wo_completion" => some .woCompletion
  | "inv_adjustment" => some .invAdjustment
  | "transfer_shipment" => some .transferShipment
  | "transfer_receipt" => some .transferReceipt
  | "manual_adjustment" => some .manualAdjustment
  | "revaluation_run" => some .revaluationRun
  | _ => none

/-- The cast to `timestamptz` of a timestamp in RFC 3339 succeeds: in the years 1 to 9999. A later
year is written with a sign, and PostgreSQL knows no year 0. -/
def CastsToTimestamptz (postedAt : ℤ) : Prop :=
  -62135596800000000 ≤ postedAt ∧ postedAt < 253402300800000000
  deriving Decidable

/-- The unique key of `trx`. -/
abbrev TrxKey := TrxType × ℤ

structure PlannedSubmission where
  idxInKept : ℕ
  trxType : String
  sourceId : ℤ
  postedAt : ℤ
  plan : PlanResult
  deriving DecidableEq

/-- The errors PostgreSQL raises for a plan. -/
inductive SqlError
  | invalidTextRepresentation
  | datetimeFieldOverflow
  | uniqueViolation
  | foreignKeyViolation
  deriving DecidableEq

/-- The tables a plan writes, and the ids in `account`. The lists have the newest rows first. -/
structure Db where
  accounts : List ℤ
  trx : List (TrxKey × ℤ) := []
  trxLine : List (TrxKey × TrxLineOutput) := []
  /-- Quantity and `unit_cost` by pool and layer. -/
  poolState : ℤ → ℤ → Option (ℤ × ℤ) := fun _ _ => none
  postingLine : List (TrxKey × PostingLineRequest) := []
  postingLinesProvisional : List (TrxKey × ProvisionalPostingRequest) := []

namespace Db

/-- The keys in `trx`. -/
def recorded : List TrxKey := db.trx.map Prod.fst

/-- Set or clear a `pool_state` row. -/
def putPoolState (poolId layerSeq : ℤ) (row : Option (ℤ × ℤ)) : Db :=
  { db with
    poolState := fun pool layer =>
      if pool = poolId ∧ layer = layerSeq then row else db.poolState pool layer }

/-- One statement's part of `apply_pool_state_mutations`. An update keeps the row's `unit_cost`. -/
def applyMutation : PoolStateMutation → Db
  | .insert poolId layerSeq qty unitCost _ => db.putPoolState poolId layerSeq (some (qty, unitCost))
  | .upsert poolId layerSeq qty unitCost _ => db.putPoolState poolId layerSeq (some (qty, unitCost))
  | .update poolId layerSeq qty =>
    db.putPoolState poolId layerSeq ((db.poolState poolId layerSeq).map fun row => (qty, row.2))
  | .delete poolId layerSeq => db.putPoolState poolId layerSeq none

/-- `apply_pool_state_mutations`: all inserts, then the upserts, the updates and the deletes. -/
def applyPoolStateMutations : Db :=
  let ofKind := fun kind => mutations.filter (·.dedupeKey.1 = kind)
  (ofKind 0 ++ ofKind 1 ++ ofKind 2 ++ ofKind 3).foldl applyMutation db

/-- `apply_plan_result`: the casts of `insert_trx` come before its unique key, and that before the
accounts of `insert_posting_lines`. -/
def applyPlanResult (p : PlannedSubmission) : Except SqlError Db :=
  match castTrxType p.trxType with
  | none => .error .invalidTextRepresentation
  | some trxType =>
    let key := (trxType, p.sourceId)
    if ¬ CastsToTimestamptz p.postedAt then .error .datetimeFieldOverflow
    else if key ∈ db.recorded then .error .uniqueViolation
    else if ∃ l ∈ p.plan.postingLines,
        l.debitAccount ∉ db.accounts ∨ l.creditAccount ∉ db.accounts then
      .error .foreignKeyViolation
    else
      let db := { db with
        trx := (key, p.postedAt) :: db.trx
        trxLine := (p.plan.trxLines.map (key, ·)).reverse ++ db.trxLine
        postingLine := (p.plan.postingLines.map (key, ·)).reverse ++ db.postingLine
        postingLinesProvisional :=
          (p.plan.provisionalPostings.map (key, ·)).reverse ++ db.postingLinesProvisional }
      .ok (db.applyPoolStateMutations p.plan.poolStateMutations)

end Db

end Acct.V3
