import Acct.Table.Batch
import Acct.V32.Core.Plan
import Acct.V32.Db.Period

/-!
# Hydration and bulk write

`ledger-spi-common/src/hydration.rs` reads the snapshot of the touched pools, `bulk_write.rs` writes
a plan: the `trx_line` rows, then the `pool_state` mutations in three batches, then the journal
rows. `none` is a raised error. The caller holds the locks of all pools involved.
-/

namespace Acct.V32

open Table

structure PoolRow where
  method : PoolMethod
  skuId : ℤ
  locationId : ℤ
  deriving DecidableEq

/-- The `pool_state` table: rows with their `pool_id`, under the key `(pool_id, layer_id)`. -/
abbrev PoolState := KeyedTable fun r : ℤ × PoolStateRow => (r.1, r.2.layerId)

/-- The tables a submission reads and writes. -/
structure Tables where
  pool : ℤ → Option PoolRow
  poolState : PoolState
  /-- By `(sku_id, location_id)`. -/
  standardCost : ℤ × ℤ → Option ℤ
  /-- By `(sku_id, location_id)`. -/
  postingAccountMap : ℤ × ℤ → Option PostingAccounts
  periods : PeriodTable
  /-- The ids of the `trx_line` rows. -/
  trxLineIds : List ℤ

/-! ### Hydration -/

namespace Tables

/-- The `pool` row of one of the touched pools. -/
def touched (db : Tables) (poolIds : List ℤ) (p : ℤ) : Option PoolRow :=
  if p ∈ poolIds then db.pool p else none

def aggregateRows (db : Tables) (p : ℤ) : List PoolStateRow :=
  (db.poolState.rows.filter fun r => r.1 = p ∧ r.2.layerId = 0).map (·.2)

def layerRows (db : Tables) (p : ℤ) : List PoolStateRow :=
  sortBy (·.layerId) ((db.poolState.rows.filter fun r => r.1 = p ∧ r.2.layerId > 0).map (·.2))

/-- `hydrate_snapshot`: layers are read for specific pools only, standard costs for STD pools. -/
def hydrateSnapshot (db : Tables) (poolIds : List ℤ) : Snapshot where
  pools p :=
    if p ∈ poolIds then
      db.aggregateRows p ++
        if (db.pool p).map (·.method) = some .specific then db.layerRows p else []
    else []
  methodOf p := (db.touched poolIds p).map (·.method)
  skuLocationOf p := (db.touched poolIds p).map fun row => (row.skuId, row.locationId)
  standardCostOf p := (db.touched poolIds p).bind fun row =>
    if row.method = .std then db.standardCost (row.skuId, row.locationId) else none
  postingAccountsOf p := (db.touched poolIds p).bind fun row =>
    db.postingAccountMap (row.skuId, row.locationId)

end Tables

/-! ### Bulk write -/

/-- The checks of `trx_line` and its reference to another line. -/
def TrxLineOutput.Accepted (trxLineIds : List ℤ) (o : TrxLineOutput) : Prop :=
  o.qty ≠ 0 ∧ 0 ≤ o.unitCost ∧ ∀ id ∈ o.sourceTrxLineId, id ∈ trxLineIds
  deriving Decidable

/-- The write a mutation stands for; `ids` are the ids of the plan's lines. -/
def PoolStateMutation.write? (ids : List ℤ) :
    PoolStateMutation → Option (Write (ℤ × PoolStateRow) (ℤ × ℤ))
  | upsertAggregate p qty unitCost valueSum => some (.upsert (p, ⟨0, qty, unitCost, valueSum⟩))
  | insertLayer p idx qty unitCost valueSum =>
    (ids[idx]?).map fun id => .insert (p, ⟨id, qty, unitCost, valueSum⟩)
  | deleteLayer p layerId => some (.delete (p, layerId))

/-- `apply_pool_state_mutations`: all upserts in one statement, then all inserts, then all
deletes. -/
def applyPoolStateMutations (t : PoolState) (mutations : List PoolStateMutation) (ids : List ℤ) :
    Option PoolState := do
  let writes ← mutations.mapM (·.write? ids)
  let t₁ ← t.upsertBatch? (writes.filterMap Write.upsertRow?)
  let t₂ ← t₁.insertBatch? (writes.filterMap Write.insertRow?)
  return t₂.deleteBatch (writes.filterMap Write.deleteKey?)

/-- The mutations one by one, in their order: what the batches are meant to do. -/
def applyOneByOne (t : PoolState) (mutations : List PoolStateMutation) (ids : List ℤ) :
    Option PoolState := do
  let writes ← mutations.mapM (·.write? ids)
  t.applyAll? writes

/-- What a bulk write leaves: the new lines' ids, `pool_state`, and the journal rows with the ids of
their lines. -/
structure Written where
  ids : List ℤ
  poolState : PoolState
  postings : List (ℤ × PostingLineRequest)

namespace Tables

/-- `insert_trx_lines`: `drawn` are the identity values, in input order. The period guard runs on
every row. -/
def insertTrxLines (db : Tables) (postedAt : ℤ) (outputs : List TrxLineOutput) (drawn : List ℤ) :
    Option (List ℤ) :=
  if ∀ o ∈ outputs, o.Accepted db.trxLineIds ∧ PeriodGuardAdmits db.periods.rows postedAt then
    some (sortBy id drawn)
  else none

def insertPostingLines (requests : List PostingLineRequest) (ids : List ℤ) :
    Option (List (ℤ × PostingLineRequest)) :=
  requests.mapM fun r => (ids[r.trxLineIdx]?).map (·, r)

/-- `apply_plan_result` -/
def applyPlanResult (db : Tables) (postedAt : ℤ) (plan : PlanResult) (drawn : List ℤ) :
    Option Written := do
  let ids ← db.insertTrxLines postedAt plan.trxLines drawn
  let poolState ← applyPoolStateMutations db.poolState plan.poolStateMutations ids
  let postings ← insertPostingLines plan.postingLines ids
  return { ids, poolState, postings }

end Tables

end Acct.V32
