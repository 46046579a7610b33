import Acct.V32.Core.Types

/-!
# Snapshots of pools

`ledger-core/src/snapshot.rs` and `error.rs`: the state `plan_apply` works on, hydrated for the
pools a submission touches, and the errors it raises. The maps of the source are functions; a pool
with no rows has the empty list.
-/

namespace Acct.V32

variable (s : Snapshot) (poolId : ℤ)

/-- `LedgerError`. -/
inductive LedgerError
  | insufficientInventory (poolId requested available : ℤ)
  | methodMismatch (poolId : ℤ) (expected got : PoolMethod)
  | unknownPool (poolId : ℤ)
  | missingStandardCost (skuId locationId : ℤ)
  | missingPostingAccounts (skuId locationId : ℤ)
  | missingVarianceAccount (poolId : ℤ)
  | specificPoolOccupied (poolId existingQty : ℤ)
  | overflow (detail : String)
  deriving DecidableEq

/-- How `plan_apply` can fail: with an error, or by a panic of `banker_div`. -/
inductive Failure
  | raised (e : LedgerError)
  | panicked
  deriving DecidableEq

/-- A checked `i64` operation, or a `try_into` from `i128`. -/
def checked (x : ℤ) (detail : String) : Except Failure ℤ :=
  if InI64 x then .ok x else .error (.raised (.overflow detail))

structure PoolStateRow where
  layerId : ℤ
  qty : ℤ
  unitCost : ℤ
  valueSum : ℤ
  deriving DecidableEq

/-- `Snapshot`: what a plan reads of the pools. -/
structure Snapshot where
  pools : ℤ → List PoolStateRow
  methodOf : ℤ → Option PoolMethod
  skuLocationOf : ℤ → Option (ℤ × ℤ)
  standardCostOf : ℤ → Option ℤ
  postingAccountsOf : ℤ → Option PostingAccounts

/-- Update the first row with `layer_id = 0`, or push one. -/
def putRow (row : PoolStateRow) : List PoolStateRow → List PoolStateRow
  | [] => [row]
  | r :: rows => if r.layerId = 0 then row :: rows else r :: putRow row rows

namespace Snapshot

/-- `aggregate`: the row with `layer_id = 0`. -/
def aggregate : Option PoolStateRow :=
  (s.pools poolId).find? (·.layerId = 0)

/-- `read_aggregate`: zeros if the pool has no aggregate yet. -/
def readAggregate : PoolStateRow :=
  (s.aggregate poolId).getD ⟨0, 0, 0, 0⟩

def resolvePostingAccounts : Except Failure PostingAccounts :=
  match s.postingAccountsOf poolId with
  | some accounts => .ok accounts
  | none =>
    let skuLocation := (s.skuLocationOf poolId).getD (0, 0)
    .error (.raised (.missingPostingAccounts skuLocation.1 skuLocation.2))

def resolveStandardCost : Except Failure ℤ :=
  match s.standardCostOf poolId with
  | some cost => .ok cost
  | none =>
    let skuLocation := (s.skuLocationOf poolId).getD (0, 0)
    .error (.raised (.missingStandardCost skuLocation.1 skuLocation.2))

def expectMethod (expected : PoolMethod) : Except Failure Unit :=
  match s.methodOf poolId with
  | none => .error (.raised (.unknownPool poolId))
  | some got =>
    if got = expected then .ok () else .error (.raised (.methodMismatch poolId expected got))

def putAggregate (qty unitCost valueSum : ℤ) : Snapshot :=
  let row := putRow ⟨0, qty, unitCost, valueSum⟩ (s.pools poolId)
  { s with pools := Function.update s.pools poolId row }

end Snapshot

end Acct.V32
