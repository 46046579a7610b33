import Acct.V32.Direct.Recalc

/-!
# The close sweep of one pool

`sweep_pool` of `ledger-direct/src/close.rs`: drain the pool to its stream head, then true the
aggregate to the value of the open layers and post the residue to the variance account. `none` is a
raised error, which rolls the whole close back.
-/

namespace Acct.V32

def maxDrainPasses : ℕ := 10000

/-- `claim_pool`: refuses a halted pool, and makes sure of the queue row. -/
def claimPool (db : PoolDb) : Option PoolDb :=
  if db.escalation.isSome then none else some { db with queued := true }

/-- `drain_pool_to_head`: passes until the queue decision reports the pool clean, or one records an
escalation. -/
def drainPoolToHead (cfg : PoolCfg) (periods : List AccountingPeriod) : ℕ → PoolDb → Option PoolDb
  | 0, _ => none
  | passes + 1, db => do
    let db ← claimPool db
    let db ← runClaimedPass cfg periods (readClaim db.settlement) db
    if db.escalation.isSome || !db.queued then return db
    else drainPoolToHead cfg periods passes db

/-- `Σ value_sum` over the open layers. -/
def layerValueSum (layers : List LayerRow) : ℤ := (layers.map (·.valueSum)).sum

/-- `apply_residue`: true the aggregate to the layers; returns the residue it absorbed. -/
def applyResidue (layers : List LayerRow) (agg : Aggregate) : Option (Aggregate × ℤ) := do
  let v ← toI64? (layerValueSum layers)
  if agg.valueSum = v then return (agg, 0)
  else
    let unitCost ← averageOr agg.unitCost v agg.qty
    let residue ← toI64? (agg.valueSum - v)
    return (⟨agg.qty, unitCost, v⟩, residue)

/-- The zero-quantity `cost_adjustment_line` of a sweep and its `posting_line`. -/
structure ResiduePosting where
  postingLineId : ℤ
  amount : ℤ
  debitAccount : ℤ
  creditAccount : ℤ
  deriving DecidableEq

/-- `post_residue_gl`: a positive residue leaves inventory into variance, a negative one
reverses. -/
def postResidueGl (cfg : PoolCfg) (postingLineId residue : ℤ) : Option ResiduePosting := do
  let accounts ← cfg.accounts
  let variance ← accounts.variance
  let inventory := accounts.receipt.1
  let amount ← toI64? (|residue|)
  return if residue > 0 then ⟨postingLineId, amount, variance, inventory⟩
    else ⟨postingLineId, amount, inventory, variance⟩

/-- The end of `sweep_pool`, on the drained pool: nothing to true up without an aggregate row. -/
def trueUp (cfg : PoolCfg) (db : PoolDb) : Option (PoolDb × Option ResiduePosting) :=
  match db.aggregate with
  | none => some (db, none)
  | some agg => do
    let (agg, residue) ← applyResidue db.layers agg
    if residue = 0 then return ({ db with aggregate := some agg }, none)
    else
      let posting ← postResidueGl cfg db.nextPostingLineId residue
      return ({ db with aggregate := some agg, nextPostingLineId := db.nextPostingLineId + 1 },
        some posting)

def sweepPool (cfg : PoolCfg) (periods : List AccountingPeriod) (db : PoolDb) :
    Option (PoolDb × Option ResiduePosting) := do
  let db ← claimPool db
  let db ← drainPoolToHead cfg periods maxDrainPasses db
  if db.escalation.isSome then none else trueUp cfg db

end Acct.V32
