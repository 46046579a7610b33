import Acct.Machine.Run
import Acct.V32.Feed.Consumer

/-!
# One FIFO/LIFO pool under submissions, feed batches and engine passes

The three writers of a pool, run one after another in any order: submissions of a single line
(`dispatch_cte_line` of `ledger-direct/src/submit.rs`), feed batches over committed lines, and
engine passes that commit or abort. An operation that raises an error leaves the pool as it was.
-/

namespace Acct.V32

structure SubmitLine where
  /-- The `trx_line` id the insert is given. -/
  id : ℤ
  postedAt : ℤ
  lineType : LineType
  qty : ℤ
  unitCost : ℤ
  /-- The pool's standard cost, if its observed costs are on standard basis. -/
  standard : Option ℤ
  /-- Direct submissions are gated by backpressure; drained ones were when they were staged. -/
  enforceBackpressure : Bool
  deriving DecidableEq

/-- The FIFO/LIFO arms of `dispatch_cte_line`, behind the admission checks of `apply_submission`. -/
def submitLine (cfg : PoolCfg) (r : SubmitLine) (db : PoolDb) : Option PoolDb :=
  if r.qty = 0 then some db   -- zero-quantity lines are dropped
  else if r.enforceBackpressure ∧ db.backpressure.isSome then none
  else if cfg.accounts.isNone then none
  else if r.qty > 0 then do
    let a ← flReceipt db.aggregate r.qty r.unitCost
    let t ← TrxLine.insert? r.id r.postedAt r.lineType r.qty r.unitCost
    return { db with aggregate := some a, lines := db.lines ++ [t] }
  else do
    let q ← toI64? (-r.qty)
    let (a, appliedUc) ← flDeplete db.aggregate q r.standard
    let t ← TrxLine.insert? r.id r.postedAt r.lineType (0 - q) appliedUc
    return { db with aggregate := some a, lines := db.lines ++ [t] }

/-- The pool's tables and the ids of the physical lines the feed has delivered so far. -/
structure Pool where
  db : PoolDb := {}
  delivered : List ℤ := []
  deriving DecidableEq

/-- The atomic operations on a pool. -/
inductive PoolOp
  | submit (r : SubmitLine)
  | feed (batch : List TrxLineEvent)
  | pass (periods : List AccountingPeriod)
  | abortedPass

/-- The feed delivers committed rows only. -/
def Committed (db : PoolDb) : TrxLineEvent → Prop
  | .physical id postedAt => ∃ t ∈ db.lines, t.id = id ∧ t.postedAt = postedAt
  | .costAdjustment => db.adjustments ≠ []

instance (db : PoolDb) : (e : TrxLineEvent) → Decidable (Committed db e)
  | .physical id postedAt =>
    inferInstanceAs (Decidable (∃ t ∈ db.lines, t.id = id ∧ t.postedAt = postedAt))
  | .costAdjustment => inferInstanceAs (Decidable (db.adjustments ≠ []))

def physicalIds (batch : List TrxLineEvent) : List ℤ :=
  batch.filterMap fun
    | .physical id _ => some id
    | .costAdjustment => none

/-- An operation that succeeds; `none` if it raises an error or is not possible now. -/
def Pool.exec? (cfg : PoolCfg) (s : Pool) : PoolOp → Option Pool
  | .submit r =>
    -- The identity column never hands out an id twice.
    if ∀ t ∈ s.db.lines, t.id ≠ r.id then
      (submitLine cfg r s.db).map fun db => { s with db }
    else none
  | .feed batch =>
    if ∀ e ∈ batch, Committed s.db e then
      some { db := feedApply cfg batch s.db, delivered := s.delivered ++ physicalIds batch }
    else none
  | .pass periods => (recalcStep cfg periods s.db).map fun db => { s with db }
  | .abortedPass => none

/-- One operation: a failed one changes nothing. -/
abbrev Pool.step (cfg : PoolCfg) (s : Pool) (op : PoolOp) : Pool :=
  Machine.step (Pool.exec? cfg) s op

/-- A sequence of operations from the empty pool. -/
def Pool.run (cfg : PoolCfg) (ops : List PoolOp) : Pool := Machine.run (Pool.exec? cfg) {} ops

/-- Every operation of a sequence meets `C` in the state it runs in. -/
abbrev Pool.Throughout (cfg : PoolCfg) (C : Pool → PoolOp → Prop) (s : Pool) (ops : List PoolOp) :
    Prop := Machine.Throughout (Pool.exec? cfg) C s ops

/-- Nothing is left to do: every line has been delivered, and there is neither a queue row nor a
recost floor. -/
@[mk_iff] structure Pool.AtRest (s : Pool) : Prop where
  delivered : ∀ t ∈ s.db.lines, t.id ∈ s.delivered
  not_queued : s.db.queued = false
  no_floor : s.db.settlement.bind (·.recostFloor) = none

instance : DecidablePred Pool.AtRest := fun s => decidable_of_iff' _ (Pool.atRest_iff s)

end Acct.V32
