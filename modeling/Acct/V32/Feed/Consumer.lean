import Acct.V32.Direct.Recalc

/-!
# The feed consumer

`FeedConsumer::apply` of `ledger-feed/src/consumer.rs`: a delivered batch lowers the recost floor,
then bumps the backpressure counter, then marks the pool dirty, in one transaction. `feedApply` is
the transaction on the rows of one FIFO/LIFO pool, `feedIngest` on the rows of all pools.
-/

namespace Acct.V32

/-- One delivered `trx_line` insert: a physical line, or the engine's own `cost_adjustment_line`. -/
inductive TrxLineEvent
  | physical (id postedAt : ℤ)
  | costAdjustment
  deriving DecidableEq

def TrxLineEvent.pos? : TrxLineEvent → Option Pos
  | physical id postedAt => some (toLex (postedAt, id))
  | costAdjustment => none

/-- The least physical position of a batch. -/
def batchMin (batch : List TrxLineEvent) : Option Pos := (batch.filterMap (·.pos?)).min?

/-- The guard of the feed's floor `UPDATE`: strictly behind the settled frontier, and below any
floor already set. -/
def FloorGuard (m : Pos) (s : PoolSettlement) : Prop :=
  (∃ f ∈ s.settledThrough, m < f) ∧ ∀ f ∈ s.recostFloor, m < f
  deriving Decidable

/-- The floor `UPDATE` of one pool's row. -/
def feedFloor (batch : List TrxLineEvent) (s : PoolSettlement) : PoolSettlement :=
  match batchMin batch with
  | none => s
  | some m => if FloorGuard m s then { s with recostFloor := some m } else s

/-- The counter bump: the pool's backlog after `n` more physical events. -/
def feedBump (n : ℕ) (backlog : Option ℤ) : Option ℤ :=
  if n = 0 then backlog else some (backlog.getD 0 + n)

/-- The engage part of the same statement. -/
def feedEngage (cfg : BackpressureConfig) (n : ℕ) (backlog row : Option ℤ) : Option ℤ :=
  if n = 0 then row
  else if backlog.getD 0 + n ≥ cfg.boundEvents then row.or (some (backlog.getD 0 + n)) else row

def feedApply (cfg : PoolCfg) (batch : List TrxLineEvent) (db : PoolDb) : PoolDb :=
  let n := (batch.filterMap (·.pos?)).length
  { db with
    settlement := db.settlement.map (feedFloor batch)
    backlog := feedBump n db.backlog
    backpressure := feedEngage cfg.backpressure n db.backlog db.backpressure
    queued := db.queued || !batch.isEmpty }

/-! ### All pools -/

structure DeliveredLine where
  poolId : ℤ
  line : TrxLineEvent
  deriving DecidableEq

/-- The lines a batch delivers for one pool. -/
def linesOf (poolId : ℤ) (batch : List DeliveredLine) : List TrxLineEvent :=
  (batch.filter (·.poolId = poolId)).map (·.line)

/-- The rows `FeedConsumer::apply` writes, by pool. -/
structure FeedDb where
  settlement : ℤ → Option PoolSettlement
  backlog : ℤ → Option ℤ
  backpressure : ℤ → Option ℤ
  queued : ℤ → Bool

/-- `FeedConsumer::apply` on a batch for any pools. The counters are those of the FIFO and LIFO
pools (`layered`) only; a pool of any method is marked. -/
def feedIngest (cfg : BackpressureConfig) (layered : ℤ → Bool) (db : FeedDb)
    (batch : List DeliveredLine) : FeedDb :=
  let counted := fun p => if layered p then ((linesOf p batch).filterMap (·.pos?)).length else 0
  { settlement := fun p => (db.settlement p).map (feedFloor (linesOf p batch))
    backlog := fun p => feedBump (counted p) (db.backlog p)
    backpressure := fun p => feedEngage cfg (counted p) (db.backlog p) (db.backpressure p)
    queued := fun p => db.queued p || !(linesOf p batch).isEmpty }

end Acct.V32
