import Acct.Machine.Exclusive
import Acct.V32.Pool

/-!
# The hand-off between the feed and the recalc engine

One FIFO/LIFO pool under concurrent transactions, statement by statement: submissions of the hot
path, feed batches (`FeedConsumer::apply` of `ledger-feed/src/consumer.rs`) and engine passes
(`run_claimed_pass` of `ledger-direct/src/recalc.rs`). A row that is written and not committed is
locked, and a statement that has to wait for it is not enabled; an `UPDATE` that matches no
committed row does not wait.

Consecutive statements of a pass are one step where the later ones touch rows that only the pass can
write at that point: the layers, costs and adjustments under its claim, the settlement row after
`settle`, the backpressure row under the counter's lock.
-/

namespace Acct.V32.Handoff

open Machine

variable (cfg : PoolCfg) (s : State) (i : ℕ)

/-! ### Transactions -/

/-- A transaction of the hot path: the lines it has inserted and the aggregate row it wrote with
them. -/
structure Submitter where
  lines : List TrxLine := []
  aggregate : Option Aggregate := none

/-- Where `FeedConsumer::apply` is: after the floors, the counters, the marks. -/
inductive FeedStage
  | begun
  | floored
  | bumped
  | marked
  deriving DecidableEq

/-- A call of `FeedConsumer::apply` with its batch, and the rows it has written. -/
structure Feed where
  batch : List TrxLineEvent
  stage : FeedStage := .begun
  settlement : Option PoolSettlement := none
  /-- The `recalc_backlog` and `recalc_backpressure` rows. -/
  counter : Option (Option ℤ × Option ℤ) := none
  /-- It has inserted the queue row. -/
  mark : Bool := false

/-- How far the writes of a pass are. -/
inductive Point
  /-- `write_generation` and `materialize_layers`. -/
  | written
  /-- `reconcile_aggregate_value`. -/
  | reconciled
  | settled
  /-- The missed-line check of `decide_queue`, with the floor it lowers. -/
  | checked
  | counted
  | reset
  /-- Its `UPDATE` or `DELETE` of the queue row. -/
  | decided
  deriving DecidableEq

def Point.index : Point → ℕ
  | written => 0
  | reconciled => 1
  | settled => 2
  | checked => 3
  | counted => 4
  | reset => 5
  | decided => 6

lemma Point.index_injective : Function.Injective Point.index := by
  intro a b h
  cases a <;> cases b <;> first | rfl | cases h

instance : LinearOrder Point := LinearOrder.lift' Point.index Point.index_injective

/-- A pass that writes, with what it read and wrote. -/
structure Pass where
  claim : Claim
  fold : PassFold
  own : PoolDb
  /-- What `settle` returned. -/
  floorPending : Bool := false
  missed : Bool := false
  tail : ℤ := 0

namespace Pass

variable (p : Pass)

def frontier : Option Pos := p.fold.frontier p.claim

def firstMissed (lines : List TrxLine) : Option TrxLine :=
  p.frontier.bind fun f => V32.firstMissed lines p.claim.scanFrom f (p.fold.scanned.map (·.id))

/-- Work remains: the queue row stays. -/
def keeps : Bool := p.floorPending || decide (p.tail > 0) || p.missed

end Pass

/-- Where a pass is. -/
inductive PassStage
  /-- It holds the lock of the queue row. -/
  | claimed
  | read (claim : Claim)
  | folded (claim : Claim) (fold : PassFold)
  /-- It has recorded a divergence from a closed period. -/
  | escalated (e : Escalation)
  | writing (point : Point) (p : Pass)

/-- The transactions on a pool. -/
inductive Tx
  | submitter (t : Submitter)
  | feed (f : Feed)
  | pass (stage : PassStage)
  | finished

/-! ### Locks -/

namespace Tx

def HoldsAggregate : Tx → Prop
  | submitter t => t.lines ≠ []
  | pass (.writing point p) => .reconciled ≤ point ∧ p.fold.netDelta ≠ 0
  | _ => False

def HoldsSettlement : Tx → Prop
  | feed f => f.settlement.isSome
  | pass (.writing point p) => .settled ≤ point ∧ p.frontier.isSome
  | _ => False

def HoldsCounter : Tx → Prop
  | feed f => f.counter.isSome
  | pass (.writing point _) => .reset ≤ point
  | _ => False

def HoldsClaim : Tx → Prop
  | pass _ => True
  | _ => False

/-- It has inserted, updated or deleted the queue row. -/
def WroteQueue : Tx → Prop
  | feed f => f.mark
  | pass (.writing point _) => point = .decided
  | _ => False

instance : DecidablePred HoldsAggregate := fun tx => by
  unfold HoldsAggregate; split <;> infer_instance
instance : DecidablePred HoldsSettlement := fun tx => by
  unfold HoldsSettlement; split <;> infer_instance
instance : DecidablePred HoldsCounter := fun tx => by unfold HoldsCounter; split <;> infer_instance
instance : DecidablePred HoldsClaim := fun tx => by unfold HoldsClaim; split <;> infer_instance
instance : DecidablePred WroteQueue := fun tx => by unfold WroteQueue; split <;> infer_instance

/-- It is neither committed nor aborted. -/
def InFlight : Tx → Prop
  | finished => False
  | _ => True

instance : DecidablePred InFlight := fun tx => by unfold InFlight; split <;> infer_instance

end Tx

/-- The committed rows of the pool, with what the feed has delivered, and the transactions begun so
far. -/
structure State where
  pool : Pool := {}
  txs : List Tx := []

namespace State

abbrev db (s : State) : PoolDb := s.pool.db

def setTx (tx : Tx) : State := { s with txs := s.txs.set i tx }

/-! ### Statements -/

/-- `FL_RECEIPT` or `FL_DEPLETE`. Zero-quantity lines do not get here. -/
def insert (r : SubmitLine) (t : Submitter) : Option Submitter :=
  if r.qty ≠ 0 ∧ NoOther s.txs i Tx.HoldsAggregate then
    (submitLine cfg r
      { s.db with aggregate := t.aggregate.or s.db.aggregate, lines := t.lines }).map fun db =>
        ⟨db.lines, db.aggregate⟩
  else none

end State

/-- The `WHERE` clause of the feed's floor `UPDATE`, on the committed row. -/
def FloorMatches (batch : List TrxLineEvent) (row : Option PoolSettlement) : Prop :=
  ∃ s ∈ row, ∃ m ∈ batchMin batch, FloorGuard m s
  deriving Decidable

namespace State

/-- The next statement of `FeedConsumer::apply`. -/
def feedStep (f : Feed) : Option Feed :=
  match f.stage with
  | .begun =>
    if ¬ FloorMatches f.batch s.db.settlement then some { f with stage := .floored }
    -- a locked row is re-read when its writer is done
    else if NoOther s.txs i Tx.HoldsSettlement then
      some { f with stage := .floored, settlement := s.db.settlement.map (feedFloor f.batch) }
    else none
  | .floored =>
    let n := (f.batch.filterMap (·.pos?)).length
    if n = 0 then some { f with stage := .bumped }
    else if NoOther s.txs i Tx.HoldsCounter then
      some { f with
        stage := .bumped
        counter := some (feedBump n s.db.backlog,
          feedEngage cfg.backpressure n s.db.backlog s.db.backpressure) }
    else none
  | .bumped =>
    if f.batch = [] then some { f with stage := .marked }
    -- `ON CONFLICT DO NOTHING`: a row that is only claimed conflicts at once, one that is being
    -- inserted, updated or deleted makes it wait
    else if NoOther s.txs i Tx.WroteQueue then
      some { f with stage := .marked, mark := !s.db.queued }
    else none
  | .marked => none

/-- The next statement of `run_claimed_pass`; `none` also if it raises an error. -/
def passStep (periods : List AccountingPeriod) :
    PassStage → Option PassStage
  | .claimed => some (.read (readClaim s.db.settlement))
  | .read claim => (foldPass cfg claim s.db).map (.folded claim)
  | .folded claim fold =>
    match detectClosedPeriodDivergence periods fold.pending with
    | some e => some (.escalated e)
    | none => do
      let db ← fold.write cfg periods claim s.db
      let layers ← fold.layers db.layers
      return .writing .written { claim, fold, own := { db with layers } }
  | .escalated _ => none
  | .writing .written p =>
    if p.fold.netDelta = 0 then some (.writing .reconciled p)
    else if NoOther s.txs i Tx.HoldsAggregate then
      (p.fold.aggregate s.db.aggregate).map fun aggregate =>
        .writing .reconciled { p with own := { p.own with aggregate } }
    else none
  | .writing .reconciled p =>
    if p.frontier.isNone then some (.writing .settled p)
    else if NoOther s.txs i Tx.HoldsSettlement then
      let settlement := p.fold.settlement p.claim s.db.settlement
      some (.writing .settled { p with
        own := { p.own with settlement }
        floorPending := (settlement.bind (·.recostFloor)).isSome })
    else none
  | .writing .settled p =>
    match p.firstMissed s.db.lines with
    | none => some (.writing .checked p)
    | some t => some (.writing .checked { p with
        own := { p.own with settlement := p.own.settlement.map (lowerFloor t.pos) }
        missed := true })
  | .writing .checked p =>
    some (.writing .counted { p with tail := tailCount s.db.lines p.frontier })
  | .writing .counted p =>
    if NoOther s.txs i Tx.HoldsCounter then
      some (.writing .reset { p with own := { p.own with
        backlog := some p.tail
        backpressure := resetBackpressure cfg.backpressure p.tail s.db.backpressure } })
    else none
  | .writing .reset p => some (.writing .decided p)
  | .writing .decided _ => none

end State

/-! ### Commits -/

/-- The rows after a feed's commit. -/
def Feed.apply (f : Feed) (db : PoolDb) : PoolDb :=
  { db with
    settlement := f.settlement.or db.settlement
    backlog := (f.counter.map (·.1)).getD db.backlog
    backpressure := (f.counter.map (·.2)).getD db.backpressure
    queued := db.queued || f.mark }

/-- The rows after a pass's commit. -/
def Pass.apply (p : Pass) (db : PoolDb) : PoolDb :=
  { p.own with
    lines := db.lines
    aggregate := if p.fold.netDelta = 0 then db.aggregate else p.own.aggregate
    settlement := if p.frontier.isSome then p.own.settlement else db.settlement
    queued := p.keeps
    escalation := db.escalation }

/-- `COMMIT`. The identity column never hands out an id twice. -/
def Tx.commit (pool : Pool) : Tx → Option Pool
  | .submitter t =>
    if ((pool.db.lines ++ t.lines).map (·.id)).Nodup then
      some { pool with db := { pool.db with
        lines := pool.db.lines ++ t.lines
        aggregate := t.aggregate.or pool.db.aggregate } }
    else none
  | .feed f =>
    if f.stage = .marked then
      some { db := f.apply pool.db, delivered := pool.delivered ++ physicalIds f.batch }
    else none
  | .pass (.escalated e) => some { pool with db := recordEscalation pool.db e }
  | .pass (.writing .decided p) => some { pool with db := p.apply pool.db }
  | _ => none

/-! ### Runs -/

inductive Action
  | beginSubmit
  | insert (i : ℕ) (r : SubmitLine)
  /-- A call of `FeedConsumer::apply`. -/
  | beginFeed (batch : List TrxLineEvent)
  | feed (i : ℕ)
  /-- `claim_next`. -/
  | claim
  | pass (i : ℕ) (periods : List AccountingPeriod)
  | commit (i : ℕ)
  | abort (i : ℕ)

/-- An action that is enabled and raises no error. -/
def State.exec? : Action → Option State
  | .beginSubmit => some { s with txs := s.txs ++ [.submitter {}] }
  | .insert i r =>
    match s.txs[i]? with
    | some (.submitter t) => (s.insert cfg i r t).map fun t => s.setTx i (.submitter t)
    | _ => none
  | .beginFeed batch =>
    -- the feed delivers committed rows only
    if ∀ e ∈ batch, Committed s.db e then some { s with txs := s.txs ++ [.feed { batch }] }
    else none
  | .feed i =>
    match s.txs[i]? with
    | some (.feed f) => (s.feedStep cfg i f).map fun f => s.setTx i (.feed f)
    | _ => none
  | .claim =>
    -- `FOR UPDATE SKIP LOCKED`, past pools that are halted
    if s.db.queued ∧ s.db.escalation = none ∧ NoOther s.txs s.txs.length Tx.HoldsClaim then
      some { s with txs := s.txs ++ [.pass .claimed] }
    else none
  | .pass i periods =>
    match s.txs[i]? with
    | some (.pass stage) =>
      (s.passStep cfg i periods stage).map fun stage => s.setTx i (.pass stage)
    | _ => none
  | .commit i =>
    match s.txs[i]? with
    | some tx => (tx.commit s.pool).map fun pool => { pool, txs := s.txs.set i .finished }
    | none => none
  | .abort i =>
    match s.txs[i]? with
    | some _ => some (s.setTx i .finished)
    | none => none

/-- A run from the empty pool. -/
def run (cfg : PoolCfg) (actions : List Action) : State :=
  Machine.run (State.exec? cfg) {} actions

/-- No transaction is in flight and nothing is left to do. -/
@[mk_iff] structure State.AtRest (s : State) : Prop where
  idle : ∀ tx ∈ s.txs, ¬ tx.InFlight
  pool : s.pool.AtRest
  no_escalation : s.db.escalation = none

instance : DecidablePred State.AtRest := fun s => decidable_of_iff' _ (State.atRest_iff s)

end Acct.V32.Handoff
