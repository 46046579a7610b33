import Acct.V32.Direct.Close
import Acct.V32.Pool

/-!
# All FIFO/LIFO pools under submissions, feed batches, passes and period closes

Whole transactions, run one after another in any order. A submission writes its lines through
`period_guard_trx_line`; `ledger_close_period` (`ledger-direct/src/close.rs`) gates, drains and
sweeps the pools with activity in the period, and stamps it.
-/

namespace Acct.V32

variable (cfg : LedgerCfg) (s : Ledger) (endAt : ℤ) (period : AccountingPeriod)

/-- What is fixed about the FIFO/LIFO pools. -/
structure LedgerCfg where
  poolIds : List ℤ
  pool : ℤ → PoolCfg

/-- The pools, the periods and the residues. -/
structure Ledger where
  pools : ℤ → Pool
  periods : PeriodTable
  residues : ℤ → List ResiduePosting

namespace Ledger

def setPool (id : ℤ) (pool : Pool) : Ledger :=
  { s with pools := Function.update s.pools id pool }

/-! ### Submissions, feed batches and passes -/

def submitLine (line : ℤ × SubmitLine) : Option Ledger :=
  if line.1 ∈ cfg.poolIds ∧
      (line.2.qty = 0 ∨ PeriodGuardAdmits s.periods.rows line.2.postedAt) then
    ((s.pools line.1).exec? (cfg.pool line.1) (.submit line.2)).map (s.setPool line.1)
  else none

/-- A submission: all of its lines or none. -/
def submit (lines : List (ℤ × SubmitLine)) : Option Ledger :=
  lines.foldlM (submitLine cfg) s

def eventsOf (batch : List (ℤ × TrxLineEvent)) (id : ℤ) : List TrxLineEvent :=
  (batch.filter (·.1 = id)).map (·.2)

/-- The feed delivers committed rows only; a sweep commits `cost_adjustment_line` rows too. -/
def Delivers (e : ℤ × TrxLineEvent) : Prop :=
  e.1 ∈ cfg.poolIds ∧ (Committed (s.pools e.1).db e.2 ∨
    (e.2 = .costAdjustment ∧ s.residues e.1 ≠ []))
  deriving Decidable

def feed (batch : List (ℤ × TrxLineEvent)) : Option Ledger :=
  if ∀ e ∈ batch, s.Delivers cfg e then
    some { s with pools := fun id => {
      db := feedApply (cfg.pool id) (eventsOf batch id) (s.pools id).db
      delivered := (s.pools id).delivered ++ physicalIds (eventsOf batch id) } }
  else none

/-- An engine pass over one pool. -/
def pass (cfg : LedgerCfg) (s : Ledger) (id : ℤ) : Option Ledger :=
  if id ∈ cfg.poolIds then
    ((s.pools id).exec? (cfg.pool id) (.pass s.periods.rows)).map (s.setPool id)
  else none

/-! ### The close gate -/

/-- A row of `gate_pools`, without the gross value, which is only reported. -/
structure GatePool where
  poolId : ℤ
  unsettledEvents : ℕ
  floorPending : Bool
  deriving DecidableEq

def GatePool.lagging (g : GatePool) : Bool := decide (g.unsettledEvents > 0) || g.floorPending

/-- The physical lines before `endAt`. -/
def linesBefore (id endAt : ℤ) : List TrxLine :=
  (s.pools id).db.lines.filter (·.postedAt < endAt)

/-- One row of `gate_pools`: the unsettled lines before `endAt`, and whether a recost floor lies
before it. The gross value of the lines can leave the `bigint` range. -/
def gatePool (id : ℤ) : Option GatePool := do
  let claim := readClaim (s.pools id).db.settlement
  let unsettled := (s.linesBefore id endAt).filter fun t => After claim.settled t.pos
  let values ← unsettled.mapM fun t => toI64? (|t.qty| * t.unitCost)
  let _ ← toI64? values.sum
  return ⟨id, unsettled.length, decide (∃ f ∈ claim.floor, (ofLex f).1 < endAt)⟩

/-- `gate_pools`: the pools with any physical line before `endAt`. -/
def gatePools : Option (List GatePool) :=
  (cfg.poolIds.filter fun id => s.linesBefore id endAt ≠ []).mapM (s.gatePool endAt)

/-- `in_period_event_count` -/
def inPeriodEventCount : ℕ :=
  (cfg.poolIds.map fun id => (s.linesBefore id endAt).length).sum

/-- `feed_currency`, with the feed required: the slot's confirmed position has reached the position
read at gate entry, so every line committed before has been delivered and applied. -/
def FeedCurrent : Prop :=
  ∀ id ∈ cfg.poolIds, ∀ t ∈ (s.pools id).db.lines, t.id ∈ (s.pools id).delivered
  deriving Decidable

/-! ### The close -/

def sweep (id : ℤ) : Option Ledger := do
  let (db, posting) ← sweepPool (cfg.pool id) s.periods.rows (s.pools id).db
  return { s.setPool id { s.pools id with db } with
    residues := Function.update s.residues id (s.residues id ++ posting.toList) }

def maxRecheckRounds : ℕ := 64

/-- The pools the re-check still has to sweep: those that lag or were not swept yet. -/
def stragglers (swept : List ℤ) (s : Ledger) : Option (List ℤ) :=
  (s.gatePools cfg endAt).map fun gate =>
    (gate.filter fun g => g.lagging || decide (g.poolId ∉ swept)).map (·.poolId)

/-- The re-check loop under the fence: sweep the stragglers until there are none. -/
def recheck (cfg : LedgerCfg) (endAt : ℤ) : ℕ → List ℤ → Ledger → Option Ledger
  | 0, swept, s => do
    let ids ← stragglers cfg endAt swept s
    if ids.isEmpty then return s else none
  | rounds + 1, swept, s => do
    let ids ← stragglers cfg endAt swept s
    if ids.isEmpty then return s
    else
      let s ← ids.foldlM (sweep cfg) s
      recheck cfg endAt rounds (swept ++ ids) s

/-- `mark_closing` -/
def markClosing : Ledger :=
  if period.state = .isOpen then { s with periods := s.periods.setState period.id .isClosing }
  else s

/-- The close proper, once the gate has let it through: sweep, fence, re-check, recount, stamp. -/
def finalize (gate : List GatePool) : Option Ledger := do
  let s' ← (gate.map (·.poolId)).foldlM (sweep cfg) s
  let s' ← recheck cfg period.endAt maxRecheckRounds (gate.map (·.poolId)) s'
  if s'.inPeriodEventCount cfg period.endAt = s.inPeriodEventCount cfg period.endAt then
    return { s' with periods := s'.periods.setState period.id .isClosed }
  else none

/-- The gate: a halted pool or a feed that is not current refuses the close, forced or not; lagging
pools refuse it unless forced. -/
def gated (gate : List GatePool) (force : Bool) : Option Ledger :=
  if gate.any fun g => (s.pools g.poolId).db.escalation.isSome then some (s.markClosing period)
  else if ¬ s.FeedCurrent cfg then some (s.markClosing period)
  else if gate.any (·.lagging) ∧ ¬ force then some (s.markClosing period)
  else s.finalize cfg period gate

/-- `ledger_close_period`. -/
def closePeriod (id : ℤ) (force : Bool) : Option Ledger := do
  -- `advisory_key`: the id must fit `int4`.
  if ¬ (-2 ^ 31 ≤ id ∧ id < 2 ^ 31) then none
  else
    let period ← s.periods.rows.find? (·.id = id)
    if period.state = .isClosed then return s
    -- `reject_out_of_order`
    else if ∃ p ∈ s.periods.rows, p.state ≠ .isClosed ∧ p.startDate < period.startDate then none
    else
      let gate ← s.gatePools cfg period.endAt
      s.gated cfg period gate force

/-! ### Runs -/

/-- The atomic operations on the ledger. -/
inductive Op
  | submit (lines : List (ℤ × SubmitLine))
  | feed (batch : List (ℤ × TrxLineEvent))
  | pass (pool : ℤ)
  | abortedPass
  | close (period : ℤ) (force : Bool)

/-- An operation that succeeds. -/
def exec? : Op → Option Ledger
  | .submit lines => s.submit cfg lines
  | .feed batch => s.feed cfg batch
  | .pass id => s.pass cfg id
  | .abortedPass => none
  | .close period force => s.closePeriod cfg period force

/-- Empty pools and a table of periods. -/
def init (periods : PeriodTable) : Ledger := ⟨fun _ => {}, periods, fun _ => []⟩

/-- A sequence of operations from empty pools. -/
def run (cfg : LedgerCfg) (periods : PeriodTable) (ops : List Op) : Ledger :=
  Machine.run (exec? cfg) (init periods) ops

end Ledger

end Acct.V32
