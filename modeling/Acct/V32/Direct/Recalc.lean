import Acct.Table.Keyed
import Acct.V32.Core.Strict
import Acct.V32.Db.Period
import Acct.V32.Direct.Cte

/-!
# The recalc engine

One claimed pass of `ledger-direct/src/recalc.rs` over the rows of one FIFO/LIFO pool: replay the
pool's physical lines in business order, either all of them or those after the settled frontier from
the persisted layers, write a new generation of authoritative costs, and decide whether the pool
stays queued. `none` is a raised error.
-/

namespace Acct.V32

variable (lines : List TrxLine) (cfg : PoolCfg) (from' : Option Pos)
  (periods : List AccountingPeriod)

/-! ### The rows of one pool -/

/-- A `pool_state` row with `layer_id > 0`. -/
structure LayerRow where
  layerId : ℤ
  qty : ℤ
  unitCost : ℤ
  valueSum : ℤ
  deriving DecidableEq

/-- The pool's `pool_settlement` row. -/
structure PoolSettlement where
  generation : ℤ
  /-- `settled_through_*`: everything the layers and settlements cover is at or before it. -/
  settledThrough : Option Pos
  /-- `recost_floor_*`: the earliest position to re-cost. -/
  recostFloor : Option Pos
  deriving DecidableEq

/-- A `cost_settlement` row. -/
structure CostSettlement where
  depletionTrxLineId : ℤ
  generation : ℤ
  authoritativeUnitCost : ℤ
  priorUnitCost : ℤ
  adjustmentPostingLineId : Option ℤ
  deriving DecidableEq

/-- A `cost_layer_consumption` row. -/
structure LayerConsumption where
  depletionTrxLineId : ℤ
  layerTrxLineId : ℤ
  generation : ℤ
  qty : ℤ
  unitCost : ℤ
  deriving DecidableEq

/-- A `cost_adjustment_line` and the `posting_line` written with it in one statement. -/
structure CostAdjustment where
  /-- The depletion it corrects. -/
  sourceTrxLineId : ℤ
  qty : ℤ
  unitCost : ℤ
  postingLineId : ℤ
  amount : ℤ
  debitAccount : ℤ
  creditAccount : ℤ
  deriving DecidableEq

/-- An unresolved `recalc_escalation` row. -/
structure Escalation where
  closedPeriodId : Option ℤ
  depletionTrxLineId : ℤ
  hadSettlement : Bool
  frozenUnitCost : ℤ
  recomputedUnitCost : ℤ
  qty : ℤ
  divergingDepletions : ℕ
  totalValueDivergence : ℤ
  deriving DecidableEq

/-- The tables' rows of one FIFO/LIFO pool. -/
structure PoolDb where
  /-- The physical `trx_line` rows, in the order they were committed. -/
  lines : List TrxLine := []
  aggregate : Option Aggregate := none
  layers : List LayerRow := []
  consumptions : List LayerConsumption := []
  costSettlements : List CostSettlement := []
  adjustments : List CostAdjustment := []
  /-- The next value of the `posting_line` identity. -/
  nextPostingLineId : ℤ := 1
  settlement : Option PoolSettlement := none
  /-- Whether the pool has its `recalc_queue` row. -/
  queued : Bool := false
  /-- `recalc_backlog.pending_events`. -/
  backlog : Option ℤ := none
  /-- `recalc_backpressure.engage_events`. -/
  backpressure : Option ℤ := none
  escalation : Option Escalation := none
  deriving DecidableEq

/-- The single `recalc_backpressure_config` row. -/
structure BackpressureConfig where
  boundEvents : ℤ
  lowWater : ℤ
  bound_pos : 0 < boundEvents
  low_nonneg : 0 ≤ lowWater
  low_lt_bound : lowWater < boundEvents

/-- `INSERT INTO recalc_backpressure_config DEFAULT VALUES` -/
def BackpressureConfig.initial : BackpressureConfig := ⟨200, 20, by decide, by decide, by decide⟩

/-- What is fixed about a FIFO/LIFO pool. -/
structure PoolCfg where
  /-- `method = 'lifo'`. -/
  newestFirst : Bool
  /-- The pool's `posting_account_map` row, if there is one. -/
  accounts : Option PostingAccounts
  backpressure : BackpressureConfig

/-! ### Reading the claim and the stream -/

/-- The settlement state a pass starts from. -/
structure Claim where
  generation : ℤ
  settled : Option Pos
  floor : Option Pos
  deriving DecidableEq

/-- `read_claim`: a missing settlement row reads as generation 0. -/
def readClaim : Option PoolSettlement → Claim
  | none => ⟨0, none, none⟩
  | some s => ⟨s.generation, s.settledThrough, s.recostFloor⟩

/-- Any floor, and a pool never settled, force a replay from the opening. -/
def Claim.fullReplay (claim : Claim) : Bool := claim.floor.isSome || claim.settled.isNone

def Claim.scanFrom (claim : Claim) : Option Pos := if claim.fullReplay then none else claim.settled

/-- `ORDER BY t.posted_at, t.id`. -/
def sortLines : List TrxLine := Table.sortBy (·.pos) lines

/-- `$2 IS NULL OR (t.posted_at, t.id) > ($2, $3)`. -/
def After (p : Pos) : Prop := ∀ f ∈ from', f < p
  deriving Decidable

/-- `scan_events`: the physical lines after `from'`, in business order. -/
def scanEvents : List TrxLine :=
  sortLines (lines.filter fun t => After from' t.pos)

/-- `hydrate_layers`: the persisted layers in the business order of their receipts. -/
def hydrateLayers (layers : List LayerRow) : List StrictLayer :=
  (sortLines lines).filterMap fun t =>
    (layers.find? (·.layerId = t.id)).map fun l => ⟨l.layerId, l.qty, l.unitCost⟩

def TrxLine.toEvent (t : TrxLine) : StrictEvent := ⟨t.id, t.qty, t.unitCost⟩

/-! ### The generation to write -/

/-- The max-generation `cost_settlement` row of a depletion. -/
def currentSettlement (rows : List CostSettlement) (depletion : ℤ) : Option CostSettlement :=
  Table.latest (·.generation) (rows.filter (·.depletionTrxLineId = depletion))

/-- `load_priors`, for one depletion: its current authoritative cost. -/
def currentCost (rows : List CostSettlement) (depletion : ℤ) : Option ℤ :=
  (currentSettlement rows depletion).map (·.authoritativeUnitCost)

/-- A depletion whose rows of the new generation are to be written. -/
structure Pending where
  costing : DepletionCosting
  lineType : LineType
  postedAt : ℤ
  priorUnitCost : ℤ
  /-- `(authoritative - prior) * qty`. -/
  delta : ℤ
  deriving DecidableEq

/-- The pending set: the depletions costed for the first time, and those whose authoritative cost
moved. Fails if a costed depletion is missing from the scan. -/
def pendingSet (rows : List CostSettlement) (scanned : List TrxLine) :
    List DepletionCosting → Option (List Pending)
  | [] => some []
  | c :: costings => do
    let current := currentCost rows c.depletionTrxLineId
    let prior := current.getD c.observedUnitCost
    if current.isNone ∨ c.authoritativeUnitCost ≠ prior then
      let line ← scanned.find? (·.id = c.depletionTrxLineId)
      let rest ← pendingSet rows scanned costings
      return ⟨c, line.lineType, line.postedAt, prior,
        (c.authoritativeUnitCost - prior) * c.qty⟩ :: rest
    else pendingSet rows scanned costings

/-- `detect_closed_period_divergence`: does any pending settlement re-cost a depletion below the
closed frontier? The exemplar is the earliest one whose cost really differs. -/
def detectClosedPeriodDivergence (pending : List Pending) : Option Escalation :=
  let frozen := pending.filter fun p => Frozen periods p.postedAt
  -- `ORDER BY t.posted_at, t.id`
  let affected := Table.sortBy
    (fun p : Pending => (toLex (p.postedAt, p.costing.depletionTrxLineId) : Pos)) frozen
  match (affected.find? (·.delta ≠ 0)).or affected.head? with
  | none => none
  | some p => some {
      closedPeriodId := ((closedPeriods periods).find? (·.Covers p.postedAt)).map (·.id)
      depletionTrxLineId := p.costing.depletionTrxLineId
      hadSettlement := p.delta ≠ 0 ∨ p.priorUnitCost ≠ p.costing.observedUnitCost
      frozenUnitCost := p.priorUnitCost
      recomputedUnitCost := p.costing.authoritativeUnitCost
      qty := p.costing.qty
      divergingDepletions := (affected.filter (·.delta ≠ 0)).length
      -- `i64::try_from(..).unwrap_or(i64::MAX)`
      totalValueDivergence := (toI64? (affected.map (·.delta)).sum).getD (2 ^ 63 - 1) }

/-- `record_escalation`: at most one unresolved escalation per pool. -/
def recordEscalation (db : PoolDb) (e : Escalation) : PoolDb :=
  { db with escalation := db.escalation.or (some e) }

/-- The accounts of an adjustment: a positive delta posts more of the depletion (the pair swapped),
a negative one hands value back (the pair as stored). -/
def adjustmentAccounts (pair : ℤ × ℤ) (delta : ℤ) : ℤ × ℤ :=
  if delta > 0 then (pair.2, pair.1) else pair

/-- The `cost_adjustment_line` and posting of one depletion with a non-zero delta. -/
def adjustmentOf (accounts : PostingAccounts) (postingLineId : ℤ) (p : Pending) :
    Option CostAdjustment := do
  let amount ← toI64? (|p.delta|)
  let pair := adjustmentAccounts (accounts.pairFor p.lineType) p.delta
  return ⟨p.costing.depletionTrxLineId, -p.costing.qty, p.costing.authoritativeUnitCost,
    postingLineId, amount, pair.1, pair.2⟩

/-- The loop over the adjusted depletions: postings with consecutive ids, each with its settlement
row. -/
def writeAdjusted (accounts : PostingAccounts) (generation : ℤ) :
    ℤ → List Pending → Option (List (CostAdjustment × CostSettlement))
  | _, [] => some []
  | postingLineId, p :: ps => do
    let a ← adjustmentOf accounts postingLineId p
    let rest ← writeAdjusted accounts generation (postingLineId + 1) ps
    return (a, ⟨p.costing.depletionTrxLineId, generation, p.costing.authoritativeUnitCost,
      p.priorUnitCost, some postingLineId⟩) :: rest

/-- The adjustments of a pass, in one `cost_adjustment` transaction if there are any. -/
def writeAdjustments (generation postingLineId : ℤ) (adjusted : List Pending) :
    Option (List (CostAdjustment × CostSettlement)) :=
  if adjusted.isEmpty then some []
  else cfg.accounts.bind fun accounts => writeAdjusted accounts generation postingLineId adjusted

/-- `write_generation`: the linkage of every pending depletion, an adjustment for every non-zero
delta, and the settlement rows, each of which `period_guard_cost_settlement` must admit. -/
def writeGeneration (generation : ℤ) (pending : List Pending) (db : PoolDb) : Option PoolDb := do
  let consumptions := pending.flatMap fun p => p.costing.draws.map fun d =>
    (⟨p.costing.depletionTrxLineId, d.layerTrxLineId, generation, d.qty, d.unitCost⟩ :
      LayerConsumption)
  let adjusted := pending.filter (·.delta ≠ 0)
  let written ← writeAdjustments cfg generation db.nextPostingLineId adjusted
  let zero := (pending.filter (·.delta = 0)).map fun p =>
    (⟨p.costing.depletionTrxLineId, generation, p.costing.authoritativeUnitCost, p.priorUnitCost,
      none⟩ : CostSettlement)
  if ∀ p ∈ pending, PeriodGuardAdmits periods p.postedAt then
    return { db with
      consumptions := db.consumptions ++ consumptions
      adjustments := db.adjustments ++ written.map (·.1)
      costSettlements := db.costSettlements ++ written.map (·.2) ++ zero
      nextPostingLineId := db.nextPostingLineId + adjusted.length }
  else none

/-! ### Settling -/

/-- `materialize_layers`: the open layers replace the persisted ones. -/
def materializeLayers : List StrictLayer → Option (List LayerRow)
  | [] => some []
  | l :: layers => do
    let valueSum ← toI64? (l.qty * l.unitCost)
    let rest ← materializeLayers layers
    return ⟨l.layerId, l.qty, l.unitCost, valueSum⟩ :: rest

/-- `reconcile_aggregate_value`: fold the pass's net delta into the aggregate row, if there is
one. -/
def reconcileAggregateValue (row : Option Aggregate) (netDelta : ℤ) :
    Option (Option Aggregate) := do
  let net ← toI64? netDelta
  match row with
  | none => return none
  | some a =>
    let valueSum ← toI64? (a.valueSum - net)
    let unitCost ← averageOr a.unitCost (a.valueSum - net) a.qty
    return some { a with unitCost, valueSum }

/-- `settle`: advance the frontier and clear the floor only if it is still the claimed one. -/
def settle (claim : Claim) (generation : ℤ) (frontier : Pos) :
    Option PoolSettlement → PoolSettlement
  | none => ⟨generation, some frontier, none⟩
  | some s => ⟨max s.generation generation, some frontier,
      if s.recostFloor = claim.floor then none else s.recostFloor⟩

def lowerFloor (p : Pos) (s : PoolSettlement) : PoolSettlement :=
  if ∀ f ∈ s.recostFloor, p < f then { s with recostFloor := some p } else s

/-- The first physical line in `(from', frontier]` that the pass did not scan. -/
def firstMissed (frontier : Pos) (scannedIds : List ℤ) : Option TrxLine :=
  (sortLines (lines.filter fun t =>
    After from' t.pos ∧ t.pos ≤ frontier ∧ t.id ∉ scannedIds)).head?

/-- The physical lines above the frontier. -/
def tailCount (frontier : Option Pos) : ℤ :=
  (lines.filter fun t => After frontier t.pos).length

/-- The engine's reset of the backpressure state to the exact tail. -/
def resetBackpressure (cfg : BackpressureConfig) (tail : ℤ) (row : Option ℤ) : Option ℤ :=
  let engaged := if tail ≥ cfg.boundEvents then row.or (some tail) else row
  if tail ≤ cfg.lowWater then none else engaged

/-- `decide_queue`: lower the floor to a missed line, reset the backlog, and keep the queue row iff
work remains. -/
def decideQueue (frontier : Option Pos) (scannedIds : List ℤ) (floorPending : Bool) (db : PoolDb) :
    PoolDb :=
  let missed := frontier.bind fun f => firstMissed db.lines from' f scannedIds
  let settlement := match missed with
    | none => db.settlement
    | some t => db.settlement.map (lowerFloor t.pos)
  let tail := tailCount db.lines frontier
  { db with
    settlement
    backlog := some tail
    backpressure := resetBackpressure cfg.backpressure tail db.backpressure
    queued := floorPending || decide (tail > 0) || missed.isSome }

/-! ### One pass -/

/-- What a pass read and folded before it writes anything. -/
structure PassFold where
  scanned : List TrxLine
  out : StrictFoldOutput
  pending : List Pending

/-- The read part of `run_claimed_pass`. -/
def foldPass (claim : Claim) (db : PoolDb) : Option PassFold := do
  let opening := if claim.fullReplay then [] else hydrateLayers db.lines db.layers
  let scanned := scanEvents db.lines claim.scanFrom
  let out ← strictFold cfg.newestFirst opening (scanned.map (·.toEvent))
  let pending ← pendingSet db.costSettlements scanned out.costings
  return ⟨scanned, out, pending⟩

def PassFold.generation (pass : PassFold) (claim : Claim) : ℤ :=
  if pass.pending.isEmpty then claim.generation else claim.generation + 1

def PassFold.frontier (pass : PassFold) (claim : Claim) : Option Pos :=
  (pass.scanned.getLast?.map (·.pos)).or claim.settled

def PassFold.netDelta (pass : PassFold) : ℤ := (pass.pending.map (·.delta)).sum

/-- The generation write, skipped if nothing is pending. -/
def PassFold.write (pass : PassFold) (cfg : PoolCfg) (periods : List AccountingPeriod)
    (claim : Claim) (db : PoolDb) : Option PoolDb :=
  if pass.pending.isEmpty then some db
  else writeGeneration cfg periods (pass.generation claim) pass.pending db

/-- The layers, rewritten iff the replay advanced. -/
def PassFold.layers (pass : PassFold) (layers : List LayerRow) : Option (List LayerRow) :=
  if pass.scanned.isEmpty then some layers else materializeLayers pass.out.layers

/-- The aggregate row, reconciled iff the net delta is not zero. -/
def PassFold.aggregate (pass : PassFold) (row : Option Aggregate) : Option (Option Aggregate) :=
  if pass.netDelta = 0 then some row else reconcileAggregateValue row pass.netDelta

/-- The settlement row; a pool with no frontier has nothing to settle. -/
def PassFold.settlement (pass : PassFold) (claim : Claim) (row : Option PoolSettlement) :
    Option PoolSettlement :=
  match pass.frontier claim with
  | none => row
  | some f => some (settle claim (pass.generation claim) f row)

/-- The write part of `run_claimed_pass`, when no closed period is contradicted. -/
def writePass (claim : Claim) (pass : PassFold) (db : PoolDb) : Option PoolDb := do
  let db ← pass.write cfg periods claim db
  let layers ← pass.layers db.layers
  let aggregate ← pass.aggregate db.aggregate
  let settlement := pass.settlement claim db.settlement
  let floorPending := (pass.frontier claim).isSome && (settlement.bind (·.recostFloor)).isSome
  return decideQueue cfg claim.scanFrom (pass.frontier claim) (pass.scanned.map (·.id)) floorPending
    { db with layers, aggregate, settlement }

/-- `run_claimed_pass`. A divergence from a closed period is recorded instead of written; the queue
row stays. -/
def runClaimedPass (claim : Claim) (db : PoolDb) : Option PoolDb := do
  let pass ← foldPass cfg claim db
  match detectClosedPeriodDivergence periods pass.pending with
  | some e => return recordEscalation db e
  | none => writePass cfg periods claim pass db

/-- `ledger_recalc_step` on this pool: it is claimed if it is queued and not halted by an
escalation. -/
def recalcStep (db : PoolDb) : Option PoolDb :=
  if db.queued ∧ db.escalation = none then
    runClaimedPass cfg periods (readClaim db.settlement) db
  else none

end Acct.V32
