import Acct.Locking.Transaction
import Acct.V32.Direct.Cte
import Acct.V32.Spi.BulkWrite
import Mathlib.Data.List.Dedup

/-!
# Submissions and the staging drain

`apply_submission` of `ledger-direct/src/submit.rs` as the statements it sends, with the locks each
takes: the `trx` row with its unique key, the STD and specific lines in one phase under the locks of
their `pool` rows, then one statement on the aggregate row for every WAC, FIFO and LIFO line.
`ledger_staging_drain` (`drain.rs`) runs a batch of submissions, each in a subtransaction, and keeps
what they locked until it commits.
-/

namespace Acct.V32

open Table Locking

/-- The SQL `trx_type` enum. -/
inductive TrxType
  | poReceipt
  | woCompletion
  | invAdjustment
  | transferShipment
  | transferReceipt
  | manualAdjustment
  | revaluationRun
  | costAdjustment
  deriving DecidableEq

def TrxType.code : TrxType → ℕ
  | poReceipt => 0
  | woCompletion => 1
  | invAdjustment => 2
  | transferShipment => 3
  | transferReceipt => 4
  | manualAdjustment => 5
  | revaluationRun => 6
  | costAdjustment => 7

/-! ### Locks -/

inductive Lock
  /-- The unique key `(trx_type, source_id)` of `trx`. -/
  | trxKey (trxType : TrxType) (sourceId : ℤ)
  /-- The `pool` row of an STD or specific pool, which guards the pool's `pool_state` rows. -/
  | pool (id : ℤ)
  /-- The aggregate row of a WAC, FIFO or LIFO pool. -/
  | aggregate (poolId : ℤ)

/-- The order of acquisition: the key, then `pool` rows, then aggregate rows, each ascending. -/
def Lock.rank : Lock → ℕ ×ₗ ℕ ×ₗ ℤ
  | trxKey t sourceId => toLex (0, toLex (t.code, sourceId))
  | pool id => toLex (1, toLex (0, id))
  | aggregate id => toLex (2, toLex (0, id))

lemma TrxType.code_injective : Function.Injective TrxType.code := by
  intro t t' h
  cases t <;> cases t' <;> first | rfl | cases h

lemma Lock.rank_injective : Function.Injective Lock.rank := by
  intro l l' h
  have hlex := Prod.ext_iff.mp (toLex.injective h)
  have hinner := Prod.ext_iff.mp (toLex.injective hlex.2)
  cases l <;> cases l'
  case trxKey.trxKey t s t' s' =>
    rw [TrxType.code_injective hinner.1, show s = s' from hinner.2]
  case pool.pool p p' => rw [show p = p' from hinner.2]
  case aggregate.aggregate p p' => rw [show p = p' from hinner.2]
  all_goals cases hlex.1

instance : LinearOrder Lock := LinearOrder.lift' Lock.rank Lock.rank_injective

/-- The `pool_state` rows of one pool, by `layer_id`. -/
abbrev PoolRows := KeyedTable PoolStateRow.layerId

/-- What a lock guards: whether there is a `trx` row with the key, the rows of a pool, the aggregate
row of a pool. -/
def Cell : Lock → Type
  | .trxKey _ _ => Bool
  | .pool _ => PoolRows
  | .aggregate _ => Option Aggregate

instance : (k : Lock) → Inhabited (Cell k)
  | .trxKey _ _ => ⟨(false : Bool)⟩
  | .pool _ => ⟨(⟨[], List.nodup_nil⟩ : PoolRows)⟩
  | .aggregate _ => ⟨(none : Option Aggregate)⟩

namespace Cell

/-- There is a `trx` row with the key. -/
def trxTaken (s : Store Cell) (trxType : TrxType) (sourceId : ℤ) : Bool :=
  s (.trxKey trxType sourceId)

def poolRows (s : Store Cell) (p : ℤ) : PoolRows := s (.pool p)

def aggregateRow (s : Store Cell) (p : ℤ) : Option Aggregate := s (.aggregate p)

end Cell

/-! ### Submissions -/

/-- The reference data, which submissions only read. -/
structure Reference where
  pool : ℤ → Option PoolRow
  /-- `provisional_basis = 'standard'`. -/
  standardBasis : ℤ → Bool
  standardCost : ℤ × ℤ → Option ℤ
  postingAccountMap : ℤ × ℤ → Option PostingAccounts
  periods : PeriodTable

/-- An element of `lines[]`; the line type is `none` if its text is not one. -/
structure LineJson where
  poolId : ℤ
  lineType : Option LineType
  sourceId : Option ℤ
  qty : ℤ
  unitCost : ℤ

structure Submission where
  trxType : TrxType
  sourceId : ℤ
  postedAt : ℤ
  /-- `none` if the payload does not decode. -/
  lines : Option (List LineJson)
  /-- The identity values its STD and specific lines get. -/
  ids : List ℤ

/-- The lines of a submission; those without a quantity are dropped. -/
def decodeLines (lines : List LineJson) : Option (List TrxLineRequest) :=
  (lines.filter (·.qty ≠ 0)).mapM fun l =>
    l.lineType.map fun t => ⟨l.poolId, t, l.sourceId, l.qty, l.unitCost⟩

def ascendingIds (ids : List ℤ) : List ℤ := sortBy id ids.dedup

namespace Reference

variable (ref : Reference)

def isCore (p : ℤ) : Bool :=
  match (ref.pool p).map PoolRow.method with
  | some .std | some .specific => true
  | _ => false

def isConfigured (p : ℤ) : Bool :=
  match ref.pool p with
  | none => false
  | some row => (ref.postingAccountMap (row.skuId, row.locationId)).isSome

/-! ### Statements -/

/-- `insert_trx`: a duplicate key raises. -/
def trxStmt (sub : Submission) : Stmt Cell where
  locks := [.trxKey sub.trxType sub.sourceId]
  early _ := false
  effect s :=
    if Cell.trxTaken s sub.trxType sub.sourceId then none
    else some (Function.update s (.trxKey sub.trxType sub.sourceId) (true : Bool))

/-- The tables of the given pools. A layer's id is the id of a committed line. -/
def coreTables (pools : List ℤ) (s : Store Cell) : Tables where
  pool := ref.pool
  poolState :=
    { rows := pools.dedup.flatMap fun p => (Cell.poolRows s p).rows.map (p, ·)
      keys_nodup := by
        rw [List.map_flatMap, List.nodup_flatMap]
        refine ⟨fun p _ => ?_, (List.nodup_dedup pools).imp fun {p q} hne => ?_⟩
        · refine List.Nodup.of_map Prod.snd ?_
          rw [List.map_map, List.map_map]
          exact (Cell.poolRows s p).keys_nodup
        · intro k hk hk'
          simp only [List.map_map, List.mem_map, Function.comp_apply] at hk hk'
          obtain ⟨_, -, rfl⟩ := hk
          obtain ⟨_, -, heq⟩ := hk'
          exact hne (congrArg Prod.fst heq).symm }
  standardCost := ref.standardCost
  postingAccountMap := ref.postingAccountMap
  periods := ref.periods
  trxLineIds := pools.dedup.flatMap fun p => (Cell.poolRows s p).rows.map (·.layerId)

end Reference

def poolRowsOf (t : PoolState) (p : ℤ) : PoolRows where
  rows := (t.rows.filter (·.1 = p)).map (·.2)
  keys_nodup := by
    rw [List.map_map]
    have hnodup := t.keys_nodup_filter (·.1 = p)
    rw [List.nodup_map_iff_inj_on (List.Nodup.of_map _ hnodup)]
    intro r hr r' hr' heq
    have hp := of_decide_eq_true (List.mem_filter.mp hr).2
    have hp' := of_decide_eq_true (List.mem_filter.mp hr').2
    exact List.inj_on_of_nodup_map hnodup hr hr' (Prod.ext (hp.trans hp'.symm) heq)

namespace Reference

variable (ref : Reference) (sub : Submission)

/-- The ledger-core phase: lock the `pool` rows, hydrate, plan, bulk write. -/
def coreStmt (lines : List TrxLineRequest) : Stmt Cell where
  locks := (ascendingIds (lines.map (·.poolId))).map .pool
  early _ := false
  effect s := do
    let pools := ascendingIds (lines.map (·.poolId))
    let db := ref.coreTables pools s
    let plan ← (planApply (db.hydrateSnapshot pools) lines sub.postedAt).toOption
    let written ← db.applyPlanResult sub.postedAt plan (sub.ids.take plan.trxLines.length)
    return fun
      | .pool p => poolRowsOf written.poolState p
      | k => s k

/-- The ledger-core phase, which a submission without STD and specific lines skips. -/
def coreStmts (lines : List TrxLineRequest) : List (Stmt Cell) :=
  if lines = [] then [] else [ref.coreStmt sub lines]

/-- The gate of `WAC_DEPLETE`, on the row its `WHERE` clause sees. -/
def wacGate (row : Option Aggregate) (q : ℤ) : Bool :=
  match row with
  | none => false
  | some a => InI64 (a.qty - q) ∧ a.qty - q ≥ 0

def standardCostOf (row : PoolRow) : Option ℤ := ref.standardCost (row.skuId, row.locationId)

/-- What fails before the statement of a line takes a lock: the absolute value of the quantity, a
missing standard cost, and the gate of `WAC_DEPLETE`. -/
def cteEarly (line : TrxLineRequest) (row : PoolRow) (a : Option Aggregate) : Bool :=
  if line.qty > 0 then false
  else if ¬ InI64 |line.qty| then true
  else
    match row.method with
    | .wac => ¬ wacGate a |line.qty|
    | _ => ref.standardBasis line.poolId ∧ ref.standardCostOf row = none

/-- The aggregate row after the statement of a line, with the cost the line records. -/
def cteWrite (line : TrxLineRequest) (row : PoolRow) (a : Option Aggregate) :
    Option (Aggregate × ℤ) :=
  match row.method with
  | .wac =>
    if line.qty > 0 then (wacReceipt a line.qty line.unitCost).map (·, line.unitCost)
    else (wacDeplete a |line.qty|).join
  | _ =>
    if line.qty > 0 then (flReceipt a line.qty line.unitCost).map (·, line.unitCost)
    else
      flDeplete a |line.qty|
        (if ref.standardBasis line.poolId then ref.standardCostOf row else none)

/-- `dispatch_cte_line`: the statement of a WAC, FIFO or LIFO line. It writes the line, whose checks
and period guard can raise; a WAC line also posts its amount. -/
def cteStmt (line : TrxLineRequest) (row : PoolRow) : Stmt Cell where
  locks := [.aggregate line.poolId]
  early s := ref.cteEarly line row (Cell.aggregateRow s line.poolId)
  effect s := do
    let (a, cost) ← ref.cteWrite line row (Cell.aggregateRow s line.poolId)
    if 0 ≤ cost ∧ PeriodGuardAdmits ref.periods.rows sub.postedAt ∧
        (row.method = .wac → InI64 (|line.qty| * cost)) then
      some (Function.update s (.aggregate line.poolId) (some a : Option Aggregate))
    else none

def raiseStmt : Stmt Cell where
  locks := []
  early _ := true
  effect _ := none

/-- The commutative phase: lines sorted by pool, in submission order within a pool. -/
def cteStmts (lines : List TrxLineRequest) : List (Stmt Cell) :=
  (sortBy (·.poolId) lines).map fun line =>
    match ref.pool line.poolId with
    | some row => ref.cteStmt sub line row
    | none => raiseStmt

/-- The statements of `apply_submission`. -/
def submissionStmts : List (Stmt Cell) :=
  match sub.lines.bind decodeLines with
  | none => [raiseStmt]
  | some lines =>
    if lines.all fun l => ref.isConfigured l.poolId then
      let coreLines := lines.filter fun l => ref.isCore l.poolId
      let cteLines := lines.filter fun l => ¬ ref.isCore l.poolId
      trxStmt sub :: ref.coreStmts sub coreLines ++ ref.cteStmts sub cteLines
    else [raiseStmt]

/-- `apply_submission` on its own. -/
def applySubmission (s : Store Cell) : Option (Store Cell) := runAll (ref.submissionStmts sub) s

end Reference

/-! ### Concurrent callers -/

inductive SubmitAction
  /-- A transaction that calls `ledger_submit_trx`. -/
  | submit (sub : Submission)
  /-- A call of `ledger_staging_drain`, with the batch it claimed. -/
  | drain (batch : List Submission)
  | step (i : ℕ)
  | commit (i : ℕ)
  | abort (i : ℕ)
  | deadlock (i : ℕ) (path : List ℕ)

def SubmitAction.lower (ref : Reference) : SubmitAction → Action Cell
  | submit sub => .begin false [ref.submissionStmts sub]
  | drain batch => .begin true (batch.map ref.submissionStmts)
  | step i => .step i
  | commit i => .commit i
  | abort i => .abort i
  | deadlock i path => .deadlock i path

def runSubmissions (ref : Reference) (s : Store Cell) (actions : List SubmitAction) : State Cell :=
  Locking.run s (actions.map (·.lower ref))

end Acct.V32
