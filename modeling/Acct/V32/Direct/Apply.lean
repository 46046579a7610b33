import Acct.V32.Book
import Acct.V32.Spi.Split

/-!
# Submissions on the tables

`apply_submission` of `ledger-direct/src/submit.rs` on whole tables: the `trx` row, the STD and
specific lines by one plan, then one statement for every WAC, FIFO and LIFO line. `inOrder` applies
the lines in submission order. `none` is a raised error. How the mutations of a plan are written is
a parameter: `applyPoolStateMutations` is what `bulk_write.rs` does, `applyOneByOne` what the plan
means.
-/

namespace Acct.V32

open Table

structure TrxRow where
  trxType : TrxType
  sourceId : ℤ
  postedAt : ℤ
  deriving DecidableEq

/-- The unique key of `trx`. -/
def TrxRow.key (r : TrxRow) : TrxType × ℤ := (r.trxType, r.sourceId)

/-- One `trx_line` row; its transaction is given by the unique key. -/
structure TrxLineRow where
  id : ℤ
  trx : TrxType × ℤ
  poolId : ℤ
  lineType : LineType
  sourceId : Option ℤ
  qty : ℤ
  unitCost : ℤ
  sourceTrxLineId : Option ℤ
  postedAt : ℤ
  deriving DecidableEq

/-- The tables that submissions write. -/
structure LedgerTables where
  trx : List TrxRow
  trxLines : List TrxLineRow
  /-- The last identity value drawn for `trx_line`. -/
  trxLineSeq : ℤ
  poolState : PoolState
  postingLines : List PostingLineRow
  /-- The pools in `recalc_backpressure`. -/
  throttled : List ℤ

/-- The next `n` identity values. -/
def idsFrom (seq : ℤ) : ℕ → List ℤ
  | 0 => []
  | n + 1 => (seq + 1) :: idsFrom (seq + 1) n

/-- The times, in microseconds, whose RFC 3339 text the database reads: years 1 to 9999. -/
def InTextRange (postedAt : ℤ) : Prop :=
  -62135596800000000 ≤ postedAt ∧ postedAt < 253402300800000000
  deriving Decidable

/-- The lines of a submission that have a quantity. -/
def Submission.decoded (sub : Submission) : Option (List TrxLineRequest) :=
  sub.lines.bind decodeLines

def Submission.key (sub : Submission) : TrxType × ℤ := (sub.trxType, sub.sourceId)

def Submission.KeyFree (sub : Submission) (trx : List TrxRow) : Prop := sub.key ∉ trx.map (·.key)
  deriving Decidable

def Submission.lineRow (sub : Submission) (id : ℤ) (o : TrxLineOutput) : TrxLineRow where
  id := id
  trx := sub.key
  poolId := o.poolId
  lineType := o.lineType
  sourceId := o.sourceId
  qty := o.qty
  unitCost := o.unitCost
  sourceTrxLineId := o.sourceTrxLineId
  postedAt := sub.postedAt

/-- How mutations are written, given the ids of the plan's lines. -/
abbrev StateWriter := PoolState → List PoolStateMutation → List ℤ → Option PoolState

namespace LedgerTables

/-- `insert_trx` -/
def insertTrx (sub : Submission) (T : LedgerTables) : Option LedgerTables :=
  if InTextRange sub.postedAt ∧ sub.KeyFree T.trx then
    some { T with trx := T.trx ++ [⟨sub.trxType, sub.sourceId, sub.postedAt⟩] }
  else none

def write (sub : Submission) (T : LedgerTables) (outputs : List TrxLineOutput)
    (poolState : PoolState)
    (postings : List PostingLineRow) : LedgerTables where
  trx := T.trx
  trxLines := T.trxLines ++
    (idsFrom T.trxLineSeq outputs.length).zipWith (sub.lineRow · ·) outputs
  trxLineSeq := T.trxLineSeq + outputs.length
  poolState := poolState
  postingLines := T.postingLines ++ postings
  throttled := T.throttled

end LedgerTables

namespace Reference

variable (ref : Reference)

/-- The tables of the ledger-core phase. -/
def tables (T : LedgerTables) : Tables where
  pool := ref.pool
  poolState := T.poolState
  standardCost := ref.standardCost
  postingAccountMap := ref.postingAccountMap
  periods := ref.periods
  trxLineIds := T.trxLines.map (·.id)

variable (writer : StateWriter) (sub : Submission)

/-- The ledger-core phase, which a submission without STD and specific lines skips. -/
def corePhase (T : LedgerTables) (lines : List TrxLineRequest) : Option LedgerTables :=
  if lines = [] then some T
  else do
    let db := ref.tables T
    let plan ← (planApply (db.hydrateSnapshot (ascendingIds (lines.map (·.poolId)))) lines
      sub.postedAt).toOption
    let ids ← db.insertTrxLines sub.postedAt plan.trxLines
      (idsFrom T.trxLineSeq plan.trxLines.length)
    let poolState ← writer T.poolState plan.poolStateMutations ids
    let postings ← plan.postingLines.mapM (·.resolve ids)
    return T.write sub plan.trxLines poolState postings

/-- `dispatch_cte_line`: one statement writes the aggregate, the line and its posting. -/
def dispatchCteLine (T : LedgerTables) (line : TrxLineRequest) : Option LedgerTables := do
  let row ← ref.pool line.poolId
  let accounts ← ref.postingAccountMap (row.skuId, row.locationId)
  let o ← ref.cteOutcome? accounts line row ((aggregateOf T.poolState line.poolId).map (·.amounts))
  if 0 ≤ o.unitCost ∧ PeriodGuardAdmits ref.periods.rows sub.postedAt then
    some (T.write sub [line.output o.unitCost none]
      (T.poolState.upsert (line.poolId, o.aggregate.row 0))
      (o.legs.map (⟨T.trxLineSeq + 1, ·, sub.postedAt⟩)))
  else none

/-- What `apply_submission` does before the first line: decode the lines, check backpressure and the
reference data of every pool, insert the `trx` row. -/
def openTrx (enforceBackpressure : Bool) (T : LedgerTables) :
    Option (LedgerTables × List TrxLineRequest) := do
  let lines ← sub.decoded
  if enforceBackpressure ∧ ∃ l ∈ lines, l.poolId ∈ T.throttled then none
  else if ∀ l ∈ lines, ref.isConfigured l.poolId then (T.insertTrx sub).map (·, lines)
  else none

/-- `apply_submission`: STD and specific lines first, then the others sorted by pool. -/
def apply (enforceBackpressure : Bool) (T : LedgerTables) : Option LedgerTables := do
  let (T₁, lines) ← ref.openTrx sub enforceBackpressure T
  let T₂ ← ref.corePhase writer sub T₁ (lines.filter fun l => ref.isCore l.poolId)
  (sortBy (·.poolId) (lines.filter fun l => ¬ ref.isCore l.poolId)).foldlM
    (ref.dispatchCteLine sub) T₂

/-- The tables after the transaction of a submission: an error rolls everything back. -/
def submitTrx (enforceBackpressure : Bool) (T : LedgerTables) : LedgerTables :=
  (ref.apply writer sub enforceBackpressure T).getD T

def applyLine (T : LedgerTables) (line : TrxLineRequest) : Option LedgerTables :=
  if ref.isCore line.poolId then ref.corePhase writer sub T [line]
  else ref.dispatchCteLine sub T line

/-- The lines strictly in submission order. -/
def inOrder (enforceBackpressure : Bool) (T : LedgerTables) : Option LedgerTables := do
  let (T₁, lines) ← ref.openTrx sub enforceBackpressure T
  lines.foldlM (ref.applyLine writer sub) T₁

end Reference

/-! ### Views -/

namespace LedgerTables

variable (T : LedgerTables) (p : ℤ)

def linesOf : List TrxLineRow := T.trxLines.filter (·.poolId = p)

def idsOf : List ℤ := (T.linesOf p).map (·.id)

def place (id : ℤ) : ℕ := (T.idsOf p).idxOf id

/-- The row of a line, with places for ids and the open layer named after it. -/
def bookLine (r : TrxLineRow) : BookLine where
  lineType := r.lineType
  sourceId := r.sourceId
  qty := r.qty
  unitCost := r.unitCost
  source := r.sourceTrxLineId.map (T.place p)
  postedAt := r.postedAt
  layer := ((layersOf T.poolState p).find? (·.layerId = r.id)).map (·.amounts)

def postingsOf : List PostingLineRequest :=
  (T.postingLines.filter fun r => r.trxLineId ∈ T.idsOf p).map fun r =>
    r.leg.request (T.place p r.trxLineId) r.postedAt

def bookOf : PoolBook where
  aggregate := (aggregateOf T.poolState p).map (·.amounts)
  lines := (T.linesOf p).map (T.bookLine p)
  postings := T.postingsOf p

end LedgerTables

structure PoolView where
  book : PoolBook
  trxs : List (TrxType × ℤ)
  deriving DecidableEq

/-- Post one line of a submission. -/
def PoolView.post (ref : Reference) (sub : Submission) (v : PoolView) (line : TrxLineRequest) :
    Option PoolView :=
  (v.book.post ref sub.postedAt line).map (⟨·, v.trxs ++ [sub.key]⟩)

namespace LedgerTables

variable (T : LedgerTables)

/-- All that the tables say of a pool, but for the identity values. -/
def view (p : ℤ) : PoolView := ⟨T.bookOf p, (T.linesOf p).map (·.trx)⟩

def journal : List (ℤ × PostingLineRequest) :=
  T.postingLines.flatMap fun r =>
    (T.trxLines.filter (·.id = r.trxLineId)).map fun line =>
      (line.poolId, r.leg.request (T.place line.poolId r.trxLineId) r.postedAt)

/-- The same contents, up to the identity values: `pool_state` and the sequence of lines of every
pool, and the journal as a multiset. -/
structure Same (T T' : LedgerTables) : Prop where
  trx : T.trx = T'.trx
  view : T.view = T'.view
  journal : T.journal.Perm T'.journal

end LedgerTables

end Acct.V32
