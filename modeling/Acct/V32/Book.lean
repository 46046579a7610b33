import Acct.V32.Direct.Submit
import Acct.V32.Outcome

/-!
# The book of one pool

What the hot path keeps of one pool, without ids: its aggregate, its `trx_line` rows in the order of
their ids, each with the open layer named after it, and its journal rows, each with the place of its
line. The tables of all pools are books under assigned ids.
-/

namespace Acct.V32

/-! ### Lines of any method -/

namespace Reference

variable (ref : Reference)

/-- `dispatch_cte_line`: a WAC line posts its amount, a FIFO or LIFO line nothing. -/
def cteOutcome? (accounts : PostingAccounts) (line : TrxLineRequest) (row : PoolRow)
    (old : Option Aggregate) : Option Outcome :=
  if ref.cteEarly line row old then none
  else
    (ref.cteWrite line row old).bind fun (aggregate, cost) =>
      let pair := accounts.pairFor line.lineType
      match row.method with
      | .wac => (toI64? (|line.qty| * cost)).map fun amount =>
        ⟨cost, aggregate, .unchanged,
          [if line.qty > 0 then receiptLeg pair amount else depletionLeg pair amount]⟩
      | _ => some ⟨cost, aggregate, .unchanged, []⟩

/-- The outcome of a line, before the checks of `trx_line`. -/
def lineOutcome? (line : TrxLineRequest) (old layer : Option Aggregate) : Option Outcome := do
  let row ← ref.pool line.poolId
  let accounts ← ref.postingAccountMap (row.skuId, row.locationId)
  match row.method with
  | .std =>
    let cStd ← ref.standardCostOf row
    stdOutcome? accounts line cStd (old.getD ⟨0, 0, 0⟩).qty
  | .specific => specificOutcome? accounts line (old.getD ⟨0, 0, 0⟩) layer
  | _ => ref.cteOutcome? accounts line row old

/-- The outcome of a line: `trx_line` refuses a negative cost, its period guard the posting time. -/
def outcome? (postedAt : ℤ) (line : TrxLineRequest) (old layer : Option Aggregate) :
    Option Outcome :=
  (ref.lineOutcome? line old layer).filter fun o =>
    0 ≤ o.unitCost ∧ PeriodGuardAdmits ref.periods.rows postedAt

end Reference

/-! ### Books -/

/-- A `trx_line` row; its place in the book stands for its id. -/
structure BookLine where
  lineType : LineType
  sourceId : Option ℤ
  qty : ℤ
  unitCost : ℤ
  source : Option ℕ
  postedAt : ℤ
  /-- The layer named after the line, while it is open. -/
  layer : Option Aggregate
  deriving DecidableEq

/-- One pool: its aggregate, lines and journal. -/
structure PoolBook where
  aggregate : Option Aggregate := none
  lines : List BookLine := []
  /-- The journal rows; `trxLineIdx` is the place of the line. -/
  postings : List PostingLineRequest := []
  deriving DecidableEq

def closeLowest : List BookLine → List BookLine
  | [] => []
  | l :: ls => if l.layer.isSome then { l with layer := none } :: ls else l :: closeLowest ls

namespace PoolBook

variable (b : PoolBook)

def lowest? : Option Aggregate := b.lines.findSome? (·.layer)

def lowestPlace? : Option ℕ := b.lines.findIdx? (·.layer.isSome)

/-- The row of a line with the outcome `o`. -/
def row (line : TrxLineRequest) (postedAt : ℤ) (o : Outcome) : BookLine where
  lineType := line.lineType
  sourceId := line.sourceId
  qty := line.qty
  unitCost := o.unitCost
  source := if o.layers = .consumed then b.lowestPlace? else none
  postedAt := postedAt
  layer :=
    match o.layers with
    | .opened qty unitCost valueSum => some ⟨qty, unitCost, valueSum⟩
    | _ => none

def record (line : TrxLineRequest) (postedAt : ℤ) (o : Outcome) : PoolBook where
  aggregate := some o.aggregate
  lines :=
    (if o.layers = .consumed then closeLowest b.lines else b.lines) ++ [b.row line postedAt o]
  postings := b.postings ++ o.legs.map (·.request b.lines.length postedAt)

def post (ref : Reference) (postedAt : ℤ) (line : TrxLineRequest) : Option PoolBook :=
  (ref.outcome? postedAt line b.aggregate b.lowest?).map (b.record line postedAt)

end PoolBook

/-! ### Runs of one pool -/

/-- A pool with the reference data of its ledger. -/
structure Site where
  ref : Reference
  book : PoolBook := {}

inductive BookOp
  | post (postedAt : ℤ) (line : TrxLineRequest)
  /-- An update of the pool's `standard_cost` row. -/
  | setStandard (cost : ℤ)
  deriving DecidableEq

/-- The request's integers are `i64`. -/
def TrxLineRequest.InRange (line : TrxLineRequest) : Prop := InI64 line.qty ∧ InI64 line.unitCost
  deriving Decidable

/-- The reference data with the standard cost of pool `p` set. -/
def Reference.setStandard (ref : Reference) (p cost : ℤ) : Reference :=
  match ref.pool p with
  | none => ref
  | some row =>
    { ref with
      standardCost := Function.update ref.standardCost (row.skuId, row.locationId) (some cost) }

/-- One operation on pool `p`. `standard_cost` refuses a negative cost. -/
def Site.exec? (p : ℤ) (s : Site) : BookOp → Option Site
  | .post postedAt line =>
    if line.poolId = p ∧ line.qty ≠ 0 ∧ line.InRange then
      (s.book.post s.ref postedAt line).map fun book => { s with book }
    else none
  | .setStandard cost =>
    if 0 ≤ cost ∧ InI64 cost then some { s with ref := s.ref.setStandard p cost } else none

/-- A run of pool `p` from an empty book. -/
def Site.run (p : ℤ) (ref : Reference) (ops : List BookOp) : Site :=
  Machine.run (Site.exec? p) { ref } ops

end Acct.V32
