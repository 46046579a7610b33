import Acct.Main.Schema
import Acct.Table.Recursive
import Mathlib.Data.List.Sort
import Mathlib.Data.Prod.Lex

/-!
# Exploding a bill of materials

`_wo_explode_bom` of `0017_conversion_documents`: the lines of a bill with every phantom component
replaced by the lines of its own bill, down to any depth below 16. The same recursive query runs
twice, first to look for a phantom without a bill or an expansion that is too deep, then for the
rows. The amounts are unbounded integers: `bigint` overflow is left out.
-/

namespace Acct.Main.Bom

open Table

/-- `basis` -/
inductive Basis
  | perUnit
  | perLot
  deriving DecidableEq

/-- `fire_at` -/
inductive FireAt
  | woStart
  | opArrival
  deriving DecidableEq

/-- `kind` with the columns the CHECKs allow it: an item has a component and a quantity and is per
unit, a charge is per lot. -/
inductive Detail
  | item (componentSkuId componentLocId : ℕ) (qtyPerParent : ℤ)
  | service (basis : Basis) (absorptionClassId : ℕ) (stdAmount : ℤ)
  | charge (absorptionClassId : ℕ) (stdAmount : ℤ)
  deriving DecidableEq

/-- A `bom_lines` row. `yield_pct` is in hundredths. -/
structure Line where
  bomId : ℕ
  lineNo : ℤ
  detail : Detail
  appliesAtOp : ℤ
  fireAt : FireAt
  yieldPct : ℤ
  deriving DecidableEq

/-- `bom_headers.status` -/
inductive Status
  | draft
  | active
  | obsolete
  deriving DecidableEq

/-- A `bom_headers` row; a date that is absent is `-infinity`, or `infinity`. -/
structure Header where
  id : ℕ
  parentSkuId : ℕ
  alternateNo : ℕ
  status : Status
  isPrimary : Bool
  effectiveAt : Option Date
  obsoleteAt : Option Date
  deriving DecidableEq

def Header.Explodes (h : Header) (skuId : ℕ) (date : Date) : Prop :=
  h.parentSkuId = skuId ∧ h.alternateNo = 1 ∧ h.isPrimary ∧ h.status = .active ∧
    (∀ d ∈ h.effectiveAt, d ≤ date) ∧ ∀ d ∈ h.obsoleteAt, date < d
  deriving Decidable

/-- The tables the explosion reads, with the primary key of `bom_lines` and the unique index
`bom_headers_primary`. -/
structure Tables where
  headers : List Header
  lines : List Line
  /-- `skus.is_phantom` -/
  isPhantom : ℕ → Bool
  lines_key : (lines.map fun l => (l.bomId, l.lineNo)).Nodup
  primary_key : ∀ h ∈ headers, ∀ h' ∈ headers, h.isPrimary → h'.isPrimary → h.status = .active →
    h'.status = .active → h.parentSkuId = h'.parentSkuId → h.alternateNo = h'.alternateNo → h = h'

variable (db : Tables) (date : Date)

def Tables.linesOf (bomId : ℕ) : List Line := db.lines.filter (·.bomId = bomId)

def Tables.compIsPhantom : Detail → Bool
  | .item sku _ _ => db.isPhantom sku
  | .service .. | .charge .. => false

/-- `phantom_bom_id`: the bill of a phantom component. -/
def Tables.phantomBomId : Detail → Option ℕ
  | .item sku _ _ =>
    if db.isPhantom sku then (db.headers.find? fun h => h.Explodes sku date).map (·.id) else none
  | .service .. | .charge .. => none

/-! ### The recursive query -/

structure ExplodedLine where
  sourceBomId : ℕ
  sourceLineNo : ℤ
  depth : ℕ
  detail : Detail
  appliesAtOp : ℤ
  fireAt : FireAt
  yieldPct : ℤ
  deriving DecidableEq

/-- A row of `walk`: a row of the result with the bill its component is to be replaced by. -/
structure WalkRow extends ExplodedLine where
  compIsPhantom : Bool
  phantomBomId : Option ℕ
  deriving DecidableEq

/-- The amounts of a line of which `qty` are needed above it. -/
def Detail.scale (qty : ℤ) : Detail → Detail
  | .item sku loc qtyPerParent => .item sku loc (qtyPerParent * qty)
  | .service .perUnit cls stdAmount => .service .perUnit cls (stdAmount * qty)
  | .service .perLot cls stdAmount => .service .perLot cls stdAmount
  | .charge cls stdAmount => .charge cls stdAmount

def Tables.walkRoot (l : Line) : WalkRow :=
  { sourceBomId := l.bomId, sourceLineNo := l.lineNo, depth := 1, detail := l.detail,
    appliesAtOp := l.appliesAtOp, fireAt := l.fireAt, yieldPct := l.yieldPct,
    compIsPhantom := db.compIsPhantom l.detail, phantomBomId := db.phantomBomId date l.detail }

/-- One child of a phantom row, `qty` of which are needed. -/
def Tables.walkChild (parent : WalkRow) (qty : ℤ) (child : Line) : WalkRow :=
  { sourceBomId := child.bomId, sourceLineNo := child.lineNo, depth := parent.depth + 1,
    detail := child.detail.scale qty, appliesAtOp := parent.appliesAtOp, fireAt := child.fireAt,
    yieldPct := child.yieldPct, compIsPhantom := db.compIsPhantom child.detail,
    phantomBomId := db.phantomBomId date child.detail }

def Tables.walkStep (parent : WalkRow) : List WalkRow :=
  match parent.detail, parent.phantomBomId with
  | .item _ _ qty, some bomId =>
    if parent.compIsPhantom ∧ parent.depth < 16 then
      (db.linesOf bomId).map (db.walkChild date parent qty)
    else []
  | _, _ => []

/-- The working table after `n` rounds. -/
def Tables.walkLevel (bomId : ℕ) (n : ℕ) : List WalkRow :=
  level (db.walkStep date) ((db.linesOf bomId).map (db.walkRoot date)) n

/-- `walk`: the sixteenth round adds nothing any more. -/
def Tables.walk (bomId : ℕ) : List WalkRow :=
  rounds (db.walkStep date) ((db.linesOf bomId).map (db.walkRoot date)) 16

/-! ### The function -/

inductive ExplodeErr
  /-- P0026 -/
  | woInvalid
  /-- P0029, with the phantom -/
  | bomMissing (skuId : ℕ)
  /-- P0032 -/
  | phantomRecursionLimit
  deriving DecidableEq

def WalkRow.orphan? (r : WalkRow) : Option ℕ :=
  match r.detail with
  | .item sku _ _ => if r.compIsPhantom ∧ r.phantomBomId = none then some sku else none
  | .service .. | .charge .. => none

/-- A phantom that would be expanded beyond depth 16. -/
def WalkRow.overflows (r : WalkRow) : Bool :=
  r.depth = 16 && r.compIsPhantom && r.phantomBomId.isSome

/-- The `ORDER BY` of the result. -/
def ExplodedLine.sortKey (r : ExplodedLine) : ℕ ×ₗ ℤ ×ₗ ℕ :=
  toLex (r.sourceBomId, toLex (r.sourceLineNo, r.depth))

/-- `_wo_explode_bom` -/
def explodeBom (bomId? : Option ℕ) : Except ExplodeErr (List ExplodedLine) :=
  match bomId? with
  | none => .error .woInvalid
  | some bomId =>
    match (db.walk date bomId).findSome? (·.orphan?) with
    | some sku => .error (.bomMissing sku)
    | none =>
      if (db.walk date bomId).any (·.overflows) then .error .phantomRecursionLimit
      else .ok ((((db.walk date bomId).filter fun r => !r.compIsPhantom).map
        (·.toExplodedLine)).insertionSort fun a b => a.sortKey ≤ b.sortKey)

end Acct.Main.Bom
