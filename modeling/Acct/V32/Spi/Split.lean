import Acct.V32.Spi.PoolState

/-!
# A list of lines, planned at once or one by one

`planAndApply` plans a list of lines with `plan_apply` on one snapshot and applies the mutations in
order. `oneAtATime` submits the lines one by one, each planned on a snapshot of what the lines
before it left. Both draw the same ids for the lines.
-/

namespace Acct.V32

open Table

def PostingLineRequest.leg (r : PostingLineRequest) : Leg :=
  ⟨r.eventType, r.amount, r.debitAccount, r.creditAccount⟩

structure PostingLineRow where
  trxLineId : ℤ
  leg : Leg
  postedAt : ℤ
  deriving DecidableEq

def PostingLineRequest.resolve (ids : List ℤ) (r : PostingLineRequest) : Option PostingLineRow :=
  (ids[r.trxLineIdx]?).map (⟨·, r.leg, r.postedAt⟩)

/-- What a list of lines leaves: the rows of `pool_state`, the `trx_line` rows and the
`posting_line` rows. -/
structure Submitted where
  poolState : PoolState
  trxLines : List TrxLineOutput
  postings : List PostingLineRow

namespace Tables

/-- Plan the lines on one snapshot and apply the mutations in order. -/
def planAndApply (db : Tables) (postedAt : ℤ) (lines : List TrxLineRequest) (drawn : List ℤ) :
    Option Submitted := do
  let plan ← (planApply (db.hydrateSnapshot (lines.map (·.poolId))) lines postedAt).toOption
  let poolState ← applyOneByOne db.poolState plan.poolStateMutations drawn
  let postings ← plan.postingLines.mapM (·.resolve drawn)
  return { poolState, trxLines := plan.trxLines, postings }

/-- Submit the lines one at a time. -/
def oneAtATime (db : Tables) (postedAt : ℤ) : List TrxLineRequest → List ℤ → Option Submitted
  | [], _ => some ⟨db.poolState, [], []⟩
  | line :: lines, drawn => do
    let first ← db.planAndApply postedAt [line] (drawn.take 1)
    let rest ← { db with poolState := first.poolState }.oneAtATime postedAt lines (drawn.drop 1)
    return ⟨rest.poolState, first.trxLines ++ rest.trxLines, first.postings ++ rest.postings⟩

end Tables

def depletions (p : ℤ) (lines : List TrxLineRequest) : ℕ :=
  lines.countP fun l => l.poolId = p ∧ l.qty < 0

/-- No specific pool has more depletions than it has layers. -/
def Tables.Covered (db : Tables) (lines : List TrxLineRequest) : Prop :=
  ∀ p ∈ lines.map (·.poolId), (db.pool p).map (·.method) = some .specific →
    depletions p lines ≤ (layersOf db.poolState p).length
  deriving Decidable

/-- Planning at once and one by one accept the same, and leave the same. -/
def Tables.BatchEqSplit (db : Tables) (postedAt : ℤ) (lines : List TrxLineRequest)
    (drawn : List ℤ) : Prop :=
  ((∃ plan, planApply (db.hydrateSnapshot (lines.map (·.poolId))) lines postedAt = .ok plan) ↔
    ∃ split, db.oneAtATime postedAt lines drawn = some split) ∧
  ∀ split, db.oneAtATime postedAt lines drawn = some split →
    db.planAndApply postedAt lines drawn = some split

/-- Identity values for `n` lines, above those of all layers. -/
structure Tables.DrawsAbove (db : Tables) (drawn : List ℤ) (n : ℕ) : Prop where
  length : drawn.length = n
  increasing : drawn.Pairwise (· < ·)
  pos : ∀ id ∈ drawn, 0 < id
  above : ∀ id ∈ drawn, ∀ p, ∀ r ∈ layersOf db.poolState p, r.layerId < id

end Acct.V32
