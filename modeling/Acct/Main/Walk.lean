import Mathlib.Algebra.Order.BigOperators.Group.List
import Mathlib.Data.List.Sort
import Acct.Rounding.HalfEven
import Acct.Main.Schema

/-!
# Walks over layers and lots

`_fifo_walk_layers` and `_lot_walk_layers`: which layers, or lots, of a product at a location an
issue takes its quantity from, and at what cost. Residuals come from the snapshot of the walk's own
query. Layers and lots are never updated: a walk that waits for a row's lock goes on with the
residual it had read.
-/

namespace Acct.Main

open Isolation Rounding

variable (cs : List Candidate) (productId : ℕ) (db : Db) (locationId : ℕ) (qty : ℤ)

/-! ### The loop -/

/-- A row of the walk's query. -/
structure Candidate where
  id : ℕ
  receiptDate : Date
  unitCost : ℤ
  residual : ℤ
  deriving DecidableEq

/-- What a walk takes of a layer or lot. -/
structure Taken where
  id : ℕ
  receiptDate : Date
  allocation : ℤ
  unitCost : ℤ
  costAmount : ℤ
  deriving DecidableEq

/-- `ROUND(qty * unit_cost)`, the unit cost in ten-thousandths. -/
def roundCost (unitCost : ℤ) : ℤ := roundHalfAway (qty * unitCost) 10000

/-- The loop, from the quantity still wanted: what it takes and what is left wanting. -/
def walkLoop : List Candidate → ℤ → List Taken × ℤ
  | [], remaining => ([], remaining)
  | c :: cs, remaining =>
    if remaining ≤ 0 then ([], remaining)
    else if c.residual ≤ 0 then walkLoop cs remaining
    else
      let alloc := min c.residual remaining
      let rest := walkLoop cs (remaining - alloc)
      (⟨c.id, c.receiptDate, alloc, c.unitCost, roundCost alloc c.unitCost⟩ :: rest.1, rest.2)

def walkVisited : List Candidate → ℤ → List Candidate
  | [], _ => []
  | c :: cs, remaining =>
    if remaining ≤ 0 then []
    else if c.residual ≤ 0 then c :: walkVisited cs remaining
    else c :: walkVisited cs (remaining - min c.residual remaining)

/-- The sum of `cost_amount` over a walk. -/
def walkCost (ts : List Taken) : ℤ := (ts.map (·.costAmount)).sum

/-- A walk over the rows a query gives. The rows it fetches are locked as it goes. -/
def walk (candidates : Db → List Candidate) (row : ℕ → Row) (short : Err) (qty : ℤ) :
    Tx (List Taken) := do
  Prog.ensure (0 < qty) .walkInvalidQty
  let cs ← Prog.query candidates
  Prog.lockRows .update ((walkVisited cs qty).map fun c => row c.id)
  Prog.ensure ((walkLoop cs qty).2 ≤ 0) short
  return (walkLoop cs qty).1

/-! ### Layers -/

/-- `original_quantity` less what has been depleted. -/
def Db.layerResidual (l : CostLayer) : ℤ :=
  l.originalQuantity - ((db.depletions.filter (·.layerId == l.id)).map (·.quantity)).sum

/-- `ORDER BY receipt_date ASC, layer_id ASC` -/
def byReceipt (a b : Candidate) : Bool :=
  a.receiptDate < b.receiptDate || (a.receiptDate == b.receiptDate && a.id ≤ b.id)

def Db.layerCandidates (db : Db) : List Candidate :=
  ((db.layers.filter fun l => l.productId == productId && l.locationId == locationId).map
    fun l => ⟨l.id, l.receiptDate, l.unitCost, db.layerResidual l⟩).insertionSort
      fun a b => byReceipt a b = true

/-- `_fifo_walk_layers` -/
def fifoWalkLayers : Tx (List Taken) :=
  walk (Db.layerCandidates productId locationId) .layer .layersExhausted qty

/-! ### Lots -/

/-- `original_quantity` and the changes since. -/
def Db.lotResidual (l : Lot) : ℤ :=
  l.originalQuantity + ((db.lotEvents.filter (·.lotId == l.id)).map (·.quantityChange)).sum

/-- `ORDER BY expiration_date ASC NULLS LAST, lot_id ASC` -/
def byExpiration (a b : Lot) : Bool :=
  match a.expirationDate, b.expirationDate with
  | some x, some y => x < y || (x == y && a.id ≤ b.id)
  | some _, none => true
  | none, some _ => false
  | none, none => a.id ≤ b.id

/-- `ORDER BY receipt_date ASC, lot_id ASC` -/
def byLotReceipt (a b : Lot) : Bool :=
  a.receiptDate < b.receiptDate || (a.receiptDate == b.receiptDate && a.id ≤ b.id)

/-- The product's allocation strategy. A pinned lot bypasses it. -/
def Db.lotOrder (productId : ℕ) (lotId : Option ℕ) : Lot → Lot → Bool :=
  if lotId = none ∧ ((db.sku? productId).map (·.allocation)) = some .fefo then byExpiration
  else byLotReceipt

def Db.lotCandidates (lotId : Option ℕ) (db : Db) : List Candidate :=
  ((db.lots.filter fun l => l.productId == productId && l.locationId == locationId &&
      (lotId.isNone || lotId == some l.id)).insertionSort
        fun a b => db.lotOrder productId lotId a b = true).map
    fun l => ⟨l.id, l.receiptDate, l.unitCost, db.lotResidual l⟩

/-- `_lot_walk_layers` -/
def lotWalkLayers (lotId : Option ℕ) : Tx (List Taken) :=
  walk (Db.lotCandidates productId locationId lotId) .lot
    (if lotId.isSome then .lotResidualShort else .layersExhausted) qty

/-! ### What the loop takes -/

def walkQty (ts : List Taken) : ℤ := (ts.map (·.allocation)).sum

/-- What the loop takes and what is left wanting make up what was asked for. -/
theorem walkQty_walkLoop (q : ℤ) : walkQty (walkLoop cs q).1 + (walkLoop cs q).2 = q := by
  induction cs generalizing q with
  | nil => simp [walkLoop, walkQty]
  | cons c cs ih =>
    unfold walkLoop
    split_ifs with hq hc
    · simp [walkQty]
    · exact ih q
    · have hrest := ih (q - min c.residual q)
      simp only [walkQty, List.map_cons, List.sum_cons] at hrest ⊢
      omega

/-- Nothing is left over: the loop never takes more than it was asked for. -/
theorem walkLoop_wanting_nonneg {q : ℤ} (hq : 0 ≤ q) : 0 ≤ (walkLoop cs q).2 := by
  induction cs generalizing q with
  | nil => exact hq
  | cons c cs ih =>
    unfold walkLoop
    split_ifs with h0 hc
    · exact hq
    · exact ih hq
    · exact ih (by omega)

/-- Each allocation is a positive part of the residual of one candidate, at its unit cost. -/
theorem mem_walkLoop {cs : List Candidate} {q : ℤ} {t : Taken}
    (ht : t ∈ (walkLoop cs q).1) :
    ∃ c ∈ cs, t.id = c.id ∧ t.receiptDate = c.receiptDate ∧ t.unitCost = c.unitCost ∧
      0 < t.allocation ∧ t.allocation ≤ c.residual ∧
      t.costAmount = roundCost t.allocation c.unitCost := by
  induction cs generalizing q with
  | nil => simp [walkLoop] at ht
  | cons c cs ih =>
    unfold walkLoop at ht
    split_ifs at ht with h0 hc
    · simp at ht
    · obtain ⟨c', hc', h⟩ := ih ht
      exact ⟨c', List.mem_cons_of_mem c hc', h⟩
    · obtain rfl | ht := List.mem_cons.mp ht
      · exact ⟨c, List.mem_cons_self, rfl, rfl, rfl, by simp only; omega,
          min_le_left _ _, rfl⟩
      · obtain ⟨c', hc', h⟩ := ih ht
        exact ⟨c', List.mem_cons_of_mem c hc', h⟩

/-- The loop comes short by what the residuals do not cover. -/
theorem walkLoop_wanting {q : ℤ} (hq : 0 ≤ q) :
    (walkLoop cs q).2 = max 0 (q - (cs.map fun c => max 0 c.residual).sum) := by
  induction cs generalizing q with
  | nil => simp [walkLoop, hq]
  | cons c cs ih =>
    have hsum : 0 ≤ (cs.map fun c => max 0 c.residual).sum :=
      List.sum_nonneg fun y hy => by
        obtain ⟨c, -, rfl⟩ := List.mem_map.mp hy
        exact le_max_left 0 c.residual
    unfold walkLoop
    simp only [List.map_cons, List.sum_cons]
    split_ifs with h0 hc
    · omega
    · rw [ih hq, max_eq_left hc, zero_add]
    · rw [ih (by omega)]
      omega

/-- The loop takes from each candidate at most once, in order. -/
theorem walkLoop_sublist (q : ℤ) : ((walkLoop cs q).1.map (·.id)).Sublist (cs.map (·.id)) := by
  induction cs generalizing q with
  | nil => simp [walkLoop]
  | cons c cs ih =>
    unfold walkLoop
    split_ifs with h0 hc
    · exact List.nil_sublist _
    · exact (ih q).cons _
    · exact (ih _).cons_cons _

end Acct.Main
