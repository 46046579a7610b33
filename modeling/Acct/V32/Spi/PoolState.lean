import Acct.V32.Outcome
import Acct.V32.Spi.BulkWrite

/-!
# The rows of a pool, and the writes of a line

A pool's part of `pool_state` is its aggregate and its layers in the order of their ids. The writes
of one line are the mutations of its outcome with the id of the line filled in.
-/

namespace Acct.V32

open Table

def aggregateOf (t : PoolState) (p : ℤ) : Option PoolStateRow := (t.get? (p, 0)).map (·.2)

def layersOf (t : PoolState) (p : ℤ) : List PoolStateRow :=
  sortBy (·.layerId) ((t.rows.filter fun r => r.1 = p ∧ r.2.layerId > 0).map (·.2))

def Aggregate.row (a : Aggregate) (layerId : ℤ) : PoolStateRow :=
  ⟨layerId, a.qty, a.unitCost, a.valueSum⟩

/-- The writes of the line `id` of pool `p`, given the id of the lowest layer. -/
def Outcome.writes (o : Outcome) (p id : ℤ) (lowest : Option ℤ) :
    List (Write (ℤ × PoolStateRow) (ℤ × ℤ)) :=
  let upsert := .upsert (p, o.aggregate.row 0)
  match o.layers with
  | .unchanged => [upsert]
  | .opened qty unitCost valueSum => [.insert (p, ⟨id, qty, unitCost, valueSum⟩), upsert]
  | .consumed => (lowest.toList.map fun layerId => .delete (p, layerId)) ++ [upsert]

/-- `pool_state` after the line `id` of pool `p`. -/
def recordState? (t : PoolState) (p id : ℤ) (o : Outcome) : Option PoolState :=
  t.applyAll? (o.writes p id ((layersOf t p).head?.map (·.layerId)))

def LayerChange.layers (c : LayerChange) (id : ℤ) (layers : List PoolStateRow) :
    List PoolStateRow :=
  match c with
  | .unchanged => layers
  | .opened qty unitCost valueSum => layers ++ [⟨id, qty, unitCost, valueSum⟩]
  | .consumed => layers.tail

end Acct.V32
