import Acct.V32.Core.Numeric

/-!
# The strict layer walk

`strict_fold` of `ledger-core/src/strict.rs`: from a pool's open layers and its physical events in
business order it computes the authoritative unit cost of every depletion, the layers each
depletion drew from, and the layers that stay open. FIFO consumes the oldest layer first, LIFO
(`newestFirst`) the newest.
-/

namespace Acct.V32

/-- One open layer, named by the `trx_line` id of the receipt that created it. -/
structure StrictLayer where
  layerId : ℤ
  /-- The quantity not consumed yet. -/
  qty : ℤ
  unitCost : ℤ
  deriving DecidableEq

/-- One physical `trx_line` event: a receipt if `qty` is positive, else a depletion. -/
structure StrictEvent where
  trxLineId : ℤ
  qty : ℤ
  /-- Asserted for a receipt, the observed provisional cost for a depletion. -/
  unitCost : ℤ
  deriving DecidableEq

structure LayerDraw where
  layerTrxLineId : ℤ
  qty : ℤ
  unitCost : ℤ
  deriving DecidableEq

/-- What the fold says about one depletion. -/
structure DepletionCosting where
  depletionTrxLineId : ℤ
  qty : ℤ
  observedUnitCost : ℤ
  authoritativeUnitCost : ℤ
  /-- The quantity that no layer covered, costed at `observedUnitCost`. -/
  uncoveredQty : ℤ
  draws : List LayerDraw
  deriving DecidableEq

/-- The costings in stream order and the open layers, oldest first. -/
structure StrictFoldOutput where
  costings : List DepletionCosting
  layers : List StrictLayer
  deriving DecidableEq

/-- The state the inner loop of `strict_fold` ends in. -/
structure LayerWalk where
  draws : List LayerDraw
  layers : List StrictLayer
  remaining : ℤ
  deriving DecidableEq

/-- The inner loop of `strict_fold`, consuming from the head of `layers`. -/
def walkLayers : List StrictLayer → ℤ → LayerWalk
  | [], remaining => ⟨[], [], remaining⟩
  | layer :: layers, remaining =>
    if remaining > 0 then
      let take := min remaining layer.qty
      let draw : LayerDraw := ⟨layer.layerId, take, layer.unitCost⟩
      if layer.qty - take = 0 then
        let rest := walkLayers layers (remaining - take)
        { rest with draws := draw :: rest.draws }
      else
        -- A layer that keeps some quantity has covered all of `remaining`: the loop ends here.
        ⟨[draw], { layer with qty := layer.qty - take } :: layers, remaining - take⟩
    else ⟨[], layer :: layers, remaining⟩

/-- The inner loop from the front of the deque (FIFO) or from its back (LIFO). -/
def walkDeque (newestFirst : Bool) (layers : List StrictLayer) (remaining : ℤ) : LayerWalk :=
  if newestFirst then
    let walk := walkLayers layers.reverse remaining
    { walk with layers := walk.layers.reverse }
  else walkLayers layers remaining

def drawValue (draws : List LayerDraw) : ℤ :=
  (draws.map fun d => d.qty * d.unitCost).sum

/-- `unsigned_abs() as i64`: the absolute value, with `i64::MIN` wrapping to itself. -/
def absAsI64 (x : ℤ) : ℤ := if x = -2 ^ 63 then x else x.natAbs

/-- One depletion of the outer loop: its costing and the layers it leaves open. -/
def costDepletion (newestFirst : Bool) (layers : List StrictLayer) (ev : StrictEvent) :
    Option (DepletionCosting × List StrictLayer) := do
  let qty := absAsI64 ev.qty
  let walk := walkDeque newestFirst layers qty
  let uncoveredQty := walk.remaining
  let value := drawValue walk.draws + uncoveredQty * ev.unitCost
  let authoritative ← bankerDiv value qty
  return (⟨ev.trxLineId, qty, ev.unitCost, authoritative, uncoveredQty, walk.draws⟩, walk.layers)

/-- `strict_fold`: the outer loop over the events. -/
def strictFold (newestFirst : Bool) :
    List StrictLayer → List StrictEvent → Option StrictFoldOutput
  | layers, [] => some ⟨[], layers⟩
  | layers, ev :: events =>
    if ev.qty > 0 then
      strictFold newestFirst (layers ++ [⟨ev.trxLineId, ev.qty, ev.unitCost⟩]) events
    else do
      let (costing, layers) ← costDepletion newestFirst layers ev
      let out ← strictFold newestFirst layers events
      return { out with costings := costing :: out.costings }

end Acct.V32
