import Acct.Main.PostPostingLines

/-!
# Issuing components to a work order

`_wo_emit_bom_lines` and `_wo_write_lot_consumption`. The lines of the exploded bill of materials,
which are any list here, are priced one after the other, each on the state before the issue, and
turned into one batch; the units of serial-tracked components are picked then and marked consumed
once the batch is posted.
-/

namespace Acct.Main

open Isolation Prog

variable (i : Issue) (wip : Account)

inductive BomLine
  | item (skuId locationId : ℕ) (qtyPerParent : ℤ)
  /-- A service or charge, with the account kind of its absorption class. -/
  | absorb (perUnit : Bool) (stdAmount : ℤ) (applied : AccountKind)
  deriving DecidableEq

structure Issue where
  parentSkuId : ℕ
  currency : Currency
  routingOp : ℤ
  qty : ℤ
  eventId : ℕ
  businessDate : Date
  /-- `p_component_lot_pins` -/
  pins : List (ℕ × ℕ) := []
  deriving DecidableEq

/-- What is kept of a lot walk until the batch is posted. -/
structure LotWalk where
  key : Key
  lotId : ℕ
  qty : ℤ
  unitIds : List ℕ
  deriving DecidableEq

def openAccount (p : Account → Bool) : Tx Account :=
  fetch fun db =>
    match db.accounts.find? fun a => p a && !a.isClosed with
    | some a => .ok a
    | none => .error .accountMissing

def Db.availableUnits (skuId locationId lotId : ℕ) (db : Db) : List ℕ :=
  ((db.units.filter fun u => u.productId == skuId && u.locationId == locationId &&
      u.lotId == lotId && u.status == .available).insertionSort
        fun a b => a.serialNo ≤ b.serialNo).map (·.id)

def pickUnits (tracking : Tracking) (skuId locationId : ℕ) (t : Taken) : Tx (List ℕ) :=
  if tracking = .lotAndSerial then do
    let ids ← query fun db =>
      (db.availableUnits skuId locationId t.id).take t.allocation.toNat
    lockRows .update (ids.map .unit)
    ensure (t.allocation ≤ ids.length) .unitsShort
    return ids
  else return []

def pickWalks (tracking : Tracking) (skuId locationId : ℕ) (key : Key) :
    List Taken → Tx (List LotWalk)
  | [] => return []
  | t :: ts => do
    let ids ← pickUnits tracking skuId locationId t
    let rest ← pickWalks tracking skuId locationId key ts
    return ⟨key, t.id, t.allocation, ids⟩ :: rest

def componentAverage (accountId : ℕ) : Tx ℤ := do
  let qty ← query (·.classQty accountId)
  ensure (0 < qty) .wacPoolQtyZero
  let value ← query fun db => ((db.account? accountId).map (·.balance)).getD 0
  return (max 0 value).tdiv qty

def componentValue (sku : Sku) (locationId accountId : ℕ) (qty : ℤ) (key : Key) :
    Tx (ℤ × List LotWalk) :=
  match sku.costMethod with
  | .standard => do
    let cost ← resolveStandardCostAt sku.id i.businessDate
    return (qty * cost, [])
  | .wacPerpetual | .wacPeriodic | .wacRetroactive => do
    let unit ← componentAverage accountId
    return (qty * unit, [])
  | .fifo => do
    let taken ← fifoWalkLayers sku.id locationId qty
    return (walkCost taken, [])
  | .lotFifo => do
    let taken ← lotWalkLayers sku.id locationId qty (i.pins.lookup sku.id)
    let walks ← pickWalks sku.trackedBy sku.id locationId key taken
    return (walkCost taken, walks)
  | .lot => .raise (.costMethodNotImplemented 0)

def valueLeg (sku : Sku) (wip account : Account) (qty value : ℤ) (key : Key) : List Event :=
  if 0 < value then
    [{ reason := .rmIssueToWo, documentId := i.eventId, debitAccountId := wip.id
       creditAccountId := account.id, amount := some value, qty := some qty
       businessDate := i.businessDate, key
       lotId := if sku.costMethod = .lotFifo then i.pins.lookup sku.id else none }]
  else []

def emitItem (skuId locationId : ℕ) (qty : ℤ) : Tx (List Event × List LotWalk) := do
  let consumed ← openAccount fun a => a.kind == .stockConsumed && a.skuId == some skuId &&
    a.ledger == .qty
  let stock ← openAccount fun a => a.kind == .stockAvailable && a.skuId == some skuId &&
    a.locationId == some locationId
  let account ← openAccount fun a => a.kind == .invValueRaw && a.skuId == some skuId &&
    a.locationId == some locationId && a.ledger == .value i.currency
  let sku ← fetch fun db =>
    match db.sku? skuId with
    | some s => .ok s
    | none => .error .accountMissing
  let valueKey ← nextval
  let qtyKey ← nextval
  let priced ← componentValue i sku locationId account.id qty (.random valueKey)
  return ({ reason := .rmIssueToWo, documentId := i.eventId, debitAccountId := consumed.id
            creditAccountId := stock.id, amount := some qty, qty := some qty
            businessDate := i.businessDate, key := .random qtyKey } ::
      valueLeg i sku wip account qty priced.1 (.random valueKey), priced.2)

/-- `_wo_apply_reason_for` -/
def woApplyReasonFor (applied : AccountKind) (perUnit : Bool) : Tx Reason :=
  match applied with
  | .laborApplied => return .laborApply
  | .ohApplied => return .ohApply
  | .absorptionPool => return if perUnit then .burdenApply else .lotChargeApply
  | _ => .raise .woInvalid

def emitAbsorb (perUnit : Bool) (amount : ℤ) (applied : AccountKind) :
    Tx (List Event × List LotWalk) :=
  if amount ≤ 0 then return ([], [])
  else do
    let reason ← woApplyReasonFor applied perUnit
    let account ← openAccount fun a => a.kind == applied && a.ledger == .value i.currency
    let key ← nextval
    return ([{ reason, documentId := i.eventId, debitAccountId := wip.id
               creditAccountId := account.id, amount := some amount
               businessDate := i.businessDate, key := .random key }], [])

def emitLine : BomLine → Tx (List Event × List LotWalk)
  | .item skuId locationId per => emitItem i wip skuId locationId (i.qty * per)
  | .absorb perUnit std applied =>
    emitAbsorb i wip perUnit (if perUnit then i.qty * std else std) applied

def emitLines (i : Issue) (wip : Account) : List BomLine → Tx (List Event × List LotWalk)
  | [] => return ([], [])
  | l :: ls => do
    let r ← emitLine i wip l
    let rest ← emitLines i wip ls
    return (r.1 ++ rest.1, r.2 ++ rest.2)

/-- `_wo_emit_bom_lines` -/
def woEmitBomLines (ls : List BomLine) : Tx (List Event × List LotWalk) := do
  ensure (0 < i.qty) .woInvalid
  let wip ← openAccount fun a => a.kind == .invValueWip && a.skuId == some i.parentSkuId &&
    a.routingOp == some i.routingOp && a.ledger == .value i.currency
  emitLines i wip ls

/-- The units of a walk are consumed, each with its event and its row for the work order. -/
def consumeUnits (lineId : ℕ) (ids : List ℕ) : List Write :=
  ids.map (.setUnit · .consumed) ++
    ids.map (fun u => .unitEvent ⟨u, i.businessDate, .issue, some lineId, .consumed⟩) ++
    ids.map (fun u => .woUnit ⟨i.eventId, u⟩)

/-- `_wo_write_lot_consumption` -/
def woWriteLotConsumption (i : Issue) : List LotWalk → Tx Unit
  | [] => return ()
  | w :: ws => do
    let lineId ← fetch fun db =>
      match db.lines.find? (·.key == w.key) with
      | some l => .ok l.id
      | none => .error .consumptionWriteback
    execAll (consumeUnits i lineId w.unitIds)
    woWriteLotConsumption i ws

/-- An issue: the batch of its lines, with the caller's own events before them. -/
def woIssue (before : List Event) (ls : List BomLine) : Tx (List Posted) := do
  let emitted ← woEmitBomLines i ls
  let rs ← postPostingLines (before ++ emitted.1) false
  woWriteLotConsumption i emitted.2
  return rs

end Acct.Main
