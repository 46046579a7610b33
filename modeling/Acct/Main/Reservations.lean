import Acct.Main.Documents

/-!
# Reserving stock

`reserve_inventory`, `post_so_allocate` and the expiry job. A reservation is a row, not a posting:
what it may promise is what the stock account, or a lot, holds less what is already promised.

The promise is `active` until the order is allocated, shipped or the reservation expires.
-/

namespace Acct.Main

open Isolation Prog

variable (d : DocDb) (c : ReserveInventory) (skuId locationId : ℕ)

/-! ### What is in stock and what is promised -/

/-- The open `stock_available` accounts of a product at a location. -/
def Account.isStockOf (a : Account) : Bool :=
  (a.kind == .stockAvailable && a.skuId == some skuId && a.locationId == some locationId) &&
    !a.isClosed

def Reservation.isAt (r : Reservation) : Bool :=
  r.skuId == skuId && r.locationId == locationId

namespace DocDb

def stockAccounts : List Account :=
  d.ledger.accounts.filter (·.isStockOf skuId locationId)

/-- `SUM(debits_total - credits_total)` of the stock accounts -/
def onHand : ℤ :=
  ((d.stockAccounts skuId locationId).map (·.balance)).sum

/-- `SUM(qty)` of the active reservations -/
def reserved : ℤ :=
  ((d.reservations.filter fun r => r.isAt skuId locationId && r.status == .active).map (·.qty)).sum

/-- `SUM(qty)` of the active reservations that compete for a lot: those pinned to it, and those
pinned to none. -/
def reservedBeside (lotId : ℕ) : ℤ :=
  ((d.reservations.filter fun r => (r.isAt skuId locationId && r.status == .active) &&
    ((r.lotSpecific && r.lotId == some lotId) || !r.lotSpecific)).map (·.qty)).sum

end DocDb

/-- `_inventory_lot_remaining_qty` -/
def Db.lotRemainingQty (db : Db) (lotId : ℕ) (receiptDate : Date) : Option ℤ :=
  (db.lots.find? fun l => l.id == lotId && l.receiptDate == receiptDate).map db.lotResidual

/-! ### Reserving -/

/-- A call of `reserve_inventory`. -/
structure ReserveInventory where
  skuId : ℕ
  locationId : ℕ
  qty : ℤ
  soId : ℕ
  soLineId : ℕ
  expiresAt : ℤ
  lotId : Option ℕ := none
  lotSpecific : Bool := false
  deriving DecidableEq

/-- `PERFORM ... FOR UPDATE` of the stock accounts: their ids. -/
def lockStock : DocTx (List ℕ) := do
  let ids ← query fun d => (d.stockAccounts skuId locationId).map (·.id)
  lockRows .update (ids.map fun i => .ledger (.account i))
  return ids

def requireStock : DocTx Unit := do
  let ids ← lockStock skuId locationId
  ensure (ids ≠ []) (.ledger .accountMissing)

def lotPromisable (lotId : ℕ) : DocTx ℤ := do
  let lot ← findRow (fun d => d.ledger.lots.find? fun l => l.id == lotId &&
    l.productId == c.skuId && l.locationId == c.locationId) .lotMissing
  requireStock c.skuId c.locationId
  let residual ← query fun d => (d.ledger.lotRemainingQty lotId lot.receiptDate).getD 0
  let reserved ← query (·.reservedBeside c.skuId c.locationId lotId)
  return residual - reserved

def stockPromisable : DocTx ℤ := do
  requireStock c.skuId c.locationId
  query fun d => d.onHand c.skuId c.locationId - d.reserved c.skuId c.locationId

/-- What the call may still promise, of its lot or of all stock. -/
def promisable : DocTx ℤ :=
  if c.lotSpecific then c.lotId.elim (.raise .lotSpecificRequiresLot) (lotPromisable c)
  else stockPromisable c

def ReserveInventory.row (id : ℕ) : Reservation where
  id := id
  skuId := c.skuId
  locationId := c.locationId
  qty := c.qty
  soId := c.soId
  soLineId := c.soLineId
  expiresAt := c.expiresAt
  lotId := c.lotId
  lotSpecific := c.lotSpecific

def insertReservation (promisable : ℤ) : DocTx (Option ℕ) :=
  if promisable < c.qty then return none
  else do
    let id ← nextval
    exec (.reservation (c.row id))
    return some id

/-- `reserve_inventory` -/
def reserveInventory : DocTx (Option ℕ) :=
  promisable c >>= insertReservation c

/-! ### Allocating and expiring -/

/-- A call of `post_so_allocate`. -/
structure SoAllocate where
  soId : ℕ
  businessDate : Date
  key : ℕ
  deriving DecidableEq

def checkPin (r : Reservation) : DocTx Unit := do
  let _ ← lockStock r.skuId r.locationId
  let lot ← findRow (fun d => d.ledger.lots.find? fun l => some l.id == r.lotId)
    .pinnedLotUnderfulfilled
  let residual ← query fun d => (d.ledger.lotRemainingQty lot.id lot.receiptDate).getD 0
  ensure (r.qty ≤ residual) .pinnedLotUnderfulfilled

def checkPins : List Reservation → DocTx Unit
  | [] => return ()
  | r :: rs => do
    checkPin r
    checkPins rs

def allocateReservations (soId : ℕ) : DocTx Unit :=
  .stmt (fun d => (d.reservations.filter fun r => r.soId == soId && r.status == .active).map
    fun r => .moveReservation r.id .allocated) fun _ => .ret ()

/-- `post_so_allocate` -/
def postSoAllocate (c : SoAllocate) : DocTx ℕ :=
  unlessDocument .soAllocate c.key do
    let _ ← findRow (·.salesOrder? c.soId) .soAllocateInvalid
    let pins ← query fun d => d.reservations.filter fun r =>
      r.soId == c.soId && r.status == .active && r.lotSpecific
    checkPins pins
    withHeader .soAllocate c.key c.soId c.businessDate fun _ => allocateReservations c.soId

/-- The `reservation_expiry` job. -/
def expireReservations (now : ℤ) : DocTx Unit :=
  .stmt (fun d => (d.reservations.filter fun r => r.status == .active && r.expiresAt < now).map
    fun r => .moveReservation r.id .expired) fun _ => .ret ()

end Acct.Main
