import Acct.Main.ApplyEvent

/-!
# Posting a batch

`post_posting_lines`: locks every account of the batch in id order, then posts the events one after
the other. A batch with a weighted-average depletion takes two passes, the first of which prices its
cost events on the state before the batch. An event whose key is already posted is skipped.
-/

namespace Acct.Main

open Isolation

variable (es : List Event) (e : Event) (override : Bool)

inductive Posted
  | ok
  | exists
  deriving DecidableEq

/-- `_post_posting_lines_lookup_qty_account` -/
def Db.lookupQtyAccount (db : Db) (a : Account) : Option ℕ :=
  match a.ledger.isValue, a.skuId, a.kind with
  | true, some sku, .invValueRaw | true, some sku, .invValueFg =>
    a.locationId.bind fun location => (db.accounts.find? fun x => x.kind == .stockAvailable &&
      x.skuId == some sku && x.locationId == some location && !x.isClosed).map (·.id)
  | true, some sku, .invValueWip =>
    a.routingOp.bind fun op => (db.accounts.find? fun x => x.kind == .stockWip &&
      x.skuId == some sku && x.routingOp == some op && !x.isClosed).map (·.id)
  | _, _, _ => none

/-- The probe for one event: whether it is a weighted-average depletion, and the quantity account to
lock with it. A credit account of NULLs is not skipped. -/
def Db.probe (db : Db) (e : Event) : Bool × Option ℕ :=
  let c := db.account? e.creditAccountId
  if e.reason.isCost = false ∨ isNotValue c = true then (false, none)
  else
    match (costSku (db.account? e.debitAccountId) c).bind db.sku? with
    | none => (false, none)
    | some s =>
      (s.costMethod.isWac, if s.costMethod.isWac then c.bind db.lookupQtyAccount else none)

/-- The probe loop: whether some event is a weighted-average depletion, and the accounts to lock. -/
def probeEvents : List Event → Tx (Bool × List ℕ)
  | [] => return (false, [])
  | e :: es => do
    let (wac, aux) ← Prog.query (·.probe e)
    let (wac', aux') ← probeEvents es
    return (wac || wac', aux.toList ++ aux')

/-- The accounts there are, by id. -/
def Db.lockOrder (aux : List ℕ) (db : Db) : List ℕ :=
  ((es.flatMap fun e => [e.debitAccountId, e.creditAccountId]) ++ aux).dedup.filter
    (fun i => (db.account? i).isSome) |>.insertionSort (· ≤ ·)

/-- `_post_posting_lines_lock_pre_scan` -/
def lockPreScan (aux : List ℕ) : Tx Unit := do
  let ids ← Prog.query (Db.lockOrder es aux)
  Prog.lockRows .update (ids.map .account)

def readAccounts : Tx (Option Account × Option Account) := do
  let d ← Prog.query (·.account? e.debitAccountId)
  let c ← Prog.query (·.account? e.creditAccountId)
  return (d, c)

def amountFor (idx : ℕ) (d c : Option Account) : Tx (Option ℤ × Option CostMethod) :=
  if e.reason.isCost then priceEvent e idx d c else return (e.amount, none)

/-- One event of a single-pass batch, not yet posted. -/
def postNew (e : Event) (idx : ℕ) : Tx Posted := do
  let r ← readAccounts e
  let p ← amountFor e idx r.1 r.2
  let _ ← applyEvent e idx p.1 r.1 r.2 p.2 override
  return .ok

/-- An event whose key is posted is skipped. -/
def unlessPosted (p : Tx Posted) : Tx Posted := do
  let dup ← Prog.query (·.posted e.key)
  if dup then return .exists else p

/-- The single pass, from index `idx`. -/
def singlePass (override : Bool) : ℕ → List Event → Tx (List Posted)
  | _, [] => return []
  | idx, e :: es => do
    let r ← unlessPosted e (postNew override e idx)
    let rs ← singlePass override (idx + 1) es
    return r :: rs

/-- The amount of a cost event, none if it is already posted. -/
def priceUnposted (idx : ℕ) : Tx (Option ℤ) := do
  let dup ← Prog.query (·.posted e.key)
  if dup then return none
  else do
    let r ← readAccounts e
    let p ← priceEvent e idx r.1 r.2
    return p.1

/-- The first of two passes: the amounts, from index `idx`. -/
def pricePass : ℕ → List Event → Tx (List (Option ℤ))
  | _, [] => return []
  | idx, e :: es => do
    let amount ← bif e.reason.isCost then priceUnposted e idx else pure e.amount
    let rest ← pricePass (idx + 1) es
    return amount :: rest

def methodFor (d c : Option Account) : Tx (Option CostMethod) :=
  if e.reason.isCost then Prog.query fun db => ((costSku d c).bind db.sku?).map (·.costMethod)
  else return none

/-- One event of the second pass, not yet posted, at the amount of the first. -/
def postPriced (e : Event) (amount : Option ℤ) (idx : ℕ) : Tx Posted := do
  let r ← readAccounts e
  let method ← methodFor e r.1 r.2
  let _ ← applyEvent e idx amount r.1 r.2 method override
  return .ok

/-- The second pass posts at these amounts. -/
def applyPass (override : Bool) : ℕ → List (Event × Option ℤ) → Tx (List Posted)
  | _, [] => return []
  | idx, (e, amount) :: es => do
    let r ← unlessPosted e (postPriced override e amount idx)
    let rs ← applyPass override (idx + 1) es
    return r :: rs

/-- Two passes if the batch has a weighted-average depletion. -/
def passes (hasWac : Bool) : Tx (List Posted) :=
  if hasWac then do
    let amounts ← pricePass 1 es
    applyPass override 1 (es.zip amounts)
  else singlePass override 1 es

/-- `post_posting_lines` -/
def postPostingLines : Tx (List Posted) :=
  if es = [] then return []
  else do
    let probe ← probeEvents es
    lockPreScan es probe.2
    passes es override probe.1

end Acct.Main
