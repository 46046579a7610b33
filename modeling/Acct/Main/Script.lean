import Acct.Main.PostPostingLines

/-!
# Transactions that post

A transaction that posts batches, and between them locks rows, draws ids and writes tables other
than `accounts` and `posting_lines`. A client's call, a document wrapper and a close hook are all of
this shape: nothing but `post_posting_lines` writes those two.
-/

namespace Acct.Main

open Isolation

/-- The write leaves `accounts` and `posting_lines` alone. -/
def Write.isSide : Write → Bool
  | .debit _ _ | .credit _ _ | .line _ => false
  | _ => true

abbrev SideWrite := { w : Write // w.isSide = true }

inductive Script
  | done
  | fail (e : Err)
  /-- A call of `post_posting_lines`, and what follows from its results. -/
  | post (es : List Event) (override : Bool) (k : List Posted → Script)
  | lock (r : Row) (m : RowLock) (k : Script)
  | draw (k : ℕ → Script)
  | side (ws : Db → List SideWrite) (k : Db → Script)

namespace Script

/-- The transaction, with the results of its calls. -/
def prog : Script → Tx (List (List Posted))
  | .done => .ret []
  | .fail e => .raise e
  | .post es override k => do
    let rs ← postPostingLines es override
    let rest ← (k rs).prog
    return rs :: rest
  | .lock r m k => .lock r m k.prog
  | .draw k => .draw fun n => (k n).prog
  | .side ws k => .stmt (fun d => (ws d).map (·.val)) fun d => (k d).prog

def call (es : List Event) (override : Bool) : Script := .post es override fun _ => .done

end Script

end Acct.Main
