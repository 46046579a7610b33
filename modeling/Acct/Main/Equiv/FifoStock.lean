import Acct.Main.Equiv.Quotes
import Acct.Table.Keyed

/-!
# FIFO stock and its cost

One FIFO product at one location, received into one account and issued from it. `FifoBook` holds of
its layers, depletions and totals along every history: a receipt keeps it (`receive_ends`), and so
does an issue (`issue_ends`), which is accepted if it is `Issuable`.
-/

namespace Acct.Main

open Isolation Prog Rounding Table List Option

variable (db : Db)

variable {q amount : ℤ} {j idx lineId n n' i : ℕ} {d c : Account} {r : Reason} {date : Date}
  {e : Event} {v v' : Db} {x : Place} {l k : CostLayer}

/-! ### Layers and what was taken from them -/

/-- The layers of a place, in the order of their receipts. -/
def Db.layersAt (x : Place) : List CostLayer :=
  db.layers.filter fun l => l.productId == x.1 && l.locationId == x.2

def Db.layerCost (l : CostLayer) : ℤ :=
  ((db.depletions.filter (·.layerId == l.id)).map (·.costAmount)).sum

def Db.receiptAmount (l : CostLayer) : ℤ :=
  ((db.lines.find? (·.id == l.receiptLineId)).map (·.amount)).getD 0

def Db.receiptsAt (x : Place) : List (ℤ × ℤ) :=
  (db.layersAt x).map fun l => (l.originalQuantity, db.receiptAmount l)

/-- The quantity left at a place. -/
def Db.remaining (x : Place) : ℤ := ((db.layersAt x).map db.layerResidual).sum

/-- The cost of every layer that is used up has left with it. -/
def Db.Settled (x : Place) : Prop :=
  ∀ l ∈ db.layersAt x, db.layerResidual l = 0 → db.layerCost l = db.receiptAmount l

/-! ### The books of the stock -/

/-- The account has been debited what was received and credited what was taken, at costs that follow
from the receipts. -/
structure FifoBook (i : ℕ) (x : Place) (n : ℕ) (db : Db) : Prop where
  fresh : Fresh n db
  key_lt : ∀ l ∈ db.lines, ∀ m, l.key = .random m → m < n
  depletion_layer_lt : ∀ d ∈ db.depletions, d.layerId < n
  account : ∃ a, db.account? i = some a ∧
    a.debitsTotal = ((db.layersAt x).map db.receiptAmount).sum ∧
    a.creditsTotal = ((db.layersAt x).map db.layerCost).sum
  layer : ∀ l ∈ db.layersAt x, 0 < l.originalQuantity ∧ 0 < db.receiptAmount l ∧
    l.unitCost = unitCostOf (db.receiptAmount l) l.originalQuantity ∧ 0 ≤ db.layerResidual l
  depletion : ∀ l ∈ db.layersAt x, ∀ d ∈ db.depletions, d.layerId = l.id →
    0 < d.quantity ∧ d.costAmount = roundCost d.quantity l.unitCost

lemma mem_layersAt {db : Db} (h : l ∈ db.layersAt x) :
    l ∈ db.layers ∧ l.place = x := mem_layers_stockOf h

lemma FifoBook.ids_nodup (h : FifoBook i x n v) : ((v.layersAt x).map (·.id)).Nodup :=
  h.fresh.layers.sublist (filter_sublist.map _)

lemma Fresh.lined {l : PostingLine} (h : Fresh n v) (hid : l.id = n) :
    Fresh (n + 1) (v.lined l) where
  layers := h.layers
  lots := h.lots
  layer_lt := h.succ.layer_lt
  lot_lt := h.succ.lot_lt
  line_lt k hk := by
    rcases mem_append.mp hk with hk | hk
    · exact h.succ.line_lt k hk
    · rw [mem_singleton.mp hk, hid]
      exact Nat.lt_succ_self n
  depletion_lt := h.succ.depletion_lt
  lotEvent_lt := h.succ.lotEvent_lt
  lotEvent_lot_lt := h.succ.lotEvent_lot_lt

lemma sameChart_lined (l : PostingLine) : SameChart db (db.lined l) :=
  sameChart_applyAll _ db

lemma receiptAmount_lined {k : PostingLine} (h : 0 < v.receiptAmount l) :
    (v.lined k).receiptAmount l = v.receiptAmount l := by
  have hsome : (v.lines.find? (·.id == l.receiptLineId)).isSome := by
    by_contra hnone
    rw [Bool.not_eq_true, isSome_eq_false_iff, isNone_iff_eq_none] at hnone
    rw [Db.receiptAmount, hnone] at h
    exact h.ne rfl
  rw [Db.receiptAmount, lines_lined, List.find?_append, or_of_isSome hsome]
  rfl

lemma receiptAmount_lined_self {k : PostingLine} (hv : Fresh n v) (hid : k.id = n)
    (hl : l.receiptLineId = n) : (v.lined k).receiptAmount l = k.amount := by
  have hnone : v.lines.find? (·.id == l.receiptLineId) = none := by
    refine List.find?_eq_none.mpr fun k' hk' => ?_
    simpa [hl] using (hv.line_lt k' hk').ne
  rw [Db.receiptAmount, lines_lined, List.find?_append, hnone, none_or]
  simp [hid, hl]

/-! ### A receipt -/

lemma layersAt_layer (h : k.place = x) :
    (Write.apply (.layer k) db).layersAt x = db.layersAt x ++ [k] := by
  have hx : (k.productId == x.1 && k.locationId == x.2) = true := by
    simp [← h, CostLayer.place]
  simp [Db.layersAt, Write.apply, filter_append, hx]

lemma FifoBook.receive {l : PostingLine} (h : FifoBook i x n v) (hid : l.id = n)
    (hkey : ∀ m, l.key = .random m → m < n) (hdebit : l.debitAccountId = i)
    (hcredit : l.creditAccountId ≠ i) (hamount : 0 < l.amount) (hk : k.id = n + 1)
    (hplace : k.place = x) (hreceipt : k.receiptLineId = n) (hqty : 0 < k.originalQuantity)
    (hcost : k.unitCost = unitCostOf l.amount k.originalQuantity) :
    FifoBook i x (n + 2) (Write.apply (.layer k) (v.lined l)) := by
  have hlayers : (Write.apply (.layer k) (v.lined l)).layersAt x = v.layersAt x ++ [k] :=
    layersAt_layer _ hplace
  have hreceipts : ∀ k' ∈ v.layersAt x,
      (Write.apply (.layer k) (v.lined l)).receiptAmount k' = v.receiptAmount k' := fun k' hk' =>
    receiptAmount_lined (h.layer k' hk').2.1
  have hreceipt' : (Write.apply (.layer k) (v.lined l)).receiptAmount k = l.amount :=
    receiptAmount_lined_self h.fresh hid hreceipt
  have hnone : v.depletions.filter (·.layerId == k.id) = [] := by
    refine filter_eq_nil_iff.mpr fun d hd => ?_
    simpa [hk] using ((h.depletion_layer_lt d hd).trans (Nat.lt_succ_self n)).ne
  have hnew : (Write.apply (.layer k) (v.lined l)).layerCost k = 0 := by
    show ((v.depletions.filter (·.layerId == k.id)).map (·.costAmount)).sum = 0
    rw [hnone]
    rfl
  have hnew' : (Write.apply (.layer k) (v.lined l)).layerResidual k = k.originalQuantity := by
    show k.originalQuantity - ((v.depletions.filter (·.layerId == k.id)).map (·.quantity)).sum = _
    rw [hnone]
    simp
  have hblock : BlockDone n [x] (n + 1) (v.lined l) (n + 2) (Write.apply (.layer k) (v.lined l)) :=
    .layer (h.fresh.lined hid) hk hplace
  refine ⟨hblock.fresh, ?_, ?_, ?_, ?_, ?_⟩
  · intro l' hl' m hm
    rcases mem_append.mp hl' with hl' | hl'
    · exact (h.key_lt l' hl' m hm).trans (by omega)
    · rw [mem_singleton.mp hl'] at hm
      exact (hkey m hm).trans (by omega)
  · exact fun d hd => (h.depletion_layer_lt d hd).trans (by omega)
  · obtain ⟨a, ha, hd, hc⟩ := h.account
    refine ⟨a.moved l.amount 0, ?_, ?_, ?_⟩
    · show (v.lined l).account? i = _
      rw [account?_lined, ha, map_some, if_pos hdebit, if_neg hcredit]
    · rw [hlayers, map_append, sum_append, map_congr_left hreceipts, ← hd]
      simp [Account.moved, hreceipt']
    · rw [hlayers, map_append, sum_append]
      have hold : (v.layersAt x).map (Write.apply (.layer k) (v.lined l)).layerCost =
          (v.layersAt x).map v.layerCost := rfl
      rw [hold, ← hc]
      simp [Account.moved, hnew]
  · intro k' hk'
    rw [hlayers] at hk'
    rcases mem_append.mp hk' with hk' | hk'
    · rw [hreceipts k' hk']
      exact h.layer k' hk'
    · obtain rfl := mem_singleton.mp hk'
      rw [hreceipt', hnew']
      exact ⟨hqty, hamount, hcost, hqty.le⟩
  · intro k' hk' d hd hdk
    rw [hlayers] at hk'
    rcases mem_append.mp hk' with hk' | hk'
    · exact h.depletion k' hk' d hd hdk
    · rw [mem_singleton.mp hk', hk] at hdk
      exact absurd hdk ((h.depletion_layer_lt d hd).trans (Nat.lt_succ_self n)).ne

lemma FifoBook.receiptsAt_receive {l : PostingLine} (h : FifoBook i x n v) (hid : l.id = n)
    (hplace : k.place = x) (hreceipt : k.receiptLineId = n) :
    (Write.apply (.layer k) (v.lined l)).receiptsAt x =
      v.receiptsAt x ++ [(k.originalQuantity, l.amount)] := by
  have hnew : (Write.apply (.layer k) (v.lined l)).receiptAmount k = l.amount :=
    receiptAmount_lined_self h.fresh hid hreceipt
  rw [Db.receiptsAt, layersAt_layer _ hplace, map_append, Db.receiptsAt, map_singleton,
    hnew]
  refine congrArg (· ++ _) (map_congr_left fun k' hk' => ?_)
  exact congrArg (Prod.mk _) (receiptAmount_lined (h.layer k' hk').2.1)

/-! ### An issue -/

lemma sum_addDepletions (lineId : ℕ) (date : Date) (ts : List Taken) (l : CostLayer)
    (w : Depletion → ℤ) :
    (((db.addDepletions (depletionsOf lineId date ts)).depletions.filter
      (·.layerId == l.id)).map w).sum = ((db.depletions.filter (·.layerId == l.id)).map w).sum +
        ((depletionsOf lineId date (ts.filter (·.id = l.id))).map w).sum := by
  have hmap : (depletionsOf lineId date ts).filter (·.layerId == l.id) =
      depletionsOf lineId date (ts.filter (·.id = l.id)) := by
    rw [depletionsOf, List.filter_map]
    rfl
  rw [Db.addDepletions, filter_append, map_append, sum_append, hmap]

lemma layerResidual_addDepletions (lineId : ℕ) (date : Date) (ts : List Taken) (l : CostLayer) :
    (db.addDepletions (depletionsOf lineId date ts)).layerResidual l =
      db.layerResidual l - ((ts.filter (·.id = l.id)).map (·.allocation)).sum := by
  rw [Db.layerResidual, sum_addDepletions, Db.layerResidual, depletionsOf, List.map_map,
    ← sub_sub]
  rfl

lemma layerCost_addDepletions (lineId : ℕ) (date : Date) (ts : List Taken) (l : CostLayer) :
    (db.addDepletions (depletionsOf lineId date ts)).layerCost l =
      db.layerCost l + ((ts.filter (·.id = l.id)).map (·.costAmount)).sum := by
  rw [Db.layerCost, sum_addDepletions, Db.layerCost, depletionsOf, List.map_map]
  rfl

def Db.taken (x : Place) (q : ℤ) : List Taken :=
  (walkLoop (db.layerCandidates x.1 x.2) q).1

lemma mem_layerCandidates {c : Candidate} (h : c ∈ v.layerCandidates x.1 x.2) :
    ∃ l ∈ v.layersAt x, c = ⟨l.id, l.receiptDate, l.unitCost, v.layerResidual l⟩ := by
  rw [Db.layerCandidates, mem_insertionSort, List.mem_map] at h
  obtain ⟨l, hl, rfl⟩ := h
  exact ⟨l, hl, rfl⟩

lemma sum_layerCandidates (f : Candidate → ℤ) : ((v.layerCandidates x.1 x.2).map f).sum =
    ((v.layersAt x).map fun l =>
      f ⟨l.id, l.receiptDate, l.unitCost, v.layerResidual l⟩).sum := by
  rw [Db.layerCandidates, ((perm_insertionSort _ _).map f).sum_eq, List.map_map]
  rfl

lemma mem_taken {t : Taken} (h : t ∈ v.taken x q) :
    ∃ l ∈ v.layersAt x, t.id = l.id ∧ t.unitCost = l.unitCost ∧ 0 < t.allocation ∧
      t.allocation ≤ v.layerResidual l ∧ t.costAmount = roundCost t.allocation l.unitCost := by
  obtain ⟨c, hc, hid, -, hcost, hpos, hle, hamount⟩ := mem_walkLoop h
  obtain ⟨l, hl, rfl⟩ := mem_layerCandidates hc
  exact ⟨l, hl, hid, hcost, hpos, hle, hamount⟩

lemma taken_nodup (hids : ((v.layersAt x).map (·.id)).Nodup) :
    ((v.taken x q).map (·.id)).Nodup := by
  refine List.Nodup.sublist (walkLoop_sublist _ _) ?_
  have hperm : ((v.layerCandidates x.1 x.2).map (·.id)).Perm ((v.layersAt x).map (·.id)) := by
    refine ((perm_insertionSort _ _).map _).trans ?_
    rw [List.map_map]
    rfl
  exact hperm.nodup_iff.mpr hids

lemma sum_taken_le (hids : ((v.layersAt x).map (·.id)).Nodup) (hl : l ∈ v.layersAt x)
    (hres : 0 ≤ v.layerResidual l) :
    (((v.taken x q).filter (·.id = l.id)).map (·.allocation)).sum ≤ v.layerResidual l := by
  by_cases hex : ∃ t ∈ v.taken x q, t.id = l.id
  · obtain ⟨t, ht, hid⟩ := hex
    rw [← hid, filter_key_eq_singleton (taken_nodup hids) ht]
    obtain ⟨l', hl', hid', -, -, hle, -⟩ := mem_taken ht
    have heq : l' = l := inj_on_of_nodup_map hids hl' hl (hid'.symm.trans hid)
    simpa [heq] using hle
  · have hnil : (v.taken x q).filter (·.id = l.id) = [] := by
      refine filter_eq_nil_iff.mpr fun t ht hid => hex ⟨t, ht, by simpa using hid⟩
    rw [hnil]
    simpa using hres

lemma sum_taken_layers (hids : ((v.layersAt x).map (·.id)).Nodup) (w : Taken → ℤ) :
    ((v.layersAt x).map fun l => (((v.taken x q).filter (·.id = l.id)).map w).sum).sum =
      ((v.taken x q).map w).sum := by
  refine sum_filter_key hids (fun t ht => ?_) w
  obtain ⟨l, hl, hid, -⟩ := mem_taken ht
  exact ⟨l, hl, hid.symm⟩

lemma FifoBook.issue {l : PostingLine} (h : FifoBook i x n v) (hid : l.id = n)
    (hkey : ∀ m, l.key = .random m → m < n) (hdebit : l.debitAccountId ≠ i)
    (hcredit : l.creditAccountId = i) (hamount : l.amount = walkCost (v.taken x q)) :
    FifoBook i x (n + 1) ((v.lined l).addDepletions (depletionsOf n date (v.taken x q))) := by
  have hids := h.ids_nodup
  have hreceipts : ∀ k ∈ v.layersAt x,
      ((v.lined l).addDepletions (depletionsOf n date (v.taken x q))).receiptAmount k =
        v.receiptAmount k := fun k hk => receiptAmount_lined (h.layer k hk).2.1
  have hresidual : ∀ k, ((v.lined l).addDepletions
      (depletionsOf n date (v.taken x q))).layerResidual k = v.layerResidual k -
        (((v.taken x q).filter (·.id = k.id)).map (·.allocation)).sum :=
    layerResidual_addDepletions (v.lined l) n date (v.taken x q)
  have hcost : ∀ k, ((v.lined l).addDepletions
      (depletionsOf n date (v.taken x q))).layerCost k = v.layerCost k +
        (((v.taken x q).filter (·.id = k.id)).map (·.costAmount)).sum :=
    layerCost_addDepletions (v.lined l) n date (v.taken x q)
  have hblock : BlockDone n [x] (n + 1) (v.lined l) (n + 1)
      ((v.lined l).addDepletions (depletionsOf n date (v.taken x q))) :=
    .depletions (h.fresh.lined hid) (Nat.lt_succ_self n)
  refine ⟨hblock.fresh, ?_, ?_, ?_, ?_, ?_⟩
  · intro l' hl' m hm
    rcases mem_append.mp hl' with hl' | hl'
    · exact (h.key_lt l' hl' m hm).trans (Nat.lt_succ_self n)
    · rw [mem_singleton.mp hl'] at hm
      exact (hkey m hm).trans (Nat.lt_succ_self n)
  · intro d hd
    rcases mem_append.mp hd with hd | hd
    · exact (h.depletion_layer_lt d hd).trans (Nat.lt_succ_self n)
    · obtain ⟨t, ht, rfl⟩ := List.mem_map.mp hd
      obtain ⟨k, hk, hkid, -⟩ := mem_taken ht
      rw [hkid]
      exact (h.fresh.layer_lt k (mem_layersAt hk).1).trans (Nat.lt_succ_self n)
  · obtain ⟨a, ha, hd, hc⟩ := h.account
    refine ⟨a.moved 0 l.amount, ?_, ?_, ?_⟩
    · show (v.lined l).account? i = _
      rw [account?_lined, ha, map_some, if_neg hdebit, if_pos hcredit]
    · have hsame : ((v.lined l).addDepletions
          (depletionsOf n date (v.taken x q))).layersAt x = v.layersAt x := rfl
      rw [hsame, map_congr_left hreceipts, ← hd]
      simp [Account.moved]
    · have hsame : ((v.lined l).addDepletions
          (depletionsOf n date (v.taken x q))).layersAt x = v.layersAt x := rfl
      rw [hsame, funext hcost, sum_map_add, sum_taken_layers hids, ← hc]
      simp [Account.moved, hamount, walkCost]
  · intro k hk
    obtain ⟨hqty, hpos, hunit, hres⟩ := h.layer k hk
    rw [hreceipts k hk, hresidual k]
    have hle := sum_taken_le (q := q) hids hk hres
    exact ⟨hqty, hpos, hunit, by omega⟩
  · intro k hk d hd hdk
    rcases mem_append.mp hd with hd | hd
    · exact h.depletion k hk d hd hdk
    · obtain ⟨t, ht, rfl⟩ := List.mem_map.mp hd
      obtain ⟨k', hk', hid', -, hpos, -, hcost'⟩ := mem_taken ht
      have heq : k' = k := inj_on_of_nodup_map hids hk' hk (hid'.symm.trans hdk)
      rw [← heq]
      exact ⟨hpos, hcost'⟩

lemma FifoBook.remaining_issue (h : FifoBook i x n v) (q : ℤ) (date : Date) (l : PostingLine)
    (lineId : ℕ) : ((v.lined l).addDepletions
      (depletionsOf lineId date (v.taken x q))).remaining x =
        v.remaining x - ((v.taken x q).map (·.allocation)).sum := by
  have hresidual : ∀ k, ((v.lined l).addDepletions
      (depletionsOf lineId date (v.taken x q))).layerResidual k = v.layerResidual k +
        -(((v.taken x q).filter (·.id = k.id)).map (·.allocation)).sum :=
    layerResidual_addDepletions (v.lined l) lineId date (v.taken x q)
  have hsame : ((v.lined l).addDepletions
      (depletionsOf lineId date (v.taken x q))).layersAt x = v.layersAt x := rfl
  have hneg : ((v.layersAt x).map fun k =>
      -(((v.taken x q).filter (·.id = k.id)).map (·.allocation)).sum).sum =
        -((v.taken x q).map (·.allocation)).sum := by
    rw [← sum_taken_layers h.ids_nodup (fun t => t.allocation), sum_neg, List.map_map]
    rfl
  rw [Db.remaining, hsame, funext hresidual, sum_map_add, hneg]
  rfl

/-! ### Accounts and operations -/

def Db.FifoAccount (i : ℕ) (x : Place) : Prop :=
  ∃ a, db.account? i = some a ∧ a.isClosed = false ∧ a.normalSide = .debit ∧
    a.stockIn db.skus = some (x, .fifo)

/-- An account to receive from: open, of no product, and free to be credited. -/
def Db.Supplies (i j : ℕ) : Prop :=
  ∃ a b, db.account? i = some a ∧ db.account? j = some b ∧ b.isClosed = false ∧
    b.ledger = a.ledger ∧ b.skuId = none ∧ b.normalSide ≠ .debit

/-- An account to issue to: open, without stock, and free to be debited. -/
def Db.Takes (i j : ℕ) : Prop :=
  ∃ a b, db.account? i = some a ∧ db.account? j = some b ∧ b.isClosed = false ∧
    b.ledger = a.ledger ∧ stocked? b = none ∧ b.normalSide ≠ .credit

/-- The date falls in an open period, and a line that credits the account has a rate on it if it
needs one. -/
def Db.Postable (i : ℕ) (date : Date) : Prop :=
  db.Open date ∧ ∀ a ∈ db.account? i, db.currencyRow a date = .ok ()

/-- Beside account `i`, all accounts have room for amounts that add up to `total`, what has gone
through account `i` included. -/
def Db.Room (i : ℕ) (total : ℤ) : Prop :=
  ∃ a, db.account? i = some a ∧ ∀ j ≠ i, ∀ b ∈ db.account? j,
    b.debitsTotal + total ≤ maxBigint + a.creditsTotal ∧
      b.creditsTotal + total ≤ maxBigint + a.debitsTotal

/-- A receipt at the caller's amount, or an issue that the dispatcher prices. -/
inductive StockOp
  | receive (supplier : ℕ) (reason : Reason) (qty amount : ℤ) (date : Date)
  | issue (customer : ℕ) (reason : Reason) (qty : ℤ) (date : Date)

namespace StockOp

def event (i : ℕ) (key : Key) : StockOp → Event
  | .receive supplier reason qty amount date =>
    { reason, debitAccountId := i, creditAccountId := supplier, amount := some amount
      qty := some qty, businessDate := date, key }
  | .issue customer reason qty date =>
    { reason, debitAccountId := customer, creditAccountId := i, qty := some qty
      businessDate := date, key }

/-- The operation, under a key of its own. -/
def post (i : ℕ) (op : StockOp) : Tx (List Posted) := do
  let key ← Prog.nextval
  postPostingLines [op.event i (.random key)] false

/-- The operation is one of the account's. -/
def Valid (i : ℕ) : StockOp → Prop
  | .receive supplier reason qty amount date =>
    0 < qty ∧ 0 < amount ∧ reason.isCost = false ∧ db.Supplies i supplier ∧
      db.Postable supplier date
  | .issue customer reason qty date =>
    0 < qty ∧ reason.isCost = true ∧ db.Takes i customer ∧ db.Postable i date

/-- Quantity and amount of a receipt. -/
def receipt? : StockOp → Option (ℤ × ℤ)
  | .receive _ _ qty amount _ => some (qty, amount)
  | .issue .. => none

end StockOp

/-- The chart, the calendar and the rates are the same. -/
structure SameShop (v v' : Db) : Prop extends SameChart v v' where
  periods : v'.periods = v.periods
  entities : v'.entities = v.entities
  fxRates : v'.fxRates = v.fxRates

namespace SameShop

lemma trans {v'' : Db} (h : SameShop v v') (h' : SameShop v' v'') : SameShop v v'' where
  toSameChart := h.toSameChart.trans h'.toSameChart
  periods := h'.periods.trans h.periods
  entities := h'.entities.trans h.entities
  fxRates := h'.fxRates.trans h.fxRates

lemma account? (h : SameShop v v') {a : Account} (ha : v.account? j = some a) :
    ∃ a', v'.account? j = some a' ∧ a'.static = a.static := by
  have hj := h.accounts j
  rw [ha, map_some, map_eq_some_iff] at hj
  exact hj

lemma fifoAccount (h : SameShop v v') (hi : v.FifoAccount i x) : v'.FifoAccount i x := by
  obtain ⟨a, ha, hopen, hside, hstock⟩ := hi
  obtain ⟨a', ha', hs⟩ := h.account? ha
  refine ⟨a', ha', (congrArg Account.isClosed hs).trans hopen,
    (congrArg Account.normalSide hs).trans hside, ?_⟩
  rw [h.skus, ← stockIn_static, hs, stockIn_static, hstock]

lemma supplies (h : SameShop v v') (hj : v.Supplies i j) : v'.Supplies i j := by
  obtain ⟨a, b, ha, hb, hopen, hledger, hsku, hside⟩ := hj
  obtain ⟨a', ha', hsa⟩ := h.account? ha
  obtain ⟨b', hb', hsb⟩ := h.account? hb
  refine ⟨a', b', ha', hb', (congrArg Account.isClosed hsb).trans hopen, ?_,
    (congrArg Account.skuId hsb).trans hsku, ?_⟩
  · exact ((congrArg Account.ledger hsb).trans hledger).trans (congrArg Account.ledger hsa).symm
  · exact fun hd => hside ((congrArg Account.normalSide hsb).symm.trans hd)

lemma takes (h : SameShop v v') (hj : v.Takes i j) : v'.Takes i j := by
  obtain ⟨a, b, ha, hb, hopen, hledger, hstock, hside⟩ := hj
  obtain ⟨a', ha', hsa⟩ := h.account? ha
  obtain ⟨b', hb', hsb⟩ := h.account? hb
  refine ⟨a', b', ha', hb', (congrArg Account.isClosed hsb).trans hopen, ?_, ?_, ?_⟩
  · exact ((congrArg Account.ledger hsb).trans hledger).trans (congrArg Account.ledger hsa).symm
  · exact (congrArg stocked? hsb : stocked? b'.static = stocked? b.static).trans hstock
  · exact fun hd => hside ((congrArg Account.normalSide hsb).symm.trans hd)

lemma postable (h : SameShop v v') (hj : v.Postable j date) : v'.Postable j date := by
  refine ⟨?_, fun a' ha' => ?_⟩
  · rw [Db.Open, h.periods]
    exact hj.1
  · have hacc := h.accounts j
    rw [ha', map_some, eq_comm, map_eq_some_iff] at hacc
    obtain ⟨a, ha, hs⟩ := hacc
    have hrow : v'.currencyRow a'.static date = v.currencyRow a.static date := by
      rw [hs]
      simp only [Db.currencyRow, Db.fxRate?, h.entities, h.fxRates]
    exact hrow.trans (hj.2 a ha)

lemma valid (h : SameShop v v') {op : StockOp} (hop : op.Valid v i) : op.Valid v' i := by
  cases op with
  | receive supplier reason qty amount date =>
    obtain ⟨hq, ha, hr, hs, hd⟩ := hop
    exact ⟨hq, ha, hr, h.supplies hs, h.postable hd⟩
  | issue customer reason qty date =>
    obtain ⟨hq, hr, ht, hd⟩ := hop
    exact ⟨hq, hr, h.takes ht, h.postable hd⟩

end SameShop

lemma Db.Room.lined {l : PostingLine} {total : ℤ} (h : v.Room i total)
    (hne : l.debitAccountId ≠ l.creditAccountId)
    (hi : l.debitAccountId = i ∨ l.creditAccountId = i) (hpos : 0 ≤ l.amount) :
    (v.lined l).Room i total := by
  obtain ⟨a, ha, hroom⟩ := h
  refine ⟨_, by rw [account?_lined, ha, map_some], fun j hj b' hb' => ?_⟩
  rw [account?_lined, Option.mem_def, map_eq_some_iff] at hb'
  obtain ⟨b, hb, rfl⟩ := hb'
  obtain ⟨hdebits, hcredits⟩ := hroom j hj b hb
  simp only [Account.moved]
  rcases hi with rfl | rfl
  · simp only [hj.symm, hne.symm, if_true, if_false]
    split_ifs <;> omega
  · simp only [hj.symm, hne, if_true, if_false]
    split_ifs <;> omega

/-- A shop that keeps the books of its stock, with its accounts' totals in range and their CHECKs
met. -/
structure FifoShop (i : ℕ) (x : Place) (n : ℕ) (db : Db) : Prop where
  book : FifoBook i x n db
  account : db.FifoAccount i x
  sound : ∀ j, ∀ a ∈ db.account? j, a.Sound

/-! ### Posting a FIFO event -/

section AfterLine

variable {periodId sku : ℕ} {m : Option CostMethod} {s : Sku}

lemma blocksFor_fifo (hfifo : s.costMethod = .fifo) (hq : q ≠ 0) :
    blocksFor e idx lineId amount q d c s = fifoBlock e lineId amount q d c := by
  rw [blocksFor, if_neg hq, if_pos hfifo]

variable (hsku : costSku (some d) (some c) = some sku) (hs : v.sku? sku = some s)
  (hfifo : s.costMethod = .fifo) (hm : m = none ∨ m = some .fifo)
  (hq : qtyForRow e amount d c = some q)
include hsku hs hfifo hm hq

lemma afterLine_fifo_ends {Q : ℕ → ℕ → Db → Prop} {E : Prop}
    (h : (fifoBlock e lineId amount q d c).Ends schema E n v fun _ => Q lineId)
    (hE : E ∨ v.currencyRow c e.businessDate = .ok () ∧ RowFits amount q d) :
    (afterLine e idx lineId periodId amount d c m).Ends schema E n v Q := by
  refine afterLine_ends hsku hs (by rw [hfifo]; rfl) (by rw [hfifo]; exact hm)
    (fun hnone => absurd (hq.symm.trans hnone) (by simp)) (fun q' hq' hne => ?_)
    (hE.imp_right fun hok => ⟨hok.1, fun q' hq' => ?_⟩)
  all_goals obtain rfl : q = q' := some.inj (hq.symm.trans hq')
  · rw [blocksFor_fifo hfifo hne]
    exact h
  · exact hok.2

end AfterLine

lemma perform_depletions_ok {ds : List Depletion}
    (h : ∀ d ∈ ds, d.costAmount ≤ maxBigint ∧ (0 < d.quantity ∧ 0 ≤ d.unitCost) ∧
      ∃ l ∈ v.layers, l.id = d.layerId) :
    ∃ v', schema.perform (ds.map .depletion) v = .ok v' := by
  induction ds generalizing v with
  | nil => exact ⟨v, rfl⟩
  | cons d ds ih =>
    have hcheck : schema.check (.depletion d) v = .ok () := by
      show Write.check (.depletion d) v = .ok ()
      simp only [Write.check, require_bind_ok_iff, require_ok_iff]
      exact h d mem_cons_self
    obtain ⟨v', hv'⟩ := ih (v := schema.apply (.depletion d) v)
      fun d' hd' => h d' (mem_cons_of_mem d hd')
    refine ⟨v', ?_⟩
    rw [map_cons, Schema.perform, hcheck]
    exact hv'

lemma FifoBook.walk_covers (h : FifoBook i x n v) (hq : 0 < q) (hle : q ≤ v.remaining x) :
    (walkLoop (v.layerCandidates x.1 x.2) q).2 ≤ 0 := by
  have hsum : ((v.layerCandidates x.1 x.2).map fun c => max 0 c.residual).sum =
      v.remaining x := by
    rw [sum_layerCandidates, Db.remaining]
    refine congrArg List.sum (map_congr_left fun l hl => ?_)
    exact max_eq_right (h.layer l hl).2.2.2
  rw [walkLoop_wanting _ hq.le, hsum]
  omega

lemma sum_allocation_taken (hq : 0 ≤ q) (h : (walkLoop (v.layerCandidates x.1 x.2) q).2 ≤ 0) :
    ((v.taken x q).map (·.allocation)).sum = q := by
  have htotal := walkQty_walkLoop (v.layerCandidates x.1 x.2) q
  have hnonneg := walkLoop_wanting_nonneg (v.layerCandidates x.1 x.2) hq
  show walkQty (walkLoop (v.layerCandidates x.1 x.2) q).1 = q
  omega

section Price

variable (hd : v.account? e.debitAccountId = some d) (hc : v.account? e.creditAccountId = some c)
  (hcost : e.reason.isCost = true) (hval : d.ledger.isValue = true)
  (hcval : c.ledger.isValue = true) (hstock : c.stockIn v.skus = some (x, .fifo))
  (hq : e.qty = some q) (hpos : 0 < q)

include hd hc hcost hval hcval hstock hq hpos

lemma run_amountFor_fifo :
    (amountFor e idx (v.account? e.debitAccountId) (v.account? e.creditAccountId)).run schema n v =
      ((fifoWalkLayers x.1 x.2 q >>= fun ts => pure (walkCost ts)) >>= fun amount =>
        pure (some amount, some CostMethod.fifo)).run schema n v := by
  have hcredit : v.creditStock e.creditAccountId = some (x, .fifo) := by
    rw [Db.creditStock, hc, bind_some, hstock]
  obtain ⟨hsku, hloc, hm⟩ := cost_of_creditStock (v.account? e.debitAccountId) hcredit
  have hvalue : isValue (v.account? e.debitAccountId) = true := by
    rw [isValue, hd]
    exact hval
  have hnot : isNotValue (v.account? e.creditAccountId) = false := by
    rw [isNotValue, hc, any_some, hcval]
    rfl
  unfold amountFor
  rw [if_pos hcost]
  unfold priceEvent
  rw [hsku, run_bind_of_ok (a := (v.sku? x.1).map (·.costMethod)) rfl, hm, if_pos hvalue]
  unfold computeAmount
  rw [hq, hsku]
  dsimp only
  unfold computeAmountFifoOutbound computeAmountWalkOutbound Prog.ensure
  rw [hsku, hloc, abs_of_pos hpos, if_pos hnot]
  rfl

lemma amountFor_fifo_ends {E : Prop}
    (hE : E ∨ (walkLoop (v.layerCandidates x.1 x.2) q).2 ≤ 0) :
    (amountFor e idx (v.account? e.debitAccountId) (v.account? e.creditAccountId)).Ends schema E n v
      fun a n' v' => n' = n ∧ v' = v ∧ a = (some (walkCost (v.taken x q)), some .fifo) ∧
        (walkLoop (v.layerCandidates x.1 x.2) q).2 ≤ 0 := by
  refine Ends.of_run (ends_bind ((walk_ends (hE.imp_right (⟨hpos, ·⟩))).bind ?_))
    (run_amountFor_fifo hd hc hcost hval hcval hstock hq hpos)
  rintro ts n' v' ⟨rfl, rfl, -, rfl, hshort⟩
  exact ends_pure (ends_pure ⟨rfl, rfl, rfl, hshort⟩)

end Price

section Block

variable {Q : ℕ → Db → Prop} {E : Prop}

def receiptLayer (e : Event) (id lineId : ℕ) (x : Place) (amount q : ℤ) : CostLayer where
  id := id
  productId := x.1
  locationId := x.2
  receiptLineId := lineId
  receiptDate := e.businessDate
  originalQuantity := |q|
  unitCost := unitCostOf amount q

lemma fifoBlock_receive_ends (hd : stocked? d = some x) (hc : stocked? c = none)
    (hval : d.ledger.isValue = true)
    (h : Q (n + 1) (Write.apply (.layer (receiptLayer e n lineId x amount q)) v))
    (hE : E ∨ 0 < |q| ∧ 0 ≤ unitCostOf amount q) :
    (fifoBlock e lineId amount q d c).Ends schema E n v fun _ => Q := by
  unfold fifoBlock fifoReceive fifoIssue receiptUnitCost
  rw [hd, hc, if_pos hval]
  exact ends_bind (ends_bind (ends_pure (ends_bind (ends_nextval (ends_exec (fun _ => ends_pure h)
    (hE.imp_right require_ok_iff.mpr))))))

lemma fifoBlock_issue_ends (hd : stocked? d = none) (hc : stocked? c = some x) (hq : 0 < q)
    (h : Q n (v.addDepletions (depletionsOf lineId e.businessDate (v.taken x q))))
    (hE : E ∨ (walkLoop (v.layerCandidates x.1 x.2) q).2 ≤ 0 ∧
      (∀ l ∈ v.layersAt x, 0 ≤ l.unitCost) ∧ ∀ t ∈ v.taken x q, t.costAmount ≤ maxBigint) :
    (fifoBlock e lineId amount q d c).Ends schema E n v fun _ => Q := by
  unfold fifoBlock fifoReceive fifoIssue
  rw [hd, hc, abs_of_pos hq]
  refine ends_bind (ends_pure ((fifoWriteDepletions_ends (hE.imp_right ?_)).mono ?_))
  · rintro ⟨hshort, hcost, hmax⟩
    refine ⟨⟨hq, hshort⟩, perform_depletions_ok fun d' hd' => ?_⟩
    obtain ⟨t, ht, rfl⟩ := List.mem_map.mp hd'
    obtain ⟨l, hl, hid, hunit, hpos, -⟩ := mem_taken ht
    exact ⟨hmax t ht, ⟨hpos, hunit ▸ hcost l hl⟩, l, (mem_layersAt hl).1, hid.symm⟩
  · rintro _ _ _ ⟨rfl, -, rfl⟩
    exact h

end Block

/-! ### The operations -/

lemma FifoShop.unposted (h : FifoShop i x n v) : v.posted (.random n) = false := by
  refine List.any_eq_false.mpr fun l hl => ?_
  rw [beq_iff_eq]
  exact fun hk => (h.book.key_lt l hl n hk).ne rfl

lemma FifoShop.succ (h : FifoShop i x n v) : FifoShop i x (n + 1) v where
  book :=
    { fresh := h.book.fresh.succ
      key_lt := fun l hl m hm => Nat.lt_succ_of_lt (h.book.key_lt l hl m hm)
      depletion_layer_lt := fun d hd => Nat.lt_succ_of_lt (h.book.depletion_layer_lt d hd)
      account := h.book.account
      layer := h.book.layer
      depletion := h.book.depletion }
  account := h.account
  sound := h.sound

lemma Db.FifoAccount.spec (h : v.FifoAccount i x) : ∃ a s, v.account? i = some a ∧ a.id = i ∧
    a.isClosed = false ∧ a.normalSide = .debit ∧ a.stockIn v.skus = some (x, .fifo) ∧
    a.ledger.isValue = true ∧ stocked? a = some x ∧ a.skuId = some x.1 ∧
    v.sku? x.1 = some s ∧ s.costMethod = .fifo := by
  obtain ⟨a, ha, hopen, hside, hstock⟩ := h
  obtain ⟨hval, hx, s, hs, hm⟩ := stockIn_eq_some hstock
  exact ⟨a, s, ha, id_of_account? ha, hopen, hside, hstock, hval, hx, (stocked?_eq_some hx).1, hs,
    hm⟩

lemma twoPass_fifo {m : CostMethod} (h : v.creditStock e.creditAccountId = some (x, m))
    (hm : m.isWac = false) : v.twoPass [e] = false := by
  obtain ⟨hsku, -, hmethod⟩ := cost_of_creditStock (v.account? e.debitAccountId) h
  obtain ⟨s, hs, rfl⟩ := map_eq_some_iff.mp hmethod
  unfold Db.twoPass Db.probe
  simp only [any_cons, any_nil, Bool.or_false, hsku, bind_some, hs]
  split
  · rfl
  · exact hm

lemma ne_of_stocked? {a b : Account} (ha : v.account? i = some a) (hb : v.account? j = some b)
    (hx : stocked? a = some x) (hbnone : stocked? b = none) : j ≠ i := by
  rintro rfl
  cases ha.symm.trans hb
  cases hx.symm.trans hbnone

/-- The accounts have room for a receipt. -/
structure Receivable (i : ℕ) (x : Place) (q amount : ℤ) (db : Db) : Prop where
  qty : q < 10 ^ 13
  cost : unitCostOf amount q < 10 ^ 19
  room : ∃ total ≤ maxBigint, db.Room i total ∧
    ((db.layersAt x).map db.receiptAmount).sum + amount ≤ total

/-- There is enough of the product for an issue, at a positive cost that the account has. -/
structure Issuable (i : ℕ) (x : Place) (q : ℤ) (db : Db) : Prop where
  qty : q < 10 ^ 13
  cost : unitCostOf (walkCost (db.taken x q)) q < 10 ^ 19
  room : ∃ total ≤ maxBigint, db.Room i total ∧
    ((db.layersAt x).map db.receiptAmount).sum ≤ total
  covered : q ≤ db.remaining x
  pos : 0 < walkCost (db.taken x q)
  balance : ((db.layersAt x).map db.layerCost).sum + walkCost (db.taken x q) ≤
    ((db.layersAt x).map db.receiptAmount).sum

section Operation

variable {a b : Account} {E : Prop}

lemma Receivable.sound (hr : Receivable i x q amount v) (h : FifoShop i x n v)
    (ha : v.account? i = some a) (hside : a.normalSide = .debit) (hne : j ≠ i)
    (hb : v.account? j = some b) (hbside : b.normalSide ≠ .debit) (hamount : 0 < amount) :
    (a.debited amount).Sound ∧ (b.credited amount).Sound ∧ amount ≤ maxBigint := by
  have hsound := h.sound i a ha
  have hdebits := hsound.2.1
  obtain ⟨a₁, ha₁, htotals, -⟩ := h.book.account
  obtain rfl : a = a₁ := some.inj (ha.symm.trans ha₁)
  obtain ⟨total, hmax, ⟨a₂, ha₂, hroom⟩, htotal⟩ := hr.room
  obtain rfl : a = a₂ := some.inj (ha.symm.trans ha₂)
  have hbroom := (hroom j hne b hb).2
  refine ⟨hsound.debited hamount.le (by rw [hside]; exact fun hside => by cases hside) ?_,
    (h.sound j b hb).credited hamount.le (fun hside => absurd hside hbside) ?_, by omega⟩
  · show a.debitsTotal + amount ≤ maxBigint
    omega
  · show b.creditsTotal + amount ≤ maxBigint
    omega

/-- A receipt keeps the books, and adds itself to the receipts, with a layer of its own. -/
lemma receive_ends (h : FifoShop i x n v) (hop : (StockOp.receive j r q amount date).Valid v i)
    (hE : E ∨ Receivable i x q amount v := by exact .inl trivial) :
    ((StockOp.receive j r q amount date).post i).Ends schema E n v fun _ n' v' =>
      FifoShop i x n' v' ∧ SameShop v v' ∧ v'.receiptsAt x = v.receiptsAt x ++ [(q, amount)] ∧
        (∀ total, v.Room i total → v'.Room i total) ∧ v'.depletions = v.depletions ∧
        ∃ k, v'.layersAt x = v.layersAt x ++ [k] ∧ n ≤ k.id := by
  obtain ⟨hq, hamount, hr, ⟨a', b, ha', hb, hbopen, hledger, hbsku, hbside⟩, ⟨p, hp, hopen⟩,
    hrate⟩ := hop
  obtain ⟨a, s, ha, haid, haopen, haside, -, hval, hx, hasku, hs, hm⟩ := h.account.spec
  have hbid := id_of_account? hb
  have hbnone : stocked? b = none := by simp [stocked?, hbsku]
  have hsku : costSku (some a) (some b) = some x.1 := by simp [costSku, hbsku, hasku]
  have hne := ne_of_stocked? ha hb hx hbnone
  obtain rfl : a = a' := some.inj (ha.symm.trans ha')
  have hsame : ∀ l k, SameShop v (Write.apply (.layer k) (v.lined l)) := fun l k =>
    { toSameChart := (sameChart_lined v l).trans (sameChart_apply (.layer k) _)
      periods := rfl
      entities := rfl
      fxRates := rfl }
  have hrow (hfits : Receivable i x q amount v) : RowFits amount q a :=
    ⟨fun _ => hfits.cost, by rw [abs_of_pos hq]; exact hfits.qty, hq.ne'⟩
  refine ends_bind (ends_nextval ?_)
  refine postOne_ends (twoPass_of_not_isCost hr) h.unposted ?_
  refine postNew_ends (P := fun p n' v' => n + 1 = n' ∧ v = v' ∧ p = (some amount, none)) ?_ ?_
  · rw [amountFor_of_not_isCost hr]
    exact ends_pure ⟨rfl, rfl, rfl⟩
  rintro _ _ _ ⟨rfl, rfl, rfl⟩
  show (applyEvent _ 1 (some amount) (v.account? i) (v.account? j) none false).Ends _ _ _ _ _
  rw [ha, hb]
  refine applyEvent_ends (applyChecked_ends (haid.symm ▸ ha) (hbid.symm ▸ hb)
    (fun p' _ hcan => ?_) (hE.imp_right fun hfits => ⟨hledger.symm, p, hp, ?_, ?_⟩))
    (.inr ⟨haopen, hbopen⟩)
  · refine afterLine_fifo_ends (v := v.lined _) (q := q) hsku hs hm (.inl rfl) rfl ?_
      (hE.imp_right fun hfits => ⟨hrate b hb, hrow hfits⟩)
    refine fifoBlock_receive_ends hx hbnone hval ⟨⟨?_, ?_, sound_lined h.sound hcan⟩, ?_, ?_,
      fun _ hroom => ?_, rfl, _, layersAt_layer _ rfl, ?_⟩ (.inr ⟨abs_pos.mpr hq.ne', ?_⟩)
    · refine h.succ.book.receive rfl ?_ haid (hbid.trans_ne hne) hamount rfl rfl rfl ?_ ?_
      · rintro m ⟨⟩
        exact Nat.lt_succ_self n
      · exact abs_pos.mpr hq.ne'
      · show unitCostOf amount q = unitCostOf amount |q|
        rw [abs_of_pos hq]
    · exact (hsame _ _).fifoAccount h.account
    · exact hsame _ _
    · refine (h.succ.book.receiptsAt_receive rfl rfl rfl).trans ?_
      show v.receiptsAt x ++ [(|q|, amount)] = _
      rw [abs_of_pos hq]
    · exact hroom.lined hcan.ne (.inl haid) hamount.le
    · exact Nat.le_add_right n 2
    · exact roundHalfAway_nonneg (by omega) (abs_pos.mpr hq.ne')
  · exact fun hclosed => absurd hclosed (by simp [hopen])
  · obtain ⟨hsa, hsb, hmax⟩ := hfits.sound h ha haside hne hb hbside hamount
    refine ⟨⟨hmax, fun _ hq' => ?_⟩, hamount, fun _ hq' => ?_, ?_, h.unposted, period?_isSome hp,
      ⟨a, haid.symm ▸ ha, hsa⟩, b, hbid.symm ▸ hb, hsb⟩
    · cases hq'
      exact (hrow hfits).le_maxBigint
    · cases hq'
      exact hq.le
    · show a.id ≠ b.id
      rw [haid, hbid]
      exact hne.symm

lemma Issuable.sound (hi : Issuable i x q v) (h : FifoShop i x n v) (ha : v.account? i = some a)
    (hne : j ≠ i) (hb : v.account? j = some b) (hbside : b.normalSide ≠ .credit) :
    (b.debited (walkCost (v.taken x q))).Sound ∧ (a.credited (walkCost (v.taken x q))).Sound ∧
      walkCost (v.taken x q) ≤ maxBigint := by
  have hpos := hi.pos
  have hbal := hi.balance
  have hsound := h.sound i a ha
  have hcredits := hsound.2.2.1
  obtain ⟨a₁, ha₁, hdebits', hcredits'⟩ := h.book.account
  obtain rfl : a = a₁ := some.inj (ha.symm.trans ha₁)
  obtain ⟨total, hmax, ⟨a₂, ha₂, hroom⟩, htotal⟩ := hi.room
  obtain rfl : a = a₂ := some.inj (ha.symm.trans ha₂)
  have hbroom := (hroom j hne b hb).1
  have hafter : a.creditsTotal + walkCost (v.taken x q) ≤ a.debitsTotal := by omega
  refine ⟨(h.sound j b hb).debited hpos.le hbside ?_,
    hsound.credited hpos.le (fun _ => hafter) (hafter.trans hsound.1.1), by omega⟩
  show b.debitsTotal + walkCost (v.taken x q) ≤ maxBigint
  omega

lemma costAmount_le_walkCost {t : Taken} (hunit : ∀ l ∈ v.layersAt x, 0 ≤ l.unitCost)
    (ht : t ∈ v.taken x q) : t.costAmount ≤ walkCost (v.taken x q) := by
  refine single_le_sum (fun y hy => ?_) _ (List.mem_map_of_mem ht)
  obtain ⟨t', ht', rfl⟩ := List.mem_map.mp hy
  obtain ⟨l, hl, -, -, hpos, -, hamount⟩ := mem_taken ht'
  rw [hamount, roundCost]
  exact roundHalfAway_nonneg (mul_nonneg hpos.le (hunit l hl)) (by norm_num)

/-- An issue that is accepted keeps the books and the receipts, takes its quantity, and takes it out
of the layers as a walk does. -/
lemma issue_ends (h : FifoShop i x n v) (hop : (StockOp.issue j r q date).Valid v i)
    (hE : E ∨ Issuable i x q v := by exact .inl trivial) :
    ((StockOp.issue j r q date).post i).Ends schema E n v fun _ n' v' =>
      FifoShop i x n' v' ∧ SameShop v v' ∧ v'.receiptsAt x = v.receiptsAt x ∧
        (∀ total, v.Room i total → v'.Room i total) ∧
        v'.remaining x = v.remaining x - q ∧ v'.layersAt x = v.layersAt x ∧
        v'.depletions = v.depletions ++ depletionsOf (n + 1) date (v.taken x q) := by
  obtain ⟨hq, hr, ⟨a', b, ha', hb, hbopen, hledger, hbnone, hbside⟩, ⟨p, hp, hopen⟩, hrate⟩ := hop
  obtain ⟨a, s, ha, haid, haopen, haside, hstock, hval, hx, hasku, hs, hm⟩ := h.account.spec
  have hbid := id_of_account? hb
  have hsku : costSku (some b) (some a) = some x.1 := by simp [costSku, hasku]
  have hne := ne_of_stocked? ha hb hx hbnone
  obtain rfl : a = a' := some.inj (ha.symm.trans ha')
  have hbval : b.ledger.isValue = true := by rw [hledger, hval]
  have hcredit : v.creditStock i = some (x, .fifo) := by
    rw [Db.creditStock, ha, bind_some, hstock]
  have hsame : ∀ l ds, SameShop v ((v.lined l).addDepletions ds) := fun l ds =>
    { skus := (sameChart_lined v l).skus
      accounts := (sameChart_lined v l).accounts
      ids := (sameChart_lined v l).ids
      periods := rfl
      entities := rfl
      fxRates := rfl }
  have hunit : ∀ l ∈ v.layersAt x, 0 ≤ l.unitCost := by
    intro l hl
    obtain ⟨hqty, hamount, hcost, -⟩ := h.book.layer l hl
    rw [hcost]
    exact roundHalfAway_nonneg (by omega) (abs_pos.mpr hqty.ne')
  have hshort (hfits : Issuable i x q v) := h.book.walk_covers hq hfits.covered
  have hrow (hfits : Issuable i x q v) : RowFits (walkCost (v.taken x q)) q b :=
    ⟨fun _ => hfits.cost, by rw [abs_of_pos hq]; exact hfits.qty, hq.ne'⟩
  refine ends_bind (ends_nextval ?_)
  refine postOne_ends (twoPass_fifo hcredit rfl) h.unposted ?_
  refine postNew_ends
    (amountFor_fifo_ends hb ha hr hbval hval hstock rfl hq (hE.imp_right hshort)) ?_
  rintro _ n1 v1 ⟨rfl, hv1, rfl, hshort'⟩
  subst hv1
  show (applyEvent _ 1 (some _) (v1.account? j) (v1.account? i) _ false).Ends _ _ _ _ _
  rw [ha, hb]
  refine applyEvent_ends (applyChecked_ends (hbid.symm ▸ hb) (haid.symm ▸ ha)
    (fun p' _ hcan => ?_) (hE.imp_right fun hfits => ⟨hledger, p, hp, ?_, ?_⟩))
    (.inr ⟨hbopen, haopen⟩)
  · refine afterLine_fifo_ends (v := v1.lined _) (q := q) hsku hs hm (.inr rfl) rfl ?_
      (hE.imp_right fun hfits => ⟨hrate a ha, hrow hfits⟩)
    refine fifoBlock_issue_ends hbnone hx hq
      ⟨⟨?_, ?_, sound_lined h.sound hcan⟩, ?_, ?_, fun _ hroom => ?_, ?_, rfl, rfl⟩
      (hE.imp_right fun hfits => ⟨hshort', hunit, fun t ht => ?_⟩)
    · refine h.succ.book.issue rfl ?_ (hbid.trans_ne hne) haid rfl
      rintro m ⟨⟩
      exact Nat.lt_succ_self n
    · exact (hsame _ _).fifoAccount h.account
    · exact hsame _ _
    · refine map_congr_left fun k hk => congrArg (Prod.mk _) ?_
      exact receiptAmount_lined (h.book.layer k hk).2.1
    · exact hroom.lined hcan.ne (.inr haid) hcan.amount.le
    · refine (h.book.remaining_issue _ _ _ _).trans ?_
      rw [sum_allocation_taken hq.le hshort']
    · exact (costAmount_le_walkCost hunit ht).trans (hfits.sound h ha hne hb hbside).2.2
  · exact fun hclosed => absurd hclosed (by simp [hopen])
  · obtain ⟨hsb, hsa, hmax⟩ := hfits.sound h ha hne hb hbside
    refine ⟨⟨hmax, fun _ hq' => ?_⟩, hfits.pos, fun _ hq' => ?_, ?_, h.unposted,
      period?_isSome hp, ⟨b, hbid.symm ▸ hb, hsb⟩, a, haid.symm ▸ ha, hsa⟩
    · cases hq'
      exact (hrow hfits).le_maxBigint
    · cases hq'
      exact hq.le
    · show b.id ≠ a.id
      rwa [haid, hbid]

end Operation

end Acct.Main
