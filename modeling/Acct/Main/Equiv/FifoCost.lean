import Mathlib.Algebra.BigOperators.Ring.List
import Acct.Main.Equiv.FifoStock

/-!
# Issues that take their cost along

A layer keeps `amount / qty` at four decimals, and every allocation of it is rounded to whole cents,
so how much of a receipt's amount has left once its layer is used up depends on how it was issued,
unless the receipt's quantity divides its amount (`fifo_issues_exact_iff`).
-/

namespace Acct.Main

open Isolation Prog Rounding List

variable {n n' j i : ℕ} {v v' : Db} {x : Place} {c q : ℤ} {r : Reason} {date : Date} {l : CostLayer}

/-! ### Exact unit costs -/

/-- Every receipt's quantity divides its amount. -/
def Db.Exact (db : Db) (x : Place) : Prop := ∀ r ∈ db.receiptsAt x, r.1 ∣ r.2

section

variable (h : FifoBook i x n v)
include h

lemma FifoBook.exact_cost (hex : v.Exact x) (hl : l ∈ v.layersAt x) :
    ∃ c, 0 < c ∧ v.receiptAmount l = c * l.originalQuantity ∧
      ∀ q, roundCost q l.unitCost = q * c := by
  obtain ⟨hqty, hamount, hcost, -⟩ := h.layer l hl
  obtain ⟨c, hc⟩ : l.originalQuantity ∣ v.receiptAmount l := hex _ (List.mem_map_of_mem hl)
  have hunit : l.unitCost = c * 10000 := by
    rw [hcost, hc, unitCostOf, abs_of_pos hqty]
    have hcomm : l.originalQuantity * c * 10000 = c * 10000 * l.originalQuantity := by ring
    rw [hcomm, roundHalfAway_mul_self _ hqty]
  refine ⟨c, ?_, hc.trans (mul_comm _ _), fun q => ?_⟩
  · rw [hc] at hamount
    exact (mul_pos_iff_of_pos_left hqty).mp hamount
  · rw [roundCost, hunit, ← mul_assoc]
    exact roundHalfAway_mul_self _ (by norm_num)

lemma FifoBook.layerCost_eq (hl : l ∈ v.layersAt x) (hc : ∀ q, roundCost q l.unitCost = q * c) :
    v.layerCost l = (l.originalQuantity - v.layerResidual l) * c := by
  have hcost : (v.depletions.filter (·.layerId == l.id)).map (·.costAmount) =
      (v.depletions.filter (·.layerId == l.id)).map fun d => d.quantity * c := by
    refine map_congr_left fun d hd => ?_
    obtain ⟨hmem, hid⟩ := mem_filter.mp hd
    rw [(h.depletion l hl d hmem (by simpa using hid)).2, hc]
  rw [Db.layerCost, hcost, sum_map_mul_right, Db.layerResidual]
  ring

lemma FifoBook.sum_taken_cost (hl : l ∈ v.layersAt x) (hc : ∀ q, roundCost q l.unitCost = q * c) :
    (((v.taken x q).filter (·.id = l.id)).map (·.costAmount)).sum =
      (((v.taken x q).filter (·.id = l.id)).map (·.allocation)).sum * c := by
  rw [← sum_map_mul_right]
  refine congrArg List.sum (map_congr_left fun t ht => ?_)
  obtain ⟨hmem, hid⟩ := mem_filter.mp ht
  obtain ⟨l', hl', hid', -, -, -, hcost⟩ := mem_taken hmem
  have heq : l' = l :=
    inj_on_of_nodup_map h.ids_nodup hl' hl (hid'.symm.trans (by simpa using hid))
  rw [hcost, heq, hc]

lemma FifoBook.settled (hex : v.Exact x) : v.Settled x := by
  intro l hl hres
  obtain ⟨c, -, hamount, hc⟩ := h.exact_cost hex hl
  rw [h.layerCost_eq hl hc, hres, hamount]
  ring

lemma FifoBook.walkCost_pos (hex : v.Exact x) (hq : 0 < q) (hle : q ≤ v.remaining x) :
    0 < walkCost (v.taken x q) := by
  have hsum := sum_allocation_taken hq.le (h.walk_covers hq hle)
  have hcost : ((v.taken x q).map (·.allocation)).sum ≤ walkCost (v.taken x q) := by
    refine sum_le_sum fun t ht => ?_
    obtain ⟨l, hl, -, -, hpos, -, hamount⟩ := mem_taken ht
    obtain ⟨c, hcpos, -, hc⟩ := h.exact_cost hex hl
    rw [hamount, hc]
    exact le_mul_of_one_le_right hpos.le hcpos
  omega

lemma FifoBook.cost_le (hex : v.Exact x) (q : ℤ) :
    ((v.layersAt x).map v.layerCost).sum + walkCost (v.taken x q) ≤
      ((v.layersAt x).map v.receiptAmount).sum := by
  rw [walkCost, ← sum_taken_layers h.ids_nodup, ← sum_map_add]
  refine sum_le_sum fun l hl => ?_
  obtain ⟨c, hcpos, hamount, hc⟩ := h.exact_cost hex hl
  have htaken := sum_taken_le (q := q) h.ids_nodup hl (h.layer l hl).2.2.2
  calc v.layerCost l + (((v.taken x q).filter (·.id = l.id)).map (·.costAmount)).sum
      = (l.originalQuantity - v.layerResidual l) * c +
          (((v.taken x q).filter (·.id = l.id)).map (·.allocation)).sum * c := by
        rw [h.layerCost_eq hl hc, h.sum_taken_cost hl hc]
    _ ≤ (l.originalQuantity - v.layerResidual l) * c + v.layerResidual l * c := by
        gcongr
    _ = v.receiptAmount l := by
        rw [hamount]
        ring

end

/-! ### Histories -/

/-- There is enough for the operation. -/
def StockOp.Covered (db : Db) (x : Place) : StockOp → Prop
  | .receive .. => True
  | .issue _ _ qty _ => qty ≤ db.remaining x

/-- Every operation is accepted that there is enough for, and layers that are used up have passed
on their cost, all along the history. -/
def Accepted (i : ℕ) (x : Place) : ℕ × Db → List StockOp → Prop
  | s, [] => s.2.Settled x
  | s, op :: ops => s.2.Settled x ∧
    (op.Covered s.2 x → ∃ s', commit? (op.post i) s = some s' ∧ Accepted i x s' ops)

/-- Receipts of `rs` in all stay within the ranges of the columns. -/
structure InRange (db : Db) (i : ℕ) (rs : List (ℤ × ℤ)) : Prop where
  pos : ∀ r ∈ rs, 0 < r.1 ∧ 0 < r.2
  qty : (rs.map Prod.fst).sum < 10 ^ 13
  amount : (rs.map Prod.snd).sum < 10 ^ 15
  room : db.Room i (rs.map Prod.snd).sum

lemma InRange.sum_nonneg {rs : List (ℤ × ℤ)} (h : InRange v i rs) (rs') (hsub : rs' ⊆ rs) :
    0 ≤ (rs'.map Prod.fst).sum ∧ 0 ≤ (rs'.map Prod.snd).sum := by
  refine ⟨List.sum_nonneg fun y hy => ?_, List.sum_nonneg fun y hy => ?_⟩
  · obtain ⟨r, hr, rfl⟩ := List.mem_map.mp hy
    exact (h.pos r (hsub hr)).1.le
  · obtain ⟨r, hr, rfl⟩ := List.mem_map.mp hy
    exact (h.pos r (hsub hr)).2.le

lemma unitCostOf_lt {amount : ℤ} (hamount : 0 ≤ amount) (hlt : amount < 10 ^ 15) (hq : 0 < q) :
    unitCostOf amount q < 10 ^ 19 := by
  refine (roundHalfAway_le_self (by omega) (abs_pos.mpr hq.ne')).trans_lt ?_
  omega

lemma FifoBook.remaining_le (h : FifoBook i x n v) :
    v.remaining x ≤ ((v.receiptsAt x).map Prod.fst).sum := by
  rw [Db.receiptsAt, List.map_map]
  refine sum_le_sum fun l hl => ?_
  have hnonneg : 0 ≤ ((v.depletions.filter (·.layerId == l.id)).map (·.quantity)).sum := by
    refine List.sum_nonneg fun y hy => ?_
    obtain ⟨d, hd, rfl⟩ := List.mem_map.mp hy
    obtain ⟨hmem, hid⟩ := mem_filter.mp hd
    exact (h.depletion l hl d hmem (by simpa using hid)).1.le
  exact sub_le_self _ hnonneg

lemma FifoShop.walkCost_le (h : FifoShop i x n v) (hex : v.Exact x) (q : ℤ) :
    walkCost (v.taken x q) ≤ ((v.layersAt x).map v.receiptAmount).sum := by
  obtain ⟨a, ha, -, hcredits⟩ := h.book.account
  have hnonneg := (h.sound i a ha).2.2.1
  have hle := h.book.cost_le hex q
  omega

lemma accepted_of_exact {ops : List StockOp} {rs : List (ℤ × ℤ)} (h : FifoShop i x n v)
    (hops : ∀ op ∈ ops, op.Valid v i) (hrs : v.receiptsAt x ++ ops.filterMap StockOp.receipt? = rs)
    (hin : InRange v i rs) (hdvd : ∀ r ∈ rs, r.1 ∣ r.2) : Accepted i x (n, v) ops := by
  have hmax : (rs.map Prod.snd).sum ≤ maxBigint := hin.amount.le.trans (by decide)
  induction ops generalizing n v with
  | nil => exact h.book.settled fun r hr => hdvd r (by simpa [← hrs] using hr)
  | cons op ops ih =>
    have hex : v.Exact x := fun r hr => hdvd r (hrs ▸ mem_append_left _ hr)
    have hreceived : ((v.receiptsAt x).map Prod.snd).sum =
        ((v.layersAt x).map v.receiptAmount).sum := by
      rw [Db.receiptsAt, List.map_map]
      rfl
    refine ⟨h.book.settled hex, fun hcovered => ?_⟩
    have hop := hops op mem_cons_self
    cases op with
    | receive supplier reason qty amount date =>
      have hsplit : rs = v.receiptsAt x ++ (qty, amount) :: ops.filterMap StockOp.receipt? :=
        hrs.symm
      obtain ⟨hpast, hpast'⟩ := hin.sum_nonneg (v.receiptsAt x) (by simp [hsplit])
      obtain ⟨hfuture, hfuture'⟩ := hin.sum_nonneg (ops.filterMap StockOp.receipt?)
        fun r hr => by simp [hsplit, hr]
      have hqty : qty < 10 ^ 13 := by
        have hall := hin.qty
        simp only [hsplit, map_append, map_cons, sum_append, sum_cons] at hall
        omega
      have htotal : ((v.layersAt x).map v.receiptAmount).sum + amount ≤
          (rs.map Prod.snd).sum := by
        simp only [hsplit, map_append, map_cons, sum_append, sum_cons]
        omega
      have hamount := hin.amount
      have hfits : Receivable i x qty amount v :=
        ⟨hqty, unitCostOf_lt hop.2.1.le (by omega) hop.1, _, hmax, hin.room, htotal⟩
      obtain ⟨s', hs', hshop, hsame, hreceipts, hroom⟩ := exists_commit? (s := (n, v))
        (Q := fun s' => FifoShop i x s'.1 s'.2 ∧ SameShop v s'.2 ∧
          s'.2.receiptsAt x = v.receiptsAt x ++ [(qty, amount)] ∧
          ∀ total, v.Room i total → s'.2.Room i total)
        ((receive_ends h hop (.inr hfits)).mono fun _ _ _ hs =>
          ⟨hs.1, hs.2.1, hs.2.2.1, hs.2.2.2.1⟩)
      refine ⟨s', hs', ih hshop (fun op' hop' => hsame.valid (hops op' (mem_cons_of_mem _ hop')))
        ?_ { hin with room := hroom _ hin.room }⟩
      rw [hreceipts, append_assoc]
      exact hrs
    | issue customer reason qty date =>
      have hrs' : v.receiptsAt x ++ ops.filterMap StockOp.receipt? = rs := hrs
      obtain ⟨hfuture, hfuture'⟩ := hin.sum_nonneg (ops.filterMap StockOp.receipt?)
        fun r hr => by simp [← hrs', hr]
      have hqty := hin.qty
      have hamount := hin.amount
      have hremaining := h.book.remaining_le
      have hwalk := h.walkCost_le hex qty
      have hpos := h.book.walkCost_pos hex hop.1 hcovered
      have htotal : ((v.layersAt x).map v.receiptAmount).sum ≤ (rs.map Prod.snd).sum := by
        rw [← hrs', map_append, sum_append]
        omega
      have hle : qty ≤ v.remaining x := hcovered
      have hunit : unitCostOf (walkCost (v.taken x qty)) qty < 10 ^ 19 :=
        unitCostOf_lt hpos.le (by omega) hop.1
      rw [← hrs', map_append, sum_append] at hqty
      have hfits : Issuable i x qty v := ⟨by omega, hunit, ⟨_, hmax, hin.room, htotal⟩, hcovered,
        hpos, h.book.cost_le hex qty⟩
      obtain ⟨s', hs', hshop, hsame, hreceipts, hroom⟩ := exists_commit? (s := (n, v))
        (Q := fun s' => FifoShop i x s'.1 s'.2 ∧ SameShop v s'.2 ∧
          s'.2.receiptsAt x = v.receiptsAt x ∧ ∀ total, v.Room i total → s'.2.Room i total)
        ((issue_ends h hop (.inr hfits)).mono fun _ _ _ hs =>
          ⟨hs.1, hs.2.1, hs.2.2.1, hs.2.2.2.1⟩)
      exact ⟨s', hs', ih hshop (fun op' hop' => hsame.valid (hops op' (mem_cons_of_mem _ hop')))
        (hreceipts ▸ hrs') { hin with room := hroom _ hin.room }⟩

/-! ### Unit issues -/

def Db.Untouched (db : Db) (x : Place) : Prop :=
  ∀ l ∈ db.layersAt x, ∀ d ∈ db.depletions, d.layerId ≠ l.id

def Db.ByUnits (db : Db) (x : Place) : Prop :=
  ∀ l ∈ db.layersAt x, ∀ d ∈ db.depletions, d.layerId = l.id → d.quantity = 1

lemma Db.Untouched.layerResidual (h : v.Untouched x) (hl : l ∈ v.layersAt x) :
    v.layerResidual l = l.originalQuantity := by
  have hnil : v.depletions.filter (·.layerId == l.id) = [] := by
    refine filter_eq_nil_iff.mpr fun d hd => ?_
    simpa using h l hl d hd
  rw [Db.layerResidual, hnil]
  simp

lemma Db.Untouched.remaining (h : v.Untouched x) :
    v.remaining x = ((v.receiptsAt x).map Prod.fst).sum := by
  rw [Db.remaining, Db.receiptsAt, List.map_map]
  exact congrArg List.sum (map_congr_left fun l hl => h.layerResidual hl)

lemma receives_reached {rs : List (ℤ × ℤ)} {tail : List StockOp} (h : FifoShop i x n v)
    (hu : v.Untouched x) (hops : ∀ p ∈ rs, (StockOp.receive j r p.1 p.2 date).Valid v i)
    (hacc : Accepted i x (n, v) (rs.map (fun p => .receive j r p.1 p.2 date) ++ tail)) :
    ∃ n' v', FifoShop i x n' v' ∧ SameShop v v' ∧ v'.Untouched x ∧
      v'.receiptsAt x = v.receiptsAt x ++ rs ∧ Accepted i x (n', v') tail := by
  induction rs generalizing n v with
  | nil =>
    exact ⟨n, v, h, ⟨.refl v, rfl, rfl, rfl⟩, hu, (append_nil _).symm, hacc⟩
  | cons p rs ih =>
    have hop := hops p mem_cons_self
    obtain ⟨s', hs', hacc'⟩ := hacc.2 trivial
    obtain ⟨hshop, hsame, hreceipts, hdep, k, hlayers, hk⟩ := post_of_commit?
      (Q := fun s' => FifoShop i x s'.1 s'.2 ∧ SameShop v s'.2 ∧
        s'.2.receiptsAt x = v.receiptsAt x ++ [(p.1, p.2)] ∧ s'.2.depletions = v.depletions ∧
        ∃ k, s'.2.layersAt x = v.layersAt x ++ [k] ∧ n ≤ k.id) hs'
      (Ends.mono (receive_ends h hop) fun _ _ _ hs => ⟨hs.1, hs.2.1, hs.2.2.1, hs.2.2.2.2⟩)
    have hu' : s'.2.Untouched x := by
      intro l hl d hd
      rw [hdep] at hd
      rw [hlayers] at hl
      rcases mem_append.mp hl with hl | hl
      · exact hu l hl d hd
      · rw [mem_singleton.mp hl]
        exact ((h.book.depletion_layer_lt d hd).trans_le hk).ne
    obtain ⟨n', v', hshop', hsame', hu'', hreceipts', hacc''⟩ := ih hshop hu'
      (fun p' hp' => hsame.valid (hops p' (mem_cons_of_mem p hp'))) hacc'
    refine ⟨n', v', hshop', hsame.trans hsame', hu'', ?_, hacc''⟩
    rw [hreceipts', hreceipts, append_assoc]
    rfl

lemma allocation_taken_one {t : Taken} (h : (walkLoop (v.layerCandidates x.1 x.2) 1).2 ≤ 0)
    (ht : t ∈ v.taken x 1) : t.allocation = 1 := by
  have hsum := sum_allocation_taken zero_le_one h
  have hpos : ∀ t ∈ v.taken x 1, 0 < t.allocation := by
    intro t ht
    obtain ⟨l, -, -, -, hpos, -⟩ := mem_taken ht
    exact hpos
  have hle : t.allocation ≤ ((v.taken x 1).map (·.allocation)).sum := by
    refine single_le_sum (fun y hy => ?_) _ (List.mem_map_of_mem ht)
    obtain ⟨t', ht', rfl⟩ := List.mem_map.mp hy
    exact (hpos t' ht').le
  have hone := hpos t ht
  omega

lemma issues_reached {N : ℕ} (h : FifoShop i x n v) (hu : v.ByUnits x) (hN : v.remaining x = N)
    (hop : (StockOp.issue j r 1 date).Valid v i)
    (hacc : Accepted i x (n, v) (List.replicate N (.issue j r 1 date))) :
    ∃ n' v', FifoShop i x n' v' ∧ v'.ByUnits x ∧ v'.receiptsAt x = v.receiptsAt x ∧
      v'.remaining x = 0 ∧ v'.Settled x := by
  induction N generalizing n v with
  | zero => exact ⟨n, v, h, hu, rfl, hN, hacc⟩
  | succ N ih =>
    have hle : 1 ≤ v.remaining x := by omega
    obtain ⟨s', hs', hacc'⟩ := hacc.2 hle
    obtain ⟨hshop, hsame, hreceipts, hrem, hlayers, hdep⟩ := post_of_commit?
      (Q := fun s' => FifoShop i x s'.1 s'.2 ∧ SameShop v s'.2 ∧
        s'.2.receiptsAt x = v.receiptsAt x ∧ s'.2.remaining x = v.remaining x - 1 ∧
        s'.2.layersAt x = v.layersAt x ∧
        s'.2.depletions = v.depletions ++ depletionsOf (n + 1) date (v.taken x 1)) hs'
      (Ends.mono (issue_ends h hop) fun _ _ _ hs => ⟨hs.1, hs.2.1, hs.2.2.1, hs.2.2.2.2⟩)
    have hu' : s'.2.ByUnits x := by
      intro l hl d hd hid
      rw [hdep] at hd
      rw [hlayers] at hl
      rcases mem_append.mp hd with hd | hd
      · exact hu l hl d hd hid
      · obtain ⟨t, ht, rfl⟩ := List.mem_map.mp hd
        exact allocation_taken_one (h.book.walk_covers one_pos hle) ht
    obtain ⟨n', v', hshop', hu'', hreceipts', hzero, hsettled⟩ :=
      ih hshop hu' (by omega) (hsame.valid hop) hacc'
    exact ⟨n', v', hshop', hu'', hreceipts'.trans hreceipts, hzero, hsettled⟩

/-- A layer that was used up by units, and passed on its cost, had a whole unit cost. -/
lemma FifoBook.dvd_of_settled (h : FifoBook i x n v) (hu : v.ByUnits x)
    (hzero : v.remaining x = 0) (hsettled : v.Settled x) : v.Exact x := by
  rintro r hr
  obtain ⟨l, hl, rfl⟩ := List.mem_map.mp hr
  have hres : v.layerResidual l = 0 := by
    refine all_zero_of_le_zero_le_of_sum_eq_zero (fun y hy => ?_) hzero
      (List.mem_map_of_mem hl)
    obtain ⟨k, hk, rfl⟩ := List.mem_map.mp hy
    exact (h.layer k hk).2.2.2
  -- Each depletion is one unit, and all of them cost the same.
  have hcost : v.layerCost l = l.originalQuantity * roundCost 1 l.unitCost := by
    have hmap : (v.depletions.filter (·.layerId == l.id)).map (·.costAmount) =
        (v.depletions.filter (·.layerId == l.id)).map
          fun d => d.quantity * roundCost 1 l.unitCost := by
      refine map_congr_left fun d hd => ?_
      obtain ⟨hmem, hid⟩ := mem_filter.mp hd
      have hone := hu l hl d hmem (by simpa using hid)
      rw [(h.depletion l hl d hmem (by simpa using hid)).2, hone, one_mul]
    have hqty : ((v.depletions.filter (·.layerId == l.id)).map (·.quantity)).sum =
        l.originalQuantity := by
      rw [Db.layerResidual] at hres
      omega
    rw [Db.layerCost, hmap, sum_map_mul_right, hqty]
  exact ⟨_, (hsettled l hl hres).symm.trans hcost⟩

/-- Every way to issue the stock is accepted, and takes its cost along, iff each receipt's quantity
divides its amount. All receipts together are less than `10 ^ 13` units and `10 ^ 15` cents, and no
account's totals would leave their range with that amount. -/
theorem fifo_issues_exact_iff {rs : List (ℤ × ℤ)} (h : FifoShop i x n v)
    (hnone : v.layersAt x = []) (hsupplier : ∃ j date, v.Supplies i j ∧ v.Postable j date)
    (hcustomer : ∃ j date, v.Takes i j ∧ v.Postable i date) (hrs : ∀ r ∈ rs, 0 < r.1 ∧ 0 < r.2)
    (hqty : (rs.map Prod.fst).sum < 10 ^ 13) (hamount : (rs.map Prod.snd).sum < 10 ^ 15)
    (hroom : ∀ a ∈ v.accounts, a.debitsTotal + (rs.map Prod.snd).sum ≤ maxBigint ∧
      a.creditsTotal + (rs.map Prod.snd).sum ≤ maxBigint) :
    (∀ ops : List StockOp, (∀ op ∈ ops, op.Valid v i) → ops.filterMap StockOp.receipt? = rs →
      Accepted i x (n, v) ops) ↔ ∀ r ∈ rs, r.1 ∣ r.2 := by
  have hreceipts : v.receiptsAt x = [] := by rw [Db.receiptsAt, hnone, map_nil]
  obtain ⟨supplier, date, hsupplier, hdate⟩ := hsupplier
  obtain ⟨customer, date', hcustomer, hdate'⟩ := hcustomer
  constructor
  · intro hall
    -- All receipts, then one unit after the other.
    have hreceive : ∀ p ∈ rs, (StockOp.receive supplier .poReceipt p.1 p.2 date).Valid v i :=
      fun p hp => ⟨(hrs p hp).1, (hrs p hp).2, rfl, hsupplier, hdate⟩
    have hissue : (StockOp.issue customer .soShip 1 date').Valid v i :=
      ⟨one_pos, rfl, hcustomer, hdate'⟩
    have hunique : v.Untouched x := by simp [Db.Untouched, hnone]
    have hacc := hall (rs.map (fun p => .receive supplier .poReceipt p.1 p.2 date) ++
      List.replicate (rs.map Prod.fst).sum.toNat (.issue customer .soShip 1 date')) ?_ ?_
    · obtain ⟨n1, v1, hshop, hsame, hu, hrec, hacc'⟩ := receives_reached h hunique hreceive hacc
      rw [hreceipts, nil_append] at hrec
      have hnonneg : 0 ≤ (rs.map Prod.fst).sum := by
        refine sum_nonneg fun y hy => ?_
        obtain ⟨p, hp, rfl⟩ := List.mem_map.mp hy
        exact (hrs p hp).1.le
      have hrem : v1.remaining x = ((rs.map Prod.fst).sum.toNat : ℕ) := by
        rw [hu.remaining, hrec, Int.toNat_of_nonneg hnonneg]
      obtain ⟨n2, v2, hshop', hunits, hrec', hzero, hsettled⟩ := issues_reached hshop
        (fun l hl d hd hid => absurd hid (hu l hl d hd)) hrem (hsame.valid hissue) hacc'
      have hexact := hshop'.book.dvd_of_settled hunits hzero hsettled
      rw [Db.Exact, hrec', hrec] at hexact
      exact hexact
    · intro op hop
      rcases mem_append.mp hop with hop | hop
      · obtain ⟨p, hp, rfl⟩ := List.mem_map.mp hop
        exact hreceive p hp
      · rw [eq_of_mem_replicate hop]
        exact hissue
    · have hfirst : (rs.map fun p => StockOp.receive supplier .poReceipt p.1 p.2 date).filterMap
          StockOp.receipt? = rs := by
        rw [filterMap_map]
        exact filterMap_some
      have hsecond : ∀ N, (List.replicate N (StockOp.issue customer .soShip 1 date')).filterMap
          StockOp.receipt? = [] := by
        intro N
        simp [StockOp.receipt?]
      rw [filterMap_append, hfirst, hsecond, append_nil]
  · intro hdvd ops hops hrec
    refine accepted_of_exact h hops (by rw [hreceipts, nil_append, hrec])
      ⟨hrs, hqty, hamount, ?_⟩ hdvd
    -- nothing has gone through the account yet
    obtain ⟨a, ha, hdebits, hcredits⟩ := h.book.account
    refine ⟨a, ha, fun j _ b hb => ?_⟩
    rw [hdebits, hcredits, hnone]
    simpa using hroom b (List.mem_of_find?_eq_some hb)

lemma fifoShop_of_opening {db : Db} {a : Account} (n : ℕ) (ha : db.account? i = some a)
    (hzero : a.debitsTotal = 0 ∧ a.creditsTotal = 0) (haccount : db.FifoAccount i x)
    (hsound : ∀ a ∈ db.accounts, a.Sound) (hlines : db.lines = []) (hlayers : db.layers = [])
    (hlots : db.lots = []) (hdep : db.depletions = []) (hev : db.lotEvents = []) :
    FifoShop i x n db where
  book :=
    { fresh := by constructor <;> simp [hlines, hlayers, hlots, hdep, hev]
      key_lt := by simp [hlines]
      depletion_layer_lt := by simp [hdep]
      account := ⟨a, ha, by simp [Db.layersAt, hlayers, hzero]⟩
      layer := by simp [Db.layersAt, hlayers]
      depletion := by simp [Db.layersAt, hlayers] }
  account := haccount
  sound j b hb := hsound b (List.mem_of_find?_eq_some hb)

def stockroom : Db where
  skus := [⟨10, .fifo, .none, .fifo⟩]
  periods := [⟨1, 0, 30, false⟩]
  accounts := [
    { id := 1, kind := .invValueRaw, ledger := .value 0, skuId := some 10, locationId := some 5
      normalSide := .debit },
    { id := 2, kind := .apUnsettled, ledger := .value 0, normalSide := .credit },
    { id := 3, kind := .cogs, ledger := .value 0, normalSide := .debit }]

/-- The stockroom after some operations, if all are accepted. -/
def stockroomAfter (ops : List StockOp) : Option (ℕ × Db) :=
  ops.foldlM (fun s op => commit? (op.post 1) s) (100, stockroom)

/-- Three for 1 cent: a unit costs nothing and is not accepted. Two for 1 cent: a unit costs all of
it, and the second is not accepted. Three for 100 cents: unit by unit, 99 have left with them. -/
theorem not_fifo_issues_exact :
    (stockroomAfter [.receive 2 .poReceipt 3 1 1]).isSome ∧
    stockroomAfter [.receive 2 .poReceipt 3 1 1, .issue 3 .soShip 1 2] = none ∧
    (stockroomAfter [.receive 2 .poReceipt 2 1 1, .issue 3 .soShip 1 2]).isSome ∧
    stockroomAfter [.receive 2 .poReceipt 2 1 1, .issue 3 .soShip 1 2, .issue 3 .soShip 1 2] =
      none ∧
    (stockroomAfter [.receive 2 .poReceipt 3 100 1, .issue 3 .soShip 1 2, .issue 3 .soShip 1 2,
      .issue 3 .soShip 1 2]).map (fun s => (s.2.remaining (10, 5),
        (s.2.layersAt (10, 5)).map fun l => (s.2.receiptAmount l, s.2.layerCost l))) =
      some (0, [(100, 99)]) := by
  decide +kernel

theorem fifo_issues_exact_stockroom :
    (∀ ops : List StockOp, (∀ op ∈ ops, op.Valid stockroom 1) →
      ops.filterMap StockOp.receipt? = [(2, 6), (5, 10)] →
      Accepted 1 (10, 5) (100, stockroom) ops) ↔ ∀ r ∈ [((2 : ℤ), (6 : ℤ)), (5, 10)], r.1 ∣ r.2 :=
  fifo_issues_exact_iff
    (fifoShop_of_opening 100 rfl ⟨rfl, rfl⟩ ⟨_, rfl, rfl, rfl, rfl⟩ (by decide) rfl rfl rfl rfl rfl)
    rfl ⟨2, 1, ⟨_, _, rfl, rfl, rfl, rfl, rfl, by decide⟩, ⟨_, rfl, rfl⟩, by decide⟩
    ⟨3, 1, ⟨_, _, rfl, rfl, rfl, rfl, rfl, by decide⟩, ⟨_, rfl, rfl⟩, by decide⟩ (by decide)
    (by decide) (by decide) (by decide)

end Acct.Main
