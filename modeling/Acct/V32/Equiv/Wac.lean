import Acct.V32.Equiv.Book

/-!
# WAC pools

A receipt adds its exact value, a depletion takes its quantity at the rounded average. The rounding
error grows with the quantity taken, so a depletion that leaves stock can take more than the pool is
worth; the average turns negative, and `trx_line` refuses the next depletion (`run_roundedUp`),
unless what a depletion leaves is worth half a unit for each unit it takes (`CoversDepletion`).

A depletion to zero drops what is left of the value without posting it, so the value is the net
posted amount since the pool was last empty (`Site.run_wac_bookValue`).
-/

namespace Acct.V32

open Option List

variable {old : Option Aggregate} {line : TrxLineRequest} {o : Outcome} {ref : Reference}
  {p q c postedAt : ℤ} {row : PoolRow} {accounts : ℤ × ℤ} {a : Aggregate} {b : PoolBook}

/-! ### One line -/

inductive WacEffect (accounts : ℤ × ℤ) (line : TrxLineRequest) : Option Aggregate → Outcome → Prop
  | receipt {old : Option Aggregate} {unitCost : ℤ} (hqty : 0 < line.qty)
      (hcost : 0 ≤ line.unitCost)
      (hnewQty : InI64 ((old.getD ⟨0, 0, 0⟩).qty + line.qty))
      (hvalue : InI64 ((old.getD ⟨0, 0, 0⟩).valueSum + line.qty * line.unitCost))
      (havg : sqlBankerDiv ((old.getD ⟨0, 0, 0⟩).valueSum + line.qty * line.unitCost)
        ((old.getD ⟨0, 0, 0⟩).qty + line.qty) = some unitCost) :
    WacEffect accounts line old ⟨line.unitCost, ⟨(old.getD ⟨0, 0, 0⟩).qty + line.qty, unitCost,
        (old.getD ⟨0, 0, 0⟩).valueSum + line.qty * line.unitCost⟩,
      .unchanged, [receiptLeg accounts (line.qty * line.unitCost)]⟩
  | depletion {a : Aggregate} {unitCost valueSum : ℤ} (hqty : line.qty < 0) (hcost : 0 ≤ a.unitCost)
      (hle : |line.qty| ≤ a.qty)
      (hvalue : valueOrZero (a.valueSum - |line.qty| * a.unitCost) (a.qty - |line.qty|) =
        some valueSum)
      (havg : averageOr a.unitCost (a.valueSum - |line.qty| * a.unitCost) (a.qty - |line.qty|) =
        some unitCost) :
    WacEffect accounts line (some a) ⟨a.unitCost, ⟨a.qty - |line.qty|, unitCost, valueSum⟩,
      .unchanged, [depletionLeg accounts (|line.qty| * a.unitCost)]⟩

lemma wacReceipt_eq_some (hq : InI64 q) (h : wacReceipt old q c = some a) :
    InI64 ((old.getD ⟨0, 0, 0⟩).qty + q) ∧ InI64 ((old.getD ⟨0, 0, 0⟩).valueSum + q * c) ∧
      ∃ unitCost, sqlBankerDiv ((old.getD ⟨0, 0, 0⟩).valueSum + q * c)
          ((old.getD ⟨0, 0, 0⟩).qty + q) = some unitCost ∧
        a = ⟨(old.getD ⟨0, 0, 0⟩).qty + q, unitCost, (old.getD ⟨0, 0, 0⟩).valueSum + q * c⟩ := by
  unfold wacReceipt wacReceiptWith receiptRowWith at h
  simp only [bind_eq_bind, bind_eq_some_iff, toI64?_eq_some] at h
  obtain ⟨proposed, ⟨unitCost, hunit, value, ⟨rfl, hvalue⟩, hproposed⟩, h⟩ := h
  cases hproposed
  cases old with
  | none =>
    cases h
    simp only [getD_none, zero_add]
    exact ⟨hq, hvalue, unitCost, hunit, rfl⟩
  | some b =>
    simp only [bind_eq_some_iff, toI64?_eq_some] at h
    obtain ⟨_, ⟨rfl, hnewQty⟩, _, ⟨rfl, hnewValue⟩, newCost, hnewCost, h⟩ := h
    cases h
    exact ⟨hnewQty, hnewValue, newCost, hnewCost, rfl⟩

lemma wacDeplete_eq_some (h : wacDeplete old q = some (some (a, c))) :
    ∃ b, old = some b ∧ q ≤ b.qty ∧ c = b.unitCost ∧ ∃ valueSum unitCost,
      valueOrZero (b.valueSum - q * b.unitCost) (b.qty - q) = some valueSum ∧
      averageOr b.unitCost (b.valueSum - q * b.unitCost) (b.qty - q) = some unitCost ∧
      a = ⟨b.qty - q, unitCost, valueSum⟩ := by
  unfold wacDeplete wacDepleteWith at h
  cases old with
  | none => cases h
  | some b =>
    simp only [bind_eq_bind, bind_eq_some_iff, toI64?_eq_some] at h
    obtain ⟨_, ⟨rfl, -⟩, h⟩ := h
    split_ifs at h with hgate
    · simp only [bind_eq_some_iff] at h
      obtain ⟨valueSum, hvalue, unitCost, hunit, h⟩ := h
      cases h
      exact ⟨b, rfl, by omega, rfl, valueSum, unitCost, hvalue, hunit, rfl⟩
    · cases h

section Line

variable {layer : Option Aggregate}

theorem wacEffect_of_outcome? (hrow : ref.pool line.poolId = some row) (hwac : row.method = .wac)
    (hqty : line.qty ≠ 0) (hrange : line.InRange)
    (h : ref.outcome? postedAt line old layer = some o) :
    ∃ accounts, ref.postingAccountMap (row.skuId, row.locationId) = some accounts ∧
      WacEffect (accounts.pairFor line.lineType) line old o := by
  obtain ⟨hline, hcost, -⟩ := outcome?_eq_some.mp h
  unfold Reference.lineOutcome? at hline
  simp only [hrow, hwac, bind_eq_bind, bind_some, bind_eq_some_iff] at hline
  obtain ⟨accounts, haccounts, hline⟩ := hline
  refine ⟨accounts, haccounts, ?_⟩
  unfold Reference.cteOutcome? at hline
  by_cases hearly : ref.cteEarly line row old
  · rw [if_pos hearly] at hline
    cases hline
  rw [if_neg hearly] at hline
  simp only [hwac, bind_eq_some_iff, map_eq_some_iff, toI64?_eq_some] at hline
  obtain ⟨⟨aggregate, cost⟩, hwrite, _, ⟨rfl, -⟩, rfl⟩ := hline
  unfold Reference.cteWrite at hwrite
  simp only [hwac] at hwrite
  by_cases hpos : line.qty > 0
  · rw [if_pos hpos] at hwrite ⊢
    obtain ⟨a, ha, heq⟩ := map_eq_some_iff.mp hwrite
    cases heq
    obtain ⟨hnewQty, hvalue, unitCost, havg, rfl⟩ := wacReceipt_eq_some hrange.1 ha
    rw [abs_of_pos hpos]
    exact .receipt hpos hcost hnewQty hvalue havg
  · rw [if_neg hpos] at hwrite ⊢
    obtain ⟨b, rfl, hle, rfl, valueSum, unitCost, hvalue, havg, rfl⟩ :=
      wacDeplete_eq_some (join_eq_some_iff.mp hwrite)
    exact .depletion (by omega) hcost hle hvalue havg

/-- A depletion at a non-negative average that leaves no less than nothing is accepted. -/
lemma exists_outcome?_depletion {accounts : PostingAccounts}
    (hrow : ref.pool line.poolId = some row) (hwac : row.method = .wac)
    (haccounts : ref.postingAccountMap (row.skuId, row.locationId) = some accounts)
    (hqty : line.qty < 0) (hle : |line.qty| ≤ a.qty) (ha : InI64 a.qty) (hcost : 0 ≤ a.unitCost)
    (hvalue : 0 ≤ a.valueSum) (hvalueI64 : InI64 a.valueSum)
    (hamount : |line.qty| * a.unitCost < 2 ^ 63)
    (hperiod : PeriodGuardAdmits ref.periods.rows postedAt) :
    ∃ o, ref.outcome? postedAt line (some a) layer = some o := by
  have hpos : 0 < |line.qty| := abs_pos.mpr hqty.ne
  have hamount0 : 0 ≤ |line.qty| * a.unitCost := mul_nonneg hpos.le hcost
  unfold InI64 at ha hvalueI64
  have hk : InI64 |line.qty| := by unfold InI64; omega
  have hleft : InI64 (a.qty - |line.qty|) := by unfold InI64; omega
  have hrest : InI64 (a.valueSum - |line.qty| * a.unitCost) := by unfold InI64; omega
  obtain ⟨valueSum, hvs⟩ : ∃ v,
      valueOrZero (a.valueSum - |line.qty| * a.unitCost) (a.qty - |line.qty|) = some v := by
    unfold valueOrZero
    split_ifs
    · exact ⟨0, rfl⟩
    · exact ⟨_, toI64?_of_inI64 hrest⟩
  obtain ⟨unitCost, huc⟩ : ∃ u, averageOr a.unitCost (a.valueSum - |line.qty| * a.unitCost)
      (a.qty - |line.qty|) = some u := by
    unfold averageOr averageOrWith
    split_ifs with hgt
    · obtain ⟨u, hu, -⟩ := exists_sqlBankerDiv hrest hgt
      exact ⟨u, hu⟩
    · exact ⟨_, rfl⟩
  have hwrite : ref.cteWrite line row (some a) =
      some (⟨a.qty - |line.qty|, unitCost, valueSum⟩, a.unitCost) := by
    unfold Reference.cteWrite wacDeplete wacDepleteWith
    rw [averageOr] at huc
    simp [hwac, not_lt.mpr hqty.le, toI64?_of_inI64 hleft, hle, hvs, huc]
  have hearly : ref.cteEarly line row (some a) = false := by
    unfold Reference.cteEarly Reference.wacGate
    simp [hwac, not_lt.mpr hqty.le, hk, hleft, hle]
  have hline : ref.lineOutcome? line (some a) layer = some ⟨a.unitCost,
      ⟨a.qty - |line.qty|, unitCost, valueSum⟩, .unchanged,
      [depletionLeg (accounts.pairFor line.lineType) (|line.qty| * a.unitCost)]⟩ := by
    unfold Reference.lineOutcome? Reference.cteOutcome?
    simp [hrow, haccounts, hwac, hearly, hwrite, not_lt.mpr hqty.le,
      toI64?_of_inI64 (show InI64 (|line.qty| * a.unitCost) by unfold InI64; omega)]
  exact ⟨_, outcome?_eq_some.mpr ⟨hline, hcost, hperiod⟩⟩

end Line

/-! ### Value and average -/

/-- A depletion that leaves stock leaves, of the exact average, half a unit for each unit it takes:
`k / 2 ≤ valueSum * (qty - k) / qty`. -/
def CoversDepletion (s : Site) : BookOp → Prop
  | .post _ line => line.qty < 0 → ∀ a ∈ s.book.aggregate, |line.qty| < a.qty →
      |line.qty| * a.qty ≤ 2 * a.valueSum * (a.qty - |line.qty|)
  | .setStandard _ => True

instance (s : Site) : DecidablePred (CoversDepletion s)
  | .post _ line => inferInstanceAs (Decidable (line.qty < 0 → ∀ a ∈ s.book.aggregate,
      |line.qty| < a.qty → |line.qty| * a.qty ≤ 2 * a.valueSum * (a.qty - |line.qty|)))
  | .setStandard _ => isTrue trivial

/-- What holds of the aggregate of a WAC pool whose depletions are covered. `near` says how far the
value can be from the quantity at the average, `near_small` the same for averages of usual size. -/
structure WacSound (a : Aggregate) : Prop where
  qty_nonneg : 0 ≤ a.qty
  qty_inI64 : InI64 a.qty
  unitCost_nonneg : 0 ≤ a.unitCost
  valueSum_nonneg : 0 ≤ a.valueSum
  valueSum_inI64 : InI64 a.valueSum
  near : 2 * |a.valueSum - a.qty * a.unitCost| ≤ 3 * a.qty
  near_small : a.unitCost ≤ 10 ^ 16 → 2 * |a.valueSum - a.qty * a.unitCost| ≤ a.qty

/-- The rounded average of `k` units is covered where the exact one, and half a unit each, is. -/
lemma WacSound.covers (h : WacSound a) {k : ℤ} (hk : 0 < k) (hlt : k < a.qty)
    (hcond : k * a.qty ≤ 2 * a.valueSum * (a.qty - k)) : k * a.unitCost ≤ a.valueSum := by
  have hq : 0 < a.qty := hk.trans hlt
  -- with `e` the error of the average, twice and in units
  have hscaled : ∀ e, 2 * |a.valueSum - a.qty * a.unitCost| ≤ e * a.qty →
      e * (k * a.qty) ≤ 2 * a.valueSum * (a.qty - k) → k * a.unitCost ≤ a.valueSum := by
    intro e hnear hleft
    have habs := neg_abs_le (a.valueSum - a.qty * a.unitCost)
    have hupper : 2 * (a.qty * a.unitCost) ≤ 2 * a.valueSum + e * a.qty := by linarith
    have hmul := mul_le_mul_of_nonneg_left hupper hk.le
    refine le_of_mul_le_mul_left (a := 2 * a.qty) ?_ (by omega)
    calc 2 * a.qty * (k * a.unitCost) = k * (2 * (a.qty * a.unitCost)) := by ring
      _ ≤ k * (2 * a.valueSum + e * a.qty) := hmul
      _ = 2 * a.valueSum * k + e * (k * a.qty) := by ring
      _ ≤ 2 * a.valueSum * k + 2 * a.valueSum * (a.qty - k) := by linarith
      _ = 2 * a.qty * a.valueSum := by ring
  rcases le_or_gt a.unitCost (10 ^ 16) with hsmall | hlarge
  · exact hscaled 1 (by linarith [h.near_small hsmall]) (by linarith)
  · -- the value being a `bigint`, there are few units at so large an average
    refine hscaled 3 h.near ?_
    have habs := neg_abs_le (a.valueSum - a.qty * a.unitCost)
    have hworth : a.qty * (10 ^ 16) ≤ a.qty * a.unitCost :=
      mul_le_mul_of_nonneg_left hlarge.le hq.le
    have hvalue : a.qty * (10 ^ 16 - 2) ≤ a.valueSum := by linarith [h.near]
    have hfew : a.qty < 10 ^ 3 := by
      have := h.valueSum_inI64.2
      omega
    have hleft : a.valueSum * 1 ≤ a.valueSum * (a.qty - k) :=
      mul_le_mul_of_nonneg_left (by omega) h.valueSum_nonneg
    have hright : k * a.qty ≤ 10 ^ 3 * a.qty := mul_le_mul_of_nonneg_right (by omega) hq.le
    linarith

lemma WacEffect.sound (h : WacEffect accounts line old o) (hold : ∀ a ∈ old, WacSound a)
    (hcovers : line.qty < 0 → ∀ a ∈ old, |line.qty| < a.qty →
      |line.qty| * a.qty ≤ 2 * a.valueSum * (a.qty - |line.qty|)) : WacSound o.aggregate := by
  cases h with
  | receipt hqty hcost hnewQty hvalue havg =>
    have hold' : 0 ≤ (old.getD ⟨0, 0, 0⟩).qty ∧ 0 ≤ (old.getD ⟨0, 0, 0⟩).valueSum := by
      cases old with
      | none => exact ⟨le_rfl, le_rfl⟩
      | some a => exact ⟨(hold a rfl).qty_nonneg, (hold a rfl).valueSum_nonneg⟩
    have hvalue0 : 0 ≤ (old.getD ⟨0, 0, 0⟩).valueSum + line.qty * line.unitCost :=
      add_nonneg hold'.2 (mul_nonneg hqty.le hcost)
    obtain ⟨u, hu, hu0⟩ := exists_sqlBankerDiv hvalue
      (show 0 < (old.getD ⟨0, 0, 0⟩).qty + line.qty by omega)
    obtain rfl := some.inj (hu.symm.trans havg)
    obtain ⟨hnear, hsmall⟩ := sqlBankerDiv_near hvalue0 (by omega) havg
    exact ⟨by dsimp only; omega, hnewQty, hu0 hvalue0, hvalue0, hvalue, hnear, hsmall⟩
  | @depletion a unitCost valueSum hqty hcost hle hvalue havg =>
    have ha := hold a rfl
    have hI := ha.qty_inI64
    have hpos : 0 < |line.qty| := abs_pos.mpr hqty.ne
    have hleft : InI64 (a.qty - |line.qty|) := by unfold InI64 at hI ⊢; omega
    by_cases hzero : a.qty - |line.qty| = 0
    · -- an emptied pool has no value and keeps its average
      rw [valueOrZero, if_pos hzero] at hvalue
      rw [averageOr, averageOrWith, if_neg (by omega)] at havg
      cases hvalue
      cases havg
      refine ⟨hzero.ge, hleft, hcost, le_rfl, show InI64 0 by decide, ?_, fun _ => ?_⟩ <;>
        simp [hzero]
    · rw [valueOrZero, if_neg hzero, toI64?_eq_some] at hvalue
      rw [averageOr, averageOrWith, if_pos (by omega)] at havg
      obtain ⟨rfl, hvalueI64⟩ := hvalue
      have hcov := ha.covers hpos (by omega) (hcovers hqty a rfl (by omega))
      obtain ⟨u, hu, hu0⟩ := exists_sqlBankerDiv hvalueI64
        (show 0 < a.qty - |line.qty| by omega)
      obtain rfl := some.inj (hu.symm.trans havg)
      obtain ⟨hnear, hsmall⟩ := sqlBankerDiv_near (by omega) (by omega) havg
      exact ⟨by dsimp only; omega, hleft, hu0 (by omega), by dsimp only; omega, hvalueI64, hnear,
        hsmall⟩

namespace Site

def WacInv (ref : Reference) (row : PoolRow) (s : Site) : Prop :=
  SameConfig ref s ∧ ∀ a ∈ s.book.aggregate, WacSound a ∧
    (ref.postingAccountMap (row.skuId, row.locationId)).isSome

lemma WacInv.exec {s s' : Site} {op : BookOp} (hrow : ref.pool p = some row)
    (hwac : row.method = .wac) (hs : WacInv ref row s) (hcovers : CoversDepletion s op)
    (h : exec? p s op = some s') : WacInv ref row s' := by
  refine ⟨hs.1.exec h, ?_⟩
  rcases exec?_cases h with
    ⟨postedAt, line, o, rfl, ⟨rfl, hqty, hrange⟩, ho, rfl⟩ | ⟨_, -, -, -, rfl⟩
  · obtain ⟨accounts, haccounts, heffect⟩ :=
      wacEffect_of_outcome? (hs.1.pool ▸ hrow) hwac hqty hrange ho
    rw [hs.1.accounts] at haccounts
    rintro _ ⟨⟩
    exact ⟨heffect.sound (fun a ha => (hs.2 a ha).1) hcovers, by rw [haccounts]; rfl⟩
  · exact hs.2

/-- **Value and average stay non-negative and the stock can be issued**, in every run of a WAC pool
in which what a depletion leaves is worth half a unit for each unit it takes. The value is within
half a unit a piece of the quantity at the average (within one and a half, above `10 ^ 16`). A
depletion of stock on hand is refused only if its amount is not a `bigint`. -/
theorem run_wac_issuable (hrow : ref.pool p = some row) (hwac : row.method = .wac)
    (ops : List BookOp) (h : Machine.Throughout (exec? p) CoversDepletion { ref } ops) :
    ∀ a ∈ (run p ref ops).book.aggregate, 0 ≤ a.unitCost ∧ 0 ≤ a.valueSum ∧
      2 * |a.valueSum - a.qty * a.unitCost| ≤ 3 * a.qty ∧
      (a.unitCost ≤ 10 ^ 16 → 2 * |a.valueSum - a.qty * a.unitCost| ≤ a.qty) ∧
      ∀ postedAt line, line.poolId = p → line.qty < 0 → |line.qty| ≤ a.qty → line.InRange →
        PeriodGuardAdmits ref.periods.rows postedAt → |line.qty| * a.unitCost < 2 ^ 63 →
        ∃ s', exec? p (run p ref ops) (.post postedAt line) = some s' := by
  have hinv : WacInv ref row (run p ref ops) := by
    refine Machine.run_invariant_of_throughout (fun s op s' hex hcovers hs => ?_)
      ⟨⟨rfl, rfl, rfl⟩, by simp⟩ ops h
    exact hs.exec hrow hwac hcovers hex
  intro a ha
  obtain ⟨hsound, haccounts⟩ := hinv.2 a ha
  obtain ⟨accounts, haccounts⟩ := isSome_iff_exists.mp haccounts
  refine ⟨hsound.unitCost_nonneg, hsound.valueSum_nonneg, hsound.near, hsound.near_small, ?_⟩
  rintro postedAt line rfl hqty hle hrange hperiod hamount
  obtain ⟨o, ho⟩ : ∃ o, (run line.poolId ref ops).ref.outcome? postedAt line (some a)
      (run line.poolId ref ops).book.lowest? = some o :=
    exists_outcome?_depletion (hinv.1.pool ▸ hrow) hwac (hinv.1.accounts ▸ haccounts) hqty hle
      hsound.qty_inI64 hsound.unitCost_nonneg hsound.valueSum_nonneg hsound.valueSum_inI64 hamount
      (hinv.1.periods ▸ hperiod)
  rw [← show _ = some a from ha] at ho
  exact ⟨_, exec?_post.mpr ⟨⟨rfl, hqty.ne, hrange⟩, o, ho, rfl⟩⟩

end Site

/-! ### Value and journal -/

/-- `lastEmpty`, on the lines in reverse. -/
def lastEmptyRev : List BookLine → ℕ
  | [] => 0
  | l :: ls => if onHand (l :: ls) = 0 then ls.length + 1 else lastEmptyRev ls

def lastEmpty (lines : List BookLine) : ℕ := lastEmptyRev lines.reverse

lemma lastEmpty_append_singleton (lines : List BookLine) (l : BookLine) :
    lastEmpty (lines ++ [l]) =
      if onHand lines + l.qty = 0 then lines.length + 1 else lastEmpty lines := by
  have hsum : onHand (l :: lines.reverse) = onHand lines + l.qty := by
    simp [onHand, add_comm]
  simp [lastEmpty, lastEmptyRev, hsum]

lemma lastEmpty_le (lines : List BookLine) : lastEmpty lines ≤ lines.length := by
  induction lines using reverseRecOn with
  | nil => exact le_rfl
  | append_singleton lines l ih =>
    rw [lastEmpty_append_singleton, length_append, length_singleton]
    split_ifs <;> omega

lemma lastEmpty_of_onHand_eq_zero {lines : List BookLine} (h : onHand lines = 0) :
    lastEmpty lines = lines.length := by
  induction lines using reverseRecOn with
  | nil => rfl
  | append_singleton lines l _ =>
    rw [onHand_append_singleton] at h
    simp [lastEmpty_append_singleton, h]

/-- The journal rows of the lines since the pool was last empty. -/
def PoolBook.postedSinceEmpty (b : PoolBook) : List PostingLineRequest :=
  b.postings.filter (lastEmpty b.lines ≤ ·.trxLineIdx)

structure WacBook (b : PoolBook) : Prop where
  places : b.Placed
  empty : b.aggregate = none → b.lines = []
  qty_nonneg : ∀ a ∈ b.aggregate, 0 ≤ a.qty
  qty : ∀ a ∈ b.aggregate, a.qty = onHand b.lines
  value : ∀ a ∈ b.aggregate, a.valueSum = netPosted b.postedSinceEmpty

lemma WacBook.filter_eq_nil (h : WacBook b) {n : ℕ} (hn : b.lines.length ≤ n) :
    b.postings.filter (n ≤ ·.trxLineIdx) = [] := by
  rw [filter_eq_nil_iff]
  intro r hr
  have := h.places r hr
  simp only [decide_eq_true_eq]
  omega

lemma WacBook.onHand_eq (h : WacBook b) :
    onHand b.lines = (b.aggregate.getD ⟨0, 0, 0⟩).qty := by
  cases ha : b.aggregate with
  | none => simp [h.empty ha]
  | some a => exact (h.qty a ha).symm

lemma WacBook.netPosted_eq (h : WacBook b) :
    netPosted b.postedSinceEmpty = (b.aggregate.getD ⟨0, 0, 0⟩).valueSum := by
  cases ha : b.aggregate with
  | none =>
    have hnil : b.postings = [] := by
      rw [eq_nil_iff_forall_not_mem]
      intro r hr
      have := h.places r hr
      simp [h.empty ha] at this
    simp [PoolBook.postedSinceEmpty, hnil]
  | some a => exact (h.value a ha).symm

lemma WacBook.netPosted_record (h : WacBook b) (hlayers : o.layers = .unchanged) {leg : Leg}
    (hlegs : o.legs = [leg]) :
    netPosted (b.record line postedAt o).postedSinceEmpty =
      if onHand b.lines + line.qty = 0 then 0
      else netPosted b.postedSinceEmpty +
        (leg.request b.lines.length postedAt).inventoryAmount := by
  have hlines : (b.record line postedAt o).lines = b.lines ++ [b.row line postedAt o] := by
    simp [PoolBook.record, hlayers]
  have hpostings : (b.record line postedAt o).postings =
      b.postings ++ [leg.request b.lines.length postedAt] := by
    simp [PoolBook.record, hlegs]
  unfold PoolBook.postedSinceEmpty
  rw [hlines, hpostings, lastEmpty_append_singleton, filter_append, netPosted_append]
  have hidx : (leg.request b.lines.length postedAt).trxLineIdx = b.lines.length := rfl
  have hrow : (b.row line postedAt o).qty = line.qty := rfl
  rw [hrow]
  split_ifs with hzero
  · -- every row is of the line that emptied the pool or of an earlier one
    rw [h.filter_eq_nil (by omega), filter_singleton, hidx]
    simp
  · rw [filter_singleton, hidx, decide_eq_true (lastEmpty_le b.lines)]
    simp [netPosted]

lemma WacBook.record (h : WacBook b) (he : WacEffect accounts line b.aggregate o) :
    WacBook (b.record line postedAt o) := by
  have hqty0 := h.onHand_eq
  have hvalue0 := h.netPosted_eq
  generalize hagg : b.aggregate = old at he hqty0 hvalue0
  cases he with
  | receipt hqty hcost hnewQty hvalue havg =>
    have hnonneg : 0 ≤ (old.getD ⟨0, 0, 0⟩).qty := by
      cases old with
      | none => exact le_rfl
      | some a => exact h.qty_nonneg a hagg
    refine ⟨h.places.record, fun hnone => absurd hnone (some_ne_none _), ?_, ?_, ?_⟩
    · rintro _ ⟨⟩
      dsimp only
      omega
    · rintro _ ⟨⟩
      simp [PoolBook.record, PoolBook.row, hqty0]
    · rintro _ ⟨⟩
      rw [h.netPosted_record rfl rfl, if_neg (by omega), hvalue0]
      rfl
  | @depletion a unitCost valueSum hqty hcost hle hvalue havg =>
    have habs : |line.qty| = -line.qty := abs_of_neg hqty
    refine ⟨h.places.record, fun hnone => absurd hnone (some_ne_none _), ?_, ?_, ?_⟩
    · rintro _ ⟨⟩
      dsimp only
      omega
    · rintro _ ⟨⟩
      simp [PoolBook.record, PoolBook.row, hqty0, habs]
    · rintro _ ⟨⟩
      rw [h.netPosted_record rfl rfl, hqty0, hvalue0]
      simp only [getD_some]
      unfold valueOrZero at hvalue
      by_cases hzero : a.qty - |line.qty| = 0
      · rw [if_pos hzero] at hvalue
        rw [if_pos (by omega)]
        exact (some.inj hvalue).symm
      · rw [if_neg hzero, toI64?_eq_some] at hvalue
        rw [if_neg (by omega)]
        exact hvalue.1.symm

namespace Site

lemma run_wacBook (hrow : ref.pool p = some row) (hwac : row.method = .wac) (ops : List BookOp) :
    WacBook (run p ref ops).book := by
  have hinv : SameConfig ref (run p ref ops) ∧ WacBook (run p ref ops).book := by
    refine Machine.run_invariant (P := fun s => SameConfig ref s ∧ WacBook s.book)
      (fun s op s' h hs => ⟨hs.1.exec h, ?_⟩)
      ⟨⟨rfl, rfl, rfl⟩, by constructor <;> simp [PoolBook.Placed]⟩ ops
    rcases exec?_cases h with ⟨postedAt, line, o, rfl, ⟨rfl, hqty, hrange⟩, ho, rfl⟩ |
      ⟨_, -, -, -, rfl⟩
    · obtain ⟨accounts, -, heffect⟩ :=
        wacEffect_of_outcome? (hs.1.pool ▸ hrow) hwac hqty hrange ho
      exact hs.2.record heffect
    · exact hs.2
  exact hinv.2

/-- **The value of a WAC pool** is the net posted amount of the lines since the pool was last empty,
so none when it is empty: the rounding residue of an emptied pool is dropped and never posted. -/
theorem run_wac_bookValue (hrow : ref.pool p = some row) (hwac : row.method = .wac)
    (ops : List BookOp) :
    ∀ a ∈ (run p ref ops).book.aggregate,
      a.valueSum = netPosted (run p ref ops).book.postedSinceEmpty ∧
      (a.qty = 0 → a.valueSum = 0) := by
  intro a ha
  have hbook := run_wacBook hrow hwac ops
  refine ⟨hbook.value a ha, fun hzero => ?_⟩
  have hlast := lastEmpty_of_onHand_eq_zero ((hbook.qty a ha).symm.trans hzero)
  rw [hbook.value a ha, PoolBook.postedSinceEmpty, hbook.filter_eq_nil hlast.ge, netPosted_nil]

end Site

/-! ### Examples -/

/-- Ten units worth 15 average 1.5, rounded to 2; nine of them are issued. -/
def roundedUp : List BookOp := [received 5 1, received 5 2, issued 9]

/-- Two units worth `2 ^ 63 - 1` average `2 ^ 62 - 0.5`, rounded to `2 ^ 62`. -/
def roundedToTop : List BookOp := [received 1 (2 ^ 62), received 1 (2 ^ 62 - 1)]

/-- **Stock that cannot be issued.** The last unit stands at a cost of -3, which `trx_line` refuses;
of two units at `2 ^ 62` both cannot be issued at once. -/
theorem run_roundedUp :
    (Site.run 1 (sampleRef .wac) roundedUp).book.aggregate = some ⟨1, -3, -3⟩ ∧
    ¬ (Site.exec? 1 (Site.run 1 (sampleRef .wac) roundedUp) (issued 1)).isSome ∧
    (Site.run 1 (sampleRef .wac) roundedToTop).book.aggregate =
      some ⟨2, 2 ^ 62, 2 ^ 63 - 1⟩ ∧
    ¬ (Site.exec? 1 (Site.run 1 (sampleRef .wac) roundedToTop) (issued 2)).isSome := by
  decide +kernel

/-- Four of five units at an average of 2 can be issued, as can the last. -/
theorem run_wac_issuable_fiveUnits :
    (Site.run 1 (sampleRef .wac) [received 5 2, issued 4]).book.aggregate = some ⟨1, 2, 2⟩ ∧
    ∃ s', Site.exec? 1 (Site.run 1 (sampleRef .wac) [received 5 2, issued 4]) (issued 1) =
      some s' := by
  have ha : (Site.run 1 (sampleRef .wac) [received 5 2, issued 4]).book.aggregate =
      some ⟨1, 2, 2⟩ := by
    decide +kernel
  have hrow : (sampleRef .wac).pool 1 = some ⟨.wac, 1, 1⟩ := rfl
  refine ⟨ha, (Site.run_wac_issuable hrow rfl _ ?_ _ ha).2.2.2.2 0 _ rfl (by decide) (by decide)
    (by decide) (by decide) (by decide)⟩
  decide +kernel

/-- **A residue that is never posted.** Two units worth 3 average 1.5, are issued at 2 each, and
leave an empty pool with a net posted value of -1. -/
theorem run_residue_unposted :
    (Site.run 1 (sampleRef .wac) [received 1 1, received 1 2, issued 2]).book.aggregate =
      some ⟨0, 2, 0⟩ ∧
    netPosted (Site.run 1 (sampleRef .wac) [received 1 1, received 1 2, issued 2]).book.postings =
      -1 := by
  decide +kernel

/-- After the residue, the value is that of the next receipts alone. -/
theorem run_wac_bookValue_refilled :
    (Site.run 1 (sampleRef .wac)
        [received 1 1, received 1 2, issued 2, received 3 5]).book.aggregate =
      some ⟨3, 5, 15⟩ ∧
    netPosted (Site.run 1 (sampleRef .wac)
      [received 1 1, received 1 2, issued 2, received 3 5]).book.postedSinceEmpty = 15 := by
  have ha : (Site.run 1 (sampleRef .wac)
      [received 1 1, received 1 2, issued 2, received 3 5]).book.aggregate = some ⟨3, 5, 15⟩ := by
    decide +kernel
  have hrow : (sampleRef .wac).pool 1 = some ⟨.wac, 1, 1⟩ := rfl
  exact ⟨ha, (Site.run_wac_bookValue hrow rfl _ _ ha).1.symm⟩

end Acct.V32
