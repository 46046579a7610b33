import Mathlib.Algebra.BigOperators.Ring.List
import Mathlib.Data.List.Permutation
import Mathlib.Tactic.LinearCombination
import Acct.Main.Equiv.Batch

/-!
# Pools under perpetual average cost

One product at one location, with a raw and an fg value account and one stock account for both. A
depletion is priced at the truncated average of its class, and the only guard on quantities is the
stock account's. The pools stay solvent as long as no batch takes more out of a class than it holds,
and receipts keep a class's value a multiple of its quantity (`wac_pools_solvent`).
-/

namespace Acct.Main

open Isolation Prog Machine List Option

variable {i n : ℕ} {es : List Event} {w : WacItem} {ps : List (Event × Option ℤ)} {a : Account}
  {m : Movement} {ls : List PostingLine} {s : ℕ × Db} {v v' : Db} {e : Event}

/-! ### What a batch moves -/

/-- The balance of an account, on the debit side. -/
def Db.balance (db : Db) (i : ℕ) : ℤ := ((db.account? i).map (·.balance)).getD 0

/-- The quantity that a batch debits an account. -/
def received (es : List Event) (i : ℕ) : ℤ :=
  (es.map fun e => if e.debitAccountId = i then e.qty.getD 0 else 0).sum

def depleted (es : List Event) (i : ℕ) : ℤ :=
  (es.map fun e => if e.creditAccountId = i then e.qty.getD 0 else 0).sum

def receivedAmount (es : List Event) (i : ℕ) : ℤ :=
  (es.map fun e => if e.debitAccountId = i then e.amount.getD 0 else 0).sum

section Entered

def Db.quotedDebits (db : Db) (es : List Event) (i : ℕ) : ℤ :=
  (es.map fun e => if e.debitAccountId = i then (db.quoted e).getD 0 else 0).sum

def Db.quotedCredits (db : Db) (es : List Event) (i : ℕ) : ℤ :=
  (es.map fun e => if e.creditAccountId = i then (db.quoted e).getD 0 else 0).sum

lemma Entered.sum_map (h : Entered ps ls v v') {f : PostingLine → ℤ} {g : Event × Option ℤ → ℤ}
    (hfg : ∀ p ∈ ps, ∀ l, Makes p l → f l = g p) : (ls.map f).sum = (ps.map g).sum := by
  have hmakes := h.makes
  clear h
  induction hmakes with
  | nil => rfl
  | cons hp _ ih =>
    rw [map_cons, sum_cons, map_cons, sum_cons, hfg _ mem_cons_self _ hp,
      ih fun p' hp' => hfg p' (mem_cons_of_mem _ hp')]

lemma Entered.exists_makes {p : Event × Option ℤ} (h : Entered ps ls v v') (hp : p ∈ ps) :
    ∃ l, Makes p l := by
  have hmakes := h.makes
  clear h
  induction hmakes with
  | nil => cases hp
  | cons hl _ ih =>
    rcases mem_cons.mp hp with rfl | hp
    · exact ⟨_, hl⟩
    · exact ih hp

variable (h : Entered (es.map fun e => (e, v.quoted e)) ls v v')
include h

lemma Entered.balance (ha : v.account? i = some a) :
    v'.balance i = v.balance i + v.quotedDebits es i - v.quotedCredits es i := by
  have hdebits : lineDebits ls i = v.quotedDebits es i := by
    rw [lineDebits, h.sum_map (g := fun p => if p.1.debitAccountId = i then p.2.getD 0 else 0),
      Db.quotedDebits, List.map_map]
    · rfl
    · intro p _ l hl
      rw [hl.debit, hl.amount, getD_some]
  have hcredits : lineCredits ls i = v.quotedCredits es i := by
    rw [lineCredits, h.sum_map (g := fun p => if p.1.creditAccountId = i then p.2.getD 0 else 0),
      Db.quotedCredits, List.map_map]
    · rfl
    · intro p _ l hl
      rw [hl.credit, hl.amount, getD_some]
  rw [Db.balance, h.books.account?, account?_linedAll, ha, hdebits, hcredits, Db.balance, ha]
  simp only [map_some, getD_some, Account.balance, Account.moved]
  ring

lemma Entered.classQty
    (hq : ∀ e ∈ es, e.debitAccountId = i ∨ e.creditAccountId = i → e.qty.isSome) :
    v'.classQty i = v.classQty i + received es i - depleted es i := by
  -- what a line adds, and what it takes out, over what it brings in
  have hline : (ls.map (·.signedQty i)).sum = (es.map fun e =>
      (if e.debitAccountId = i then e.qty.getD 0 else 0) -
        if e.creditAccountId = i then e.qty.getD 0 else 0).sum := by
    rw [h.sum_map (g := fun p => (if p.1.debitAccountId = i then p.1.qty.getD 0 else 0) -
      if p.1.creditAccountId = i then p.1.qty.getD 0 else 0), List.map_map]
    · rfl
    · intro p hp l hl
      obtain ⟨e, he, rfl⟩ := List.mem_map.mp hp
      have hne := hl.ne
      have hqty : e.debitAccountId = i ∨ e.creditAccountId = i → l.qty = e.qty := by
        intro hi
        obtain ⟨q, hq⟩ := isSome_iff_exists.mp (hq e he hi)
        rw [hl.qty q hq, hq]
      rw [hl.debit, hl.credit] at hne
      simp only [PostingLine.signedQty, hl.debit, hl.credit]
      by_cases hd : e.debitAccountId = i
      · have hc : e.creditAccountId ≠ i := fun hc => hne (hd.trans hc.symm)
        simp [hd, hc, hqty (.inl hd)]
      · by_cases hc : e.creditAccountId = i
        · simp [hd, hc, hqty (.inr hc)]
        · simp [hd, hc]
  have hsum : (ls.map (·.signedQty i)).sum + depleted es i = received es i := by
    rw [hline, depleted, ← sum_map_add, received]
    refine congrArg List.sum (map_congr_left fun e _ => ?_)
    exact sub_add_cancel _ _
  rw [h.books.classQty, classQty_linedAll]
  omega

end Entered

/-! ### The product and its movements -/

/-- The accounts of a product at a location. -/
structure WacItem where
  sku : ℕ
  location : ℕ
  stock : ℕ
  raw : ℕ
  fg : ℕ
  deriving DecidableEq

structure Movement where
  qtyLeg : Event
  valueLeg : Event
  deriving DecidableEq

def Movement.legs (m : Movement) : List Event := [m.qtyLeg, m.valueLeg]

/-- A leg into an open account of the same ledger that is free to be debited and has room for the
amount, in an open period. The rows beside the line can be written: there is a rate, and quantity
and unit cost are in range. -/
structure Db.Payable (db : Db) (e : Event) : Prop where
  accounts : ∃ d c, db.account? e.debitAccountId = some d ∧
    db.account? e.creditAccountId = some c ∧ d.isClosed = false ∧ d.ledger = c.ledger ∧
    d.normalSide ≠ .credit ∧ d.debitsTotal + (db.quoted e).getD 0 ≤ maxBigint ∧
    db.currencyRow c e.businessDate = .ok () ∧
    ∀ q ∈ e.qty, 0 < q ∧ RowFits ((db.quoted e).getD 0) q d
  period : db.Open e.businessDate

def Db.ItemAccount (db : Db) (w : WacItem) (i : ℕ) (kind : AccountKind) (value : Bool) : Prop :=
  ∃ a, db.account? i = some a ∧ a.kind = kind ∧ a.ledger.isValue = value ∧ a.skuId = some w.sku ∧
    a.locationId = some w.location ∧ a.isClosed = false

namespace WacItem

def classes (w : WacItem) : List ℕ := [w.raw, w.fg]

structure Chart (w : WacItem) (db : Db) : Prop where
  sku : ∃ s, db.sku? w.sku = some s ∧ s.costMethod = .wacPerpetual
  stock : db.ItemAccount w w.stock .stockAvailable false
  raw : db.ItemAccount w w.raw .invValueRaw true
  fg : db.ItemAccount w w.fg .invValueFg true

def Other (w : WacItem) (db : Db) (i : ℕ) (value : Bool) : Prop :=
  i ≠ w.stock ∧ i ∉ w.classes ∧ isValue (db.account? i) = value
  deriving Decidable

structure Receipt (w : WacItem) (db : Db) (m : Movement) : Prop where
  stock : m.qtyLeg.debitAccountId = w.stock
  from_qty : w.Other db m.qtyLeg.creditAccountId false
  value : m.valueLeg.debitAccountId ∈ w.classes
  from_value : w.Other db m.valueLeg.creditAccountId true
  qty_reason : m.qtyLeg.reason.isCost = false
  value_reason : m.valueLeg.reason.isCost = false
  qty : ∃ k, 0 < k ∧ m.qtyLeg.amount = some k ∧ m.valueLeg.qty = some k

structure Depletion (w : WacItem) (db : Db) (m : Movement) : Prop where
  stock : m.qtyLeg.creditAccountId = w.stock
  to_qty : w.Other db m.qtyLeg.debitAccountId false
  value : m.valueLeg.creditAccountId ∈ w.classes
  to_value : w.Other db m.valueLeg.debitAccountId true
  reason : m.valueLeg.reason.isCost = true
  qty : ∃ k, 0 < k ∧ m.qtyLeg.amount = some k ∧ m.valueLeg.qty = some k

/-- A batch of new events, in which each quantity leg is paired with its value leg. -/
structure Paired (w : WacItem) (db : Db) (es : List Event) : Prop where
  keys : (es.map (·.key)).Nodup
  new : ∀ e ∈ es, db.posted e.key = false
  movements : ∃ ms : List Movement, es.Perm (ms.flatMap Movement.legs) ∧
    ∀ m ∈ ms, w.Receipt db m ∨ w.Depletion db m

/-- The batch takes no more out of a class than there is, and leaves it a value that is a multiple
of its quantity. -/
def Exact (w : WacItem) (db : Db) (es : List Event) : Prop :=
  ∀ i ∈ w.classes, depleted es i ≤ db.classQty i ∧
    db.classQty i + received es i - depleted es i ∣
      db.balance i + receivedAmount es i - depleted es i * (db.balance i / db.classQty i)
  deriving Decidable

/-! ### Legs -/

lemma Chart.stock_not_mem (h : w.Chart v) : w.stock ∉ w.classes := by
  obtain ⟨a, ha, hkind, -⟩ := h.stock
  obtain ⟨b, hb, hbkind, -⟩ := h.raw
  obtain ⟨c, hc, hckind, -⟩ := h.fg
  intro hmem
  rcases mem_pair.mp hmem with heq | heq
  · cases ha.symm.trans (heq ▸ hb)
    cases hkind.symm.trans hbkind
  · cases ha.symm.trans (heq ▸ hc)
    cases hkind.symm.trans hckind

lemma Chart.raw_ne_fg (h : w.Chart v) : w.raw ≠ w.fg := by
  obtain ⟨b, hb, hbkind, -⟩ := h.raw
  obtain ⟨c, hc, hckind, -⟩ := h.fg
  intro heq
  cases hb.symm.trans (heq ▸ hc)
  cases hbkind.symm.trans hckind

lemma Chart.class_account (h : w.Chart v) (hi : i ∈ w.classes) :
    ∃ a, v.account? i = some a ∧ a.ledger.isValue = true ∧ a.skuId = some w.sku ∧
      a.isClosed = false := by
  rcases mem_pair.mp hi with rfl | rfl
  · obtain ⟨a, ha, -, hval, hsku, -, hopen⟩ := h.raw
    exact ⟨a, ha, hval, hsku, hopen⟩
  · obtain ⟨a, ha, -, hval, hsku, -, hopen⟩ := h.fg
    exact ⟨a, ha, hval, hsku, hopen⟩

lemma Paired.leg (h : w.Paired v es) (he : e ∈ es) :
    ∃ m, (w.Receipt v m ∨ w.Depletion v m) ∧ (e = m.qtyLeg ∨ e = m.valueLeg) := by
  obtain ⟨ms, hperm, hms⟩ := h.movements
  obtain ⟨m, hm, hleg⟩ := mem_flatMap.mp (hperm.mem_iff.mp he)
  exact ⟨m, hms m hm, mem_pair.mp hleg⟩

lemma Paired.debit_class (h : w.Paired v es) (hchart : w.Chart v) (he : e ∈ es)
    (hi : e.debitAccountId ∈ w.classes) :
    e.reason.isCost = false ∧ ∃ k, 0 < k ∧ e.qty = some k := by
  obtain ⟨m, hm | hm, rfl | rfl⟩ := h.leg he
  · rw [hm.stock] at hi
    exact absurd hi hchart.stock_not_mem
  · obtain ⟨k, hk, -, hq⟩ := hm.qty
    exact ⟨hm.value_reason, k, hk, hq⟩
  · exact absurd hi hm.to_qty.2.1
  · exact absurd hi hm.to_value.2.1

lemma Paired.credit_class (h : w.Paired v es) (hchart : w.Chart v) (he : e ∈ es)
    (hi : e.creditAccountId ∈ w.classes) :
    e.reason.isCost = true ∧ isValue (v.account? e.debitAccountId) = true ∧
      ∃ k, 0 < k ∧ e.qty = some k := by
  obtain ⟨m, hm | hm, rfl | rfl⟩ := h.leg he
  · exact absurd hi hm.from_qty.2.1
  · exact absurd hi hm.from_value.2.1
  · rw [hm.stock] at hi
    exact absurd hi hchart.stock_not_mem
  · obtain ⟨k, hk, -, hq⟩ := hm.qty
    exact ⟨hm.reason, hm.to_value.2.2, k, hk, hq⟩

/-- An event that credits the product is priced under perpetual average cost. -/
lemma Chart.isWac (h : w.Chart v) (ha : v.account? e.creditAccountId = some a)
    (hsku : a.skuId = some w.sku) : v.IsWac e := by
  obtain ⟨s, hs, hm⟩ := h.sku
  refine ⟨s, ?_, hm⟩
  simp [costSku, ha, hsku, hs]

lemma Paired.isWac (h : w.Paired v es) (hchart : w.Chart v) (he : e ∈ es)
    (hcost : e.reason.isCost = true) : v.IsWac e := by
  obtain ⟨m, hm | hm, rfl | rfl⟩ := h.leg he
  · exact absurd hcost (ne_true_of_eq_false hm.qty_reason)
  · exact absurd hcost (ne_true_of_eq_false hm.value_reason)
  · obtain ⟨a, ha, -, -, hsku, -⟩ := hchart.stock
    exact hchart.isWac (hm.stock.symm ▸ ha) hsku
  · obtain ⟨a, ha, -, hsku, -⟩ := hchart.class_account hm.value
    exact hchart.isWac ha hsku

lemma Depletion.probe (h : w.Depletion v m) (hchart : w.Chart v) :
    (v.probe m.valueLeg).1 = true := by
  obtain ⟨a, ha, hval, hsku, -⟩ := hchart.class_account h.value
  obtain ⟨s, hs, hm⟩ := hchart.isWac ha hsku
  have hskip : ¬ (m.valueLeg.reason.isCost = false ∨
      isNotValue (v.account? m.valueLeg.creditAccountId) = true) := by
    rw [h.reason, isNotValue, ha, any_some, hval]
    simp
  simp only [Db.probe]
  rw [if_neg hskip, hs]
  show s.costMethod.isWac = true
  rw [hm]
  rfl

section

variable (h : w.Paired v es) (hchart : w.Chart v)
include h hchart

lemma Paired.cost_of_twoPass (htwo : v.twoPass es = false)
    (he : e ∈ es) : e.reason.isCost = false := by
  obtain ⟨ms, hperm, hms⟩ := h.movements
  obtain ⟨m, hm, hleg⟩ := mem_flatMap.mp (hperm.mem_iff.mp he)
  rcases hms m hm with hr | hd
  · rcases mem_pair.mp hleg with rfl | rfl
    · exact hr.qty_reason
    · exact hr.value_reason
  · have hmem : m.valueLeg ∈ es :=
      hperm.mem_iff.mpr (mem_flatMap.mpr ⟨m, hm, mem_pair.mpr (.inr rfl)⟩)
    have hprobe := List.any_eq_false.mp htwo m.valueLeg hmem
    exact absurd (hd.probe hchart) hprobe

/-! ### Totals of a batch -/

lemma Paired.quotedDebits_class (hi : i ∈ w.classes) :
    v.quotedDebits es i = receivedAmount es i := by
  refine congrArg List.sum (map_congr_left fun e he => ?_)
  split
  next hd =>
    have hcost := (h.debit_class hchart he (hd.symm ▸ hi)).1
    rw [quoted_of_not_isCost hcost]
  next => rfl

lemma Paired.quotedCredits_class (hi : i ∈ w.classes) :
    v.quotedCredits es i = depleted es i * (max 0 (v.balance i)).tdiv (v.classQty i) := by
  rw [depleted, ← sum_map_mul_right]
  refine congrArg List.sum (map_congr_left fun e he => ?_)
  by_cases hc : e.creditAccountId = i
  · obtain ⟨hcost, hval, k, -, hq⟩ := h.credit_class hchart he (hc.symm ▸ hi)
    obtain ⟨a, ha, -⟩ := hchart.class_account hi
    rw [if_pos hc, if_pos hc, Db.quoted, if_pos ⟨hcost, hval⟩, hc, ha, hq, Db.balance, ha]
    rfl
  · rw [if_neg hc, if_neg hc, zero_mul]

lemma Paired.depleted_nonneg (hi : i ∈ w.classes) :
    0 ≤ depleted es i := by
  refine sum_nonneg fun x hx => ?_
  obtain ⟨e, he, rfl⟩ := List.mem_map.mp hx
  split
  next hc =>
    obtain ⟨-, -, k, hk, hq⟩ := h.credit_class hchart he (hc.symm ▸ hi)
    rw [hq, getD_some]
    exact hk.le
  next => exact le_rfl

end

lemma sum_legs {ms : List Movement} (hperm : es.Perm (ms.flatMap Movement.legs)) (f : Event → ℤ) :
    (es.map f).sum = (ms.map fun m => f m.qtyLeg + f m.valueLeg).sum := by
  rw [(hperm.map f).sum_eq]
  clear hperm
  induction ms with
  | nil => rfl
  | cons m ms ih =>
    rw [flatMap_cons, map_append, sum_append, ih, map_cons, sum_cons]
    simp [Movement.legs]

lemma Paired.stock_moves (h : w.Paired v es) (hchart : w.Chart v) :
    v.quotedDebits es w.stock + (depleted es w.raw + depleted es w.fg) =
      v.quotedCredits es w.stock + (received es w.raw + received es w.fg) := by
  obtain ⟨ms, hperm, hms⟩ := h.movements
  have hstock : w.stock ≠ w.raw ∧ w.stock ≠ w.fg := by
    simpa [classes] using hchart.stock_not_mem
  have hne := hchart.raw_ne_fg
  simp only [Db.quotedDebits, Db.quotedCredits, received, depleted, ← sum_map_add]
  rw [sum_legs hperm, sum_legs hperm]
  refine congrArg List.sum (map_congr_left fun m hm => ?_)
  rcases hms m hm with hm | hm
  · obtain ⟨k, -, hamount, hq⟩ := hm.qty
    obtain ⟨hq0, hq1, -⟩ := hm.from_qty
    obtain ⟨hv0, hv1, -⟩ := hm.from_value
    simp only [classes, mem_pair, not_or] at hq1 hv1
    rw [quoted_of_not_isCost hm.qty_reason, hm.stock, hamount, hq]
    rcases mem_pair.mp hm.value with hi | hi
    · simp [hi, hq0, hq1, hv0, hv1, hstock, hstock.1.symm, hne]
    · simp [hi, hq0, hq1, hv0, hv1, hstock, hstock.2.symm, hne.symm]
  · obtain ⟨k, -, hamount, hq⟩ := hm.qty
    obtain ⟨hq0, hq1, hval⟩ := hm.to_qty
    obtain ⟨hv0, hv1, -⟩ := hm.to_value
    simp only [classes, mem_pair, not_or] at hq1 hv1
    have hquoted : v.quoted m.qtyLeg = some k := by
      rw [Db.quoted, if_neg fun hand => absurd hand.2 (ne_true_of_eq_false hval), hamount]
    rw [hquoted, hm.stock, hq]
    rcases mem_pair.mp hm.value with hi | hi
    · simp [hi, hq0, hq1, hv0, hv1, hstock, hstock.1.symm, hne]
    · simp [hi, hq0, hq1, hv0, hv1, hstock, hstock.2.symm, hne.symm]

/-! ### The books -/

structure Book (w : WacItem) (db : Db) : Prop where
  chart : w.Chart db
  sound : ∀ j, ∀ a ∈ db.account? j, a.Sound
  qty_nonneg : ∀ i ∈ w.classes, 0 ≤ db.classQty i
  dvd : ∀ i ∈ w.classes, db.classQty i ∣ db.balance i
  value_pos : ∀ i ∈ w.classes, 0 < db.classQty i → 0 < db.balance i
  stock : db.classQty w.raw + db.classQty w.fg = db.balance w.stock

lemma Book.value_nonneg (h : w.Book v) (hi : i ∈ w.classes) : 0 ≤ v.balance i := by
  rcases (h.qty_nonneg i hi).eq_or_lt with hzero | hpos
  · have hdvd := h.dvd i hi
    rw [← hzero] at hdvd
    exact (zero_dvd_iff.mp hdvd).ge
  · exact (h.value_pos i hi hpos).le

lemma Book.average_pos (h : w.Book v) (hi : i ∈ w.classes) (hQ : 0 < v.classQty i) :
    0 < v.balance i / v.classQty i :=
  Int.ediv_pos_of_pos_of_dvd (h.value_pos i hi hQ) hQ.le (h.dvd i hi)

lemma Book.classQty_le (h : w.Book v) (hi : i ∈ w.classes) : v.classQty i ≤ v.balance w.stock := by
  have hraw := h.qty_nonneg w.raw mem_cons_self
  have hfg := h.qty_nonneg w.fg (mem_cons_of_mem _ mem_cons_self)
  have hsum := h.stock
  rcases mem_pair.mp hi with rfl | rfl <;> omega

lemma Chart.same (h : w.Chart v) (hsame : SameChart v v') : w.Chart v' := by
  have haccount : ∀ i kind value, v.ItemAccount w i kind value →
      v'.ItemAccount w i kind value := by
    rintro i kind value ⟨a, ha, hkind, hval, hsku, hloc, hopen⟩
    have hi := hsame.accounts i
    rw [ha, map_some, map_eq_some_iff] at hi
    obtain ⟨a', ha', hs⟩ := hi
    exact ⟨a', ha', (congrArg Account.kind hs).trans hkind,
      (congrArg (·.ledger.isValue) hs : a'.static.ledger.isValue = a.static.ledger.isValue).trans
        hval, (congrArg Account.skuId hs).trans hsku, (congrArg Account.locationId hs).trans hloc,
      (congrArg Account.isClosed hs).trans hopen⟩
  refine ⟨?_, haccount _ _ _ h.stock, haccount _ _ _ h.raw, haccount _ _ _ h.fg⟩
  rw [Db.sku?, hsame.skus]
  exact h.sku

end WacItem

lemma SameBooks.sameChart (h : SameBooks v v') : SameChart v v' :=
  ⟨h.skus, fun i => by rw [h.account?], by rw [h.accounts]⟩

lemma sameChart_linedAll (db : Db) (ls : List PostingLine) : SameChart db (db.linedAll ls) := by
  induction ls generalizing db with
  | nil => exact .refl db
  | cons l ls ih => exact (sameChart_applyAll _ db).trans (ih (db.lined l))

namespace WacItem

lemma Paired.receivedAmount_pos (h : w.Paired v es) (hchart : w.Chart v) (hi : i ∈ w.classes)
    (he : Entered (es.map fun e => (e, v.quoted e)) ls v v') :
    0 ≤ received es i ∧ 0 ≤ receivedAmount es i ∧
      (0 < received es i → 0 < receivedAmount es i) := by
  have hleg : ∀ e ∈ es, e.debitAccountId = i → 0 < e.qty.getD 0 ∧ 0 < e.amount.getD 0 := by
    intro e hmem hd
    obtain ⟨hcost, k, hk, hq⟩ := h.debit_class hchart hmem (hd.symm ▸ hi)
    obtain ⟨l, hl⟩ := he.exists_makes (List.mem_map_of_mem hmem)
    have hamount : e.amount = some l.amount := (quoted_of_not_isCost hcost).symm.trans hl.amount
    rw [hq, hamount]
    exact ⟨hk, hl.pos⟩
  have hamounts : ∀ x ∈ es.map fun e => if e.debitAccountId = i then e.amount.getD 0 else 0,
      0 ≤ x := by
    intro x hx
    obtain ⟨e, hmem, rfl⟩ := List.mem_map.mp hx
    split
    next hd => exact (hleg e hmem hd).2.le
    next => exact le_rfl
  refine ⟨sum_nonneg fun x hx => ?_, sum_nonneg hamounts, fun hpos => ?_⟩
  · obtain ⟨e, hmem, rfl⟩ := List.mem_map.mp hx
    split
    next hd => exact (hleg e hmem hd).1.le
    next => exact le_rfl
  · -- some leg brings a quantity, and its amount is part of the sum
    have hex : ∃ e ∈ es, e.debitAccountId = i := by
      by_contra hnone
      have hzero : received es i = 0 := by
        refine sum_eq_zero fun x hx => ?_
        obtain ⟨e, hmem, rfl⟩ := List.mem_map.mp hx
        exact if_neg fun hd => hnone ⟨e, hmem, hd⟩
      omega
    obtain ⟨e, hmem, hd⟩ := hex
    have hle := single_le_sum hamounts _ (List.mem_map_of_mem hmem)
    rw [if_pos hd] at hle
    exact (hleg e hmem hd).2.trans_le hle

lemma Book.entered (h : w.Book v) (hp : w.Paired v es) (hex : w.Exact v es)
    (he : Entered (es.map fun e => (e, v.quoted e)) ls v v') : w.Book v' := by
  have hchart := h.chart
  have hqty : ∀ i ∈ w.classes, v'.classQty i = v.classQty i + received es i - depleted es i := by
    intro i hi
    refine he.classQty fun e hmem htouch => ?_
    rcases htouch with rfl | rfl
    · obtain ⟨-, k, -, hq⟩ := hp.debit_class hchart hmem hi
      rw [hq, isSome_some]
    · obtain ⟨-, -, k, -, hq⟩ := hp.credit_class hchart hmem hi
      rw [hq, isSome_some]
  have hvalue : ∀ i ∈ w.classes, v'.balance i =
      v.balance i + receivedAmount es i - depleted es i * (v.balance i / v.classQty i) := by
    intro i hi
    obtain ⟨a, ha, -⟩ := hchart.class_account hi
    have hnonneg := h.value_nonneg hi
    rw [he.balance ha, hp.quotedDebits_class hchart hi, hp.quotedCredits_class hchart hi,
      max_eq_right hnonneg, Int.tdiv_eq_ediv_of_nonneg hnonneg]
  refine ⟨hchart.same ((sameChart_linedAll v ls).trans he.books.sameChart), he.sound h.sound, ?_,
    ?_, ?_, ?_⟩
  · intro i hi
    have hle := (hex i hi).1
    have hin := (hp.receivedAmount_pos hchart hi he).1
    rw [hqty i hi]
    omega
  · intro i hi
    rw [hqty i hi, hvalue i hi]
    exact (hex i hi).2
  · intro i hi hpos
    obtain ⟨hr, hamount, hboth⟩ := hp.receivedAmount_pos hchart hi he
    have hle := (hex i hi).1
    have hout := hp.depleted_nonneg hchart hi
    have hQ := h.qty_nonneg i hi
    rw [hqty i hi] at hpos
    -- what stays is at the old average
    have hstay : v.balance i - depleted es i * (v.balance i / v.classQty i) =
        (v.classQty i - depleted es i) * (v.balance i / v.classQty i) := by
      have hcancel := Int.mul_ediv_cancel' (h.dvd i hi)
      linear_combination -hcancel
    have havg : 0 ≤ v.balance i / v.classQty i := Int.ediv_nonneg (h.value_nonneg hi) hQ
    have hkept : 0 ≤ (v.classQty i - depleted es i) * (v.balance i / v.classQty i) :=
      mul_nonneg (by omega) havg
    rw [hvalue i hi]
    rcases hr.eq_or_lt with hzero | hin
    · have hleft : 0 < v.classQty i - depleted es i := by omega
      have hQpos : 0 < v.classQty i := by omega
      have hpos' := mul_pos hleft (h.average_pos hi hQpos)
      linarith
    · have hnew := hboth hin
      linarith
  · obtain ⟨a, ha, -⟩ := hchart.stock
    have hmoves := hp.stock_moves hchart
    have hold := h.stock
    rw [hqty w.raw mem_cons_self, hqty w.fg (mem_cons_of_mem _ mem_cons_self), he.balance ha]
    omega

/-! ### Depletions are accepted -/

lemma Book.pays {x : ℤ} {c : Account} {override : Bool} (h : w.Book v) (hpay : v.Payable e)
    (hc : v.account? e.creditAccountId = some c) (hsku : c.skuId = some w.sku)
    (hopen : c.isClosed = false) (hne : e.debitAccountId ≠ e.creditAccountId)
    (hkey : v.posted e.key = false) (hquote : v.quoted e = some x) (hx : 0 < x)
    (hle : x ≤ c.balance) (hsmall : e.qty = none → x < 10 ^ 13) : Pays v override e x := by
  obtain ⟨d, c', hd, hc', hdopen, hledger, hside, hroom, hrate, hrow⟩ := hpay.accounts
  obtain rfl : c = c' := some.inj (hc.symm.trans hc')
  obtain ⟨p, hp, hclosed⟩ := hpay.period
  rw [hquote, getD_some] at hroom hrow
  obtain ⟨⟨hfits, -⟩, -, hcredits, -⟩ := h.sound _ c hc
  rw [Account.balance] at hle
  refine ⟨h.chart.isWac hc hsku, hx, by omega, fun q hq => (hrow q hq).1.le, hkey, hne,
    ⟨p, hp, fun hcl => ?_⟩, d, c, hd, hc, hdopen, hopen, hledger, ?_, ?_, ?_, hrate⟩
  · rw [hclosed] at hcl
    cases hcl
  · exact (h.sound _ d hd).debited hx.le hside hroom
  · exact (h.sound _ c hc).credited hx.le (fun _ => by omega) (by omega)
  · intro q hq
    rcases hqty : e.qty with _ | q'
    · -- the quantity is the amount, between quantity accounts
      rw [qtyForRow, hqty, none_or] at hq
      split at hq
      next hboth =>
        cases hq
        refine ⟨fun hval => ?_, by rw [abs_of_pos hx]; exact hsmall hqty, hx.ne'⟩
        rw [hboth.1] at hval
        cases hval
      next => cases hq
    · rw [qtyForRow, hqty, some_or] at hq
      cases hq
      exact (hrow q hqty).2

lemma Depletion.accounts_ne (hm : w.Depletion v m) (hchart : w.Chart v) :
    (m.qtyLeg.debitAccountId ≠ m.valueLeg.debitAccountId ∧
      m.qtyLeg.debitAccountId ≠ m.valueLeg.creditAccountId) ∧
    m.qtyLeg.creditAccountId ≠ m.valueLeg.debitAccountId ∧
      m.qtyLeg.creditAccountId ≠ m.valueLeg.creditAccountId := by
  refine ⟨⟨fun heq => ?_, fun heq => hm.to_qty.2.1 (heq ▸ hm.value)⟩,
    fun heq => hm.to_value.1 (heq.symm.trans hm.stock), fun heq => ?_⟩
  · have hval := hm.to_value.2.2
    rw [← heq, hm.to_qty.2.2] at hval
    cases hval
  · exact hchart.stock_not_mem (hm.stock ▸ heq ▸ hm.value)

lemma Book.deplete_ends (override : Bool) (h : w.Book v) (hm : w.Depletion v m)
    (hle : ∀ k ∈ m.valueLeg.qty, k ≤ v.classQty m.valueLeg.creditAccountId)
    (hkeys : m.qtyLeg.key ≠ m.valueLeg.key) (hnew : ∀ e ∈ m.legs, v.posted e.key = false)
    (hpay : ∀ e ∈ m.legs, v.Payable e) (hes : es.Perm m.legs) :
    (postPostingLines es override).Ends schema False n v fun _ _ _ => True := by
  obtain ⟨k, hk, hamount, hq⟩ := hm.qty
  have hchart := h.chart
  have hclass := hm.value
  have hkQ := hle k hq
  have hqmem : m.qtyLeg ∈ m.legs := mem_cons_self
  have hvmem : m.valueLeg ∈ m.legs := mem_cons_of_mem _ mem_cons_self
  obtain ⟨a, ha, -, -, hasku, -, haopen⟩ := hchart.stock
  obtain ⟨c, hc, hcval, hcsku, hcopen⟩ := hchart.class_account hclass
  rw [← hm.stock] at ha
  have hstockle : k ≤ a.balance := by
    have hle := hkQ.trans (h.classQty_le hclass)
    rwa [Db.balance, ← hm.stock, ha, map_some, getD_some] at hle
  have hquote : v.quoted m.qtyLeg = some k := by
    rw [Db.quoted, if_neg fun hand => absurd hand.2 (ne_true_of_eq_false hm.to_qty.2.2), hamount]
  have hsmall : k < 10 ^ 13 := by
    obtain ⟨_, _, -, -, -, -, -, -, -, hrow⟩ := (hpay _ hvmem).accounts
    exact (le_abs_self k).trans_lt (hrow k hq).2.qty
  have hqty : Pays v override m.qtyLeg k := by
    refine h.pays (hpay _ hqmem) ha hasku haopen ?_ (hnew _ hqmem) hquote hk hstockle
      fun _ => hsmall
    rw [hm.stock]
    exact hm.to_qty.1
  -- the class has the cost, at its average
  have hbalance : v.balance m.valueLeg.creditAccountId = c.balance := by
    rw [Db.balance, hc, map_some, getD_some]
  have hQpos : 0 < v.classQty m.valueLeg.creditAccountId := by omega
  have hVpos := h.value_pos _ hclass hQpos
  have hquote' : v.quoted m.valueLeg =
      some (k * (c.balance / v.classQty m.valueLeg.creditAccountId)) := by
    rw [Db.quoted, if_pos ⟨hm.reason, hm.to_value.2.2⟩, hc, hq]
    rw [hbalance] at hVpos
    show some (k * (max 0 c.balance).tdiv _) = _
    rw [max_eq_right hVpos.le, Int.tdiv_eq_ediv_of_nonneg hVpos.le]
  have hvalue : Pays v override m.valueLeg
      (k * (c.balance / v.classQty m.valueLeg.creditAccountId)) := by
    have havg := h.average_pos hclass hQpos
    have hdvd := h.dvd _ hclass
    rw [hbalance] at havg hdvd
    refine h.pays (hpay _ hvmem) hc hcsku hcopen ?_ (hnew _ hvmem) hquote' (mul_pos hk havg) ?_
      fun hnone => absurd (hq.symm.trans hnone) (by simp)
    · exact fun heq => hm.to_value.2.1 (heq ▸ hclass)
    · calc k * (c.balance / v.classQty m.valueLeg.creditAccountId)
          ≤ v.classQty m.valueLeg.creditAccountId *
              (c.balance / v.classQty m.valueLeg.creditAccountId) :=
            mul_le_mul_of_nonneg_right hkQ havg.le
        _ = c.balance := Int.mul_ediv_cancel' hdvd
  have hquotable : Quotable v m.qtyLeg := fun hval =>
    absurd hval (ne_true_of_eq_false hm.to_qty.2.2)
  have hquotable' : Quotable v m.valueLeg := fun _ =>
    ⟨by rw [hq, isSome_some], c, hc, hcval, hQpos⟩
  have hprobe := hm.probe hchart
  obtain ⟨⟨hdd, hdc⟩, hcd, hcc⟩ := hm.accounts_ne hchart
  rcases perm_pair.mp hes with rfl | rfl
  · exact postPostingLines_pair_ends (by simp [Db.twoPass, hprobe]) hquotable hquotable'
      hquote hquote' hqty hvalue hkeys ⟨hdd, hdc⟩ ⟨hcd, hcc⟩
  · exact postPostingLines_pair_ends (by simp [Db.twoPass, hprobe]) hquotable' hquotable
      hquote' hquote hvalue hqty hkeys.symm ⟨hdd.symm, hcd.symm⟩ ⟨hdc.symm, hcc.symm⟩

/-! ### Runs -/

/-- The pools have what they owe. -/
structure Solvent (w : WacItem) (s : ℕ × Db) : Prop where
  qty_nonneg : ∀ i ∈ w.classes, 0 ≤ s.2.classQty i
  value_nonneg : ∀ i ∈ w.classes, 0 ≤ s.2.balance i
  stock : s.2.classQty w.raw + s.2.classQty w.fg = s.2.balance w.stock
  accepts : ∀ m, w.Depletion s.2 m →
    (∀ k ∈ m.valueLeg.qty, k ≤ s.2.classQty m.valueLeg.creditAccountId) →
    m.qtyLeg.key ≠ m.valueLeg.key → (∀ e ∈ m.legs, s.2.posted e.key = false) →
    (∀ e ∈ m.legs, s.2.Payable e) → ∀ es, es.Perm m.legs → ∀ override,
      (commit? (postPostingLines es override) s).isSome
  empty : ∀ i ∈ w.classes, s.2.classQty i = 0 → s.2.balance i = 0

lemma Book.solvent (h : w.Book s.2) : w.Solvent s where
  qty_nonneg := h.qty_nonneg
  value_nonneg _ hi := h.value_nonneg hi
  stock := h.stock
  accepts m hm hle hkeys hnew hpay es hes override := by
    obtain ⟨s', hs', -⟩ := exists_commit? (s := s) (Q := fun _ => True)
      (h.deplete_ends override hm hle hkeys hnew hpay hes)
    rw [hs', isSome_some]
  empty i hi hzero := by
    have hdvd := h.dvd i hi
    rw [hzero] at hdvd
    exact zero_dvd_iff.mp hdvd

def post? (s : ℕ × Db) (b : List Event × Bool) : Option (ℕ × Db) :=
  commit? (postPostingLines b.1 b.2) s

lemma Book.post? {s' : ℕ × Db} {b : List Event × Bool} (h : w.Book s.2) (hp : w.Paired s.2 b.1)
    (hex : w.Exact s.2 b.1) (hs : post? s b = some s') : w.Book s'.2 := by
  refine post_of_commit? (Q := fun s' => w.Book s'.2) hs ?_
  refine (postPostingLines_entered hp.keys hp.new (fun e he => hp.isWac h.chart he)
    fun htwo e he => hp.cost_of_twoPass h.chart htwo he).mono ?_
  rintro _ _ v' ⟨ls, hls⟩
  exact h.entered hp hex hls

/-- Nothing is posted on the product's accounts yet. -/
structure Opening (w : WacItem) (db : Db) : Prop where
  chart : w.Chart db
  sound : ∀ j, ∀ a ∈ db.account? j, a.Sound
  lines : ∀ i ∈ w.classes, ∀ l ∈ db.lines, l.debitAccountId ≠ i ∧ l.creditAccountId ≠ i
  balances : ∀ i ∈ w.stock :: w.classes, db.balance i = 0

lemma Opening.book (h : w.Opening v) : w.Book v := by
  have hqty : ∀ i ∈ w.classes, v.classQty i = 0 := by
    intro i hi
    refine sum_eq_zero fun x hx => ?_
    obtain ⟨l, hl, rfl⟩ := List.mem_map.mp hx
    obtain ⟨hd, hc⟩ := h.lines i hi l hl
    simp [PostingLine.signedQty, hd, hc]
  refine ⟨h.chart, h.sound, fun i hi => (hqty i hi).ge, fun i hi => ?_, fun i hi hpos => ?_, ?_⟩
  · rw [h.balances i (mem_cons_of_mem _ hi)]
    exact dvd_zero _
  · rw [hqty i hi] at hpos
    exact absurd hpos (lt_irrefl 0)
  · rw [hqty w.raw mem_cons_self, hqty w.fg (mem_cons_of_mem _ mem_cons_self),
      h.balances w.stock mem_cons_self]
    rfl

end WacItem

/-- The pools are solvent after every run of paired batches that take no more out of a class than it
holds and leave each class a multiple of its quantity. -/
theorem wac_pools_solvent {w : WacItem} {s : ℕ × Db} (h : w.Opening s.2)
    (bs : List (List Event × Bool))
    (hbs : Throughout WacItem.post? (fun s b => w.Paired s.2 b.1 ∧ w.Exact s.2 b.1) s bs) :
    w.Solvent (run WacItem.post? s bs) := by
  have hbook : w.Book (run WacItem.post? s bs).2 :=
    run_invariant_of_throughout (P := fun s => w.Book s.2)
      (fun s b s' hs hC hb => hb.post? hC.1 hC.2 hs) h.book bs hbs
  exact hbook.solvent

/-- A product (10) at location 5: its stock (1), raw (2) and fg (3) accounts, and a vendor, a
customer, payables and cost of goods sold. -/
def pantry : Db where
  skus := [⟨10, .wacPerpetual, .none, .fifo⟩]
  periods := [⟨1, 0, 30, false⟩]
  accounts := [
    { id := 1, kind := .stockAvailable, ledger := .qty, skuId := some 10, locationId := some 5
      normalSide := .debit },
    { id := 2, kind := .invValueRaw, ledger := .value 0, skuId := some 10, locationId := some 5
      normalSide := .debit },
    { id := 3, kind := .invValueFg, ledger := .value 0, skuId := some 10, locationId := some 5
      normalSide := .debit },
    { id := 4, kind := .vendorPool, ledger := .qty, normalSide := .credit },
    { id := 5, kind := .customerPool, ledger := .qty },
    { id := 6, kind := .apUnsettled, ledger := .value 0, normalSide := .credit },
    { id := 7, kind := .cogs, ledger := .value 0, normalSide := .debit }]

def pantryItem : WacItem := ⟨10, 5, 1, 2, 3⟩

/-- A receipt into a class, under two keys. -/
def restock (key account : ℕ) (qty amount : ℤ) : Movement where
  qtyLeg :=
    { reason := .poReceipt, debitAccountId := 1, creditAccountId := 4, amount := some qty
      businessDate := 1, key := .given key }
  valueLeg :=
    { reason := .poReceipt, debitAccountId := account, creditAccountId := 6, amount := some amount
      qty := some qty, businessDate := 1, key := .given (key + 1) }

/-- A shipment out of a class, under two keys. -/
def sale (key account : ℕ) (qty : ℤ) : Movement where
  qtyLeg :=
    { reason := .soShip, debitAccountId := 5, creditAccountId := 1, amount := some qty
      businessDate := 1, key := .given key }
  valueLeg :=
    { reason := .soShip, debitAccountId := 7, creditAccountId := account, qty := some qty
      businessDate := 1, key := .given (key + 1) }

/-- The pantry after some batches, if all are accepted. -/
def pantryAfter (bs : List (List Movement)) : Option (ℕ × Db) :=
  bs.foldlM (fun s ms => WacItem.post? s (ms.flatMap Movement.legs, false)) (100, pantry)

/-- With fg in stock, more raw is taken than there is. Of three for 10 cents, a cent stays when all
three are gone. Of three for 2 cents, not one is let out. -/
theorem not_wac_pools_solvent :
    (pantryAfter [[restock 1 2 2 3, restock 3 3 5 5], [sale 5 2 3]]).map
      (fun s => s.2.classQty 2) = some (-1) ∧
    (pantryAfter [[restock 1 2 3 10], [sale 3 2 3]]).map
      (fun s => (s.2.classQty 2, s.2.balance 2)) = some (0, 1) ∧
    (pantryAfter [[restock 1 2 3 2]]).map (fun s => (s.2.classQty 2, s.2.balance 2)) =
      some (3, 2) ∧
    pantryAfter [[restock 1 2 3 2], [sale 3 2 1]] = none := by
  decide +kernel

lemma pantryItem_opening : pantryItem.Opening pantry where
  chart := ⟨⟨_, rfl, rfl⟩, ⟨_, rfl, rfl, rfl, rfl, rfl, rfl⟩, ⟨_, rfl, rfl, rfl, rfl, rfl, rfl⟩,
    ⟨_, rfl, rfl, rfl, rfl, rfl, rfl⟩⟩
  sound j a ha := by
    have hall : ∀ a ∈ pantry.accounts, a.Sound := by decide
    exact hall a (List.mem_of_find?_eq_some ha)
  lines := by
    intro i _ l hl
    cases hl
  balances := by decide

theorem wac_pools_solvent_pantry : pantryItem.Solvent (run WacItem.post? (100, pantry)
    [([restock 1 2 2 6, restock 3 3 5 5].flatMap Movement.legs, false),
      ([sale 5 2 1, sale 7 3 2].flatMap Movement.legs, false)]) := by
  refine wac_pools_solvent pantryItem_opening _ ⟨⟨?_, ?_⟩, ⟨?_, ?_⟩, trivial⟩
  · refine ⟨by decide, by decide, [restock 1 2 2 6, restock 3 3 5 5], .refl _, ?_⟩
    intro m hm
    refine .inl ?_
    rcases mem_pair.mp hm with rfl | rfl
    · exact ⟨rfl, by decide, by decide, by decide, rfl, rfl, 2, by decide⟩
    · exact ⟨rfl, by decide, by decide, by decide, rfl, rfl, 5, by decide⟩
  · decide
  · refine ⟨by decide, by decide +kernel, [sale 5 2 1, sale 7 3 2], .refl _, ?_⟩
    intro m hm
    refine .inr ?_
    rcases mem_pair.mp hm with rfl | rfl
    · exact ⟨rfl, by decide +kernel, by decide, by decide +kernel, rfl, 1, by decide⟩
    · exact ⟨rfl, by decide +kernel, by decide, by decide +kernel, rfl, 2, by decide⟩
  · decide +kernel

end Acct.Main
