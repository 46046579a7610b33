import Mathlib.Algebra.BigOperators.Group.List.Lemmas
import Acct.Main.Equiv.Chart
import Acct.Main.Equiv.DocWrites
import Acct.Main.Reservations

/-!
# Promises and stock

Whoever holds the stock account's lock may promise more of it and may bring lots in; the others can
meanwhile only release promises and add to the stock. Beside the two bounds, the promises rest on
the lots holding no more than the stock account, and on every pinned promise naming a lot of its own
place.
-/

namespace Acct.Main

open Isolation List

variable {skuId locationId : ℕ} {r r' : Reservation} {l l' : List Reservation} {d : DocDb}
  {w : Write}

/-! ### Rows and sums -/

namespace Reservation

def owed (r : Reservation) : ℤ := if r.isOpen then r.qty else 0

def owedOf (lotId : ℕ) (r : Reservation) : ℤ :=
  if r.isOpen && (r.lotSpecific && r.lotId == some lotId) then r.qty else 0

def owedFree (r : Reservation) : ℤ := if r.isOpen && !r.lotSpecific then r.qty else 0

def Released (r r' : Reservation) : Prop :=
  r' = { r with status := r'.status } ∧ (r'.isOpen = true → r.isOpen = true)

lemma released_refl (r : Reservation) : r.Released r := ⟨rfl, fun h => h⟩

lemma forall₂_released (l : List Reservation) : List.Forall₂ Released l l :=
  forall₂_same.mpr fun r _ => r.released_refl

lemma Released.trans {r'' : Reservation} (h : r.Released r') (h' : r'.Released r'') :
    r.Released r'' := by
  refine ⟨?_, fun hopen => h.2 (h'.2 hopen)⟩
  rw [h'.1, h.1]

lemma released_moved (st : ReservationStatus) (r : Reservation) : r.Released (r.moved st) := by
  unfold moved
  split
  next hactive => exact ⟨rfl, fun _ => by simp [isOpen, hactive]⟩
  next => exact r.released_refl

lemma not_allocated_of_expired (h : r.status ≠ .allocated) :
    (r.moved .expired).status ≠ .allocated := by
  unfold moved
  split
  · simp
  · exact h

lemma Released.isAt (h : r.Released r') (skuId locationId : ℕ) :
    r'.isAt skuId locationId = r.isAt skuId locationId := by
  rw [h.1]
  rfl

lemma Released.qty (h : r.Released r') : r'.qty = r.qty := by rw [h.1]

lemma Released.owed_le (h : r.Released r') (hq : 0 ≤ r.qty) : r'.owed ≤ r.owed := by
  unfold owed
  split
  next hopen => rw [if_pos (h.2 hopen), h.qty]
  next => split <;> omega

lemma Released.owedOf_le (h : r.Released r') (hq : 0 ≤ r.qty) (lotId : ℕ) :
    r'.owedOf lotId ≤ r.owedOf lotId := by
  have hspecific : r'.lotSpecific = r.lotSpecific := by rw [h.1]
  have hlot : r'.lotId = r.lotId := by rw [h.1]
  simp only [owedOf, hspecific, hlot, h.qty]
  by_cases hopen : r'.isOpen = true
  · rw [hopen, h.2 hopen]
  · simp only [hopen, Bool.false_and, Bool.false_eq_true, if_false]
    split <;> omega

end Reservation

namespace DocDb

def rowsAt (d : DocDb) (skuId locationId : ℕ) : List Reservation :=
  d.reservations.filter (·.isAt skuId locationId)

/-- `SUM(qty)` of what is still owed, active or allocated. -/
def promised (d : DocDb) (skuId locationId : ℕ) : ℤ :=
  ((d.rowsAt skuId locationId).map (·.owed)).sum

def lotsAt (d : DocDb) (skuId locationId : ℕ) : List Lot :=
  d.ledger.lots.filter fun l => l.productId == skuId && l.locationId == locationId

def inLots (d : DocDb) (skuId locationId : ℕ) : ℤ :=
  ((d.lotsAt skuId locationId).map d.ledger.lotResidual).sum

def NoneAllocated (d : DocDb) (skuId locationId : ℕ) : Prop :=
  ∀ r ∈ d.rowsAt skuId locationId, r.status ≠ .allocated
  deriving Decidable

end DocDb

/-! ### What a write does to the stock -/

def stockDelta (C : List Account) (w : Write) (skuId locationId : ℕ) : ℤ :=
  ((C.filter (·.isStockOf skuId locationId)).map fun a => w.debitOf a.id - w.creditOf a.id).sum

section Stock

variable {C : List Account}

lemma onHand_apply_ledger (h : d.ledger.chart = C) (w : Write) :
    (docSchema.apply (.ledger w) d).onHand skuId locationId =
      d.onHand skuId locationId + stockDelta C w skuId locationId := by
  have hacc : (docSchema.apply (.ledger w) d).stockAccounts skuId locationId =
      (d.stockAccounts skuId locationId).map fun a =>
        a.moved (w.debitOf a.id) (w.creditOf a.id) := by
    show ((w.apply d.ledger).accounts).filter _ = _
    rw [accounts_apply, List.filter_map]
    rfl
  have hchart : (C.filter (·.isStockOf skuId locationId)) =
      (d.stockAccounts skuId locationId).map Account.static := by
    rw [← h, Db.chart, List.filter_map]
    rfl
  rw [DocDb.onHand, hacc, DocDb.onHand, stockDelta, hchart, List.map_map, List.map_map,
    ← sum_map_add]
  refine congrArg List.sum (map_congr_left fun a _ => ?_)
  simp only [Function.comp, Account.balance, Account.moved, Account.static_id]
  omega

lemma stockDelta_nonneg (h : ∀ a ∈ C.filter (·.isStockOf skuId locationId),
    0 ≤ w.debitOf a.id - w.creditOf a.id) : 0 ≤ stockDelta C w skuId locationId := by
  refine sum_nonneg fun x hx => ?_
  obtain ⟨a, ha, rfl⟩ := List.mem_map.mp hx
  exact h a ha

lemma le_stockDelta_debit {a : Account} (ha : a ∈ C) (hstock : a.isStockOf skuId locationId = true)
    {amount : ℤ} (hamount : 0 ≤ amount) :
    amount ≤ stockDelta C (.debit a.id amount) skuId locationId := by
  have hmem : a ∈ C.filter (·.isStockOf skuId locationId) := mem_filter.mpr ⟨ha, hstock⟩
  have hnonneg : ∀ x ∈ (C.filter (·.isStockOf skuId locationId)).map
      fun b => (Write.debit a.id amount).debitOf b.id - (Write.debit a.id amount).creditOf b.id,
      0 ≤ x := by
    intro x hx
    obtain ⟨b, -, rfl⟩ := List.mem_map.mp hx
    simp only [Write.debitOf, Write.creditOf]
    split <;> omega
  have hle := single_le_sum hnonneg _ (List.mem_map_of_mem hmem)
  simpa [stockDelta, Write.debitOf, Write.creditOf] using hle

def Write.isLotEvent : Write → Bool
  | .lotEvent _ => true
  | _ => false

lemma lotResidual_apply (hw : w.isLotEvent = false) (db : Db) (x : Lot) :
    (w.apply db).lotResidual x = db.lotResidual x := by
  cases w <;> first | rfl | cases hw

def Write.lotsInto (skuId locationId : ℕ) : Write → List Lot
  | .lot x => if x.productId == skuId && x.locationId == locationId then [x] else []
  | _ => []

lemma lotsAt_apply_ledger (w : Write) (d : DocDb) (skuId locationId : ℕ) :
    (docSchema.apply (.ledger w) d).lotsAt skuId locationId =
      d.lotsAt skuId locationId ++ w.lotsInto skuId locationId := by
  cases w with
  | lot x =>
    show (d.ledger.lots ++ [x]).filter _ = _
    rw [filter_append, filter_singleton]
    simp only [DocDb.lotsAt, Write.lotsInto, Bool.cond_eq_ite]
  | _ => exact (append_nil _).symm

end Stock

/-! ### What is guarded -/

/-- The calls. -/
inductive Promising
  | reserve (c : ReserveInventory)
  | allocate (c : SoAllocate)
  | expire (now : ℤ)
  | receive (c : PoReceipt)
  deriving DecidableEq

/-- The stock of a product at a location, or a number that names a lot or a key. -/
inductive PromiseItem
  | stock (skuId locationId : ℕ)
  | number (n : ℕ)
  deriving DecidableEq

structure StockOk (d : DocDb) (skuId locationId : ℕ) : Prop where
  nonneg : ∀ r ∈ d.rowsAt skuId locationId, 0 ≤ r.qty
  pinned : ∀ r ∈ d.rowsAt skuId locationId, r.isOpen = true → r.lotSpecific = true →
    ∃ x ∈ d.lotsAt skuId locationId, r.lotId = some x.id
  promised : d.promised skuId locationId ≤ d.onHand skuId locationId
  lots : ∀ x ∈ d.lotsAt skuId locationId,
    ((d.rowsAt skuId locationId).map (·.owedOf x.id)).sum ≤ d.ledger.lotResidual x
  backed : d.inLots skuId locationId ≤ d.onHand skuId locationId

structure StockSame (d d' : DocDb) (skuId locationId : ℕ) : Prop where
  lots : d'.lotsAt skuId locationId = d.lotsAt skuId locationId
  residual : ∀ x, d'.ledger.lotResidual x = d.ledger.lotResidual x
  stock : d.onHand skuId locationId ≤ d'.onHand skuId locationId
  rows : List.Forall₂ Reservation.Released (d.rowsAt skuId locationId) (d'.rowsAt skuId locationId)

section Same

variable {d' d'' : DocDb}

lemma StockSame.refl (d : DocDb) (skuId locationId : ℕ) : StockSame d d skuId locationId :=
  ⟨rfl, fun _ => rfl, le_rfl, Reservation.forall₂_released _⟩

lemma StockSame.trans (h : StockSame d d' skuId locationId)
    (h' : StockSame d' d'' skuId locationId) :
    StockSame d d'' skuId locationId where
  lots := h'.lots.trans h.lots
  residual x := (h'.residual x).trans (h.residual x)
  stock := h.stock.trans h'.stock
  rows := by
    have htrans := h.rows
    have hrows := h'.rows
    generalize d'.rowsAt skuId locationId = l at htrans hrows
    generalize d''.rowsAt skuId locationId = l'' at hrows ⊢
    generalize d.rowsAt skuId locationId = l' at htrans ⊢
    induction htrans generalizing l'' with
    | nil =>
      cases hrows
      exact .nil
    | cons hab _ ih =>
      cases hrows with
      | cons hbc hrest => exact .cons (hab.trans hbc) (ih _ hrest)

lemma sum_le_of_released {f : Reservation → ℤ} (h : List.Forall₂ Reservation.Released l l')
    (hf : ∀ r ∈ l, ∀ r', r.Released r' → f r' ≤ f r) : (l'.map f).sum ≤ (l.map f).sum := by
  induction h with
  | nil => exact le_rfl
  | cons hab _ ih =>
    have hhead := hf _ mem_cons_self _ hab
    have htail := ih fun r hr => hf r (mem_cons_of_mem _ hr)
    simp only [map_cons, sum_cons]
    omega

lemma exists_of_released (h : List.Forall₂ Reservation.Released l l') (hr' : r' ∈ l') :
    ∃ r ∈ l, r.Released r' := by
  induction h with
  | nil => cases hr'
  | cons hab _ ih =>
    rcases mem_cons.mp hr' with rfl | hmem
    · exact ⟨_, mem_cons_self, hab⟩
    · obtain ⟨r, hr, hrel⟩ := ih hmem
      exact ⟨r, mem_cons_of_mem _ hr, hrel⟩

lemma StockOk.of_same (h : StockSame d d' skuId locationId) (hok : StockOk d skuId locationId) :
    StockOk d' skuId locationId where
  nonneg r' hr' := by
    obtain ⟨r, hr, hrel⟩ := exists_of_released h.rows hr'
    rw [hrel.qty]
    exact hok.nonneg r hr
  pinned r' hr' hopen hspecific := by
    obtain ⟨r, hr, hrel⟩ := exists_of_released h.rows hr'
    have hpin : r.lotSpecific = true := by
      rw [hrel.1] at hspecific
      exact hspecific
    obtain ⟨x, hx, hid⟩ := hok.pinned r hr (hrel.2 hopen) hpin
    refine ⟨x, h.lots ▸ hx, ?_⟩
    rw [hrel.1]
    exact hid
  promised := by
    have hsum : d'.promised skuId locationId ≤ d.promised skuId locationId :=
      sum_le_of_released h.rows fun r hr r' hrel => hrel.owed_le (hok.nonneg r hr)
    exact (hsum.trans hok.promised).trans h.stock
  lots x hx := by
    rw [h.lots] at hx
    have hsum := sum_le_of_released h.rows (f := (·.owedOf x.id)) fun r hr r' hrel =>
      hrel.owedOf_le (hok.nonneg r hr) x.id
    rw [h.residual x]
    exact hsum.trans (hok.lots x hx)
  backed := by
    have hlots : d'.inLots skuId locationId = d.inLots skuId locationId := by
      rw [DocDb.inLots, DocDb.inLots, h.lots]
      exact congrArg List.sum (map_congr_left fun x _ => h.residual x)
    rw [hlots]
    exact hok.backed.trans h.stock

end Same

/-! ### Who guards it -/

namespace PromiseItem

variable (C : List Account)

def Same : PromiseItem → DocDb → DocDb → Prop
  | .stock skuId locationId, d, d' =>
    d.ledger.chart = C → d'.ledger.chart = C ∧ StockSame d d' skuId locationId
  | .number n, d, d' =>
    d'.ledger.posted (.random n) = d.ledger.posted (.random n) ∧
      d'.ledger.lots.countP (·.id == n) = d.ledger.lots.countP (·.id == n) ∧
      d'.ledger.lotEvents.countP (·.lotId == n) = d.ledger.lotEvents.countP (·.lotId == n)

def Ok : PromiseItem → DocDb → Prop
  | .stock skuId locationId, d => d.ledger.chart = C ∧ StockOk d skuId locationId
  | .number n, d => d.ledger.lots.countP (·.id == n) ≤ 1

def Touch : DocWrite → PromiseItem → Prop
  | .ledger (.debit _ amount), .stock _ _ => amount < 0
  | .ledger (.credit i _), .stock _ _ => ∃ a ∈ C, a.id = i ∧ a.kind = .stockAvailable
  | .ledger (.lot x), .stock skuId locationId => x.productId = skuId ∧ x.locationId = locationId
  | .ledger (.lotEvent _), .stock _ _ => True
  | .reservation r, .stock skuId locationId => r.skuId = skuId ∧ r.locationId = locationId
  | .setReservation _ _, .stock _ _ => True
  | .ledger (.line l), .number n => l.key = .random n
  | .ledger (.lot x), .number n => x.id = n
  | .ledger (.lotEvent e), .number n => e.lotId = n
  | _, _ => False

def LocksStock : Promising → Prop
  | .reserve _ | .receive _ => True
  | .allocate _ | .expire _ => False

def Owns (c : Promising) (H : Holds DocRow) : PromiseItem → Prop
  | .stock skuId locationId => LocksStock c ∧ ∃ a, C.find? (·.isStockOf skuId locationId) = some a ∧
      (.ledger (.account a.id), .update) ∈ H.locks
  | .number n => n ∈ H.drawn

def Together : Promising → Promising → Prop
  | .reserve _, .allocate _ | .allocate _, .reserve _ => False
  | _, _ => True

def Writes : Promising → DocWrite → Prop
  | .reserve _, .reservation r => r.status = .active
  | .allocate _, .header _ => True
  | .allocate _, .moveReservation _ st => st = .allocated
  | .expire _, .moveReservation _ st => st = .expired
  | .receive _, .header _ | .receive _, .receiptLine _ => True
  | .receive _, .ledger w => w.isLotEvent = false
  | _, _ => False

/-- While a call reserves, nothing it competes with becomes allocated, and no lot goes away. -/
def Stays : Promising → DocDb → DocDb → Prop
  | .reserve c, d, d' =>
    (d.NoneAllocated c.skuId c.locationId → d'.NoneAllocated c.skuId c.locationId) ∧
      d.ledger.lots ⊆ d'.ledger.lots
  | _, _, _ => True

/-- The number names a posted line or a lot. -/
def Used (d : DocDb) (n : ℕ) : Prop :=
  d.ledger.posted (.random n) = true ∨ 0 < d.ledger.lots.countP (·.id == n) ∨
    0 < d.ledger.lotEvents.countP (·.lotId == n)

/-! #### The laws -/

variable {C}

@[simp] lemma chart_docApply (w : DocWrite) (d : DocDb) :
    (docSchema.apply w d).ledger.chart = d.ledger.chart := by
  cases w with
  | ledger w => exact chart_apply w d.ledger
  | _ => rfl

lemma same_refl (r : PromiseItem) (d : DocDb) : Same C r d d := by
  cases r with
  | stock skuId locationId => exact fun h => ⟨h, .refl d skuId locationId⟩
  | number n => exact ⟨rfl, rfl, rfl⟩

lemma same_trans (r : PromiseItem) (d d' d'' : DocDb) (h : Same C r d d') (h' : Same C r d' d'') :
    Same C r d d'' := by
  cases r with
  | stock skuId locationId =>
    intro hchart
    obtain ⟨hchart', hsame⟩ := h hchart
    obtain ⟨hchart'', hsame'⟩ := h' hchart'
    exact ⟨hchart'', hsame.trans hsame'⟩
  | number n => exact ⟨h'.1.trans h.1, h'.2.1.trans h.2.1, h'.2.2.trans h.2.2⟩

lemma ok_of_same (r : PromiseItem) (d d' : DocDb) (h : Same C r d d') (hok : Ok C r d) :
    Ok C r d' := by
  cases r with
  | stock skuId locationId =>
    obtain ⟨hchart, hsame⟩ := h hok.1
    exact ⟨hchart, StockOk.of_same hsame hok.2⟩
  | number n =>
    show d'.ledger.lots.countP _ ≤ 1
    rw [h.2.1]
    exact hok

lemma stockDelta_of_untouched (h : ¬ Touch C (.ledger w) (.stock skuId locationId)) :
    0 ≤ stockDelta C w skuId locationId := by
  refine stockDelta_nonneg fun a ha => ?_
  obtain ⟨hmem, hstock⟩ := mem_filter.mp ha
  cases w with
  | debit i amount =>
    have hamount : 0 ≤ amount := not_lt.mp h
    simp only [Write.debitOf, Write.creditOf]
    split <;> omega
  | credit i amount =>
    have hne : i ≠ a.id := by
      rintro rfl
      refine h ⟨a, hmem, rfl, ?_⟩
      simp only [Account.isStockOf, Bool.and_eq_true, beq_iff_eq] at hstock
      exact hstock.1.1.1
    simp [Write.debitOf, Write.creditOf, hne]
  | _ => simp [Write.debitOf, Write.creditOf]

lemma stockSame_ledger (hchart : d.ledger.chart = C)
    (h : ¬ Touch C (.ledger w) (.stock skuId locationId)) :
    StockSame d (docSchema.apply (.ledger w) d) skuId locationId where
  lots := by
    rw [lotsAt_apply_ledger]
    cases w with
    | lot x =>
      have hx : ¬ (x.productId = skuId ∧ x.locationId = locationId) := h
      simp only [Write.lotsInto, Bool.and_eq_true, beq_iff_eq, if_neg hx, append_nil]
    | _ => exact append_nil _
  residual x := by
    refine lotResidual_apply ?_ d.ledger x
    cases w <;> first | rfl | exact absurd trivial h
  stock := by
    have hdelta := stockDelta_of_untouched h
    rw [onHand_apply_ledger hchart]
    omega
  rows := Reservation.forall₂_released _

lemma rows_move (d : DocDb) (i : ℕ) (st : ReservationStatus) (skuId locationId : ℕ) :
    List.Forall₂ Reservation.Released (d.rowsAt skuId locationId)
      ((docSchema.apply (.moveReservation i st) d).rowsAt skuId locationId) := by
  have hrel : ∀ r : Reservation, r.Released (if r.id = i then r.moved st else r) := by
    intro r
    split
    · exact r.released_moved st
    · exact r.released_refl
  show List.Forall₂ _ (d.reservations.filter _)
    ((d.reservations.map fun r => if r.id = i then r.moved st else r).filter _)
  have hcomp : (fun r => Reservation.isAt skuId locationId r) ∘
      (fun r : Reservation => if r.id = i then r.moved st else r) =
        fun r => Reservation.isAt skuId locationId r :=
    funext fun r => (hrel r).isAt skuId locationId
  rw [List.filter_map, hcomp, forall₂_map_right_iff]
  exact forall₂_same.mpr fun r _ => hrel r

lemma same_frame (w : DocWrite) (r : PromiseItem) (d : DocDb) (h : ¬ Touch C w r) :
    Same C r d (docSchema.apply w d) := by
  cases r with
  | stock skuId locationId =>
    intro hchart
    refine ⟨(chart_docApply w d).trans hchart, ?_⟩
    cases w with
    | ledger w => exact stockSame_ledger hchart h
    | reservation r =>
      have hr : ¬ (r.skuId = skuId ∧ r.locationId = locationId) := h
      refine ⟨rfl, fun _ => rfl, le_rfl, ?_⟩
      show List.Forall₂ _ (d.reservations.filter _) ((d.reservations ++ [r]).filter _)
      have hat : r.isAt skuId locationId = false := by simpa [Reservation.isAt] using hr
      rw [filter_append, filter_singleton, hat, cond_false, append_nil]
      exact Reservation.forall₂_released _
    | setReservation i st => exact absurd trivial h
    | moveReservation i st => exact ⟨rfl, fun _ => rfl, le_rfl, rows_move d i st skuId locationId⟩
    | _ => exact ⟨rfl, fun _ => rfl, le_rfl, Reservation.forall₂_released _⟩
  | number n =>
    cases w with
    | ledger w =>
      cases w with
      | line l =>
        have hkey : ¬ l.key = .random n := h
        refine ⟨?_, rfl, rfl⟩
        simp [docSchema, DocWrite.apply, Write.apply, Db.posted, hkey]
      | lot x =>
        have hid : ¬ x.id = n := h
        refine ⟨rfl, ?_, rfl⟩
        simp [docSchema, DocWrite.apply, Write.apply, countP_append, hid]
      | lotEvent e =>
        have hid : ¬ e.lotId = n := h
        refine ⟨rfl, rfl, ?_⟩
        simp [docSchema, DocWrite.apply, Write.apply, countP_append, hid]
      | _ => exact ⟨rfl, rfl, rfl⟩
    | _ => exact ⟨rfl, rfl, rfl⟩

lemma same_apply (c : Promising) (H : Holds DocRow) (w : DocWrite) (r : PromiseItem)
    (d d' : DocDb) (hw : Writes c w) (hown : Owns C c H r) (h : Same C r d d') :
    Same C r (docSchema.apply w d) (docSchema.apply w d') := by
  cases r with
  | stock skuId locationId =>
    intro hchart
    rw [chart_docApply] at hchart
    obtain ⟨hchart', hsame⟩ := h hchart
    refine ⟨(chart_docApply w d').trans hchart', ?_⟩
    cases w with
    | ledger w =>
      have hevent : w.isLotEvent = false := by
        cases c with
        | receive c => exact hw
        | _ => exact hw.elim
      refine ⟨?_, fun x => ?_, ?_, hsame.rows⟩
      · rw [lotsAt_apply_ledger, lotsAt_apply_ledger, hsame.lots]
      · show (w.apply d'.ledger).lotResidual x = (w.apply d.ledger).lotResidual x
        rw [lotResidual_apply hevent, lotResidual_apply hevent]
        exact hsame.residual x
      · have hstock := hsame.stock
        rw [onHand_apply_ledger hchart, onHand_apply_ledger hchart']
        omega
    | reservation r =>
      refine ⟨hsame.lots, hsame.residual, hsame.stock, ?_⟩
      show List.Forall₂ _ ((d.reservations ++ [r]).filter _) ((d'.reservations ++ [r]).filter _)
      rw [filter_append, filter_append]
      exact rel_append hsame.rows (Reservation.forall₂_released _)
    | setReservation i st => cases c <;> exact hw.elim
    | moveReservation i st =>
      -- who moves a reservation does not lock the stock
      cases c with
      | allocate c | expire now => exact hown.1.elim
      | _ => exact hw.elim
    | _ => exact ⟨hsame.lots, hsame.residual, hsame.stock, hsame.rows⟩
  | number n =>
    obtain ⟨hposted, hlots, hevents⟩ := h
    cases w with
    | ledger w =>
      cases w with
      | line l =>
        refine ⟨?_, hlots, hevents⟩
        simp only [docSchema, DocWrite.apply, Write.apply, Db.posted, any_append] at hposted ⊢
        rw [hposted]
      | lot x =>
        refine ⟨hposted, ?_, hevents⟩
        simp only [docSchema, DocWrite.apply, Write.apply, countP_append, hlots]
      | lotEvent e =>
        refine ⟨hposted, hlots, ?_⟩
        simp only [docSchema, DocWrite.apply, Write.apply, countP_append, hevents]
      | _ => exact ⟨hposted, hlots, hevents⟩
    | _ => exact ⟨hposted, hlots, hevents⟩

lemma owns_exclusive (c c' : Promising) (H H' : Holds DocRow) (r : PromiseItem)
    (hapart : H.Apart H') (h : Owns C c H r) : ¬ Owns C c' H' r := by
  cases r with
  | stock skuId locationId =>
    rintro ⟨-, a', ha', hlock'⟩
    obtain ⟨-, a, ha, hlock⟩ := h
    rw [ha'] at ha
    cases ha
    exact hapart.locks.not_mem hlock rfl hlock'
  | number n => exact hapart.drawn n h

lemma noneAllocated_apply {w : DocWrite}
    (hreservation : ∀ r, w = .reservation r → r.status = .active)
    (hset : ∀ i st, w ≠ .setReservation i st)
    (hmove : ∀ i st, w = .moveReservation i st → st = .expired)
    (h : d.NoneAllocated skuId locationId) :
    (docSchema.apply w d).NoneAllocated skuId locationId := by
  intro r hr
  obtain ⟨hmem, hat⟩ := mem_filter.mp hr
  have hold : r ∈ d.reservations → r.status ≠ .allocated := fun hd =>
    h r (mem_filter.mpr ⟨hd, hat⟩)
  cases w with
  | reservation r0 =>
    rcases mem_append.mp hmem with hd | hnew
    · exact hold hd
    · rw [mem_singleton.mp hnew, hreservation r0 rfl]
      decide
  | setReservation i st => exact absurd rfl (hset i st)
  | moveReservation i st =>
    obtain ⟨r0, hr0, rfl⟩ := List.mem_map.mp hmem
    have hrel : r0.isAt skuId locationId = true := by
      rw [← hat]
      split
      · exact ((r0.released_moved st).isAt skuId locationId).symm
      · rfl
    have hstatus := h r0 (mem_filter.mpr ⟨hr0, hrel⟩)
    split
    · rw [hmove i st rfl]
      exact Reservation.not_allocated_of_expired hstatus
    · exact hstatus
  | _ => exact hold hmem

lemma lots_subset (w : DocWrite) (d : DocDb) :
    d.ledger.lots ⊆ (docSchema.apply w d).ledger.lots := by
  cases w with
  | ledger w =>
    cases w with
    | lot x => exact subset_append_left _ _
    | _ => exact List.Subset.refl _
  | _ => exact List.Subset.refl _

lemma stays_write (c c' : Promising) (w : DocWrite) (d : DocDb)
    (hc : c' = c ∨ Together c c') (hw : Writes c' w) : Stays c d (docSchema.apply w d) := by
  cases c with
  | reserve c =>
    refine ⟨noneAllocated_apply ?_ ?_ ?_, lots_subset w d⟩
    · rintro r rfl
      cases c' with
      | reserve c' => exact hw
      | _ => exact hw.elim
    · rintro i st rfl
      cases c' <;> exact hw.elim
    · rintro i st rfl
      cases c' with
      | allocate c' => exact (hc.elim nofun id).elim
      | expire now => exact hw
      | _ => exact hw.elim
  | _ => trivial

lemma stays_apply (c : Promising) (w : DocWrite) (d d' : DocDb) (hw : Writes c w)
    (h : Stays c d d') : Stays c (docSchema.apply w d) (docSchema.apply w d') := by
  cases c with
  | reserve c =>
    cases w with
    | reservation r =>
      refine ⟨fun hnone => ?_, h.2⟩
      refine noneAllocated_apply ?_ (fun i st => by simp) (fun i st => by simp) (h.1 ?_)
      · rintro r' hr'
        cases hr'
        exact hw
      · intro r' hr'
        obtain ⟨hmem, hat⟩ := mem_filter.mp hr'
        exact hnone r' (mem_filter.mpr ⟨mem_append_left _ hmem, hat⟩)
    | _ => exact hw.elim
  | _ => trivial

lemma used_apply (w : DocWrite) (n : ℕ) (d : DocDb) (h : Used (docSchema.apply w d) n) :
    Used d n ∨ ∃ r, Touch C w r ∧ ∀ c H, Owns C c H r → n ∈ H.drawn := by
  by_cases ht : Touch C w (.number n)
  · exact .inr ⟨.number n, ht, fun _ _ hown => hown⟩
  · obtain ⟨hposted, hlots, hevents⟩ := same_frame w (.number n) d ht
    rw [Used, hposted, hlots, hevents] at h
    exact .inl h

end PromiseItem

def promises (C : List Account) : Owned docSchema Promising PromiseItem where
  same := PromiseItem.Same C
  ok := PromiseItem.Ok C
  touch := PromiseItem.Touch C
  owns := PromiseItem.Owns C
  together := PromiseItem.Together
  writes := PromiseItem.Writes
  stays := PromiseItem.Stays
  used := PromiseItem.Used
  refl := PromiseItem.same_refl
  trans := PromiseItem.same_trans
  ok_of_same := PromiseItem.ok_of_same
  apply := PromiseItem.same_apply
  frame := PromiseItem.same_frame
  owns_lock c H ls r h := by
    cases r with
    | stock skuId locationId =>
      obtain ⟨hc, a, ha, hlock⟩ := h
      exact ⟨hc, a, ha, mem_append_right ls hlock⟩
    | number n => exact h
  owns_draw c H n r h := by
    cases r with
    | stock skuId locationId => exact h
    | number m => exact mem_cons_of_mem n h
  exclusive c c' H H' r _ := PromiseItem.owns_exclusive c c' H H' r
  stays_refl c d := by
    cases c with
    | reserve c => exact ⟨id, List.Subset.refl _⟩
    | _ => trivial
  stays_trans c d d' d'' h h' := by
    cases c with
    | reserve c => exact ⟨fun hnone => h'.1 (h.1 hnone), List.Subset.trans h.2 h'.2⟩
    | _ => trivial
  stays_apply := PromiseItem.stays_apply
  stays_write := PromiseItem.stays_write
  used_apply := PromiseItem.used_apply

end Acct.Main
