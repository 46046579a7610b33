import Acct.Main.Equiv.Fulfilment
import Acct.Main.Equiv.Receiving

/-!
# Reservations do not over-promise

A reservation is checked against the active ones only, although those that are allocated are still
owed: once an order is allocated, what it was promised can be promised again. As long as nothing is
reserved where a reservation is allocated, and reserving and allocating do not overlap, what is owed
stays within the stock and the lots.
-/

namespace Acct.Main

open Isolation Machine Owned List

def Promising.prog : Promising → DocTx (Option ℕ)
  | .reserve c => reserveInventory c
  | .allocate c => do
    let id ← postSoAllocate c
    return some id
  | .expire now => do
    expireReservations now
    return none
  | .receive c => do
    let id ← postPoReceipt c
    return some id

/-- `SUM(qty)` of what is owed of a lot, active or allocated. -/
def DocDb.pinnedTo (d : DocDb) (lotId : ℕ) : ℤ := (d.reservations.map (·.owedOf lotId)).sum

/-- What is owed is in stock, and what is owed of a lot is in the lot. -/
def NotOverPromised (d : DocDb) : Prop :=
  (∀ skuId locationId, d.promised skuId locationId ≤ d.onHand skuId locationId) ∧
    ∀ x ∈ d.ledger.lots, d.pinnedTo x.id ≤ d.ledger.lotResidual x

/-- What the tables' own constraints and the receipts see to: distinct ids, positive quantities,
pins to lots of the same product and location, and lots that the stock account covers. -/
structure WellKept (d : DocDb) : Prop where
  accounts : (d.ledger.accounts.map (·.id)).Nodup
  lots : (d.ledger.lots.map (·.id)).Nodup
  qty : ∀ r ∈ d.reservations, 0 < r.qty
  pinned : ∀ r ∈ d.reservations, r.isOpen = true → r.lotSpecific = true →
    ∃ x ∈ d.lotsAt r.skuId r.locationId, r.lotId = some x.id
  backed : ∀ skuId locationId, d.inLots skuId locationId ≤ d.onHand skuId locationId

/-- Nothing is reserved beside an allocated reservation, nor while an order is being allocated. -/
def PromisesApart (s : State DocDb DocWrite DocRow DocErr (Option ℕ) Promising) :
    Move Promising → Prop
  | .start (.reserve c) => s.db.NoneAllocated c.skuId c.locationId ∧
      ∀ u ∈ s.sessions, u.status = .running → PromiseItem.Together u.call (.reserve c)
  | .start (.allocate c) =>
      ∀ u ∈ s.sessions, u.status = .running → PromiseItem.Together u.call (.allocate c)
  | _ => True

instance : (c c' : Promising) → Decidable (PromiseItem.Together c c')
  | .reserve _, .allocate _ | .allocate _, .reserve _ => inferInstanceAs (Decidable False)
  | .reserve _, .reserve _ | .reserve _, .expire _ | .reserve _, .receive _
  | .allocate _, .allocate _ | .allocate _, .expire _ | .allocate _, .receive _
  | .expire _, _ | .receive _, _ => inferInstanceAs (Decidable True)

instance (s : State DocDb DocWrite DocRow DocErr (Option ℕ) Promising) :
    DecidablePred (PromisesApart s)
  | .start (.reserve c) => inferInstanceAs (Decidable (s.db.NoneAllocated c.skuId c.locationId ∧
      ∀ u ∈ s.sessions, u.status = .running → PromiseItem.Together u.call (.reserve c)))
  | .start (.allocate c) => inferInstanceAs (Decidable
      (∀ u ∈ s.sessions, u.status = .running → PromiseItem.Together u.call (.allocate c)))
  | .start (.expire _) | .start (.receive _) | .step _ | .abort _ =>
    inferInstanceAs (Decidable True)

lemma PromiseItem.Together.symm {c c' : Promising} (h : Together c c') : Together c' c := by
  cases c <;> cases c' <;> exact h

section Bounds

variable {d : DocDb}

lemma countP_id_le_one (h : (d.ledger.lots.map (·.id)).Nodup) (n : ℕ) :
    d.ledger.lots.countP (·.id == n) ≤ 1 := by
  have hcount := nodup_iff_count_le_one.mp h n
  rwa [List.count, countP_map] at hcount

lemma pinnedTo_eq {x : Lot}
    (hunique : ∀ y ∈ d.ledger.lots, y.id = x.id → y = x)
    (hpinned : ∀ r ∈ d.reservations, r.isOpen = true → r.lotSpecific = true →
      ∃ y ∈ d.lotsAt r.skuId r.locationId, r.lotId = some y.id) :
    d.pinnedTo x.id = ((d.rowsAt x.productId x.locationId).map (·.owedOf x.id)).sum := by
  have helse : ∀ l : List Reservation, (∀ r ∈ l, r ∈ d.reservations) →
      (l.map (·.owedOf x.id)).sum =
        ((l.filter (·.isAt x.productId x.locationId)).map (·.owedOf x.id)).sum := by
    intro l hl
    induction l with
    | nil => rfl
    | cons r l ih =>
      have hrest := ih fun r hr => hl r (mem_cons_of_mem _ hr)
      rw [filter_cons]
      split
      next => simp only [map_cons, sum_cons, hrest]
      next hat =>
        -- an open pin elsewhere names a lot elsewhere, which has another id
        have hzero : r.owedOf x.id = 0 := by
          unfold Reservation.owedOf
          split
          next hpin =>
            simp only [Bool.and_eq_true, beq_iff_eq] at hpin
            obtain ⟨y, hy, hid⟩ := hpinned r (hl r mem_cons_self) hpin.1 hpin.2.1
            obtain ⟨hmem, hplace⟩ := mem_filter.mp hy
            have hyx : y = x := hunique y hmem (Option.some.inj (hid.symm.trans hpin.2.2))
            rw [hyx] at hplace
            simp only [Bool.and_eq_true, beq_iff_eq] at hplace
            refine absurd ?_ hat
            simp [Reservation.isAt, hplace]
          next => rfl
        rw [map_cons, sum_cons, hzero, hrest, zero_add]
  exact helse d.reservations fun _ hr => hr

lemma allOk_iff (h : WellKept d) : AllOk d.ledger.chart d ↔ NotOverPromised d := by
  have hunique : ∀ x ∈ d.ledger.lots, ∀ y ∈ d.ledger.lots, y.id = x.id → y = x :=
    fun x hx y hy hid => inj_on_of_nodup_map h.lots hy hx hid
  have hlots : ∀ x ∈ d.ledger.lots,
      d.pinnedTo x.id = ((d.rowsAt x.productId x.locationId).map (·.owedOf x.id)).sum :=
    fun x hx => pinnedTo_eq (hunique x hx) h.pinned
  constructor
  · intro hok
    refine ⟨fun s l => (hok.stock s l).promised, fun x hx => ?_⟩
    rw [hlots x hx]
    exact (hok.stock x.productId x.locationId).lots x (mem_filter.mpr ⟨hx, by simp⟩)
  · rintro ⟨hpromised, hpinned⟩ (⟨s, l⟩ | n)
    · refine ⟨rfl, fun r hr => ?_, fun r hr hopen hspecific => ?_, hpromised s l, fun x hx => ?_,
        h.backed s l⟩
      · exact (h.qty r (mem_filter.mp hr).1).le
      · obtain ⟨hmem, hat⟩ := mem_filter.mp hr
        simp only [Reservation.isAt, Bool.and_eq_true, beq_iff_eq] at hat
        obtain ⟨x, hx, hid⟩ := h.pinned r hmem hopen hspecific
        rw [hat.1, hat.2] at hx
        exact ⟨x, hx, hid⟩
      · obtain ⟨hmem, hplace⟩ := mem_filter.mp hx
        simp only [Bool.and_eq_true, beq_iff_eq] at hplace
        have hbound := hpinned x hmem
        rw [hlots x hmem, hplace.1, hplace.2] at hbound
        exact hbound
    · exact countP_id_le_one h.lots n

lemma AllOk.notOverPromised {C : List Account} (h : AllOk C d) : NotOverPromised d := by
  have hpinned : ∀ r ∈ d.reservations, r.isOpen = true → r.lotSpecific = true →
      ∃ y ∈ d.lotsAt r.skuId r.locationId, r.lotId = some y.id := by
    intro r hr hopen hspecific
    exact (h.stock r.skuId r.locationId).pinned r
      (mem_filter.mpr ⟨hr, by simp [Reservation.isAt]⟩) hopen hspecific
  refine ⟨fun s l => (h.stock s l).promised, fun x hx => ?_⟩
  rw [pinnedTo_eq (fun y hy hid => h.lot_unique hx hy hid) hpinned]
  exact (h.stock x.productId x.locationId).lots x (mem_filter.mpr ⟨hx, by simp⟩)

end Bounds

/-- In every run in which nothing is reserved beside an allocated reservation, and in which
reserving and allocating do not overlap, no committed database is over-promised. -/
theorem notOverPromised_of_apart (db : DocDb) (seq : ℕ) (hkept : WellKept db)
    (h : NotOverPromised db) (hseq : ∀ n, seq ≤ n → ¬ PromiseItem.Used db n)
    (ms : List (Move Promising))
    (hms : Throughout (State.exec? docSchema Promising.prog) PromisesApart { db, seq } ms) :
    NotOverPromised (run (State.exec? docSchema Promising.prog) { db, seq } ms).db := by
  have hC : (db.ledger.chart.map (·.id)).Nodup := by
    rw [Db.chart, List.map_map]
    exact hkept.accounts
  have hok : AllOk db.ledger.chart
      (run (State.exec? docSchema Promising.prog) { db, seq } ms).db := by
    refine run_ok ?_ ?_ ((allOk_iff hkept).mpr h) hseq ms hms
    · intro s c hc hall
      cases c with
      | reserve c => exact safe_reserveInventory ⟨hall, hc.1⟩
      | allocate c => exact (safe_postSoAllocate c).bind fun _ _ _ _ _ => trivial
      | expire now =>
        exact (safe_expireReservations now).bind fun _ _ _ _ _ => trivial
      | receive c =>
        exact (safe_gatherReceipt hC hall).bind fun _ _ _ _ _ => trivial
    · intro s c hc u hu hrun
      have htogether : PromiseItem.Together u.call c := by
        cases c with
        | reserve c => exact hc.2 u hu hrun
        | allocate c => exact hc u hu hrun
        | _ => cases u.call <;> trivial
      exact ⟨htogether, htogether.symm⟩
  exact hok.notOverPromised

/-! ### Promising the same stock twice -/

lemma wellKept_of_empty {d : DocDb} (hids : (d.ledger.accounts.map (·.id)).Nodup)
    (hlots : d.ledger.lots = []) (hrows : d.reservations = [])
    (hbalance : ∀ a ∈ d.ledger.accounts, 0 ≤ a.balance) : WellKept d ∧ NotOverPromised d := by
  have hstock : ∀ s l, 0 ≤ d.onHand s l := by
    intro s l
    refine sum_nonneg fun x hx => ?_
    obtain ⟨a, ha, rfl⟩ := List.mem_map.mp hx
    exact hbalance a (mem_filter.mp ha).1
  refine ⟨⟨hids, ?_, ?_, ?_, fun s l => ?_⟩, fun s l => ?_, ?_⟩
  · rw [hlots]
    exact nodup_nil
  · simp [hrows]
  · simp [hrows]
  · have hzero : d.inLots s l = 0 := by simp [DocDb.inLots, DocDb.lotsAt, hlots]
    rw [hzero]
    exact hstock s l
  · have hzero : d.promised s l = 0 := by simp [DocDb.promised, DocDb.rowsAt, hrows]
    rw [hzero]
    exact hstock s l
  · simp [hlots]

def stockroomDb : DocDb where
  ledger := {
    skus := [{ id := 1, costMethod := .lotFifo }]
    periods := [⟨1, 0, 30, false⟩]
    accounts := [
      { id := 1, kind := .stockAvailable, ledger := .qty, skuId := some 1, locationId := some 1 },
      { id := 2, kind := .invValueRaw, ledger := .value 0, skuId := some 1, locationId := some 1 },
      { id := 3, kind := .vendorPool, ledger := .qty, counterpartyId := some 9 },
      { id := 4, kind := .apUnsettled, ledger := .value 0, counterpartyId := some 9 }] }
  purchaseOrders := [⟨1, some 9⟩]
  poLines := [⟨1, 1, 1, 1, 5, 8, 0⟩]
  salesOrders := [⟨1, some 7⟩]

def receiveFive : Promising :=
  .receive { poId := 1
             lines := [{ poLineId := 1, qtyReceived := some 5, lotCode := some "A" }]
             businessDate := 1, key := 1 }

def reserveSome (qty : ℤ) (lotId : Option ℕ) : Promising :=
  .reserve { skuId := 1, locationId := 1, qty, soId := 1, soLineId := 1, expiresAt := 5, lotId
             lotSpecific := lotId.isSome }

def successivePromises : List (Move Promising) :=
  .start receiveFive :: List.replicate 60 (.step 0) ++
    [.start (reserveSome 3 (some 7)), .start (reserveSome 4 none)] ++
    List.replicate 20 (.step 1) ++ List.replicate 20 (.step 2) ++
    .start (.allocate ⟨1, 1, 1⟩) :: List.replicate 20 (.step 3)

def repeatedPromises : List (Move Promising) :=
  .start (reserveSome 9 none) :: List.replicate 20 (.step 0) ++
    .start (.allocate ⟨1, 1, 1⟩) :: List.replicate 20 (.step 1) ++
    .start (reserveSome 9 none) :: List.replicate 20 (.step 2)

lemma wellKept_stockroomDb : WellKept stockroomDb ∧ NotOverPromised stockroomDb :=
  wellKept_of_empty (by decide) rfl rfl (by decide)

lemma unused_stockroomDb (n : ℕ) : ¬ PromiseItem.Used stockroomDb n := by
  simp [PromiseItem.Used, stockroomDb, Db.posted]

/-- Three pieces of the lot of five are promised; four more are refused. -/
theorem notOverPromised_successivePromises :
    NotOverPromised (run (State.exec? docSchema Promising.prog) { db := stockroomDb }
      successivePromises).db ∧
    (run (State.exec? docSchema Promising.prog) { db := stockroomDb }
      successivePromises).db.onHand 1 1 = 5 ∧
    (run (State.exec? docSchema Promising.prog) { db := stockroomDb }
      successivePromises).db.pinnedTo 7 = 3 :=
  ⟨notOverPromised_of_apart stockroomDb 0 wellKept_stockroomDb.1 wellKept_stockroomDb.2
    (fun n _ => unused_stockroomDb n) successivePromises (by decide +kernel), by decide +kernel,
    by decide +kernel⟩

/-- After an allocation the nine pieces in stock are promised a second time. -/
theorem repeatedPromises_overPromise :
    WellKept shopDb ∧ NotOverPromised shopDb ∧
    (run (State.exec? docSchema Promising.prog) { db := shopDb } repeatedPromises).db.onHand 1 1 =
      9 ∧
    (run (State.exec? docSchema Promising.prog) { db := shopDb } repeatedPromises).db.promised 1 1
      = 18 ∧
    ¬ NotOverPromised
      (run (State.exec? docSchema Promising.prog) { db := shopDb } repeatedPromises).db := by
  have hkept : WellKept shopDb ∧ NotOverPromised shopDb :=
    wellKept_of_empty (by decide) rfl rfl (by decide)
  have hstock : (run (State.exec? docSchema Promising.prog) { db := shopDb }
      repeatedPromises).db.onHand 1 1 = 9 := by decide +kernel
  have howed : (run (State.exec? docSchema Promising.prog) { db := shopDb }
      repeatedPromises).db.promised 1 1 = 18 := by decide +kernel
  refine ⟨hkept.1, hkept.2, hstock, howed, fun h => ?_⟩
  have hle := h.1 1 1
  rw [hstock, howed] at hle
  exact absurd hle (by decide)

end Acct.Main
