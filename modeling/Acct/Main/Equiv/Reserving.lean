import Acct.Main.Equiv.Promises

/-!
# Reserving keeps the bounds

`reserve_inventory` reads what it may promise under the lock of the stock account. What it subtracts
are the active reservations only: it keeps the bounds as long as none of its competitors is
allocated. `post_so_allocate` and the expiry job only move reservations out of `active`.
-/

namespace Acct.Main

open Isolation Owned List

variable {c : ReserveInventory} {d v : DocDb} {C : List Account} {ws : List DocWrite}
  {H : Holds DocRow} {lots : List Lot} {skuId locationId lotId : ℕ} {r : Reservation} {x : Lot}
  {p : ℤ}

/-! ### Sums of promises -/

lemma owed_le_of_pinned (hq : 0 ≤ r.qty)
    (h : r.isOpen = true → r.lotSpecific = true → ∃ x ∈ lots, r.lotId = some x.id) :
    r.owed ≤ r.owedFree + (lots.map fun x => r.owedOf x.id).sum := by
  have hnonneg : ∀ y ∈ lots.map fun x => r.owedOf x.id, 0 ≤ y := by
    intro y hy
    obtain ⟨x, -, rfl⟩ := List.mem_map.mp hy
    unfold Reservation.owedOf
    split <;> omega
  have hsum := sum_nonneg hnonneg
  by_cases hopen : r.isOpen = true
  · by_cases hpin : r.lotSpecific = true
    · obtain ⟨x, hx, hid⟩ := h hopen hpin
      have hterm : r.owedOf x.id = r.qty := by simp [Reservation.owedOf, hopen, hpin, hid]
      have hle := single_le_sum hnonneg _ (List.mem_map_of_mem hx)
      simp only [hterm] at hle
      simpa [Reservation.owed, Reservation.owedFree, hopen, hpin] using hle
    · simpa [Reservation.owed, Reservation.owedFree, hopen, hpin] using hsum
  · simpa [Reservation.owed, Reservation.owedFree, hopen] using hsum

lemma sum_owed_le {rows : List Reservation} (hq : ∀ r ∈ rows, 0 ≤ r.qty)
    (h : ∀ r ∈ rows, r.isOpen = true → r.lotSpecific = true → ∃ x ∈ lots, r.lotId = some x.id) :
    (rows.map (·.owed)).sum ≤ (rows.map (·.owedFree)).sum +
      (lots.map fun x => (rows.map (·.owedOf x.id)).sum).sum := by
  induction rows with
  | nil => simp
  | cons r rows ih =>
    have hhead := owed_le_of_pinned (hq r mem_cons_self) (h r mem_cons_self)
    have htail := ih (fun r hr => hq r (mem_cons_of_mem _ hr))
      fun r hr => h r (mem_cons_of_mem _ hr)
    simp only [map_cons, sum_cons, sum_map_add]
    omega

lemma sum_le_of_better {l : List Lot} {f g : Lot → ℤ} (h : ∀ x ∈ l, f x ≤ g x) (hx : x ∈ l) {k : ℤ}
    (hk : k + f x ≤ g x) : k + (l.map f).sum ≤ (l.map g).sum := by
  induction l with
  | nil => cases hx
  | cons y l ih =>
    have hrest : ∀ z ∈ l, f z ≤ g z := fun z hz => h z (mem_cons_of_mem _ hz)
    have hy := h y mem_cons_self
    simp only [map_cons, sum_cons]
    rcases mem_cons.mp hx with rfl | hmem
    · have hsum : (l.map f).sum ≤ (l.map g).sum := sum_le_sum hrest
      omega
    · have hsum := ih hrest hmem
      omega

lemma isOpen_eq_active (h : r.status ≠ .allocated) :
    r.isOpen = (r.status == .active) := by
  cases hst : r.status <;> simp_all [Reservation.isOpen]

lemma sum_filter_eq {p : Reservation → Bool} {f : Reservation → ℤ} {l : List Reservation}
    (h : ∀ r ∈ l, f r = if p r then r.qty else 0) :
    ((l.filter p).map (·.qty)).sum = (l.map f).sum := by
  rw [map_congr_left h, sum_map_ite]
  simp

lemma reserved_eq_promised (h : d.NoneAllocated skuId locationId) :
    d.reserved skuId locationId = d.promised skuId locationId := by
  have hrows : d.reservations.filter (fun r => r.isAt skuId locationId && r.status == .active) =
      (d.rowsAt skuId locationId).filter (·.status == .active) := by
    rw [DocDb.rowsAt, List.filter_filter]
    exact filter_congr fun r _ => Bool.and_comm _ _
  rw [DocDb.reserved, hrows, DocDb.promised]
  refine sum_filter_eq fun r hr => ?_
  rw [Reservation.owed, isOpen_eq_active (h r hr)]

lemma reservedBeside_eq (h : d.NoneAllocated skuId locationId) (lotId : ℕ) :
    d.reservedBeside skuId locationId lotId =
      ((d.rowsAt skuId locationId).map fun r => r.owedOf lotId + r.owedFree).sum := by
  have hrows : d.reservations.filter (fun r => (r.isAt skuId locationId && r.status == .active) &&
        ((r.lotSpecific && r.lotId == some lotId) || !r.lotSpecific)) =
      (d.rowsAt skuId locationId).filter fun r => r.status == .active &&
        ((r.lotSpecific && r.lotId == some lotId) || !r.lotSpecific) := by
    rw [DocDb.rowsAt, List.filter_filter]
    refine filter_congr fun r _ => ?_
    rw [Bool.and_assoc, Bool.and_comm (r.isAt skuId locationId)]
  rw [DocDb.reservedBeside, hrows]
  refine sum_filter_eq fun r hr => ?_
  rw [Reservation.owedOf, Reservation.owedFree, isOpen_eq_active (h r hr)]
  cases r.status == .active <;> cases r.lotSpecific <;> cases r.lotId == some lotId <;> simp

/-! ### What a reservation may promise -/

/-- `p` more may be promised to the call. -/
structure Promisable (c : ReserveInventory) (p : ℤ) (d : DocDb) : Prop where
  stock : p + d.promised c.skuId c.locationId ≤ d.onHand c.skuId c.locationId
  lot : c.lotSpecific = true → ∃ lotId, c.lotId = some lotId ∧
    (∃ x ∈ d.lotsAt c.skuId c.locationId, x.id = lotId) ∧
    ∀ x ∈ d.lotsAt c.skuId c.locationId, x.id = lotId →
      p + ((d.rowsAt c.skuId c.locationId).map (·.owedOf lotId)).sum ≤ d.ledger.lotResidual x

lemma Promisable.of_same {d' : DocDb} (hok : StockOk d c.skuId c.locationId)
    (h : StockSame d d' c.skuId c.locationId) (hp : Promisable c p d) : Promisable c p d' where
  stock := by
    have hsum : d'.promised c.skuId c.locationId ≤ d.promised c.skuId c.locationId :=
      sum_le_of_released h.rows fun r hr r' hrel => hrel.owed_le (hok.nonneg r hr)
    have hp := hp.stock
    have hstock := h.stock
    omega
  lot hpin := by
    obtain ⟨lotId, hlot, hex, hall⟩ := hp.lot hpin
    refine ⟨lotId, hlot, h.lots ▸ hex, fun x hx hid => ?_⟩
    rw [h.lots] at hx
    have hsum := sum_le_of_released h.rows (f := (·.owedOf lotId)) fun r hr r' hrel =>
      hrel.owedOf_le (hok.nonneg r hr) lotId
    have hx := hall x hx hid
    rw [h.residual x]
    omega

lemma promisable_stock (hpin : c.lotSpecific = false)
    (hnone : d.NoneAllocated c.skuId c.locationId) :
    Promisable c (d.onHand c.skuId c.locationId - d.reserved c.skuId c.locationId) d where
  stock := by
    rw [reserved_eq_promised hnone]
    omega
  lot h := by
    rw [hpin] at h
    cases h

lemma promisable_lot (hlot : c.lotId = some lotId) (hok : StockOk d c.skuId c.locationId)
    (hnone : d.NoneAllocated c.skuId c.locationId) (hx : x ∈ d.lotsAt c.skuId c.locationId)
    (hid : x.id = lotId) (hunique : ∀ y ∈ d.lotsAt c.skuId c.locationId, y.id = lotId → y = x) :
    Promisable c (d.ledger.lotResidual x - d.reservedBeside c.skuId c.locationId lotId) d := by
  have hfree : 0 ≤ ((d.rowsAt c.skuId c.locationId).map (·.owedFree)).sum := by
    refine sum_nonneg fun y hy => ?_
    obtain ⟨r, hr, rfl⟩ := List.mem_map.mp hy
    have hq := hok.nonneg r hr
    unfold Reservation.owedFree
    split <;> omega
  have hbeside : d.reservedBeside c.skuId c.locationId lotId =
      ((d.rowsAt c.skuId c.locationId).map (·.owedOf lotId)).sum +
        ((d.rowsAt c.skuId c.locationId).map (·.owedFree)).sum :=
    (reservedBeside_eq hnone lotId).trans sum_map_add
  rw [hbeside]
  refine ⟨?_, fun _ => ⟨lotId, hlot, ⟨x, hx, hid⟩, fun y hy hyid => ?_⟩⟩
  · have howed := sum_owed_le hok.nonneg hok.pinned
    have hbetter := sum_le_of_better hok.lots hx
      (k := d.ledger.lotResidual x - ((d.rowsAt c.skuId c.locationId).map (·.owedOf lotId)).sum)
      (by rw [hid]; omega)
    have hbacked := hok.backed
    rw [DocDb.inLots] at hbacked
    rw [DocDb.promised]
    omega
  · rw [hunique y hy hyid]
    omega

lemma owed_row (c : ReserveInventory) (id : ℕ) : (c.row id).owed = c.qty := rfl

lemma owedOf_row (c : ReserveInventory) (id lotId : ℕ) :
    (c.row id).owedOf lotId = if c.lotSpecific && c.lotId == some lotId then c.qty else 0 := rfl

lemma StockOk.reserve (hok : StockOk d c.skuId c.locationId) (hp : Promisable c p d)
    (hqty : 0 < c.qty) (hle : c.qty ≤ p) (id : ℕ) :
    StockOk (docSchema.apply (.reservation (c.row id)) d) c.skuId c.locationId := by
  have hrows : (docSchema.apply (.reservation (c.row id)) d).rowsAt c.skuId c.locationId =
      d.rowsAt c.skuId c.locationId ++ [c.row id] := by
    show (d.reservations ++ [c.row id]).filter _ = _
    have hat : (c.row id).isAt c.skuId c.locationId = true := by
      simp [Reservation.isAt, ReserveInventory.row]
    rw [filter_append, filter_singleton, hat]
    rfl
  refine ⟨?_, ?_, ?_, ?_, hok.backed⟩
  · rw [hrows]
    intro r hr
    rcases mem_append.mp hr with hr | hr
    · exact hok.nonneg r hr
    · rw [mem_singleton.mp hr]
      exact hqty.le
  · rw [hrows]
    intro r hr hropen hspecific
    rcases mem_append.mp hr with hr | hr
    · exact hok.pinned r hr hropen hspecific
    · rw [mem_singleton.mp hr] at hspecific ⊢
      obtain ⟨lotId, hlot, ⟨x, hx, hid⟩, -⟩ := hp.lot hspecific
      exact ⟨x, hx, by rw [hid]; exact hlot⟩
  · have hstock := hp.stock
    rw [DocDb.promised, hrows, map_append, sum_append]
    simp only [map_cons, map_nil, sum_cons, sum_nil, owed_row]
    show d.promised c.skuId c.locationId + (c.qty + 0) ≤ d.onHand c.skuId c.locationId
    omega
  · intro x hx
    rw [hrows, map_append, sum_append]
    simp only [map_cons, map_nil, sum_cons, sum_nil]
    show ((d.rowsAt c.skuId c.locationId).map (·.owedOf x.id)).sum + ((c.row id).owedOf x.id + 0) ≤
      d.ledger.lotResidual x
    have hold := hok.lots x hx
    by_cases hmine : c.lotSpecific = true ∧ c.lotId = some x.id
    · obtain ⟨lotId, hlot, -, hall⟩ := hp.lot hmine.1
      have hid : x.id = lotId := Option.some.inj (hmine.2.symm.trans hlot)
      have hbound := hall x hx hid
      have howed : (c.row id).owedOf x.id = c.qty := by
        rw [owedOf_row, if_pos (by simp [hmine])]
      rw [howed, hid]
      omega
    · have howed : (c.row id).owedOf x.id = 0 := by
        rw [owedOf_row, if_neg (by simpa using hmine)]
      rw [howed]
      omega

/-! ### The calls -/

section Calls

variable {K : Holds DocRow → DocDb → Prop}

def AllOk (C : List Account) (v : DocDb) : Prop := ∀ r, (promises C).ok r v

lemma AllOk.chart (h : AllOk C v) : v.ledger.chart = C := (h (.stock 0 0)).1

lemma AllOk.stock (h : AllOk C v) (skuId locationId : ℕ) : StockOk v skuId locationId :=
  (h (.stock skuId locationId)).2

lemma AllOk.lot_unique (h : AllOk C v) {y : Lot} (hx : x ∈ v.ledger.lots) (hy : y ∈ v.ledger.lots)
    (hid : y.id = x.id) : y = x := by
  have hcount : v.ledger.lots.countP (·.id == x.id) ≤ 1 := h (.number x.id)
  have hlen : (v.ledger.lots.filter (·.id == x.id)).length ≤ 1 := by
    rw [← countP_eq_length_filter]
    exact hcount
  have hx' : x ∈ v.ledger.lots.filter (·.id == x.id) := mem_filter.mpr ⟨hx, by simp⟩
  have hy' : y ∈ v.ledger.lots.filter (·.id == x.id) := mem_filter.mpr ⟨hy, by simp [hid]⟩
  generalize v.ledger.lots.filter (·.id == x.id) = l at hlen hx' hy'
  cases l with
  | nil => cases hx'
  | cons z l =>
    obtain rfl : l = [] := by simpa using hlen
    rw [mem_singleton.mp hx', mem_singleton.mp hy']

lemma stable_allOk {c : Promising} : (promises C).Stable c fun _ v => AllOk C v := stable_ok

lemma safe_lockStock {c : Promising} (hK : (promises C).Stable c K) (hok : ∀ H v, K H v → AllOk C v)
    (hv : K H v) :
    (promises C).Safe c (lockStock skuId locationId) ws H v fun ids _ H' v' =>
      K H' v' ∧ (∀ i ∈ ids, (.ledger (.account i), .update) ∈ H'.locks) ∧
        ids = (C.filter (·.isStockOf skuId locationId)).map (·.id) := by
  refine safe_bind (safe_query hK hv fun v1 hv1 => ?_)
  refine (safe_lockRows hK hv1).bind fun _ _ H2 v2 h => ?_
  refine safe_pure ⟨h.1, fun i hi => h.2 _ (List.mem_map_of_mem hi), ?_⟩
  rw [← (hok _ _ hv1).chart, Db.chart, List.filter_map, List.map_map]
  rfl

lemma safe_requireStock {c : Promising} (hc : PromiseItem.LocksStock c)
    (hK : (promises C).Stable c K) (hok : ∀ H v, K H v → AllOk C v) (hv : K H v) :
    (promises C).Safe c (requireStock skuId locationId) ws H v fun _ _ H' v' =>
      K H' v' ∧ (promises C).owns c H' (.stock skuId locationId) := by
  refine (safe_lockStock hK hok hv).bind fun ids ws1 H1 v1 h => ?_
  obtain ⟨hv1, hlocked, hids⟩ := h
  refine safe_ensure fun hne => ⟨hv1, hc, ?_⟩
  cases hfind : C.find? (·.isStockOf skuId locationId) with
  | none =>
    rw [List.find?_eq_none] at hfind
    refine absurd ?_ hne
    rw [hids, filter_eq_nil_iff.mpr hfind]
    rfl
  | some a =>
    refine ⟨a, rfl, hlocked a.id ?_⟩
    rw [hids]
    exact List.mem_map_of_mem
      (mem_filter.mpr ⟨List.mem_of_find?_eq_some hfind, List.find?_some hfind⟩)

end Calls

structure Reserving (C : List Account) (c : ReserveInventory) (v : DocDb) : Prop where
  ok : AllOk C v
  none : v.NoneAllocated c.skuId c.locationId

lemma stable_reserving : (promises C).Stable (.reserve c) fun _ v => Reserving C c v where
  rely _ _ _ _ hstays hok hv := ⟨fun r => hok r (hv.ok r), hstays.1 hv.none⟩
  lock _ _ _ hv := hv
  draw _ _ _ hv := hv

lemma reservation_qty (h : docSchema.check (.reservation r) d = .ok ()) :
    0 < r.qty := by
  simp only [docSchema, DocWrite.check, DocWrite.require, bind, Except.bind] at h
  split_ifs at h with hq
  · exact hq.1

structure MayPromise (C : List Account) (c : ReserveInventory) (p : ℤ) (H : Holds DocRow)
    (v : DocDb) : Prop where
  ok : AllOk C v
  owns : (promises C).owns (.reserve c) H (.stock c.skuId c.locationId)
  promisable : Promisable c p v

lemma stable_mayPromise (p : ℤ) : (promises C).Stable (.reserve c) (MayPromise C c p) where
  rely H v v' hsame _ hok hv := by
    have hstock := (hsame _ hv.owns hv.ok.chart).2
    exact ⟨fun r => hok r (hv.ok r), hv.owns, hv.promisable.of_same (hv.ok.stock _ _) hstock⟩
  lock H ls v hv := ⟨hv.ok, (promises C).owns_lock _ H ls _ hv.owns, hv.promisable⟩
  draw H n v hv := ⟨hv.ok, (promises C).owns_draw _ H n _ hv.owns, hv.promisable⟩

lemma safe_stockPromisable (hpin : c.lotSpecific = false) (hv : Reserving C c v) :
    (promises C).Safe (.reserve c) (stockPromisable c) ws H v fun p _ H' v' =>
      MayPromise C c p H' v' := by
  refine (safe_requireStock (c := .reserve c) trivial stable_reserving
    (fun _ _ h => h.ok) hv).bind fun _ ws1 H1 v1 h => ?_
  refine safe_query (stable_reserving.and (stable_owns _)) h fun v2 h2 => ?_
  exact ⟨h2.1.ok, h2.2, promisable_stock hpin h2.1.none⟩

lemma lot_of_find (hx : (v.ledger.lots.find? fun l => l.id == lotId && l.productId == c.skuId &&
      l.locationId == c.locationId) = some x) :
    x ∈ v.ledger.lots ∧ x.id = lotId ∧ x.productId = c.skuId ∧ x.locationId = c.locationId := by
  have hp := List.find?_some hx
  simp only [Bool.and_eq_true, beq_iff_eq] at hp
  exact ⟨List.mem_of_find?_eq_some hx, hp.1.1, hp.1.2, hp.2⟩

lemma AllOk.lotRemainingQty (h : AllOk C v) (hx : x ∈ v.ledger.lots) :
    v.ledger.lotRemainingQty x.id x.receiptDate = some (v.ledger.lotResidual x) := by
  have hsome : (v.ledger.lots.find? fun l =>
      l.id == x.id && l.receiptDate == x.receiptDate).isSome := by
    rw [List.find?_isSome]
    exact ⟨x, hx, by simp⟩
  obtain ⟨y, hy⟩ := Option.isSome_iff_exists.mp hsome
  have hid : y.id = x.id := by
    have hp := List.find?_some hy
    simp only [Bool.and_eq_true, beq_iff_eq] at hp
    exact hp.1
  rw [Db.lotRemainingQty, hy, h.lot_unique hx (List.mem_of_find?_eq_some hy) hid]
  rfl

lemma safe_lotPromisable (hlot : c.lotId = some lotId) (hv : Reserving C c v) :
    (promises C).Safe (.reserve c) (lotPromisable c lotId) ws H v fun p _ H' v' =>
      MayPromise C c p H' v' := by
  refine safe_bind (safe_findRow stable_reserving hv fun v1 x hv1 hx => ?_)
  obtain ⟨hmem, hid, hsku, hloc⟩ := lot_of_find hx
  -- no lot goes away
  have hstable : (promises C).Stable (.reserve c) fun _ v =>
      Reserving C c v ∧ x ∈ v.ledger.lots := by
    refine stable_reserving.and ⟨fun _ _ _ _ hstays _ h => hstays.2 h, ?_, ?_⟩
    · exact fun _ _ _ h => h
    · exact fun _ _ _ h => h
  refine (safe_requireStock (c := .reserve c) trivial hstable (fun _ _ h => h.1.ok)
    ⟨hv1, hmem⟩).bind fun _ ws2 H2 v2 h2 => ?_
  have hlocked := hstable.and (stable_owns (O := promises C) (.stock c.skuId c.locationId))
  refine safe_bind (safe_query hlocked h2 fun v3 h3 => ?_)
  -- with the stock locked, the lot keeps what it holds
  have hresidual : (promises C).Stable (.reserve c) fun H v =>
      ((Reserving C c v ∧ x ∈ v.ledger.lots) ∧
        (promises C).owns (.reserve c) H (.stock c.skuId c.locationId)) ∧
        v.ledger.lotResidual x = v3.ledger.lotResidual x := by
    refine ⟨fun H v v' hsame hstays hok h => ⟨hlocked.rely H v v' hsame hstays hok h.1, ?_⟩, ?_, ?_⟩
    · rw [(hsame _ h.1.2 h.1.1.1.ok.chart).2.residual x]
      exact h.2
    · exact fun H ls v h => ⟨hlocked.lock H ls v h.1, h.2⟩
    · exact fun H n v h => ⟨hlocked.draw H n v h.1, h.2⟩
  refine safe_bind (safe_query hresidual ⟨h3, rfl⟩ fun v4 h4 => ?_)
  obtain ⟨⟨⟨hv4, hmem4⟩, hown⟩, hsame⟩ := h4
  have hremaining : (v3.ledger.lotRemainingQty lotId x.receiptDate).getD 0 =
      v4.ledger.lotResidual x := by
    rw [← hid, h3.1.1.ok.lotRemainingQty h3.1.2, Option.getD_some, hsame]
  refine safe_pure ⟨hv4.ok, hown, ?_⟩
  rw [hremaining]
  have hat : x ∈ v4.lotsAt c.skuId c.locationId :=
    mem_filter.mpr ⟨hmem4, by simp [hsku, hloc]⟩
  refine promisable_lot hlot (hv4.ok.stock _ _) hv4.none hat hid fun y hy hyid => ?_
  exact hv4.ok.lot_unique hmem4 (mem_filter.mp hy).1 (hyid.trans hid.symm)

lemma safe_insertReservation (hv : MayPromise C c p H v) :
    (promises C).Safe (.reserve c) (insertReservation c p) ws H v fun _ _ _ _ => True := by
  unfold insertReservation
  split
  next => trivial
  next hle =>
    refine safe_bind (safe_nextval (stable_mayPromise p) hv fun v1 id hv1 _ _ => ?_)
    have hv1 := (stable_mayPromise p).draw _ id _ hv1
    refine safe_bind (safe_exec (stable_mayPromise p) hv1 (fun v2 hv2 => ?_) fun _ _ _ => trivial)
    refine guarantee_single rfl fun r hr => ?_
    cases r with
    | number n => exact hr.elim
    | stock skuId locationId =>
      obtain ⟨rfl, rfl⟩ : c.skuId = skuId ∧ c.locationId = locationId := hr
      refine ⟨hv2.owns, fun hcheck => ⟨?_, ?_⟩⟩
      · exact (PromiseItem.chart_docApply _ v2).trans hv2.ok.chart
      · exact (hv2.ok.stock _ _).reserve hv2.promisable (reservation_qty hcheck) (by omega) id

lemma safe_reserveInventory (hv : Reserving C c v) :
    (promises C).Safe (.reserve c) (reserveInventory c) ws H v fun _ _ _ _ => True := by
  refine Owned.Safe.bind (Q := fun p _ H' v' => MayPromise C c p H' v') ?_
    fun p ws1 H1 v1 h1 => safe_insertReservation h1
  unfold promisable
  split
  next =>
    cases hlot : c.lotId with
    | none => exact safe_raise
    | some lotId => exact safe_lotPromisable hlot hv
  next hpin => exact safe_stockPromisable (by simpa using hpin) hv

/-! ### Moving reservations out of active -/

lemma safe_allocateReservations (c : SoAllocate) (soId : ℕ) :
    (promises C).Safe (.allocate c) (allocateReservations soId) ws H v fun _ _ _ _ => True := by
  refine (safe_harmless (K := fun _ _ => True) ?_ stable_true trivial).mono
    fun _ _ _ _ _ => trivial
  refine fun d => ⟨fun w hw => ?_, trivial⟩
  obtain ⟨r, -, rfl⟩ := List.mem_map.mp hw
  exact ⟨rfl, fun r => by cases r <;> exact id⟩

lemma safe_expireReservations (now : ℤ) :
    (promises C).Safe (.expire now) (expireReservations now) ws H v fun _ _ _ _ => True := by
  refine (safe_harmless (K := fun _ _ => True) ?_ stable_true trivial).mono
    fun _ _ _ _ _ => trivial
  refine fun d => ⟨fun w hw => ?_, trivial⟩
  obtain ⟨r, -, rfl⟩ := List.mem_map.mp hw
  exact ⟨rfl, fun r => by cases r <;> exact id⟩

lemma only_checkPins (P : DocWrite → Prop) (rs : List Reservation) : (checkPins rs).Only P := by
  induction rs with
  | nil => trivial
  | cons r rs ih =>
    refine Prog.Only.bind ?_ fun _ => ih
    refine Prog.Only.bind ?_ fun _ => (Prog.only_fetch _).bind fun _ => (Prog.only_query _).bind
      fun _ => Prog.only_ensure _ _
    exact (Prog.only_query _).bind fun _ => (Prog.only_lockRows _ _).bind fun _ => Prog.only_pure _

lemma safe_postSoAllocate (c : SoAllocate) :
    (promises C).Safe (.allocate c) (postSoAllocate c) ws H v fun _ _ _ _ => True := by
  refine safe_unlessDocument stable_true trivial fun v1 _ => ?_
  refine safe_bind (safe_findRow stable_true trivial fun v2 _ _ _ => ?_)
  refine safe_bind (safe_query stable_true trivial fun v3 _ => ?_)
  refine (safe_harmless (K := fun _ _ => True) (only_checkPins _ _)
    stable_true trivial).bind fun _ ws4 H4 v4 _ => ?_
  refine safe_header (fun h => ?_) stable_true trivial fun n _ _ _ _ => ?_
  · exact ⟨trivial, fun r => by cases r <;> exact id⟩
  · exact safe_allocateReservations c c.soId

end Acct.Main
