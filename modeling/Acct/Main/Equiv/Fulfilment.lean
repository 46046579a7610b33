import Acct.Main.Equiv.DocWrites

/-!
# Orders are not over-fulfilled

A receipt locks its order line before it sums what came before, so its check holds whatever the
others do. A shipment does not: two that overlap on an order line both find room for what only one
of them may ship. As long as none do, no order line is ever over-fulfilled.
-/

namespace Acct.Main

open Isolation Machine Owned Option

variable {ws : List DocWrite} {H : Holds DocRow} {v : DocDb}

/-- The transactions. -/
inductive Fulfilment
  | ship (c : SoShip)
  | receive (c : PoReceipt)
  deriving DecidableEq

def Fulfilment.prog : Fulfilment → DocTx ℕ
  | .ship c => postSoShip c
  | .receive c => postPoReceipt c

/-- No order line is shipped or received beyond what was ordered. -/
def NotOverfulfilled (d : DocDb) : Prop :=
  (∀ id, ∀ l ∈ d.soLine? id, d.shipped id ≤ l.qtyOrdered) ∧
    ∀ id, ∀ l ∈ d.poLine? id, d.received id ≤ l.qtyOrdered

def ShipsApart (c c' : SoShip) : Prop := ∀ i ∈ c.lines, ∀ j ∈ c'.lines, i.soLineId ≠ j.soLineId
  deriving Decidable

/-! ### Who owns an order line -/

inductive OrderLine
  | so (id : ℕ)
  | po (id : ℕ)
  deriving DecidableEq

namespace OrderLine

def Same : OrderLine → DocDb → DocDb → Prop
  | .so id, d, d' => d'.soLine? id = d.soLine? id ∧ d'.shipped id = d.shipped id
  | .po id, d, d' => d'.poLine? id = d.poLine? id ∧ d'.received id = d.received id

def Ok : OrderLine → DocDb → Prop
  | .so id, d => ∀ l ∈ d.soLine? id, d.shipped id ≤ l.qtyOrdered
  | .po id, d => ∀ l ∈ d.poLine? id, d.received id ≤ l.qtyOrdered

def Touch : DocWrite → OrderLine → Prop
  | .shipmentLine l, .so id => l.soLineId = id
  | .receiptLine l, .po id => l.poLineId = id
  | _, _ => False

def Owns : Fulfilment → Holds DocRow → OrderLine → Prop
  | .ship c, _, .so id => ∃ i ∈ c.lines, i.soLineId = id
  | .receive _, H, .po id => (.poLine id, .update) ∈ H.locks
  | _, _, _ => False

def Together : Fulfilment → Fulfilment → Prop
  | .ship c, .ship c' => ShipsApart c c'
  | _, _ => True

lemma same_apply (w : DocWrite) (r : OrderLine) (d d' : DocDb) (h : Same r d d') :
    Same r (docSchema.apply w d) (docSchema.apply w d') := by
  cases r <;> simpa [Same] using h

lemma same_frame (w : DocWrite) (r : OrderLine) (d : DocDb) (h : ¬ Touch w r) :
    Same r d (docSchema.apply w d) := by
  cases r with
  | so id =>
    refine ⟨soLine?_apply w d id, ?_⟩
    rw [shipped_apply]
    cases w <;> simp_all [Touch, DocWrite.ships, ShipmentLine.counted]
  | po id =>
    refine ⟨poLine?_apply w d id, ?_⟩
    rw [received_apply]
    cases w <;> simp_all [Touch, DocWrite.receives, ReceiptLine.counted]

lemma owns_exclusive (c c' : Fulfilment) (H H' : Holds DocRow) (r : OrderLine)
    (ht : Together c c') (hapart : H.Apart H') (h : Owns c H r) : ¬ Owns c' H' r := by
  cases c with
  | ship c =>
    cases c' with
    | ship c' =>
      cases r with
      | so id =>
        rintro ⟨j, hj, rfl⟩
        obtain ⟨i, hi, heq⟩ := h
        exact ht i hi j hj heq
      | po id => exact fun h' => h'
    | receive c' => cases r <;> simp_all [Owns]
  | receive c =>
    cases c' with
    | ship c' => cases r <;> simp_all [Owns]
    | receive c' =>
      cases r with
      | so id => exact fun h' => h'
      | po id => exact hapart.locks.not_mem h rfl

end OrderLine

def fulfilment : Owned docSchema Fulfilment OrderLine where
  same := OrderLine.Same
  ok := OrderLine.Ok
  touch := OrderLine.Touch
  owns := OrderLine.Owns
  together := OrderLine.Together
  writes _ _ := True
  stays _ _ _ := True
  used _ _ := False
  refl r d := by cases r <;> exact ⟨rfl, rfl⟩
  trans r d d' d'' h h' := by
    cases r <;> exact ⟨h'.1.trans h.1, h'.2.trans h.2⟩
  ok_of_same r d d' h hok := by
    cases r <;> (obtain ⟨hl, hs⟩ := h; simpa [OrderLine.Ok, hl, hs] using hok)
  apply _ _ w r d d' _ _ h := OrderLine.same_apply w r d d' h
  frame := OrderLine.same_frame
  owns_lock c H ls r h := by
    cases c <;> cases r <;> simp_all [OrderLine.Owns]
  owns_draw c H n r h := by
    cases c <;> cases r <;> simp_all [OrderLine.Owns]
  exclusive := OrderLine.owns_exclusive
  stays_refl _ _ := trivial
  stays_trans _ _ _ _ _ _ := trivial
  stays_apply _ _ _ _ _ _ := trivial
  stays_write _ _ _ _ _ _ := trivial
  used_apply _ _ _ h := .inl h

lemma fulfilment_harmless {c : Fulfilment} {w : DocWrite} (h : w.IsPlain) :
    fulfilment.Harmless c w := by
  refine ⟨trivial, fun r => ?_⟩
  cases w <;> simp_all [fulfilment, OrderLine.Touch, DocWrite.IsPlain]

lemma fulfilment_safe_plain {α : Type} {c : Fulfilment} {p : DocTx α}
    [h : Prog.Confined DocWrite.IsPlain p] {K : Holds DocRow → DocDb → Prop}
    (hK : fulfilment.Stable c K) (hv : K H v) :
    fulfilment.Safe c p ws H v fun _ _ H' v' => K H' v' :=
  safe_harmless (h.only.mono fun _ => fulfilment_harmless) hK hv

/-! ### Shipments -/

section Ships

variable {c : SoShip} {i : ShipInput}

def ShipRoom (id : ℕ) (sl : SoLine) (qty : ℤ) (_ : Holds DocRow) (v : DocDb) : Prop :=
  v.soLine? id = some sl ∧ v.shipped id + qty ≤ sl.qtyOrdered

lemma stable_ship {P : Option SoLine → ℤ → Prop} (hi : i ∈ c.lines) :
    fulfilment.Stable (.ship c) fun _ v => P (v.soLine? i.soLineId) (v.shipped i.soLineId) where
  rely _ v v' h _ _ hv := by
    have hsame : OrderLine.Same (.so i.soLineId) v v' := h (.so i.soLineId) ⟨i, hi, rfl⟩
    rw [hsame.1, hsame.2]
    exact hv
  lock _ _ _ hv := hv
  draw _ _ _ hv := hv

lemma safe_checkShipLine (hi : i ∈ c.lines) :
    fulfilment.Safe (.ship c) (checkShipLine c i) ws H v fun a _ H' v' =>
      ShipRoom i.soLineId a.1 a.2 H' v' := by
  refine safe_bind (safe_positiveQty fun qty _ => ?_)
  refine safe_bind (safe_findRow stable_true trivial fun v1 sl _ hsl => ?_)
  refine safe_bind (safe_ensure fun _ => ?_)
  refine safe_bind (safe_query
    (stable_ship (P := fun l _ => l = some sl) hi) hsl fun v2 hv2 => ?_)
  refine safe_bind (safe_ensure fun hroom => ?_)
  exact ⟨hv2, hroom⟩

lemma safe_shipLine (hi : i ∈ c.lines) (customerId docId : ℕ) :
    fulfilment.Safe (.ship c) (shipLine c customerId docId i) ws H v fun _ _ _ _ => True := by
  refine (safe_checkShipLine hi).bind fun a ws1 H1 v1 hroom => ?_
  have hstable : fulfilment.Stable (.ship c) (ShipRoom i.soLineId a.1 a.2) :=
    stable_ship (P := fun l n => l = some a.1 ∧ n + a.2 ≤ a.1.qtyOrdered) hi
  refine (fulfilment_safe_plain hstable hroom).bind fun w ws2 H2 v2 hroom => ?_
  refine safe_bind (safe_nextval hstable hroom fun v3 id hroom _ _ => ?_)
  refine safe_bind (safe_exec hstable (hstable.draw _ id _ hroom) ?_ fun _ _ _ => ?_)
  · intro v4 hroom
    refine guarantee_single trivial fun r hr => ?_
    -- the line counts towards the order line it names, for which there is room
    cases r with
    | po id => exact hr.elim
    | so j =>
      obtain rfl : i.soLineId = j := hr
      refine ⟨⟨i, hi, rfl⟩, fun _ l hl => ?_⟩
      rw [soLine?_apply, hroom.1] at hl
      obtain rfl := some.inj hl
      rw [shipped_apply]
      have hadds : DocWrite.ships i.soLineId (.shipmentLine (w.row i a.1 a.2 id docId)) = a.2 := by
        simp [DocWrite.ships, ShipmentLine.counted, ShipDraft.row]
      rw [hadds]
      exact hroom.2
  · exact fulfilment_safe_plain stable_true trivial

lemma safe_shipLines (customerId docId : ℕ) (is : List ShipInput) (his : ∀ i ∈ is, i ∈ c.lines) :
    fulfilment.Safe (.ship c) (shipLines c customerId docId is) ws H v fun _ _ _ _ => True := by
  induction is generalizing ws H v with
  | nil => trivial
  | cons i is ih =>
    refine (safe_shipLine (his i List.mem_cons_self) customerId docId).bind fun es _ _ _ _ => ?_
    exact (ih fun j hj => his j (List.mem_cons_of_mem i hj)).bind fun _ _ _ _ _ => trivial

theorem safe_postSoShip (c : SoShip) (v : DocDb) :
    fulfilment.Safe (.ship c) (postSoShip c) [] {} v fun _ _ _ _ => True := by
  refine safe_unlessDocument stable_true trivial fun v1 _ => ?_
  refine (fulfilment_safe_plain stable_true trivial).bind fun customerId _ _ _ _ => ?_
  refine safe_bind (safe_ensure fun _ => ?_)
  refine safe_header (fun h => fulfilment_harmless trivial) stable_true trivial
    fun docId _ _ _ _ => ?_
  refine (safe_shipLines customerId docId c.lines fun _ hi => hi).bind fun batch _ _ _ _ => ?_
  exact fulfilment_safe_plain stable_true trivial

end Ships

/-! ### Receipts -/

section Receipts

variable {c : PoReceipt} {i : ReceiptInput}

def ReceiptRoom (id : ℕ) (pl : PoLine) (qty : ℤ) (H : Holds DocRow) (v : DocDb) : Prop :=
  (.poLine id, .update) ∈ H.locks ∧ v.poLine? id = some pl ∧ v.received id + qty ≤ pl.qtyOrdered

lemma stable_receive {id : ℕ} {P : Option PoLine → ℤ → Prop} :
    fulfilment.Stable (.receive c) fun H v =>
      (.poLine id, .update) ∈ H.locks ∧ P (v.poLine? id) (v.received id) where
  rely _ v v' h _ _ hv := by
    have hsame : OrderLine.Same (.po id) v v' := h (.po id) hv.1
    rw [hsame.1, hsame.2]
    exact hv
  lock _ _ _ hv := ⟨List.mem_append_right _ hv.1, hv.2⟩
  draw _ _ _ hv := hv

lemma safe_checkReceiptLine :
    fulfilment.Safe (.receive c) (checkReceiptLine c i) ws H v fun a _ H' v' =>
      ReceiptRoom i.poLineId a.1 a.2 H' v' := by
  refine safe_bind (safe_positiveQty fun qty _ => ?_)
  refine safe_bind (safe_lock stable_true trivial fun v1 _ => ?_)
  have hlock : (DocRow.poLine i.poLineId, RowLock.update) ∈
      (H.lock [(.poLine i.poLineId, .update)]).locks := List.mem_cons_self
  refine safe_bind (safe_findRow stable_true trivial fun v2 pl _ hpl => ?_)
  refine safe_bind (safe_ensure fun _ => ?_)
  refine safe_bind (safe_query
    (stable_receive (P := fun l _ => l = some pl)) ⟨hlock, hpl⟩ fun v3 hv3 => ?_)
  refine safe_bind (safe_ensure fun hroom => ?_)
  exact ⟨hlock, hv3.2, hroom⟩

lemma safe_receiptLine (vendorId docId : ℕ) :
    fulfilment.Safe (.receive c) (receiptLine c vendorId docId i) ws H v fun _ _ _ _ => True := by
  refine safe_checkReceiptLine.bind fun a ws1 H1 v1 hroom => ?_
  have hstable : fulfilment.Stable (.receive c) (ReceiptRoom i.poLineId a.1 a.2) :=
    stable_receive (P := fun l n => l = some a.1 ∧ n + a.2 ≤ a.1.qtyOrdered)
  refine (fulfilment_safe_plain hstable hroom).bind fun w ws2 H2 v2 hroom => ?_
  refine safe_bind (safe_nextval hstable hroom fun v3 id hroom _ _ => ?_)
  refine safe_bind (safe_exec hstable (hstable.draw _ id _ hroom) ?_ fun _ _ _ => ?_)
  · intro v4 hroom
    refine guarantee_single trivial fun r hr => ?_
    cases r with
    | so id => exact hr.elim
    | po j =>
      obtain rfl : i.poLineId = j := hr
      refine ⟨hroom.1, fun _ l hl => ?_⟩
      rw [poLine?_apply, hroom.2.1] at hl
      obtain rfl := some.inj hl
      rw [received_apply]
      have hadds : DocWrite.receives i.poLineId (.receiptLine (w.row i a.2 id docId)) = a.2 := by
        simp [DocWrite.receives, ReceiptLine.counted, ReceiptDraft.row]
      rw [hadds]
      exact hroom.2.2
  · exact fulfilment_safe_plain stable_true trivial

lemma safe_receiptLines (vendorId docId : ℕ) (is : List ReceiptInput) :
    fulfilment.Safe (.receive c) (receiptLines c vendorId docId is) ws H v fun _ _ _ _ => True := by
  induction is generalizing ws H v with
  | nil => trivial
  | cons i is ih =>
    refine (safe_receiptLine vendorId docId).bind fun es _ _ _ _ => ?_
    exact ih.bind fun _ _ _ _ _ => trivial

theorem safe_postPoReceipt (c : PoReceipt) (v : DocDb) :
    fulfilment.Safe (.receive c) (postPoReceipt c) [] {} v fun _ _ _ _ => True := by
  refine safe_unlessDocument stable_true trivial fun v1 _ => ?_
  refine (fulfilment_safe_plain stable_true trivial).bind fun vendorId _ _ _ _ => ?_
  refine safe_bind (safe_ensure fun _ => ?_)
  refine safe_header (fun h => fulfilment_harmless trivial) stable_true trivial
    fun docId _ _ _ _ => ?_
  refine (safe_receiptLines vendorId docId c.lines).bind fun batch _ _ _ _ => ?_
  exact fulfilment_safe_plain stable_true trivial

end Receipts

/-! ### Every run -/

/-- The call ships none of the order lines of `c`. -/
def Fulfilment.ApartFrom (c : SoShip) : Fulfilment → Prop
  | .ship c' => ShipsApart c' c
  | .receive _ => True

instance (c : SoShip) : DecidablePred (Fulfilment.ApartFrom c)
  | .ship c' => inferInstanceAs (Decidable (ShipsApart c' c))
  | .receive _ => inferInstanceAs (Decidable True)

/-- A shipment begins only while no running one has an order line of its own. -/
def ShipsDoNotOverlap (s : State DocDb DocWrite DocRow DocErr ℕ Fulfilment) : Move Fulfilment → Prop
  | .start (.ship c) => ∀ u ∈ s.sessions, u.status = .running → u.call.ApartFrom c
  | _ => True

instance (s : State DocDb DocWrite DocRow DocErr ℕ Fulfilment) : DecidablePred (ShipsDoNotOverlap s)
  | .start (.ship c) => inferInstanceAs
      (Decidable (∀ u ∈ s.sessions, u.status = .running → u.call.ApartFrom c))
  | .start (.receive _) => inferInstanceAs (Decidable True)
  | .step _ => inferInstanceAs (Decidable True)
  | .abort _ => inferInstanceAs (Decidable True)

lemma notOverfulfilled_iff (d : DocDb) : NotOverfulfilled d ↔ ∀ r, fulfilment.ok r d := by
  constructor
  · rintro ⟨hso, hpo⟩ (id | id)
    · exact hso id
    · exact hpo id
  · exact fun h => ⟨fun id => h (.so id), fun id => h (.po id)⟩

lemma ShipsApart.symm {c c' : SoShip} (h : ShipsApart c c') : ShipsApart c' c :=
  fun i hi j hj heq => h j hj i hi heq.symm

/-- In every run in which shipments of one order line do not overlap, every committed database has
every order line within what was ordered. -/
theorem notOverfulfilled_of_apart (db : DocDb) (seq : ℕ) (h : NotOverfulfilled db)
    (ms : List (Move Fulfilment))
    (hms : Throughout (State.exec? docSchema Fulfilment.prog) ShipsDoNotOverlap { db, seq } ms) :
    NotOverfulfilled (run (State.exec? docSchema Fulfilment.prog) { db, seq } ms).db := by
  rw [notOverfulfilled_iff] at h ⊢
  refine run_ok ?_ ?_ h (fun _ _ => id) ms hms
  · intro s c _ _
    cases c with
    | ship c => exact safe_postSoShip c s.db
    | receive c => exact safe_postPoReceipt c s.db
  · intro s c hc u hu hrun
    cases c with
    | receive c => cases u.call <;> exact ⟨trivial, trivial⟩
    | ship c =>
      have hapart := hc u hu hrun
      cases hcall : u.call with
      | receive c' => exact ⟨trivial, trivial⟩
      | ship c' =>
        rw [hcall] at hapart
        have hships : ShipsApart c' c := hapart
        exact ⟨hships, hships.symm⟩

/-! ### Two shipments of one order line -/

/-- Nine pieces in stock, four of them ordered. -/
def shopDb : DocDb where
  ledger := {
    skus := [{ id := 1, costMethod := .standard }]
    periods := [⟨1, 0, 30, false⟩]
    standardCosts := [⟨1, 5, 0⟩]
    accounts := [
      { id := 1, kind := .stockAvailable, ledger := .qty, skuId := some 1, locationId := some 1
        debitsTotal := 9 },
      { id := 2, kind := .invValueFg, ledger := .value 0, skuId := some 1, locationId := some 1
        debitsTotal := 45 },
      { id := 3, kind := .customerPool, ledger := .qty, counterpartyId := some 7 },
      { id := 4, kind := .arUnsettled, ledger := .value 0, counterpartyId := some 7 },
      { id := 5, kind := .revenue, ledger := .value 0 },
      { id := 6, kind := .cogs, ledger := .value 0 }] }
  salesOrders := [⟨1, some 7⟩]
  soLines := [{ id := 1, soId := 1, skuId := 1, shipLocationId := 1, qtyOrdered := 4, unitPrice := 8
                currency := 0 }]

def shipThree (key : ℕ) : Fulfilment :=
  .ship { soId := 1, lines := [{ soLineId := 1, qtyShipped := some 3 }], businessDate := 1, key }

def overlappingShips : List (Move Fulfilment) :=
  [.start (shipThree 1), .start (shipThree 2)] ++ List.replicate 11 (.step 1) ++
    List.replicate 80 (.step 0) ++ List.replicate 80 (.step 1)

def successiveShips : List (Move Fulfilment) :=
  [.start (shipThree 1)] ++ List.replicate 80 (.step 0) ++
    [.start (shipThree 2)] ++ List.replicate 80 (.step 1)

lemma notOverfulfilled_shopDb : NotOverfulfilled shopDb := by
  refine ⟨fun id l hl => ?_, fun id l hl => ?_⟩
  · have hmem : l ∈ shopDb.soLines := List.mem_of_find?_eq_some hl
    obtain rfl := List.mem_singleton.mp hmem
    show (0 : ℤ) ≤ 4
    decide
  · simp [shopDb, DocDb.poLine?] at hl

/-- One after the other, the second shipment is refused and three pieces have been shipped. -/
theorem notOverfulfilled_successiveShips :
    NotOverfulfilled
      (run (State.exec? docSchema Fulfilment.prog) { db := shopDb } successiveShips).db ∧
    (run (State.exec? docSchema Fulfilment.prog) { db := shopDb } successiveShips).db.shipped 1 =
      3 :=
  ⟨notOverfulfilled_of_apart shopDb 0 notOverfulfilled_shopDb successiveShips (by decide +kernel),
    by decide +kernel⟩

/-- Two shipments of three pieces that overlap ship six of the four ordered. -/
theorem overlappingShips_overfulfil :
    NotOverfulfilled shopDb ∧
    (run (State.exec? docSchema Fulfilment.prog) { db := shopDb } overlappingShips).db.shipped 1 =
      6 ∧
    ¬ NotOverfulfilled
      (run (State.exec? docSchema Fulfilment.prog) { db := shopDb } overlappingShips).db := by
  have hsix : (run (State.exec? docSchema Fulfilment.prog) { db := shopDb }
      overlappingShips).db.shipped 1 = 6 := by decide +kernel
  refine ⟨notOverfulfilled_shopDb, hsix, fun h => ?_⟩
  have hline : (run (State.exec? docSchema Fulfilment.prog) { db := shopDb }
      overlappingShips).db.soLine? 1 = some ⟨1, 1, 1, 1, 4, 8, 0, 0⟩ := by decide +kernel
  have hle := h.1 1 _ hline
  rw [hsix] at hle
  exact absurd hle (by decide)

end Acct.Main
