import Acct.Main.Equiv.Fulfilment

/-!
# The three-way match under concurrency

What is invoiced of an order line, and what is returned of it before it is invoiced, must stay
within what was shipped; and likewise for bills. Bills and returns lock the order line before they
sum. An invoice sums first and locks later: another invoice or a return that commits in between is
not in its sums. As long as no invoice overlaps an invoice or a return on one of its order lines,
the match holds in every committed database.

A return is given with the order lines of the shipment or receipt lines it names; its own lines are
not in its sums, so it may name each order line only once.
-/

namespace Acct.Main

open Isolation Machine Owned List Option

variable {docId id : ℕ} {ws : List DocWrite} {H : Holds DocRow} {v : DocDb} {amount : ℤ}
  {inflight : ℕ → ℤ} {os : List ℕ} {K : Holds DocRow → DocDb → Prop} {P : ℤ → ℤ → ℤ → Prop}

/-- The transactions. -/
inductive Settling
  | ship (c : SoShip)
  | receive (c : PoReceipt)
  | invoice (c : CustomerInvoice)
  | bill (c : ApBill)
  | customerReturn (c : CustomerReturn) (orderLines : List ℕ)
  | poReturn (c : PoReturn) (orderLines : List ℕ)
  deriving DecidableEq

def Settling.prog : Settling → DocTx ℕ
  | .ship c => postSoShip c
  | .receive c => postPoReceipt c
  | .invoice c => postCustomerInvoice c
  | .bill c => postApBill c
  | .customerReturn c _ => postCustomerReturn c
  | .poReturn c _ => postPoReturn c

/-- What is settled of each order line is within what was delivered. -/
def Matched (d : DocDb) : Prop :=
  (∀ id, d.invoiced id + d.returnedToArUnsettled id ≤ d.shipped id) ∧
    ∀ id, d.billed id + d.returnedToApUnsettled id ≤ d.received id

def InvoiceItem.soLine? : InvoiceItem → Option ℕ
  | .soMatch soLineId _ _ => some soLineId
  | .service _ => none

def CustomerInvoice.orderLines (c : CustomerInvoice) : List ℕ := c.lines.filterMap (·.item.soLine?)

/-! ### Who owns what -/

/-- What the transactions share: order lines, and the documents that returns belong to. -/
inductive MatchItem
  | so (id : ℕ)
  | po (id : ℕ)
  | customerDoc (n : ℕ)
  | poDoc (n : ℕ)
  deriving DecidableEq

def DocDb.customerReturnsOf (d : DocDb) (n : ℕ) : List CustomerReturnLine :=
  d.customerReturnLines.filter (·.returnId == n)

/-- The lines of a vendor return. -/
def DocDb.poReturnsOf (d : DocDb) (n : ℕ) : List PoReturnLine :=
  d.poReturnLines.filter (·.returnId == n)

namespace MatchItem

def Same : MatchItem → DocDb → DocDb → Prop
  | .so id, d, d' => d'.invoiced id = d.invoiced id ∧
      d'.returnedToArUnsettled id = d.returnedToArUnsettled id ∧ d.shipped id ≤ d'.shipped id
  | .po id, d, d' => d'.billed id = d.billed id ∧
      d'.returnedToApUnsettled id = d.returnedToApUnsettled id ∧ d.received id ≤ d'.received id
  | .customerDoc n, d, d' => d'.customerReturnsOf n = d.customerReturnsOf n
  | .poDoc n, d, d' => d'.poReturnsOf n = d.poReturnsOf n

def Ok : MatchItem → DocDb → Prop
  | .so id, d => d.invoiced id + d.returnedToArUnsettled id ≤ d.shipped id
  | .po id, d => d.billed id + d.returnedToApUnsettled id ≤ d.received id
  | _, _ => True

/-- The write settles something of the order line, or takes a delivery back; or it belongs to the
document. -/
def Touch : DocWrite → MatchItem → Prop
  | .shipmentLine l, .so id => l.soLineId = id ∧ l.qtyShipped < 0
  | .receiptLine l, .po id => l.poLineId = id ∧ l.qtyReceived < 0
  | .invoiceLine l, .so id => l.counted id ≠ 0
  | .billLine l, .po id => l.counted id ≠ 0
  | .customerReturnLine l, .so id => l.toUnsettled id ≠ 0
  | .customerReturnLine l, .customerDoc n => l.returnId = n
  | .poReturnLine l, .po id => l.toUnsettled id ≠ 0
  | .poReturnLine l, .poDoc n => l.returnId = n
  | _, _ => False

/-- An invoice owns the order lines it names; bills and returns own those they have locked, and a
return owns its document. -/
def Owns : Settling → Holds DocRow → MatchItem → Prop
  | .invoice c, _, .so id => id ∈ c.orderLines
  | .customerReturn _ os, H, .so id => id ∈ os ∧ (.soLine id, .update) ∈ H.locks
  | .customerReturn _ _, H, .customerDoc n => n ∈ H.drawn
  | .bill _, H, .po id => (.poLine id, .update) ∈ H.locks
  | .poReturn _ _, H, .po id => (.poLine id, .update) ∈ H.locks
  | .poReturn _ _, H, .poDoc n => n ∈ H.drawn
  | _, _, _ => False

def Together : Settling → Settling → Prop
  | .invoice c, .invoice c' => c.orderLines.Disjoint c'.orderLines
  | .invoice c, .customerReturn _ os => c.orderLines.Disjoint os
  | .customerReturn _ os, .invoice c => os.Disjoint c.orderLines
  | _, _ => True

def Writes : Settling → DocWrite → Prop
  | .customerReturn _ _, .shipmentLine _ => False
  | .poReturn _ _, .receiptLine _ => False
  | _, _ => True

def Stays : Settling → DocDb → DocDb → Prop
  | .customerReturn _ _, d, d' => d.shipmentLines <+: d'.shipmentLines
  | .poReturn _ _, d, d' => d.receiptLines <+: d'.receiptLines
  | _, _, _ => True

/-- The documents that have return lines. -/
def Used (d : DocDb) (n : ℕ) : Prop := d.customerReturnsOf n ≠ [] ∨ d.poReturnsOf n ≠ []

lemma same_apply (w : DocWrite) (r : MatchItem) (d d' : DocDb) (h : Same r d d') :
    Same r (docSchema.apply w d) (docSchema.apply w d') := by
  cases r with
  | so id =>
    obtain ⟨h₁, h₂, h₃⟩ := h
    simp only [Same, invoiced_apply, returnedToArUnsettled_apply, shipped_apply, h₁, h₂, true_and]
    omega
  | po id =>
    obtain ⟨h₁, h₂, h₃⟩ := h
    simp only [Same, billed_apply, returnedToApUnsettled_apply, received_apply, h₁, h₂, true_and]
    omega
  | customerDoc n =>
    have h' : d'.customerReturnsOf n = d.customerReturnsOf n := h
    unfold DocDb.customerReturnsOf at h'
    cases w <;>
      simp [Same, docSchema, DocWrite.apply, DocDb.customerReturnsOf, filter_append, h']
  | poDoc n =>
    have h' : d'.poReturnsOf n = d.poReturnsOf n := h
    unfold DocDb.poReturnsOf at h'
    cases w <;> simp [Same, docSchema, DocWrite.apply, DocDb.poReturnsOf, filter_append, h']

lemma same_frame (w : DocWrite) (r : MatchItem) (d : DocDb) (h : ¬ Touch w r) :
    Same r d (docSchema.apply w d) := by
  cases r with
  | so id =>
    simp only [Same, invoiced_apply, returnedToArUnsettled_apply, shipped_apply]
    cases w <;> simp_all [Touch, DocWrite.invoices, DocWrite.returnsToAr, DocWrite.ships,
      ShipmentLine.counted]
    split_ifs <;> simp_all
  | po id =>
    simp only [Same, billed_apply, returnedToApUnsettled_apply, received_apply]
    cases w <;> simp_all [Touch, DocWrite.bills, DocWrite.returnsToAp, DocWrite.receives,
      ReceiptLine.counted]
    split_ifs <;> simp_all
  | customerDoc n =>
    cases w <;> simp_all [Same, Touch, docSchema, DocWrite.apply, DocDb.customerReturnsOf,
      filter_append]
  | poDoc n =>
    cases w <;> simp_all [Same, Touch, docSchema, DocWrite.apply, DocDb.poReturnsOf, filter_append]

lemma owns_exclusive (c c' : Settling) (H H' : Holds DocRow) (r : MatchItem) (ht : Together c c')
    (hapart : H.Apart H') (h : Owns c H r) : ¬ Owns c' H' r := by
  intro h'
  cases r with
  | so id =>
    cases c <;> cases c' <;> simp only [Owns] at h h'
    · exact ht h h'
    · exact ht h h'.1
    · exact ht h.1 h'
    · exact hapart.locks.not_mem h.2 rfl h'.2
  | po id =>
    cases c <;> cases c' <;> simp only [Owns] at h h' <;> exact hapart.locks.not_mem h rfl h'
  | customerDoc n | poDoc n =>
    cases c <;> cases c' <;> simp only [Owns] at h h'
    exact hapart.drawn n h h'

lemma owns_lock (c : Settling) (H : Holds DocRow) (ls : List (DocRow × RowLock)) (r : MatchItem)
    (h : Owns c H r) : Owns c (H.lock ls) r := by
  cases c <;> cases r <;> simp_all [Owns]

lemma owns_draw (c : Settling) (H : Holds DocRow) (n : ℕ) (r : MatchItem) (h : Owns c H r) :
    Owns c (H.draw n) r := by
  cases c <;> cases r <;> simp_all [Owns]

lemma stays_apply (c : Settling) (w : DocWrite) (d d' : DocDb) (hw : Writes c w)
    (h : Stays c d d') : Stays c (docSchema.apply w d) (docSchema.apply w d') := by
  cases c <;> cases w <;> simp_all [Stays, Writes, docSchema, DocWrite.apply]

lemma stays_write (c : Settling) (w : DocWrite) (d : DocDb) : Stays c d (docSchema.apply w d) := by
  cases c <;> cases w <;> simp [Stays, docSchema, DocWrite.apply]

lemma used_apply (w : DocWrite) (n : ℕ) (d : DocDb) (h : Used (docSchema.apply w d) n) :
    Used d n ∨ ∃ r, Touch w r ∧ ∀ c H, Owns c H r → n ∈ H.drawn := by
  cases w with
  | customerReturnLine l =>
    by_cases hl : l.returnId = n
    · refine .inr ⟨.customerDoc n, hl, fun c H hown => ?_⟩
      cases c <;> simp_all [Owns]
    · simp_all [Used, docSchema, DocWrite.apply, DocDb.customerReturnsOf, DocDb.poReturnsOf,
        filter_append]
  | poReturnLine l =>
    by_cases hl : l.returnId = n
    · refine .inr ⟨.poDoc n, hl, fun c H hown => ?_⟩
      cases c <;> simp_all [Owns]
    · simp_all [Used, docSchema, DocWrite.apply, DocDb.customerReturnsOf, DocDb.poReturnsOf,
        filter_append]
  | _ => exact .inl h

end MatchItem

/-- The match, guarded by the owners of the order lines. -/
def settlement : Owned docSchema Settling MatchItem where
  same := MatchItem.Same
  ok := MatchItem.Ok
  touch := MatchItem.Touch
  owns := MatchItem.Owns
  together := MatchItem.Together
  writes := MatchItem.Writes
  stays := MatchItem.Stays
  used := MatchItem.Used
  refl r d := by cases r <;> simp [MatchItem.Same]
  trans r d d' d'' h h' := by
    cases r with
    | so id | po id => exact ⟨h'.1.trans h.1, h'.2.1.trans h.2.1, h.2.2.trans h'.2.2⟩
    | customerDoc n | poDoc n => exact Eq.trans h' h
  ok_of_same r d d' h hok := by
    cases r with
    | so id | po id =>
      obtain ⟨h₁, h₂, h₃⟩ := h
      simp only [MatchItem.Ok, h₁, h₂] at hok ⊢
      exact hok.trans h₃
    | customerDoc n | poDoc n => trivial
  apply _ _ w r d d' _ _ h := MatchItem.same_apply w r d d' h
  frame := MatchItem.same_frame
  owns_lock := MatchItem.owns_lock
  owns_draw := MatchItem.owns_draw
  exclusive := MatchItem.owns_exclusive
  stays_refl c d := by cases c <;> simp [MatchItem.Stays]
  stays_trans c d d' d'' h h' := by
    cases c with
    | customerReturn _ _ | poReturn _ _ => exact List.IsPrefix.trans h h'
    | _ => trivial
  stays_apply := MatchItem.stays_apply
  stays_write c _ w d _ _ := MatchItem.stays_write c w d
  used_apply := MatchItem.used_apply

lemma settlement_harmless {c : Settling} {w : DocWrite} (h : w.IsPlain) :
    settlement.Harmless c w := by
  refine ⟨?_, fun r => ?_⟩
  · cases c <;> cases w <;> simp_all [settlement, MatchItem.Writes, DocWrite.IsPlain]
  · cases w <;> simp_all [settlement, MatchItem.Touch, DocWrite.IsPlain]

lemma settlement_safe_plain {α : Type} {c : Settling} {p : DocTx α}
    [h : Prog.Confined DocWrite.IsPlain p] (hK : settlement.Stable c K) (hv : K H v) :
    settlement.Safe c p ws H v fun _ _ H' v' => K H' v' :=
  safe_harmless (h.only.mono fun _ => settlement_harmless) hK hv

/-- What is known of the sums of an order line that is owned, as far as more deliveries keep it. -/
lemma stable_item {c : Settling} {r : MatchItem} {a x y : DocDb → ℤ}
    (hr : ∀ v v', MatchItem.Same r v v' → x v' = x v ∧ y v' = y v ∧ a v ≤ a v')
    (hP : ∀ a b x y, a ≤ b → P a x y → P b x y) :
    settlement.Stable c fun H v => settlement.owns c H r ∧ P (a v) (x v) (y v) where
  rely H v v' h _ _ hv := by
    obtain ⟨hx, hy, hle⟩ := hr v v' (h r hv.1)
    refine ⟨hv.1, ?_⟩
    rw [hx, hy]
    exact hP _ _ _ _ hle hv.2
  lock H ls v hv := ⟨settlement.owns_lock c H ls _ hv.1, hv.2⟩
  draw H n v hv := ⟨settlement.owns_draw c H n _ hv.1, hv.2⟩

lemma stable_po {c : Settling} (hP : ∀ a b x y, a ≤ b → P a x y → P b x y) :
    settlement.Stable c fun H v => settlement.owns c H (.po id) ∧
      P (v.received id) (v.billed id) (v.returnedToApUnsettled id) :=
  stable_item (fun _ _ h => h) hP

section Safety

variable {qty : ℤ} {idx o : ℕ} {done rest : List ℕ}

/-! ### Shipments and receipts -/

theorem settlement_safe_ship (c : SoShip) (v : DocDb) :
    settlement.Safe (.ship c) (postSoShip c) [] {} v fun _ _ _ _ => True := by
  refine safe_harmless ((only_postSoShip c).mono fun w hw => ⟨?_, fun r hr => ?_⟩)
    stable_true trivial
  · cases w <;> trivial
  · cases w <;> cases r <;>
      simp_all [settlement, MatchItem.Touch, DocWrite.IsShipping, DocWrite.IsPlain]
    omega

theorem settlement_safe_receive (c : PoReceipt) (v : DocDb) :
    settlement.Safe (.receive c) (postPoReceipt c) [] {} v fun _ _ _ _ => True := by
  refine safe_harmless ((only_postPoReceipt c).mono fun w hw => ⟨?_, fun r hr => ?_⟩)
    stable_true trivial
  · cases w <;> trivial
  · cases w <;> cases r <;>
      simp_all [settlement, MatchItem.Touch, DocWrite.IsReceiving, DocWrite.IsPlain]
    omega

/-! ### Invoices -/

section Invoices

variable {c : CustomerInvoice} {x : InvoiceContext}

def SumsHold (c : CustomerInvoice) (sums : Aggregates) (inflight : ℕ → ℤ) (_ : Holds DocRow)
    (v : DocDb) : Prop :=
  ∀ id ∈ c.orderLines, sums.shipped id ≤ v.shipped id ∧
    v.invoiced id = sums.invoiced id + inflight id ∧
    v.returnedToArUnsettled id = sums.returned id

lemma stable_invoice {P : ℕ → ℤ → ℤ → ℤ → Prop}
    (hP : ∀ id a b x y, a ≤ b → P id a x y → P id b x y) :
    settlement.Stable (.invoice c) fun _ v => ∀ id ∈ c.orderLines,
      P id (v.shipped id) (v.invoiced id) (v.returnedToArUnsettled id) where
  rely H v v' h _ _ hv id hid := by
    have hsame : MatchItem.Same (.so id) v v' := h (.so id) hid
    rw [hsame.1, hsame.2.1]
    exact hP id _ _ _ _ hsame.2.2 (hv id hid)
  lock _ _ _ hv := hv
  draw _ _ _ hv := hv

lemma stable_sumsHold (sums : Aggregates) (inflight : ℕ → ℤ) :
    settlement.Stable (.invoice c) (SumsHold c sums inflight) :=
  stable_invoice (P := fun id a x y =>
    sums.shipped id ≤ a ∧ x = sums.invoiced id + inflight id ∧ y = sums.returned id)
    fun _ _ _ _ _ hab h => ⟨h.1.trans hab, h.2⟩

lemma safe_readAggregates :
    settlement.Safe (.invoice c) readAggregates ws H v fun sums _ H' v' =>
      SumsHold c sums (fun _ => 0) H' v' := by
  refine safe_bind (safe_query stable_true trivial fun v1 _ => ?_)
  refine safe_bind (safe_query (stable_invoice
    (P := fun id a _ _ => v1.shipped id ≤ a) fun _ _ _ _ _ hab h => h.trans hab)
    (fun id _ => le_rfl) fun v2 hv2 => ?_)
  refine safe_bind (safe_query (stable_invoice
    (P := fun id a x _ => v1.shipped id ≤ a ∧ x = v2.invoiced id)
    fun _ _ _ _ _ hab h => ⟨h.1.trans hab, h.2⟩)
    (fun id hid => ⟨hv2 id hid, rfl⟩) fun v3 hv3 => ?_)
  intro id hid
  exact ⟨(hv3 id hid).1, by rw [(hv3 id hid).2, add_zero], rfl⟩

lemma safe_checkInvoiceMatch (hK : settlement.Stable (.invoice c) K) (hv : K H v) {price : ℤ} :
    settlement.Safe (.invoice c) (checkInvoiceMatch x inflight amount id qty price) ws H v
      fun _ _ H' v' => K H' v' ∧
        qty ≤ x.sums.shipped id - (x.sums.invoiced id + inflight id) - x.sums.returned id := by
  refine safe_bind (safe_lock hK hv fun v1 hv1 => ?_)
  refine safe_bind (safe_findRow hK (hK.lock _ _ _ hv1) fun v2 sl hv2 _ => ?_)
  refine safe_bind (safe_findRow hK hv2 fun v3 so hv3 _ => ?_)
  refine safe_bind (safe_ensure fun _ => safe_bind (safe_ensure fun _ => ?_))
  refine safe_bind (safe_ensure fun _ => safe_bind (safe_ensure fun _ => ?_))
  exact safe_bind (safe_ensure fun hroom => ⟨hv3, hroom⟩)

lemma safe_insertInvoiceLine {i : InvoiceInput} (hi : i ∈ c.lines)
    (hv : SumsHold c x.sums inflight H v)
    (hroom : ∀ o qty price, i.item = .soMatch o qty price →
      qty ≤ x.sums.shipped o - (x.sums.invoiced o + inflight o) - x.sums.returned o) :
    settlement.Safe (.invoice c) (Prog.exec (.invoiceLine (i.row id x.docId idx))) ws H v
      fun _ _ H' v' => SumsHold c x.sums (i.item.addTo inflight) H' v' := by
  refine safe_exec (stable_sumsHold x.sums inflight) hv (fun v1 hv1 => ?_)
    fun v1 hv1 _ o ho => ?_
  · refine guarantee_single trivial fun r hr => ?_
    cases r with
    | so o =>
      cases hitem : i.item with
      | service a => simp [settlement, MatchItem.Touch, InvoiceLine.counted, InvoiceInput.row,
          hitem] at hr
      | soMatch o' qty price =>
        obtain rfl : o' = o := by
          by_contra hne
          simp [settlement, MatchItem.Touch, InvoiceLine.counted, InvoiceInput.row, hitem,
            hne] at hr
        have hmem : o' ∈ c.orderLines :=
          mem_filterMap.mpr ⟨i, hi, by simp [hitem, InvoiceItem.soLine?]⟩
        refine ⟨hmem, fun _ => ?_⟩
        obtain ⟨hs, hn, hret⟩ := hv1 o' hmem
        have hle := hroom o' qty price hitem
        show (docSchema.apply _ v1).invoiced o' + _ ≤ _
        simp only [invoiced_apply, returnedToArUnsettled_apply, shipped_apply, DocWrite.invoices,
          DocWrite.returnsToAr, DocWrite.ships, InvoiceLine.counted, InvoiceInput.row, hitem,
          if_true]
        omega
    | po o | customerDoc n | poDoc n => exact hr.elim
  · obtain ⟨hs, hn, hret⟩ := hv1 o ho
    refine ⟨by simpa [DocWrite.ships] using hs, ?_, by simpa [DocWrite.returnsToAr] using hret⟩
    rw [invoiced_apply, hn]
    cases hitem : i.item with
    | service a => simp [DocWrite.invoices, InvoiceLine.counted, InvoiceInput.row, hitem,
        InvoiceItem.addTo]
    | soMatch o' qty price =>
      by_cases ho' : o = o'
      · simp [DocWrite.invoices, InvoiceLine.counted, InvoiceInput.row, hitem, InvoiceItem.addTo,
          ho', add_assoc]
      · simp [DocWrite.invoices, InvoiceLine.counted, InvoiceInput.row, hitem, InvoiceItem.addTo,
          ho', Ne.symm ho']

lemma safe_invoiceLine {i : InvoiceInput} (hi : i ∈ c.lines) (hv : SumsHold c x.sums inflight H v) :
    settlement.Safe (.invoice c) (invoiceLine x inflight idx i) ws H v fun _ _ H' v' =>
      SumsHold c x.sums (i.item.addTo inflight) H' v' := by
  have hbefore := stable_sumsHold (c := c) x.sums inflight
  have hafter := stable_sumsHold (c := c) x.sums (i.item.addTo inflight)
  unfold invoiceLine
  split
  next o qty price hitem =>
    refine (safe_checkInvoiceMatch hbefore hv).bind fun sl _ _ _ hv1 => ?_
    refine (settlement_safe_plain hbefore hv1.1).bind
      fun unsettled _ _ _ hv2 => ?_
    refine safe_bind (safe_nextval hbefore hv2 fun v3 id hv3 _ _ => ?_)
    have hroom : ∀ o' qty' price', i.item = .soMatch o' qty' price' →
        qty' ≤ x.sums.shipped o' - (x.sums.invoiced o' + inflight o') - x.sums.returned o' := by
      intro o' qty' price' heq
      rw [hitem] at heq
      cases heq
      exact hv1.2
    refine (safe_insertInvoiceLine hi (hbefore.draw _ id _ hv3) hroom).bind fun _ _ _ _ hv4 => ?_
    exact settlement_safe_plain hafter hv4
  next a hitem =>
    refine (settlement_safe_plain hbefore hv).bind
      fun revenue _ _ _ hv1 => ?_
    refine safe_bind (safe_nextval hbefore hv1 fun v2 id hv2 _ _ => ?_)
    refine (safe_insertInvoiceLine hi (hbefore.draw _ id _ hv2) ?_).bind fun _ _ _ _ hv3 => ?_
    · intro o' qty' price' heq
      rw [hitem] at heq
      cases heq
    · exact settlement_safe_plain hafter hv3

lemma safe_invoiceLines (is : List InvoiceInput) (his : ∀ i ∈ is, i ∈ c.lines)
    (hv : SumsHold c x.sums inflight H v) :
    settlement.Safe (.invoice c) (invoiceLines x inflight idx is) ws H v fun _ _ _ _ => True := by
  induction is generalizing inflight idx ws H v with
  | nil => trivial
  | cons i is ih =>
    refine (safe_invoiceLine (his i mem_cons_self) hv).bind fun es _ _ _ hv1 => ?_
    exact (ih (fun j hj => his j (mem_cons_of_mem i hj)) hv1).bind fun _ _ _ _ _ => trivial

theorem settlement_safe_invoice (c : CustomerInvoice) (v : DocDb) :
    settlement.Safe (.invoice c) (postCustomerInvoice c) [] {} v fun _ _ _ _ => True := by
  refine safe_unlessDocument stable_true trivial fun v1 _ => ?_
  refine (settlement_safe_plain stable_true trivial).bind fun customer _ _ _ _ => ?_
  refine safe_bind (safe_ensure fun _ => ?_)
  refine (settlement_safe_plain stable_true trivial).bind fun ar _ _ _ _ => ?_
  refine safe_header (fun h => settlement_harmless trivial) stable_true trivial
    fun docId _ _ _ _ => ?_
  refine safe_readAggregates.bind fun sums _ _ _ hv => ?_
  refine (safe_invoiceLines (x := ⟨c, docId, customer.tolerance, ar, sums⟩) c.lines
    (fun _ hi => hi) hv).bind fun batch _ _ _ _ => ?_
  exact settlement_safe_plain stable_true trivial

end Invoices

/-! ### Bills -/

section Bills

variable {c : ApBill} {x : BillContext}

def BillRoom (c : Settling) (id : ℕ) (qty : ℤ) (H : Holds DocRow) (v : DocDb) : Prop :=
  settlement.owns c H (.po id) ∧ v.billed id + v.returnedToApUnsettled id + qty ≤ v.received id

lemma stable_billRoom (c : Settling) (id : ℕ) (qty : ℤ) :
    settlement.Stable c (BillRoom c id qty) :=
  stable_po (P := fun a x y => x + y + qty ≤ a) fun _ _ _ _ hab h => h.trans hab

/-- The order line is locked before the sums, so they hold until the commit. -/
lemma safe_checkBillMatch {cost : ℤ} :
    settlement.Safe (.bill c) (checkBillMatch x amount id qty cost) ws H v
      fun _ _ H' v' => BillRoom (.bill c) id qty H' v' := by
  refine safe_bind (safe_lock stable_true trivial fun v1 _ => ?_)
  have hown : settlement.owns (.bill c) (H.lock [(.poLine id, .update)]) (.po id) :=
    mem_cons_self
  refine safe_bind (safe_findRow stable_true trivial fun v2 pl _ _ => ?_)
  refine safe_bind (safe_findRow stable_true trivial fun v3 po _ _ => ?_)
  refine safe_bind (safe_ensure fun _ => safe_bind (safe_ensure fun _ => ?_))
  refine safe_bind (safe_ensure fun _ => safe_bind (safe_ensure fun _ => ?_))
  refine safe_bind (safe_query stable_true trivial fun v4 _ => ?_)
  refine safe_bind (safe_query
    (stable_po (P := fun a _ _ => v4.received id ≤ a) fun _ _ _ _ hab h => h.trans hab)
    ⟨hown, le_rfl⟩ fun v5 hv5 => ?_)
  refine safe_bind (safe_query (stable_po (P := fun a x _ => v4.received id ≤ a ∧ x = v5.billed id)
      fun _ _ _ _ hab h => ⟨h.1.trans hab, h.2⟩) ⟨hown, hv5.2, rfl⟩ fun v6 hv6 => ?_)
  refine safe_bind (safe_ensure fun hroom => ⟨hown, ?_⟩)
  obtain ⟨-, hle, heq⟩ := hv6
  omega

lemma safe_insertBillLine {i : BillInput} (hK : settlement.Stable (.bill c) K) (hv : K H v)
    (hroom : ∀ o qty cost, i.item = .poMatch o qty cost →
      ∀ v', K H v' → BillRoom (.bill c) o qty H v') :
    settlement.Safe (.bill c) (Prog.exec (.billLine (i.row id x.docId idx))) ws H v
      fun _ _ _ _ => True := by
  refine safe_exec hK hv (fun v1 hv1 => ?_) fun _ _ _ => trivial
  refine guarantee_single trivial fun r hr => ?_
  cases r with
  | po o =>
    cases hitem : i.item with
    | service a => simp [settlement, MatchItem.Touch, BillLine.counted, BillInput.row, hitem] at hr
    | disposalMatch e n qty cost =>
      simp [settlement, MatchItem.Touch, BillLine.counted, BillInput.row, hitem] at hr
    | poMatch o' qty cost =>
      obtain rfl : o' = o := by
        by_contra hne
        simp [settlement, MatchItem.Touch, BillLine.counted, BillInput.row, hitem, hne] at hr
      obtain ⟨hown, hle⟩ := hroom o' qty cost hitem v1 hv1
      refine ⟨hown, fun _ => ?_⟩
      show (docSchema.apply _ v1).billed o' + _ ≤ _
      simp only [billed_apply, returnedToApUnsettled_apply, received_apply, DocWrite.bills,
        DocWrite.returnsToAp, DocWrite.receives, BillLine.counted, BillInput.row, hitem, if_true]
      omega
  | so o | customerDoc n | poDoc n => exact hr.elim

lemma safe_billLine {i : BillInput} :
    settlement.Safe (.bill c) (billLine x idx i) ws H v fun _ _ _ _ => True := by
  unfold billLine
  split
  next o qty cost hitem =>
    have hstable := stable_billRoom (.bill c) o qty
    refine safe_checkBillMatch.bind fun pl _ _ _ hv1 => ?_
    refine (settlement_safe_plain hstable hv1).bind
      fun unsettled _ _ _ hv2 => ?_
    refine safe_bind (safe_nextval hstable hv2 fun v3 id hv3 _ _ => ?_)
    refine (safe_insertBillLine hstable (hstable.draw _ id _ hv3) ?_).bind fun _ _ _ _ _ => ?_
    · intro o' qty' cost' heq v' hv'
      rw [hitem] at heq
      cases heq
      exact hv'
    · exact settlement_safe_plain stable_true trivial
  next a hitem =>
    refine (settlement_safe_plain stable_true trivial).bind fun expense _ _ _ _ => ?_
    refine safe_bind (safe_nextval stable_true trivial fun v3 id _ _ _ => ?_)
    refine (safe_insertBillLine stable_true trivial ?_).bind fun _ _ _ _ _ => ?_
    · intro o' qty' cost' heq
      rw [hitem] at heq
      cases heq
    · exact settlement_safe_plain stable_true trivial
  next e n qty cost hitem =>
    refine (settlement_safe_plain stable_true trivial).bind fun accrued _ _ _ _ => ?_
    refine (settlement_safe_plain stable_true trivial).bind fun liability _ _ _ _ => ?_
    refine safe_bind (safe_nextval stable_true trivial fun v3 id _ _ _ => ?_)
    refine (safe_insertBillLine stable_true trivial ?_).bind fun _ _ _ _ _ => ?_
    · intro o' qty' cost' heq
      rw [hitem] at heq
      cases heq
    · exact settlement_safe_plain stable_true trivial

lemma safe_billLines (is : List BillInput) :
    settlement.Safe (.bill c) (billLines x idx is) ws H v fun _ _ _ _ => True := by
  induction is generalizing idx ws H v with
  | nil => trivial
  | cons i is ih => exact safe_billLine.bind fun es _ _ _ _ => ih.bind fun _ _ _ _ _ => trivial

theorem settlement_safe_bill (c : ApBill) (v : DocDb) :
    settlement.Safe (.bill c) (postApBill c) [] {} v fun _ _ _ _ => True := by
  refine safe_unlessDocument stable_true trivial fun v1 _ => ?_
  refine (settlement_safe_plain stable_true trivial).bind fun vendor _ _ _ _ => ?_
  refine safe_bind (safe_ensure fun _ => ?_)
  refine (settlement_safe_plain stable_true trivial).bind fun ap _ _ _ _ => ?_
  refine safe_header (fun h => settlement_harmless trivial) stable_true trivial
    fun docId _ _ _ _ => ?_
  refine (safe_billLines c.lines).bind fun batch _ _ _ _ => ?_
  exact settlement_safe_plain stable_true trivial

end Bills

/-! ### Returns -/

/-- A sum over the lines of other documents is one over all, if the document's own add nothing. -/
lemma sum_map_filter_of_eq_zero {α : Type} (p : α → Bool) (f : α → ℤ) {ls : List α}
    (h : ∀ l ∈ ls, p l = false → f l = 0) : ((ls.filter p).map f).sum = (ls.map f).sum := by
  induction ls with
  | nil => rfl
  | cons l ls ih =>
    have ih' := ih fun x hx => h x (mem_cons_of_mem l hx)
    by_cases hp : p l = true
    · simp [hp, ih']
    · have hzero := h l mem_cons_self (by simpa using hp)
      simp [hp, ih', hzero]

/-- A side of the match as its returns see it: the order lines, with what was delivered and settled
of each, and the lines of the returns, with what of them goes against what is unsettled. -/
structure ReturnSide (Line Input : Type) where
  call : Settling
  item : ℕ → MatchItem
  doc : ℕ → MatchItem
  row : ℕ → DocRow
  delivered : DocDb → ℕ → ℤ
  settled : DocDb → ℕ → ℤ
  lines : DocDb → List Line
  returnId : Line → ℕ
  orderLine : Line → ℕ
  unsettled : Line → ℤ
  write : Line → DocWrite
  Named : DocDb → Input → ℕ → Prop

namespace ReturnSide

variable {Line Input : Type} (S : ReturnSide Line Input)

def returned (d : DocDb) (o : ℕ) : ℤ :=
  ((S.lines d).map fun l => if S.orderLine l = o then S.unsettled l else 0).sum

def linesOf (d : DocDb) (n : ℕ) : List Line := (S.lines d).filter (S.returnId · == n)

structure Lawful : Prop where
  same_item : ∀ {o d d'}, MatchItem.Same (S.item o) d d' → S.settled d' o = S.settled d o ∧
    S.returned d' o = S.returned d o ∧ S.delivered d o ≤ S.delivered d' o
  same_doc : ∀ {n d d'}, MatchItem.Same (S.doc n) d d' → S.linesOf d' n = S.linesOf d n
  ok_item : ∀ {o d}, S.settled d o + S.returned d o ≤ S.delivered d o → MatchItem.Ok (S.item o) d
  ok_doc : ∀ {n d}, MatchItem.Ok (S.doc n) d
  owns_doc : ∀ {n} {H : Holds DocRow}, n ∈ H.drawn → MatchItem.Owns S.call H (S.doc n)
  named : ∀ {d d' i o}, MatchItem.Stays S.call d d' → S.Named d i o → S.Named d' i o
  writes : ∀ l, MatchItem.Writes S.call (S.write l)
  touch : ∀ {l r}, MatchItem.Touch (S.write l) r →
    r = S.item (S.orderLine l) ∧ S.unsettled l ≠ 0 ∨ r = S.doc (S.returnId l)
  lines_write : ∀ l d, S.lines (docSchema.apply (S.write l) d) = S.lines d ++ [l]
  settled_write : ∀ l d, S.settled (docSchema.apply (S.write l) d) = S.settled d
  delivered_write : ∀ l d, S.delivered (docSchema.apply (S.write l) d) = S.delivered d

/-- What a return knows on its way: the order lines of the lines still to come, and that its own
lines so far are for others. -/
structure Knows (docId : ℕ) (done rest : List ℕ) (is : List Input) (H : Holds DocRow) (v : DocDb) :
    Prop where
  drawn : docId ∈ H.drawn
  own : ∀ l ∈ S.linesOf v docId, S.orderLine l ∈ done
  names : List.Forall₂ (S.Named v) is rest

/-- The order line is owned, and what goes against what is unsettled is covered by it. -/
def Room (o : ℕ) (part : ℤ) (H : Holds DocRow) (v : DocDb) : Prop :=
  settlement.owns S.call H (S.item o) ∧
    (part = 0 ∨ S.settled v o + S.returned v o + part ≤ S.delivered v o)

variable {S} {is : List Input} {i : Input} {part : ℤ}

namespace Lawful

variable (hS : S.Lawful)

include hS

lemma stable_named (is : List Input) (rest : List ℕ) :
    settlement.Stable S.call fun _ v => List.Forall₂ (S.Named v) is rest where
  rely _ _ _ _ hstays _ hv := hv.imp fun _ _ => hS.named hstays
  lock _ _ _ hv := hv
  draw _ _ _ hv := hv

lemma stable_doc (n : ℕ) (P : List Line → Prop) :
    settlement.Stable S.call fun H v => n ∈ H.drawn ∧ P (S.linesOf v n) where
  rely _ _ _ h _ _ hv := by
    rw [hS.same_doc (h (S.doc n) (hS.owns_doc hv.1))]
    exact hv
  lock _ _ _ hv := hv
  draw _ _ _ hv := ⟨mem_cons_of_mem _ hv.1, hv.2⟩

lemma stable_knows (docId : ℕ) (done rest : List ℕ) (is : List Input) :
    settlement.Stable S.call (S.Knows docId done rest is) := by
  have hboth := (hS.stable_doc docId fun ls => ∀ l ∈ ls, S.orderLine l ∈ done).and
    (hS.stable_named is rest)
  constructor
  · intro H v v' h hstays hok hv
    obtain ⟨⟨hdrawn, hown⟩, hnames⟩ := hboth.rely H v v' h hstays hok ⟨⟨hv.drawn, hv.own⟩, hv.names⟩
    exact ⟨hdrawn, hown, hnames⟩
  · exact fun H ls v hv => ⟨hv.drawn, hv.own, hv.names⟩
  · exact fun H n v hv => ⟨mem_cons_of_mem n hv.drawn, hv.own, hv.names⟩

lemma stable_sums (hP : ∀ a b x y, a ≤ b → P a x y → P b x y) :
    settlement.Stable S.call fun H v => settlement.owns S.call H (S.item o) ∧
      P (S.delivered v o) (S.settled v o) (S.returned v o) :=
  stable_item (fun _ _ => hS.same_item) hP

lemma stable_room (o : ℕ) (part : ℤ) : settlement.Stable S.call (S.Room o part) :=
  hS.stable_sums (P := fun a x y => part = 0 ∨ x + y + part ≤ a)
    fun _ _ _ _ hab h => h.imp_right fun h => h.trans hab

/-- The sums are read under the lock; the return's own lines are not among those of the order line.
-/
lemma safe_split {prior : DocDb → ℤ × ℤ} {e : DocErr}
    (hown : settlement.owns S.call (H.lock [(S.row o, .update)]) (S.item o))
    (hprior : ∀ d, (prior d).1 = (((S.lines d).filter (S.returnId · != docId)).map fun l =>
      if S.orderLine l = o then S.unsettled l else 0).sum)
    (hnew : o ∉ done) (hq : 0 < qty) (hv : S.Knows docId done rest is H v) :
    settlement.Safe S.call (do
      Prog.lockRow (S.row o) .update
      let delivered ← Prog.query (S.delivered · o)
      let settled ← Prog.query (S.settled · o)
      let p ← Prog.query prior
      splitReturn delivered settled p.1 p.2 qty e) ws H v
      fun s _ H' v' => S.Knows docId done rest is H' v' ∧ S.Room o s.toUnsettled H' v' := by
  have hknows := hS.stable_knows docId done rest is
  refine safe_bind (safe_lock hknows hv fun v1 hv1 => ?_)
  refine safe_bind (safe_query hknows (hknows.lock _ _ _ hv1) fun v2 hv2 => ?_)
  refine safe_bind (safe_query (hknows.and
    (hS.stable_sums (P := fun a _ _ => S.delivered v2 o ≤ a) fun _ _ _ _ hab h => h.trans hab))
    ⟨hv2, hown, le_rfl⟩ fun v3 hv3 => ?_)
  refine safe_bind (safe_query (hknows.and
    (hS.stable_sums (P := fun a x _ => S.delivered v2 o ≤ a ∧ x = S.settled v3 o)
      fun _ _ _ _ hab h => ⟨h.1.trans hab, h.2⟩))
    ⟨hv3.1, hown, hv3.2.2, rfl⟩ fun v4 hv4 => ?_)
  obtain ⟨hknown, -, hle, heq⟩ := hv4
  refine safe_bind (safe_ensure fun _ => ⟨hknown, hown, ?_⟩)
  have hreturned : (prior v4).1 = S.returned v4 o := by
    refine (hprior v4).trans (sum_map_filter_of_eq_zero _ _ fun l hl hdoc => ?_)
    have hmem : l ∈ S.linesOf v4 docId := mem_filter.mpr ⟨hl, by simpa using hdoc⟩
    exact if_neg (ne_of_mem_of_not_mem (hknown.own l hmem) hnew)
  dsimp only
  rw [hreturned, heq]
  omega

lemma safe_insert {l : Line} (hdoc : S.returnId l = docId)
    (hv : S.Knows docId done (S.orderLine l :: rest) (i :: is) H v)
    (hroom : S.Room (S.orderLine l) (S.unsettled l) H v) :
    settlement.Safe S.call (Prog.exec (S.write l)) ws H v fun _ _ H' v' =>
      S.Knows docId (S.orderLine l :: done) rest is H' v' := by
  subst hdoc
  refine safe_exec ((hS.stable_knows _ _ _ _).and (hS.stable_room _ _)) ⟨hv, hroom⟩
    (fun v1 hv1 => guarantee_single (hS.writes l) fun r hr => ?_) fun v1 hv1 _ => ?_
  · rcases hS.touch hr with ⟨rfl, hpart⟩ | rfl
    · refine ⟨hv1.2.1, fun _ => hS.ok_item ?_⟩
      have hle := hv1.2.2.resolve_left hpart
      rw [hS.settled_write, hS.delivered_write, returned, hS.lines_write, map_append, sum_append,
        map_singleton, if_pos rfl, sum_singleton, ← add_assoc]
      exact hle
    · exact ⟨hS.owns_doc hv1.1.drawn, fun _ => hS.ok_doc⟩
  · refine (hS.stable_knows _ _ _ _).lock _ _ _ ⟨hv1.1.drawn, fun k hk => ?_, ?_⟩
    · obtain ⟨hmem, hdoc⟩ := mem_filter.mp hk
      rw [hS.lines_write] at hmem
      rcases mem_append.mp hmem with hold | hnew
      · exact mem_cons_of_mem _ (hv1.1.own k (mem_filter.mpr ⟨hold, hdoc⟩))
      · rw [mem_singleton.mp hnew]
        exact mem_cons_self
    · exact (forall₂_cons.mp hv1.1.names).2.imp fun _ _ =>
        hS.named (MatchItem.stays_write _ _ _)

lemma safe_line {f : ℕ → Line} {p : ℕ → DocTx (List Event)}
    [∀ id, Prog.Confined DocWrite.IsPlain (p id)] (hdoc : ∀ id, S.returnId (f id) = docId)
    (hline : ∀ id, S.orderLine (f id) = o) (hpart : ∀ id, S.unsettled (f id) = part)
    (hv : S.Knows docId done (o :: rest) (i :: is) H v ∧ S.Room o part H v) :
    settlement.Safe S.call (do
      let id ← Prog.nextval
      Prog.exec (S.write (f id))
      p id) ws H v fun _ _ H' v' => S.Knows docId (o :: done) rest is H' v' := by
  have hboth := (hS.stable_knows docId done (o :: rest) (i :: is)).and (hS.stable_room o part)
  refine safe_bind (safe_nextval hboth hv fun v1 id hv1 _ _ => ?_)
  obtain rfl := hline id
  obtain rfl := hpart id
  obtain ⟨hknown, hroom⟩ := hboth.draw _ id _ hv1
  exact (hS.safe_insert (hdoc id) hknown hroom).bind fun _ _ _ _ hv2 =>
    settlement_safe_plain (hS.stable_knows _ _ _ _) hv2

end Lawful

lemma safe_lines {f : ℕ → Input → DocTx (List Event)} {g : ℕ → List Input → DocTx (List Event)}
    (hnil : ∀ idx, g idx [] = pure [])
    (hcons : ∀ idx i is, g idx (i :: is) = f idx i >>= fun es => g (idx + 1) is >>= fun es' =>
      pure (es ++ es'))
    (hf : ∀ {idx i is o done rest ws H v}, o ∈ os → o ∉ done →
      S.Knows docId done (o :: rest) (i :: is) H v →
      settlement.Safe S.call (f idx i) ws H v fun _ _ H' v' =>
        S.Knows docId (o :: done) rest is H' v')
    (hrest : ∀ o ∈ rest, o ∈ os) (hnodup : rest.Nodup) (hdisj : rest.Disjoint done)
    (hv : S.Knows docId done rest is H v) :
    settlement.Safe S.call (g idx is) ws H v fun _ _ _ _ => True := by
  induction is generalizing done rest idx ws H v with
  | nil =>
    rw [hnil]
    trivial
  | cons i is ih =>
    obtain ⟨o, rest, -, -, rfl⟩ := forall₂_cons_left_iff.mp hv.names
    rw [hcons]
    refine (hf (hrest o mem_cons_self) (fun h => hdisj mem_cons_self h) hv).bind
      fun es _ _ _ hv1 => ?_
    refine (ih (fun x hx => hrest x (mem_cons_of_mem o hx)) (nodup_cons.mp hnodup).2 ?_
      hv1).bind fun _ _ _ _ _ => trivial
    intro x hx hdone
    rcases mem_cons.mp hdone with rfl | hdone
    · exact (nodup_cons.mp hnodup).1 hx
    · exact hdisj (mem_cons_of_mem o hx) hdone

/-- A call that looks for its party, numbers its document and goes through its lines. -/
lemma Lawful.safe_post {α : Type} {party : DocDb → Option α} {e : DocErr} {kind : DocKind}
    {key ownerId : ℕ} {date : Date} {body : ℕ → DocTx Unit} [Decidable (is ≠ [])] (hS : S.Lawful)
    (hused : ∀ v n, S.linesOf v n ≠ [] → settlement.used v n)
    (hbody : ∀ {docId ws H v}, S.Knows docId [] os is H v →
      settlement.Safe S.call (body docId) ws H v fun _ _ _ _ => True)
    (hv : List.Forall₂ (S.Named v) is os) :
    settlement.Safe S.call (unlessDocument kind key do
      let _ ← findRow party e
      Prog.ensure (is ≠ []) e
      withHeader kind key ownerId date body) ws H v fun _ _ _ _ => True := by
  have hnames := hS.stable_named is os
  refine safe_unlessDocument hnames hv fun v1 hv1 => ?_
  refine (settlement_safe_plain hnames hv1).bind fun _ _ _ _ hv2 => ?_
  refine safe_bind (safe_ensure fun _ => ?_)
  refine safe_withHeader (fun h => settlement_harmless trivial) hnames
    (fun n => hS.stable_doc n (· = [])) (fun n H v hn hfree => ⟨hn, ?_⟩) hv2
    fun docId _ _ _ hv3 hdoc => hbody ⟨hdoc.1, by simp [hdoc.2], hv3⟩
  by_contra hne
  exact hfree (hused v n hne)

end ReturnSide

section CustomerReturns

variable {c : CustomerReturn}

def ShipLineOf (v : DocDb) (i : CustomerReturnInput) (o : ℕ) : Prop :=
  (v.shipmentLine? i.shipLineId).map (·.soLineId) = some o
  deriving Decidable

def customerReturns (c : CustomerReturn) (os : List ℕ) :
    ReturnSide CustomerReturnLine CustomerReturnInput where
  call := .customerReturn c os
  item := .so
  doc := .customerDoc
  row := .soLine
  delivered := DocDb.shipped
  settled := DocDb.invoiced
  lines := DocDb.customerReturnLines
  returnId := CustomerReturnLine.returnId
  orderLine := CustomerReturnLine.soLineId
  unsettled := CustomerReturnLine.qtyToArUnsettled
  write := .customerReturnLine
  Named := ShipLineOf

lemma customerReturns_lawful (c : CustomerReturn) (os : List ℕ) :
    (customerReturns c os).Lawful where
  same_item h := h
  same_doc h := h
  ok_item h := h
  ok_doc := trivial
  owns_doc h := h
  named {d d' i o} hstays h := by
    -- shipment lines are only added, behind those there are
    have hprefix : d.shipmentLines <+: d'.shipmentLines := hstays
    obtain ⟨l, hl, hlo⟩ := map_eq_some_iff.mp h
    exact map_eq_some_iff.mpr ⟨l, hprefix.find?_eq_some hl, hlo⟩
  writes _ := trivial
  touch {l r} h := by
    cases r with
    | so o =>
      obtain ⟨rfl, hpart⟩ := ite_ne_right_iff.mp (show l.toUnsettled o ≠ 0 from h)
      exact .inl ⟨rfl, hpart⟩
    | customerDoc n => exact .inr (congrArg _ (Eq.symm h))
    | po o | poDoc n => exact h.elim
  lines_write _ _ := rfl
  settled_write _ _ := rfl
  delivered_write _ _ := rfl

lemma safe_findShipLine {i : CustomerReturnInput} (hK : settlement.Stable (.customerReturn c os) K)
    (hv : K H v) :
    settlement.Safe (.customerReturn c os) (findShipLine c i) ws H v fun a _ H' v' =>
      K H' v' ∧ v'.shipmentLine? i.shipLineId = some a.1 := by
  refine safe_bind (safe_findRow hK hv fun v1 found hv1 hfound => ?_)
  refine safe_bind (safe_ensure fun _ => ⟨hv1, ?_⟩)
  simp only [bind_eq_bind, bind_eq_some_iff] at hfound
  obtain ⟨ssl, hssl, sl, -, ss, -, so, -, heq⟩ := hfound
  cases heq
  exact hssl

lemma safe_customerReturnLine {is : List CustomerReturnInput} {i : CustomerReturnInput}
    (ho : o ∈ os) (hnew : o ∉ done)
    (hv : (customerReturns c os).Knows docId done (o :: rest) (i :: is) H v) :
    settlement.Safe (.customerReturn c os) (customerReturnLine c docId idx i) ws H v
      fun _ _ H' v' => (customerReturns c os).Knows docId (o :: done) rest is H' v' := by
  have hS := customerReturns_lawful c os
  have hknows := hS.stable_knows docId done (o :: rest) (i :: is)
  refine safe_bind (safe_positiveQty fun qty hq => ?_)
  refine (safe_findShipLine hknows hv).bind fun found _ _ v1 hv1 => ?_
  -- the line found is the one the order line was told for
  obtain rfl : found.1.soLineId = o := by
    have hhead : ShipLineOf v1 i o := (forall₂_cons.mp hv1.1.names).1
    rw [ShipLineOf, hv1.2, map_some] at hhead
    exact some.inj hhead
  refine (hS.safe_split ⟨ho, mem_cons_self⟩ (fun _ => rfl) hnew hq hv1.1).bind
    fun s _ _ _ hv2 => ?_
  refine (settlement_safe_plain (hknows.and (hS.stable_room _ _)) hv2).bind
    fun a _ _ _ hv3 => ?_
  exact hS.safe_line (fun _ => rfl) (fun _ => rfl) (fun _ => rfl) hv3

def ReturnNames (d : DocDb) (c : CustomerReturn) (os : List ℕ) : Prop :=
  List.Forall₂ (ShipLineOf d) c.lines os ∧ os.Nodup
  deriving Decidable

theorem settlement_safe_customerReturn (c : CustomerReturn) (os : List ℕ) (v : DocDb)
    (h : ReturnNames v c os) :
    settlement.Safe (.customerReturn c os) (postCustomerReturn c) [] {} v fun _ _ _ _ => True := by
  refine (customerReturns_lawful c os).safe_post (fun _ _ => .inl) (fun hknows => ?_) h.1
  refine (ReturnSide.safe_lines (g := customerReturnLines c _) (fun _ => rfl) (fun _ _ _ => rfl)
    safe_customerReturnLine (fun o ho => ho) h.2 (disjoint_nil_right _) hknows).bind
    fun batch _ _ _ _ => ?_
  exact settlement_safe_plain stable_true trivial

end CustomerReturns

section PoReturns

variable {c : PoReturn}

def RecvLineOf (v : DocDb) (i : PoReturnInput) (o : ℕ) : Prop :=
  (v.receiptLine? i.recvLineId).map (·.poLineId) = some o
  deriving Decidable

def poReturns (c : PoReturn) (os : List ℕ) : ReturnSide PoReturnLine PoReturnInput where
  call := .poReturn c os
  item := .po
  doc := .poDoc
  row := .poLine
  delivered := DocDb.received
  settled := DocDb.billed
  lines := DocDb.poReturnLines
  returnId := PoReturnLine.returnId
  orderLine := PoReturnLine.poLineId
  unsettled := PoReturnLine.qtyToApUnsettled
  write := .poReturnLine
  Named := RecvLineOf

lemma poReturns_lawful (c : PoReturn) (os : List ℕ) : (poReturns c os).Lawful where
  same_item h := h
  same_doc h := h
  ok_item h := h
  ok_doc := trivial
  owns_doc h := h
  named {d d' i o} hstays h := by
    -- receipt lines are only added, behind those there are
    have hprefix : d.receiptLines <+: d'.receiptLines := hstays
    obtain ⟨l, hl, hlo⟩ := map_eq_some_iff.mp h
    exact map_eq_some_iff.mpr ⟨l, hprefix.find?_eq_some hl, hlo⟩
  writes _ := trivial
  touch {l r} h := by
    cases r with
    | po o =>
      obtain ⟨rfl, hpart⟩ := ite_ne_right_iff.mp (show l.toUnsettled o ≠ 0 from h)
      exact .inl ⟨rfl, hpart⟩
    | poDoc n => exact .inr (congrArg _ (Eq.symm h))
    | so o | customerDoc n => exact h.elim
  lines_write _ _ := rfl
  settled_write _ _ := rfl
  delivered_write _ _ := rfl

lemma safe_findRecvLine {i : PoReturnInput} (hK : settlement.Stable (.poReturn c os) K)
    (hv : K H v) :
    settlement.Safe (.poReturn c os) (findRecvLine c i) ws H v fun a _ H' v' =>
      K H' v' ∧ v'.receiptLine? i.recvLineId = some a.1 := by
  refine safe_bind (safe_findRow hK hv fun v1 found hv1 hfound => ?_)
  refine safe_bind (safe_ensure fun _ => ⟨hv1, ?_⟩)
  simp only [bind_eq_bind, bind_eq_some_iff] at hfound
  obtain ⟨rcl, hrcl, sl, -, ss, -, so, -, heq⟩ := hfound
  cases heq
  exact hrcl

lemma safe_poReturnLine {is : List PoReturnInput} {i : PoReturnInput} (hnew : o ∉ done)
    (hv : (poReturns c os).Knows docId done (o :: rest) (i :: is) H v) :
    settlement.Safe (.poReturn c os) (poReturnLine c docId idx i) ws H v
      fun _ _ H' v' => (poReturns c os).Knows docId (o :: done) rest is H' v' := by
  have hS := poReturns_lawful c os
  have hknows := hS.stable_knows docId done (o :: rest) (i :: is)
  refine safe_bind (safe_positiveQty fun qty hq => ?_)
  refine (safe_findRecvLine hknows hv).bind fun found _ _ v1 hv1 => ?_
  -- the line found is the one the order line was told for
  obtain rfl : found.1.poLineId = o := by
    have hhead : RecvLineOf v1 i o := (forall₂_cons.mp hv1.1.names).1
    rw [RecvLineOf, hv1.2, map_some] at hhead
    exact some.inj hhead
  refine (hS.safe_split mem_cons_self (fun _ => rfl) hnew hq hv1.1).bind fun s _ _ _ hv2 => ?_
  have hboth := hknows.and (hS.stable_room found.1.poLineId s.toUnsettled)
  refine (settlement_safe_plain hboth hv2).bind fun unit _ _ _ hv2 => ?_
  refine (settlement_safe_plain hboth hv2).bind fun a _ _ _ hv3 => ?_
  exact hS.safe_line (fun _ => rfl) (fun _ => rfl) (fun _ => rfl) hv3

def PoReturnNames (d : DocDb) (c : PoReturn) (os : List ℕ) : Prop :=
  List.Forall₂ (RecvLineOf d) c.lines os ∧ os.Nodup
  deriving Decidable

theorem settlement_safe_poReturn (c : PoReturn) (os : List ℕ) (v : DocDb)
    (h : PoReturnNames v c os) :
    settlement.Safe (.poReturn c os) (postPoReturn c) [] {} v fun _ _ _ _ => True := by
  refine (poReturns_lawful c os).safe_post (fun _ _ => .inr) (fun hknows => ?_) h.1
  refine (ReturnSide.safe_lines (g := poReturnLines c _) (fun _ => rfl) (fun _ _ _ => rfl)
    (fun _ => safe_poReturnLine) (fun o ho => ho) h.2 (disjoint_nil_right _) hknows).bind
    fun batch _ _ _ _ => ?_
  exact settlement_safe_plain stable_true trivial

end PoReturns

end Safety

/-! ### Every run -/

def Settling.ApartFrom (os : List ℕ) : Settling → Prop
  | .invoice c => c.orderLines.Disjoint os
  | .customerReturn _ os' => os'.Disjoint os
  | _ => True

def Settling.NoInvoiceOf (os : List ℕ) : Settling → Prop
  | .invoice c => c.orderLines.Disjoint os
  | _ => True

/-- An invoice begins only while no invoice and no return of one of its order lines runs, and a
return only while no invoice of one of its order lines does. The lines a return names are there,
each of its own order line. -/
def MatchesApart (s : State DocDb DocWrite DocRow DocErr ℕ Settling) : Move Settling → Prop
  | .start (.invoice c) => ∀ u ∈ s.sessions, u.status = .running → u.call.ApartFrom c.orderLines
  | .start (.customerReturn c os) => ReturnNames s.db c os ∧
      ∀ u ∈ s.sessions, u.status = .running → u.call.NoInvoiceOf os
  | .start (.poReturn c os) => PoReturnNames s.db c os
  | _ => True

instance decidableDisjoint (l l' : List ℕ) : Decidable (l.Disjoint l') :=
  decidable_of_iff (∀ a ∈ l, a ∉ l') ⟨fun h _ ha hb => h _ ha hb, fun h _ ha hb => h ha hb⟩

instance (os : List ℕ) : DecidablePred (Settling.ApartFrom os)
  | .invoice c => inferInstanceAs (Decidable (c.orderLines.Disjoint os))
  | .customerReturn _ os' => inferInstanceAs (Decidable (os'.Disjoint os))
  | .ship _ | .receive _ | .bill _ | .poReturn _ _ => inferInstanceAs (Decidable True)

instance (os : List ℕ) : DecidablePred (Settling.NoInvoiceOf os)
  | .invoice c => inferInstanceAs (Decidable (c.orderLines.Disjoint os))
  | .ship _ | .receive _ | .bill _ | .customerReturn _ _ | .poReturn _ _ =>
    inferInstanceAs (Decidable True)

instance (s : State DocDb DocWrite DocRow DocErr ℕ Settling) : DecidablePred (MatchesApart s)
  | .start (.invoice c) => inferInstanceAs
      (Decidable (∀ u ∈ s.sessions, u.status = .running → u.call.ApartFrom c.orderLines))
  | .start (.customerReturn c os) => inferInstanceAs (Decidable (ReturnNames s.db c os ∧
      ∀ u ∈ s.sessions, u.status = .running → u.call.NoInvoiceOf os))
  | .start (.poReturn c os) => inferInstanceAs (Decidable (PoReturnNames s.db c os))
  | .start (.ship _) | .start (.receive _) | .start (.bill _) | .step _ | .abort _ =>
    inferInstanceAs (Decidable True)

lemma matched_iff (d : DocDb) : Matched d ↔ ∀ r, settlement.ok r d := by
  constructor
  · rintro ⟨hso, hpo⟩ (id | id | n | n)
    · exact hso id
    · exact hpo id
    · trivial
    · trivial
  · exact fun h => ⟨fun id => h (.so id), fun id => h (.po id)⟩

lemma together_of_apart {s : State DocDb DocWrite DocRow DocErr ℕ Settling} {c : Settling}
    (hc : MatchesApart s (.start c)) {u : Session DocDb DocWrite DocRow DocErr ℕ Settling}
    (hu : u ∈ s.sessions) (hrun : u.status = .running) :
    settlement.together u.call c ∧ settlement.together c u.call := by
  have hsymm : ∀ {l l' : List ℕ}, l.Disjoint l' → l'.Disjoint l := fun h _ ha hb => h hb ha
  cases c with
  | invoice c =>
    have hapart := hc u hu hrun
    cases hcall : u.call <;> rw [hcall] at hapart <;>
      first
      | exact ⟨trivial, trivial⟩
      | exact ⟨hapart, hsymm hapart⟩
  | customerReturn c os =>
    have hapart := hc.2 u hu hrun
    cases hcall : u.call <;> rw [hcall] at hapart <;>
      first
      | exact ⟨trivial, trivial⟩
      | exact ⟨hapart, hsymm hapart⟩
  | _ => cases u.call <;> exact ⟨trivial, trivial⟩

/-- In every run in which no invoice overlaps an invoice or a return of one of its order lines,
every committed database is matched. -/
theorem matched_of_apart (db : DocDb) (seq : ℕ) (h : Matched db)
    (hseq : ∀ n, seq ≤ n → db.customerReturnsOf n = [] ∧ db.poReturnsOf n = [])
    (ms : List (Move Settling))
    (hms : Throughout (State.exec? docSchema Settling.prog) MatchesApart { db, seq } ms) :
    Matched (run (State.exec? docSchema Settling.prog) { db, seq } ms).db := by
  rw [matched_iff] at h ⊢
  refine run_ok ?_ (fun s c hc u => together_of_apart hc) h ?_ ms hms
  · intro s c hc _
    cases c with
    | ship c => exact settlement_safe_ship c s.db
    | receive c => exact settlement_safe_receive c s.db
    | invoice c => exact settlement_safe_invoice c s.db
    | bill c => exact settlement_safe_bill c s.db
    | customerReturn c os => exact settlement_safe_customerReturn c os s.db hc.1
    | poReturn c os => exact settlement_safe_poReturn c os s.db hc
  · rintro n hn (hused | hused)
    · exact hused (hseq n hn).1
    · exact hused (hseq n hn).2

/-! ### Two invoices of one shipment -/

/-- The shop, with the customer's receivable. -/
def settleDb : DocDb :=
  { shopDb with
    ledger := { shopDb.ledger with
      accounts := shopDb.ledger.accounts ++
        [{ id := 7, kind := .ar, ledger := .value 0, counterpartyId := some 7 }] }
    customers := [{ id := 7 }] }

def shipFour : Settling :=
  .ship
    { soId := 1, lines := [{ soLineId := 1, qtyShipped := some 4 }], businessDate := 1, key := 1 }

def invoiceThree (key : ℕ) : Settling :=
  .invoice
    { customerId := 7, currency := 0, lines := [⟨.soMatch 1 3 8, 24, none⟩], businessDate := 1,
      key }

def returnOne : Settling :=
  .customerReturn
    { customerId := 7, lines := [⟨1, some 1, .restock⟩], businessDate := 1, key := 1 } [1]

def overlappingInvoices : List (Move Settling) :=
  .start shipFour :: List.replicate 80 (.step 0) ++
    [.start (invoiceThree 1), .start (invoiceThree 2)] ++ List.replicate 10 (.step 2) ++
    List.replicate 60 (.step 1) ++ List.replicate 60 (.step 2)

def successiveSettling : List (Move Settling) :=
  .start shipFour :: List.replicate 80 (.step 0) ++
    .start (invoiceThree 1) :: List.replicate 60 (.step 1) ++
    .start returnOne :: List.replicate 80 (.step 2)

lemma matched_settleDb : Matched settleDb := ⟨fun _ => le_rfl, fun _ => le_rfl⟩

/-- Four pieces are shipped, three invoiced, and the fourth returned before it is invoiced. -/
theorem matched_successiveSettling :
    Matched (run (State.exec? docSchema Settling.prog) { db := settleDb } successiveSettling).db ∧
    (run (State.exec? docSchema Settling.prog) { db := settleDb } successiveSettling).db.invoiced 1
      = 3 ∧
    (run (State.exec? docSchema Settling.prog) { db := settleDb }
      successiveSettling).db.returnedToArUnsettled 1 = 1 :=
  ⟨matched_of_apart settleDb 0 matched_settleDb (fun _ _ => ⟨rfl, rfl⟩) successiveSettling
    (by decide +kernel), by decide +kernel, by decide +kernel⟩

/-- Two invoices of three pieces that overlap invoice six of the four shipped. -/
theorem overlappingInvoices_mismatch :
    Matched settleDb ∧
    (run (State.exec? docSchema Settling.prog) { db := settleDb } overlappingInvoices).db.shipped 1
      = 4 ∧
    (run (State.exec? docSchema Settling.prog) { db := settleDb } overlappingInvoices).db.invoiced 1
      = 6 ∧
    ¬ Matched
      (run (State.exec? docSchema Settling.prog) { db := settleDb } overlappingInvoices).db := by
  have hfour : (run (State.exec? docSchema Settling.prog) { db := settleDb }
      overlappingInvoices).db.shipped 1 = 4 := by decide +kernel
  have hsix : (run (State.exec? docSchema Settling.prog) { db := settleDb }
      overlappingInvoices).db.invoiced 1 = 6 := by decide +kernel
  have hnone : (run (State.exec? docSchema Settling.prog) { db := settleDb }
      overlappingInvoices).db.returnedToArUnsettled 1 = 0 := by decide +kernel
  refine ⟨matched_settleDb, hfour, hsix, fun h => ?_⟩
  have hle := h.1 1
  rw [hfour, hsix, hnone] at hle
  exact absurd hle (by decide)

end Acct.Main
