import Acct.Main.Equiv.Documents
import Acct.Main.PoReceipt
import Acct.Main.Returns
import Acct.Main.Settlement
import Acct.Main.SoShip

/-!
# What each wrapper writes

Everything a wrapper does but the inserts of its lines writes only the ledger, the header of its
document and reservations: nothing that counts towards an order line.
-/

namespace Acct.Main

open Isolation Prog

/-! ### Writes that count towards no order line -/

def DocWrite.IsPlain : DocWrite → Prop
  | .ledger _ | .header _ | .reservation _ | .setReservation _ _ | .moveReservation _ _ => True
  | _ => False

open DocWrite (IsPlain)

variable {kind : AccountKind} {skuId locationId partyId customerId docId soId vendorId lineId : ℕ}
  {currency : Currency} {e : DocErr} {sl : SoLine} {sku : Sku} {value : Account}
  {tax amount unit : ℤ} {pl pol : PoLine} {s : Split} {rcl : ReceiptLine} {recvDate : Date}

section Plain

variable {α β : Type}

instance (p : Tx α) : Confined IsPlain (ledger p) := ⟨only_embed fun _ => trivial⟩

instance : Confined IsPlain (stockAccount kind skuId locationId) := ⟨Confined.only (p := ledger _)⟩

instance : Confined IsPlain (stockValueAccount kind skuId locationId currency) :=
  ⟨Confined.only (p := ledger _)⟩

instance : Confined IsPlain (partyQtyAccount kind partyId) := ⟨Confined.only (p := ledger _)⟩

instance : Confined IsPlain (partyAccount kind partyId currency) := ⟨Confined.only (p := ledger _)⟩

instance : Confined IsPlain (currencyAccount kind currency) := ⟨Confined.only (p := ledger _)⟩

instance (p q : Account → Bool) : Confined IsPlain (openAccountOr p q) :=
  ⟨Confined.only (p := ledger _)⟩

instance (f : DocDb → Option α) : Confined IsPlain (findRow f e) := ⟨only_fetch _⟩

instance : Confined IsPlain randomKey := by
  unfold randomKey
  infer_instance

instance {o : Option α} {p : DocTx β} {f : α → DocTx β} [hp : Confined IsPlain p]
    [hf : ∀ a, Confined IsPlain (f a)] : Confined IsPlain (o.elim p f) := by
  cases o with
  | none => exact hp
  | some a => exact hf a

end Plain

section Document

variable {P : DocWrite → Prop}

lemma only_unlessDocument {kind : DocKind} {key : ℕ} {new : DocTx ℕ} (h : new.Only P) :
    (unlessDocument kind key new).Only P := by
  refine (only_query _).bind fun existing => ?_
  cases existing with
  | none => exact h
  | some id => trivial

lemma only_withHeader {kind : DocKind} {key ownerId : ℕ} {date : Date} {body : ℕ → DocTx Unit}
    (hheader : ∀ h, P (.header h)) (hbody : ∀ id, (body id).Only P) :
    (withHeader kind key ownerId date body).Only P := by
  show (unlessDocument _ _ _).Only P
  exact only_unlessDocument (only_nextval.bind fun id =>
    (only_exec (hheader _)).bind fun _ => (hbody id).bind fun _ => only_pure _)

end Document

/-! ### Shipments -/

section Ships

variable {c : SoShip} {i : ShipInput}

instance (qty : ℤ) : Confined IsPlain (shipUnitLot i sl qty) := by
  unfold shipUnitLot
  split <;> infer_instance

instance (soLineId lotId : ℕ) : Confined IsPlain (matchPin soLineId lotId) := by
  unfold matchPin
  infer_instance

instance : Confined IsPlain (shipPinnedLot i) := by
  refine ⟨(only_query _).bind fun pins => ?_⟩
  split <;> exact Confined.only

instance (qty : ℤ) : Confined IsPlain (shipLot i sl sku qty) := by
  unfold shipLot
  split <;> infer_instance

instance (qty : ℤ) : Confined IsPlain (shipLockedCost i sl sku value qty) := by
  unfold shipLockedCost shipAverage
  split <;> infer_instance

instance (qty : ℤ) : Confined IsPlain (shipCost c i sl sku value qty) := by
  unfold shipCost
  split <;> infer_instance

instance : Confined IsPlain (shipTaxAccount sl tax) := by
  unfold shipTaxAccount
  split <;> infer_instance

instance (qty : ℤ) : Confined IsPlain (draftShipLine c customerId i sl qty) := by
  unfold draftShipLine shipSku shipAccounts
  infer_instance

instance (w : ShipDraft) (l : ShipmentLine) : Confined IsPlain (shipEvents c docId w l) := by
  unfold shipEvents
  infer_instance

instance : Confined IsPlain (shipReservations soId) := by
  refine ⟨fun d => ⟨fun w hw => ?_, trivial⟩⟩
  obtain ⟨r, -, rfl⟩ := List.mem_map.mp hw
  trivial

instance : Confined IsPlain (shipUnits c docId) := by
  refine ⟨fun d => ⟨fun w hw => ?_, fun d' => ⟨fun w hw => ?_, trivial⟩⟩⟩
  · obtain ⟨u, -, rfl⟩ := List.mem_map.mp hw
    trivial
  · obtain ⟨e, -, rfl⟩ := List.mem_map.mp hw
    trivial

instance : Confined IsPlain (shipCustomer soId) := by
  unfold shipCustomer
  infer_instance

def DocWrite.IsShipping : DocWrite → Prop
  | .shipmentLine l => 0 < l.qtyShipped
  | w => w.IsPlain

lemma DocWrite.IsPlain.isShipping {w : DocWrite} (h : w.IsPlain) : w.IsShipping := by
  cases w <;> simp_all [DocWrite.IsShipping, DocWrite.IsPlain]

lemma returns_positiveQty (qty : Option ℤ) (e : DocErr) :
    (positiveQty qty e).Returns fun q => 0 < q := by
  unfold positiveQty
  split
  · split_ifs with hq
    · exact hq
    · trivial
  · trivial

instance (qty : Option ℤ) : Confined IsPlain (positiveQty qty e) := by
  unfold positiveQty
  split
  · split_ifs <;> infer_instance
  · infer_instance

instance : Confined IsPlain (checkShipLine c i) := by
  unfold checkShipLine
  infer_instance

lemma returns_checkShipLine : (checkShipLine c i).Returns fun a => 0 < a.2 := by
  refine (returns_positiveQty _ _).bind_of_returns fun q hq => ?_
  exact .bind fun _ => .bind fun _ => .bind fun _ => .bind fun _ => hq

theorem only_postSoShip (c : SoShip) : (postSoShip c).Only DocWrite.IsShipping := by
  have hplain : ∀ w : DocWrite, w.IsPlain → w.IsShipping := fun _ => DocWrite.IsPlain.isShipping
  have hline : ∀ customerId docId i, (shipLine c customerId docId i).Only DocWrite.IsShipping := by
    intro customerId docId i
    refine (Confined.only.mono hplain).bind_of_returns returns_checkShipLine fun a ha => ?_
    refine (Confined.only.mono hplain).bind fun w => only_nextval.bind fun id => ?_
    have hrow : DocWrite.IsShipping (.shipmentLine (w.row i a.1 a.2 id docId)) := ha
    exact (only_exec hrow).bind fun _ => Confined.only.mono hplain
  have hlines : ∀ customerId docId is,
      (shipLines c customerId docId is).Only DocWrite.IsShipping := by
    intro customerId docId is
    induction is with
    | nil => trivial
    | cons i is ih => exact (hline _ _ i).bind fun _ => ih.bind fun _ => only_pure _
  refine only_unlessDocument ((Confined.only.mono hplain).bind fun customerId =>
    (only_ensure _ _).bind fun _ => only_withHeader (fun h => hplain _ trivial) fun docId => ?_)
  exact (hlines _ _ _).bind fun _ => Confined.only.mono hplain

end Ships

/-! ### Receipts -/

section Receipts

variable {c : PoReceipt} {i : ReceiptInput}

instance (qty : ℤ) : Confined IsPlain (receiptSku i skuId qty) := by
  unfold receiptSku
  infer_instance

instance (qty : ℤ) : Confined IsPlain (receiptValue c pl sku qty) := by
  unfold receiptValue
  split <;> infer_instance

instance (ppv : ℤ) : Confined IsPlain (receiptVarianceAccount pl ppv) := by
  unfold receiptVarianceAccount
  split <;> infer_instance

instance (qty : ℤ) : Confined IsPlain (draftReceiptLine c vendorId i pl qty) := by
  unfold draftReceiptLine receiptAccounts
  infer_instance

instance (w : ReceiptDraft) (qty : ℤ) :
    Confined IsPlain (receiptEvents c docId lineId w i qty) := by
  unfold receiptEvents
  infer_instance

instance (poId : ℕ) : Confined IsPlain (receiptVendor poId) := by
  unfold receiptVendor
  infer_instance

def DocWrite.IsReceiving : DocWrite → Prop
  | .receiptLine l => 0 < l.qtyReceived
  | w => w.IsPlain

lemma DocWrite.IsPlain.isReceiving {w : DocWrite} (h : w.IsPlain) : w.IsReceiving := by
  cases w <;> simp_all [DocWrite.IsReceiving, DocWrite.IsPlain]

instance : Confined IsPlain (checkReceiptLine c i) := by
  unfold checkReceiptLine
  infer_instance

lemma returns_checkReceiptLine : (checkReceiptLine c i).Returns fun a => 0 < a.2 := by
  refine (returns_positiveQty _ _).bind_of_returns fun q hq => ?_
  exact .bind fun _ => .bind fun _ => .bind fun _ => .bind fun _ => .bind fun _ => hq

theorem only_postPoReceipt (c : PoReceipt) : (postPoReceipt c).Only DocWrite.IsReceiving := by
  have hplain : ∀ w : DocWrite, w.IsPlain → w.IsReceiving := fun _ => DocWrite.IsPlain.isReceiving
  have hline : ∀ vendorId docId i,
      (receiptLine c vendorId docId i).Only DocWrite.IsReceiving := by
    intro vendorId docId i
    refine (Confined.only.mono hplain).bind_of_returns returns_checkReceiptLine fun a ha => ?_
    refine (Confined.only.mono hplain).bind fun w => only_nextval.bind fun id => ?_
    have hrow : DocWrite.IsReceiving (.receiptLine (w.row i a.2 id docId)) := ha
    exact (only_exec hrow).bind fun _ => Confined.only.mono hplain
  have hlines : ∀ vendorId docId is,
      (receiptLines c vendorId docId is).Only DocWrite.IsReceiving := by
    intro vendorId docId is
    induction is with
    | nil => trivial
    | cons i is ih => exact (hline _ _ i).bind fun _ => ih.bind fun _ => only_pure _
  refine only_unlessDocument ((Confined.only.mono hplain).bind fun vendorId =>
    (only_ensure _ _).bind fun _ => only_withHeader (fun h => hplain _ trivial) fun docId => ?_)
  exact (hlines _ _ _).bind fun _ => Confined.only.mono hplain

end Receipts

/-! ### Invoices and bills -/

instance (reason : Reason) (date : Date) (party : Account) (partyDebit : Bool) (diff : ℤ) :
    Confined IsPlain (toleranceEvents reason date docId lineId party partyDebit currency diff) := by
  unfold toleranceEvents
  split <;> infer_instance

instance (id : ℕ) : Confined IsPlain (namedAccount id currency e) := by
  unfold namedAccount
  infer_instance

instance (x : InvoiceContext) (unsettled : Account) (qty : ℤ) :
    Confined IsPlain (invoiceMatchEvents x unsettled lineId amount qty sl) := by
  unfold invoiceMatchEvents
  infer_instance

instance (x : InvoiceContext) : Confined IsPlain (invoiceTaxEvents x lineId tax) := by
  unfold invoiceTaxEvents
  split_ifs <;> infer_instance

instance (x : BillContext) (eventId byProductNo : ℕ) (qty unitCost : ℤ) :
    Confined IsPlain (checkBillDisposal x amount eventId byProductNo qty unitCost) := by
  refine ⟨(only_fetch _).bind fun event => (only_ensure _ _).bind fun _ => ?_⟩
  exact (only_lockRow _ _).bind fun _ => (only_fetch _).bind fun bp => Confined.only

instance (x : BillContext) (accrual : Account) (atBase : ℤ) :
    Confined IsPlain (billMatchEvents x accrual lineId amount atBase) := by
  unfold billMatchEvents
  infer_instance

/-! ### Returns -/

instance {needed : Prop} [Decidable needed] {p : DocTx Account} [Confined IsPlain p] :
    Confined IsPlain (accountIf needed p) := by
  unfold accountIf
  split_ifs <;> infer_instance

instance (x : Disposition) : Confined IsPlain (returnQtyAccount sl x) := by
  cases x <;> exact ⟨Confined.only (p := ledger _)⟩

instance (x : Disposition) : Confined IsPlain (returnValueAccount sl x) := by
  cases x <;> exact ⟨Confined.only (p := ledger _)⟩

instance (c : CustomerReturn) (i : CustomerReturnInput) :
    Confined IsPlain (customerReturnAccounts c i sl s tax) := by
  unfold customerReturnAccounts
  infer_instance

instance (c : CustomerReturn) (a : CustomerReturnAccounts) :
    Confined IsPlain (returnTaxEvents c docId lineId a currency tax) := by
  unfold returnTaxEvents
  split_ifs <;> infer_instance

instance (c : CustomerReturn) (a : CustomerReturnAccounts) (l : CustomerReturnLine) :
    Confined IsPlain (customerReturnEvents c docId a currency l) := by
  unfold customerReturnEvents
  infer_instance

instance (c : PoReturn) : Confined IsPlain (returnUnit c rcl pol) := by
  unfold returnUnit
  split <;> infer_instance

instance (c : PoReturn) : Confined IsPlain (poReturnAccounts c rcl pol recvDate unit s) := by
  unfold poReturnAccounts returnVarianceKind
  infer_instance

instance (c : PoReturn) (a : PoReturnAccounts) (l : PoReturnLine) :
    Confined IsPlain (poReturnEvents c docId a unit l) := by
  unfold poReturnEvents
  infer_instance

end Acct.Main
