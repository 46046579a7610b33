import Acct.Isolation.Owned
import Acct.Main.Documents

/-!
# What the wrappers share

What each write adds to the sums of an order line, and the rules of the ownership logic for the
parts that all wrappers have: looking up rows, checking a quantity, and the header with its
idempotency key.
-/

namespace Acct.Main

open Isolation Owned

variable {e : DocErr} {kind : DocKind} {key : ℕ}

/-! ### Sums of an order line -/

namespace DocWrite

/-- What a write adds to what an order line has received, shipped, been invoiced, been billed, and
had returned before it was settled. -/
def receives (id : ℕ) : DocWrite → ℤ
  | .receiptLine l => l.counted id
  | _ => 0

def ships (id : ℕ) : DocWrite → ℤ
  | .shipmentLine l => l.counted id
  | _ => 0

def invoices (id : ℕ) : DocWrite → ℤ
  | .invoiceLine l => l.counted id
  | _ => 0

def bills (id : ℕ) : DocWrite → ℤ
  | .billLine l => l.counted id
  | _ => 0

def returnsToAr (id : ℕ) : DocWrite → ℤ
  | .customerReturnLine l => l.toUnsettled id
  | _ => 0

def returnsToAp (id : ℕ) : DocWrite → ℤ
  | .poReturnLine l => l.toUnsettled id
  | _ => 0

end DocWrite

section Sums

variable (w : DocWrite) (d : DocDb) (id : ℕ)

@[simp] lemma received_apply :
    (docSchema.apply w d).received id = d.received id + w.receives id := by
  cases w <;> simp [docSchema, DocWrite.apply, DocDb.received, DocWrite.receives]

@[simp] lemma shipped_apply : (docSchema.apply w d).shipped id = d.shipped id + w.ships id := by
  cases w <;> simp [docSchema, DocWrite.apply, DocDb.shipped, DocWrite.ships]

@[simp] lemma invoiced_apply :
    (docSchema.apply w d).invoiced id = d.invoiced id + w.invoices id := by
  cases w <;> simp [docSchema, DocWrite.apply, DocDb.invoiced, DocWrite.invoices]

@[simp] lemma billed_apply : (docSchema.apply w d).billed id = d.billed id + w.bills id := by
  cases w <;> simp [docSchema, DocWrite.apply, DocDb.billed, DocWrite.bills]

@[simp] lemma returnedToArUnsettled_apply :
    (docSchema.apply w d).returnedToArUnsettled id =
      d.returnedToArUnsettled id + w.returnsToAr id := by
  cases w <;> simp [docSchema, DocWrite.apply, DocDb.returnedToArUnsettled, DocWrite.returnsToAr]

@[simp] lemma returnedToApUnsettled_apply :
    (docSchema.apply w d).returnedToApUnsettled id =
      d.returnedToApUnsettled id + w.returnsToAp id := by
  cases w <;> simp [docSchema, DocWrite.apply, DocDb.returnedToApUnsettled, DocWrite.returnsToAp]

@[simp] lemma soLine?_apply : (docSchema.apply w d).soLine? id = d.soLine? id := by cases w <;> rfl

@[simp] lemma poLine?_apply : (docSchema.apply w d).poLine? id = d.poLine? id := by cases w <;> rfl

end Sums

/-! ### Rules -/

section Rules

variable {κ ρ : Type} {O : Owned docSchema κ ρ} {c : κ} {K : Holds DocRow → DocDb → Prop}
  {ws : List DocWrite} {H : Holds DocRow} {v : DocDb} {α : Type}

lemma safe_findRow {f : DocDb → Option α} {Q : α → List DocWrite → Holds DocRow → DocDb → Prop}
    (hK : O.Stable c K) (hv : K H v) (h : ∀ v' a, K H v' → f v' = some a → Q a ws H v') :
    O.Safe c (findRow f e) ws H v Q := by
  refine safe_fetch hK hv fun v' a hv' ha => ?_
  split at ha
  next x hx =>
    cases ha
    exact h v' _ hv' hx
  next => cases ha

lemma safe_positiveQty {qty : Option ℤ} {Q : ℤ → List DocWrite → Holds DocRow → DocDb → Prop}
    (h : ∀ q, 0 < q → Q q ws H v) : O.Safe c (positiveQty qty e) ws H v Q := by
  unfold positiveQty
  split
  next q =>
    split_ifs with hq
    · exact h q hq
    · exact safe_raise
  next => exact safe_raise

lemma safe_unlessDocument {new : DocTx ℕ} (hK : O.Stable c K) (hv : K H v)
    (hnew : ∀ v', K H v' → O.Safe c new ws H v' fun _ _ _ _ => True) :
    O.Safe c (unlessDocument kind key new) ws H v fun _ _ _ _ => True := by
  refine safe_bind (safe_query hK hv fun v' hv' => ?_)
  cases (v'.header? kind key).map (·.id) with
  | none => exact hnew v' hv'
  | some id => trivial

lemma safe_withHeader {ownerId : ℕ} {date : Date} {body : ℕ → DocTx Unit}
    {F : ℕ → Holds DocRow → DocDb → Prop} (hheader : ∀ h, O.Harmless c (.header h))
    (hK : O.Stable c K) (hF : ∀ n, O.Stable c (F n))
    (hfresh : ∀ n H v, n ∈ H.drawn → ¬ O.used v n → F n H v) (hv : K H v)
    (hbody : ∀ n ws H v, K H v → F n H v → O.Safe c (body n) ws H v fun _ _ _ _ => True) :
    O.Safe c (withHeader kind key ownerId date body) ws H v fun _ _ _ _ => True := by
  refine safe_bind (safe_lock hK hv fun v1 hv1 => ?_)
  refine safe_unlessDocument hK (hK.lock _ _ _ hv1) fun v2 hv2 => ?_
  refine safe_bind (safe_nextval hK hv2 fun v3 n hv3 _ hn => ?_)
  have hKF := hK.and (hF n)
  have hv4 : K ((H.lock [(.header kind key, .update)]).draw n) v3 ∧
      F n ((H.lock [(.header kind key, .update)]).draw n) v3 :=
    ⟨hK.draw _ n _ hv3, hfresh n _ v3 List.mem_cons_self hn⟩
  refine (safe_harmless (Prog.only_exec (hheader _)) hKF hv4).bind ?_
  intro _ ws5 H5 v5 hv5
  exact (hbody n ws5 H5 v5 hv5.1 hv5.2).bind fun _ _ _ _ _ => trivial

lemma safe_header {ownerId : ℕ} {date : Date} {body : ℕ → DocTx Unit}
    (hheader : ∀ h, O.Harmless c (.header h)) (hK : O.Stable c K) (hv : K H v)
    (hbody : ∀ n ws H v, K H v → O.Safe c (body n) ws H v fun _ _ _ _ => True) :
    O.Safe c (withHeader kind key ownerId date body) ws H v fun _ _ _ _ => True :=
  safe_withHeader (F := fun _ _ _ => True) hheader hK (fun _ => stable_true)
    (fun _ _ _ _ _ => trivial) hv fun n ws H v hv _ => hbody n ws H v hv

end Rules

end Acct.Main
