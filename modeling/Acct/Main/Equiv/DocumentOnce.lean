import Acct.Isolation.Rows
import Acct.Main.PoReceipt
import Acct.Main.Reservations
import Acct.Main.Returns
import Acct.Main.Settlement
import Acct.Main.SoShip

/-!
# Each document is made once

The wrappers look for a document with the caller's key, go on to check and lock, and then insert the
header `ON CONFLICT DO NOTHING`: who loses the race waits for the index entry and returns the
document of the other. The entry of a key in the unique index is a row of its own, guarded by its
lock (`headers_rowWise`). Headers are never taken away, so the document a wrapper has found or made
is there at its end (`DocCall.ends_prog`).
-/

namespace Acct.Main

open Isolation Machine List

variable {d db v : DocDb} {ws ws' : List DocWrite} {H : Holds DocRow} {kind : DocKind} {key : ℕ}

/-! ### Headers -/

/-- The headers of a kind with this key. -/
def headersOf (kind : DocKind) (key : ℕ) (hs : List Header) : List Header :=
  hs.filter fun h => h.kind == kind && h.key == key

/-- The header that a write inserts. -/
def DocWrite.inserts : DocWrite → List Header
  | .header h => [h]
  | _ => []

lemma headers_apply (w : DocWrite) (d : DocDb) :
    (docSchema.apply w d).headers = d.headers ++ w.inserts := by
  cases w <;> simp [docSchema, DocWrite.apply, DocWrite.inserts]

lemma headersOf_apply (w : DocWrite) (d : DocDb) :
    headersOf kind key (docSchema.apply w d).headers =
      headersOf kind key d.headers ++ headersOf kind key w.inserts := by
  rw [headers_apply]
  exact filter_append _ _

lemma headers_subset (ws : List DocWrite) (d : DocDb) :
    d.headers ⊆ (docSchema.applyAll ws d).headers := by
  refine Schema.applyAll_induction (H := fun d' : DocDb => d.headers ⊆ d'.headers) ?_
    (Subset.refl _)
  intro w _ d' h
  rw [headers_apply]
  exact Subset.trans h (subset_append_left _ _)

lemma headers_mono (ws : List DocWrite) (h : d.headers ⊆ v.headers) :
    (docSchema.applyAll ws d).headers ⊆ (docSchema.applyAll ws v).headers := by
  induction ws generalizing d v with
  | nil => exact h
  | cons w ws ih =>
    refine ih ?_
    rw [headers_apply, headers_apply]
    exact append_subset.mpr ⟨subset_append_of_subset_left _ h, subset_append_right _ _⟩

lemma inserts_cases (w : DocWrite) (kind : DocKind) (key : ℕ) :
    headersOf kind key w.inserts = [] ∨
      ∃ h : Header, w = .header h ∧ h.kind = kind ∧ h.key = key := by
  cases w with
  | header x =>
    by_cases hx : x.kind = kind ∧ x.key = key
    · exact .inr ⟨x, rfl, hx⟩
    · exact .inl (by simpa [headersOf, DocWrite.inserts] using hx)
  | _ => exact .inl rfl

def SameHeaders (d d' : DocDb) : DocRow → Prop
  | .header kind key => headersOf kind key d.headers = headersOf kind key d'.headers
  | _ => True

def UniqueHeader (d : DocDb) : DocRow → Prop
  | .header kind key => (headersOf kind key d.headers).length ≤ 1
  | _ => True

theorem headers_rowWise :
    RowWise docSchema (fun r d d' => SameHeaders d d' r) fun r d => UniqueHeader d r where
  refl r d := by cases r <;> simp [SameHeaders]
  trans r d d' d'' h h' := by
    cases r with
    | header kind key => exact Eq.trans h h'
    | _ => trivial
  ok r d d' h hok := by
    cases r with
    | header kind key => exact (congrArg List.length h).symm.trans_le hok
    | _ => trivial
  apply w r d d' h := by
    cases r with
    | header kind key =>
      simp only [SameHeaders, headersOf_apply] at h ⊢
      rw [h]
    | _ => trivial
  frame w r d h := by
    cases r with
    | header kind key =>
      rw [SameHeaders, headersOf_apply]
      rcases inserts_cases w kind key with hnil | ⟨x, rfl, rfl, rfl⟩
      · rw [hnil, append_nil]
      · exact absurd ⟨.update, mem_singleton_self _, rfl⟩ h
    | _ => trivial
  check w r d h hw := by
    cases r with
    | header kind key =>
      rw [UniqueHeader, headersOf_apply]
      rcases inserts_cases w kind key with hnil | ⟨x, rfl, rfl, rfl⟩
      · rwa [hnil, append_nil]
      · have hnone : d.header? x.kind x.key = none := by
          by_contra hne
          simp [docSchema, DocWrite.check, DocWrite.require, hne] at hw
        have hempty : headersOf x.kind x.key d.headers = [] :=
          filter_eq_nil_iff.mpr fun y hy => find?_eq_none.mp hnone y hy
        rw [hempty, nil_append]
        exact length_filter_le _ [x]
    | _ => trivial

/-! ### What a wrapper returns -/

/-- There is a document of this kind with this key, and it has this id. -/
def DocDb.HasDocument (d : DocDb) (x : DocKind × ℕ) (id : ℕ) : Prop :=
  ∃ h ∈ headersOf x.1 x.2 d.headers, h.id = id

lemma DocDb.HasDocument.mono {x : DocKind × ℕ} {id : ℕ} (h : d.HasDocument x id)
    (hd : d.headers ⊆ v.headers) : v.HasDocument x id := by
  obtain ⟨y, hy, hid⟩ := h
  exact ⟨y, filter_subset _ hd hy, hid⟩

section Programs

variable {α β : Type} {p : DocTx α} {f : α → DocTx β} {Q : α → DocDb → Prop} {new : DocTx ℕ}

/-- When the program comes to its end, `Q` holds, if the others keep all headers. -/
def Ends (p : DocTx α) (v : DocDb) (Q : α → DocDb → Prop) : Prop :=
  ∀ ws H, p.Safe docSchema (fun _ _ v v' => v.headers ⊆ v'.headers) (fun _ _ _ _ => True)
    (fun _ _ => False) ws H v fun a _ _ v' => Q a v'

lemma Ends.bind {Q' : β → DocDb → Prop} (h : Ends p v Q) (hf : ∀ a v, Q a v → Ends (f a) v Q') :
    Ends (p >>= f) v Q' :=
  fun ws H => (h ws H).bind fun a ws H v hv => hf a v hv ws H

/-- Every program keeps the headers that it finds. -/
lemma ends_subset (p : DocTx α) (h : d.headers ⊆ v.headers) :
    Ends p v fun _ v' => d.headers ⊆ v'.headers := by
  induction p generalizing v with
  | ret a => exact fun _ _ => h
  | raise e => exact fun _ _ => trivial
  | lock r m k ih => exact fun _ _ v' hE => ih (Subset.trans h hE) _ _
  | draw k ih => exact fun _ _ v' hE n _ _ => ih n (Subset.trans h hE) _ _
  | stmt w k ih =>
    refine fun _ _ v' hE => ⟨trivial, fun v'' hw => ih v' ?_ _ _⟩
    rw [Schema.eq_applyAll_of_perform hw]
    exact Subset.trans (Subset.trans h hE) (headers_subset _ _)

/-- What comes before the last part does not matter. -/
lemma ends_after {Q' : β → DocDb → Prop} (hf : ∀ a v, Ends (f a) v Q') : Ends (p >>= f) v Q' :=
  (ends_subset p (Subset.refl v.headers)).bind fun a v _ => hf a v

lemma ends_unlessDocument (hnew : ∀ v, Ends new v fun id v => v.HasDocument (kind, key) id) :
    Ends (unlessDocument kind key new) v fun id v => v.HasDocument (kind, key) id := by
  have hquery : Ends (Prog.query fun d => (d.header? kind key).map (·.id)) v fun existing v =>
      existing = (v.header? kind key).map (·.id) :=
    fun ws H => Prog.safe_query (fun _ => trivial) fun _ _ => rfl
  refine hquery.bind fun existing v hv => ?_
  rw [hv]
  cases hfind : v.header? kind key with
  | none => exact hnew v
  | some h =>
    have hkey := find?_some hfind
    have hmem : h ∈ headersOf kind key v.headers :=
      mem_filter.mpr ⟨mem_of_find?_eq_some hfind, hkey⟩
    exact fun _ _ => ⟨h, hmem, rfl⟩

lemma ends_withHeader {ownerId : ℕ} {date : Date} {body : ℕ → DocTx Unit} :
    Ends (withHeader kind key ownerId date body) v fun id v => v.HasDocument (kind, key) id := by
  refine ends_after fun _ v => ends_unlessDocument fun v => ends_after fun id v => ?_
  have hinsert : Ends (Prog.exec (.header ⟨id, kind, key, ownerId, date⟩)) v fun _ v =>
      v.HasDocument (kind, key) id := by
    refine fun ws H => Prog.safe_exec (fun _ => trivial) fun v' _ _ => ?_
    refine ⟨⟨id, kind, key, ownerId, date⟩, ?_, rfl⟩
    rw [headersOf_apply]
    exact mem_append_right _ (by simp [headersOf, DocWrite.inserts])
  refine hinsert.bind fun _ v hdoc => ?_
  exact (ends_subset (body id) (Subset.refl v.headers)).bind fun _ v' hv' _ _ => hdoc.mono hv'

end Programs

/-! ### Runs -/

/-- A call of a wrapper. -/
inductive DocCall
  | ship (c : SoShip)
  | receive (c : PoReceipt)
  | invoice (c : CustomerInvoice)
  | bill (c : ApBill)
  | customerReturn (c : CustomerReturn)
  | poReturn (c : PoReturn)
  | allocate (c : SoAllocate)

namespace DocCall

def prog : DocCall → DocTx ℕ
  | ship c => postSoShip c
  | receive c => postPoReceipt c
  | invoice c => postCustomerInvoice c
  | bill c => postApBill c
  | customerReturn c => postCustomerReturn c
  | poReturn c => postPoReturn c
  | allocate c => postSoAllocate c

/-- The kind and the key of its document. -/
def document : DocCall → DocKind × ℕ
  | ship c => (.soShip, c.key)
  | receive c => (.poReceipt, c.key)
  | invoice c => (.customerInvoice, c.key)
  | bill c => (.vendorBill, c.key)
  | customerReturn c => (.customerReturn, c.key)
  | poReturn c => (.poReturn, c.key)
  | allocate c => (.soAllocate, c.key)

theorem ends_prog (c : DocCall) (v : DocDb) :
    Ends c.prog v fun id v => v.HasDocument c.document id := by
  cases c with
  | ship c | receive c | customerReturn c | poReturn c =>
    exact ends_unlessDocument fun _ => ends_after fun _ _ => ends_after fun _ _ => ends_withHeader
  | invoice c | bill c | allocate c =>
    exact ends_unlessDocument fun _ => ends_after fun _ _ => ends_after fun _ _ =>
      ends_after fun _ _ => ends_withHeader

end DocCall

/-- Sessions keep the entries of the unique indexes locked, and the headers of the others. -/
theorem headers_discipline :
    Discipline docSchema (fun d => ∀ r, UniqueHeader d r) (fun _ _ : DocCall => True)
      (fun _ ws H db => Guarded docSchema (fun r d => UniqueHeader d r) ws H.locks db)
      (fun _ _ _ v v' => v.headers ⊆ v'.headers) (fun _ _ _ _ _ => True) fun _ _ => False where
  refl _ _ _ v := Subset.refl v.headers
  trans _ _ _ _ _ _ := Subset.trans
  start _ _ h := .nil h
  lock _ l _ _ _ h := h.cons l
  draw _ _ _ _ _ h := h
  own _ _ _ _ _ _ h := h.elim
  stmt _ _ _ _ _ _ _ h _ hp := h.perform headers_rowWise hp
  commit _ _ ws _ ws' _ db _ _ _ hcomp h h' :=
    ⟨h.commit headers_rowWise h' hcomp.locks, headers_mono ws (headers_subset ws' db)⟩

/-- The state after a run of calls. -/
def docsReached (db : DocDb) (seq : ℕ) (ms : List (Move DocCall)) :
    State DocDb DocWrite DocRow DocErr ℕ DocCall :=
  run (State.exec? docSchema DocCall.prog) { db, seq } ms

/-- **Each document is made once.** If no kind of document has a key twice, then after any run of
concurrent calls of the wrappers, in any interleaving and with any of them given up, none has, and
every call that has committed returned the id of the one document of its key. -/
theorem document_once (h : ∀ kind key, (headersOf kind key db.headers).length ≤ 1) (seq : ℕ)
    (ms : List (Move DocCall)) :
    (∀ kind key, (headersOf kind key (docsReached db seq ms).db.headers).length ≤ 1) ∧
      ∀ u ∈ (docsReached db seq ms).sessions, ∀ id, u.status = .committed id →
        (headersOf u.call.document.1 u.call.document.2 (docsReached db seq ms).db.headers).map
          (·.id) = [id] := by
  have hdb : ∀ r, UniqueHeader db r := by
    intro r
    cases r with
    | header kind key => exact h kind key
    | _ => trivial
  obtain ⟨hsound, hdone⟩ := headers_discipline.run_committed (C := fun _ _ => True)
    (Q := fun c _ id _ _ v => v.HasDocument c.document id)
    (P := fun c id v => v.HasDocument c.document id)
    (fun s c _ _ => ⟨c.ends_prog s.db [] {}, fun _ _ _ => ⟨trivial, trivial⟩⟩)
    (fun _ _ _ _ _ _ _ _ hheld _ _ => hheld.ok) (fun _ _ _ _ _ _ _ hdoc hE => hdoc.mono hE)
    (fun _ _ w _ hdoc => hdoc.mono (headers_subset [w] _)) (.init db seq hdb nofun) ms
    (throughout_of_forall (fun _ _ => trivial) _ _)
  refine ⟨fun kind key => hsound.inv (.header kind key), fun u hu id hid => ?_⟩
  obtain ⟨x, hx, rfl⟩ := hdone u hu id hid
  have hone := hsound.inv (.header u.call.document.1 u.call.document.2)
  obtain ⟨y, hy⟩ := length_eq_one_iff.mp (le_antisymm hone (length_pos_of_mem hx))
  rw [hy] at hx
  rw [docsReached, hy, mem_singleton.mp hx]
  rfl

/-- A sales order. -/
def retriedDb : DocDb := { salesOrders := [⟨1, some 1⟩] }

/-- Two sessions allocate the order under one key; the second has looked for the document before the
first has made it. -/
def retriedCalls : List (Move DocCall) :=
  [.start (.allocate ⟨1, 0, 7⟩), .start (.allocate ⟨1, 0, 7⟩)] ++
    ([1, 1, 1] ++ replicate 8 0 ++ [1] ++ [0] ++ replicate 3 1).map .step

theorem document_once_retried :
    (docsReached retriedDb 5 retriedCalls).sessions.map (·.status) =
        [.committed 5, .committed 5] ∧
      (headersOf .soAllocate 7 (docsReached retriedDb 5 retriedCalls).db.headers).length ≤ 1 :=
  ⟨by decide, (document_once (fun _ _ => Nat.zero_le _) 5 retriedCalls).1 .soAllocate 7⟩

end Acct.Main
