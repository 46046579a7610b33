import Acct.Main.Equiv.Dispatch
import Acct.Main.Equiv.Reserving

/-!
# Receipts keep the bounds

`post_po_receipt` brings stock in before the lot it belongs to: the quantity leg of a line stands
before its value leg in the batch, which has locked the stock account. So the lots never hold more
than the stock account, and no promise is touched. The keys of the legs are drawn, so no leg is
taken for one already posted.
-/

namespace Acct.Main

open Isolation Owned List

variable {C : List Account} {c : PoReceipt} {ws : List DocWrite} {H : Holds DocRow} {v v' : DocDb}
  {skuId locationId idx lineId : ℕ} {q amount : ℤ} {a d : Account} {e : Event} {es : List Event}
  {ks : List Key} {room room' room'' : Option (ℕ × ℕ × ℤ)} {x : Lot} {tracking : Tracking}
  {K : Holds DocRow → DocDb → Prop}

/-! ### The legs of a receipt -/

structure Leg (C : List Account) (e : Event) (d c : Account) : Prop where
  debit : d ∈ C ∧ d.id = e.debitAccountId
  credit : c ∈ C ∧ c.id = e.creditAccountId
  kind : c.kind ≠ .stockAvailable ∧ c.kind.isStocked = false
  reason : e.reason.isCost = false
  amount : ∃ a, e.amount = some a ∧ 0 ≤ a

def QtyLeg (C : List Account) (skuId locationId : ℕ) (q : ℤ) (e : Event) : Prop :=
  ∃ d c, Leg C e d c ∧ C.find? (·.isStockOf skuId locationId) = some d ∧ e.amount = some q

def ValueLeg (C : List Account) (skuId locationId : ℕ) (q : ℤ) (e : Event) : Prop :=
  ∃ d c, Leg C e d c ∧ d.skuId = some skuId ∧ d.locationId = some locationId ∧ e.qty = some q ∧
    0 < q

def OtherLeg (C : List Account) (e : Event) : Prop :=
  ∃ d c, Leg C e d c ∧ d.kind.isStocked = false

/-- Every value leg of the batch stands after the quantity leg it belongs to. `room` is what has
come in and may still go into a lot. -/
inductive Deliverable (C : List Account) : Option (ℕ × ℕ × ℤ) → List Event → Prop
  | nil (room : Option (ℕ × ℕ × ℤ)) : Deliverable C room []
  | qty {room : Option (ℕ × ℕ × ℤ)} {skuId locationId : ℕ} {q : ℤ} {e : Event} {es : List Event} :
    QtyLeg C skuId locationId q e → Deliverable C (some (skuId, locationId, q)) es →
      Deliverable C room (e :: es)
  | value {skuId locationId : ℕ} {q : ℤ} {e : Event} {es : List Event} :
    ValueLeg C skuId locationId q e → Deliverable C none es →
      Deliverable C (some (skuId, locationId, q)) (e :: es)
  | other {room : Option (ℕ × ℕ × ℤ)} {e : Event} {es : List Event} :
    OtherLeg C e → Deliverable C room es → Deliverable C room (e :: es)

lemma Deliverable.leg (h : Deliverable C room es) : ∀ e ∈ es, ∃ d c, Leg C e d c := by
  induction h with
  | nil room => simp
  | qty hleg _ ih | value hleg _ ih | other hleg _ ih =>
    obtain ⟨d, c, hleg, -⟩ := hleg
    exact forall_mem_cons.mpr ⟨⟨d, c, hleg⟩, ih⟩

lemma Deliverable.append {es' : List Event} (h : Deliverable C room es)
    (h' : ∀ room, Deliverable C room es') : Deliverable C room (es ++ es') := by
  induction h with
  | nil room => exact h' room
  | qty hleg _ ih => exact .qty hleg ih
  | value hleg _ ih => exact .value hleg ih
  | other hleg _ ih => exact .other hleg ih

/-! ### What a receipt knows -/

structure FreshKeys (ks : List Key) (H : Holds DocRow) (v : DocDb) : Prop where
  drawn : ∀ k ∈ ks, ∃ n ∈ H.drawn, k = .random n
  unposted : ∀ k ∈ ks, v.ledger.posted k = false
  nodup : ks.Nodup

lemma FreshKeys.sublist {ks' : List Key} (h : FreshKeys ks H v) (hsub : ks'.Sublist ks) :
    FreshKeys ks' H v :=
  ⟨fun k hk => h.drawn k (hsub.subset hk), fun k hk => h.unposted k (hsub.subset hk),
    h.nodup.sublist hsub⟩

lemma stable_freshKeys (ks : List Key) : (promises C).Stable (.receive c) (FreshKeys ks) where
  rely H v v' hsame _ _ h := by
    refine ⟨h.drawn, fun k hk => ?_, h.nodup⟩
    obtain ⟨n, hn, rfl⟩ := h.drawn k hk
    rw [(hsame (.number n) hn).1]
    exact h.unposted _ hk
  lock H ls v h := ⟨h.drawn, h.unposted, h.nodup⟩
  draw H n v h := by
    refine ⟨fun k hk => ?_, h.unposted, h.nodup⟩
    obtain ⟨m, hm, rfl⟩ := h.drawn k hk
    exact ⟨m, mem_cons_of_mem n hm, rfl⟩

lemma FreshKeys.draw {n : ℕ} (h : FreshKeys ks H v) (hn : n ∉ H.drawn)
    (hused : ¬ PromiseItem.Used v n) : FreshKeys (ks ++ [.random n]) (H.draw n) v where
  drawn k hk := by
    rcases mem_append.mp hk with hk | hk
    · obtain ⟨m, hm, rfl⟩ := h.drawn k hk
      exact ⟨m, mem_cons_of_mem n hm, rfl⟩
    · exact ⟨n, mem_cons_self, mem_singleton.mp hk⟩
  unposted k hk := by
    rcases mem_append.mp hk with hk | hk
    · exact h.unposted k hk
    · rw [mem_singleton.mp hk]
      exact Bool.eq_false_iff.mpr fun hp => hused (.inl hp)
  nodup := by
    rw [nodup_append]
    refine ⟨h.nodup, nodup_singleton _, ?_⟩
    rintro k hk k' hk' rfl
    obtain ⟨m, hm, rfl⟩ := h.drawn k hk
    cases mem_singleton.mp hk'
    exact hn hm

structure Room (C : List Account) (c : PoReceipt) (skuId locationId : ℕ) (q : ℤ) (H : Holds DocRow)
    (v : DocDb) : Prop where
  chart : v.ledger.chart = C
  owns : (promises C).owns (.receive c) H (.stock skuId locationId)
  room : v.inLots skuId locationId + q ≤ v.onHand skuId locationId

lemma Room.of_same (h : Room C c skuId locationId q H v)
    (hsame : PromiseItem.Same C (.stock skuId locationId) v v') :
    Room C c skuId locationId q H v' := by
  obtain ⟨hchart, hstock⟩ := hsame h.chart
  have hlots : v'.inLots skuId locationId = v.inLots skuId locationId := by
    rw [DocDb.inLots, DocDb.inLots, hstock.lots]
    exact congrArg List.sum (map_congr_left fun x _ => hstock.residual x)
  have hroom := h.room
  have hmore := hstock.stock
  refine ⟨hchart, h.owns, ?_⟩
  rw [hlots]
  omega

lemma stable_room (skuId locationId : ℕ) (q : ℤ) :
    (promises C).Stable (.receive c) (Room C c skuId locationId q) where
  rely _ _ _ hsame _ _ h := h.of_same (hsame _ h.owns)
  lock H ls _ h := ⟨h.chart, (promises C).owns_lock _ H ls _ h.owns, h.room⟩
  draw H n _ h := ⟨h.chart, (promises C).owns_draw _ H n _ h.owns, h.room⟩

def HasRoom (C : List Account) (c : PoReceipt) (room : Option (ℕ × ℕ × ℤ)) (H : Holds DocRow)
    (v : DocDb) : Prop :=
  ∀ skuId locationId q, room = some (skuId, locationId, q) → Room C c skuId locationId q H v

lemma stable_hasRoom (room : Option (ℕ × ℕ × ℤ)) :
    (promises C).Stable (.receive c) (HasRoom C c room) where
  rely H v v' hsame hstays hok h s l q hr :=
    (stable_room s l q).rely H v v' hsame hstays hok (h s l q hr)
  lock H ls v h s l q hr := (stable_room s l q).lock H ls v (h s l q hr)
  draw H n v h s l q hr := (stable_room s l q).draw H n v (h s l q hr)

structure Posting (C : List Account) (c : PoReceipt) (room : Option (ℕ × ℕ × ℤ)) (es : List Event)
    (H : Holds DocRow) (v : DocDb) : Prop where
  ok : AllOk C v
  keys : FreshKeys (es.map (·.key)) H v
  locked : ∀ e ∈ es, (.ledger (.account e.debitAccountId), .update) ∈ H.locks
  room : HasRoom C c room H v

lemma stable_posting (room : Option (ℕ × ℕ × ℤ)) (es : List Event) :
    (promises C).Stable (.receive c) (Posting C c room es) where
  rely H v v' hsame hstays hok h :=
    ⟨fun r => hok r (h.ok r), (stable_freshKeys _).rely H v v' hsame hstays hok h.keys, h.locked,
      (stable_hasRoom room).rely H v v' hsame hstays hok h.room⟩
  lock H ls v h :=
    ⟨h.ok, (stable_freshKeys (C := C) (c := c) _).lock H ls v h.keys,
      fun e he => mem_append_right ls (h.locked e he), (stable_hasRoom room).lock H ls v h.room⟩
  draw H n v h :=
    ⟨h.ok, (stable_freshKeys (C := C) (c := c) _).draw H n v h.keys, h.locked,
      (stable_hasRoom room).draw H n v h.room⟩

/-! ### Harmless writes -/

lemma harmless_debit (i : ℕ) (h : 0 ≤ amount) :
    (promises C).Harmless (.receive c) (.ledger (.debit i amount)) := by
  refine ⟨rfl, fun r hr => ?_⟩
  cases r with
  | stock skuId locationId => exact absurd h (not_le.mpr hr)
  | number n => exact hr

lemma harmless_credit (hC : (C.map (·.id)).Nodup) (ha : a ∈ C) (hkind : a.kind ≠ .stockAvailable)
    (amount : ℤ) :
    (promises C).Harmless (.receive c) (.ledger (.credit a.id amount)) := by
  refine ⟨rfl, fun r hr => ?_⟩
  cases r with
  | stock skuId locationId =>
    obtain ⟨b, hb, hid, hbkind⟩ := hr
    rw [eq_of_mem_chart hC hb ha hid] at hbkind
    exact hkind hbkind
  | number n => exact hr

def Write.isBeside : Write → Bool
  | .flag _ | .layer _ | .unit _ | .unitEvent _ => true
  | _ => false

lemma harmless_beside {w : Write} (h : w.isBeside = true) :
    (promises C).Harmless (.receive c) (.ledger w) := by
  cases w with
  | flag p | layer l | unit u | unitEvent e => exact ⟨rfl, fun r => by cases r <;> exact id⟩
  | _ => cases h

lemma only_ledger_beside {α : Type} {p : Tx α} (h : p.Only fun w => w.isBeside = true) :
    (ledger p).Only ((promises C).Harmless (.receive c)) :=
  h.embed fun _ => harmless_beside

/-! ### Posting one leg -/

def Carries (C : List Account) (c : PoReceipt) {α : Type} (p : Tx α) (room : Option (ℕ × ℕ × ℤ))
    (es : List Event) (room' : Option (ℕ × ℕ × ℤ)) (es' : List Event) : Prop :=
  ∀ ws H v, Posting C c room es H v → (promises C).Safe (.receive c) (ledger p) ws H v
    fun _ _ H' v' => Posting C c room' es' H' v'

@[simp] lemma ledgerPart_part (d : DocDb) : ledgerPart.part d = d.ledger := rfl

lemma not_touch_line (l : PostingLine) (skuId locationId : ℕ) :
    ¬ PromiseItem.Touch C (.ledger (.line l)) (.stock skuId locationId) := id

lemma safe_execLine {l : PostingLine} (hkey : l.key = e.key) (hv : Posting C c room (e :: es) H v) :
    (promises C).Safe (.receive c) (Prog.exec (.ledger (.line l))) ws H v fun _ _ H' v' =>
      Posting C c room es H' v' := by
  refine safe_exec (stable_posting room (e :: es)) hv (fun v1 h1 => ?_) fun v1 h1 _ => ?_
  · refine guarantee_single rfl fun r hr => ?_
    cases r with
    | stock skuId locationId => exact hr.elim
    | number n =>
      obtain ⟨m, hm, hem⟩ := h1.keys.drawn e.key mem_cons_self
      have hnm : Key.random n = Key.random m := (Eq.symm hr).trans (hkey.trans hem)
      cases hnm
      exact ⟨hm, fun _ => h1.ok (.number n)⟩
  · have hsame : ∀ s l', PromiseItem.Same C (.stock s l') v1
        (docSchema.apply (.ledger (.line l)) v1) := fun s l' =>
      PromiseItem.same_frame _ _ v1 (not_touch_line l s l')
    have hnodup := nodup_cons.mp h1.keys.nodup
    refine (stable_posting room es).lock _ _ _ ⟨fun r => ?_, ⟨?_, fun k hk => ?_, hnodup.2⟩, ?_, ?_⟩
    · cases r with
      | stock s l' => exact PromiseItem.ok_of_same _ _ _ (hsame s l') (h1.ok (.stock s l'))
      | number n => exact h1.ok (.number n)
    · exact fun k hk => h1.keys.drawn k (mem_cons_of_mem _ hk)
    · have hne : l.key ≠ k := by
        rintro rfl
        rw [hkey] at hk
        exact hnodup.1 hk
      have hold := h1.keys.unposted k (mem_cons_of_mem _ hk)
      show (v1.ledger.lines ++ [l]).any _ = false
      rw [any_append, Bool.or_eq_false_iff]
      exact ⟨hold, by simpa using hne⟩
    · exact fun e' he' => h1.locked e' (mem_cons_of_mem _ he')
    · exact fun s l' q hr => (h1.room s l' q hr).of_same (hsame s l')

lemma only_periodFor (P : Write → Prop) (e : Event) (idx : ℕ) (override : Bool) :
    (periodFor e idx override).Only P :=
  (Prog.only_fetch _).bind fun _ => (Prog.only_ensure _ _).bind fun _ => Prog.only_pure _

lemma carries_applyChecked (hamount : 0 ≤ amount)
    (hcredit : (promises C).Harmless (.receive c) (.ledger (.credit a.id amount)))
    (hroom : ∀ H v, Posting C c room (e :: es) H v →
      HasRoom C c room' H (docSchema.apply (.ledger (.debit d.id amount)) v))
    (hblocks : ∀ lineId, Carries C c
      (stockBlocks e idx lineId amount (qtyForRow e amount d a) d a) room' es room'' es) :
    Carries C c (applyChecked e idx amount d a none false) room (e :: es) room'' es := by
  intro ws H v hv
  have hdebit : (promises C).Harmless (.receive c) (.ledger (.debit d.id amount)) :=
    harmless_debit d.id hamount
  simp only [ledger, applyChecked, Prog.embed_bind, Prog.embed_ensure, Prog.embed_exec,
    Prog.embed_nextval, Prog.embed_pure]
  refine safe_bind (safe_ensure fun _ => ?_)
  refine safe_bind (safe_ensure fun _ => ?_)
  refine (safe_harmless (((only_periodFor (fun w => w.isBeside = true) e idx
    false).embed fun _ => harmless_beside)) (stable_posting room (e :: es)) hv).bind
      fun period ws1 H1 v1 h1 => ?_
  refine safe_bind (safe_exec (stable_posting room (e :: es)) h1
    (fun _ _ => guarantee_of_harmless (forall_mem_singleton.mpr hdebit)) fun v2 h2 _ => ?_)
  have h3 : Posting C c room' (e :: es) H1 (docSchema.apply (.ledger (.debit d.id amount)) v2) := by
    have hall := (stable_posting room (e :: es)).applyAll (w := [.ledger (.debit d.id amount)])
      (forall_mem_singleton.mpr hdebit.1)
      (not_touched_of_harmless (forall_mem_singleton.mpr hdebit)) h2
    exact ⟨hall.ok, hall.keys, hall.locked, hroom H1 v2 h2⟩
  refine (safe_harmless (Prog.only_exec hcredit)
    (stable_posting room' (e :: es)) ((stable_posting room' (e :: es)).lock _ _ _ h3)).bind
      fun _ ws4 H4 v4 h4 => ?_
  refine safe_bind (safe_nextval (stable_posting room' (e :: es)) h4 fun v5 id h5 _ _ => ?_)
  have h5 := (stable_posting room' (e :: es)).draw _ id _ h5
  refine (safe_execLine rfl h5).bind fun _ ws6 H6 v6 h6 => ?_
  refine (safe_harmless (only_ledger_beside (flagProvisional_only (fun _ => rfl) _ _ _ _ _ _))
    (stable_posting room' es) h6).bind fun _ ws7 H7 v7 h7 => ?_
  refine (safe_harmless (only_ledger_beside (Prog.only_fetch _)) (stable_posting room' es) h7).bind
    fun _ ws8 H8 v8 h8 => ?_
  exact (hblocks id _ _ _ h8).bind fun _ _ _ _ h9 => h9

lemma carries_postNew {d0 a0 : Account} (room' : Option (ℕ × ℕ × ℤ)) (hC : (C.map (·.id)).Nodup)
    (hleg : Leg C e d0 a0)
    (hroom : ∀ amount, e.amount = some amount → 0 ≤ amount → ∀ H v,
      Posting C c room (e :: es) H v →
      HasRoom C c room' H (docSchema.apply (.ledger (.debit d0.id amount)) v))
    (hblocks : ∀ d a amount, d.static = d0 → a.kind.isStocked = false → ∀ lineId, Carries C c
      (stockBlocks e idx lineId amount (qtyForRow e amount d a) d a) room' es room'' es) :
    Carries C c (postNew false e idx) room (e :: es) room'' es := by
  intro ws H v hv
  have hK := stable_posting (C := C) (c := c) room (e :: es)
  obtain ⟨amount, hamount, hnonneg⟩ := hleg.amount
  simp only [ledger, postNew, readAccounts, amountFor, hleg.reason, Bool.false_eq_true, if_false,
    Prog.embed_bind, Prog.embed_query, Prog.embed_pure]
  refine safe_bind (safe_bind (safe_query hK hv fun v1 h1 => ?_))
  refine safe_bind (safe_query hK h1 fun v2 h2 => ?_)
  refine safe_pure (safe_bind (safe_pure ?_))
  obtain ⟨d, hd, hdfixed⟩ := account?_of_mem_chart hC h1.ok.chart hleg.debit.1
  obtain ⟨a, ha, hafixed⟩ := account?_of_mem_chart hC h2.ok.chart hleg.credit.1
  rw [hleg.debit.2] at hd
  rw [hleg.credit.2] at ha
  have hdid : d.id = d0.id := by rw [← hdfixed, Account.static_id]
  have haid : a.id = a0.id := by rw [← hafixed, Account.static_id]
  have hcredit : (promises C).Harmless (.receive c) (.ledger (.credit a.id amount)) := by
    rw [haid]
    exact harmless_credit hC hleg.credit.1 hleg.kind.1 amount
  have hdroom : ∀ H v, Posting C c room (e :: es) H v →
      HasRoom C c room' H (docSchema.apply (.ledger (.debit d.id amount)) v) := by
    rw [hdid]
    exact hroom amount hamount hnonneg
  have hastock : a.kind.isStocked = false := by
    rw [← hleg.kind.2, ← hafixed]
    rfl
  simp only [ledgerPart_part, hd, ha, hamount, applyEvent, Prog.embed_bind, Prog.embed_ensure]
  refine safe_bind (safe_bind (safe_ensure fun _ => ?_))
  exact (carries_applyChecked hnonneg hcredit hdroom (hblocks d a amount hdfixed hastock)
    _ _ _ h2).mono fun _ _ _ _ h => h

lemma carries_unlessPosted {p : Tx Posted} (hp : Carries C c p room (e :: es) room'' es) :
    Carries C c (unlessPosted e p) room (e :: es) room'' es := by
  intro ws H v hv
  simp only [ledger, unlessPosted, Prog.embed_bind, Prog.embed_query]
  refine safe_bind (safe_query (stable_posting room (e :: es)) hv fun v1 h1 => ?_)
  have hnew : v1.ledger.posted e.key = false := h1.keys.unposted e.key mem_cons_self
  simp only [ledgerPart_part, hnew, Bool.false_eq_true, if_false]
  exact hp _ _ _ h1

/-! ### The three legs -/

lemma stocked?_eq_none (h : a.kind.isStocked = false) : stocked? a = none := by
  simp [stocked?, h]

lemma only_stockBlocks (P : Write → Prop) {qty : Option ℤ} (hd : d.kind.isStocked = false)
    (ha : a.kind.isStocked = false) :
    (stockBlocks e idx lineId amount qty d a).Only P := by
  unfold stockBlocks
  split
  · refine (inventoryRow_only _ _ _).bind fun _ => (Prog.only_query _).bind fun row => ?_
    cases row with
    | none => trivial
    | some s =>
      show (blocksFor e idx lineId amount _ d a s).Only P
      unfold blocksFor fifoBlock lotBlock fifoReceive fifoIssue lotReceive lotIssue
      rw [stocked?_eq_none hd, stocked?_eq_none ha]
      split
      · trivial
      split
      · trivial
      split
      · exact (Prog.only_ensure _ _).bind fun _ => trivial
      · trivial
  · trivial

lemma HasRoom.of_harmless {w : DocWrite} (hw : (promises C).Harmless (.receive c) w)
    (h : HasRoom C c room H v) : HasRoom C c room H (docSchema.apply w v) :=
  fun s l q hr => (h s l q hr).of_same (PromiseItem.same_frame w _ v (hw.2 _))

lemma carries_otherLeg (hC : (C.map (·.id)).Nodup) (hleg : OtherLeg C e) :
    Carries C c (unlessPosted e (postNew false e idx)) room (e :: es) room es := by
  obtain ⟨d0, a0, hleg, hstocked⟩ := hleg
  refine carries_unlessPosted (carries_postNew room hC hleg ?_ ?_)
  · exact fun amount _ hnonneg H v h => h.room.of_harmless (harmless_debit d0.id hnonneg)
  · intro d a amount hd ha lineId ws H v h
    have hdstock : d.kind.isStocked = false := by rw [← hd] at hstocked; exact hstocked
    exact safe_harmless (only_ledger_beside (only_stockBlocks _ hdstock ha))
      (stable_posting room es) h

lemma carries_qtyLeg (hC : (C.map (·.id)).Nodup) (hleg : QtyLeg C skuId locationId q e) :
    Carries C c (unlessPosted e (postNew false e idx)) room (e :: es)
      (some (skuId, locationId, q)) es := by
  obtain ⟨d0, a0, hleg, hfind, hq⟩ := hleg
  have hstock : d0.isStockOf skuId locationId = true := List.find?_some hfind
  have hkind : d0.kind = .stockAvailable := by
    simp only [Account.isStockOf, Bool.and_eq_true, beq_iff_eq] at hstock
    exact hstock.1.1.1
  refine carries_unlessPosted (carries_postNew (some (skuId, locationId, q)) hC hleg ?_ ?_)
  · intro amount hamount hnonneg H v h s l q' hroom
    rw [hq] at hamount
    cases hamount
    cases hroom
    have hbacked := (h.ok.stock skuId locationId).backed
    have hdelta := le_stockDelta_debit hleg.debit.1 hstock hnonneg
    refine ⟨(PromiseItem.chart_docApply _ v).trans h.ok.chart, ⟨trivial, d0, hfind, ?_⟩, ?_⟩
    · rw [hleg.debit.2]
      exact h.locked e mem_cons_self
    · rw [onHand_apply_ledger h.ok.chart]
      show v.inLots skuId locationId + q ≤ _
      omega
  · intro d a amount hd ha lineId ws H v h
    have hdstock : d.kind.isStocked = false := by
      rw [← hd] at hkind
      exact congrArg AccountKind.isStocked hkind
    exact safe_harmless (only_ledger_beside (only_stockBlocks _ hdstock ha))
      (stable_posting _ es) h

lemma StockOk.receive (hok : StockOk v x.productId x.locationId)
    (hevents : v.ledger.lotEvents.countP (·.lotId == x.id) = 0)
    (hlots : v.ledger.lots.countP (·.id == x.id) = 0) (hqty : 0 ≤ x.originalQuantity)
    (hroom : v.inLots x.productId x.locationId + x.originalQuantity ≤
      v.onHand x.productId x.locationId) :
    StockOk (docSchema.apply (.ledger (.lot x)) v) x.productId x.locationId := by
  have hat : (docSchema.apply (.ledger (.lot x)) v).lotsAt x.productId x.locationId =
      v.lotsAt x.productId x.locationId ++ [x] := by
    rw [lotsAt_apply_ledger]
    simp [Write.lotsInto]
  have hresidual : v.ledger.lotResidual x = x.originalQuantity := by
    rw [countP_eq_zero] at hevents
    have hnone : v.ledger.lotEvents.filter (·.lotId == x.id) = [] :=
      filter_eq_nil_iff.mpr hevents
    rw [Db.lotResidual, hnone]
    simp
  refine ⟨hok.nonneg, fun r hr hopen hspecific => ?_, hok.promised, fun y hy => ?_, ?_⟩
  · obtain ⟨y, hy, hid⟩ := hok.pinned r hr hopen hspecific
    exact ⟨y, hat ▸ mem_append_left _ hy, hid⟩
  · rw [hat] at hy
    show _ ≤ v.ledger.lotResidual y
    rcases mem_append.mp hy with hy | hy
    · exact hok.lots y hy
    · -- nobody is pinned to a lot that was not there
      rw [mem_singleton.mp hy, hresidual]
      refine le_trans (le_of_eq (sum_eq_zero fun z hz => ?_)) hqty
      obtain ⟨r, hr, rfl⟩ := List.mem_map.mp hz
      unfold Reservation.owedOf
      split
      next hpin =>
        simp only [Bool.and_eq_true, beq_iff_eq] at hpin
        obtain ⟨y, hy, hid⟩ := hok.pinned r hr hpin.1 hpin.2.1
        have hyx : y.id = x.id := Option.some.inj (hid.symm.trans hpin.2.2)
        have hmem := (mem_filter.mp hy).1
        exact absurd (by simpa using hyx) (countP_eq_zero.mp hlots y hmem)
      next => rfl
  · rw [DocDb.inLots, hat, map_append, sum_append]
    show ((v.lotsAt x.productId x.locationId).map v.ledger.lotResidual).sum +
      (v.ledger.lotResidual x + 0) ≤ _
    rw [hresidual]
    exact le_trans (le_of_eq (by rw [DocDb.inLots]; omega)) hroom

def Unused (n : ℕ) (H : Holds DocRow) (v : DocDb) : Prop := n ∈ H.drawn ∧ ¬ PromiseItem.Used v n

lemma stable_unused (n : ℕ) : (promises C).Stable (.receive c) (Unused n) where
  rely H v v' hsame _ _ h := by
    obtain ⟨hposted, hlots, hevents⟩ := hsame (.number n) h.1
    refine ⟨h.1, ?_⟩
    rw [PromiseItem.Used, hposted, hlots, hevents]
    exact h.2
  lock _ _ _ h := h
  draw _ m _ h := ⟨mem_cons_of_mem m h.1, h.2⟩

lemma safe_execLot (hq : x.originalQuantity = q) (hpos : 0 < q)
    (hv : Posting C c (some (x.productId, x.locationId, q)) es H v) (hnew : Unused x.id H v) :
    (promises C).Safe (.receive c) (Prog.exec (.ledger (.lot x))) ws H v fun _ _ H' v' =>
      Posting C c none es H' v' := by
  have hK := (stable_posting (C := C) (c := c) (some (x.productId, x.locationId, q)) es).and
    (stable_unused x.id)
  have hunused : ∀ v1, Unused x.id H v1 → v1.ledger.lots.countP (·.id == x.id) = 0 ∧
      v1.ledger.lotEvents.countP (·.lotId == x.id) = 0 := by
    intro v1 h
    have hnot := h.2
    simp only [PromiseItem.Used, not_or, not_lt, Nat.le_zero] at hnot
    exact hnot.2
  have hG : ∀ v1, Posting C c (some (x.productId, x.locationId, q)) es H v1 ∧ Unused x.id H v1 →
      (promises C).Guarantee (.receive c) ws H v1 [.ledger (.lot x)] := by
    rintro v1 ⟨h1, hnew1⟩
    have hroom := h1.room _ _ _ rfl
    obtain ⟨hlots, hevents⟩ := hunused v1 hnew1
    refine guarantee_single rfl fun r hr => ?_
    cases r with
    | stock s l =>
      obtain ⟨rfl, rfl⟩ : x.productId = s ∧ x.locationId = l := hr
      refine ⟨hroom.owns, fun _ => ⟨(PromiseItem.chart_docApply _ v1).trans h1.ok.chart, ?_⟩⟩
      refine (h1.ok.stock _ _).receive hevents hlots (by omega) ?_
      rw [hq]
      exact hroom.room
    | number n =>
      obtain rfl : x.id = n := hr
      refine ⟨hnew1.1, fun _ => ?_⟩
      show (v1.ledger.lots ++ [x]).countP _ ≤ 1
      rw [countP_append, hlots]
      simp
  refine safe_exec hK ⟨hv, hnew⟩ hG fun v1 h1 hcheck => ?_
  refine (stable_posting none es).lock _ _ _
    ⟨fun r => ?_, ?_, h1.1.locked, fun s l q hr => by cases hr⟩
  · have hperform : docSchema.perform [.ledger (.lot x)] v1 =
        .ok (docSchema.apply (.ledger (.lot x)) v1) := by simp only [Schema.perform, hcheck]
    exact (hG v1 h1).ok_applyAll hperform (h1.1.ok r)
  · exact ⟨h1.1.keys.drawn, h1.1.keys.unposted, h1.1.keys.nodup⟩

lemma Write.IsUnit.isBeside {w : Write} (h : w.IsUnit) : w.isBeside = true := by
  cases w <;> first | rfl | cases h

lemma Posting.forget (h : Posting C c room es H v) : Posting C c none es H v :=
  ⟨h.ok, h.keys, h.locked, fun s l q hr => by cases hr⟩

lemma carries_lotReceive (hsku : d.skuId = some skuId) (hloc : d.locationId = some locationId)
    (hq : 0 < q) :
    Carries C c (lotReceive e idx lineId amount q tracking d) (some (skuId, locationId, q)) es
      none es := by
  intro ws H v hv
  have hK := stable_posting (C := C) (c := c) (some (skuId, locationId, q)) es
  unfold lotReceive
  cases hstocked : stocked? d with
  | none => exact hv.forget
  | some place =>
    have hplace : place = (skuId, locationId) := by
      simp only [stocked?, hsku, hloc] at hstocked
      split at hstocked
      · exact (Option.some.inj hstocked).symm
      · cases hstocked
    subst hplace
    simp only [ledger, Prog.embed_bind]
    refine (safe_harmless (only_ledger_beside ?_) hK hv).bind
      fun unitCost ws1 H1 v1 h1 => ?_
    · unfold receiptUnitCost
      split <;> trivial
    unfold lotCreateFromEvent
    cases e.lotCode with
    | none => exact safe_bind safe_raise
    | some code =>
      simp only [Prog.embed_bind, Prog.embed_ensure, Prog.embed_nextval, Prog.embed_exec,
        Prog.embed_pure]
      refine safe_bind (safe_bind (safe_ensure fun _ => ?_))
      refine safe_bind (safe_nextval hK h1 fun v2 id h2 _ hunused => ?_)
      have hnew : Unused id (H1.draw id) v2 := ⟨mem_cons_self, hunused⟩
      refine (safe_execLot (abs_of_pos hq) hq (hK.draw _ id _ h2) hnew).bind
        fun _ ws3 H3 v3 h3 => ?_
      exact safe_harmless (only_ledger_beside ((receiveUnits_only _ _ _ _ _ _ _ _ _).mono
        fun _ hw => hw.isBeside)) (stable_posting none es) h3

lemma only_fifoBlock (ha : a.kind.isStocked = false) :
    (fifoBlock e lineId amount q d a).Only fun w => w.isBeside = true := by
  refine Prog.Only.bind ?_ fun _ => ?_
  · unfold fifoReceive
    split
    · trivial
    · refine Prog.Only.bind ?_ fun _ => Prog.only_nextval.bind fun _ => Prog.only_exec rfl
      unfold receiptUnitCost
      split <;> trivial
  · unfold fifoIssue
    rw [stocked?_eq_none ha]
    trivial

lemma carries_stockBlocks (hsku : d.skuId = some skuId) (hloc : d.locationId = some locationId)
    (ha : a.kind.isStocked = false) (hq : 0 < q) :
    Carries C c (stockBlocks e idx lineId amount (some q) d a) (some (skuId, locationId, q)) es
      none es := by
  intro ws H v hv
  have hK := stable_posting (C := C) (c := c) (some (skuId, locationId, q)) es
  unfold stockBlocks
  cases costSku (some d) (some a) with
  | none => exact hv.forget
  | some sku =>
    simp only [ledger, Prog.embed_bind, Prog.embed_query]
    refine (safe_harmless (only_ledger_beside (inventoryRow_only _ _ _)) hK hv).bind
      fun _ ws1 H1 v1 h1 => ?_
    refine safe_bind (safe_query hK h1 fun v2 h2 => ?_)
    cases (ledgerPart.part v2).sku? sku with
    | none => exact h2.forget
    | some s =>
      show (promises C).Safe _ (ledger (blocksFor e idx lineId amount q d a s)) ws1 H1 v2 _
      unfold blocksFor
      split
      · exact h2.forget
      split
      · exact (safe_harmless (only_ledger_beside (only_fifoBlock ha)) hK h2).mono
          fun _ _ _ _ h => h.forget
      split
      · simp only [ledger, lotBlock, Prog.embed_bind, Prog.embed_ensure]
        refine safe_bind (safe_ensure fun _ => ?_)
        refine (carries_lotReceive hsku hloc hq _ _ _ h2).bind fun _ ws3 H3 v3 h3 => ?_
        unfold lotIssue
        rw [stocked?_eq_none ha]
        exact h3
      · exact h2.forget

lemma carries_valueLeg (hC : (C.map (·.id)).Nodup) (hleg : ValueLeg C skuId locationId q e) :
    Carries C c (unlessPosted e (postNew false e idx)) (some (skuId, locationId, q)) (e :: es)
      none es := by
  obtain ⟨d0, a0, hleg, hsku, hloc, hqty, hq⟩ := hleg
  refine carries_unlessPosted (carries_postNew (some (skuId, locationId, q)) hC hleg ?_ ?_)
  · exact fun amount _ hnonneg H v h => h.room.of_harmless (harmless_debit d0.id hnonneg)
  · intro d a amount hd ha lineId
    have hdsku : d.skuId = some skuId := by
      rw [← hd] at hsku
      exact hsku
    have hdloc : d.locationId = some locationId := by
      rw [← hd] at hloc
      exact hloc
    have hrow : qtyForRow e amount d a = some q := by rw [qtyForRow, hqty]; rfl
    rw [hrow]
    exact carries_stockBlocks hdsku hdloc ha hq

/-! ### The batch -/

lemma safe_singlePass (hC : (C.map (·.id)).Nodup) (h : Deliverable C room es) (idx : ℕ)
    (hv : Posting C c room es H v) :
    (promises C).Safe (.receive c) (ledger (singlePass false idx es)) ws H v
      fun _ _ _ _ => True := by
  have hcons : ∀ {room room' e es idx ws H v},
      Carries C c (unlessPosted e (postNew false e idx)) room (e :: es) room' es →
      (∀ {ws H v} idx, Posting C c room' es H v → (promises C).Safe (.receive c)
        (ledger (singlePass false idx es)) ws H v fun _ _ _ _ => True) →
      Posting C c room (e :: es) H v → (promises C).Safe (.receive c)
        (ledger (singlePass false idx (e :: es))) ws H v fun _ _ _ _ => True := by
    intro room room' e es idx ws H v hleg hrest hv
    simp only [ledger, singlePass, Prog.embed_bind]
    refine (hleg _ _ _ hv).bind fun _ ws1 H1 v1 h1 => ?_
    exact (hrest _ h1).bind fun _ _ _ _ _ => trivial
  induction h generalizing idx ws H v with
  | nil room => trivial
  | qty hleg _ ih => exact hcons (carries_qtyLeg hC hleg) ih hv
  | value hleg _ ih => exact hcons (carries_valueLeg hC hleg) ih hv
  | other hleg _ ih => exact hcons (carries_otherLeg hC hleg) ih hv

lemma safe_probeEvents (hK : (promises C).Stable (.receive c) K)
    (hes : ∀ e ∈ es, e.reason.isCost = false) (hv : K H v) :
    (promises C).Safe (.receive c) (ledger (probeEvents es)) ws H v fun r _ H' v' =>
      r = (false, []) ∧ K H' v' := by
  induction es generalizing ws H v with
  | nil => exact ⟨rfl, hv⟩
  | cons e es ih =>
    have hprobe : ∀ db : Db, db.probe e = (false, none) := by
      intro db
      simp [Db.probe, hes e mem_cons_self]
    simp only [ledger, probeEvents, Prog.embed_bind, Prog.embed_query, hprobe]
    refine safe_bind (safe_query hK hv fun v1 h1 => ?_)
    have hrest : ∀ e' ∈ es, e'.reason.isCost = false := fun e' he' =>
      hes e' (mem_cons_of_mem e he')
    refine (ih hrest h1).bind fun r ws2 H2 v2 h2 => ?_
    obtain ⟨rfl, hv2⟩ := h2
    exact ⟨rfl, hv2⟩

lemma mem_lockOrder {db : Db} (he : e ∈ es) (h : (db.account? e.debitAccountId).isSome) :
    e.debitAccountId ∈ db.lockOrder es [] := by
  rw [Db.lockOrder, mem_insertionSort, mem_filter, mem_dedup]
  refine ⟨?_, h⟩
  rw [append_nil, mem_flatMap]
  exact ⟨e, he, mem_cons_self⟩

structure Gathered (C : List Account) (es : List Event) (H : Holds DocRow) (v : DocDb) : Prop where
  ok : AllOk C v
  keys : FreshKeys (es.map (·.key)) H v
  deliverable : ∀ room, Deliverable C room es

lemma stable_gathered (es : List Event) : (promises C).Stable (.receive c) (Gathered C es) where
  rely H v v' hsame hstays hok h :=
    ⟨fun r => hok r (h.ok r), (stable_freshKeys _).rely H v v' hsame hstays hok h.keys,
      h.deliverable⟩
  lock H ls v h := ⟨h.ok, (stable_freshKeys (C := C) (c := c) _).lock H ls v h.keys, h.deliverable⟩
  draw H n v h := ⟨h.ok, (stable_freshKeys (C := C) (c := c) _).draw H n v h.keys, h.deliverable⟩

lemma safe_postPostingLines (hC : (C.map (·.id)).Nodup) (hv : Gathered C es H v) :
    (promises C).Safe (.receive c) (ledger (postPostingLines es false)) ws H v
      fun _ _ _ _ => True := by
  have hK := stable_gathered (C := C) (c := c) es
  have hlegs := (hv.deliverable none).leg
  have hcost : ∀ e ∈ es, e.reason.isCost = false := by
    intro e he
    obtain ⟨d, a, hleg⟩ := hlegs e he
    exact hleg.reason
  unfold postPostingLines
  split
  next => trivial
  next =>
    simp only [ledger, Prog.embed_bind, lockPreScan, Prog.embed_query, Prog.embed_lockRows]
    refine (safe_probeEvents hK hcost hv).bind fun probe ws1 H1 v1 h1 => ?_
    obtain ⟨rfl, hv1⟩ := h1
    refine safe_bind (safe_bind (safe_query hK hv1 fun v2 h2 => ?_))
    refine (safe_lockRows hK h2).mono fun _ ws3 H3 v3 h3 => ?_
    obtain ⟨hv3, hlocked⟩ := h3
    refine safe_singlePass hC (hv3.deliverable none) 1 ⟨hv3.ok, hv3.keys, fun e he => ?_, ?_⟩
    · refine hlocked _ (List.mem_map_of_mem (List.mem_map_of_mem (mem_lockOrder he ?_)))
      obtain ⟨d, a, hleg⟩ := hlegs e he
      obtain ⟨x, hx, -⟩ := account?_of_mem_chart hC h2.ok.chart hleg.debit.1
      rw [← hleg.debit.2]
      exact Option.isSome_iff_exists.mpr ⟨x, hx⟩
    · exact fun s l q hr => by cases hr

/-! ### The lines -/

variable {vendorId docId : ℕ} {pl : PoLine} {i : ReceiptInput} {w : ReceiptDraft}

lemma safe_openAccount {p : Account → Bool} (hp : Fixed p) (hK : (promises C).Stable (.receive c) K)
    (hok : ∀ H v, K H v → AllOk C v) (hv : K H v) :
    (promises C).Safe (.receive c) (ledger (openAccount p)) ws H v fun a _ H' v' =>
      K H' v' ∧ C.find? (fun a => p a && !a.isClosed) = some a.static := by
  simp only [ledger, openAccount, Prog.embed_fetch]
  refine safe_fetch hK hv fun v1 a h1 ha => ⟨h1, ?_⟩
  have hfixed : Fixed fun a => p a && !a.isClosed := by
    intro x
    show (p x.static && !x.isClosed) = _
    rw [hp]
  rw [← (hok _ _ h1).chart, find?_chart hfixed]
  cases hfind : v1.ledger.accounts.find? fun a => p a && !a.isClosed with
  | none => simp [hfind, Except.mapError] at ha
  | some x =>
    simp only [ledgerPart_part, hfind, Except.mapError, Except.ok.injEq] at ha
    rw [ha]
    rfl

structure ReceiptAccounts.In (C : List Account) (skuId locationId : ℕ) (a : ReceiptAccounts) :
    Prop where
  qty : C.find? (·.isStockOf skuId locationId) = some a.qty.static
  value : a.value.static ∈ C ∧ a.value.skuId = some skuId ∧ a.value.locationId = some locationId
  vendorQty : a.vendorQty.static ∈ C ∧ a.vendorQty.kind = .vendorPool
  unsettled : a.unsettled.static ∈ C ∧ a.unsettled.kind = .apUnsettled

section

variable (hK : (promises C).Stable (.receive c) K) (hok : ∀ H v, K H v → AllOk C v) (hv : K H v)
include hK hok hv

lemma safe_receiptAccounts :
    (promises C).Safe (.receive c) (receiptAccounts vendorId pl) ws H v fun a _ H' v' =>
      K H' v' ∧ a.In C pl.skuId pl.locationId := by
  refine (safe_openAccount (fun _ => rfl) hK hok hv).bind fun qty ws1 H1 v1 h1 => ?_
  refine (safe_openAccount (fun _ => rfl) hK hok h1.1).bind fun value ws2 H2 v2 h2 => ?_
  refine (safe_openAccount (fun _ => rfl) hK hok h2.1).bind
    fun vendorQty ws3 H3 v3 h3 => ?_
  refine (safe_openAccount (fun _ => rfl) hK hok h3.1).bind
    fun unsettled ws4 H4 v4 h4 => ?_
  have hvalue := List.find?_some h2.2
  have hvendor := List.find?_some h3.2
  have hunsettled := List.find?_some h4.2
  simp only [Bool.and_eq_true, beq_iff_eq] at hvalue hvendor hunsettled
  refine ⟨h4.1, h1.2, ⟨List.mem_of_find?_eq_some h2.2, ?_, ?_⟩,
    ⟨List.mem_of_find?_eq_some h3.2, ?_⟩, ⟨List.mem_of_find?_eq_some h4.2, ?_⟩⟩
  · exact hvalue.1.1.1.2
  · exact hvalue.1.1.2
  · exact hvendor.1.1.1
  · exact hunsettled.1.1.1

lemma safe_receiptVarianceAccount {ppv : ℤ} :
    (promises C).Safe (.receive c) (receiptVarianceAccount pl ppv) ws H v fun o _ H' v' =>
      K H' v' ∧ ∀ a ∈ o, a.static ∈ C ∧ a.kind = .variancePpv := by
  unfold receiptVarianceAccount
  split
  · refine (safe_openAccount (fun _ => rfl) hK hok hv).bind fun a ws1 H1 v1 h1 => ?_
    have hkind := List.find?_some h1.2
    simp only [Bool.and_eq_true, beq_iff_eq] at hkind
    refine ⟨h1.1, fun x hx => ?_⟩
    cases hx
    exact ⟨List.mem_of_find?_eq_some h1.2, hkind.1.1⟩
  · exact ⟨hv, fun x hx => by cases hx⟩

end

structure ReceiptDraft.In (C : List Account) (skuId locationId : ℕ) (w : ReceiptDraft) : Prop where
  accounts : w.accounts.In C skuId locationId
  variance : ∀ a ∈ w.varianceAccount, a.static ∈ C ∧ a.kind = .variancePpv

lemma safe_draftReceiptLine {qty : ℤ} (hK : (promises C).Stable (.receive c) K)
    (hok : ∀ H v, K H v → AllOk C v) (hv : K H v) :
    (promises C).Safe (.receive c) (draftReceiptLine c vendorId i pl qty) ws H v fun w _ H' v' =>
      K H' v' ∧ w.In C pl.skuId pl.locationId := by
  have hsku : (receiptSku i pl.skuId qty).Only ((promises C).Harmless (.receive c)) :=
    (Prog.only_fetch _).bind fun _ => (Prog.only_ensure _ _).bind fun _ =>
      (Prog.only_ensure _ _).bind fun _ => (Prog.only_ensure _ _).bind fun _ =>
        (Prog.only_ensure _ _).bind fun _ => (Prog.only_ensure _ _).bind fun _ => Prog.only_pure _
  have hvalue : ∀ sku, (receiptValue c pl sku qty).Only ((promises C).Harmless (.receive c)) := by
    intro sku
    unfold receiptValue
    split
    · exact (only_ledger_beside (Prog.only_fetch _)).bind fun _ => Prog.only_pure _
    · exact Prog.only_pure _
  refine (safe_harmless hsku hK hv).bind fun sku ws1 H1 v1 h1 => ?_
  refine (safe_receiptAccounts hK hok h1).bind fun accounts ws2 H2 v2 h2 => ?_
  refine (safe_harmless (hvalue sku) hK h2.1).bind fun value ws3 H3 v3 h3 => ?_
  refine (safe_receiptVarianceAccount hK hok h3).bind fun variance ws4 H4 v4 h4 => ?_
  exact ⟨h4.1, h2.2, h4.2⟩

def receiptLegs (c : PoReceipt) (docId lineId : ℕ) (w : ReceiptDraft) (i : ReceiptInput) (q : ℤ)
    (k₁ k₂ k₃ : Key) : List Event :=
  receiptEvent c .poReceipt docId lineId w.accounts.qty w.accounts.vendorQty q (some q) k₁ ::
    (if 0 < w.value then [receiptValueEvent c docId lineId w i q k₂] else []) ++
    w.varianceAccount.toList.map (receiptVarianceEvent c docId lineId w k₃)

lemma keys_receiptLegs (k₁ k₂ k₃ : Key) :
    ((receiptLegs c docId lineId w i q k₁ k₂ k₃).map (·.key)).Sublist [k₁, k₂, k₃] := by
  have hvalue : (receiptValueEvent c docId lineId w i q k₂).key = k₂ := by
    unfold receiptValueEvent
    split <;> rfl
  have hvariance : ∀ a, (receiptVarianceEvent c docId lineId w k₃ a).key = k₃ := by
    intro a
    unfold receiptVarianceEvent
    split <;> rfl
  have hlast : ((w.varianceAccount.toList.map (receiptVarianceEvent c docId lineId w k₃)).map
      (·.key)).Sublist [k₃] := by
    cases w.varianceAccount with
    | none => exact nil_sublist _
    | some a => simp [hvariance]
  rw [receiptLegs, cons_append, map_cons, map_append]
  refine List.Sublist.cons_cons _ ?_
  split
  · simpa [hvalue] using hlast
  · exact hlast.cons _

lemma ReceiptDraft.In.deliverable (h : w.In C skuId locationId) (hq : 0 < q) (k₁ k₂ k₃ : Key)
    (room : Option (ℕ × ℕ × ℤ)) :
    Deliverable C room (receiptLegs c docId lineId w i q k₁ k₂ k₃) := by
  have hacc := h.accounts
  have hunsettled : w.accounts.unsettled.static.kind ≠ .stockAvailable ∧
      w.accounts.unsettled.static.kind.isStocked = false := by
    show w.accounts.unsettled.kind ≠ .stockAvailable ∧ w.accounts.unsettled.kind.isStocked = false
    rw [hacc.unsettled.2]
    exact ⟨by decide, rfl⟩
  have hvariance : ∀ a ∈ w.varianceAccount,
      OtherLeg C (receiptVarianceEvent c docId lineId w k₃ a) := by
    intro a ha
    obtain ⟨hmem, hkind⟩ := h.variance a ha
    have hplain : a.static.kind ≠ .stockAvailable ∧ a.static.kind.isStocked = false := by
      show a.kind ≠ .stockAvailable ∧ a.kind.isStocked = false
      rw [hkind]
      exact ⟨by decide, rfl⟩
    unfold receiptVarianceEvent
    split
    next hpos =>
      exact ⟨a.static, w.accounts.unsettled.static, ⟨⟨hmem, rfl⟩, ⟨hacc.unsettled.1, rfl⟩, hunsettled,
        rfl, w.ppv, rfl, hpos.le⟩, hplain.2⟩
    next hneg =>
      exact ⟨w.accounts.unsettled.static, a.static, ⟨⟨hacc.unsettled.1, rfl⟩, ⟨hmem, rfl⟩, hplain,
        rfl, -w.ppv, rfl, by omega⟩, hunsettled.2⟩
  have hrest : ∀ room, Deliverable C room
      (w.varianceAccount.toList.map (receiptVarianceEvent c docId lineId w k₃)) := by
    intro room
    cases hv : w.varianceAccount with
    | none => exact .nil room
    | some a => exact .other (hvariance a hv) (.nil room)
  have hqty : QtyLeg C skuId locationId q (receiptEvent c .poReceipt docId lineId w.accounts.qty
      w.accounts.vendorQty q (some q) k₁) := by
    refine ⟨w.accounts.qty.static, w.accounts.vendorQty.static, ⟨⟨?_, rfl⟩,
      ⟨hacc.vendorQty.1, rfl⟩, ?_, rfl, q, rfl, hq.le⟩, hacc.qty, rfl⟩
    · exact List.mem_of_find?_eq_some hacc.qty
    · show w.accounts.vendorQty.kind ≠ .stockAvailable ∧ w.accounts.vendorQty.kind.isStocked = false
      rw [hacc.vendorQty.2]
      exact ⟨by decide, rfl⟩
  rw [receiptLegs, cons_append]
  refine .qty hqty ?_
  split
  next hpos =>
    refine .value ⟨w.accounts.value.static, w.accounts.unsettled.static, ?_, hacc.value.2.1,
      hacc.value.2.2, ?_, hq⟩ (hrest none)
    · unfold receiptValueEvent
      split <;> exact ⟨⟨hacc.value.1, rfl⟩, ⟨hacc.unsettled.1, rfl⟩, hunsettled, rfl, w.value, rfl,
        hpos.le⟩
    · unfold receiptValueEvent
      split <;> rfl
  next => exact hrest _

lemma safe_randomKey {Q : Key → List DocWrite → Holds DocRow → DocDb → Prop}
    (hv : Gathered C es H v ∧ FreshKeys (es.map (·.key) ++ ks) H v)
    (h : ∀ k H' v', Gathered C es H' v' ∧ FreshKeys (es.map (·.key) ++ (ks ++ [k])) H' v' →
      Q k ws H' v') :
    (promises C).Safe (.receive c) randomKey ws H v Q := by
  have hK := (stable_gathered (C := C) (c := c) es).and (stable_freshKeys (es.map (·.key) ++ ks))
  refine safe_bind (safe_nextval hK hv fun v1 n h1 hn hused => ?_)
  refine safe_pure (h _ _ _ ⟨(stable_gathered (C := C) (c := c) es).draw _ n _ h1.1, ?_⟩)
  rw [← append_assoc]
  exact h1.2.draw hn hused

lemma safe_receiptEvents (hw : w.In C skuId locationId) (hq : 0 < q) (hv : Gathered C es H v) :
    (promises C).Safe (.receive c) (receiptEvents c docId lineId w i q) ws H v fun es' _ H' v' =>
      Gathered C (es ++ es') H' v' := by
  have hkeys : FreshKeys (es.map (·.key) ++ []) H v := by
    rw [append_nil]
    exact hv.keys
  refine safe_bind (safe_randomKey ⟨hv, hkeys⟩ fun k₁ H1 v1 h1 => ?_)
  refine safe_bind (safe_randomKey h1 fun k₂ H2 v2 h2 => ?_)
  refine safe_bind (safe_randomKey h2 fun k₃ H3 v3 h3 => ?_)
  refine ⟨h3.1.ok, h3.2.sublist ?_, fun room => ?_⟩
  · rw [map_append]
    exact List.Sublist.append (List.Sublist.refl _) (keys_receiptLegs k₁ k₂ k₃)
  · exact (h3.1.deliverable room).append (hw.deliverable hq k₁ k₂ k₃)

lemma harmless_receiptLine (l : ReceiptLine) :
    (promises C).Harmless (.receive c) (.receiptLine l) :=
  ⟨trivial, fun r => by cases r <;> exact id⟩

lemma safe_gatherLine (hv : Gathered C es H v) :
    (promises C).Safe (.receive c) (receiptLine c vendorId docId i) ws H v fun es' _ H' v' =>
      Gathered C (es ++ es') H' v' := by
  have hK := stable_gathered (C := C) (c := c) es
  have hcheck : (promises C).Safe (.receive c) (checkReceiptLine c i) ws H v fun a _ H' v' =>
      Gathered C es H' v' ∧ 0 < a.2 := by
    refine safe_bind (safe_positiveQty fun qty hpos => ?_)
    refine safe_bind (safe_lock hK hv fun v1 h1 => ?_)
    refine safe_bind (safe_findRow hK (hK.lock _ _ _ h1) fun v2 pl h2 _ => ?_)
    refine safe_bind (safe_ensure fun _ => ?_)
    refine safe_bind (safe_query hK h2 fun v3 h3 => ?_)
    exact safe_bind (safe_ensure fun _ => ⟨h3, hpos⟩)
  refine safe_bind (hcheck.mono fun a ws1 H1 v1 h1 => ?_)
  refine (safe_draftReceiptLine hK (fun _ _ h => h.ok) h1.1).bind
    fun w ws2 H2 v2 h2 => ?_
  refine safe_bind (safe_nextval hK h2.1 fun v3 id h3 _ _ => ?_)
  refine (safe_harmless (Prog.only_exec (harmless_receiptLine _)) hK
    (hK.draw _ id _ h3)).bind fun _ ws4 H4 v4 h4 => ?_
  exact safe_receiptEvents h2.2 h1.2 h4

lemma safe_gatherLines {is : List ReceiptInput} (hv : Gathered C es H v) :
    (promises C).Safe (.receive c) (receiptLines c vendorId docId is) ws H v fun es' _ H' v' =>
      Gathered C (es ++ es') H' v' := by
  induction is generalizing es ws H v with
  | nil =>
    show Gathered C (es ++ []) H v
    rw [append_nil]
    exact hv
  | cons i is ih =>
    refine (safe_gatherLine hv).bind fun es1 ws1 H1 v1 h1 => ?_
    refine (ih h1).bind fun es2 ws2 H2 v2 h2 => ?_
    show Gathered C (es ++ (es1 ++ es2)) H2 v2
    rw [← append_assoc]
    exact h2

lemma safe_gatherReceipt (hC : (C.map (·.id)).Nodup) (hv : AllOk C v) :
    (promises C).Safe (.receive c) (postPoReceipt c) ws H v fun _ _ _ _ => True := by
  have hK : (promises C).Stable (.receive c) fun _ v => AllOk C v := stable_allOk
  have hvendor : (receiptVendor c.poId).Only ((promises C).Harmless (.receive c)) := by
    refine (Prog.only_fetch _).bind fun po => ?_
    cases po.partyId with
    | none => trivial
    | some vendorId => exact Prog.only_pure _
  refine safe_unlessDocument hK hv fun v1 h1 => ?_
  refine (safe_harmless hvendor hK h1).bind fun vendorId ws2 H2 v2 h2 => ?_
  refine safe_bind (safe_ensure fun _ => ?_)
  refine safe_header (fun h => ?_) hK h2 fun docId ws3 H3 v3 h3 => ?_
  · exact ⟨trivial, fun r => by cases r <;> exact id⟩
  · have hnone : Gathered C [] H3 v3 :=
      ⟨h3, ⟨by simp, by simp, nodup_nil⟩, fun room => .nil room⟩
    refine (safe_gatherLines hnone).bind fun es ws4 H4 v4 h4 => ?_
    exact (safe_postPostingLines hC h4).bind fun _ _ _ _ _ => trivial

end Acct.Main
