import Acct.Main.Equiv.Writes

/-!
# What a batch writes

Pricing writes nothing, and what a cost method keeps beside a line is in other tables. So a batch
leaves, for every event it posts, a debit, a credit and a line of one amount between two accounts of
one ledger (`postPostingLines_triple`). The triples assume of the others only what no write can
break: an account stays in its ledger and a key stays posted.
-/

namespace Acct.Main

open Isolation Prog List

variable (es : List Event) (idx lineId : ℕ) (override : Bool) (amount qty : ℤ) (d : Account)

variable {P : Write → Prop} {v v' : Db} {ws : List Write} {g : ℕ → Option Ledger} {K : Key → Prop}

/-! ### Programs that leave accounts and lines alone -/

section Only

variable {P : Write → Prop}

lemma walk_only (cs : Db → List Candidate) (row : ℕ → Row) (e : Err) (q : ℤ) :
    (walk cs row e q).Only P := by
  refine (only_ensure _ _).bind fun _ => (only_query _).bind fun _ => ?_
  exact (only_lockRows _ _).bind fun _ => (only_ensure _ _).bind fun _ => only_pure _

lemma computeAmountWacOutbound_only (b : Bool) (idx : ℕ) (c : Option Account) (q : ℤ) :
    (computeAmountWacOutbound b idx c q).Only P := by
  refine (only_ensure _ _).bind fun _ => (only_ensure _ _).bind fun _ => ?_
  cases c with
  | none => trivial
  | some a => exact (only_query _).bind fun _ => (only_ensure _ _).bind fun _ => only_pure _

lemma computeAmountWalkOutbound_only {w : ℕ → ℕ → ℤ → Tx (List Taken)}
    (hw : ∀ p l q, (w p l q).Only P) (idx : ℕ) (d c : Option Account) (q : ℤ) :
    (computeAmountWalkOutbound w idx d c q).Only P := by
  refine (only_ensure _ _).bind fun _ => ?_
  split
  · exact (hw _ _ _).bind fun _ => only_pure _
  · trivial

lemma computeAmount_only (e : Event) (idx : ℕ) (d c : Option Account) (m : Option CostMethod) :
    (computeAmount e idx d c m).Only P := by
  unfold computeAmount
  split
  · split
    · exact (only_fetch _).bind fun _ => only_pure _
    · exact computeAmountWacOutbound_only _ _ _ _
    · exact computeAmountWacOutbound_only _ _ _ _
    · exact computeAmountWacOutbound_only _ _ _ _
    · exact computeAmountWalkOutbound_only (fun _ _ _ => walk_only _ _ _ _) _ _ _ _
    · exact computeAmountWalkOutbound_only (fun _ _ _ => walk_only _ _ _ _) _ _ _ _
    · trivial
    · trivial
  · trivial

lemma priceEvent_only (e : Event) (idx : ℕ) (d c : Option Account) :
    (priceEvent e idx d c).Only P := by
  unfold priceEvent
  split
  · split
    · trivial
    · trivial
  · refine (only_query _).bind fun m => ?_
    split
    · exact (computeAmount_only _ _ _ _ _).bind fun _ => only_pure _
    · exact (only_ensure _ _).bind fun _ => only_pure _

lemma readAccounts_only (e : Event) : (readAccounts e).Only P :=
  (only_query _).bind fun _ => (only_query _).bind fun _ => only_pure _

lemma probeEvents_only : (probeEvents es).Only P := by
  induction es with
  | nil => trivial
  | cons e es ih => exact (only_query _).bind fun _ => ih.bind fun _ => only_pure _

lemma lockPreScan_only (aux : List ℕ) : (lockPreScan es aux).Only P :=
  (only_query _).bind fun _ => only_lockRows _ _

lemma amountFor_only (e : Event) (idx : ℕ) (d c : Option Account) :
    (amountFor e idx d c).Only P := by
  unfold amountFor
  split
  · exact priceEvent_only _ _ _ _
  · trivial

lemma methodFor_only (e : Event) (d c : Option Account) : (methodFor e d c).Only P := by
  unfold methodFor
  split
  · exact only_query _
  · trivial

lemma priceUnposted_only (e : Event) (idx : ℕ) : (priceUnposted e idx).Only P := by
  refine (only_query _).bind fun dup => ?_
  split
  · trivial
  · exact (readAccounts_only _).bind fun _ => (priceEvent_only _ _ _ _).bind fun _ => only_pure _

end Only

def Write.Side (w : Write) : Prop := w.isSide = true

def Write.IsUnit : Write → Prop
  | .unit _ | .unitEvent _ => True
  | _ => False

lemma Write.IsUnit.side {w : Write} (h : w.IsUnit) : w.Side := by
  cases w <;> first | rfl | cases h

lemma createUnits_only (lotId product location : ℕ) (date : Date)
    (us : List (String × Option String)) :
    (createUnits lineId lotId product location date us).Only Write.IsUnit := by
  induction us with
  | nil => trivial
  | cons u us ih =>
    refine only_nextval.bind fun _ => (only_execAll ?_).bind fun _ => ih
    simp [Write.IsUnit]

lemma receiptUnitCost_only : (receiptUnitCost amount qty d).Only Write.Side := by
  unfold receiptUnitCost
  split
  · trivial
  · trivial

lemma inventoryRow_only : (inventoryRow amount qty d).Only P :=
  (only_ensure _ _).bind fun _ => (only_ensure _ _).bind fun _ => only_ensure _ _

section

variable (e : Event)
include e

lemma fifoBlock_only (c : Account) : (fifoBlock e lineId amount qty d c).Only Write.Side := by
  refine Only.bind ?_ fun _ => ?_
  · unfold fifoReceive
    split
    · trivial
    · refine (receiptUnitCost_only _ _ _).bind fun _ => only_nextval.bind fun _ => ?_
      exact only_exec (by rfl)
  · unfold fifoIssue
    split
    · trivial
    · refine (walk_only _ _ _ _).bind fun ts => only_execAll ?_
      simp [Write.Side, Write.isSide]

lemma unitSerials_only (count : ℕ) (code : String) : (unitSerials e idx count code).Only P := by
  unfold unitSerials
  split
  · exact (only_ensure _ _).bind fun _ => only_pure _
  · trivial

lemma externalSerials_only (count : ℕ) : (externalSerials e idx count).Only P := by
  unfold externalSerials
  split
  · exact (only_ensure _ _).bind fun _ => only_pure _
  · trivial

lemma lotCreateFromEvent_only (product location : ℕ) (q u : ℤ) :
    (lotCreateFromEvent e idx lineId product location q u).Only Write.Side := by
  unfold lotCreateFromEvent
  split
  · trivial
  · refine (only_ensure _ _).bind fun _ => only_nextval.bind fun _ => ?_
    exact (only_exec (by rfl)).bind fun _ => only_pure _

lemma receiveUnits_only (lotId product location count : ℕ) (code : String) (t : Tracking) :
    (receiveUnits e idx lineId lotId product location count code t).Only Write.IsUnit := by
  unfold receiveUnits
  split
  · refine (unitSerials_only _ _ _ _).bind fun _ => ?_
    exact (externalSerials_only _ _ _).bind fun _ => createUnits_only _ _ _ _ _ _
  · trivial

lemma lotBlock_only (t : Tracking) (d c : Account) :
    (lotBlock e idx lineId amount qty t d c).Only Write.Side := by
  refine (only_ensure _ _).bind fun _ => Only.bind ?_ fun _ => ?_
  · unfold lotReceive
    split
    · trivial
    · refine (receiptUnitCost_only _ _ _).bind fun _ => ?_
      refine (lotCreateFromEvent_only _ _ _ _ _ _ _).bind fun _ => ?_
      exact (receiveUnits_only _ _ _ _ _ _ _ _ _).mono fun _ h => h.side
  · unfold lotIssue
    split
    · trivial
    · refine (walk_only _ _ _ _).bind fun ts => only_execAll ?_
      simp [Write.Side, Write.isSide]

lemma blocksFor_only (c : Account) (s : Sku) :
    (blocksFor e idx lineId amount qty d c s).Only Write.Side := by
  unfold blocksFor
  split
  · trivial
  · split
    · exact fifoBlock_only _ _ _ _ _ _
    · split
      · exact lotBlock_only _ _ _ _ _ _ _ _
      · trivial

lemma stockBlocks_only (qty : Option ℤ) (d c : Account) :
    (stockBlocks e idx lineId amount qty d c).Only Write.Side := by
  unfold stockBlocks
  split
  · refine (inventoryRow_only _ _ _).bind fun _ => (only_query _).bind fun row => ?_
    cases row with
    | none => trivial
    | some s => exact blocksFor_only _ _ _ _ _ _ _ s
  · trivial

end

lemma flagProvisional_only (hP : ∀ p, P (.flag p)) (e : Event) (lineId periodId : ℕ)
    (m : Option CostMethod) (d c : Account) :
    (flagProvisional e lineId periodId m d c).Only P := by
  unfold flagProvisional
  split
  · refine Only.bind ?_ fun r => ?_
    · unfold resolveMethod
      split
      · trivial
      · exact only_query _
    · unfold flagLine
      split
      · exact only_exec (hP _)
      · exact only_exec (hP _)
      · trivial
  · trivial

/-! ### Logs -/

def grown (K : Key → Prop) (ws : List Write) (k : Key) : Prop := K k ∨ ∃ l ∈ linesOf ws, l.key = k

@[simp] lemma grown_nil (K : Key → Prop) : grown K [] = K := by
  funext k
  simp [grown, linesOf]

lemma grown_append (K : Key → Prop) (ws ws' : List Write) :
    grown K (ws ++ ws') = grown (grown K ws) ws' := by
  funext k
  simp [grown, linesOf, or_and_right, exists_or, or_assoc]

lemma linesOf_side (h : ∀ w ∈ ws, w.Side) : linesOf ws = [] := by
  refine filterMap_eq_nil_iff.mpr fun w hw => ?_
  have hside := h w hw
  cases w <;> first | rfl | cases hside

lemma grown_side (K : Key → Prop) (h : ∀ w ∈ ws, w.Side) : grown K ws = K := by
  funext k
  rw [grown, linesOf_side h]
  simp

/-- What posting an event writes: a line, its amount on both accounts, and other tables. The two
accounts are in one ledger of the chart `g`. -/
inductive EventLog (g : ℕ → Option Ledger) (e : Event) : List Write → Prop
  | mk (l : PostingLine) (side : List Write) (hkey : l.key = e.key)
      (hledger : ∃ x, g l.debitAccountId = some x ∧ g l.creditAccountId = some x)
      (hside : ∀ w ∈ side, w.Side) :
      EventLog g e (.debit l.debitAccountId l.amount :: .credit l.creditAccountId l.amount ::
        .line l :: side)

/-- What a batch writes and returns, where the keys `K` are posted: nothing for an event it skips,
and it skips every event whose key is posted. -/
inductive BatchLog (g : ℕ → Option Ledger) :
    (Key → Prop) → List Event → List Posted → List Write → Prop
  | nil (K : Key → Prop) : BatchLog g K [] [] []
  | skip {K : Key → Prop} {es : List Event} {rs : List Posted} {ws : List Write} (e : Event)
      (h : BatchLog g K es rs ws) : BatchLog g K (e :: es) (.exists :: rs) ws
  | post {K : Key → Prop} {es : List Event} {rs : List Posted} {w ws : List Write} (e : Event)
      (hnew : ¬ K e.key) (he : EventLog g e w) (h : BatchLog g (grown K w) es rs ws) :
      BatchLog g K (e :: es) (.ok :: rs) (w ++ ws)

/-- What a script writes, and the results of its calls. -/
inductive Script.Log (g : ℕ → Option Ledger) :
    (Key → Prop) → Script → List (List Posted) → List Write → Prop
  | done (K : Key → Prop) : Log g K .done [] []
  | post {K : Key → Prop} {es : List Event} {override : Bool} {k : List Posted → Script}
      {rs : List Posted} {rest : List (List Posted)} {w ws : List Write}
      (hw : BatchLog g K es rs w) (h : Log g (grown K w) (k rs) rest ws) :
      Log g K (.post es override k) (rs :: rest) (w ++ ws)
  | lock {K : Key → Prop} {r : Row} {m : RowLock} {k : Script} {rest : List (List Posted)}
      {ws : List Write} (h : Log g K k rest ws) : Log g K (.lock r m k) rest ws
  | draw {K : Key → Prop} {k : ℕ → Script} {rest : List (List Posted)} {ws : List Write} (n : ℕ)
      (h : Log g K (k n) rest ws) : Log g K (.draw k) rest ws
  | side {K : Key → Prop} {w : Db → List SideWrite} {k : Db → Script}
      {rest : List (List Posted)} {ws : List Write} (d : Db) (h : Log g K (k d) rest ws) :
      Log g K (.side w k) rest ((w d).map (·.val) ++ ws)

/-! ### Triples -/

structure Keeps (v v' : Db) : Prop where
  ledger : ∀ i, v'.ledger? i = v.ledger? i
  posted : ∀ k, v.posted k = true → v'.posted k = true

lemma Keeps.refl (v : Db) : Keeps v v := ⟨fun _ => rfl, fun _ h => h⟩

lemma Keeps.trans {v'' : Db} (h : Keeps v v') (h' : Keeps v' v'') : Keeps v v'' :=
  ⟨fun i => (h'.ledger i).trans (h.ledger i), fun k hk => h'.posted k (h.posted k hk)⟩

lemma keeps_applyAll (ws : List Write) (db : Db) : Keeps db (schema.applyAll ws db) :=
  ⟨ledger?_applyAll ws db, fun _ h => posted_applyAll h⟩

lemma keeps_apply (w : Write) (db : Db) : Keeps db (w.apply db) := keeps_applyAll [w] db

structure Known (g : ℕ → Option Ledger) (K : Key → Prop) (v : Db) : Prop where
  ledger : ∀ i, v.ledger? i = g i
  posted : ∀ k, K k → v.posted k = true

lemma Known.keeps (h : Known g K v) (hv : Keeps v v') : Known g K v' :=
  ⟨fun i => (hv.ledger i).trans (h.ledger i), fun k hk => hv.posted k (h.posted k hk)⟩

abbrev Triple {α : Type} (p : Tx α) (ws : List Write) (H : Holds Row) (v : Db)
    (Q : α → List Write → Holds Row → Db → Prop) : Prop :=
  p.Safe schema (fun _ _ => Keeps) (fun _ _ _ _ => True) (fun _ _ => False) ws H v Q

variable {H : Holds Row}

lemma Known.perform {w : List Write} (h : Known g K v) (hp : schema.perform w v = .ok v') :
    Known g K v' := by
  rw [Schema.eq_applyAll_of_perform hp]
  exact h.keeps (keeps_applyAll w v)

lemma triple_side {α : Type} {p : Tx α} (hp : p.Only Write.Side) (hv : Known g K v) :
    Triple p ws H v fun _ ws' _ v' =>
      (∃ w, ws' = ws ++ w ∧ ∀ x ∈ w, x.Side) ∧ Known g K v' :=
  hp.safe (fun _ _ _ _ _ _ => trivial) (fun _ _ _ _ h hv => Known.keeps hv h) (fun _ _ _ h => h)
    (fun _ _ _ h => h) (fun _ _ _ _ _ h hv => Known.perform hv h) hv

lemma triple_reads {α : Type} {p : Tx α} (hp : p.Only fun _ => False) (hv : Known g K v) :
    Triple p ws H v fun _ ws' _ v' => ws' = ws ∧ Known g K v' := by
  refine (hp.safe (K := fun _ => Known g K) (fun _ _ _ _ _ _ => trivial)
    (fun _ _ _ _ h hv => hv.keeps h) (fun _ _ _ h => h) (fun _ _ _ h => h)
    (fun _ _ _ _ _ h hv => hv.perform h) hv).mono ?_
  rintro _ ws' _ v' ⟨⟨w, rfl, hw⟩, hv'⟩
  rw [eq_nil_iff_forall_not_mem.mpr hw, append_nil]
  exact ⟨rfl, hv'⟩

def InChart (g : ℕ → Option Ledger) (a : Option Account) : Prop := ∀ x ∈ a, g x.id = some x.ledger

lemma Known.inChart (h : Known g K v) (i : ℕ) : InChart g (v.account? i) := by
  intro a ha
  rw [Option.mem_def] at ha
  rw [← h.ledger, id_of_account? ha, Db.ledger?, ha]
  rfl

lemma readAccounts_triple (e : Event) (hv : Known g K v) :
    Triple (readAccounts e) ws H v fun r ws' _ v' =>
      ws' = ws ∧ Known g K v' ∧ InChart g r.1 ∧ InChart g r.2 := by
  refine safe_bind.mpr (safe_query (fun _ => trivial) fun v1 h1 => ?_)
  refine safe_bind.mpr (safe_query (fun _ => trivial) fun v2 h2 => ?_)
  have hv1 := hv.keeps h1
  have hv2 := hv1.keeps h2
  exact ⟨rfl, hv2, hv1.inChart _, hv2.inChart _⟩

lemma Known.line {l : PostingLine} (h : Known g K v) :
    Known g (grown K [.line l]) (Write.apply (.line l) v) := by
  refine ⟨(h.keeps (keeps_apply _ v)).ledger, ?_⟩
  rintro k (hk | ⟨l', hl', rfl⟩)
  · exact (h.keeps (keeps_apply _ v)).posted k hk
  · simp only [linesOf, Write.line?, filterMap_cons, filterMap_nil,
      mem_singleton] at hl'
    simp [Db.posted, Write.apply, hl']

lemma grown_event (K : Key → Prop) (l : PostingLine) (i j : ℕ) (a : ℤ) {side : List Write}
    (hside : ∀ w ∈ side, w.Side) :
    grown K (.debit i a :: .credit j a :: .line l :: side) = grown K [.line l] := by
  have hlines : linesOf (.debit i a :: .credit j a :: .line l :: side) = [l] := by
    show l :: linesOf side = [l]
    rw [linesOf_side hside]
  funext k
  rw [grown, hlines]
  rfl

lemma applyChecked_triple (e : Event) (idx : ℕ) (amount : ℤ) {d c : Account}
    (m : Option CostMethod) (override : Bool) (hd : g d.id = some d.ledger)
    (hc : g c.id = some c.ledger) (hv : Known g K v) :
    Triple (applyChecked e idx amount d c m override) ws H v fun _ ws' _ v' =>
      ∃ w, ws' = ws ++ w ∧ EventLog g e w ∧ Known g (grown K w) v' := by
  refine safe_bind.mpr (safe_ensure fun _ => ?_)
  refine safe_bind.mpr (safe_ensure fun hledger => ?_)
  refine safe_bind.mpr (safe_bind.mpr (safe_fetch (fun _ => trivial) fun v1 p h1 _ => ?_))
  refine safe_bind.mpr (safe_ensure fun _ => ?_)
  have hv1 := hv.keeps h1
  refine safe_bind.mpr (safe_exec (fun _ => trivial) fun v2 h2 _ => ?_)
  have hv2 := (hv1.keeps h2).keeps (keeps_apply (.debit d.id amount) v2)
  refine safe_bind.mpr (safe_exec (fun _ => trivial) fun v3 h3 _ => ?_)
  have hv3 := (hv2.keeps h3).keeps (keeps_apply (.credit c.id amount) v3)
  refine safe_bind.mpr (safe_nextval fun v₃' h₃' id _ _ => ?_)
  refine safe_bind.mpr (safe_exec (fun _ => trivial) fun v4 h4 _ => ?_)
  have hv4 := ((hv3.keeps h₃').keeps h4).line
    (l := e.toLine id amount (qtyForRow e amount d c) d c p.id)
  refine (triple_side (flagProvisional_only (fun _ => rfl) _ _ _ _ _ _) hv4).bind ?_
  rintro _ _ _ v5 ⟨⟨w, rfl, hw⟩, hv5⟩
  refine safe_bind.mpr (safe_fetch (fun _ => trivial) fun v₅' _ h₅' _ => ?_)
  refine (triple_side (stockBlocks_only _ _ _ _ _ _ _) (hv5.keeps h₅')).bind ?_
  rintro _ _ _ v6 ⟨⟨w', rfl, hw'⟩, hv6⟩
  have hside : ∀ x ∈ w ++ w', x.Side := fun x hx => (mem_append.mp hx).elim (hw x) (hw' x)
  refine ⟨_, ?_, .mk (e.toLine id amount (qtyForRow e amount d c) d c p.id) (w ++ w') rfl
    ⟨d.ledger, hd, hledger ▸ hc⟩ hside, ?_⟩
  · simp [Event.toLine]
  · rw [grown_event K _ _ _ _ hside]
    exact hv6

lemma applyEvent_triple (e : Event) (idx : ℕ) (amount : Option ℤ) {d c : Option Account}
    (m : Option CostMethod) (override : Bool) (hd : InChart g d) (hc : InChart g c)
    (hv : Known g K v) :
    Triple (applyEvent e idx amount d c m override) ws H v fun _ ws' _ v' =>
      ∃ w, ws' = ws ++ w ∧ EventLog g e w ∧ Known g (grown K w) v' := by
  refine safe_bind.mpr (safe_ensure fun _ => ?_)
  split
  · exact applyChecked_triple e idx _ m override (hd _ rfl) (hc _ rfl) hv
  · trivial

def PostsNew (g : ℕ → Option Ledger) (K : Key → Prop) (e : Event) (ws : List Write) (r : Posted)
    (ws' : List Write) (_ : Holds Row) (v' : Db) : Prop :=
  r = .ok ∧ ∃ w, ws' = ws ++ w ∧ EventLog g e w ∧ Known g (grown K w) v'

lemma postNew_triple (e : Event) (idx : ℕ) (hv : Known g K v) :
    Triple (postNew override e idx) ws H v (PostsNew g K e ws) := by
  refine (readAccounts_triple e hv).bind ?_
  rintro r _ _ v1 ⟨rfl, hv1, hd, hc⟩
  refine (triple_reads (amountFor_only _ _ _ _) hv1).bind ?_
  rintro p _ _ v2 ⟨rfl, hv2⟩
  refine (applyEvent_triple e idx _ _ override hd hc hv2).bind ?_
  exact fun _ _ _ _ h => ⟨rfl, h⟩

lemma postPriced_triple (e : Event) (amount : Option ℤ) (idx : ℕ) (hv : Known g K v) :
    Triple (postPriced override e amount idx) ws H v (PostsNew g K e ws) := by
  refine (readAccounts_triple e hv).bind ?_
  rintro r _ _ v1 ⟨rfl, hv1, hd, hc⟩
  refine (triple_reads (methodFor_only _ _ _) hv1).bind ?_
  rintro m _ _ v2 ⟨rfl, hv2⟩
  refine (applyEvent_triple e idx _ _ override hd hc hv2).bind ?_
  exact fun _ _ _ _ h => ⟨rfl, h⟩

def Posts (g : ℕ → Option Ledger) (K : Key → Prop) (es : List Event) (ws : List Write)
    (rs : List Posted) (ws' : List Write) (_ : Holds Row) (v' : Db) : Prop :=
  ∃ w, ws' = ws ++ w ∧ BatchLog g K es rs w ∧ Known g (grown K w) v'

lemma posts_cons {p : Tx Posted} {q : Tx (List Posted)} {e : Event} {es : List Event}
    (hp : ∀ {K ws H v}, Known g K v → Triple p ws H v (PostsNew g K e ws))
    (hq : ∀ {K ws H v}, Known g K v → Triple q ws H v (Posts g K es ws)) (hv : Known g K v) :
    Triple (do let r ← unlessPosted e p; let rs ← q; return r :: rs) ws H v
      (Posts g K (e :: es) ws) := by
  refine safe_bind.mpr (safe_bind.mpr (safe_query (fun _ => trivial) fun v1 h1 => ?_))
  have hv1 := hv.keeps h1
  split
  · refine (hq hv1).bind ?_
    rintro rs _ _ v2 ⟨w, rfl, hw, hv2⟩
    exact ⟨w, rfl, .skip e hw, hv2⟩
  · next hdup =>
    have hnew : ¬ K e.key := fun hk => hdup (hv1.posted _ hk)
    refine (hp hv1).mono ?_
    rintro _ _ _ v2 ⟨rfl, w, rfl, he, hv2⟩
    refine (hq hv2).bind ?_
    rintro rs _ _ v3 ⟨w', rfl, hw', hv3⟩
    exact ⟨w ++ w', by simp, .post e hnew he hw', by rwa [grown_append]⟩

lemma posts_nil (hv : Known g K v) :
    Triple (pure [] : Tx (List Posted)) ws H v (Posts g K [] ws) :=
  ⟨[], by simp, .nil K, by simpa using hv⟩

lemma singlePass_triple (idx : ℕ) (es : List Event) :
    ∀ {K ws H v}, Known g K v → Triple (singlePass override idx es) ws H v (Posts g K es ws) := by
  induction es generalizing idx with
  | nil => exact fun hv => posts_nil hv
  | cons e es ih =>
    exact fun hv => posts_cons (fun h => postNew_triple override e idx h) (ih (idx + 1)) hv

lemma applyPass_triple (idx : ℕ) (ps : List (Event × Option ℤ)) :
    ∀ {K ws H v}, Known g K v →
      Triple (applyPass override idx ps) ws H v (Posts g K (ps.map (·.1)) ws) := by
  induction ps generalizing idx with
  | nil => exact fun hv => posts_nil hv
  | cons p ps ih =>
    exact fun hv => posts_cons (fun h => postPriced_triple override p.1 p.2 idx h) (ih (idx + 1)) hv

lemma pricePass_triple (es : List Event) (hv : Known g K v) :
    Triple (pricePass idx es) ws H v fun as ws' _ v' =>
      as.length = es.length ∧ ws' = ws ∧ Known g K v' := by
  induction es generalizing idx v H with
  | nil => exact ⟨rfl, rfl, hv⟩
  | cons e es ih =>
    have hprice : (bif e.reason.isCost then priceUnposted e idx else pure e.amount :
        Tx (Option ℤ)).Only fun _ => False := by
      cases e.reason.isCost with
      | true => exact priceUnposted_only e idx
      | false => trivial
    refine (triple_reads hprice hv).bind ?_
    rintro a _ _ v1 ⟨rfl, hv1⟩
    refine (ih (idx + 1) hv1).bind ?_
    rintro as _ _ v2 ⟨hlen, rfl, hv2⟩
    exact ⟨by simp [hlen], rfl, hv2⟩

lemma passes_triple (hasWac : Bool) (hv : Known g K v) :
    Triple (passes es override hasWac) ws H v (Posts g K es ws) := by
  unfold passes
  split
  · refine (pricePass_triple 1 es hv).bind ?_
    rintro as ws' L' v1 ⟨hlen, rfl, hv1⟩
    have hpass : Triple (applyPass override 1 (es.zip as)) ws' L' v1
        (Posts g K ((es.zip as).map (·.1)) ws') := applyPass_triple override 1 _ hv1
    rwa [map_fst_zip hlen.ge] at hpass
  · exact singlePass_triple override 1 es hv

/-- A call of `post_posting_lines`. -/
theorem postPostingLines_triple (hv : Known g K v) :
    Triple (postPostingLines es override) ws H v (Posts g K es ws) := by
  unfold postPostingLines
  split
  next hnil =>
    rw [hnil]
    exact posts_nil hv
  next =>
    refine (triple_reads (probeEvents_only es) hv).bind ?_
    rintro probe _ _ v1 ⟨rfl, hv1⟩
    refine (triple_reads (lockPreScan_only es _) hv1).bind ?_
    rintro _ _ _ v2 ⟨rfl, hv2⟩
    exact passes_triple es override probe.1 hv2

theorem Script.prog_triple (c : Script) (hv : Known g K v) :
    Triple c.prog ws H v fun rs ws' _ v' =>
      ∃ w, ws' = ws ++ w ∧ c.Log g K rs w ∧ Known g (grown K w) v' := by
  induction c generalizing K ws H v with
  | done => exact ⟨[], by simp, .done K, by simpa using hv⟩
  | fail e => trivial
  | post es override k ih =>
    refine (postPostingLines_triple es override hv).bind ?_
    rintro rs _ _ v1 ⟨w, rfl, hw, hv1⟩
    refine (ih rs hv1).bind ?_
    rintro rest _ _ v2 ⟨w', rfl, hw', hv2⟩
    exact ⟨w ++ w', by simp, .post hw hw', by rwa [grown_append]⟩
  | lock r m k ih =>
    intro v1 h1
    refine (ih (hv.keeps h1)).mono ?_
    rintro rs _ _ v2 ⟨w, rfl, hw, hv2⟩
    exact ⟨w, rfl, .lock hw, hv2⟩
  | draw k ih =>
    intro v1 h1 n _ _
    refine (ih n (hv.keeps h1)).mono ?_
    rintro rs _ _ v2 ⟨w, rfl, hw, hv2⟩
    exact ⟨w, rfl, .draw n hw, hv2⟩
  | side f k ih =>
    intro v1 h1
    refine ⟨trivial, fun v2 hperf => ?_⟩
    have hside : ∀ x ∈ (f v1).map (·.val), Write.Side x := by
      intro x hx
      obtain ⟨y, _, rfl⟩ := mem_map.mp hx
      exact y.property
    refine (ih v1 ((hv.keeps h1).perform hperf)).mono ?_
    rintro rs _ _ v3 ⟨w, rfl, hw, hv3⟩
    refine ⟨(f v1).map (·.val) ++ w, by simp, .side v1 hw, ?_⟩
    rwa [grown_append, grown_side K hside]

end Acct.Main
