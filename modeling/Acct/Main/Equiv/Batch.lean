import Acct.Main.Equiv.Balances
import Acct.Main.Equiv.Consumed
import Acct.Main.Equiv.Posting

/-!
# The lines of a batch

A batch of new events that is accepted enters one line for each of them (`Entered`). Under perpetual
average cost the amounts are the caller's, or what the first pass quotes on the database it found
(`postPostingLines_entered`).
-/

namespace Acct.Main

open Isolation Prog List Option

variable (db : Db) (ls : List PostingLine)

variable {idx n : ℕ} {e e' : Event} {m : Option CostMethod} {ps : List (Event × Option ℤ)}
  {override : Bool} {amount' : ℤ} {v v' v'' : Db} {l : PostingLine} {es : List Event}

/-! ### Several lines -/

structure SameBooks (v v' : Db) : Prop where
  accounts : v'.accounts = v.accounts
  lines : v'.lines = v.lines
  skus : v'.skus = v.skus

namespace SameBooks

lemma refl (v : Db) : SameBooks v v := ⟨rfl, rfl, rfl⟩

lemma trans (h : SameBooks v v') (h' : SameBooks v' v'') : SameBooks v v'' :=
  ⟨h'.accounts.trans h.accounts, h'.lines.trans h.lines, h'.skus.trans h.skus⟩

lemma account? (h : SameBooks v v') (i : ℕ) : v'.account? i = v.account? i := by
  rw [Db.account?, h.accounts, Db.account?]

lemma classQty (h : SameBooks v v') (i : ℕ) : v'.classQty i = v.classQty i := by
  rw [Db.classQty, h.lines, Db.classQty]

lemma lined (h : SameBooks v v') (l : PostingLine) : SameBooks (v.lined l) (v'.lined l) where
  accounts := by
    rw [Db.lined, accounts_applyAll, h.accounts, Db.lined, accounts_applyAll]
  lines := by rw [lines_lined, h.lines, lines_lined]
  skus := h.skus

end SameBooks

def Db.linedAll : Db := ls.foldl Db.lined db

lemma SameBooks.linedAll (h : SameBooks v v') (ls : List PostingLine) :
    SameBooks (v.linedAll ls) (v'.linedAll ls) := by
  induction ls generalizing v v' with
  | nil => exact h
  | cons l ls ih => exact ih (h.lined l)

lemma account?_linedAll (i : ℕ) :
    (db.linedAll ls).account? i =
      (db.account? i).map fun a => a.moved (lineDebits ls i) (lineCredits ls i) := by
  induction ls generalizing db with
  | nil => simp [Db.linedAll, lineDebits, lineCredits]
  | cons l ls ih =>
    show ((db.lined l).linedAll ls).account? i = _
    rw [ih, account?_lined, Option.map_map]
    refine congrArg (Option.map · _) (funext fun a => ?_)
    simp only [Function.comp_apply, Account.moved_moved, lineDebits, lineCredits, map_cons,
      sum_cons]

lemma lines_linedAll : (db.linedAll ls).lines = db.lines ++ ls := by
  induction ls generalizing db with
  | nil => exact (append_nil _).symm
  | cons l ls ih =>
    show ((db.lined l).linedAll ls).lines = _
    rw [ih, lines_lined, append_assoc, singleton_append]

lemma classQty_linedAll (i : ℕ) :
    (db.linedAll ls).classQty i = db.classQty i + (ls.map (·.signedQty i)).sum := by
  rw [Db.classQty, lines_linedAll, map_append, sum_append, Db.classQty]

/-! ### The line of an event -/

lemma side_post {α : Type} {p : Tx α} (hp : p.Only Write.Side) :
    p.Post schema n v fun _ _ v' => SameBooks v v' := by
  refine hp.post (H := fun _ u => SameBooks v u) ?_ (fun _ _ h => h) (.refl v)
  intro w _ u hw hu
  cases w with
  | debit | credit | line => cases hw
  | _ => exact hu.trans ⟨rfl, rfl, rfl⟩

structure Makes (p : Event × Option ℤ) (l : PostingLine) : Prop where
  amount : p.2 = some l.amount
  pos : 0 < l.amount
  debit : l.debitAccountId = p.1.debitAccountId
  credit : l.creditAccountId = p.1.creditAccountId
  ne : l.debitAccountId ≠ l.creditAccountId
  key : l.key = p.1.key
  qty : ∀ q, p.1.qty = some q → l.qty = some q

section Event

variable {amount : Option ℤ}

lemma applyEvent_makes :
    (applyEvent e idx amount (v.account? e.debitAccountId) (v.account? e.creditAccountId) m
      override).Post schema n v fun _ _ v' =>
        ∃ l, Makes (e, amount) l ∧ CanPost v l ∧ SameBooks (v.lined l) v' := by
  rcases hd : v.account? e.debitAccountId with _ | d
  · exact ends_bind (ends_ensure fun _ => ends_raise)
  rcases hc : v.account? e.creditAccountId with _ | c
  · exact ends_bind (ends_ensure fun _ => ends_raise)
  rcases amount with _ | amount
  · exact ends_bind (ends_ensure fun _ => ends_raise)
  have hdid := id_of_account? hd
  have hcid := id_of_account? hc
  refine applyEvent_ends (applyChecked_ends (hdid.symm ▸ hd) (hcid.symm ▸ hc) fun p _ hcan => ?_)
  have hside : (afterLine e idx n p.id amount d c m).Only Write.Side :=
    (flagProvisional_only (fun _ => rfl) _ _ _ _ _ _).bind fun _ => (only_fetch _).bind fun _ =>
      (stockBlocks_only _ _ _ _ _ _ _).bind fun _ => only_pure _
  refine (side_post hside).mono fun _ _ v' hv' => ⟨_, ?_, hcan, hv'⟩
  refine ⟨rfl, hcan.amount, hdid, hcid, hcan.ne, rfl, fun q hq => ?_⟩
  show qtyForRow e amount d c = some q
  rw [qtyForRow, show e.qty = some q from hq, some_or]

lemma postPriced_makes : (postPriced override e amount idx).Post schema n v fun _ _ v' =>
    ∃ l, Makes (e, amount) l ∧ CanPost v l ∧ SameBooks (v.lined l) v' := by
  refine ends_bind (ends_bind (ends_query (ends_bind (ends_query (ends_pure ?_)))))
  refine (reads_post (methodFor_only _ _ _)).bind ?_
  rintro m n1 v1 ⟨-, rfl⟩
  exact applyEvent_makes.bind fun _ _ _ hv' => ends_pure hv'

lemma postNew_makes (h : e.reason.isCost = false) :
    (postNew override e idx).Post schema n v fun _ _ v' =>
      ∃ l, Makes (e, e.amount) l ∧ CanPost v l ∧ SameBooks (v.lined l) v' := by
  refine postNew_ends (P := fun p _ v' => v = v' ∧ p = (e.amount, none)) ?_ ?_
  · rw [amountFor_of_not_isCost h]
    exact ends_pure ⟨rfl, rfl⟩
  · rintro _ _ _ ⟨rfl, rfl⟩
    exact applyEvent_makes

end Event

/-! ### The lines of a batch -/

structure Entered (ps : List (Event × Option ℤ)) (ls : List PostingLine) (v v' : Db) : Prop where
  makes : List.Forall₂ Makes ps ls
  books : SameBooks (v.linedAll ls) v'
  sound : (∀ j, ∀ a ∈ v.account? j, a.Sound) → ∀ j, ∀ a ∈ v'.account? j, a.Sound

lemma Entered.nil (v : Db) : Entered [] [] v v := ⟨.nil, .refl v, fun h => h⟩

lemma Entered.cons {p : Event × Option ℤ} {ls : List PostingLine} (hp : Makes p l)
    (hcan : CanPost v l) (hl : SameBooks (v.lined l) v') (h : Entered ps ls v' v'') :
    Entered (p :: ps) (l :: ls) v v'' where
  makes := .cons hp h.makes
  books := (hl.linedAll ls).trans h.books
  sound hv := h.sound fun j a ha => sound_lined hv hcan j a (hl.account? j ▸ ha)

lemma unposted_lined {k : Key} (hl : SameBooks (v.lined l) v') (hk : v.posted k = false)
    (hne : l.key ≠ k) : v'.posted k = false := by
  unfold Db.posted at hk ⊢
  rw [hl.lines, lines_lined, any_append, hk]
  simpa using hne

lemma forall_unposted_lined {α : Type} {f : α → Key} {as : List α}
    (hl : SameBooks (v.lined l) v') (hk : l.key ∉ as.map f)
    (hnew : ∀ a ∈ as, v.posted (f a) = false) : ∀ a ∈ as, v'.posted (f a) = false :=
  fun a ha => unposted_lined hl (hnew a ha) fun heq => hk (heq ▸ mem_map_of_mem ha)

lemma applyPass_entered (hkeys : (ps.map (·.1.key)).Nodup)
    (hnew : ∀ p ∈ ps, v.posted p.1.key = false) :
    (applyPass override idx ps).Post schema n v fun _ _ v' => ∃ ls, Entered ps ls v v' := by
  induction ps generalizing n v idx with
  | nil => exact ends_pure ⟨[], .nil v⟩
  | cons p ps ih =>
    obtain ⟨hk, hkeys'⟩ := nodup_cons.mp hkeys
    refine ends_bind (ends_bind (ends_query ?_))
    rw [hnew p mem_cons_self]
    refine postPriced_makes.mono ?_
    rintro _ n1 v1 ⟨l, hl, hcan, hbooks⟩
    have hnew' := forall_unposted_lined hbooks (hl.key ▸ hk) fun p' hp' =>
      hnew p' (mem_cons_of_mem p hp')
    refine (ih hkeys' hnew').bind ?_
    rintro _ _ v2 ⟨ls, hls⟩
    exact ends_pure ⟨l :: ls, .cons hl hcan hbooks hls⟩

lemma singlePass_entered (hcost : ∀ e ∈ es, e.reason.isCost = false)
    (hkeys : (es.map (·.key)).Nodup) (hnew : ∀ e ∈ es, v.posted e.key = false) :
    (singlePass override idx es).Post schema n v fun _ _ v' =>
      ∃ ls, Entered (es.map fun e => (e, e.amount)) ls v v' := by
  induction es generalizing n v idx with
  | nil => exact ends_pure ⟨[], .nil v⟩
  | cons e es ih =>
    obtain ⟨hk, hkeys'⟩ := nodup_cons.mp hkeys
    refine ends_bind (ends_bind (ends_query ?_))
    rw [hnew e mem_cons_self]
    refine (postNew_makes (hcost e mem_cons_self)).mono ?_
    rintro _ n1 v1 ⟨l, hl, hcan, hbooks⟩
    have hnew' := forall_unposted_lined hbooks (hl.key ▸ hk) fun e' he' =>
      hnew e' (mem_cons_of_mem e he')
    refine (ih (fun e' he' => hcost e' (mem_cons_of_mem e he')) hkeys' hnew').bind ?_
    rintro _ _ v2 ⟨ls, hls⟩
    exact ends_pure ⟨l :: ls, .cons hl hcan hbooks hls⟩

/-! ### Perpetual average cost -/

def Db.IsWac (e : Event) : Prop :=
  ∃ s, (costSku (db.account? e.debitAccountId) (db.account? e.creditAccountId)).bind db.sku? =
    some s ∧ s.costMethod = .wacPerpetual

/-- The amount of an event in the first pass: the truncated average cost of its credit account for a
cost event between value accounts, and otherwise the caller's. -/
def Db.quoted (e : Event) : Option ℤ :=
  if e.reason.isCost = true ∧ isValue (db.account? e.debitAccountId) = true then do
    let a ← db.account? e.creditAccountId
    let q ← e.qty
    some (q * (max 0 a.balance).tdiv (db.classQty e.creditAccountId))
  else e.amount

lemma quoted_of_not_isCost (h : e.reason.isCost = false) : v.quoted e = e.amount :=
  if_neg fun hand => absurd hand.1 (ne_true_of_eq_false h)

/-- A depletion between value accounts has a quantity and is of a pool that has units. -/
def Quotable (db : Db) (e : Event) : Prop :=
  isValue (db.account? e.debitAccountId) = true → e.qty.isSome ∧
    ∃ c, db.account? e.creditAccountId = some c ∧ c.ledger.isValue = true ∧
      0 < db.classQty e.creditAccountId

section Quote

variable {E : Prop}

lemma computeAmountWac_ends {c : Option Account} {q : ℤ}
    (hE : E ∨ ∃ a, c = some a ∧ a.ledger.isValue = true ∧ 0 < v.classQty a.id) :
    (computeAmountWacPerpetualOutbound idx c q).Ends schema E n v fun x n' v' =>
      n' = n ∧ v' = v ∧ ∃ a, c = some a ∧ x = q * (max 0 a.balance).tdiv (v.classQty a.id) := by
  refine ends_bind (ends_ensure (fun _ => ends_bind (ends_ensure (fun _ => ?_) ?_)) ?_)
  · cases c with
    | none => exact ends_raise (hE.resolve_right fun ⟨a, ha, _⟩ => by cases ha)
    | some a =>
      refine ends_bind (ends_query (ends_bind (ends_ensure
        (fun _ => ends_pure ⟨rfl, rfl, a, rfl, rfl⟩) (hE.imp_right ?_))))
      rintro ⟨_, ⟨⟩, -, hpos⟩
      exact hpos
  · refine hE.imp_right ?_
    rintro ⟨a, rfl, hval, -⟩
    rw [isNotValue, any_some, hval]
    rfl
  · exact .inr fun hb => Bool.false_ne_true hb.1

lemma priceEvent_wac_ends (hcost : e.reason.isCost = true) (h : v.IsWac e)
    (hE : E ∨ Quotable v e) :
    (priceEvent e idx (v.account? e.debitAccountId) (v.account? e.creditAccountId)).Ends schema E n
      v fun r n' v' => n' = n ∧ v' = v ∧ r.1 = v.quoted e := by
  obtain ⟨s, hs, hm⟩ := h
  obtain ⟨sku, hsku, hs⟩ := bind_eq_some_iff.mp hs
  unfold priceEvent
  rw [hsku]
  refine ends_bind (ends_query ?_)
  rw [hs, map_some, hm]
  split
  next hval =>
    have hE := hE.imp_right fun hquotable => hquotable hval
    unfold computeAmount
    rw [hsku]
    rcases hq : e.qty with _ | q
    · rw [hq] at hE
      exact ends_bind (ends_raise (hE.resolve_right fun hand => by cases hand.1))
    refine ends_bind ((computeAmountWac_ends (hE.imp_right ?_)).mono ?_)
    · rintro ⟨-, c, hc, hcval, hpos⟩
      exact ⟨c, hc, hcval, (id_of_account? hc).symm ▸ hpos⟩
    rintro x n' v' ⟨rfl, rfl, a, ha, rfl⟩
    refine ends_pure ⟨rfl, rfl, ?_⟩
    rw [Db.quoted, if_pos ⟨hcost, hval⟩, ha, hq, ← id_of_account? ha]
    rfl
  next hval =>
    refine ends_bind (ends_ensure (fun _ => ends_pure ⟨rfl, rfl, ?_⟩) (.inr fun hlot => ?_))
    · exact (if_neg fun hand => hval hand.2).symm
    · cases hlot

lemma pricePass_wac_ends (hnew : ∀ e ∈ es, v.posted e.key = false)
    (hwac : ∀ e ∈ es, e.reason.isCost = true → v.IsWac e)
    (hE : E ∨ ∀ e ∈ es, Quotable v e := by exact .inl trivial) :
    (pricePass idx es).Ends schema E n v fun as n' v' =>
      n' = n ∧ v' = v ∧ as = es.map v.quoted := by
  induction es generalizing n idx with
  | nil => exact ends_pure ⟨rfl, rfl, rfl⟩
  | cons e es ih =>
    have hhead : (bif e.reason.isCost then priceUnposted e idx else pure e.amount : Tx _).Ends
        schema E n v fun a n' v' => n' = n ∧ v' = v ∧ a = v.quoted e := by
      rcases hcost : e.reason.isCost
      · exact ends_pure ⟨rfl, rfl, (quoted_of_not_isCost hcost).symm⟩
      · refine ends_bind (ends_query ?_)
        rw [hnew e mem_cons_self]
        refine ends_bind (ends_bind (ends_query (ends_bind (ends_query (ends_pure ?_)))))
        refine (priceEvent_wac_ends hcost (hwac e mem_cons_self hcost)
          (hE.imp_right (· e mem_cons_self))).bind ?_
        rintro _ _ _ ⟨rfl, rfl, hr⟩
        exact ends_pure ⟨rfl, rfl, hr⟩
    refine hhead.bind ?_
    rintro _ n1 v1 ⟨rfl, rfl, rfl⟩
    refine (ih (fun e' he' => hnew e' (mem_cons_of_mem e he'))
      (fun e' he' => hwac e' (mem_cons_of_mem e he'))
      (hE.imp_right fun hall e' he' => hall e' (mem_cons_of_mem e he'))).bind ?_
    rintro _ n2 v2 ⟨rfl, rfl, rfl⟩
    exact ends_pure ⟨rfl, rfl, rfl⟩

end Quote

/-- A batch of new events, whose cost events are perpetual-average depletions or their quantity
legs. -/
theorem postPostingLines_entered (hkeys : (es.map (·.key)).Nodup)
    (hnew : ∀ e ∈ es, v.posted e.key = false) (hwac : ∀ e ∈ es, e.reason.isCost = true → v.IsWac e)
    (hpass : v.twoPass es = false → ∀ e ∈ es, e.reason.isCost = false) :
    (postPostingLines es override).Post schema n v fun _ _ v' =>
      ∃ ls, Entered (es.map fun e => (e, v.quoted e)) ls v v' := by
  refine postPostingLines_ends ?_
  rcases htwo : v.twoPass es
  · have hcost := hpass htwo
    have hamounts : (es.map fun e => (e, v.quoted e)) = es.map fun e => (e, e.amount) :=
      map_congr_left fun e he => by rw [quoted_of_not_isCost (hcost e he)]
    rw [hamounts]
    exact singlePass_entered hcost hkeys hnew
  · refine (pricePass_wac_ends hnew hwac).bind ?_
    rintro as n1 v1 ⟨rfl, rfl, rfl⟩
    have hzip : es.zip (es.map v1.quoted) = es.map fun e => (e, v1.quoted e) := by
      simpa using zip_map' (f := id) (g := v1.quoted) (l := es)
    rw [hzip]
    refine applyPass_entered ?_ ?_
    · simpa [List.map_map, Function.comp_def] using hkeys
    · intro p hp
      obtain ⟨e, he, rfl⟩ := List.mem_map.mp hp
      exact hnew e he

/-! ### Batches that are accepted -/

section AfterLine

variable {lineId periodId : ℕ} {amount : ℤ} {d c : Account} {s : Sku}

lemma blocksFor_wac {q : ℤ} (hwac : s.costMethod = .wacPerpetual) :
    blocksFor e idx lineId amount q d c s = pure () := by
  rw [blocksFor, hwac]
  split <;> rfl

/-- Nothing is kept beside a line under perpetual average cost. -/
lemma afterLine_wac_ends {E : Prop} (hs : (costSku (some d) (some c)).bind v.sku? = some s)
    (hwac : s.costMethod = .wacPerpetual) (hm : m = none ∨ m = some .wacPerpetual)
    (hE : E ∨ v.currencyRow c e.businessDate = .ok () ∧
      ∀ q ∈ qtyForRow e amount d c, RowFits amount q d) :
    (afterLine e idx lineId periodId amount d c m).Ends schema E n v fun _ _ v' => v' = v := by
  obtain ⟨sku, hsku, hs⟩ := bind_eq_some_iff.mp hs
  refine afterLine_ends hsku hs (by rw [hwac]; rfl) (by rw [hwac]; exact hm) (fun _ => rfl) ?_ hE
  intro q _ _
  rw [blocksFor_wac hwac]
  exact ends_pure rfl

end AfterLine

/-- The event can be posted at the amount: its product is averaged, its accounts have room for it,
and the rows beside the line can be written. -/
structure Pays (db : Db) (override : Bool) (e : Event) (amount : ℤ) : Prop where
  wac : db.IsWac e
  pos : 0 < amount
  fits : amount ≤ maxBigint
  qty : ∀ q ∈ e.qty, 0 ≤ q
  key : db.posted e.key = false
  ne : e.debitAccountId ≠ e.creditAccountId
  period : ∃ p, db.periods.find? (·.covers e.businessDate) = some p ∧
    (p.closed = true → override = true)
  accounts : ∃ d c, db.account? e.debitAccountId = some d ∧
    db.account? e.creditAccountId = some c ∧ d.isClosed = false ∧ c.isClosed = false ∧
    d.ledger = c.ledger ∧ (d.debited amount).Sound ∧ (c.credited amount).Sound ∧
    (∀ q ∈ qtyForRow e amount d c, RowFits amount q d) ∧
    db.currencyRow c e.businessDate = .ok ()

section Pays

variable {amount : ℤ}

lemma Pays.lined (h : Pays v override e amount) (hkey : l.key ≠ e.key)
    (hdebit : l.debitAccountId ≠ e.debitAccountId ∧ l.debitAccountId ≠ e.creditAccountId)
    (hcredit : l.creditAccountId ≠ e.debitAccountId ∧ l.creditAccountId ≠ e.creditAccountId) :
    Pays (v.lined l) override e amount := by
  have hd : (v.lined l).account? e.debitAccountId = v.account? e.debitAccountId := by
    simp [account?_lined, hdebit.1, hcredit.1]
  have hc : (v.lined l).account? e.creditAccountId = v.account? e.creditAccountId := by
    simp [account?_lined, hdebit.2, hcredit.2]
  refine ⟨?_, h.pos, h.fits, h.qty, unposted_lined (.refl _) h.key hkey, h.ne, h.period, ?_⟩
  · rw [Db.IsWac, hd, hc]
    exact h.wac
  · rw [hd, hc]
    exact h.accounts

lemma Pays.canPost {d c : Account} {p : Period} (h : Pays v override e amount)
    (hd : v.account? e.debitAccountId = some d) (hc : v.account? e.creditAccountId = some c)
    (hp : v.periods.find? (·.covers e.businessDate) = some p) :
    CanPost v (e.toLine n amount (qtyForRow e amount d c) d c p.id) := by
  obtain ⟨d', c', hd', hc', -, -, -, hvd, hvc, hrow, -⟩ := h.accounts
  cases hd.symm.trans hd'
  cases hc.symm.trans hc'
  have hdid := id_of_account? hd
  have hcid := id_of_account? hc
  refine ⟨⟨h.fits, fun q hq => (hrow q hq).le_maxBigint⟩, h.pos, ?_, ?_, h.key, period?_isSome hp,
    ⟨d, (congrArg v.account? hdid).trans hd, hvd⟩, c, (congrArg v.account? hcid).trans hc, hvc⟩
  · intro q hq
    unfold qtyForRow at hq
    rcases hqty : e.qty with _ | q'
    · rw [hqty, none_or] at hq
      split at hq
      · cases hq
        exact h.pos.le
      · cases hq
    · rw [hqty, some_or] at hq
      cases hq
      exact h.qty q hqty
  · show d.id ≠ c.id
    rw [hdid, hcid]
    exact h.ne

lemma Pays.postPriced_ends (h : Pays v override e amount) :
    (postPriced override e (some amount) idx).Ends schema False n v fun _ _ v' =>
      ∃ l, Makes (e, some amount) l ∧ v' = v.lined l := by
  obtain ⟨s, hs, hwac⟩ := h.wac
  obtain ⟨p, hp, hopen⟩ := h.period
  obtain ⟨d, c, hd, hc, hdopen, hcopen, hledger, -, -, hrow, hrate⟩ := h.accounts
  have hdid := id_of_account? hd
  have hcid := id_of_account? hc
  have hmethod : (methodFor e (some d) (some c)).Ends schema False n v fun m n' v' =>
      n' = n ∧ v' = v ∧ (m = none ∨ m = some .wacPerpetual) := by
    unfold methodFor
    split
    · refine ends_query ⟨rfl, rfl, .inr ?_⟩
      rw [← hd, ← hc, hs, map_some, hwac]
    · exact ends_pure ⟨rfl, rfl, .inl rfl⟩
  refine ends_bind (ends_bind (ends_query (ends_bind (ends_query (ends_pure ?_)))))
  rw [hd, hc] at hs ⊢
  refine hmethod.bind ?_
  rintro m n1 v1 ⟨rfl, rfl, hm⟩
  refine ends_bind (applyEvent_ends (applyChecked_ends (hdid.symm ▸ hd) (hcid.symm ▸ hc) ?_
    (.inr ⟨hledger, p, hp, hopen, h.canPost hd hc hp⟩)) (.inr ⟨hdopen, hcopen⟩))
  intro p _ hcan
  refine (afterLine_wac_ends (v := v1.lined _) hs hwac hm (.inr ⟨hrate, hrow⟩)).mono ?_
  rintro _ _ _ rfl
  refine ends_pure ⟨_, ⟨rfl, hcan.amount, hdid, hcid, hcan.ne, rfl, fun q hq => ?_⟩, rfl⟩
  show qtyForRow e amount d c = some q
  rw [qtyForRow, show e.qty = some q from hq, some_or]

/-- A batch of two events between accounts of their own, with a weighted-average depletion. -/
theorem postPostingLines_pair_ends {amount : ℤ} (htwo : v.twoPass [e, e'] = true)
    (hquotable : Quotable v e) (hquotable' : Quotable v e') (hquote : v.quoted e = some amount)
    (hquote' : v.quoted e' = some amount') (h : Pays v override e amount)
    (h' : Pays v override e' amount') (hkey : e.key ≠ e'.key)
    (hdebit : e.debitAccountId ≠ e'.debitAccountId ∧ e.debitAccountId ≠ e'.creditAccountId)
    (hcredit : e.creditAccountId ≠ e'.debitAccountId ∧ e.creditAccountId ≠ e'.creditAccountId) :
    (postPostingLines [e, e'] override).Ends schema False n v fun _ _ _ => True := by
  have hboth : ∀ {P : Event → Prop}, P e → P e' → ∀ x ∈ [e, e'], P x := by
    intro P hp hp' x hx
    rcases mem_pair.mp hx with rfl | rfl
    · exact hp
    · exact hp'
  refine postPostingLines_ends ?_
  rw [htwo]
  refine (pricePass_wac_ends (hboth h.key h'.key) (hboth (fun _ => h.wac) fun _ => h'.wac)
    (.inr (hboth hquotable hquotable'))).bind ?_
  rintro as n1 v1 ⟨rfl, rfl, rfl⟩
  rw [map_cons, map_cons, map_nil, hquote, hquote']
  refine ends_bind (ends_bind (ends_query ?_))
  rw [h.key]
  refine h.postPriced_ends.mono ?_
  rintro _ n2 _ ⟨l, hl, rfl⟩
  have h'' : Pays (v1.lined l) override e' amount' := by
    refine h'.lined ?_ ?_ ?_
    · rw [hl.key]
      exact hkey
    · rw [hl.debit]
      exact hdebit
    · rw [hl.credit]
      exact hcredit
  refine ends_bind (ends_bind (ends_bind (ends_query ?_)))
  rw [h''.key]
  exact h''.postPriced_ends.mono fun _ _ _ _ => ends_bind (ends_pure (ends_pure (ends_pure trivial)))

end Pays

end Acct.Main
