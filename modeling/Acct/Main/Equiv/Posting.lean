import Acct.Isolation.Sequential
import Acct.Main.Equiv.Dispatch

/-!
# Posting an event, exactly

What `_post_posting_lines_apply_event` does when it runs alone: when it comes to its end
(`CanPost`), and the database it leaves (`Db.lined`), up to what the cost method keeps beside the
line.
-/

namespace Acct.Main

open Isolation Prog

variable {e : Event} {i n : ℕ} {x : ℤ} {m : Option CostMethod}
  {P : Option ℤ × Option CostMethod → ℕ → Db → Prop} {es : List Event} {override : Bool}
  {d c a : Account} {s : ℕ × Db} {v db : Db} {l : PostingLine} {E : Prop}

lemma reads_post {α : Type} {p : Tx α} (hp : p.Only fun _ => False) :
    p.Post schema n v fun _ n' v' => n ≤ n' ∧ v' = v := by
  refine hp.post (H := fun m u => n ≤ m ∧ u = v) ?_ ?_ ⟨le_rfl, rfl⟩
  · exact fun w m u hw => hw.elim
  · rintro m u ⟨hle, hu⟩
    exact ⟨hle.trans (Nat.le_succ m), hu⟩

/-! ### A line -/

/-- The database with the line and the totals it moves. -/
def Db.lined (db : Db) (l : PostingLine) : Db :=
  schema.applyAll [.debit l.debitAccountId l.amount, .credit l.creditAccountId l.amount, .line l] db

/-- The account's totals are in range and meet their CHECKs. -/
def Account.Sound (a : Account) : Prop := a.Fits ∧ a.Valid
  deriving Decidable

/-- The three writes of the line pass their checks. -/
structure CanPost (db : Db) (l : PostingLine) : Prop where
  fits : l.amount ≤ maxBigint ∧ ∀ q ∈ l.qty, q ≤ maxBigint
  amount : 0 < l.amount
  qty : ∀ q ∈ l.qty, 0 ≤ q
  ne : l.debitAccountId ≠ l.creditAccountId
  key : db.posted l.key = false
  period : (db.period? l.periodId).isSome
  debit : ∃ a, db.account? l.debitAccountId = some a ∧ (a.debited l.amount).Sound
  credit : ∃ a, db.account? l.creditAccountId = some a ∧ (a.credited l.amount).Sound

lemma account?_lined (db : Db) (l : PostingLine) (i : ℕ) :
    (db.lined l).account? i = (db.account? i).map fun a =>
      a.moved (if l.debitAccountId = i then l.amount else 0)
        (if l.creditAccountId = i then l.amount else 0) := by
  rw [Db.lined, account?_applyAll]
  cases h : db.account? i with
  | none => rfl
  | some a => simp [debitsOf, creditsOf, Write.debitOf, Write.creditOf, id_of_account? h]

@[simp] lemma lines_lined (db : Db) (l : PostingLine) : (db.lined l).lines = db.lines ++ [l] := rfl

lemma account?_debit_of_ne {j : ℕ} (x : ℤ) (h : i ≠ j) :
    (Write.apply (.debit i x) db).account? j = db.account? j := by
  rw [account?_apply]
  cases db.account? j with
  | none => rfl
  | some a => simp [Write.debitOf, Write.creditOf, h]

theorem canPost_iff (hd : db.account? l.debitAccountId = some d)
    (hc : db.account? l.creditAccountId = some c) :
    CanPost db l ↔ Write.check (.debit l.debitAccountId l.amount) db = .ok () ∧
      Write.check (.credit l.creditAccountId l.amount)
        (Write.apply (.debit l.debitAccountId l.amount) db) = .ok () ∧
      Write.check (.line l) (Write.apply (.credit l.creditAccountId l.amount)
        (Write.apply (.debit l.debitAccountId l.amount) db)) = .ok () := by
  have hsome : ∀ w w' : Write, ∀ i, ((w'.apply (w.apply db)).account? i).isSome =
      (db.account? i).isSome := by
    intro w w' i
    rw [account?_apply, account?_apply, Option.isSome_map, Option.isSome_map]
  have hdebit : Write.check (.debit l.debitAccountId l.amount) db = .ok () ↔
      (d.debited l.amount).Sound := checkAccount_ok_iff d hd
  have hcredit : l.debitAccountId ≠ l.creditAccountId →
      (Write.check (.credit l.creditAccountId l.amount)
        (Write.apply (.debit l.debitAccountId l.amount) db) = .ok () ↔
      (c.credited l.amount).Sound) := by
    intro hne
    exact checkAccount_ok_iff c ((account?_debit_of_ne _ hne).trans hc)
  rw [hdebit, check_line_iff, hsome, hsome, hd, hc]
  constructor
  · intro h
    obtain ⟨d', hd', hvd⟩ := h.debit
    obtain ⟨c', hc', hvc⟩ := h.credit
    cases hd.symm.trans hd'
    cases hc.symm.trans hc'
    exact ⟨hvd, (hcredit h.ne).mpr hvc, h.fits, h.amount, h.qty, h.ne, h.key, rfl, rfl, h.period⟩
  · rintro ⟨hvd, hvc, hfits, hamount, hqty, hne, hkey, -, -, hperiod⟩
    exact ⟨hfits, hamount, hqty, hne, hkey, hperiod, ⟨d, hd, hvd⟩, c, hc, (hcredit hne).mp hvc⟩

lemma Account.Sound.debited (h : a.Sound) (hx : 0 ≤ x) (hs : a.normalSide ≠ .credit)
    (hroom : a.debitsTotal + x ≤ maxBigint) : (a.debited x).Sound := by
  obtain ⟨⟨-, hfits⟩, hd, hc, hdebit, hcredit⟩ := h
  refine ⟨⟨hroom, hfits⟩, ?_, hc, fun hside => ?_, fun hside => absurd hside hs⟩
  · show 0 ≤ a.debitsTotal + x
    omega
  · have hle := hdebit hside
    show a.creditsTotal ≤ a.debitsTotal + x
    omega

lemma Account.Sound.credited (h : a.Sound) (hx : 0 ≤ x)
    (hs : a.normalSide = .debit → a.creditsTotal + x ≤ a.debitsTotal)
    (hroom : a.creditsTotal + x ≤ maxBigint) : (a.credited x).Sound := by
  obtain ⟨⟨hfits, -⟩, hd, hc, hdebit, hcredit⟩ := h
  refine ⟨⟨hfits, hroom⟩, hd, ?_, hs, fun hside => ?_⟩
  · show 0 ≤ a.creditsTotal + x
    omega
  · have hle := hcredit hside
    show a.debitsTotal ≤ a.creditsTotal + x
    omega

lemma period?_isSome {f : Period → Bool} {p : Period} (h : v.periods.find? f = some p) :
    (v.period? p.id).isSome := by
  rw [Db.period?, List.find?_isSome]
  exact ⟨p, List.mem_of_find?_eq_some h, by simp⟩

lemma sound_lined (h : ∀ j, ∀ a ∈ v.account? j, a.Sound) (hl : CanPost v l) :
    ∀ j, ∀ a ∈ (v.lined l).account? j, a.Sound := by
  intro j a ha
  rw [account?_lined, Option.mem_map] at ha
  obtain ⟨b, hb, rfl⟩ := ha
  by_cases hd : l.debitAccountId = j
  · obtain ⟨d, hd', hsound⟩ := hl.debit
    cases (hd ▸ hd').symm.trans hb
    rw [if_pos hd, if_neg fun hc => hl.ne (hd.trans hc.symm)]
    simpa [Account.moved, Account.debited] using hsound
  · by_cases hc : l.creditAccountId = j
    · obtain ⟨c, hc', hsound⟩ := hl.credit
      cases (hc ▸ hc').symm.trans hb
      rw [if_neg hd, if_pos hc]
      simpa [Account.moved, Account.credited] using hsound
    · rw [if_neg hd, if_neg hc, Account.moved_zero]
      exact h j b hb

/-- The date falls in an open period. -/
def Db.Open (db : Db) (date : Date) : Prop :=
  ∃ p, db.periods.find? (·.covers date) = some p ∧ p.closed = false

/-! ### An event -/

/-- What is left to do once the line is written. -/
def afterLine (e : Event) (idx lineId periodId : ℕ) (amount : ℤ) (d c : Account)
    (method : Option CostMethod) : Tx ℕ := do
  flagProvisional e lineId periodId method d c
  fetch (·.currencyRow c e.businessDate)
  stockBlocks e idx lineId amount (qtyForRow e amount d c) d c
  return lineId

lemma flagProvisional_skips {lineId periodId sku : ℕ} {s : Sku}
    (hsku : costSku (some d) (some c) = some sku) (hs : v.sku? sku = some s)
    (hskip : flagLine e lineId periodId (some s.costMethod) = pure ())
    (hm : m = none ∨ m = some s.costMethod) :
    (flagProvisional e lineId periodId m d c).run schema n v = .ok ((), n, v) := by
  unfold flagProvisional
  split
  · have hmethod : (resolveMethod m d c).run schema n v = .ok (some s.costMethod, n, v) := by
      rcases hm with rfl | rfl
      · show Except.ok (((costSku (some d) (some c)).bind v.sku?).map (·.costMethod), n, v) = _
        rw [hsku, Option.bind_some, hs, Option.map_some]
      · rfl
    rw [run_bind_of_ok hmethod, hskip]
    rfl
  · rfl

/-- The line's inventory row can be written. -/
structure RowFits (amount q : ℤ) (d : Account) : Prop where
  unitCost : d.ledger.isValue = true → unitCostOf amount q < 10 ^ 19
  qty : |q| < 10 ^ 13
  ne : q ≠ 0

lemma RowFits.le_maxBigint {q y : ℤ} (h : RowFits y q d) : q ≤ maxBigint :=
  (le_abs_self q).trans (h.qty.le.trans (by decide))

lemma inventoryRow_ends {q y : ℤ} {Q : Unit → ℕ → Db → Prop} (h : q ≠ 0 → Q () n v)
    (hE : E ∨ RowFits y q d := by exact .inl trivial) :
    (inventoryRow y q d).Ends schema E n v Q := by
  refine ends_bind (ends_ensure (fun _ => ?_) (hE.imp_right (·.unitCost)))
  refine ends_bind (ends_ensure (fun _ => ?_) (hE.imp_right (·.qty)))
  exact ends_ensure h (hE.imp_right (·.ne))

/-- Under a method without provisional lines, what follows a line is the block of the method. -/
lemma afterLine_ends {idx lineId periodId sku : ℕ} {amount : ℤ} {s : Sku} {Q : ℕ → ℕ → Db → Prop}
    (hsku : costSku (some d) (some c) = some sku) (hs : v.sku? sku = some s)
    (hskip : flagLine e lineId periodId (some s.costMethod) = pure ())
    (hm : m = none ∨ m = some s.costMethod) (hnone : qtyForRow e amount d c = none → Q lineId n v)
    (h : ∀ q, qtyForRow e amount d c = some q → q ≠ 0 →
      (blocksFor e idx lineId amount q d c s).Ends schema E n v fun _ => Q lineId)
    (hE : E ∨ v.currencyRow c e.businessDate = .ok () ∧
      ∀ q ∈ qtyForRow e amount d c, RowFits amount q d) :
    (afterLine e idx lineId periodId amount d c m).Ends schema E n v Q := by
  refine Ends.of_run (ends_bind (ends_fetch (fun _ _ => ends_bind ?_)
    (hE.imp_right fun hok => ⟨(), hok.1⟩)))
    (run_bind_of_ok (flagProvisional_skips hsku hs hskip hm))
  unfold stockBlocks
  rcases hq : qtyForRow e amount d c with _ | q
  · exact ends_pure (ends_pure (hnone hq))
  · rw [hsku]
    refine ends_bind (inventoryRow_ends (fun hne => ends_bind (ends_query ?_))
      (hE.imp_right fun hok => hok.2 q hq))
    rw [hs]
    exact (h q hq hne).mono fun _ _ _ hQ => ends_pure hQ

section Event

variable {idx : ℕ} {amount : ℤ} {Q : ℕ → ℕ → Db → Prop}

lemma applyChecked_ends (hd : v.account? d.id = some d) (hc : v.account? c.id = some c)
    (h : ∀ p, v.periods.find? (·.covers e.businessDate) = some p →
      CanPost v (e.toLine n amount (qtyForRow e amount d c) d c p.id) →
      (afterLine e idx n p.id amount d c m).Ends schema E (n + 1)
        (v.lined (e.toLine n amount (qtyForRow e amount d c) d c p.id)) Q)
    (hE : E ∨ d.ledger = c.ledger ∧ ∃ p, v.periods.find? (·.covers e.businessDate) = some p ∧
      (p.closed = true → override = true) ∧
      CanPost v (e.toLine n amount (qtyForRow e amount d c) d c p.id) := by exact .inl trivial) :
    (applyChecked e idx amount d c m override).Ends schema E n v Q := by
  refine ends_bind (ends_ensure (fun _ => ?_)
    (hE.imp_right fun hok => congrArg Ledger.isValue hok.1))
  refine ends_bind (ends_ensure (fun _ => ?_) (hE.imp_right (·.1)))
  refine ends_bind (ends_bind (ends_fetch (fun p hfetch => ?_)
    (hE.imp_right fun ⟨_, p, hp, _⟩ => ⟨p, by rw [hp]⟩)))
  have hp : v.periods.find? (·.covers e.businessDate) = some p := by
    split at hfetch
    next p' hp' =>
      cases hfetch
      exact hp'
    next => cases hfetch
  have hE' : E ∨ (p.closed = true → override = true) ∧
      CanPost v (e.toLine n amount (qtyForRow e amount d c) d c p.id) := by
    refine hE.imp_right fun ⟨_, p', hp', hok⟩ => ?_
    cases hp.symm.trans hp'
    exact hok
  have hcan := canPost_iff (l := e.toLine n amount (qtyForRow e amount d c) d c p.id) hd hc
  rw [hcan] at hE'
  refine ends_bind (ends_ensure (fun _ => ends_pure ?_) (hE'.imp_right (·.1)))
  refine ends_bind (ends_exec (fun hdebit => ?_) (hE'.imp_right (·.2.1)))
  refine ends_bind (ends_exec (fun hcredit => ?_) (hE'.imp_right (·.2.2.1)))
  refine ends_bind (ends_nextval (ends_bind (ends_exec (fun hline => ?_)
    (hE'.imp_right (·.2.2.2)))))
  exact h p hp (hcan.mpr ⟨hdebit, hcredit, hline⟩)

lemma applyEvent_ends (h : (applyChecked e idx amount d c m override).Ends schema E n v Q)
    (hE : E ∨ d.isClosed = false ∧ c.isClosed = false := by exact .inl trivial) :
    (applyEvent e idx (some amount) (some d) (some c) m override).Ends schema E n v Q :=
  ends_bind (ends_ensure (fun _ => h) hE)

lemma amountFor_of_not_isCost {d c : Option Account} (h : e.reason.isCost = false) :
    amountFor e idx d c = pure (e.amount, none) :=
  if_neg (ne_true_of_eq_false h)

lemma postNew_ends {Q : ℕ → Db → Prop}
    (hprice : (amountFor e idx (v.account? e.debitAccountId)
      (v.account? e.creditAccountId)).Ends schema E n v P)
    (h : ∀ a n' v', P a n' v' → (applyEvent e idx a.1 (v.account? e.debitAccountId)
      (v.account? e.creditAccountId) a.2 override).Ends schema E n' v' fun _ => Q) :
    (postNew override e idx).Ends schema E n v fun _ => Q := by
  refine ends_bind (ends_bind (ends_query (ends_bind (ends_query (ends_pure ?_)))))
  refine hprice.bind fun a n' v' ha => ?_
  exact (h a n' v' ha).bind fun _ _ _ hQ => ends_pure hQ

end Event

/-! ### A batch -/

def Db.twoPass (db : Db) (es : List Event) : Bool := es.any fun e => (db.probe e).1

lemma twoPass_of_not_isCost (h : e.reason.isCost = false) : v.twoPass [e] = false := by
  simp [Db.twoPass, Db.probe, h]

lemma probeEvents_ends : (probeEvents es).Ends schema E n v fun r n' v' =>
    n' = n ∧ v' = v ∧ r.1 = v.twoPass es := by
  induction es generalizing n with
  | nil => exact ends_pure ⟨rfl, rfl, rfl⟩
  | cons e es ih =>
    refine ends_bind (ends_query (ih.bind ?_))
    rintro r n1 v1 ⟨rfl, rfl, hr⟩
    refine ends_pure ⟨rfl, rfl, ?_⟩
    rw [hr]
    rfl

lemma postPostingLines_ends {Q : List Posted → ℕ → Db → Prop}
    (h : (passes es override (v.twoPass es)).Ends schema E n v Q) :
    (postPostingLines es override).Ends schema E n v Q := by
  unfold postPostingLines
  split
  next hnil =>
    rw [hnil] at h
    exact h
  next =>
    refine probeEvents_ends.bind ?_
    rintro r _ _ ⟨rfl, rfl, hr⟩
    refine ends_bind (ends_bind (ends_query (ends_lockRows ?_)))
    rw [hr]
    exact h

lemma postOne_ends {Q : ℕ → Db → Prop} (hpass : v.twoPass [e] = false)
    (hkey : v.posted e.key = false) (h : (postNew override e 1).Ends schema E n v fun _ => Q) :
    (postPostingLines [e] override).Ends schema E n v fun _ => Q := by
  refine postPostingLines_ends ?_
  rw [hpass]
  refine ends_bind (ends_bind (ends_query ?_))
  rw [hkey]
  exact h.mono fun _ _ _ hQ => ends_bind (ends_pure (ends_pure hQ))

/-! ### Calls -/

def commit? {α : Type} (p : Tx α) (s : ℕ × Db) : Option (ℕ × Db) :=
  match p.run schema s.1 s.2 with
  | .ok (_, n, db) => some (n, db)
  | .error _ => none

section Commit

variable {α : Type} {p : Tx α} {Q : ℕ × Db → Prop}

lemma post_of_commit? {s' : ℕ × Db} (h : commit? p s = some s')
    (hp : p.Post schema s.1 s.2 fun _ n v => Q (n, v)) : Q s' := by
  unfold commit? at h
  unfold Post Ends at hp
  split at h
  next hrun =>
    cases h
    rwa [hrun] at hp
  next => cases h

lemma exists_commit? (h : p.Ends schema False s.1 s.2 fun _ n v => Q (n, v)) :
    ∃ s', commit? p s = some s' ∧ Q s' := by
  unfold Ends at h
  split at h
  next a n v hrun => exact ⟨(n, v), by rw [commit?, hrun], h⟩
  next => cases h

end Commit

end Acct.Main
