import Acct.Main.Equiv.Dispatch

/-!
# Materialised balances are the ledger

`Books` holds in every committed database of every run of transactions that post (`sound_reached`).
What a transaction adds to the totals it also adds to the lines, whatever the others commit in
between: sums over a log do not depend on the database it is applied to. The CHECKs and the keys do,
and there the row locks are needed (`schema_rowWise`).
-/

namespace Acct.Main

open Isolation Machine List

variable {ws : List Write} {es : List Event} {db : Db} {rs : List Posted} {as : List Account}

/-! ### The invariant -/

def lineDebits (ls : List PostingLine) (i : ℕ) : ℤ :=
  (ls.map fun l => if l.debitAccountId = i then l.amount else 0).sum

def lineCredits (ls : List PostingLine) (i : ℕ) : ℤ :=
  (ls.map fun l => if l.creditAccountId = i then l.amount else 0).sum

def Joins (g : ℕ → Option Ledger) (l : PostingLine) : Prop :=
  ∃ x, g l.debitAccountId = some x ∧ g l.creditAccountId = some x

structure Books (db : Db) : Prop where
  ids : (db.accounts.map (·.id)).Nodup
  debits : ∀ a ∈ db.accounts, a.debitsTotal = lineDebits db.lines a.id
  credits : ∀ a ∈ db.accounts, a.creditsTotal = lineCredits db.lines a.id
  valid : ∀ a ∈ db.accounts, a.Valid
  keys : (db.lines.map (·.key)).Nodup
  joins : ∀ l ∈ db.lines, Joins db.ledger? l

/-! ### Logs balance -/

structure Balanced (g : ℕ → Option Ledger) (ws : List Write) : Prop where
  debits : ∀ i, debitsOf ws i = lineDebits (linesOf ws) i
  credits : ∀ i, creditsOf ws i = lineCredits (linesOf ws) i
  joins : ∀ l ∈ linesOf ws, Joins g l

variable {g : ℕ → Option Ledger} {K : Key → Prop}

lemma linesOf_append (ws ws' : List Write) : linesOf (ws ++ ws') = linesOf ws ++ linesOf ws' :=
  filterMap_append

lemma Balanced.append {ws' : List Write} (h : Balanced g ws) (h' : Balanced g ws') :
    Balanced g (ws ++ ws') where
  debits i := by
    have h1 := h.debits i
    have h2 := h'.debits i
    simp only [debitsOf, lineDebits, linesOf_append, map_append, sum_append] at h1 h2 ⊢
    rw [h1, h2]
  credits i := by
    have h1 := h.credits i
    have h2 := h'.credits i
    simp only [creditsOf, lineCredits, linesOf_append, map_append, sum_append] at h1 h2 ⊢
    rw [h1, h2]
  joins l hl := by
    rw [linesOf_append] at hl
    exact (mem_append.mp hl).elim (h.joins l) (h'.joins l)

lemma side_moves_nothing {w : Write} (h : w.Side) (i : ℕ) : w.debitOf i = 0 ∧ w.creditOf i = 0 := by
  cases w <;> first | exact ⟨rfl, rfl⟩ | cases h

lemma balanced_side (h : ∀ w ∈ ws, w.Side) : Balanced g ws where
  debits i := by
    rw [linesOf_side h]
    refine sum_eq_zero fun x hx => ?_
    obtain ⟨w, hw, rfl⟩ := List.mem_map.mp hx
    exact (side_moves_nothing (h w hw) i).1
  credits i := by
    rw [linesOf_side h]
    refine sum_eq_zero fun x hx => ?_
    obtain ⟨w, hw, rfl⟩ := List.mem_map.mp hx
    exact (side_moves_nothing (h w hw) i).2
  joins l hl := by
    rw [linesOf_side h] at hl
    cases hl

lemma balanced_line {l : PostingLine} (h : Joins g l) :
    Balanced g [.debit l.debitAccountId l.amount, .credit l.creditAccountId l.amount, .line l] where
  debits i := by
    show _ = lineDebits [l] i
    simp [debitsOf, lineDebits, Write.debitOf]
  credits i := by
    show _ = lineCredits [l] i
    simp [creditsOf, lineCredits, Write.creditOf]
  joins l' hl' := by
    have hl : l' ∈ [l] := hl'
    rwa [mem_singleton.mp hl]

lemma EventLog.balanced {e : Event} (h : EventLog g e ws) : Balanced g ws := by
  obtain ⟨l, side, -, hledger, hside⟩ := h
  exact (balanced_line hledger).append (balanced_side hside)

lemma BatchLog.balanced (h : BatchLog g K es rs ws) : Balanced g ws := by
  induction h with
  | nil K => exact balanced_side (by simp)
  | skip e h ih => exact ih
  | post e hnew he h ih => exact he.balanced.append ih

lemma Script.Log.balanced {c : Script} {rs : List (List Posted)} (h : c.Log g K rs ws) :
    Balanced g ws := by
  induction h with
  | done K => exact balanced_side (by simp)
  | post hw h ih => exact hw.balanced.append ih
  | lock h ih | draw n h ih => exact ih
  | side d h ih =>
    refine (balanced_side fun x hx => ?_).append ih
    obtain ⟨y, _, rfl⟩ := List.mem_map.mp hx
    exact y.property

/-! ### The invariant and the rows -/

lemma postedCount_eq_count (db : Db) (k : Key) :
    db.postedCount k = (db.lines.map (·.key)).count k := by
  rw [List.count, countP_map, Db.postedCount]
  rfl

lemma Books.okRow (h : Books db) (r : Row) : OkRow r db := by
  cases r with
  | account i => exact fun a ha => h.valid a (List.mem_of_find?_eq_some ha)
  | key k =>
    show db.postedCount k ≤ 1
    rw [postedCount_eq_count]
    exact nodup_iff_count_le_one.mp h.keys k
  | _ => trivial

/-- A log that balances keeps the books, where the database enforces its constraints. -/
theorem Books.applyAll (h : Books db) (hws : Balanced db.ledger? ws)
    (hok : ∀ r, OkRow r (schema.applyAll ws db)) : Books (schema.applyAll ws db) := by
  have hids : ((schema.applyAll ws db).accounts.map (·.id)).Nodup := by
    rw [accounts_applyAll, List.map_map]
    exact h.ids
  refine ⟨hids, ?_, ?_, ?_, ?_, ?_⟩
  · intro a ha
    rw [accounts_applyAll] at ha
    obtain ⟨b, hb, rfl⟩ := List.mem_map.mp ha
    have hlines := hws.debits b.id
    rw [lines_applyAll, lineDebits, map_append, sum_append]
    exact congrArg₂ (· + ·) (h.debits b hb) hlines
  · intro a ha
    rw [accounts_applyAll] at ha
    obtain ⟨b, hb, rfl⟩ := List.mem_map.mp ha
    have hlines := hws.credits b.id
    rw [lines_applyAll, lineCredits, map_append, sum_append]
    exact congrArg₂ (· + ·) (h.credits b hb) hlines
  · intro a ha
    exact hok (.account a.id) a (account?_of_mem hids ha)
  · refine nodup_iff_count_le_one.mpr fun k => ?_
    rw [← postedCount_eq_count]
    exact hok (.key k)
  · intro l hl
    rw [lines_applyAll] at hl
    have hchart : (schema.applyAll ws db).ledger? = db.ledger? := funext (ledger?_applyAll ws db)
    rw [hchart]
    exact (mem_append.mp hl).elim (h.joins l) (hws.joins l)

/-! ### Ledgers balance -/

def Db.ledgerDebits (db : Db) (x : Ledger) : ℤ :=
  ((db.accounts.filter (·.ledger == x)).map (·.debitsTotal)).sum

def Db.ledgerCredits (db : Db) (x : Ledger) : ℤ :=
  ((db.accounts.filter (·.ledger == x)).map (·.creditsTotal)).sum

lemma sum_accounts_eq (hids : (as.map (·.id)).Nodup) (x : Ledger) (i : ℕ) (n : ℤ) :
    ((as.filter (·.ledger == x)).map fun a => if i = a.id then n else 0).sum =
      if (as.find? (·.id == i)).map (·.ledger) = some x then n else 0 := by
  induction as with
  | nil => simp
  | cons a as ih =>
    rw [map_cons, nodup_cons] at hids
    by_cases hi : a.id = i
    · -- No other account has the id.
      have hrest : (as.find? (·.id == i)) = none := by
        rw [List.find?_eq_none]
        intro b hb hbi
        exact hids.1 (hi ▸ (by simpa using hbi) ▸ List.mem_map_of_mem hb)
      have ih' := ih hids.2
      rw [hrest] at ih'
      by_cases hx : a.ledger = x
      · simpa [hx, hi] using ih'
      · simpa [hx, hi] using ih'
    · have ih' := ih hids.2
      by_cases hx : a.ledger = x
      · simpa [hx, hi, Ne.symm hi] using ih'
      · simpa [hx, hi] using ih'

lemma sum_ledger_eq (hids : (as.map (·.id)).Nodup) (x : Ledger) (ls : List PostingLine)
    (f : PostingLine → ℕ) :
    ((as.filter (·.ledger == x)).map fun a =>
        (ls.map fun l => if f l = a.id then l.amount else 0).sum).sum =
      (ls.map fun l =>
        if (as.find? (·.id == f l)).map (·.ledger) = some x then l.amount else 0).sum := by
  induction ls with
  | nil => simp
  | cons l ls ih =>
    simp only [map_cons, sum_cons, sum_map_add, ih]
    rw [sum_accounts_eq hids]

theorem Books.ledger_balances (h : Books db) (x : Ledger) :
    db.ledgerDebits x = db.ledgerCredits x := by
  have hd : db.ledgerDebits x =
      (db.lines.map fun l => if db.ledger? l.debitAccountId = some x then l.amount else 0).sum := by
    rw [Db.ledgerDebits, map_congr_left fun a ha => h.debits a (mem_of_mem_filter ha)]
    exact sum_ledger_eq h.ids x db.lines (·.debitAccountId)
  have hc : db.ledgerCredits x =
      (db.lines.map fun l =>
        if db.ledger? l.creditAccountId = some x then l.amount else 0).sum := by
    rw [Db.ledgerCredits, map_congr_left fun a ha => h.credits a (mem_of_mem_filter ha)]
    exact sum_ledger_eq h.ids x db.lines (·.creditAccountId)
  rw [hd, hc]
  refine congrArg List.sum (map_congr_left fun l hl => ?_)
  obtain ⟨y, hy, hy'⟩ := h.joins l hl
  rw [hy, hy']

/-! ### Runs -/

/-- What a transaction that has come to its end has done, from the database it was begun on. -/
def Finished (c : Script) (opened : Db) (rs : List (List Posted)) (ws : List Write)
    (_ : Holds Row) (v : Db) : Prop :=
  c.Log opened.ledger? (fun k => opened.posted k = true) rs ws ∧
    Keeps opened v

lemma keeps_commit (ws ws' : List Write) (db : Db) :
    Keeps (schema.applyAll ws db) (schema.applyAll ws (schema.applyAll ws' db)) where
  ledger i := by simp only [ledger?_applyAll]
  posted k hk := by
    simp only [Db.posted, lines_applyAll, any_append, Bool.or_eq_true] at hk ⊢
    exact hk.imp_left .inl

/-- The rows are guarded by locks, and the others keep the chart and the keys. -/
theorem books_discipline :
    Discipline schema Books (fun (_ _ : Script) => True)
      (fun _ ws H db => Guarded schema OkRow ws H.locks db) (fun _ _ _ => Keeps)
      (fun _ _ _ _ _ => True) fun _ _ => False where
  refl _ _ _ v := .refl v
  trans _ _ _ _ _ _ h h' := h.trans h'
  start _ _ h := .nil h.okRow
  lock _ l _ _ _ h := h.cons l
  draw _ _ _ _ _ h := h
  own _ _ _ _ _ _ h := h.elim
  stmt _ _ _ _ _ _ _ h _ hp := h.perform schema_rowWise hp
  commit _ _ ws _ ws' _ db _ _ _ hcomp h h' :=
    ⟨h.commit schema_rowWise h' hcomp.locks, keeps_commit ws ws' db⟩

lemma Script.prog_finished (c : Script) (db : Db) :
    Triple c.prog [] {} db (Finished c db) := by
  have hv : Known db.ledger? (fun k => db.posted k = true) db := ⟨fun _ => rfl, fun _ h => h⟩
  refine (c.prog_triple hv).mono ?_
  rintro rs _ _ v ⟨w, rfl, hw, hv'⟩
  exact ⟨hw, hv'.ledger, fun k hk => hv'.posted k (.inl hk)⟩

/-- The state after a run of sessions. -/
def reached (db : Db) (seq : ℕ) (ms : List (Move Script)) :
    State Db Write Row Err (List (List Posted)) Script :=
  run (State.exec? schema Script.prog) { db, seq } ms

theorem sound_reached (h : Books db) (seq : ℕ) (ms : List (Move Script)) :
    Sound schema Books (fun _ _ => True) (fun _ ws H db => Guarded schema OkRow ws H.locks db)
      (fun _ _ _ => Keeps) (fun _ _ _ _ _ => True) (fun _ _ => False) Finished
      (reached db seq ms) := by
  refine books_discipline.run_sound (C := fun _ _ => True) ?_ ?_
    (.init db seq h fun _ _ h => h) ms ?_
  · exact fun s c _ _ => ⟨c.prog_finished s.db, fun _ _ _ => ⟨trivial, trivial⟩⟩
  · intro c opened rs ws H v db' hbooks hguard hfin hkeeps
    -- The chart is the one the transaction was begun on.
    have hchart : opened.ledger? = db'.ledger? := by
      funext i
      rw [← ledger?_applyAll ws db' i, hkeeps.ledger, hfin.2.ledger]
    have hbal := hfin.1.balanced
    rw [hchart] at hbal
    exact hbooks.applyAll hbal hguard.ok
  · exact throughout_of_forall (fun _ _ => trivial) _ _

def SkipsPosted (K : Key → Prop) (es : List Event) (rs : List Posted) (ws : List Write) : Prop :=
  (∀ (j : ℕ) (e : Event), es[j]? = some e → K e.key → rs[j]? = some Posted.exists) ∧
    ((∀ e ∈ es, K e.key) → ws = [])

lemma BatchLog.skipsPosted (h : BatchLog g K es rs ws) : SkipsPosted K es rs ws := by
  induction h with
  | nil K => exact ⟨by simp, fun _ => rfl⟩
  | skip e h ih =>
    refine ⟨?_, fun hall => ih.2 fun e' he' => hall e' (mem_cons_of_mem e he')⟩
    rintro (_ | j) e' hj hk
    · rfl
    · exact ih.1 j e' hj hk
  | post e hnew he h ih =>
    refine ⟨?_, fun hall => absurd (hall e mem_cons_self) hnew⟩
    rintro (_ | j) e' hj hk
    · cases hj
      exact absurd hk hnew
    · exact ih.1 j e' hj (.inl hk)

lemma Script.Log.of_call {override : Bool} {rs : List (List Posted)}
    (h : (Script.call es override).Log g K rs ws) :
    ∃ r, rs = [r] ∧ BatchLog g K es r ws := by
  cases h with
  | post hw h =>
    cases h
    exact ⟨_, rfl, by simpa using hw⟩

/-- **Materialised balances are the ledger.** From books in order, after any run of concurrent
transactions that post, in any interleaving and with any of them given up, the books are in order
and every ledger balances. A transaction at its end has written for every event it posted a line and
its amount on two accounts of one ledger, and nothing for an event posted when it began. -/
theorem balances_eq_ledger (db : Db) (seq : ℕ) (h : Books db) (ms : List (Move Script)) :
    Books (reached db seq ms).db ∧
    (∀ x, (reached db seq ms).db.ledgerDebits x = (reached db seq ms).db.ledgerCredits x) ∧
    ∀ u ∈ (reached db seq ms).sessions, u.status = .running → ∀ rs, u.prog = .ret rs →
      u.call.Log u.opened.ledger? (fun k => u.opened.posted k = true) rs u.log ∧
      ∀ es override, u.call = .call es override →
        ∃ r, rs = [r] ∧ SkipsPosted (fun k => u.opened.posted k = true) es r u.log := by
  have hsound := sound_reached h seq ms
  refine ⟨hsound.inv, hsound.inv.ledger_balances, ?_⟩
  intro u hu hrun rs hret
  obtain ⟨-, v, hsafe, -⟩ := hsound.sessions u hu hrun
  rw [hret] at hsafe
  have hlog : u.call.Log u.opened.ledger? (fun k => u.opened.posted k = true) rs u.log := hsafe.1
  refine ⟨hlog, fun es override hcall => ?_⟩
  rw [hcall] at hlog
  obtain ⟨r, hr, hbatch⟩ := hlog.of_call
  exact ⟨r, hr, hbatch.skipsPosted⟩

def openingDb : Db where
  periods := [⟨1, 0, 30, false⟩]
  accounts := [{ id := 1, kind := .apUnsettled, ledger := .value 0, normalSide := .credit },
    { id := 2, kind := .cogs, ledger := .value 0, normalSide := .debit }]

def openingEvent : Event where
  reason := .other 0
  debitAccountId := 2
  creditAccountId := 1
  amount := some 5
  businessDate := 3
  key := .given 1

lemma openingDb_books : Books openingDb where
  ids := by decide
  debits := by decide
  credits := by decide
  valid := by decide
  keys := by decide
  joins := by simp [openingDb]

/-- Two clients submit the same event. The first posts it, and only once. -/
theorem balances_eq_ledger_opening :
    (reached openingDb 0 ([.start (.call [openingEvent] false), .start (.call [openingEvent] false)]
      ++ List.replicate 20 (.step 0) ++ List.replicate 20 (.step 1))).db.lines.length = 1 ∧
    Books (reached openingDb 0 ([.start (.call [openingEvent] false),
      .start (.call [openingEvent] false)] ++ List.replicate 20 (.step 0) ++
        List.replicate 20 (.step 1))).db :=
  ⟨by decide +kernel, (balances_eq_ledger openingDb 0 openingDb_books _).1⟩

end Acct.Main
