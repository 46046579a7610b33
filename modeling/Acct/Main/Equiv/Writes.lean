import Acct.Isolation.Rows
import Acct.Main.Script

/-!
# What a log of writes does

Closed forms for the accounts and the lines after any list of writes, and the two constraints the
database enforces row by row: the CHECKs of `accounts` and the unique idempotency key.
-/

namespace Acct.Main

open Isolation

variable (ws : List Write) (a : Account) (x y : ℤ)

variable {db : Db} {k : Key} {i : ℕ} {w : Write}

/-! ### Accounts and lines -/

def Write.debitOf (i : ℕ) : Write → ℤ
  | .debit j a => if j = i then a else 0
  | _ => 0

def Write.creditOf (i : ℕ) : Write → ℤ
  | .credit j a => if j = i then a else 0
  | _ => 0

def Write.line? : Write → Option PostingLine
  | .line l => some l
  | _ => none

def debitsOf (i : ℕ) : ℤ := (ws.map (Write.debitOf i)).sum

def creditsOf (i : ℕ) : ℤ := (ws.map (Write.creditOf i)).sum

def linesOf : List PostingLine := ws.filterMap Write.line?

def Account.moved (debits credits : ℤ) : Account :=
  { a with debitsTotal := a.debitsTotal + debits, creditsTotal := a.creditsTotal + credits }

/-- What posting never changes of an account. -/
def Account.static : Account := { a with debitsTotal := 0, creditsTotal := 0 }

@[simp] lemma Account.moved_id : (a.moved x y).id = a.id := rfl

@[simp] lemma Account.moved_ledger : (a.moved x y).ledger = a.ledger := rfl

@[simp] lemma Account.moved_zero : a.moved 0 0 = a := by simp [Account.moved]

lemma Account.moved_moved (x' y' : ℤ) : (a.moved x y).moved x' y' = a.moved (x + x') (y + y') := by
  simp [Account.moved, add_assoc]

@[simp] lemma schema_apply : schema.apply = Write.apply := rfl

lemma accounts_apply (w : Write) (db : Db) :
    (w.apply db).accounts =
      db.accounts.map fun a => a.moved (w.debitOf a.id) (w.creditOf a.id) := by
  cases w with
  | debit i x =>
    refine List.map_congr_left fun a _ => ?_
    by_cases h : a.id = i
    · simp [h, Write.debitOf, Write.creditOf, Account.moved, Account.debited]
    · simp [h, Ne.symm h, Write.debitOf, Write.creditOf]
  | credit i x =>
    refine List.map_congr_left fun a _ => ?_
    by_cases h : a.id = i
    · simp [h, Write.debitOf, Write.creditOf, Account.moved, Account.credited]
    · simp [h, Ne.symm h, Write.debitOf, Write.creditOf]
  | _ => simp [Write.apply, Write.debitOf, Write.creditOf]

lemma lines_apply (w : Write) (db : Db) : (w.apply db).lines = db.lines ++ w.line?.toList := by
  cases w <;> simp [Write.apply, Write.line?]

theorem accounts_applyAll (db : Db) :
    (schema.applyAll ws db).accounts =
      db.accounts.map fun a => a.moved (debitsOf ws a.id) (creditsOf ws a.id) := by
  induction ws generalizing db with
  | nil => simp [debitsOf, creditsOf]
  | cons w ws ih =>
    rw [Schema.applyAll_cons, ih, schema_apply, accounts_apply, List.map_map]
    refine List.map_congr_left fun a _ => ?_
    simp [Account.moved_moved, debitsOf, creditsOf]

theorem lines_applyAll (db : Db) : (schema.applyAll ws db).lines = db.lines ++ linesOf ws := by
  induction ws generalizing db with
  | nil => simp [linesOf]
  | cons w ws ih =>
    rw [Schema.applyAll_cons, ih, schema_apply, lines_apply, List.append_assoc]
    cases h : w.line? <;> simp [linesOf, h]

/-! ### The chart of accounts, and posted keys -/

def Db.ledger? (db : Db) (i : ℕ) : Option Ledger := (db.account? i).map (·.ledger)

lemma account?_map (f : Account → Account) (hf : ∀ a, (f a).id = a.id) (db db' : Db)
    (h : db'.accounts = db.accounts.map f) (i : ℕ) : db'.account? i = (db.account? i).map f := by
  simp only [Db.account?, h, List.find?_map]
  congr 2
  funext a
  simp [hf]

theorem account?_applyAll (db : Db) (i : ℕ) :
    (schema.applyAll ws db).account? i =
      (db.account? i).map fun a => a.moved (debitsOf ws a.id) (creditsOf ws a.id) := by
  refine account?_map _ ?_ db _ (accounts_applyAll ws db) i
  intro a
  rfl

theorem ledger?_applyAll (db : Db) (i : ℕ) : (schema.applyAll ws db).ledger? i = db.ledger? i := by
  simp [Db.ledger?, account?_applyAll, Function.comp_def]

theorem posted_applyAll {ws : List Write} (h : db.posted k = true) :
    (schema.applyAll ws db).posted k = true := by
  simp only [Db.posted, lines_applyAll, List.any_append, Bool.or_eq_true]
  exact .inl h

/-! ### Constraints row by row -/

lemma id_of_account? {a : Account} (h : db.account? i = some a) : a.id = i := by
  simpa using List.find?_some h

lemma account?_of_mem (hids : (db.accounts.map (·.id)).Nodup) {a : Account} (ha : a ∈ db.accounts) :
    db.account? a.id = some a := by
  obtain ⟨b, hb⟩ : ∃ b, db.account? a.id = some b := by
    rw [← Option.isSome_iff_exists, Db.account?, List.find?_isSome]
    exact ⟨a, ha, by simp⟩
  have hmem := List.mem_of_find?_eq_some hb
  rw [hb, List.inj_on_of_nodup_map hids hmem ha (id_of_account? hb)]

lemma account?_apply (w : Write) (db : Db) (i : ℕ) :
    (w.apply db).account? i =
      (db.account? i).map fun a => a.moved (w.debitOf i) (w.creditOf i) := by
  rw [account?_map _ (fun a => Account.moved_id a _ _) db _ (accounts_apply w db)]
  cases h : db.account? i with
  | none => rfl
  | some a => simp [id_of_account? h]

def Db.postedCount (db : Db) (k : Key) : ℕ := db.lines.countP (·.key == k)

lemma postedCount_apply (w : Write) (db : Db) (k : Key) :
    (w.apply db).postedCount k = db.postedCount k + w.line?.toList.countP (·.key == k) := by
  rw [Db.postedCount, lines_apply, List.countP_append, Db.postedCount]

lemma postedCount_eq_zero (h : db.posted k = false) : db.postedCount k = 0 := by
  simpa [Db.postedCount, Db.posted, List.countP_eq_zero] using h

def SameRow : Row → Db → Db → Prop
  | .account i, d, d' => d.account? i = d'.account? i
  | .key k, d, d' => d.postedCount k = d'.postedCount k
  | _, _, _ => True

def OkRow : Row → Db → Prop
  | .account i, d => ∀ a ∈ d.account? i, a.Valid
  | .key k, d => d.postedCount k ≤ 1
  | _, _ => True

lemma require_ok_iff {p : Prop} [Decidable p] {e : Err} : Write.require p e = .ok () ↔ p := by
  unfold Write.require
  split
  next hp => exact ⟨fun _ => hp, fun _ => rfl⟩
  next hp => exact ⟨fun h => (by cases h), fun h => absurd h hp⟩

lemma require_bind_ok_iff {p : Prop} [Decidable p] {e : Err} {k : Except Err Unit} :
    (Write.require p e >>= fun _ => k) = .ok () ↔ p ∧ k = .ok () := by
  unfold Write.require
  split
  next hp => exact ⟨fun h => ⟨hp, h⟩, fun h => h.2⟩
  next hp => exact ⟨fun h => (by cases h), fun h => absurd h.1 hp⟩

lemma checkAccount_ok_iff {f : Account → Account} (ha : db.account? i = some a) :
    Write.checkAccount db i f = .ok () ↔ (f a).Fits ∧ (f a).Valid := by
  rw [Write.checkAccount, ha]
  exact require_bind_ok_iff.trans (and_congr_right fun _ => require_ok_iff)

lemma check_line_iff {l : PostingLine} : Write.check (.line l) db = .ok () ↔
    (l.amount ≤ maxBigint ∧ ∀ q ∈ l.qty, q ≤ maxBigint) ∧ 0 < l.amount ∧ (∀ q ∈ l.qty, 0 ≤ q) ∧
      l.debitAccountId ≠ l.creditAccountId ∧ db.posted l.key = false ∧
      (db.account? l.debitAccountId).isSome ∧ (db.account? l.creditAccountId).isSome ∧
      (db.period? l.periodId).isSome := by
  simp only [Write.check, require_bind_ok_iff, require_ok_iff]

/-- A line that passes its checks has a positive amount, joins two accounts that exist, and a key
that is not posted. -/
lemma line_ok {l : PostingLine} (h : Write.check (.line l) db = .ok ()) :
    0 < l.amount ∧ l.debitAccountId ≠ l.creditAccountId ∧ db.posted l.key = false := by
  obtain ⟨-, hamount, -, hne, hkey, -⟩ := check_line_iff.mp h
  exact ⟨hamount, hne, hkey⟩

lemma not_held_account (h : ¬ Held (Row.account i) w.locks) :
    w.debitOf i = 0 ∧ w.creditOf i = 0 := by
  cases w with
  | debit j x =>
    refine ⟨if_neg fun hj => h ⟨.noKeyUpdate, ?_, rfl⟩, rfl⟩
    simp [Write.locks, hj]
  | credit j x =>
    refine ⟨rfl, if_neg fun hj => h ⟨.noKeyUpdate, ?_, rfl⟩⟩
    simp [Write.locks, hj]
  | _ => exact ⟨rfl, rfl⟩

lemma not_held_key (h : ¬ Held (Row.key k) w.locks) :
    w.line?.toList.countP (·.key == k) = 0 := by
  cases w with
  | line l =>
    have hk : l.key ≠ k := fun hk => h ⟨.update, by simp [Write.locks, hk], rfl⟩
    simp [Write.line?, hk]
  | _ => rfl

lemma okRow_account_apply {d : Db} (h : OkRow (.account i) d) (hw : Write.check w d = .ok ()) :
    OkRow (.account i) (w.apply d) := by
  intro a' ha'
  rw [account?_apply, Option.mem_def, Option.map_eq_some_iff] at ha'
  obtain ⟨a, ha, rfl⟩ := ha'
  cases w with
  | debit j x =>
    by_cases hj : j = i
    · subst hj
      simpa [Write.debitOf, Write.creditOf, Account.moved, Account.debited] using
        ((checkAccount_ok_iff a ha).mp hw).2
    · simpa [Write.debitOf, Write.creditOf, hj] using h a ha
  | credit j x =>
    by_cases hj : j = i
    · subst hj
      simpa [Write.debitOf, Write.creditOf, Account.moved, Account.credited] using
        ((checkAccount_ok_iff a ha).mp hw).2
    · simpa [Write.debitOf, Write.creditOf, hj] using h a ha
  | _ => simpa [Write.debitOf, Write.creditOf] using h a ha

lemma okRow_key_apply {d : Db} (h : OkRow (.key k) d) (hw : Write.check w d = .ok ()) :
    OkRow (.key k) (w.apply d) := by
  have hle : d.postedCount k ≤ 1 := h
  show (w.apply d).postedCount k ≤ 1
  rw [postedCount_apply]
  cases w with
  | line l =>
    by_cases hk : l.key = k
    · have hnew := postedCount_eq_zero (line_ok hw).2.2
      rw [hk] at hnew
      simp [Write.line?, hk, hnew]
    · simpa [Write.line?, hk] using hle
  | _ => simpa [Write.line?] using hle

/-- The CHECKs of `accounts` and the unique key are constraints on single rows. -/
theorem schema_rowWise : RowWise schema SameRow OkRow where
  refl r d := by cases r <;> simp [SameRow]
  trans r d d' d'' h h' := by cases r <;> simp_all [SameRow]
  ok r d d' h hok := by cases r <;> simp_all [SameRow, OkRow]
  apply w r d d' h := by
    cases r <;> simp_all [SameRow, account?_apply, postedCount_apply]
  frame w r d h := by
    cases r with
    | account i =>
      obtain ⟨hd, hc⟩ := not_held_account h
      simp [SameRow, account?_apply, hd, hc]
    | key k => simp [SameRow, postedCount_apply, not_held_key h]
    | _ => trivial
  check w r d hok hw := by
    cases r with
    | account i => exact okRow_account_apply hok hw
    | key k => exact okRow_key_apply hok hw
    | _ => trivial

end Acct.Main
