import Acct.V32.Core.Equiv.Numeric
import Acct.V32.Pool

/-!
# What one operation on a pool can do

`Pool.step_cases` says once what a submission, a feed batch and a pass can change; every invariant
of `Pool.run` is proved from it.
-/

namespace Acct.V32

/-- `t` is a line the hot path appends to `db`, leaving the aggregate row `a`. -/
def Appends (db : PoolDb) (t : TrxLine) (a : Aggregate) : Prop :=
  (0 < t.qty ∧ flReceipt db.aggregate t.qty t.unitCost = some a) ∨
    (t.qty < 0 ∧ ∃ standard, flDeplete db.aggregate (-t.qty) standard = some (a, t.unitCost))

lemma TrxLine.insert?_eq_some {id at' qty uc : ℤ} {lt : LineType} {t : TrxLine}
    (h : TrxLine.insert? id at' lt qty uc = some t) :
    t.id = id ∧ t.postedAt = at' ∧ t.lineType = lt ∧ t.qty = qty ∧ t.unitCost = uc := by
  unfold TrxLine.insert? at h
  split_ifs at h
  cases h
  exact ⟨rfl, rfl, rfl, rfl, rfl⟩

lemma submitLine_eq_some {cfg : PoolCfg} {r : SubmitLine} {db db' : PoolDb}
    (h : submitLine cfg r db = some db') : db' = db ∨
      ∃ t a, t.id = r.id ∧ t.postedAt = r.postedAt ∧ Appends db t a ∧
        db' = { db with aggregate := some a, lines := db.lines ++ [t] } := by
  unfold submitLine at h
  split_ifs at h with hzero hbp hacc hpos
  · exact .inl (Option.some.inj h).symm
  · simp only [Option.bind_eq_bind, Option.bind_eq_some_iff, Option.pure_def,
      Option.some.injEq] at h
    obtain ⟨a, ha, t, ht, rfl⟩ := h
    obtain ⟨hid, hat, -, hqty, huc⟩ := TrxLine.insert?_eq_some ht
    refine .inr ⟨t, a, hid, hat, .inl ⟨hqty ▸ hpos, ?_⟩, rfl⟩
    rw [hqty, huc]
    exact ha
  · simp only [Option.bind_eq_bind, Option.bind_eq_some_iff, Option.pure_def, Option.some.injEq,
      toI64?_eq_some, Prod.exists] at h
    obtain ⟨q, ⟨hq, -⟩, a, uc, ha, t, ht, rfl⟩ := h
    obtain ⟨hid, hat, -, hqty, huc⟩ := TrxLine.insert?_eq_some ht
    refine .inr ⟨t, a, hid, hat, .inr ⟨by omega, r.standard, ?_⟩, rfl⟩
    rw [show -t.qty = q by omega, huc]
    exact ha

theorem Pool.step_cases (cfg : PoolCfg) (s : Pool) (op : PoolOp) :
    s.step cfg op = s ∨
    (∃ r t a, op = .submit r ∧ t.id = r.id ∧ t.postedAt = r.postedAt ∧
      (∀ u ∈ s.db.lines, u.id ≠ t.id) ∧ Appends s.db t a ∧ s.step cfg op =
        { s with db := { s.db with aggregate := some a, lines := s.db.lines ++ [t] } }) ∨
    (∃ batch, op = .feed batch ∧ (∀ e ∈ batch, Committed s.db e) ∧ s.step cfg op =
      { db := feedApply cfg batch s.db, delivered := s.delivered ++ physicalIds batch }) ∨
    (∃ periods db', op = .pass periods ∧ recalcStep cfg periods s.db = some db' ∧
      s.step cfg op = { s with db := db' }) := by
  rcases happ : s.exec? cfg op with _ | s'
  · exact .inl (Machine.step_of_none happ)
  rw [Pool.step, Machine.step_of_some happ]
  cases op with
  | submit r =>
    simp only [Pool.exec?] at happ
    split_ifs at happ with hfresh
    rw [Option.map_eq_some_iff] at happ
    obtain ⟨db', hdb, rfl⟩ := happ
    rcases submitLine_eq_some hdb with rfl | ⟨t, a, hid, hat, happ, rfl⟩
    · exact .inl rfl
    · exact .inr (.inl ⟨r, t, a, rfl, hid, hat, hid ▸ hfresh, happ, rfl⟩)
  | feed batch =>
    simp only [Pool.exec?] at happ
    split_ifs at happ with hcom
    cases happ
    exact .inr (.inr (.inl ⟨batch, rfl, hcom, rfl⟩))
  | pass periods =>
    simp only [Pool.exec?, Option.map_eq_some_iff] at happ
    obtain ⟨db', hdb, rfl⟩ := happ
    exact .inr (.inr (.inr ⟨periods, db', rfl, hdb, rfl⟩))
  | abortedPass => cases happ

end Acct.V32
