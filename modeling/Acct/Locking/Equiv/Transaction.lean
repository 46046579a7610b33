import Acct.Locking.Transaction

/-!
# Ascending locks do not deadlock

If every request that has to wait is above all locks its transaction holds, waiting keys grow along
the wait-for graph (`Ordered.acyclic`). A unit that asks for its keys in ascending order meets this
by itself; what remains are the locks kept from earlier units (`Ascends`).

Without a cycle no statement fails because of another transaction, and the keys a unit has locked do
not change under it (`InUnit.runs`): a unit that fails would fail alone (`run_ascends`).
-/

namespace Acct.Locking

open List Option

variable {κ : Type*} {β : κ → Type*} {i j : ℕ}

def keys (unit : List (Stmt β)) : List κ := unit.flatMap (·.locks)

lemma keys_append (unit unit' : List (Stmt β)) : keys (unit ++ unit') = keys unit ++ keys unit' :=
  flatMap_append

lemma heldByOther_iff {s : State β} {k : κ} :
    s.HeldByOther i k ↔ ∃ j tx, s.txs[j]? = some tx ∧ j ≠ i ∧ k ∈ tx.held := by
  simp [State.HeldByOther, Machine.noOther_iff]

lemma waitsFor_iff {s : State β} : s.WaitsFor i j ↔ i ≠ j ∧ ∃ tx tx' k,
    s.txs[i]? = some tx ∧ s.txs[j]? = some tx' ∧ tx.waitsOn? = some k ∧ k ∈ tx'.held := by
  refine and_congr_right fun _ => ?_
  constructor
  · rintro ⟨k, hk, tx', hj, hmem⟩
    obtain ⟨tx, hi, hwaits⟩ := bind_eq_some_iff.mp hk
    exact ⟨tx, tx', k, hi, hj, hwaits, hmem⟩
  · rintro ⟨tx, tx', k, hi, hj, hwaits, hmem⟩
    exact ⟨k, bind_eq_some_iff.mpr ⟨tx, hi, hwaits⟩, tx', hj, hmem⟩

/-- The unit asks for no key that its transaction keeps from an earlier one. -/
def Failure.Apart (f : Failure β) : Prop := ∀ k ∈ keys f.unit, k ∉ f.kept

instance [DecidableEq κ] (f : Failure β) : Decidable f.Apart :=
  inferInstanceAs (Decidable (∀ k ∈ keys f.unit, k ∉ f.kept))

/-- A transaction that does not isolate its units has one: it keeps no locks from an earlier
unit. -/
def Tx.Single (tx : Tx β) : Prop :=
  tx.isolates = false → tx.savedHeld = [] ∧
    (tx.batch = [] ∨ (tx.phase = .idle ∧ tx.held = [] ∧ tx.batch.length = 1))

lemma Tx.Single.of_unit {tx tx' : Tx β} (h : tx.Single) (hphase : tx.phase ≠ .idle)
    (hisolates : tx'.isolates = tx.isolates) (hsaved : tx'.savedHeld = tx.savedHeld)
    (hbatch : tx'.batch = tx.batch) : tx'.Single := by
  intro hfalse
  obtain ⟨hnil, hempty | ⟨hidle, -, -⟩⟩ := h (hisolates ▸ hfalse)
  · exact ⟨hsaved.trans hnil, .inl (hbatch.trans hempty)⟩
  · exact absurd hidle hphase

variable [LinearOrder κ]

def Ascending (unit : List (Stmt β)) : Prop := (keys unit).Pairwise (· ≤ ·)

/-! ### Waiting keys grow -/

def Ordered (s : State β) : Prop :=
  ∀ (i : ℕ) tx k, s.txs[i]? = some tx → tx.waitsOn? = some k → ∀ h ∈ tx.held, h < k

lemma Ordered.lt_of_transGen {s : State β} (h : Ordered s)
    (hij : Relation.TransGen s.WaitsFor i j) :
    ∃ tx k, s.txs[i]? = some tx ∧ tx.waitsOn? = some k ∧
      ∀ tx' k', s.txs[j]? = some tx' → tx'.waitsOn? = some k' → k < k' := by
  induction hij with
  | single hstep =>
    obtain ⟨-, tx, tx', k, hi, hj, hk, hmem⟩ := waitsFor_iff.mp hstep
    refine ⟨tx, k, hi, hk, fun tx'' k' hj' hk' => ?_⟩
    obtain rfl := some.inj (hj.symm.trans hj')
    exact h _ _ k' hj hk' k hmem
  | tail _ hstep ih =>
    obtain ⟨tx, k, hi, hk, hlt⟩ := ih
    obtain ⟨-, u, u', l, hu, hu', hl, hmem⟩ := waitsFor_iff.mp hstep
    refine ⟨tx, k, hi, hk, fun tx'' k' hj' hk' => ?_⟩
    obtain rfl := some.inj (hu'.symm.trans hj')
    exact lt_trans (hlt u l hu hl) (h _ _ k' hu' hk' l hmem)

theorem Ordered.acyclic {s : State β} (h : Ordered s) (i : ℕ) :
    ¬ Relation.TransGen s.WaitsFor i i := by
  intro hcycle
  obtain ⟨tx, k, hi, hk, hlt⟩ := h.lt_of_transGen hcycle
  exact lt_irrefl k (hlt tx k hi hk)

lemma transGen_of_isChain {R : ℕ → ℕ → Prop} {path : List ℕ}
    (h : List.IsChain R (i :: path ++ [j])) : Relation.TransGen R i j := by
  induction path generalizing i with
  | nil => exact .single (isChain_cons_cons.mp h).1
  | cons l path ih =>
    obtain ⟨hstep, hrest⟩ := isChain_cons_cons.mp h
    exact .head hstep (ih hrest)

variable [∀ k, Inhabited (β k)] {U : List (Stmt β) → Prop}

/-! ### Statements touch their keys only -/

lemma restrict_congr {s t : Store β} {ks : List κ} (h : ∀ k ∈ ks, s k = t k) :
    s.restrict ks = t.restrict ks := by
  funext k
  by_cases hk : k ∈ ks
  · simp [Store.restrict, hk, h k hk]
  · simp [Store.restrict, hk]

lemma Stmt.run_congr (st : Stmt β) {s s' t : Store β} (hs : st.run s = some s')
    (h : ∀ k ∈ st.locks, s k = t k) :
    st.run t = some fun k => if k ∈ st.locks then s' k else t k := by
  unfold Stmt.run at hs ⊢
  rw [← restrict_congr h]
  split_ifs at hs ⊢ with hearly
  obtain ⟨r, hr, rfl⟩ := map_eq_some_iff.mp hs
  rw [hr, map_some]
  congr 1
  funext k
  by_cases hk : k ∈ st.locks <;> simp [hk]

lemma runAll_cons (st : Stmt β) (unit : List (Stmt β)) (s : Store β) :
    runAll (st :: unit) s = (st.run s).bind (runAll unit) := rfl

lemma runAll_append (unit unit' : List (Stmt β)) (s : Store β) :
    runAll (unit ++ unit') s = (runAll unit s).bind (runAll unit') := foldlM_append

/-- **Frame.** Statements do the same on a store that agrees on their keys, and leave the others. -/
lemma runAll_congr {unit : List (Stmt β)} {s s' t : Store β} (hs : runAll unit s = some s')
    (h : ∀ k ∈ keys unit, s k = t k) :
    runAll unit t = some fun k => if k ∈ keys unit then s' k else t k := by
  induction unit generalizing s t with
  | nil =>
    obtain rfl := some.inj hs
    simp [keys, runAll]
  | cons st unit ih =>
    rw [runAll_cons] at hs ⊢
    obtain ⟨s1, hs1, hs'⟩ := bind_eq_some_iff.mp hs
    have hst : ∀ k ∈ st.locks, s k = t k := fun k hk =>
      h k (mem_append_left _ hk)
    rw [st.run_congr hs1 hst, bind_some]
    have hframe := st.run_congr hs1 fun k _ => rfl
    have hagree : ∀ k ∈ keys unit, s1 k = if k ∈ st.locks then s1 k else t k := by
      intro k hk
      split_ifs with hmem
      · rfl
      · -- outside the statement's keys `s1` is `s`
        have hs₁k := congrFun (some.inj (hs1.symm.trans hframe)) k
        rw [if_neg hmem] at hs₁k
        rw [hs₁k]
        exact h k (mem_append_right _ hk)
    rw [ih hs' hagree]
    congr 1
    funext k
    have hs'k := congrFun (some.inj (hs'.symm.trans (ih hs' fun k _ => rfl))) k
    show _ = if k ∈ st.locks ++ keys unit then _ else _
    by_cases hunit : k ∈ keys unit
    · simp [hunit]
    · rw [if_neg hunit] at hs'k ⊢
      by_cases hmem : k ∈ st.locks
      · simp [hmem, hs'k]
      · simp [hmem, hunit]

/-- The unit fails on what its transaction saw, and on what was committed if it is apart from what
the transaction keeps. -/
def Failure.FailsAlone (f : Failure β) : Prop :=
  runAll f.unit f.seen = none ∧ (f.Apart → runAll f.unit f.committed = none)

lemma failsAlone_of_saved {f : Failure β} (hsaved : ∀ k, f.saved k ≠ none → k ∈ f.kept)
    (hfails : runAll f.unit f.seen = none) : f.FailsAlone := by
  refine ⟨hfails, fun hapart => ?_⟩
  rcases hruns : runAll f.unit f.committed with _ | s
  · rfl
  -- the two stores agree on the keys of the unit
  have hagree : ∀ k ∈ keys f.unit, f.committed k = f.seen k := by
    intro k hk
    have hnone : f.saved k = none := not_not.mp fun hne => hapart k hk (hsaved k hne)
    rw [Failure.seen, Store.over, hnone, getD_none]
  rw [runAll_congr hruns hagree] at hfails
  cases hfails

/-! ### The invariant -/

/-- Inside a unit, with the statements `rest` to come and the keys `acq` of the first of them
already locked. -/
structure InUnit (U : List (Stmt β) → Prop) (c : Store β) (tx : Tx β) (rest : List (Stmt β))
    (acq : List κ) : Prop where
  unit : tx.unit = tx.ran ++ rest
  unit_ok : U tx.unit
  ran_held : keys tx.ran ⊆ tx.held
  held : ∀ k ∈ tx.held, k ∈ tx.savedHeld ∨ k ∈ keys tx.ran ∨ k ∈ acq
  acq_held : acq ⊆ tx.held
  own_eq : ∀ k ∉ keys tx.ran, tx.own k = tx.saved k
  runs : runAll tx.ran (c.over tx.saved) = some (c.over tx.own)

def Tx.InPhase (U : List (Stmt β) → Prop) (c : Store β) (tx : Tx β) : Prop :=
  match tx.phase with
  | .idle | .done => True
  | .ready rest => InUnit U c tx rest []
  | .locking st todo rest => ∃ acq, st.locks = acq ++ todo ∧ InUnit U c tx (st :: rest) acq
  | .waiting st k todo rest => ∃ acq, st.locks = acq ++ k :: todo ∧ InUnit U c tx (st :: rest) acq

structure TxOk (U : List (Stmt β) → Prop) (c : Store β) (tx : Tx β) : Prop where
  batch : ∀ unit ∈ tx.batch, U unit
  single : tx.Single
  savedHeld : tx.savedHeld ⊆ tx.held
  own : ∀ k, tx.own k ≠ none → k ∈ tx.held
  saved : ∀ k, tx.saved k ≠ none → k ∈ tx.savedHeld
  inPhase : tx.InPhase U c

structure Inv (U : List (Stmt β) → Prop) (s : State β) : Prop where
  tx : ∀ (i : ℕ) tx, s.txs[i]? = some tx → TxOk U s.committed tx
  exclusive : ∀ k, Machine.Exclusive s.txs fun tx => k ∈ tx.held

lemma InUnit.of_commit {c : Store β} {tx : Tx β} {rest : List (Stmt β)} {acq : List κ}
    (h : InUnit U c tx rest acq) {c' : Store β} (hc : ∀ k ∈ tx.held, c' k = c k) :
    InUnit U c' tx rest acq := by
  refine ⟨h.unit, h.unit_ok, h.ran_held, h.held, h.acq_held, h.own_eq, ?_⟩
  have hagree : ∀ k ∈ keys tx.ran, c.over tx.saved k = c'.over tx.saved k := by
    intro k hk
    rw [Store.over, Store.over, hc k (h.ran_held hk)]
  rw [runAll_congr h.runs hagree]
  congr 1
  funext k
  by_cases hk : k ∈ keys tx.ran
  · rw [if_pos hk, Store.over, Store.over, hc k (h.ran_held hk)]
  · rw [if_neg hk, Store.over, Store.over, h.own_eq k hk]

lemma TxOk.of_commit {c c' : Store β} {tx : Tx β} (h : TxOk U c tx)
    (hc : ∀ k ∈ tx.held, c' k = c k) : TxOk U c' tx := by
  refine ⟨h.batch, h.single, h.savedHeld, h.own, h.saved, ?_⟩
  have hphase := h.inPhase
  unfold Tx.InPhase at hphase ⊢
  split at hphase
  · trivial
  · trivial
  · exact hphase.of_commit hc
  · obtain ⟨acq, hacq, hunit⟩ := hphase
    exact ⟨acq, hacq, hunit.of_commit hc⟩
  · obtain ⟨acq, hacq, hunit⟩ := hphase
    exact ⟨acq, hacq, hunit.of_commit hc⟩

lemma TxOk.finish (c : Store β) (tx : Tx β) : TxOk U c tx.finish :=
  ⟨by simp [Tx.finish], fun _ => ⟨rfl, .inl rfl⟩, by simp [Tx.finish], by simp [Tx.finish],
    by simp [Tx.finish], trivial⟩

/-! ### Steps -/

/-- A step of one transaction that takes a lock only when it is free, and blocks only on a lock that
another transaction holds. -/
structure Advances (U : List (Stmt β) → Prop) (s : State β) (i : ℕ) (tx tx' : Tx β) : Prop where
  ok : TxOk U s.committed tx'
  locks : ∀ k ∈ tx'.held, k ∈ tx.held ∨ ¬ s.HeldByOther i k
  waits : ∀ k, tx'.waitsOn? = some k → s.HeldByOther i k ∧ tx'.held = tx.held ∧
    ∃ st todo rest, tx.phase = .locking st (k :: todo) rest

section Steps

variable {s : State β} {i : ℕ} {tx : Tx β}

section

variable (h : TxOk U s.committed tx)
include h

lemma Advances.of_idle {unit : List (Stmt β)}
    {batch : List (List (Stmt β))} (hbatch : tx.batch = unit :: batch) :
    Advances U s i tx { tx with
      batch, unit, ran := [], phase := .ready unit, savedHeld := tx.held, saved := tx.own } := by
  have hasc := h.batch
  rw [hbatch] at hasc
  have hsingle : tx.isolates = false → tx.held = [] ∧ batch = [] := by
    intro hfalse
    obtain ⟨-, hnil | ⟨-, hheld, hlen⟩⟩ := h.single hfalse
    · rw [hnil] at hbatch
      cases hbatch
    · rw [hbatch, length_cons] at hlen
      exact ⟨hheld, length_eq_zero_iff.mp (by omega)⟩
  refine ⟨⟨fun u hu => hasc u (mem_cons_of_mem _ hu),
    fun hfalse => (hsingle hfalse).imp_right .inl, List.Subset.refl _, h.own, h.own, ?_⟩,
    fun k hk => .inl hk, nofun⟩
  exact ⟨rfl, hasc unit mem_cons_self, nil_subset _, fun k hk => .inl hk,
    nil_subset _, fun k _ => rfl, rfl⟩

lemma Advances.of_complete (hphase : tx.phase = .ready []) :
    Advances U s i tx { tx with phase := .idle } :=
  ⟨⟨h.batch, h.single.of_unit (by simp [hphase]) rfl rfl rfl, h.savedHeld, h.own, h.saved, trivial⟩,
    fun k hk => .inl hk, nofun⟩

lemma Advances.of_start {st : Stmt β} {rest : List (Stmt β)}
    (hphase : tx.phase = .ready (st :: rest)) :
    Advances U s i tx { tx with phase := .locking st st.locks rest } := by
  have hunit := h.inPhase
  rw [Tx.InPhase, hphase] at hunit
  refine ⟨⟨h.batch, h.single.of_unit (by simp [hphase]) rfl rfl rfl, h.savedHeld, h.own, h.saved,
    [],
    rfl, ?_⟩, fun k hk => .inl hk, nofun⟩
  exact ⟨hunit.unit, hunit.unit_ok, hunit.ran_held, hunit.held, nil_subset _, hunit.own_eq,
    hunit.runs⟩

lemma Advances.of_block {st : Stmt β} {k : κ} {todo : List κ}
    {rest : List (Stmt β)} (hphase : tx.phase = .locking st (k :: todo) rest)
    (hheld : s.HeldByOther i k) :
    Advances U s i tx { tx with phase := .waiting st k todo rest } := by
  have hunit := h.inPhase
  rw [Tx.InPhase, hphase] at hunit
  refine ⟨⟨h.batch, h.single.of_unit (by simp [hphase]) rfl rfl rfl, h.savedHeld, h.own, h.saved,
    hunit.imp fun _ h => ⟨h.1, ?_⟩⟩, fun k hk => .inl hk, fun k' hk' => ?_⟩
  · exact ⟨h.2.unit, h.2.unit_ok, h.2.ran_held, h.2.held, h.2.acq_held, h.2.own_eq, h.2.runs⟩
  · obtain rfl := some.inj hk'
    exact ⟨hheld, rfl, st, todo, rest, hphase⟩

lemma Advances.of_acquire {st : Stmt β} {k : κ} {todo : List κ}
    {rest : List (Stmt β)} (hphase : tx.phase ≠ .idle)
    (hunit : ∃ acq, st.locks = acq ++ k :: todo ∧ InUnit U s.committed tx (st :: rest) acq)
    (hfree : ¬ s.HeldByOther i k) : Advances U s i tx (tx.acquire st k todo rest) := by
  obtain ⟨acq, hacq, hunit⟩ := hunit
  have hsub : tx.held ⊆ k :: tx.held := subset_cons_self _ _
  refine ⟨⟨h.batch, h.single.of_unit hphase rfl rfl rfl, fun l hl => hsub (h.savedHeld hl),
    fun l hl => hsub (h.own l hl), h.saved, acq ++ [k], by simpa using hacq, ?_⟩, fun l hl => ?_,
    nofun⟩
  · refine ⟨hunit.unit, hunit.unit_ok, fun l hl => hsub (hunit.ran_held hl), fun l hl => ?_,
      fun l hl => ?_, hunit.own_eq, hunit.runs⟩
    · rcases mem_cons.mp hl with rfl | hl
      · exact .inr (.inr (by simp))
      · exact (hunit.held l hl).imp_right (Or.imp_right fun hl => by simp [hl])
    · rcases mem_append.mp hl with hl | hl
      · exact hsub (hunit.acq_held hl)
      · rw [mem_singleton.mp hl]
        exact mem_cons_self
  · rcases mem_cons.mp hl with rfl | hl
    · exact .inr hfree
    · exact .inl hl

lemma Advances.of_run {st : Stmt β} {rest : List (Stmt β)}
    (hphase : tx.phase = .locking st [] rest) {r : Store β}
    (hr : st.run (s.committed.over tx.own) = some r) :
    Advances U s i tx (tx.record st r rest) := by
  have hunit := h.inPhase
  rw [Tx.InPhase, hphase] at hunit
  obtain ⟨acq, hacq, hunit⟩ := hunit
  rw [append_nil] at hacq
  subst hacq
  have hran : keys (tx.ran ++ [st]) = keys tx.ran ++ st.locks := by
    rw [keys_append]
    simp [keys]
  have hrun : ∀ k, r k = if k ∈ st.locks then r k else s.committed.over tx.own k := fun k =>
    congrFun (some.inj (hr.symm.trans (st.run_congr hr fun k _ => rfl))) k
  refine ⟨⟨h.batch, h.single.of_unit (by simp [hphase]) rfl rfl rfl, h.savedHeld, fun k hk => ?_,
    h.saved, ?_⟩, fun k hk => .inl hk, nofun⟩
  · by_cases hmem : k ∈ st.locks
    · exact hunit.acq_held hmem
    · simp only [Tx.record, hmem, if_false] at hk
      exact h.own k hk
  · refine ⟨by simp [Tx.record, hunit.unit], hunit.unit_ok, ?_, ?_, nil_subset _, ?_, ?_⟩
    · show keys (tx.ran ++ [st]) ⊆ tx.held
      rw [hran]
      exact append_subset.mpr ⟨hunit.ran_held, hunit.acq_held⟩
    · intro k hk
      show _ ∨ k ∈ keys (tx.ran ++ [st]) ∨ _
      rw [hran, mem_append]
      rcases hunit.held k hk with hk | hk | hk
      · exact .inl hk
      · exact .inr (.inl (.inl hk))
      · exact .inr (.inl (.inr hk))
    · intro k hk
      change k ∉ keys (tx.ran ++ [st]) at hk
      rw [hran, mem_append, not_or] at hk
      show (if k ∈ st.locks then some (r k) else tx.own k) = tx.saved k
      rw [if_neg hk.2, hunit.own_eq k hk.1]
    · show runAll (tx.ran ++ [st]) (s.committed.over tx.saved) = _
      rw [runAll_append, hunit.runs, bind_some]
      show (st.run _).bind some = _
      rw [hr, bind_some]
      congr 1
      funext k
      rw [hrun k]
      by_cases hmem : k ∈ st.locks <;> simp [Store.over, Tx.record, hmem]

end

lemma Advances.of_finish : Advances U s i tx tx.finish :=
  ⟨TxOk.finish _ _, by simp [Tx.finish], by simp [Tx.finish, Tx.waitsOn?]⟩

lemma fail_eq (h : TxOk U s.committed tx) : ∃ tx' fs, Advances U s i tx tx' ∧ tx'.waitsOn? = none ∧
    s.fail i tx = ⟨s.committed, s.txs.set i tx', s.failures ++ fs⟩ ∧
    ∀ f ∈ fs, f = ⟨tx.unit, tx.savedHeld, tx.saved, s.committed⟩ := by
  unfold State.fail
  split_ifs with hisolates
  · refine ⟨{ tx with phase := .idle, held := tx.savedHeld, own := tx.saved },
      [⟨tx.unit, tx.savedHeld, tx.saved, s.committed⟩],
      ⟨⟨h.batch, fun hfalse => ?_, List.Subset.refl _, h.saved, h.saved, trivial⟩,
        fun k hk => .inl (h.savedHeld hk), nofun⟩, rfl, rfl, by simp⟩
    exact absurd (hfalse.symm.trans hisolates) (by simp)
  · exact ⟨tx.finish, [], .of_finish, rfl, by simp [State.setTx], by simp⟩

lemma InUnit.runAll_eq_none {c : Store β} {st : Stmt β} {rest : List (Stmt β)} {acq : List κ}
    (h : InUnit U c tx (st :: rest) acq) (hst : st.run (c.over tx.own) = none) :
    runAll tx.unit (c.over tx.saved) = none := by
  rw [h.unit, runAll_append, h.runs, bind_some, runAll_cons, hst, bind_none]

end Steps

/-! ### Runs -/

/-- A transaction begins with units of kind `U`, and with one unit if it does not isolate them. -/
def Begins (U : List (Stmt β) → Prop) : Action β → Prop
  | .begin isolates batch => (∀ unit ∈ batch, U unit) ∧ (isolates = false → batch.length = 1)
  | _ => True

/-- One transaction moves; a unit is recorded as failed only if it would fail alone, or as the
victim of a cycle. -/
structure Moves (U : List (Stmt β) → Prop) (s : State β) (a : Action β) (i : ℕ) (tx tx' : Tx β)
    (fs : List (Failure β)) : Prop where
  advances : Advances U s i tx tx'
  waits : a = .step i ∨ tx'.waitsOn? = none
  fails : (∀ f ∈ fs, U f.unit ∧ f.FailsAlone) ∨ ∃ path, s.Cycle i path

section Exec

variable {s s' : State β} {i : ℕ} {tx : Tx β}

lemma next_eq_some (h : TxOk U s.committed tx) (hex : s.next i tx = some s') :
    ∃ tx' fs, Moves U s (.step i) i tx tx' fs ∧
      s' = ⟨s.committed, s.txs.set i tx', s.failures ++ fs⟩ := by
  have hmoves : ∀ {tx'}, Advances U s i tx tx' → s' = s.setTx i tx' → ∃ tx' fs,
      Moves U s (.step i) i tx tx' fs ∧ s' = ⟨s.committed, s.txs.set i tx', s.failures ++ fs⟩ :=
    fun {tx'} ha hs' => ⟨tx', [], ⟨ha, .inl rfl, .inl (by simp)⟩, by simp [hs', State.setTx]⟩
  have hfails : ∀ {st rest acq}, InUnit U s.committed tx (st :: rest) acq →
      st.run (s.committed.over tx.own) = none → s' = s.fail i tx → ∃ tx' fs,
      Moves U s (.step i) i tx tx' fs ∧ s' = ⟨s.committed, s.txs.set i tx', s.failures ++ fs⟩ := by
    intro st rest acq hunit hst hs'
    obtain ⟨tx', fs, ha, -, hfail, hfs⟩ := fail_eq (i := i) h
    refine ⟨tx', fs, ⟨ha, .inl rfl, .inl fun f hf => ?_⟩, hs'.trans hfail⟩
    rw [hfs f hf]
    exact ⟨hunit.unit_ok, failsAlone_of_saved h.saved (hunit.runAll_eq_none hst)⟩
  have hphase := h.inPhase
  unfold Tx.InPhase at hphase
  unfold State.next at hex
  split at hex
  case h_1 hidle =>
    split at hex
    · cases hex
    · rename_i unit batch hbatch
      exact hmoves (.of_idle h hbatch) (some.inj hex).symm
  case h_2 hready => exact hmoves (.of_complete h hready) (some.inj hex).symm
  case h_3 st rest hready =>
    rw [hready] at hphase
    split_ifs at hex with hearly
    · refine hfails hphase ?_ (some.inj hex).symm
      rw [Stmt.run, if_pos hearly]
    · exact hmoves (.of_start h hready) (some.inj hex).symm
  case h_4 st k todo rest hlocking =>
    rw [hlocking] at hphase
    split_ifs at hex with hheld
    · exact hmoves (.of_block h hlocking hheld) (some.inj hex).symm
    · exact hmoves (.of_acquire h (by simp [hlocking]) hphase hheld) (some.inj hex).symm
  case h_5 st rest hlocking =>
    rw [hlocking] at hphase
    split at hex
    · rename_i hrun
      obtain ⟨acq, -, hunit⟩ := hphase
      exact hfails hunit hrun (some.inj hex).symm
    · rename_i r hrun
      exact hmoves (.of_run h hlocking hrun) (some.inj hex).symm
  case h_6 st k todo rest hwaiting =>
    rw [hwaiting] at hphase
    split_ifs at hex with hheld
    exact hmoves (.of_acquire h (by simp [hwaiting]) hphase hheld) (some.inj hex).symm
  case h_7 => cases hex

theorem exec?_cases {a : Action β} (h : Inv U s) (hex : s.exec? a = some s') :
    (∃ isolates batch, a = .begin isolates batch ∧
      s' = { s with txs := s.txs ++ [{ isolates, batch }] }) ∨
    (∃ i tx tx' fs, s.txs[i]? = some tx ∧ Moves U s a i tx tx' fs ∧
      s' = ⟨s.committed, s.txs.set i tx', s.failures ++ fs⟩) ∨
    (∃ i tx, s.txs[i]? = some tx ∧
      s' = { s with committed := s.committed.over tx.own, txs := s.txs.set i tx.finish }) := by
  cases a with
  | begin isolates batch => exact .inl ⟨isolates, batch, rfl, (some.inj hex).symm⟩
  | step i =>
    obtain ⟨tx, hi, hnext⟩ := bind_eq_some_iff.mp hex
    obtain ⟨tx', fs, hmoves, hs'⟩ := next_eq_some (h.tx i tx hi) hnext
    exact .inr (.inl ⟨i, tx, tx', fs, hi, hmoves, hs'⟩)
  | commit i =>
    obtain ⟨tx, hi, hcommit⟩ := bind_eq_some_iff.mp hex
    unfold State.commit at hcommit
    split at hcommit
    · exact .inr (.inr ⟨i, tx, hi, (some.inj hcommit).symm⟩)
    · cases hcommit
  | abort i =>
    obtain ⟨tx, hi, rfl⟩ := map_eq_some_iff.mp hex
    exact .inr (.inl ⟨i, tx, tx.finish, [], hi, ⟨.of_finish, .inr rfl, .inl (by simp)⟩,
      by simp [State.setTx]⟩)
  | deadlock i path =>
    simp only [State.exec?] at hex
    split_ifs at hex with hcycle
    obtain ⟨tx, hi, rfl⟩ := map_eq_some_iff.mp hex
    obtain ⟨tx', fs, ha, hwaits, hfail, -⟩ := fail_eq (i := i) (h.tx i tx hi)
    exact .inr (.inl ⟨i, tx, tx', fs, hi, ⟨ha, .inr hwaits, .inr ⟨path, hcycle⟩⟩, hfail⟩)

lemma Inv.begin (h : Inv U s) {isolates : Bool} {batch : List (List (Stmt β))}
    (hb : Begins U (.begin isolates batch)) :
    Inv U { s with txs := s.txs ++ [{ isolates, batch }] } := by
  refine ⟨fun j u hj => ?_, fun k => (h.exclusive k).append nofun⟩
  rcases Machine.getElem?_append_singleton_cases hj with ⟨-, rfl⟩ | ⟨-, hj⟩
  · exact ⟨hb.1, fun hfalse => ⟨rfl, .inr ⟨rfl, rfl, hb.2 hfalse⟩⟩, List.Subset.refl _,
      by simp, by simp, trivial⟩
  · exact h.tx j u hj

lemma Inv.moves (h : Inv U s) (hi : s.txs[i]? = some tx) {tx' : Tx β} (ha : Advances U s i tx tx')
    (fs : List (Failure β)) : Inv U ⟨s.committed, s.txs.set i tx', s.failures ++ fs⟩ := by
  refine ⟨fun j u hj => ?_, fun k => (h.exclusive k).set hi fun hk => ?_⟩
  · rcases Machine.getElem?_set_cases hj with ⟨-, rfl⟩ | ⟨-, hj⟩
    · exact ha.ok
    · exact h.tx j u hj
  · -- a lock of the moved transaction was its own before, or free
    exact (ha.locks k hk).imp_right not_not.mp

lemma Inv.commit (h : Inv U s) (hi : s.txs[i]? = some tx) :
    Inv U { s with committed := s.committed.over tx.own, txs := s.txs.set i tx.finish } := by
  refine ⟨fun j u hj => ?_, fun k => (h.exclusive k).set hi nofun⟩
  rcases Machine.getElem?_set_cases hj with ⟨-, rfl⟩ | ⟨hne, hj⟩
  · exact TxOk.finish _ _
  · refine (h.tx j u hj).of_commit fun k hk => ?_
    -- the committed keys were locked by the committing transaction
    have hown : tx.own k = none := by
      by_contra hown
      exact h.exclusive k j i u tx hne hj hi hk ((h.tx i tx hi).own k hown)
    show (tx.own k).getD _ = _
    rw [hown, getD_none]

end Exec

/-! ### Ascending requests -/

/-- An isolating transaction that has to wait asks for a key above those it keeps from its earlier
units. -/
def Ascends (s : State β) : Action β → Prop
  | .step i => ∀ tx ∈ s.txs[i]?, tx.isolates → ∀ k ∈ tx.asksFor?, s.HeldByOther i k →
      ∀ h ∈ tx.savedHeld, h < k
  | _ => True

instance (s : State β) : (a : Action β) → Decidable (Ascends s a)
  | .step i => inferInstanceAs (Decidable (∀ tx ∈ s.txs[i]?, tx.isolates → ∀ k ∈ tx.asksFor?,
      s.HeldByOther i k → ∀ h ∈ tx.savedHeld, h < k))
  | .begin _ _ | .commit _ | .abort _ | .deadlock _ _ => inferInstanceAs (Decidable True)

lemma lt_of_blocks (hU : ∀ unit, U unit → Ascending unit) {s : State β} (h : Inv U s) {tx : Tx β}
    (hi : s.txs[i]? = some tx) (hasc : Ascends s (.step i)) {st : Stmt β} {k : κ} {todo : List κ}
    {rest : List (Stmt β)} (hphase : tx.phase = .locking st (k :: todo) rest)
    (hheld : s.HeldByOther i k) :
    ∀ l ∈ tx.held, l < k := by
  have hok := h.tx i tx hi
  have hunit := hok.inPhase
  rw [Tx.InPhase, hphase] at hunit
  obtain ⟨acq, hacq, hunit⟩ := hunit
  intro l hl
  have hne : l ≠ k := by
    rintro rfl
    obtain ⟨j, u, hj, hji, hlu⟩ := heldByOther_iff.mp hheld
    exact h.exclusive l i j tx u hji.symm hi hj hl hlu
  -- the unit's own keys come in ascending order
  have hle : ∀ l ∈ keys tx.ran ++ acq, l ≤ k := by
    have hsorted := hU _ hunit.unit_ok
    rw [Ascending, hunit.unit, keys_append] at hsorted
    change ((keys tx.ran) ++ (st.locks ++ keys rest)).Pairwise (· ≤ ·) at hsorted
    rw [hacq, append_assoc, ← append_assoc (keys tx.ran)] at hsorted
    exact fun l hl => (pairwise_append.mp hsorted).2.2 l hl k (by simp)
  rcases hunit.held l hl with hl | hl | hl
  · by_cases hisolates : tx.isolates
    · exact hasc tx hi hisolates k (by simp [Tx.asksFor?, hphase]) hheld l hl
    · rw [(hok.single (by simpa using hisolates)).1] at hl
      cases hl
  · exact lt_of_le_of_ne (hle l (mem_append_left _ hl)) hne
  · exact lt_of_le_of_ne (hle l (mem_append_right _ hl)) hne

structure Good (U : List (Stmt β) → Prop) (s : State β) : Prop where
  inv : Inv U s
  ordered : Ordered s
  failures : ∀ f ∈ s.failures, U f.unit ∧ f.FailsAlone

lemma Good.step (hU : ∀ unit, U unit → Ascending unit) {s : State β} {a : Action β}
    (h : Good U s) (hb : Begins U a) (hasc : Ascends s a) :
    Good U (Machine.step State.exec? s a) := by
  rcases hex : s.exec? a with _ | s'
  · rwa [Machine.step_of_none hex]
  rw [Machine.step_of_some hex]
  rcases exec?_cases h.inv hex with ⟨isolates, batch, rfl, rfl⟩ | ⟨i, tx, tx', fs, hi, hm, rfl⟩ |
    ⟨i, tx, hi, rfl⟩
  · refine ⟨h.inv.begin hb, fun j u k hj hk => ?_, h.failures⟩
    rcases mem_append.mp (mem_of_getElem? hj) with hu | hu
    · obtain ⟨l, hl⟩ := List.getElem?_of_mem hu
      exact h.ordered l u k hl hk
    · rw [mem_singleton.mp hu] at hk
      cases hk
  · refine ⟨h.inv.moves hi hm.advances fs, fun j u k hj hk => ?_, fun f hf => ?_⟩
    · rcases Machine.getElem?_set_cases hj with ⟨-, rfl⟩ | ⟨-, hj⟩
      · rcases hm.waits with rfl | hnone
        · obtain ⟨hheld, heq, st, todo, rest, hphase⟩ := hm.advances.waits k hk
          rw [heq]
          exact lt_of_blocks hU h.inv hi hasc hphase hheld
        · rw [hnone] at hk
          cases hk
      · exact h.ordered j u k hj hk
    · rcases mem_append.mp hf with hf | hf
      · exact h.failures f hf
      · rcases hm.fails with hfails | ⟨path, hcycle⟩
        · exact hfails f hf
        · exact absurd (transGen_of_isChain hcycle) (h.ordered.acyclic i)
  · refine ⟨h.inv.commit hi, fun j u k hj hk => ?_, h.failures⟩
    rcases Machine.getElem?_set_cases hj with ⟨-, rfl⟩ | ⟨-, hj⟩
    · cases hk
    · exact h.ordered j u k hj hk

/-- **Runs with ascending requests.** If all units are of a kind `U` that asks for its keys in
ascending order, the wait-for graph has no cycle, and a unit that was rolled back alone fails
alone. -/
theorem run_ascends (hU : ∀ unit, U unit → Ascending unit) {s : Store β}
    {actions : List (Action β)} (hb : ∀ a ∈ actions, Begins U a)
    (hasc : Machine.Throughout State.exec? Ascends { committed := s } actions) :
    (∀ i, ¬ Relation.TransGen (run s actions).WaitsFor i i) ∧
      ∀ f ∈ (run s actions).failures, U f.unit ∧ f.FailsAlone := by
  have hgood : Good U (run s actions) :=
    Machine.run_induction (fun _ _ h hC => h.step hU hC.1 hC.2)
      ⟨⟨by simp, fun _ => .nil⟩, fun i tx k hi => by simp at hi, by simp⟩ actions
      (Machine.throughout_and_of_forall hb hasc)
  exact ⟨hgood.ordered.acyclic, hgood.failures⟩

end Acct.Locking
