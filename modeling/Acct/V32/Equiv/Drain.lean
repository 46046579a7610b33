import Acct.V32.Direct.Drain
import Acct.V32.Equiv.Books

/-!
# Drain against direct submission

A claimed row and a direct submission do the same to the books (`applyClaimed_rel`,
`ledgerSubmitTrx_rel`). After any drains and crashes the books are those after the first `n` rows,
and the inbox has their outcomes (`Progress`). What stops a drain is a row whose `posted_at` the
claim cannot read: every drain that reaches it aborts (`drainsAsDirect_iff`).
-/

namespace Acct.V32

open Table Machine List

variable {ref : Reference} {inbox rows : List InboxRow} {sub : Submission} {T : LedgerTables}
  {b : Books} {row : InboxRow}

/-! ### One row -/

def Reference.postRow (ref : Reference) (row : InboxRow) (b : Books) : Option Books :=
  match row.postedAt with
  | .finite us => ref.postAll (row.submission us) b
  | .infinite => none

namespace Reference

lemma postAll_eq_none_of_not_inTextRange (h : ¬ InTextRange sub.postedAt) :
    ref.postAll sub b = none := by
  unfold postAll
  cases sub.decoded with
  | none => rfl
  | some lines => exact if_neg fun hall => h hall.2.1

lemma postAll_eq_none_of_lines (h : sub.lines = none) : ref.postAll sub b = none := by
  unfold postAll Submission.decoded
  rw [h]
  rfl

lemma ledgerSubmitTrx_rel (hT : T.Keeps b) :
    Option.Rel LedgerTables.Keeps (ref.ledgerSubmitTrx row T) (ref.postRow row b) := by
  unfold ledgerSubmitTrx postRow
  cases row.postedAt with
  | infinite => exact .none
  | finite us =>
    dsimp only
    by_cases htext : InTextRange us
    · rw [if_pos htext]
      exact apply_rel true hT
    · rw [if_neg htext, postAll_eq_none_of_not_inTextRange htext]
      exact .none

lemma applyClaimed_rel (ref : Reference) (hclaim : row.postedAt.micros?.isSome) (hT : T.Keeps b) :
    Option.Rel LedgerTables.Keeps (ref.applyClaimed row T) (ref.postRow row b) := by
  unfold applyClaimed postRow
  cases hpostedAt : row.postedAt with
  | infinite => rw [hpostedAt] at hclaim; cases hclaim
  | finite us =>
    have hmicros : (Timestamp.finite us).micros? = some us := by
      rw [hpostedAt] at hclaim
      by_cases hi64 : InI64 us
      · exact if_pos hi64
      · rw [show (Timestamp.finite us).micros? = none from if_neg hi64] at hclaim
        cases hclaim
    rw [hmicros]
    simp only [Option.bind_eq_bind, Option.bind_some]
    by_cases hready : InChronoRange us ∧ row.lines.isSome
    · rw [if_pos hready]
      exact apply_rel false hT
    · rw [if_neg hready]
      -- what does not decode is not accepted by the books either
      have hnone : ref.postAll (row.submission us) b = none := by
        by_cases hlines : row.lines.isSome
        · refine postAll_eq_none_of_not_inTextRange fun htext => hready ⟨?_, hlines⟩
          unfold InTextRange at htext
          unfold InChronoRange
          dsimp only [InboxRow.submission] at htext
          omega
        · exact postAll_eq_none_of_lines (Option.not_isSome_iff_eq_none.mp hlines)
      rw [hnone]
      exact .none

end Reference

lemma LedgerTables.Keeps.burn (hT : T.Keeps b) (n : ℕ) : (T.burn n).Keeps b := by
  obtain ⟨hwf, hunthrottled, rfl⟩ := hT
  refine ⟨⟨hwf.increasing, fun r hr => ?_, ?_, hwf.layers, hwf.sources, hwf.postings⟩,
    hunthrottled, rfl⟩
  · have := hwf.drawn r hr
    exact ⟨this.1, this.2.trans (by simp [LedgerTables.burn])⟩
  · exact hwf.seq_nonneg.trans (by simp [LedgerTables.burn])

/-! ### Rows in order -/

def Reference.postRows (ref : Reference) : Books → List InboxRow → Books × List RowOutcome
  | b, [] => (b, [])
  | b, row :: rows =>
    match ref.postRow row b with
    | some b' => ((ref.postRows b' rows).1, (row.id, true) :: (ref.postRows b' rows).2)
    | none => ((ref.postRows b rows).1, (row.id, false) :: (ref.postRows b rows).2)

section Rows

variable {rows' : List InboxRow}

theorem settleAll_keeps {submit : InboxRow → LedgerTables → Option LedgerTables} (burned : ℤ → ℕ)
    (hsubmit : ∀ row ∈ rows, ∀ T b, T.Keeps b →
      Option.Rel LedgerTables.Keeps (submit row T) (ref.postRow row b)) (hT : T.Keeps b) :
    (settleAll submit burned T rows).1.Keeps (ref.postRows b rows).1 ∧
      (settleAll submit burned T rows).2 = (ref.postRows b rows).2 := by
  induction rows generalizing T b with
  | nil => exact ⟨hT, rfl⟩
  | cons row rows ih =>
    have hrest : ∀ row ∈ rows, ∀ T b, T.Keeps b →
        Option.Rel LedgerTables.Keeps (submit row T) (ref.postRow row b) :=
      fun r hr => hsubmit r (mem_cons_of_mem _ hr)
    have hrow := hsubmit row mem_cons_self T b hT
    unfold settleAll Reference.postRows
    generalize submit row T = x, ref.postRow row b = y at hrow ⊢
    cases hrow with
    | none =>
      obtain ⟨hkeeps, heq⟩ := ih hrest (hT.burn (burned row.id))
      exact ⟨hkeeps, congrArg _ heq⟩
    | some hkept =>
      obtain ⟨hkeeps, heq⟩ := ih hrest hkept
      exact ⟨hkeeps, congrArg _ heq⟩

lemma postRows_append (b : Books) (rows rows' : List InboxRow) :
    ref.postRows b (rows ++ rows') =
      ((ref.postRows (ref.postRows b rows).1 rows').1,
        (ref.postRows b rows).2 ++ (ref.postRows (ref.postRows b rows).1 rows').2) := by
  induction rows generalizing b with
  | nil => rfl
  | cons row rows ih =>
    rw [cons_append, Reference.postRows, Reference.postRows]
    cases ref.postRow row b with
    | none | some b' => simp only [ih, cons_append]

lemma map_fst_postRows (ref : Reference) (b : Books) (rows : List InboxRow) :
    (ref.postRows b rows).2.map (·.1) = rows.map (·.id) := by
  induction rows generalizing b with
  | nil => rfl
  | cons row rows ih =>
    rw [Reference.postRows]
    cases ref.postRow row b with
    | none | some b' => rw [map_cons, map_cons, ih]

lemma map_fst_settleAll (submit : InboxRow → LedgerTables → Option LedgerTables) (burned : ℤ → ℕ)
    (T : LedgerTables) (rows : List InboxRow) :
    (settleAll submit burned T rows).2.map (·.1) = rows.map (·.id) := by
  induction rows generalizing T with
  | nil => rfl
  | cons row rows ih =>
    rw [settleAll]
    cases submit row T with
    | none | some T' => rw [map_cons, map_cons, ih]

end Rows

/-! ### The inbox -/

section Inbox

variable {outs outs' : List RowOutcome}

@[simp] lemma id_record (row : InboxRow) (outs : List RowOutcome) :
    (row.record outs).id = row.id := by
  unfold InboxRow.record
  split_ifs <;> rfl

lemma mem_outcomes_iff {id : ℤ} :
    ((id, true) ∈ outs ∨ (id, false) ∈ outs) ↔ id ∈ outs.map (·.1) := by
  rw [List.mem_map]
  constructor
  · rintro (h | h)
    · exact ⟨_, h, rfl⟩
    · exact ⟨_, h, rfl⟩
  · rintro ⟨⟨id', ok⟩, h, rfl⟩
    cases ok with
    | true => exact .inl h
    | false => exact .inr h

lemma record_of_notMem (h : row.id ∉ outs.map (·.1)) : row.record outs = row := by
  rw [← mem_outcomes_iff] at h
  rw [InboxRow.record, if_neg fun hmem => h (.inl hmem), if_neg fun hmem => h (.inr hmem)]

lemma record_of_mem (h : row.id ∈ outs.map (·.1)) : (row.record outs).status ≠ .pending := by
  rw [← mem_outcomes_iff] at h
  unfold InboxRow.record
  split_ifs with htrue hfalse
  · nofun
  · nofun
  · exact absurd h (not_or.mpr ⟨htrue, hfalse⟩)

lemma pendingRows_record : pendingRows (inbox.map (·.record outs)) =
    (pendingRows inbox).filter fun row => row.id ∉ outs.map (·.1) := by
  unfold pendingRows
  induction inbox with
  | nil => rfl
  | cons row inbox ih =>
    rw [map_cons, filter_cons, ih, filter_cons]
    by_cases hmem : row.id ∈ outs.map (·.1)
    · rw [if_neg (by simpa using record_of_mem hmem)]
      by_cases hpending : row.status = .pending
      · rw [if_pos (by simpa using hpending),
          filter_cons_of_neg (by rw [decide_eq_true_eq]; exact not_not_intro hmem)]
      · rw [if_neg (by simpa using hpending)]
    · rw [record_of_notMem hmem]
      by_cases hpending : row.status = .pending
      · rw [if_pos (by simpa using hpending), if_pos (by simpa using hpending),
          filter_cons_of_pos (by rw [decide_eq_true_eq]; exact hmem)]
      · rw [if_neg (by simpa using hpending), if_neg (by simpa using hpending)]

lemma filter_notMem_take (h : (rows.map (·.id)).Nodup) (n : ℕ) :
    (rows.filter fun row => row.id ∉ (rows.take n).map (·.id)) = rows.drop n := by
  obtain ⟨first, rest, hfirst, hrest, hrows⟩ : ∃ first rest,
      rows.take n = first ∧ rows.drop n = rest ∧ rows = first ++ rest :=
    ⟨_, _, rfl, rfl, (take_append_drop n rows).symm⟩
  rw [hrows, map_append, nodup_append] at h
  rw [hfirst, hrest, hrows, filter_append]
  have hnone : (first.filter fun row => row.id ∉ first.map (·.id)) = [] := by
    rw [filter_eq_nil_iff]
    intro row hrow
    simpa using ⟨row, hrow, rfl⟩
  have hall : (rest.filter fun row => row.id ∉ first.map (·.id)) = rest := by
    rw [filter_eq_self]
    intro row hrow
    rw [decide_eq_true_eq]
    exact fun hmem => h.2.2 _ hmem _ (List.mem_map_of_mem hrow) rfl
  rw [hnone, hall, nil_append]

lemma record_record (h : ∀ id ∈ outs.map (·.1), id ∉ outs'.map (·.1)) :
    (row.record outs).record outs' = row.record (outs ++ outs') := by
  by_cases hmem : row.id ∈ outs.map (·.1)
  · have hnot := h _ hmem
    rw [record_of_notMem (by rwa [id_record])]
    rw [← mem_outcomes_iff, not_or] at hnot
    unfold InboxRow.record
    simp [hnot.1, hnot.2]
  · rw [record_of_notMem hmem]
    rw [← mem_outcomes_iff, not_or] at hmem
    unfold InboxRow.record
    simp [hmem.1, hmem.2]

end Inbox

/-! ### Drains -/

/-- The staging tables after the first `n` pending rows were settled. -/
structure Progress (ref : Reference) (b : Books) (inbox : List InboxRow) (n : ℕ) (s : Staging) :
    Prop where
  le : n ≤ (pendingRows inbox).length
  tables : s.tables.Keeps (ref.postRows b ((pendingRows inbox).take n)).1
  inbox : s.inbox = inbox.map (·.record (ref.postRows b ((pendingRows inbox).take n)).2)

namespace Progress

variable {n : ℕ} {s : Staging}

lemma nodup_pending (hids : (inbox.map (·.id)).Pairwise (· < ·)) :
    ((pendingRows inbox).map (·.id)).Nodup :=
  (hids.sublist (filter_sublist.map _)).imp ne_of_lt

section

variable (h : Progress ref b inbox n s)
include h

lemma pendingRows_eq (hids : (inbox.map (·.id)).Pairwise (· < ·)) :
    pendingRows s.inbox = (pendingRows inbox).drop n := by
  rw [h.inbox, pendingRows_record, map_fst_postRows, filter_notMem_take (nodup_pending hids)]

lemma drain (hids : (inbox.map (·.id)).Pairwise (· < ·))
    (hclaim : ∀ row ∈ pendingRows inbox, row.postedAt.micros?.isSome) (limit : ℤ)
    (burned : ℤ → ℕ) :
    ∃ s', ref.ledgerStagingDrain limit burned s = some s' ∧
      Progress ref b inbox (min (n + (max limit 1).toNat) (pendingRows inbox).length) s' := by
  have hpending := h.pendingRows_eq hids
  set k := (max limit 1).toNat with hk
  have hbatch : ∀ row ∈ ((pendingRows inbox).drop n).take k, row.postedAt.micros?.isSome :=
    fun row hrow => hclaim row (mem_of_mem_drop (mem_of_mem_take hrow))
  obtain ⟨hkeeps, houts⟩ := settleAll_keeps burned
    (fun row hrow T b hT => ref.applyClaimed_rel (hbatch row hrow) hT) h.tables
  have htake : (pendingRows inbox).take (min (n + k) (pendingRows inbox).length) =
      (pendingRows inbox).take n ++ ((pendingRows inbox).drop n).take k := by
    rw [← take_eq_take_min, take_add]
  have hdrain : ref.ledgerStagingDrain limit burned s =
      some ⟨(settleAll ref.applyClaimed burned s.tables (((pendingRows inbox).drop n).take k)).1,
        s.inbox.map (·.record (settleAll ref.applyClaimed burned s.tables
          (((pendingRows inbox).drop n).take k)).2)⟩ := by
    unfold Reference.ledgerStagingDrain
    rw [hpending, ← hk]
    exact if_pos hbatch
  refine ⟨_, hdrain, ⟨min_le_right _ _, ?_, ?_⟩⟩
  · rw [htake, postRows_append]
    exact hkeeps
  · rw [h.inbox, htake, postRows_append, houts, List.map_map]
    refine map_congr_left fun row _ => record_record fun id hid hid' => ?_
    rw [map_fst_postRows] at hid hid'
    have hnodup := nodup_pending hids
    rw [← take_append_drop n (pendingRows inbox), map_append, nodup_append] at hnodup
    obtain ⟨r, hr, rfl⟩ := List.mem_map.mp hid'
    exact hnodup.2.2 _ hid _ (List.mem_map_of_mem (mem_of_mem_take hr)) rfl

lemma crash (burned : ℕ) :
    Progress ref b inbox n { s with tables := s.tables.burn burned } :=
  ⟨h.le, h.tables.burn burned, h.inbox⟩

theorem run (hids : (inbox.map (·.id)).Pairwise (· < ·))
    (hclaim : ∀ row ∈ pendingRows inbox, row.postedAt.micros?.isSome) (actions : List DrainAction) :
    ∃ m, min (n + actions.countP (·.commits)) (pendingRows inbox).length ≤ m ∧
      Progress ref b inbox m (Machine.run ref.drainExec? s actions) := by
  induction actions generalizing n s with
  | nil => exact ⟨n, by simp, h⟩
  | cons a actions ih =>
    rw [run_cons]
    cases a with
    | drain limit burned =>
      obtain ⟨s', hs', hprogress⟩ := h.drain hids hclaim limit burned
      have hexec : ref.drainExec? s (.drain limit burned) = some s' := hs'
      rw [step_of_some hexec]
      obtain ⟨m, hm, hrun⟩ := ih hprogress
      refine ⟨m, le_trans ?_ hm, hrun⟩
      have hlimit : 1 ≤ (max limit 1).toNat := by omega
      rw [countP_cons_of_pos rfl]
      omega
    | crash burned =>
      have hexec : ref.drainExec? s (.crash burned) =
          some { s with tables := s.tables.burn burned } := rfl
      rw [step_of_some hexec]
      obtain ⟨m, hm, hrun⟩ := ih (h.crash burned)
      exact ⟨m, by rwa [countP_cons_of_neg (by nofun)], hrun⟩

end

end Progress

/-! ### Drain equals direct -/

lemma LedgerTables.Keeps.same {T' : LedgerTables} (hT : T.Keeps b) (hT' : T'.Keeps b) :
    T.Same T' := by
  have hbooks := hT.books.trans hT'.books.symm
  exact LedgerTables.same_of_view hT.wellFormed hT'.wellFormed (congrArg Books.trx hbooks)
    (congrArg Books.pools hbooks)

def Reference.acceptedRows (ref : Reference) (T : LedgerTables) (rows : List InboxRow) :
    List InboxRow :=
  rows.filter fun row => (ref.directAll (fun _ => 0) T rows).2.contains (row.id, true)

/-- Draining the inbox is as good as submitting its rows. -/
structure DrainsAsDirect (ref : Reference) (T : LedgerTables) (inbox : List InboxRow) : Prop where
  settles : ∀ actions : List DrainAction,
    (pendingRows inbox).length ≤ actions.countP (·.commits) →
      (ref.runDrains T inbox actions).Settled
  agrees : ∀ actions, (ref.runDrains T inbox actions).Settled → ∀ burned,
    (ref.runDrains T inbox actions).tables.Same
        (ref.directAll burned T (pendingRows inbox)).1 ∧
      (ref.runDrains T inbox actions).inbox =
        inbox.map (·.record (ref.directAll burned T (pendingRows inbox)).2)
  traceless : ∀ actions, (ref.runDrains T inbox actions).Settled →
    ∃ T', (ref.acceptedRows T (pendingRows inbox)).foldlM
        (fun T row => ref.ledgerSubmitTrx row T) T =
        some T' ∧ (ref.runDrains T inbox actions).tables.Same T'

lemma directAll_keeps (ref : Reference) (hT : T.Keeps b) (burned : ℤ → ℕ) (rows : List InboxRow) :
    (ref.directAll burned T rows).1.Keeps (ref.postRows b rows).1 ∧
      (ref.directAll burned T rows).2 = (ref.postRows b rows).2 :=
  settleAll_keeps burned (fun _ _ _ _ h => Reference.ledgerSubmitTrx_rel h) hT

lemma foldlM_accepted (ref : Reference) (hids : (rows.map (·.id)).Nodup) (b : Books) :
    (rows.filter fun row => (row.id, true) ∈ (ref.postRows b rows).2).foldlM
        (fun b row => ref.postRow row b) b =
      some (ref.postRows b rows).1 := by
  induction rows generalizing b with
  | nil => rfl
  | cons row rows ih =>
    rw [map_cons, nodup_cons] at hids
    -- the outcomes of the other rows do not name this one
    have hrest : ∀ (b' : Books) (ok : Bool),
        (rows.filter fun r => (r.id, true) ∈ (row.id, ok) :: (ref.postRows b' rows).2) =
          rows.filter fun r => (r.id, true) ∈ (ref.postRows b' rows).2 := by
      intro b' ok
      refine filter_congr fun r hr => ?_
      have hne : r.id ≠ row.id := fun h => hids.1 (h ▸ List.mem_map_of_mem hr)
      simp [hne]
    have hother : ∀ b', (row.id, true) ∉ (ref.postRows b' rows).2 := fun b' hmem =>
      hids.1 (map_fst_postRows ref b' rows ▸ mem_outcomes_iff.mp (.inl hmem))
    rw [Reference.postRows]
    cases hrow : ref.postRow row b with
    | none =>
      rw [filter_cons_of_neg (by simpa using hother b), hrest, ih hids.2]
    | some b' =>
      rw [filter_cons_of_pos (by simp), hrest, foldlM_cons, hrow]
      exact ih hids.2 b'

lemma mem_inbox_run (ref : Reference) (T : LedgerTables)
    (hids : (inbox.map (·.id)).Pairwise (· < ·)) (hrow : row ∈ inbox)
    (hclaim : row.postedAt.micros? = none) (actions : List DrainAction) :
    row ∈ (ref.runDrains T inbox actions).inbox := by
  have hinv : ∀ s a s', ref.drainExec? s a = some s' →
      ((s.inbox.map InboxRow.id).Nodup ∧ row ∈ s.inbox) →
      ((s'.inbox.map InboxRow.id).Nodup ∧ row ∈ s'.inbox) := by
    rintro s (⟨limit, burned⟩ | burned) s' hexec ⟨hnodup, hmem⟩
    · simp only [Reference.drainExec?, Reference.ledgerStagingDrain] at hexec
      split_ifs at hexec with hread
      cases hexec
      constructor
      · rw [List.map_map]
        exact (map_congr_left fun r _ => id_record r _) ▸ hnodup
      · refine List.mem_map.mpr ⟨row, hmem, record_of_notMem ?_⟩
        rw [map_fst_settleAll]
        intro hid
        obtain ⟨r, hr, heq⟩ := List.mem_map.mp hid
        have hr' : r ∈ s.inbox := (mem_filter.mp (mem_of_mem_take hr)).1
        have hsame : r = row := inj_on_of_nodup_map hnodup hr' hmem heq
        have hsome := hread r hr
        rw [hsame, hclaim] at hsome
        cases hsome
    · cases hexec
      exact ⟨hnodup, hmem⟩
  have hstart : (inbox.map InboxRow.id).Nodup ∧ row ∈ inbox := ⟨hids.imp ne_of_lt, hrow⟩
  exact (run_invariant (P := fun s : Staging => (s.inbox.map InboxRow.id).Nodup ∧ row ∈ s.inbox)
    (s := ⟨T, inbox⟩) hinv hstart actions).2

/-- **Drain equals direct** iff the claim can read the posting time of every pending row. -/
theorem drainsAsDirect_iff {ref : Reference} {T : LedgerTables} {inbox : List InboxRow}
    (hT : T.WellFormed) (hthrottled : T.throttled = [])
    (hids : (inbox.map (·.id)).Pairwise (· < ·)) :
    DrainsAsDirect ref T inbox ↔
      ∀ row ∈ pendingRows inbox, row.postedAt.micros?.isSome := by
  constructor
  · -- a row that cannot be read is never settled
    intro h row hrow
    rw [Option.isSome_iff_ne_none]
    intro hclaim
    obtain ⟨hmem, hpending⟩ := mem_filter.mp hrow
    have hsettled := h.settles
      (List.replicate (pendingRows inbox).length (.drain 1 fun _ => 0))
      (by rw [countP_replicate]; simp [DrainAction.commits])
    have hstays := mem_inbox_run ref T hids hmem hclaim
      (List.replicate (pendingRows inbox).length (.drain 1 fun _ => 0))
    have hnil := filter_eq_nil_iff.mp hsettled row hstays
    exact hnil hpending
  · intro hclaim
    have hkeeps : T.Keeps T.books := ⟨hT, hthrottled, rfl⟩
    have hstart : Progress ref T.books inbox 0 ⟨T, inbox⟩ := by
      refine ⟨Nat.zero_le _, hkeeps, ?_⟩
      exact (List.map_id inbox).symm.trans
        (map_congr_left fun row _ => (record_of_notMem (by simp [Reference.postRows])).symm)
    have hrun : ∀ actions : List DrainAction,
        ∃ m, min (0 + actions.countP (·.commits)) (pendingRows inbox).length ≤ m ∧
          Progress ref T.books inbox m (ref.runDrains T inbox actions) :=
      fun actions => hstart.run hids hclaim actions
    -- once nothing is pending, all rows were settled
    have hall : ∀ actions, (ref.runDrains T inbox actions).Settled →
        (ref.runDrains T inbox actions).tables.Keeps
          (ref.postRows T.books (pendingRows inbox)).1 ∧
        (ref.runDrains T inbox actions).inbox =
          inbox.map (·.record (ref.postRows T.books (pendingRows inbox)).2) := by
      intro actions hsettled
      obtain ⟨m, -, hprogress⟩ := hrun actions
      have hdrop := hprogress.pendingRows_eq hids
      rw [show pendingRows _ = [] from hsettled, eq_comm, drop_eq_nil_iff] at hdrop
      have htake := take_of_length_le hdrop
      exact ⟨htake ▸ hprogress.tables, htake ▸ hprogress.inbox⟩
    refine ⟨fun actions hcount => ?_, fun actions hsettled burned => ?_, fun actions hsettled => ?_⟩
    · obtain ⟨m, hm, hprogress⟩ := hrun actions
      rw [Staging.Settled, hprogress.pendingRows_eq hids, drop_eq_nil_iff]
      omega
    · obtain ⟨htables, hinbox⟩ := hall actions hsettled
      obtain ⟨hdirect, houts⟩ := directAll_keeps ref hkeeps burned (pendingRows inbox)
      exact ⟨htables.same hdirect, houts ▸ hinbox⟩
    · obtain ⟨htables, -⟩ := hall actions hsettled
      have haccepted := foldlM_accepted ref (Progress.nodup_pending hids) T.books
      rw [← (directAll_keeps ref hkeeps (fun _ => 0) (pendingRows inbox)).2] at haccepted
      simp only [← contains_eq_mem] at haccepted
      have hrel : Option.Rel LedgerTables.Keeps
          ((ref.acceptedRows T (pendingRows inbox)).foldlM
            (fun T row => ref.ledgerSubmitTrx row T) T)
          ((ref.acceptedRows T (pendingRows inbox)).foldlM (fun b row => ref.postRow row b)
            T.books) :=
        foldlM_rel hkeeps fun row _ _ _ h => Reference.ledgerSubmitTrx_rel h
      rw [show (ref.acceptedRows T (pendingRows inbox)).foldlM (fun b row => ref.postRow row b)
        T.books = _ from haccepted] at hrel
      obtain ⟨T', hT', hkeeps'⟩ := exists_of_rel_right hrel
      exact ⟨T', hT', htables.same hkeeps'⟩

/-! ### Two inboxes -/

def oneLine (id sourceId : ℤ) (postedAt : Timestamp) (p : ℤ) (t : LineType) (qty unitCost : ℤ) :
    InboxRow :=
  ⟨id, .poReceipt, sourceId, postedAt, some [⟨p, some t, none, qty, unitCost⟩], .pending⟩

/-- A receipt dated `infinity` before one that is in order. -/
def endlessInbox : List InboxRow :=
  [oneLine 1 11 .infinite 4 .poReceiptLine 3 10, oneLine 2 12 (.finite 9) 4 .poReceiptLine 3 10]

/-- Submitted directly, the first row fails and the second is applied; the drain aborts, and nothing
is ever settled. -/
theorem drain_endlessInbox :
    (mixedRef.directAll (fun _ => 0) stocked (pendingRows endlessInbox)).2 =
      [(1, false), (2, true)] ∧
    (mixedRef.ledgerStagingDrain 10 (fun _ => 0) ⟨stocked, endlessInbox⟩).isNone ∧
    ¬ DrainsAsDirect mixedRef stocked endlessInbox := by
  refine ⟨by decide +kernel, by decide +kernel, fun h => ?_⟩
  have hsettled := h.settles [.drain 10 fun _ => 0, .drain 10 fun _ => 0] (by decide)
  have hids : (endlessInbox.map (·.id)).Pairwise (· < ·) := by decide
  have hstays := mem_inbox_run mixedRef stocked hids mem_cons_self rfl
    [.drain 10 fun _ => 0, .drain 10 fun _ => 0]
  exact filter_eq_nil_iff.mp hsettled _ hstays rfl

/-- A receipt, the same key again, a row that does not decode, a depletion of more than there is and
one of all there is. -/
def motleyInbox : List InboxRow :=
  [oneLine 1 11 (.finite 9) 4 .poReceiptLine 3 10, oneLine 2 11 (.finite 9) 4 .poReceiptLine 3 10,
    ⟨3, .poReceipt, 13, .finite 9, none, .pending⟩,
    oneLine 4 14 (.finite 9) 4 .transferShipmentLine (-4) 0,
    oneLine 5 15 (.finite 9) 4 .transferShipmentLine (-3) 0]

theorem drainsAsDirect_motleyInbox :
    (mixedRef.directAll (fun _ => 0) stocked (pendingRows motleyInbox)).2 =
      [(1, true), (2, false), (3, false), (4, false), (5, true)] ∧
    DrainsAsDirect mixedRef stocked motleyInbox :=
  ⟨by decide +kernel, (drainsAsDirect_iff stocked_wellFormed rfl (by decide)).mpr (by decide)⟩

end Acct.V32
