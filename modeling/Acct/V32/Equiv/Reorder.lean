import Acct.V32.Equiv.CorePhase

/-!
# Phases against submission order

`apply_submission` takes the STD and specific lines first and sorts the others by pool. Lines of one
pool keep their order, so in the end every book is as if the lines had been applied in submission
order (`keyedRun_phases`). What is left is the plan of the first phase, which fails for want of
layers where the single lines do not (`reorderInvisible_iff`).
-/

namespace Acct.V32

open Table Machine List Option

variable {sub : Submission} {lines : List TrxLineRequest} {p : ℤ}

/-! ### The journal -/

namespace LedgerTables

variable {T T' : LedgerTables}

lemma filter_journal (hT : T.WellFormed) (p : ℤ) :
    (T.journal.filter (·.1 = p)).map (·.2) = T.postingsOf p := by
  have hnodup : (T.trxLines.map (·.id)).Nodup := hT.increasing.imp ne_of_lt
  have hpostings := hT.postings
  unfold journal postingsOf
  generalize T.postingLines = rows at hpostings ⊢
  induction rows with
  | nil => rfl
  | cons r rows ih =>
    obtain ⟨line, hline, hid⟩ := List.mem_map.mp (hpostings r mem_cons_self)
    have hone : T.trxLines.filter (·.id = r.trxLineId) = [line] := by
      rw [← hid]
      exact filter_key_eq_singleton hnodup hline
    have hmem : r.trxLineId ∈ T.idsOf p ↔ line.poolId = p := by
      constructor
      · intro h
        obtain ⟨line', hline', hid'⟩ := List.mem_map.mp h
        obtain ⟨hmem', hpool'⟩ := mem_filter.mp hline'
        have := inj_on_of_nodup_map hnodup hmem' hline (hid'.trans hid.symm)
        exact this ▸ of_decide_eq_true hpool'
      · intro h
        rw [← hid]
        exact List.mem_map_of_mem (mem_filter.mpr ⟨hline, decide_eq_true h⟩)
    rw [flatMap_cons, filter_append, map_append,
      ih fun r hr => hpostings r (mem_cons_of_mem _ hr), hone, filter_cons]
    by_cases hp : line.poolId = p
    · simp [hp, hmem.mpr hp]
    · simp [hp, mt hmem.mp hp]

lemma same_of_view (hT : T.WellFormed) (hT' : T'.WellFormed) (htrx : T.trx = T'.trx)
    (hview : T.view = T'.view) : T.Same T' where
  trx := htrx
  view := hview
  journal := perm_of_filter_key fun p => by
    have hpostings : (T.view p).book.postings = (T'.view p).book.postings := by rw [hview]
    rw [filter_journal hT, filter_journal hT']
    exact hpostings

end LedgerTables

/-! ### Lines -/

lemma qty_ne_zero_of_mem_decoded (h : sub.decoded = some lines) : ∀ l ∈ lines, l.qty ≠ 0 := by
  intro l hl
  obtain ⟨jsons, -, hdecode⟩ := bind_eq_some_iff.mp h
  obtain ⟨j, hj, hjl⟩ := exists_of_forall₂_of_mem (forall₂_of_mapM_eq_some hdecode).flip hl
  obtain ⟨t, -, rfl⟩ := map_eq_some_iff.mp hjl
  simpa using (mem_filter.mp hj).2

namespace Reference

variable {ref : Reference} {T T₁ : LedgerTables} {enforceBackpressure : Bool}

def phases (ref : Reference) (lines : List TrxLineRequest) : List TrxLineRequest :=
  lines.filter (fun l => ref.isCore l.poolId) ++
    sortBy (·.poolId) (lines.filter fun l => ¬ ref.isCore l.poolId)

lemma filter_phases (ref : Reference) (lines : List TrxLineRequest) (p : ℤ) :
    (ref.phases lines).filter (·.poolId = p) = lines.filter (·.poolId = p) := by
  rw [phases, filter_append, filter_sortBy, List.filter_filter, List.filter_filter]
  cases hcore : ref.isCore p with
  | true =>
    have hsecond : lines.filter (fun l => decide (l.poolId = p) && decide ¬ ref.isCore l.poolId) =
        [] := by
      rw [filter_eq_nil_iff]
      intro l _ hl
      simp only [Bool.and_eq_true, decide_eq_true_eq] at hl
      exact hl.2 (hl.1 ▸ hcore)
    rw [hsecond, append_nil]
    refine filter_congr fun l _ => ?_
    by_cases hp : l.poolId = p <;> simp [hp, hcore]
  | false =>
    have hfirst : lines.filter (fun l => decide (l.poolId = p) && ref.isCore l.poolId) = [] := by
      rw [filter_eq_nil_iff]
      intro l _ hl
      simp only [Bool.and_eq_true, decide_eq_true_eq] at hl
      rw [hl.1, hcore] at hl
      cases hl.2
    rw [hfirst, nil_append]
    refine filter_congr fun l _ => ?_
    by_cases hp : l.poolId = p <;> simp [hp, hcore]

lemma keyedRun_phases (B : ℤ → PoolView) :
    keyedRun (·.poolId) (PoolView.post ref sub) B (ref.phases lines) =
      keyedRun (·.poolId) (PoolView.post ref sub) B lines :=
  keyedRun_congr fun p => filter_phases ref lines p

lemma mem_phases {l : TrxLineRequest} : l ∈ ref.phases lines ↔ l ∈ lines := by
  rw [phases, mem_append, mem_sortBy, mem_filter, mem_filter, ← and_or_left]
  simp

lemma depletions_filter (h : ref.isCore p = true) :
    depletions p (lines.filter fun l => ref.isCore l.poolId) = depletions p lines := by
  unfold depletions
  rw [countP_filter]
  refine countP_congr fun l _ => ?_
  simp only [Bool.and_eq_true, decide_eq_true_eq]
  exact ⟨And.left, fun hl => ⟨hl, hl.1 ▸ h⟩⟩

lemma isCore_of_specific (h : ((ref.tables T).pool p).map (·.method) = some .specific) :
    ref.isCore p = true := by
  unfold isCore
  rw [show (ref.pool p).map PoolRow.method = some .specific from h]

lemma covered_filter_isCore :
    (ref.tables T).Covered (lines.filter fun l => ref.isCore l.poolId) ↔
      (ref.tables T).Covered lines := by
  refine forall_congr' fun p => ?_
  constructor
  · intro h hmem hspecific
    have hcore := isCore_of_specific hspecific
    rw [← depletions_filter hcore]
    refine h ?_ hspecific
    obtain ⟨l, hl, rfl⟩ := List.mem_map.mp hmem
    exact List.mem_map_of_mem (mem_filter.mpr ⟨hl, hcore⟩)
  · intro h hmem hspecific
    rw [depletions_filter (isCore_of_specific hspecific)]
    obtain ⟨l, hl, rfl⟩ := List.mem_map.mp hmem
    exact h (List.mem_map_of_mem (mem_filter.mp hl).1) hspecific

lemma foldlM_core_eq (T : LedgerTables) :
    (lines.filter fun l => ref.isCore l.poolId).foldlM
      (fun T l => ref.corePhase applyOneByOne sub T [l]) T =
    (lines.filter fun l => ref.isCore l.poolId).foldlM (ref.applyLine applyOneByOne sub) T :=
  foldlM_congr fun T l hl => by rw [applyLine, if_pos (mem_filter.mp hl).2]

lemma foldlM_cte_eq (T : LedgerTables) :
    (sortBy (·.poolId) (lines.filter fun l => ¬ ref.isCore l.poolId)).foldlM
      (ref.dispatchCteLine sub) T =
    (sortBy (·.poolId) (lines.filter fun l => ¬ ref.isCore l.poolId)).foldlM
      (ref.applyLine applyOneByOne sub) T := by
  refine foldlM_congr fun T l hl => ?_
  have hnot := of_decide_eq_true (mem_filter.mp (mem_sortBy.mp hl)).2
  rw [applyLine, if_neg hnot]

lemma apply_eq (hT1 : T₁.WellFormed)
    (hopen : ref.openTrx sub enforceBackpressure T = some (T₁, lines))
    (hqty : ∀ l ∈ lines, l.qty ≠ 0) :
    ref.apply applyOneByOne sub enforceBackpressure T =
      if (ref.tables T₁).Covered lines then
        (ref.phases lines).foldlM (ref.applyLine applyOneByOne sub) T₁
      else none := by
  rw [apply, hopen]
  simp only [bind_eq_bind, bind_some]
  rw [corePhase_eq hT1 fun l hl => hqty l (mem_filter.mp hl).1, foldlM_core_eq]
  by_cases hcovered : (ref.tables T₁).Covered lines
  · rw [if_pos hcovered, if_pos (covered_filter_isCore.mpr hcovered), phases, foldlM_append]
    simp only [foldlM_cte_eq]
    rfl
  · rw [if_neg hcovered, if_neg (mt covered_filter_isCore.mp hcovered)]
    rfl

/-! ### The transaction -/

lemma openTrx_eq_some (h : ref.openTrx sub enforceBackpressure T = some (T₁, lines)) :
    sub.decoded = some lines ∧
      T₁ = { T with trx := T.trx ++ [⟨sub.trxType, sub.sourceId, sub.postedAt⟩] } := by
  obtain ⟨lines', hlines, h⟩ := bind_eq_some_iff.mp h
  split_ifs at h
  obtain ⟨T', hT', h⟩ := map_eq_some_iff.mp h
  cases h
  unfold LedgerTables.insertTrx at hT'
  split_ifs at hT'
  exact ⟨hlines, (some.inj hT').symm⟩

/-- **In any order of the phases.** The lines of an opened transaction, in submission order or by
phases, are posted to the books. -/
theorem foldlM_applyLine_rel (ref : Reference) (sub : Submission) {trx : List TrxRow}
    {throttled : List ℤ} {B : ℤ → PoolView}
    (hqty : ∀ l ∈ lines, l.qty ≠ 0) (hT : T.Shows trx throttled B) :
    Option.Rel (fun T' => T'.Shows trx throttled)
      (lines.foldlM (ref.applyLine applyOneByOne sub) T)
      (keyedRun (·.poolId) (PoolView.post ref sub) B lines) :=
  foldlM_rel hT fun l hl _ _ h => applyLine_rel (hqty l hl) h

lemma shows_openTrx (hT : T.WellFormed)
    (h : ref.openTrx sub enforceBackpressure T = some (T₁, lines)) :
    T₁.Shows T₁.trx T.throttled T.view := by
  obtain ⟨-, rfl⟩ := openTrx_eq_some h
  exact ⟨⟨hT.increasing, hT.drawn, hT.seq_nonneg, hT.layers, hT.sources, hT.postings⟩,
    rfl, rfl, rfl⟩

/-- The phases of `apply_submission` are as good as the submission order: they accept the same, they
leave the same tables up to the identity values, and nothing on failure. -/
structure ReorderInvisible (ref : Reference) (sub : Submission) (enforceBackpressure : Bool)
    (T : LedgerTables) : Prop where
  accepts : (∃ T', ref.apply applyOneByOne sub enforceBackpressure T = some T') ↔
    ∃ T', ref.inOrder applyOneByOne sub enforceBackpressure T = some T'
  same : ∀ T' T'', ref.apply applyOneByOne sub enforceBackpressure T = some T' →
    ref.inOrder applyOneByOne sub enforceBackpressure T = some T'' → T'.Same T''
  unchanged : ref.apply applyOneByOne sub enforceBackpressure T = none →
    ref.submitTrx applyOneByOne sub enforceBackpressure T = T

/-- **Submission reordering is invisible** iff no specific pool of the submission has more
depletions than layers, or the submission is not even accepted line by line. -/
theorem reorderInvisible_iff {ref : Reference} {sub : Submission} {enforceBackpressure : Bool}
    {T : LedgerTables} (hT : T.WellFormed) :
    ref.ReorderInvisible sub enforceBackpressure T ↔
      (∀ lines, sub.decoded = some lines → (ref.tables T).Covered lines) ∨
        ref.inOrder applyOneByOne sub enforceBackpressure T = none := by
  have hunchanged : ref.apply applyOneByOne sub enforceBackpressure T = none →
      ref.submitTrx applyOneByOne sub enforceBackpressure T = T := by
    intro h
    rw [submitTrx, h]
    rfl
  cases hopen : ref.openTrx sub enforceBackpressure T with
  | none =>
    have happly : ref.apply applyOneByOne sub enforceBackpressure T = none := by
      rw [apply, hopen]
      rfl
    have hinOrder : ref.inOrder applyOneByOne sub enforceBackpressure T = none := by
      rw [inOrder, hopen]
      rfl
    exact iff_of_true ⟨by rw [happly, hinOrder], by rw [happly]; nofun, hunchanged⟩
      (.inr hinOrder)
  | some opened =>
    obtain ⟨T₁, lines⟩ := opened
    obtain ⟨hdecoded, -⟩ := openTrx_eq_some hopen
    have hqty := qty_ne_zero_of_mem_decoded hdecoded
    have hshows := shows_openTrx hT hopen
    have hcovered : (ref.tables T₁).Covered lines ↔
        ∀ lines, sub.decoded = some lines → (ref.tables T).Covered lines := by
      obtain ⟨-, rfl⟩ := openTrx_eq_some hopen
      rw [hdecoded]
      exact ⟨fun h lines' heq => some.inj heq ▸ h, fun h => h lines rfl⟩
    have hinOrder : ref.inOrder applyOneByOne sub enforceBackpressure T =
        lines.foldlM (ref.applyLine applyOneByOne sub) T₁ := by
      rw [inOrder, hopen]
      rfl
    rw [← hcovered]
    by_cases h : (ref.tables T₁).Covered lines
    · -- both orders are answered by the same run of the books
      have happly := apply_eq hshows.wellFormed hopen hqty
      rw [if_pos h] at happly
      have hphases : ∀ l ∈ ref.phases lines, l.qty ≠ 0 := fun l hl => hqty l (mem_phases.mp hl)
      have hrel := foldlM_applyLine_rel ref sub hphases hshows
      rw [keyedRun_phases, ← happly] at hrel
      have hrel' := foldlM_applyLine_rel ref sub hqty hshows
      rw [← hinOrder] at hrel'
      refine iff_of_true ⟨?_, fun T' T'' hT' hT'' => ?_, hunchanged⟩ (.inl h)
      · rw [← isSome_iff_exists, ← isSome_iff_exists, isSome_eq_of_rel hrel, isSome_eq_of_rel hrel']
      · obtain ⟨B, hB, hshow⟩ := exists_of_rel hrel hT'
        obtain ⟨B', hB', hshow'⟩ := exists_of_rel hrel' hT''
        obtain rfl := some.inj (hB.symm.trans hB')
        exact LedgerTables.same_of_view hshow.wellFormed hshow'.wellFormed
          (hshow.trx.trans hshow'.trx.symm) (hshow.view.trans hshow'.view.symm)
    · -- the plan fails
      have happly := apply_eq hshows.wellFormed hopen hqty
      rw [if_neg h] at happly
      simp only [h, false_or]
      constructor
      · intro hinv
        rw [eq_none_iff_forall_ne_some]
        intro T' hT'
        obtain ⟨T'', hT''⟩ := hinv.accepts.mpr ⟨T', hT'⟩
        rw [happly] at hT''
        cases hT''
      · intro hnone
        exact ⟨by rw [happly, hnone], by rw [happly]; nofun, hunchanged⟩

end Reference

/-! ### Two submissions -/

/-- Pool 1 is STD at a standard cost of 10, pools 2 and 3 are specific, pool 4 is WAC and pool 5
FIFO. -/
def mixedRef : Reference where
  pool p :=
    if p = 1 then some ⟨.std, 1, 1⟩
    else if p = 2 ∨ p = 3 then some ⟨.specific, 1, 1⟩
    else if p = 4 then some ⟨.wac, 1, 1⟩
    else if p = 5 then some ⟨.fifo, 1, 1⟩
    else none
  standardBasis _ := false
  standardCost k := if k = (1, 1) then some 10 else none
  postingAccountMap _ := some ⟨(1, 2), (1, 2), (1, 2), (1, 2), (1, 2), (1, 2), some 3⟩
  periods := .empty

/-- Pool 2 holds the unit received by line 4. -/
def stocked : LedgerTables where
  trx := [⟨.poReceipt, 1, 7⟩]
  trxLines := [⟨4, (.poReceipt, 1), 2, .poReceiptLine, none, 1, 30, none, 7⟩]
  trxLineSeq := 4
  poolState := storeRoom.poolState
  postingLines := [⟨4, receiptLeg (1, 2) 30, 7⟩]
  throttled := []

lemma stocked_wellFormed : stocked.WellFormed where
  increasing := by decide
  drawn := by decide
  seq_nonneg := by decide
  layers p l hl := by
    have hrow : (p, l) ∈ stocked.poolState.rows :=
      KeyedTable.get?_self_iff.mp (mem_layersOf.mp hl).1
    have hnamed : ∀ x ∈ stocked.poolState.rows, 0 < x.2.layerId →
        x.2.layerId ∈ stocked.idsOf x.1 := by decide
    exact hnamed _ hrow (mem_layersOf.mp hl).2
  sources := by decide
  postings := by decide

def moving (lines : List (ℤ × LineType × ℤ × ℤ)) : Submission where
  trxType := .transferReceipt
  sourceId := 2
  postedAt := 9
  lines := some (lines.map fun (p, t, q, c) => ⟨p, some t, none, q, c⟩)
  ids := []

/-- A unit put into pool 3 and taken out again. -/
def passing : Submission :=
  moving [(3, .transferReceiptLine, 1, 30), (3, .transferShipmentLine, -1, 0)]

/-- Line by line the submission is accepted, but the plan of the first phase fails. -/
theorem apply_passing :
    stocked.WellFormed ∧
    mixedRef.apply applyOneByOne passing true stocked = none ∧
    (mixedRef.inOrder applyOneByOne passing true stocked).isSome ∧
    ¬ mixedRef.ReorderInvisible passing true stocked := by
  have happly : (mixedRef.apply applyOneByOne passing true stocked).isNone := by decide +kernel
  have hinOrder : (mixedRef.inOrder applyOneByOne passing true stocked).isSome := by decide +kernel
  rw [isNone_iff_eq_none] at happly
  refine ⟨stocked_wellFormed, happly, hinOrder, fun h => ?_⟩
  obtain ⟨T', hT'⟩ := h.accepts.mpr (isSome_iff_exists.mp hinOrder)
  exact absurd (happly.symm.trans hT') nofun

def crossed : List (ℤ × LineType × ℤ × ℤ) :=
  [(5, .poReceiptLine, 2, 7), (4, .poReceiptLine, 3, 10), (2, .transferShipmentLine, -1, 0),
    (1, .poReceiptLine, 5, 12), (4, .transferShipmentLine, -2, 0), (2, .transferReceiptLine, 1, 40),
    (1, .transferShipmentLine, -1, 0)]

theorem reorderInvisible_mixed :
    (mixedRef.inOrder applyOneByOne (moving crossed) true stocked).isSome ∧
    mixedRef.ReorderInvisible (moving crossed) true stocked :=
  ⟨by decide +kernel, (Reference.reorderInvisible_iff stocked_wellFormed).mpr (.inl (by
      intro lines hlines
      obtain rfl := some.inj hlines
      decide +kernel))⟩

end Acct.V32
