import Acct.V32.Equiv.Reorder

/-!
# The books of a ledger

The abstract ledger is the `trx` rows and the book of every pool, without identity values. On it a
submission is one check and then its lines posted in order (`Reference.postAll`).
`apply_submission` on the tables does the same to their books (`apply_rel`).
-/

namespace Acct.V32

open Table Machine Option List

variable {trx : List TrxRow} {throttled : List ℤ} {B : ℤ → PoolView}

structure Books where
  trx : List TrxRow
  pools : ℤ → PoolView

def LedgerTables.books (T : LedgerTables) : Books := ⟨T.trx, T.view⟩

structure LedgerTables.Keeps (T : LedgerTables) (b : Books) : Prop where
  wellFormed : T.WellFormed
  unthrottled : T.throttled = []
  books : T.books = b

def Reference.CoveredBooks (ref : Reference) (b : Books) (lines : List TrxLineRequest) : Prop :=
  ∀ p ∈ lines.map (·.poolId), (ref.pool p).map (·.method) = some .specific →
    depletions p lines ≤ (b.pools p).book.openLayers.length
  deriving Decidable

def Reference.corePools (ref : Reference) (lines : List TrxLineRequest) : List ℤ :=
  (lines.filter fun l => ref.isCore l.poolId).map (·.poolId)

def Reference.postAll (ref : Reference) (sub : Submission) (b : Books) : Option Books := do
  let lines ← sub.decoded
  if (∀ l ∈ lines, ref.isConfigured l.poolId) ∧ InTextRange sub.postedAt ∧
      sub.KeyFree b.trx ∧ (ref.corePools lines).Nodup ∧ ref.CoveredBooks b lines then
    (keyedRun (·.poolId) (PoolView.post ref sub) b.pools lines).map
      (⟨b.trx ++ [⟨sub.trxType, sub.sourceId, sub.postedAt⟩], ·⟩)
  else none

namespace LedgerTables

variable {T : LedgerTables}

lemma openLayers_bookOf (hT : T.WellFormed) (p : ℤ) :
    (T.bookOf p).openLayers = (layersOf T.poolState p).map (·.amounts) := by
  have hnamed := hT.namedAfter p
  have hsub : ((layersOf T.poolState p).map (·.layerId)).Sublist ((T.linesOf p).map (·.id)) :=
    sublist_of_subset (pairwise_map.mpr hnamed.sorted) hnamed.increasing
      fun id hid => by
        obtain ⟨l, hl, rfl⟩ := mem_map.mp hid
        exact hnamed.named l hl
  have hjoin := filterMap_find?_eq hsub (hnamed.increasing.imp ne_of_lt)
  conv_rhs => rw [← hjoin]
  rw [PoolBook.openLayers, bookOf, filterMap_map, map_filterMap]
  rfl

lemma WellFormed.get?_eq_none (hT : T.WellFormed) {p id : ℤ} (hid : T.trxLineSeq < id) :
    T.poolState.get? (p, id) = none := by
  rw [eq_none_iff_forall_ne_some]
  rintro ⟨p', l⟩ hget
  obtain ⟨hrow, hkey⟩ := T.poolState.get?_eq_some_iff.mp hget
  obtain ⟨rfl, rfl⟩ := Prod.mk.inj hkey
  have hpos := hT.seq_nonneg.trans_lt hid
  have hlt := hT.layer_lt l (mem_layersOf.mpr ⟨hget, hpos⟩)
  dsimp only at hid
  omega

lemma Shows.of_sameRows (h : T.Shows trx throttled B) {t : PoolState}
    (ht : t.SameRows T.poolState) : { T with poolState := t }.Shows trx throttled B := by
  have hlayers : ∀ p, layersOf t p = layersOf T.poolState p := fun p =>
    layersOf_congr fun _ => KeyedTable.get?_congr ht _
  have haggregate : ∀ p, aggregateOf t p = aggregateOf T.poolState p := fun p =>
    aggregateOf_congr fun _ => KeyedTable.get?_congr ht _
  obtain ⟨hT, htrx, hthrottled, rfl⟩ := h
  refine ⟨⟨hT.increasing, hT.drawn, hT.seq_nonneg, fun p l hl => ?_, hT.sources, hT.postings⟩,
    htrx, hthrottled, ?_⟩
  · exact hT.layers p l (hlayers p ▸ hl)
  · funext p
    unfold LedgerTables.view bookOf bookLine
    rw [hlayers, haggregate]
    rfl

end LedgerTables

namespace Reference

variable {ref : Reference} {sub : Submission} {T : LedgerTables} {lines : List TrxLineRequest}

lemma movedPools_eq (hqty : ∀ l ∈ lines, l.qty ≠ 0) : movedPools lines = lines.map (·.poolId) := by
  rw [movedPools, filter_eq_self.mpr (by simpa using hqty)]

/-- The bulk write of a plan: rejected if it names a pool twice, and otherwise as good as its
mutations one by one. -/
lemma applyPoolStateMutations_rel (sub : Submission) (hT : T.WellFormed) {es : List Effect}
    (hqty : ∀ l ∈ lines, l.qty ≠ 0)
    (hes : effects ((ref.tables T).hydrateSnapshot (lines.map (·.poolId))) lines = some es) :
    Option.Rel (fun t t' : PoolState => t.SameRows t')
      (applyPoolStateMutations T.poolState (planOf sub.postedAt es).poolStateMutations
        (idsFrom T.trxLineSeq es.length))
      (if (lines.map (·.poolId)).Nodup then
        applyOneByOne T.poolState (planOf sub.postedAt es).poolStateMutations
          (idsFrom T.trxLineSeq es.length)
      else none) := by
  have hplan : planApply ((ref.tables T).hydrateSnapshot (lines.map (·.poolId))) lines
      sub.postedAt = .ok (planOf sub.postedAt es) := by
    rw [← toOption_eq_some, planApply_toOption hqty, hes, map_some]
  have hlength : 0 + (planOf sub.postedAt es).trxLines.length ≤
      (idsFrom T.trxLineSeq es.length).length := by
    rw [trxLines_planOf, length_map, length_idsFrom, zero_add]
  -- the writes, of which those of one pool name one key twice
  obtain ⟨ws, hws, hfor⟩ := (planApply_planned hplan).writesFor hlength
    fun id hid => hT.seq_nonneg.trans_lt (lt_of_mem_idsFrom hid)
  rw [movedPools_eq hqty] at hfor
  unfold applyPoolStateMutations applyOneByOne
  rw [hws]
  simp only [bind_eq_bind, bind_some]
  by_cases hnodup : (lines.map (·.poolId)).Nodup
  · have hkeys := hfor.nodup hnodup
    have hfree : ∀ r, .insert r ∈ ws → T.poolState.get? (r.1, r.2.layerId) = none :=
      fun r hr => hT.get?_eq_none (lt_of_mem_idsFrom (hfor.inserts r hr))
    obtain ⟨t, ht⟩ := (KeyedTable.exists_applyAll?_iff hkeys).mpr hfree
    obtain ⟨t1, t2, ht1, ht2, hsame⟩ := KeyedTable.exists_batches hkeys ht
    rw [if_pos hnodup, ht, ht1, bind_some, ht2]
    exact .some hsame
  · have hupserts : ¬ ((ws.filterMap Write.upsertRow?).map fun r => (r.1, r.2.layerId)).Nodup := by
      rw [hfor.upserts]
      exact fun h => hnodup (h.of_map _)
    rw [if_neg hnodup, KeyedTable.upsertBatch?, if_neg hupserts]
    exact .none

lemma corePhase_bulk_rel (ref : Reference) (sub : Submission) (hT : T.WellFormed)
    (hqty : ∀ l ∈ lines, l.qty ≠ 0) :
    Option.Rel (fun T' T'' => ∃ t, t.SameRows T''.poolState ∧ T' = { T'' with poolState := t })
      (ref.corePhase applyPoolStateMutations sub T lines)
      (if (lines.map (·.poolId)).Nodup then ref.corePhase applyOneByOne sub T lines else none) := by
  by_cases hne : lines = []
  · subst hne
    rw [map_nil, if_pos nodup_nil]
    exact .some ⟨T.poolState, fun _ => Iff.rfl, rfl⟩
  rw [corePhase_eq_effects hne hqty, corePhase_eq_effects hne hqty]
  cases hes : effects ((ref.tables T).hydrateSnapshot (lines.map (·.poolId))) lines with
  | none =>
    rw [bind_none, bind_none, ite_self]
    exact .none
  | some es =>
    have hrel := applyPoolStateMutations_rel sub hT hqty hes
    rw [bind_some, bind_some]
    by_cases haccepted : ∀ e ∈ es, e.output.Accepted (T.trxLines.map (·.id)) ∧
        PeriodGuardAdmits ref.periods.rows sub.postedAt
    · rw [if_pos haccepted, if_pos haccepted]
      by_cases hnodup : (lines.map (·.poolId)).Nodup
      · rw [if_pos hnodup] at hrel ⊢
        exact rel_map hrel fun t t' h => ⟨t, h, rfl⟩
      · rw [if_neg hnodup] at hrel ⊢
        exact rel_map (g := writeEffects sub T es) hrel fun t t' h => ⟨t, h, rfl⟩
    · rw [if_neg haccepted, if_neg haccepted, ite_self]
      exact .none

def Plannable (ref : Reference) (T : LedgerTables) (lines : List TrxLineRequest) : Prop :=
  (ref.corePools lines).Nodup ∧ (ref.tables T).Covered lines
  deriving Decidable

lemma corePhase_shows (hqty : ∀ l ∈ lines, l.qty ≠ 0) (hT : T.Shows trx throttled B) :
    Option.Rel (fun T' => T'.Shows trx throttled)
      (ref.corePhase applyPoolStateMutations sub T (lines.filter fun l => ref.isCore l.poolId))
      (if ref.Plannable T lines then
        keyedRun (·.poolId) (PoolView.post ref sub) B (lines.filter fun l => ref.isCore l.poolId)
      else none) := by
  have hcoreQty : ∀ l ∈ lines.filter fun l => ref.isCore l.poolId, l.qty ≠ 0 :=
    fun l hl => hqty l (mem_filter.mp hl).1
  have hbulk := corePhase_bulk_rel ref sub hT.wellFormed hcoreQty
  rw [corePhase_eq hT.wellFormed hcoreQty, foldlM_core_eq] at hbulk
  simp only [covered_filter_isCore, ← ite_and] at hbulk
  by_cases hplannable : ref.Plannable T lines
  · have hgate : ((lines.filter fun l => ref.isCore l.poolId).map (·.poolId)).Nodup ∧
        (ref.tables T).Covered lines := hplannable
    rw [if_pos hgate] at hbulk
    rw [if_pos hplannable]
    refine rel_trans hbulk (foldlM_applyLine_rel ref sub hcoreQty hT) ?_
    rintro _ T'' B' ⟨t, ht, rfl⟩ hshow
    exact hshow.of_sameRows ht
  · have hgate : ¬ (((lines.filter fun l => ref.isCore l.poolId).map (·.poolId)).Nodup ∧
        (ref.tables T).Covered lines) := hplannable
    rw [if_neg hgate] at hbulk
    rw [if_neg hplannable, eq_none_of_rel hbulk]
    exact .none

lemma phases_shows (ref : Reference) (sub : Submission) (hqty : ∀ l ∈ lines, l.qty ≠ 0)
    (hT : T.Shows trx throttled B) :
    Option.Rel (fun T' => T'.Shows trx throttled)
      ((ref.corePhase applyPoolStateMutations sub T
        (lines.filter fun l => ref.isCore l.poolId)).bind fun T' =>
          (sortBy (·.poolId) (lines.filter fun l => ¬ ref.isCore l.poolId)).foldlM
            (ref.dispatchCteLine sub) T')
      (if ref.Plannable T lines then keyedRun (·.poolId) (PoolView.post ref sub) B lines
      else none) := by
  have hcteQty : ∀ l ∈ sortBy (·.poolId) (lines.filter fun l => ¬ ref.isCore l.poolId), l.qty ≠ 0 :=
    fun l hl => hqty l (mem_filter.mp (mem_sortBy.mp hl)).1
  have hsplit : (if ref.Plannable T lines then keyedRun (·.poolId) (PoolView.post ref sub) B lines
      else none) =
      (if ref.Plannable T lines then
        keyedRun (·.poolId) (PoolView.post ref sub) B (lines.filter fun l => ref.isCore l.poolId)
      else none).bind fun B' => keyedRun (·.poolId) (PoolView.post ref sub) B'
        (sortBy (·.poolId) (lines.filter fun l => ¬ ref.isCore l.poolId)) := by
    by_cases hplannable : ref.Plannable T lines
    · rw [if_pos hplannable, if_pos hplannable, ← keyedRun_phases B, phases, keyedRun,
        foldlM_append]
      rfl
    · rw [if_neg hplannable, if_neg hplannable]
      rfl
  rw [hsplit]
  refine rel_bind (corePhase_shows hqty hT) fun T' B' hT' => ?_
  rw [foldlM_cte_eq]
  exact foldlM_applyLine_rel ref sub hcteQty hT'

/-- **`apply_submission` on the books.** -/
theorem apply_rel {b : Books} (enforceBackpressure : Bool) (hT : T.Keeps b) :
    Option.Rel LedgerTables.Keeps
      (ref.apply applyPoolStateMutations sub enforceBackpressure T) (ref.postAll sub b) := by
  obtain ⟨hwf, hunthrottled, rfl⟩ := hT
  unfold apply postAll openTrx
  cases hdecoded : sub.decoded with
  | none => exact .none
  | some lines =>
    have hqty := qty_ne_zero_of_mem_decoded hdecoded
    have hcovered : (ref.tables T).Covered lines ↔ ref.CoveredBooks T.books lines := by
      refine forall₃_congr fun p _ _ => ?_
      rw [show (T.books.pools p).book = T.bookOf p from rfl, LedgerTables.openLayers_bookOf hwf,
        length_map]
      rfl
    have hprobe : ¬ (enforceBackpressure = true ∧ ∃ l ∈ lines, l.poolId ∈ T.throttled) := by
      simp [hunthrottled]
    simp only [bind_eq_bind, bind_some, if_neg hprobe]
    by_cases hopened : (∀ l ∈ lines, ref.isConfigured l.poolId) ∧ InTextRange sub.postedAt ∧
        sub.KeyFree T.trx
    · obtain ⟨hconfigured, hinsert⟩ := hopened
      obtain ⟨T1, hT1⟩ : ∃ T1 : LedgerTables,
          T1 = { T with trx := T.trx ++ [⟨sub.trxType, sub.sourceId, sub.postedAt⟩] } := ⟨_, rfl⟩
      have hshows : T1.Shows (T.trx ++ [⟨sub.trxType, sub.sourceId, sub.postedAt⟩]) [] T.view := by
        rw [hT1]
        exact ⟨⟨hwf.increasing, hwf.drawn, hwf.seq_nonneg, hwf.layers, hwf.sources, hwf.postings⟩,
          rfl, hunthrottled, rfl⟩
      have hplannable : ref.Plannable T1 lines ↔ (ref.corePools lines).Nodup ∧
          ref.CoveredBooks T.books lines := by
        rw [← hcovered, hT1]
        rfl
      have hkeeps : ∀ (T' : LedgerTables) B,
          T'.Shows (T.trx ++ [⟨sub.trxType, sub.sourceId, sub.postedAt⟩]) [] B →
          T'.Keeps ⟨T.trx ++ [⟨sub.trxType, sub.sourceId, sub.postedAt⟩], B⟩ :=
        fun T' B h => ⟨h.wellFormed, h.throttled, congrArg₂ Books.mk h.trx h.view⟩
      have hrel := rel_map_right (phases_shows ref sub hqty hshows) hkeeps
      rw [if_pos hconfigured, LedgerTables.insertTrx, if_pos hinsert, ← hT1, map_some, bind_some]
      by_cases hgate : ref.Plannable T1 lines
      · obtain ⟨hnodup, henough⟩ := hplannable.mp hgate
        rw [if_pos hgate] at hrel
        rw [if_pos ⟨hconfigured, hinsert.1, hinsert.2, hnodup, henough⟩]
        exact hrel
      · rw [if_neg hgate] at hrel
        rw [if_neg fun h => hgate (hplannable.mpr h.2.2.2)]
        exact hrel
    · have hnone : ¬ ((∀ l ∈ lines, ref.isConfigured l.poolId) ∧ InTextRange sub.postedAt ∧
          sub.KeyFree T.books.trx ∧ (ref.corePools lines).Nodup ∧
          ref.CoveredBooks T.books lines) := fun h => hopened ⟨h.1, h.2.1, h.2.2.1⟩
      rw [if_neg hnone]
      by_cases hconfigured : ∀ l ∈ lines, ref.isConfigured l.poolId
      · rw [if_pos hconfigured, LedgerTables.insertTrx, if_neg fun h => hopened ⟨hconfigured, h⟩]
        exact .none
      · rw [if_neg hconfigured]
        exact .none

end Reference

end Acct.V32
