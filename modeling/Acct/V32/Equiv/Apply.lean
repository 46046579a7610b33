import Acct.Machine.Keyed
import Acct.Machine.Simulation
import Acct.V32.Direct.Apply
import Acct.V32.Equiv.Specific
import Acct.V32.Spi.Equiv.Split

/-!
# Lines on the tables and in the books

In well-formed tables the view of a pool is its book: a line written under the next identity value
is the line recorded in the book (`view_append`), and applying a line to the tables is posting it to
the book of its pool (`applyLine_rel`).
-/

namespace Acct.V32

open Table Machine List

/-! ### Layers beside the lines they are named after -/

section Layers

variable {layers : List PoolStateRow} {rows : List TrxLineRow} {f : TrxLineRow → BookLine} {id : ℤ}
  {l : PoolStateRow}

def layerAt (layers : List PoolStateRow) (id : ℤ) : Option Aggregate :=
  (layers.find? (·.layerId = id)).map (·.amounts)

lemma layerAt_eq_none (h : ∀ l ∈ layers, l.layerId ≠ id) : layerAt layers id = none := by
  rw [layerAt, List.find?_eq_none.mpr (by simpa using h), Option.map_none]

lemma layerAt_cons_of_ne (h : l.layerId ≠ id) :
    layerAt (l :: layers) id = layerAt layers id := by
  rw [layerAt, List.find?_cons_of_neg (by simpa using h), layerAt]

lemma layerAt_cons_self (l : PoolStateRow) : layerAt (l :: layers) l.layerId = some l.amounts := by
  rw [layerAt, List.find?_cons_of_pos (by simp), Option.map_some]

lemma layerAt_append_of_ne (h : l.layerId ≠ id) :
    layerAt (layers ++ [l]) id = layerAt layers id := by
  unfold layerAt
  rw [List.find?_append, List.find?_cons_of_neg (by simpa using h)]
  simp

lemma layerAt_append_self (h : ∀ l' ∈ layers, l'.layerId ≠ l.layerId) :
    layerAt (layers ++ [l]) l.layerId = some l.amounts := by
  unfold layerAt
  rw [List.find?_append, List.find?_eq_none.mpr (by simpa using h)]
  simp

structure NamedAfter (layers : List PoolStateRow) (rows : List TrxLineRow) : Prop where
  increasing : (rows.map (·.id)).Pairwise (· < ·)
  sorted : layers.Pairwise (·.layerId < ·.layerId)
  named : ∀ l ∈ layers, l.layerId ∈ rows.map (·.id)

lemma NamedAfter.of_cons {r : TrxLineRow} (h : NamedAfter layers (r :: rows))
    (hr : ∀ l ∈ layers.head?, l.layerId ≠ r.id) :
    NamedAfter layers rows ∧ ∀ l ∈ layers, r.id < l.layerId := by
  have hrows := pairwise_cons.mp h.increasing
  cases layers with
  | nil => exact ⟨⟨hrows.2, h.sorted, nofun⟩, nofun⟩
  | cons l layers =>
    have hlayers := pairwise_cons.mp h.sorted
    have hlt : r.id < l.layerId := by
      have hmem := h.named l mem_cons_self
      rw [map_cons, mem_cons] at hmem
      exact hrows.1 _ (hmem.resolve_left (hr l rfl))
    have hall : ∀ l' ∈ l :: layers, r.id < l'.layerId := by
      intro l' hl'
      rcases mem_cons.mp hl' with rfl | hl'
      · exact hlt
      · exact hlt.trans (hlayers.1 l' hl')
    refine ⟨⟨hrows.2, h.sorted, fun l' hl' => ?_⟩, hall⟩
    have hmem := h.named l' hl'
    rw [map_cons, mem_cons] at hmem
    exact hmem.resolve_left (hall l' hl').ne'

lemma NamedAfter.lowest (h : NamedAfter layers rows)
    (hf : ∀ r ∈ rows, (f r).layer = layerAt layers r.id) :
    (rows.map f).findSome? (·.layer) = layers.head?.map (·.amounts) ∧
    (rows.map f).findIdx? (·.layer.isSome) =
      layers.head?.map (fun l => (rows.map (·.id)).idxOf l.layerId) ∧
    closeLowest (rows.map f) =
      rows.map fun r => { f r with layer := layerAt layers.tail r.id } := by
  induction rows with
  | nil =>
    cases layers with
    | nil => exact ⟨rfl, rfl, rfl⟩
    | cons l layers => exact absurd (h.named l mem_cons_self) (by simp)
  | cons r rows ih =>
    have hlayer := hf r mem_cons_self
    have hrest : ∀ r' ∈ rows, (f r').layer = layerAt layers r'.id :=
      fun r' hr' => hf r' (mem_cons_of_mem _ hr')
    by_cases hr : ∀ l ∈ layers.head?, l.layerId ≠ r.id
    · -- the first line has no layer
      obtain ⟨hnamed, hlt⟩ := h.of_cons hr
      obtain ⟨hsome, hidx, hclose⟩ := ih hnamed hrest
      have hnone : (f r).layer = none := hlayer.trans (layerAt_eq_none fun l hl => (hlt l hl).ne')
      have htail : layerAt layers.tail r.id = none :=
        layerAt_eq_none fun l hl => (hlt l (mem_of_mem_tail hl)).ne'
      refine ⟨?_, ?_, ?_⟩
      · rw [map_cons, List.findSome?_cons, hnone, hsome]
      · rw [map_cons, List.findIdx?_cons, hnone, hidx]
        cases layers with
        | nil => rfl
        | cons l layers =>
          have hne : r.id ≠ l.layerId := (hlt l mem_cons_self).ne
          simp [idxOf_cons_ne _ hne]
      · rw [map_cons, closeLowest, hnone, hclose, map_cons, htail]
        simp [← hnone]
    · -- it has the first layer
      push Not at hr
      obtain ⟨l, hl, hid⟩ := hr
      cases layers with
      | nil => cases hl
      | cons l' layers =>
        obtain rfl : l' = l := by simpa using hl
        have hlayers := pairwise_cons.mp h.sorted
        have hrows := pairwise_cons.mp h.increasing
        have hsome : (f r).layer = some l'.amounts := by
          rw [hlayer, ← hid, layerAt_cons_self]
        refine ⟨?_, ?_, ?_⟩
        · rw [map_cons, List.findSome?_cons, hsome]
          rfl
        · rw [map_cons, List.findIdx?_cons, hsome]
          simp [hid]
        · rw [map_cons, closeLowest, hsome, map_cons]
          have htail : layerAt layers r.id = none :=
            layerAt_eq_none fun l hl => by rw [← hid]; exact (hlayers.1 l hl).ne'
          simp only [Option.isSome_some, if_true, tail_cons, htail, List.cons.injEq, true_and]
          refine map_congr_left fun r' hr' => ?_
          have hne : l'.layerId ≠ r'.id := by
            rw [hid]
            exact (hrows.1 _ (List.mem_map_of_mem hr')).ne
          rw [← layerAt_cons_of_ne hne, ← hrest r' hr']

end Layers

/-! ### Well-formed tables -/

namespace LedgerTables

variable (T : LedgerTables)

/-- What the writers of these tables maintain: lines are stored under identity values, layers and
sources are named after lines of the same pool, postings after lines. -/
structure WellFormed : Prop where
  increasing : (T.trxLines.map (·.id)).Pairwise (· < ·)
  drawn : ∀ r ∈ T.trxLines, 0 < r.id ∧ r.id ≤ T.trxLineSeq
  seq_nonneg : 0 ≤ T.trxLineSeq
  layers : ∀ p, ∀ l ∈ layersOf T.poolState p, l.layerId ∈ T.idsOf p
  sources : ∀ r ∈ T.trxLines, ∀ id ∈ r.sourceTrxLineId, id ∈ T.idsOf r.poolId
  postings : ∀ r ∈ T.postingLines, r.trxLineId ∈ T.trxLines.map (·.id)

/-- The tables after one line with the outcome `o`. -/
def append (sub : Submission) (line : TrxLineRequest) (o : Outcome) (t : PoolState) :
    LedgerTables :=
  T.write sub
    [line.output o.unitCost (o.source ((layersOf T.poolState line.poolId).head?.map (·.layerId)))] t
    (o.legs.map (⟨T.trxLineSeq + 1, ·, sub.postedAt⟩))

variable {T}

namespace WellFormed

variable {p id : ℤ}

section

variable (hT : T.WellFormed)
include hT

lemma mem_idsOf (h : id ∈ T.idsOf p) :
    0 < id ∧ id ≤ T.trxLineSeq ∧ id ∈ T.trxLines.map (·.id) := by
  obtain ⟨r, hr, rfl⟩ := List.mem_map.mp h
  have hmem := (mem_filter.mp hr).1
  exact ⟨(hT.drawn r hmem).1, (hT.drawn r hmem).2, List.mem_map_of_mem hmem⟩

lemma next_notMem : T.trxLineSeq + 1 ∉ T.idsOf p := by
  intro h
  have := hT.mem_idsOf h
  omega

lemma namedAfter (p : ℤ) :
    NamedAfter (layersOf T.poolState p) (T.linesOf p) where
  increasing := hT.increasing.sublist (filter_sublist.map _)
  sorted := pairwise_layersOf T.poolState p
  named := hT.layers p

lemma layer_lt :
    ∀ l ∈ layersOf T.poolState p, l.layerId < T.trxLineSeq + 1 := by
  intro l hl
  have := hT.mem_idsOf (hT.layers p l hl)
  omega

lemma exists_record (p : ℤ) (o : Outcome) :
    ∃ t, recordState? T.poolState p (T.trxLineSeq + 1) o = some t ∧
      Recorded T.poolState t p (T.trxLineSeq + 1) o :=
  exists_recordState? o (by have := hT.seq_nonneg; omega) hT.layer_lt

end

end WellFormed

/-! ### Books -/

section Books

variable (hT : T.WellFormed) (p : ℤ)
include hT

lemma lowest?_bookOf : (T.bookOf p).lowest? = (layersOf T.poolState p).head?.map (·.amounts) :=
  ((hT.namedAfter p).lowest fun _ _ => rfl).1

lemma lowestPlace?_bookOf :
    (T.bookOf p).lowestPlace? = (layersOf T.poolState p).head?.map fun l => T.place p l.layerId :=
  ((hT.namedAfter p).lowest fun _ _ => rfl).2.1

lemma closeLowest_bookOf : closeLowest (T.bookOf p).lines =
    (T.linesOf p).map fun r =>
      { T.bookLine p r with layer := layerAt (layersOf T.poolState p).tail r.id } :=
  ((hT.namedAfter p).lowest fun _ _ => rfl).2.2

end Books

section Append

variable {sub : Submission} {line : TrxLineRequest} {o : Outcome} {t : PoolState} {p : ℤ}

def newRow (T : LedgerTables) (sub : Submission) (line : TrxLineRequest) (o : Outcome) :
    TrxLineRow :=
  sub.lineRow (T.trxLineSeq + 1)
    (line.output o.unitCost (o.source ((layersOf T.poolState line.poolId).head?.map (·.layerId))))

lemma trxLines_append :
    (T.append sub line o t).trxLines = T.trxLines ++ [T.newRow sub line o] := rfl

lemma linesOf_append_self :
    (T.append sub line o t).linesOf line.poolId =
      T.linesOf line.poolId ++ [T.newRow sub line o] := by
  rw [linesOf, trxLines_append, filter_append, ← linesOf]
  congr 1
  simp [newRow, Submission.lineRow, TrxLineRequest.output]

lemma linesOf_append_of_ne (hp : p ≠ line.poolId) :
    (T.append sub line o t).linesOf p = T.linesOf p := by
  rw [linesOf, trxLines_append, filter_append, ← linesOf]
  simp [newRow, Submission.lineRow, TrxLineRequest.output, hp.symm]

lemma idsOf_append_self :
    (T.append sub line o t).idsOf line.poolId = T.idsOf line.poolId ++ [T.trxLineSeq + 1] := by
  rw [idsOf, linesOf_append_self, map_append, idsOf]
  rfl

lemma idsOf_append_of_ne (hp : p ≠ line.poolId) :
    (T.append sub line o t).idsOf p = T.idsOf p := by
  rw [idsOf, linesOf_append_of_ne hp, idsOf]

lemma place_append_self {id : ℤ} (h : id ∈ T.idsOf line.poolId) :
    (T.append sub line o t).place line.poolId id = T.place line.poolId id := by
  rw [place, idsOf_append_self, idxOf_append_of_mem h, place]

lemma place_append_new (hT : T.WellFormed) :
    (T.append sub line o t).place line.poolId (T.trxLineSeq + 1) =
      (T.linesOf line.poolId).length := by
  rw [place, idsOf_append_self, idxOf_append_of_notMem hT.next_notMem]
  simp [idsOf]

lemma place_append_of_ne (hp : p ≠ line.poolId) (id : ℤ) :
    (T.append sub line o t).place p id = T.place p id := by
  rw [place, idsOf_append_of_ne hp, place]

section

variable (hT : T.WellFormed)
include hT

lemma postingsOf_append_self :
    (T.append sub line o t).postingsOf line.poolId =
      T.postingsOf line.poolId ++
        o.legs.map (·.request (T.linesOf line.poolId).length sub.postedAt) := by
  have hpostings : (T.append sub line o t).postingLines =
      T.postingLines ++ o.legs.map (⟨T.trxLineSeq + 1, ·, sub.postedAt⟩) := rfl
  unfold postingsOf
  rw [hpostings, filter_append, map_append, idsOf_append_self]
  congr 1
  · have hfilter : T.postingLines.filter (fun r =>
        r.trxLineId ∈ T.idsOf line.poolId ++ [T.trxLineSeq + 1]) =
        T.postingLines.filter fun r => r.trxLineId ∈ T.idsOf line.poolId := by
      refine filter_congr fun r hr => ?_
      obtain ⟨r', hr', heq⟩ := List.mem_map.mp (hT.postings r hr)
      have := (hT.drawn r' hr').2
      have hne : r.trxLineId ≠ T.trxLineSeq + 1 := by omega
      simp [hne]
    rw [hfilter]
    refine map_congr_left fun r hr => ?_
    rw [place_append_self (of_decide_eq_true (mem_filter.mp hr).2)]
  · rw [filter_eq_self.mpr (by simp), List.map_map]
    refine map_congr_left fun leg _ => ?_
    rw [Function.comp_apply, place_append_new hT]

lemma postingsOf_append_of_ne (hp : p ≠ line.poolId) :
    (T.append sub line o t).postingsOf p = T.postingsOf p := by
  have hpostings : (T.append sub line o t).postingLines =
      T.postingLines ++ o.legs.map (⟨T.trxLineSeq + 1, ·, sub.postedAt⟩) := rfl
  unfold postingsOf
  rw [hpostings, filter_append, idsOf_append_of_ne hp]
  have hnone : (o.legs.map (⟨T.trxLineSeq + 1, ·, sub.postedAt⟩ : Leg → PostingLineRow)).filter
      (fun r => r.trxLineId ∈ T.idsOf p) = [] := by
    rw [filter_eq_nil_iff]
    intro r hr
    obtain ⟨leg, -, rfl⟩ := List.mem_map.mp hr
    simpa using hT.next_notMem
  rw [hnone, append_nil]
  simp only [place_append_of_ne hp]

lemma bookLine_append {r : TrxLineRow} (hr : r ∈ T.linesOf line.poolId) :
    (T.append sub line o t).bookLine line.poolId r =
      { T.bookLine line.poolId r with layer := layerAt (layersOf t line.poolId) r.id } := by
  obtain ⟨hmem, hpool⟩ := mem_filter.mp hr
  have hsource : r.sourceTrxLineId.map ((T.append sub line o t).place line.poolId) =
      r.sourceTrxLineId.map (T.place line.poolId) := by
    refine Option.map_congr fun id hid => place_append_self ?_
    exact of_decide_eq_true hpool ▸ hT.sources r hmem id hid
  unfold bookLine
  rw [hsource]
  rfl

lemma bookLine_append_new (ht : Recorded T.poolState t line.poolId (T.trxLineSeq + 1) o) :
    (T.append sub line o t).bookLine line.poolId (T.newRow sub line o) =
      (T.bookOf line.poolId).row line sub.postedAt o := by
  have hfresh : layerAt (layersOf T.poolState line.poolId) (T.trxLineSeq + 1) = none :=
    layerAt_eq_none fun l hl => (hT.layer_lt l hl).ne
  have hplace : ((layersOf T.poolState line.poolId).head?.map (·.layerId)).map
      ((T.append sub line o t).place line.poolId) = (T.bookOf line.poolId).lowestPlace? := by
    rw [lowestPlace?_bookOf hT, Option.map_map]
    refine Option.map_congr fun l hl => ?_
    exact place_append_self (hT.layers _ l (mem_of_mem_head? hl))
  have hlayer : layerAt (layersOf t line.poolId) (T.trxLineSeq + 1) =
      ((T.bookOf line.poolId).row line sub.postedAt o).layer := by
    rw [ht.layers, PoolBook.row]
    cases o.layers with
    | unchanged => exact hfresh
    | opened qty unitCost valueSum =>
      exact layerAt_append_self fun l hl => (hT.layer_lt l hl).ne
    | consumed =>
      exact layerAt_eq_none fun l hl => (hT.layer_lt l (mem_of_mem_tail hl)).ne
  have hsource : (o.source ((layersOf T.poolState line.poolId).head?.map (·.layerId))).map
      ((T.append sub line o t).place line.poolId) =
      if o.layers = .consumed then (T.bookOf line.poolId).lowestPlace? else none := by
    unfold Outcome.source
    cases o.layers with
    | consumed => exact hplace
    | unchanged | opened => rfl
  unfold bookLine PoolBook.row
  congr 1

theorem view_append (ht : Recorded T.poolState t line.poolId (T.trxLineSeq + 1) o) :
    (T.append sub line o t).view = Function.update T.view line.poolId
      ⟨(T.bookOf line.poolId).record line sub.postedAt o,
        (T.view line.poolId).trxs ++ [sub.key]⟩ := by
  funext p
  by_cases hp : p = line.poolId
  · subst hp
    rw [Function.update_self]
    have hlines : (T.linesOf line.poolId).map ((T.append sub line o t).bookLine line.poolId) =
        if o.layers = .consumed then closeLowest (T.bookOf line.poolId).lines
        else (T.bookOf line.poolId).lines := by
      rw [map_congr_left fun r hr => bookLine_append hT hr, ht.layers]
      cases hchange : o.layers with
      | unchanged => rfl
      | opened qty unitCost valueSum =>
        rw [if_neg nofun]
        refine map_congr_left fun r hr => ?_
        have hne : T.trxLineSeq + 1 ≠ r.id := by
          have := (hT.drawn r (mem_filter.mp hr).1).2
          omega
        rw [LayerChange.layers, layerAt_append_of_ne hne]
        rfl
      | consumed =>
        rw [if_pos rfl, closeLowest_bookOf hT]
        rfl
    have hbook : (T.append sub line o t).bookOf line.poolId =
        (T.bookOf line.poolId).record line sub.postedAt o := by
      have haggregate :
          (aggregateOf (T.append sub line o t).poolState line.poolId).map (·.amounts) =
          some o.aggregate := by
        rw [show (T.append sub line o t).poolState = t from rfl, ht.aggregate]
        rfl
      have hlength : (T.bookOf line.poolId).lines.length = (T.linesOf line.poolId).length :=
        length_map _
      rw [bookOf, haggregate, linesOf_append_self, map_append, hlines, map_singleton,
        bookLine_append_new hT ht, postingsOf_append_self hT, PoolBook.record, hlength]
      rfl
    rw [view, hbook, linesOf_append_self, map_append]
    rfl
  · rw [Function.update_of_ne hp]
    have hlayers : layersOf (T.append sub line o t).poolState p = layersOf T.poolState p :=
      ht.layers_of_ne p hp
    have haggregate : aggregateOf (T.append sub line o t).poolState p = aggregateOf T.poolState p :=
      ht.aggregate_of_ne p hp
    have hline : (T.append sub line o t).bookLine p = T.bookLine p := by
      funext r
      unfold bookLine
      rw [hlayers, funext (place_append_of_ne hp)]
    rw [view, bookOf, linesOf_append_of_ne hp, haggregate, hline, postingsOf_append_of_ne hT hp]
    rfl

theorem WellFormed.append (ht : Recorded T.poolState t line.poolId (T.trxLineSeq + 1) o) :
    (T.append sub line o t).WellFormed := by
  have hlines : (T.append sub line o t).trxLines = T.trxLines ++ [T.newRow sub line o] := rfl
  have hseq : (T.append sub line o t).trxLineSeq = T.trxLineSeq + 1 := rfl
  have hids : ∀ p, T.idsOf p ⊆ (T.append sub line o t).idsOf p := by
    intro p id hid
    by_cases hp : p = line.poolId
    · subst hp
      rw [idsOf_append_self]
      exact mem_append_left _ hid
    · rw [idsOf_append_of_ne hp]
      exact hid
  have hnew : T.trxLineSeq + 1 ∈ (T.append sub line o t).idsOf line.poolId := by
    rw [idsOf_append_self]
    simp
  constructor
  · rw [hlines, map_append, pairwise_append]
    refine ⟨hT.increasing, pairwise_singleton _ _, fun id hid id' hid' => ?_⟩
    obtain ⟨r, hr, rfl⟩ := List.mem_map.mp hid
    obtain rfl := mem_singleton.mp hid'
    exact Int.lt_add_one_iff.mpr (hT.drawn r hr).2
  · intro r hr
    rw [hlines, mem_append, mem_singleton] at hr
    rw [hseq]
    rcases hr with hr | rfl
    · have := hT.drawn r hr
      omega
    · have := hT.seq_nonneg
      exact ⟨by simp only [newRow, Submission.lineRow]; omega, le_rfl⟩
  · have := hT.seq_nonneg
    omega
  · intro p l hl
    have hstate : (T.append sub line o t).poolState = t := rfl
    rw [hstate] at hl
    by_cases hp : p = line.poolId
    · subst hp
      rw [ht.layers] at hl
      cases hchange : o.layers with
      | unchanged =>
        rw [hchange] at hl
        exact hids _ (hT.layers _ l hl)
      | opened qty unitCost valueSum =>
        rw [hchange, LayerChange.layers, mem_append, mem_singleton] at hl
        rcases hl with hl | rfl
        · exact hids _ (hT.layers _ l hl)
        · exact hnew
      | consumed =>
        rw [hchange] at hl
        exact hids _ (hT.layers _ l (mem_of_mem_tail hl))
    · rw [ht.layers_of_ne p hp] at hl
      exact hids _ (hT.layers p l hl)
  · intro r hr id hid
    rw [hlines, mem_append, mem_singleton] at hr
    rcases hr with hr | rfl
    · exact hids _ (hT.sources r hr id hid)
    · refine hids _ ?_
      have hsource : id ∈ o.source ((layersOf T.poolState line.poolId).head?.map (·.layerId)) := hid
      unfold Outcome.source at hsource
      cases hchange : o.layers with
      | consumed =>
        rw [hchange] at hsource
        obtain ⟨l, hl, rfl⟩ := Option.map_eq_some_iff.mp hsource
        exact hT.layers _ l (mem_of_mem_head? hl)
      | unchanged | opened =>
        rw [hchange] at hsource
        cases hsource
  · intro r hr
    have hpostings : (T.append sub line o t).postingLines =
        T.postingLines ++ o.legs.map (⟨T.trxLineSeq + 1, ·, sub.postedAt⟩) := rfl
    rw [hpostings, mem_append] at hr
    rw [hlines, map_append, mem_append]
    rcases hr with hr | hr
    · exact .inl (hT.postings r hr)
    · obtain ⟨leg, -, rfl⟩ := List.mem_map.mp hr
      exact .inr (mem_singleton_self _)

end

end Append

end LedgerTables

end Acct.V32
