import Acct.Queue.Units
import Acct.Rounding.OfRat
import Acct.V32.Core.Equiv.Strict

/-!
# The strict fold is a queue of units

Said one unit at a time: a receipt puts its units at the back, and a depletion takes its units one
by one from the front (FIFO) or from the back (LIFO). A unit that is not there is costed at the
depletion's observed cost, and the authoritative cost is the average, rounded half to even
(`unitFold`).

A lot remembers which layer it came from by the order in which the layers came in, so that two
layers with one id stay two layers; the walk's runs are then the maximal runs of the lots
(`regroup_expand`), and the walk over layers is `serveRuns` (`walkLayers_runs`).
-/

namespace Acct.V32

open Queue Rounding List

variable {runs : List (UnitLot × ℕ)} {next : ℕ} {evs : List StrictEvent} {ls : List StrictLayer}

/-! ### The unit-level fold -/

structure UnitLot where
  entry : ℕ
  layerId : ℤ
  unitCost : ℤ
  deriving DecidableEq

def runLayer (run : UnitLot × ℕ) : StrictLayer := ⟨run.1.layerId, run.2, run.1.unitCost⟩

def runDraw (run : UnitLot × ℕ) : LayerDraw := ⟨run.1.layerId, run.2, run.1.unitCost⟩

def openingRuns (opening : List StrictLayer) : List (UnitLot × ℕ) :=
  opening.zipIdx.map fun l => (⟨l.2, l.1.layerId, l.1.unitCost⟩, l.1.qty.toNat)

def unitValue (served : List UnitLot) (missing : ℕ) (observed : ℤ) : ℤ :=
  (served.map (·.unitCost)).sum + missing * observed

def unitDepletion (newestFirst : Bool) (lots : List UnitLot) (ev : StrictEvent) :
    DepletionCosting × List UnitLot :=
  let qty := ev.qty.natAbs
  let served := (serve newestFirst qty lots).1
  let missing := qty - served.length
  (⟨ev.trxLineId, qty, ev.unitCost, roundHalfEven (unitValue served missing ev.unitCost / qty),
    missing, (regroup served).map runDraw⟩, (serve newestFirst qty lots).2)

/-- The unit-level fold from the lots in stock; `next` numbers the next layer to come in. -/
def unitFoldFrom (newestFirst : Bool) :
    ℕ → List UnitLot → List StrictEvent → StrictFoldOutput
  | _, lots, [] => ⟨[], (regroup lots).map runLayer⟩
  | next, lots, ev :: events =>
    if ev.qty > 0 then
      unitFoldFrom newestFirst (next + 1)
        (lots ++ List.replicate ev.qty.toNat ⟨next, ev.trxLineId, ev.unitCost⟩) events
    else
      let dep := unitDepletion newestFirst lots ev
      let out := unitFoldFrom newestFirst next dep.2 events
      { out with costings := dep.1 :: out.costings }

/-- The unit-level queue (stack, if `newestFirst`). -/
def unitFold (newestFirst : Bool) (opening : List StrictLayer) (events : List StrictEvent) :
    StrictFoldOutput :=
  unitFoldFrom newestFirst opening.length (expand (openingRuns opening)) events

/-! ### The walk over runs -/

lemma walkLayers_zero (ls : List StrictLayer) : walkLayers ls 0 = ⟨[], ls, 0⟩ := by
  cases ls <;> simp [walkLayers]

lemma serveRuns_zero {α : Type*} (runs : List (α × ℕ)) : serveRuns runs 0 = ([], runs) := by
  cases runs <;> simp [serveRuns]

lemma walkLayers_runs (hpos : ∀ r ∈ runs, 0 < r.2) (k : ℕ) :
    walkLayers (runs.map runLayer) k =
      ⟨(serveRuns runs k).1.map runDraw, (serveRuns runs k).2.map runLayer,
        k - (((serveRuns runs k).1.map Prod.snd).sum : ℕ)⟩ := by
  induction runs generalizing k with
  | nil => simp [walkLayers, serveRuns]
  | cons run runs ih =>
    obtain ⟨lot, n⟩ := run
    have hn : 0 < n := hpos _ mem_cons_self
    have hrest := ih fun r hr => hpos r (mem_cons_of_mem _ hr)
    rcases Nat.eq_zero_or_pos k with rfl | hk
    · simp [walkLayers_zero, serveRuns_zero]
    · have hk0 : ¬ k = 0 := by omega
      have hkpos : (k : ℤ) > 0 := by omega
      by_cases hlt : k < n
      · -- The layer covers all that remains.
        have hmin : min (k : ℤ) n = k := by omega
        have hne : ¬ (n : ℤ) - k = 0 := by omega
        have hsub : ((n - k : ℕ) : ℤ) = n - k := by omega
        simp only [map_cons, runLayer, walkLayers, hkpos, if_true, hmin, hne, if_false,
          serveRuns, hk0, hlt, map_nil, runDraw, sum_cons, sum_nil, hsub]
        simp
      · -- The layer is used up and the walk goes on.
        have hmin : min (k : ℤ) n = n := by omega
        have hsub : (k : ℤ) - n = ((k - n : ℕ) : ℤ) := by omega
        simp only [map_cons, runLayer, walkLayers, hkpos, if_true, hmin, sub_self, hsub,
          hrest, serveRuns, hk0, if_false, hlt, runDraw, sum_cons]
        congr 1
        omega

structure Grouped (runs : List (UnitLot × ℕ)) (next : ℕ) : Prop where
  pos : ∀ r ∈ runs, 0 < r.2
  keys : (runs.map Prod.fst).Nodup
  entry_lt : ∀ r ∈ runs, r.1.entry < next
  cost : ∀ r ∈ runs, InI64 r.1.unitCost

lemma Grouped.of_sublist {runs' : List (UnitLot × ℕ)} (h : Grouped runs next)
    (hkeys : (runs'.map Prod.fst).Sublist (runs.map Prod.fst)) (hpos : ∀ r ∈ runs', 0 < r.2) :
    Grouped runs' next := by
  have hmem : ∀ r ∈ runs', ∃ s ∈ runs, s.1 = r.1 := fun r hr =>
    List.mem_map.mp (hkeys.subset (List.mem_map_of_mem hr))
  refine ⟨hpos, hkeys.nodup h.keys, fun r hr => ?_, fun r hr => ?_⟩
  · obtain ⟨s, hs, heq⟩ := hmem r hr
    exact heq ▸ h.entry_lt s hs
  · obtain ⟨s, hs, heq⟩ := hmem r hr
    exact heq ▸ h.cost s hs

lemma Grouped.regroup (h : Grouped runs next) :
    regroup (expand runs) = runs := regroup_expand h.pos h.keys

lemma Grouped.append {n : ℕ} {id cost : ℤ} (h : Grouped runs next) (hn : 0 < n)
    (hcost : InI64 cost) :
    Grouped (runs ++ [(⟨next, id, cost⟩, n)]) (next + 1) := by
  have hmem : ∀ r ∈ runs ++ [(⟨next, id, cost⟩, n)], r ∈ runs ∨ r = (⟨next, id, cost⟩, n) := by
    intro r hr
    simpa using hr
  refine ⟨fun r hr => ?_, ?_, fun r hr => ?_, fun r hr => ?_⟩
  · rcases hmem r hr with hr | rfl
    · exact h.pos r hr
    · exact hn
  · rw [map_append, nodup_append]
    refine ⟨h.keys, nodup_singleton _, ?_⟩
    rintro lot hlot lot' hlot' rfl
    obtain ⟨r, hr, rfl⟩ := List.mem_map.mp hlot
    have heq : r.1 = ⟨next, id, cost⟩ := by simpa using hlot'
    have hlt : r.1.entry < next := h.entry_lt r hr
    rw [heq] at hlt
    exact lt_irrefl _ hlt
  · rcases hmem r hr with hr | rfl
    · exact (h.entry_lt r hr).trans (Nat.lt_succ_self _)
    · exact Nat.lt_succ_self _
  · rcases hmem r hr with hr | rfl
    · exact h.cost r hr
    · exact hcost

/-- Serving from either end of grouped runs: the runs served and the runs left, of which both the
walk over layers and the service unit by unit are views. -/
lemma Grouped.exists_serve (h : Grouped runs next) (newestFirst : Bool) (k : ℕ) :
    ∃ drawn left, Grouped drawn next ∧ Grouped left next ∧
      serve newestFirst k (expand runs) = (expand drawn, expand left) ∧
      (expand drawn).length ≤ k ∧
      walkDeque newestFirst (runs.map runLayer) k =
        ⟨drawn.map runDraw, left.map runLayer, k - ((expand drawn).length : ℤ)⟩ := by
  cases newestFirst with
  | false =>
    obtain ⟨hkd, hkl⟩ := serveRuns_keys runs k
    obtain ⟨hpd, hpl⟩ := serveRuns_pos k h.pos
    refine ⟨_, _, h.of_sublist hkd hpd, h.of_sublist hkl hpl, serve_expand runs k, ?_, ?_⟩
    · rw [length_expand]
      exact sum_serveRuns_le runs k
    · rw [length_expand]
      exact walkLayers_runs h.pos k
  | true =>
    -- Everything is done to the reversed queue, and what is left is turned round again.
    have hpos : ∀ r ∈ runs.reverse, 0 < r.2 := fun r hr => h.pos r (mem_reverse.mp hr)
    have hrev : Grouped runs.reverse next :=
      ⟨hpos, by rw [map_reverse]; exact nodup_reverse.mpr h.keys,
        fun r hr => h.entry_lt r (mem_reverse.mp hr),
        fun r hr => h.cost r (mem_reverse.mp hr)⟩
    obtain ⟨hkd, hkl⟩ := serveRuns_keys runs.reverse k
    obtain ⟨hpd, hpl⟩ := serveRuns_pos k hpos
    have hleft := hrev.of_sublist hkl hpl
    refine ⟨(serveRuns runs.reverse k).1, (serveRuns runs.reverse k).2.reverse,
      hrev.of_sublist hkd hpd, ⟨?_, ?_, ?_, ?_⟩, ?_, ?_, ?_⟩
    · exact fun r hr => hleft.pos r (mem_reverse.mp hr)
    · rw [map_reverse]
      exact nodup_reverse.mpr hleft.keys
    · exact fun r hr => hleft.entry_lt r (mem_reverse.mp hr)
    · exact fun r hr => hleft.cost r (mem_reverse.mp hr)
    · have hback := serve_back k (expand runs.reverse)
      rw [expand_reverse, reverse_reverse, serve_expand] at hback
      rw [hback, expand_reverse]
    · rw [length_expand]
      exact sum_serveRuns_le runs.reverse k
    · have hwalk := walkLayers_runs hpos k
      rw [map_reverse] at hwalk
      rw [length_expand]
      simp [walkDeque, hwalk]

/-! ### One depletion -/

/-- A sum of `i64` costs lies between that many times the ends of the range. -/
lemma sum_cost_bounds {lots : List UnitLot} (h : ∀ lot ∈ lots, InI64 lot.unitCost) :
    lots.length * -2 ^ 63 ≤ (lots.map (·.unitCost)).sum ∧
      (lots.map (·.unitCost)).sum ≤ lots.length * (2 ^ 63 - 1) := by
  induction lots with
  | nil => simp
  | cons lot lots ih =>
    obtain ⟨hlo, hhi⟩ := ih fun x hx => h x (mem_cons_of_mem _ hx)
    obtain ⟨h1, h2⟩ := h lot mem_cons_self
    simp only [map_cons, sum_cons, length_cons, Nat.cast_add, Nat.cast_one]
    constructor <;> linarith

lemma drawValue_runs (runs : List (UnitLot × ℕ)) :
    drawValue (runs.map runDraw) = ((expand runs).map (·.unitCost)).sum := by
  induction runs with
  | nil => rfl
  | cons run runs ih =>
    rw [drawValue, List.map_map] at ih ⊢
    simp [runDraw, ih]

/-- **`banker_div` of a value within the range of its units** is the rounded average. -/
lemma bankerDiv_of_bounds {v q : ℤ} (hq : 0 < q) (hq' : q < 2 ^ 63) (hlo : q * -2 ^ 63 ≤ v)
    (hhi : v ≤ q * (2 ^ 63 - 1)) : bankerDiv v q = some (roundHalfEven (v / q)) := by
  have hI128 : InI128 v := by
    unfold InI128
    omega
  have hqQ : (0 : ℚ) < q := by exact_mod_cast hq
  have hloQ : ((-2 ^ 63 : ℤ) : ℚ) ≤ v / q := by
    rw [le_div_iff₀ hqQ, mul_comm]
    exact_mod_cast hlo
  have hhiQ : (v : ℚ) / q ≤ ((2 ^ 63 - 1 : ℤ) : ℚ) := by
    rw [div_le_iff₀ hqQ, mul_comm]
    exact_mod_cast hhi
  obtain ⟨h1, h2⟩ := roundHalfEven_mem hloQ hhiQ
  exact (bankerDiv_eq_some_iff hI128 hq.ne').mpr
    ⟨isNearestEven_roundHalfEven v hq, h1, by omega⟩

/-- The `i64` fields of an open layer with stock in it. -/
structure StrictLayer.Fits (l : StrictLayer) : Prop where
  qty_pos : 0 < l.qty
  cost_inI64 : InI64 l.unitCost

/-- The `i64` fields of an event that moves something, `i64::MIN` excepted. -/
structure StrictEvent.Fits (ev : StrictEvent) : Prop where
  qty_ne_zero : ev.qty ≠ 0
  qty_gt : -2 ^ 63 < ev.qty
  qty_lt : ev.qty < 2 ^ 63
  cost_inI64 : InI64 ev.unitCost

lemma costDepletion_runs (h : Grouped runs next) (newestFirst : Bool) {ev : StrictEvent}
    (hev : ev.Fits) (hneg : ¬ ev.qty > 0) :
    ∃ left, Grouped left next ∧ (unitDepletion newestFirst (expand runs) ev).2 = expand left ∧
      costDepletion newestFirst (runs.map runLayer) ev =
        some ((unitDepletion newestFirst (expand runs) ev).1, left.map runLayer) := by
  obtain ⟨drawn, left, hdrawn, hleft, hserve, hle, hwalk⟩ :=
    h.exists_serve newestFirst ev.qty.natAbs
  have hne := hev.qty_ne_zero
  have hgt := hev.qty_gt
  have habs : absAsI64 ev.qty = (ev.qty.natAbs : ℤ) := absAsI64_of_gt hgt
  have hmissing : ((ev.qty.natAbs - (expand drawn).length : ℕ) : ℤ) =
      ev.qty.natAbs - ((expand drawn).length : ℤ) := by omega
  -- All units cost an `i64`, so their average is one.
  have hcosts : ∀ lot ∈ expand drawn, InI64 lot.unitCost := by
    intro lot hlot
    obtain ⟨r, hr, hlot⟩ := mem_flatMap.mp hlot
    rw [eq_of_mem_replicate hlot]
    exact hdrawn.cost r hr
  obtain ⟨hlo, hhi⟩ := sum_cost_bounds hcosts
  obtain ⟨hc1, hc2⟩ := hev.cost_inI64
  set m := ev.qty.natAbs - (expand drawn).length with hm
  have hqty : (ev.qty.natAbs : ℤ) = (expand drawn).length + m := by omega
  have hmlo : (m : ℤ) * -2 ^ 63 ≤ m * ev.unitCost := mul_le_mul_of_nonneg_left hc1 (by omega)
  have hmhi : (m : ℤ) * ev.unitCost ≤ m * (2 ^ 63 - 1) :=
    mul_le_mul_of_nonneg_left (Int.le_sub_one_of_lt hc2) (by omega)
  have hdiv : bankerDiv (unitValue (expand drawn) m ev.unitCost) ev.qty.natAbs =
      some (roundHalfEven (unitValue (expand drawn) m ev.unitCost / (ev.qty.natAbs : ℤ))) := by
    apply bankerDiv_of_bounds (by omega) (by omega)
    · unfold unitValue
      rw [hqty]
      linarith
    · unfold unitValue
      rw [hqty]
      linarith
  refine ⟨left, hleft, ?_, ?_⟩
  · simp only [unitDepletion, hserve]
  · unfold costDepletion unitDepletion
    simp only [hserve, habs, hwalk, ← hm, hdrawn.regroup, ← hmissing, drawValue_runs]
    rw [unitValue] at hdiv
    simp only [unitValue, hdiv, Option.bind_eq_bind, Option.bind_some, Option.pure_def,
      Int.cast_natCast]

/-! ### The fold -/

lemma strictFold_runs (newestFirst : Bool) (h : Grouped runs next) (hevs : ∀ e ∈ evs, e.Fits) :
    strictFold newestFirst (runs.map runLayer) evs =
      some (unitFoldFrom newestFirst next (expand runs) evs) := by
  induction evs generalizing runs next with
  | nil => simp [unitFoldFrom, h.regroup]
  | cons ev evs ih =>
    have hev := hevs ev mem_cons_self
    have hrest := fun e he => hevs e (mem_cons_of_mem ev he)
    by_cases hpos : ev.qty > 0
    · have hgrouped : Grouped (runs ++ [(⟨next, ev.trxLineId, ev.unitCost⟩, ev.qty.toNat)])
          (next + 1) := h.append (by omega) hev.cost_inI64
      have hstep := ih hgrouped hrest
      have hqty : (ev.qty.toNat : ℤ) = ev.qty := by omega
      rw [strictFold_cons_receipt hpos]
      simpa [unitFoldFrom, hpos, runLayer, hqty] using hstep
    · obtain ⟨left, hleft, hlots, hcost⟩ := costDepletion_runs h newestFirst hev hpos
      refine (strictFold_cons_depletion hpos).mpr ⟨_, _, _, hcost, ih hleft hrest, ?_⟩
      simp only [unitFoldFrom, hpos, if_false, hlots]

lemma grouped_openingRuns (h : ∀ l ∈ ls, l.Fits) :
    Grouped (openingRuns ls) ls.length ∧ (openingRuns ls).map runLayer = ls := by
  have hmem : ∀ r ∈ openingRuns ls, ∃ l ∈ ls, ∃ i < ls.length,
      r = (⟨i, l.layerId, l.unitCost⟩, l.qty.toNat) := by
    intro r hr
    obtain ⟨⟨l, i⟩, hl, rfl⟩ := List.mem_map.mp hr
    have hi := mem_zipIdx hl
    refine ⟨l, ?_, i, by omega, rfl⟩
    rw [hi.2.2]
    exact getElem_mem _
  refine ⟨⟨?_, ?_, ?_, ?_⟩, ?_⟩
  · intro r hr
    obtain ⟨l, hl, i, -, rfl⟩ := hmem r hr
    have := (h l hl).qty_pos
    omega
  · -- The numbers alone tell the runs apart.
    refine List.Nodup.of_map UnitLot.entry ?_
    have hentries : ((openingRuns ls).map Prod.fst).map UnitLot.entry = ls.zipIdx.map Prod.snd := by
      rw [openingRuns, List.map_map, List.map_map]
      rfl
    rw [hentries, zipIdx_map_snd]
    exact nodup_range'
  · intro r hr
    obtain ⟨l, -, i, hi, rfl⟩ := hmem r hr
    exact hi
  · intro r hr
    obtain ⟨l, hl, i, -, rfl⟩ := hmem r hr
    exact (h l hl).cost_inI64
  · have hlayers : (openingRuns ls).map runLayer = ls.zipIdx.map Prod.fst := by
      rw [openingRuns, List.map_map]
      refine map_congr_left fun l hl => ?_
      have hqty := (h l.1 (fst_mem_of_mem_zipIdx hl)).qty_pos
      have hcast : (l.1.qty.toNat : ℤ) = l.1.qty := by omega
      simp [runLayer, hcast]
    rw [hlayers, zipIdx_map_fst]

/-! ### Quantities and values -/

/-- The quantity of a list of layers. -/
def layersQty (ls : List StrictLayer) : ℤ := (ls.map (·.qty)).sum

def layersValue (ls : List StrictLayer) : ℤ := (ls.map fun l => l.qty * l.unitCost).sum

def receiptLayers (evs : List StrictEvent) : List StrictLayer :=
  (evs.filter (·.qty > 0)).map fun e => ⟨e.trxLineId, e.qty, e.unitCost⟩

/-- The quantity a stream takes out. -/
def takenQty (evs : List StrictEvent) : ℤ := ((evs.filter (·.qty ≤ 0)).map fun e => -e.qty).sum

lemma layersQty_eq (ls : List StrictLayer) : layersQty ls = layerWeight (fun _ _ => 1) ls := by
  simp [layersQty, layerWeight]

lemma receiptWeight_eq (g : ℤ → ℤ → ℤ) (evs : List StrictEvent) :
    receiptWeight g evs = layerWeight g (receiptLayers evs) := by
  induction evs with
  | nil => rfl
  | cons ev evs ih =>
    rw [receiptWeight_cons, ih]
    by_cases h : ev.qty > 0 <;> simp [receiptLayers, h]

/-- What the depletions of a stream take out is what they draw and what they leave uncovered. -/
lemma takenQty_eq {newestFirst : Bool} {out : StrictFoldOutput} (hevs : ∀ e ∈ evs, e.Fits)
    (h : strictFold newestFirst ls evs = some out) :
    takenQty evs = (out.costings.map (·.uncoveredQty)).sum +
      (out.costings.map fun c => drawWeight (fun _ _ => 1) c.draws).sum := by
  induction evs generalizing ls out with
  | nil =>
    cases h
    rfl
  | cons ev evs ih =>
    have hrest := fun e he => hevs e (mem_cons_of_mem ev he)
    by_cases hpos : ev.qty > 0
    · rw [strictFold_cons_receipt hpos] at h
      rw [← ih hrest h]
      simp [takenQty, not_le.mpr hpos]
    · obtain ⟨c, ls', out', hc, hout, rfl⟩ := (strictFold_cons_depletion hpos).mp h
      obtain ⟨-, -, -, -, hunc, hdraws, -⟩ := costDepletion_eq_some hc
      have hcov := walkDeque_remaining newestFirst ls (absAsI64 ev.qty)
      rw [← hdraws, ← hunc, absAsI64_of_gt (hevs ev mem_cons_self).qty_gt] at hcov
      have hstep : takenQty (ev :: evs) = -ev.qty + takenQty evs := by
        simp [takenQty, not_lt.mp hpos]
      simp only [map_cons, sum_cons]
      rw [hstep, ih hrest hout]
      omega

/-- **`strict_fold` is the unit-level queue or stack.** On every opening list of layers with stock
and every stream of movements it returns the layers, draws, shortfalls and rounded average costs
that serving one unit at a time gives. Quantities balance exactly, and values through the draws. -/
theorem strictFold_eq_unitFold (newestFirst : Bool) (opening : List StrictLayer)
    (events : List StrictEvent) (hopening : ∀ l ∈ opening, l.Fits)
    (hevents : ∀ e ∈ events, e.Fits) :
    ∃ out, strictFold newestFirst opening events = some out ∧
      out = unitFold newestFirst opening events ∧
      layersQty opening + layersQty (receiptLayers events) - takenQty events =
        layersQty out.layers - (out.costings.map (·.uncoveredQty)).sum ∧
      layersValue opening + layersValue (receiptLayers events) -
          (out.costings.map fun c => drawValue c.draws).sum = layersValue out.layers := by
  obtain ⟨hgrouped, hlayers⟩ := grouped_openingRuns hopening
  have hfold := strictFold_runs newestFirst hgrouped hevents
  rw [hlayers] at hfold
  refine ⟨_, hfold, rfl, ?_, ?_⟩
  · have hweight := strictFold_weight (fun _ _ => 1) hfold
    rw [receiptWeight_eq, ← layersQty_eq, ← layersQty_eq, ← layersQty_eq] at hweight
    have hdepleted := takenQty_eq hevents hfold
    omega
  · have hweight := strictFold_weight (fun _ c => c) hfold
    rw [receiptWeight_eq] at hweight
    exact sub_eq_iff_eq_add.mpr hweight.symm

/-- A LIFO pool with one layer, a receipt and a depletion beyond the stock. -/
theorem strictFold_eq_unitFold_lifo :
    ∃ out, strictFold true [⟨1, 2, 10⟩] [⟨2, 1, 13⟩, ⟨3, -4, -7⟩] = some out ∧
      out = unitFold true [⟨1, 2, 10⟩] [⟨2, 1, 13⟩, ⟨3, -4, -7⟩] ∧
      layersQty [⟨1, 2, 10⟩] + layersQty (receiptLayers [⟨2, 1, 13⟩, ⟨3, -4, -7⟩]) -
          takenQty [⟨2, 1, 13⟩, ⟨3, -4, -7⟩] =
        layersQty out.layers - (out.costings.map (·.uncoveredQty)).sum ∧
      layersValue [⟨1, 2, 10⟩] + layersValue (receiptLayers [⟨2, 1, 13⟩, ⟨3, -4, -7⟩]) -
          (out.costings.map fun c => drawValue c.draws).sum = layersValue out.layers := by
  refine strictFold_eq_unitFold _ _ _ ?_ ?_
  · rw [forall_mem_singleton]
    exact ⟨by decide, by decide⟩
  · rw [forall_mem_cons, forall_mem_singleton]
    exact ⟨⟨by decide, by decide, by decide, by decide⟩,
      ⟨by decide, by decide, by decide, by decide⟩⟩

end Acct.V32
