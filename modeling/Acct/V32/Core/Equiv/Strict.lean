import Acct.V32.Core.Equiv.Numeric
import Acct.V32.Core.Strict
import Mathlib.Algebra.BigOperators.Group.List.Basic

/-!
# Properties of the strict layer walk

The fold composes (`strictFold_append`), so a pass that resumes from the layers a previous pass left
continues the same fold. It never fails on lines that meet the database's checks
(`exists_strictFold`). Every quantity that enters is either still open or was drawn by some
depletion; this is stated once for an arbitrary weight `g id cost` per unit (`strictFold_weight`).
-/

namespace Acct.V32

open List Option

variable {ev : StrictEvent} {evs evs' : List StrictEvent} {out : StrictFoldOutput}
  {ls : List StrictLayer} {newestFirst : Bool}

/-! ### Weights -/

/-- The total of `g` over the units in open layers. -/
def layerWeight (g : ℤ → ℤ → ℤ) (layers : List StrictLayer) : ℤ :=
  (layers.map fun l => l.qty * g l.layerId l.unitCost).sum

/-- The total of `g` over the drawn units. -/
def drawWeight (g : ℤ → ℤ → ℤ) (draws : List LayerDraw) : ℤ :=
  (draws.map fun d => d.qty * g d.layerTrxLineId d.unitCost).sum

/-- The total of `g` over the received units. -/
def receiptWeight (g : ℤ → ℤ → ℤ) (events : List StrictEvent) : ℤ :=
  (events.map fun e => if e.qty > 0 then e.qty * g e.trxLineId e.unitCost else 0).sum

@[simp] lemma layerWeight_nil (g) : layerWeight g [] = 0 := rfl
@[simp] lemma drawWeight_nil (g) : drawWeight g [] = 0 := rfl
@[simp] lemma receiptWeight_nil (g) : receiptWeight g [] = 0 := rfl

@[simp] lemma layerWeight_cons (g) (l : StrictLayer) (ls) :
    layerWeight g (l :: ls) = l.qty * g l.layerId l.unitCost + layerWeight g ls := by
  simp [layerWeight]

@[simp] lemma drawWeight_cons (g) (d : LayerDraw) (ds) :
    drawWeight g (d :: ds) = d.qty * g d.layerTrxLineId d.unitCost + drawWeight g ds := by
  simp [drawWeight]

@[simp] lemma receiptWeight_cons (g) (e : StrictEvent) (es) :
    receiptWeight g (e :: es) =
      (if e.qty > 0 then e.qty * g e.trxLineId e.unitCost else 0) + receiptWeight g es := by
  simp [receiptWeight]

@[simp] lemma layerWeight_append (g) (ls ls' : List StrictLayer) :
    layerWeight g (ls ++ ls') = layerWeight g ls + layerWeight g ls' := by
  simp [layerWeight]

@[simp] lemma layerWeight_reverse (g) (ls : List StrictLayer) :
    layerWeight g ls.reverse = layerWeight g ls := by
  simp [layerWeight, sum_reverse]

lemma drawValue_eq (ds : List LayerDraw) : drawValue ds = drawWeight (fun _ c => c) ds := rfl

/-! ### The inner loop -/

lemma walkLayers_weight (g : ℤ → ℤ → ℤ) (ls : List StrictLayer) (rem : ℤ) :
    layerWeight g (walkLayers ls rem).layers + drawWeight g (walkLayers ls rem).draws =
      layerWeight g ls := by
  fun_induction walkLayers ls rem with
  | case1 rem => simp
  | case2 l ls rem hpos take draw hzero rest ih =>
    have hq : l.qty = take := by omega
    simp only [drawWeight_cons, layerWeight_cons, draw]
    rw [hq]
    linarith
  | case3 l ls rem hpos take draw hzero =>
    simp only [drawWeight_cons, layerWeight_cons, drawWeight_nil, draw]
    ring
  | case4 l ls rem hpos => simp

lemma walkLayers_remaining (ls : List StrictLayer) (rem : ℤ) :
    (walkLayers ls rem).remaining + drawWeight (fun _ _ => 1) (walkLayers ls rem).draws = rem := by
  fun_induction walkLayers ls rem with
  | case1 rem => simp
  | case2 l ls rem hpos take draw hzero rest ih =>
    simp only [drawWeight_cons, draw]
    linarith
  | case3 l ls rem hpos take draw hzero => simp [draw]
  | case4 l ls rem hpos => simp

lemma walkLayers_remaining_nonneg (ls : List StrictLayer) {rem : ℤ} (h : 0 ≤ rem) :
    0 ≤ (walkLayers ls rem).remaining := by
  fun_induction walkLayers ls rem with
  | case1 rem => exact h
  | case2 l ls rem hpos take draw hzero rest ih => exact ih (by omega)
  | case3 l ls rem hpos take draw hzero => exact sub_nonneg.mpr (min_le_left _ _)
  | case4 l ls rem hpos => exact h

lemma walkLayers_layers_sublist (ls : List StrictLayer) (rem : ℤ) :
    ((walkLayers ls rem).layers.map fun l => (l.layerId, l.unitCost)).Sublist
      (ls.map fun l => (l.layerId, l.unitCost)) := by
  fun_induction walkLayers ls rem with
  | case1 rem => simp
  | case2 l ls rem hpos take draw hzero rest ih => exact ih.cons _
  | case3 l ls rem hpos take draw hzero => simp
  | case4 l ls rem hpos => simp

/-- The `pool_state` checks on an open layer: a positive quantity at a non-negative cost. -/
structure StrictLayer.Ok (l : StrictLayer) : Prop where
  qty_pos : 0 < l.qty
  cost_nonneg : 0 ≤ l.unitCost
  cost_inI64 : InI64 l.unitCost

structure LayerDraw.Ok (d : LayerDraw) : Prop where
  qty_pos : 0 < d.qty
  cost_nonneg : 0 ≤ d.unitCost
  cost_inI64 : InI64 d.unitCost

lemma walkLayers_ok (rem : ℤ) (h : ∀ l ∈ ls, l.Ok) :
    (∀ l ∈ (walkLayers ls rem).layers, l.Ok) ∧ ∀ d ∈ (walkLayers ls rem).draws, d.Ok := by
  fun_induction walkLayers ls rem with
  | case1 rem => simp
  | case2 l ls rem hpos take draw hzero rest ih =>
    have hl := h l mem_cons_self
    obtain ⟨h1, h2⟩ := ih fun x hx => h x (mem_cons_of_mem _ hx)
    refine ⟨h1, ?_⟩
    rintro d (_ | ⟨_, hd⟩)
    · exact ⟨lt_min hpos hl.qty_pos, hl.cost_nonneg, hl.cost_inI64⟩
    · exact h2 d hd
  | case3 l ls rem hpos take draw hzero =>
    have hl := h l mem_cons_self
    have hle : take ≤ l.qty := min_le_right _ _
    constructor
    · rintro x (_ | ⟨_, hx⟩)
      · exact ⟨lt_of_le_of_ne (sub_nonneg.mpr hle) (Ne.symm hzero), hl.cost_nonneg, hl.cost_inI64⟩
      · exact h x (mem_cons_of_mem _ hx)
    · intro d hd
      rw [mem_singleton.mp hd]
      exact ⟨lt_min hpos hl.qty_pos, hl.cost_nonneg, hl.cost_inI64⟩
  | case4 l ls rem hpos => exact ⟨h, by simp⟩

/-! ### The inner loop from either end -/

section Deque

variable (newestFirst : Bool) (ls : List StrictLayer) (rem : ℤ)

lemma walkDeque_weight (g : ℤ → ℤ → ℤ) :
    layerWeight g (walkDeque newestFirst ls rem).layers +
      drawWeight g (walkDeque newestFirst ls rem).draws = layerWeight g ls := by
  cases newestFirst
  · exact walkLayers_weight g ls rem
  · have h := walkLayers_weight g ls.reverse rem
    rw [layerWeight_reverse] at h
    simpa [walkDeque] using h

lemma walkDeque_remaining : (walkDeque newestFirst ls rem).remaining +
    drawWeight (fun _ _ => 1) (walkDeque newestFirst ls rem).draws = rem := by
  cases newestFirst
  · exact walkLayers_remaining ls rem
  · exact walkLayers_remaining ls.reverse rem

lemma walkDeque_layers_sublist :
    ((walkDeque newestFirst ls rem).layers.map fun l => (l.layerId, l.unitCost)).Sublist
      (ls.map fun l => (l.layerId, l.unitCost)) := by
  cases newestFirst
  · exact walkLayers_layers_sublist ls rem
  · have h := (walkLayers_layers_sublist ls.reverse rem).reverse
    simpa [walkDeque] using h

variable {ls rem}

lemma walkDeque_remaining_nonneg (h : 0 ≤ rem) : 0 ≤ (walkDeque newestFirst ls rem).remaining := by
  cases newestFirst
  · exact walkLayers_remaining_nonneg ls h
  · exact walkLayers_remaining_nonneg ls.reverse h

variable (rem) in
lemma walkDeque_ok (h : ∀ l ∈ ls, l.Ok) : (∀ l ∈ (walkDeque newestFirst ls rem).layers, l.Ok) ∧
    ∀ d ∈ (walkDeque newestFirst ls rem).draws, d.Ok := by
  cases newestFirst
  · exact walkLayers_ok rem h
  · have hr := walkLayers_ok rem fun l (hl : l ∈ ls.reverse) => h l (mem_reverse.mp hl)
    exact ⟨fun l hl => hr.1 l (mem_reverse.mp hl), hr.2⟩

end Deque

/-! ### One depletion -/

/-- The `trx_line` checks on a physical line, and `abs_qty`'s on a depletion. -/
structure StrictEvent.Ok (ev : StrictEvent) : Prop where
  qty_ne_zero : ev.qty ≠ 0
  qty_gt : -2 ^ 63 < ev.qty
  qty_lt : ev.qty < 2 ^ 63
  cost_nonneg : 0 ≤ ev.unitCost
  cost_inI64 : InI64 ev.unitCost

lemma absAsI64_of_gt {x : ℤ} (h : -2 ^ 63 < x) : absAsI64 x = x.natAbs := if_neg (by omega)

lemma drawValue_bounds {ds : List LayerDraw} (h : ∀ d ∈ ds, d.Ok) :
    0 ≤ drawValue ds ∧ drawValue ds ≤ drawWeight (fun _ _ => 1) ds * (2 ^ 63 - 1) := by
  rw [drawValue_eq]
  induction ds with
  | nil => simp
  | cons d ds ih =>
    obtain ⟨h0, h1⟩ := ih fun x hx => h x (mem_cons_of_mem _ hx)
    have hd := h d mem_cons_self
    have hcost : d.unitCost ≤ 2 ^ 63 - 1 := Int.le_sub_one_of_lt hd.cost_inI64.2
    have hlo : 0 ≤ d.qty * d.unitCost := mul_nonneg hd.qty_pos.le hd.cost_nonneg
    have hhi : d.qty * d.unitCost ≤ d.qty * (2 ^ 63 - 1) :=
      mul_le_mul_of_nonneg_left hcost hd.qty_pos.le
    simp only [drawWeight_cons, mul_one]
    constructor <;> linarith

def depletionValue (c : DepletionCosting) : ℤ :=
  drawValue c.draws + c.uncoveredQty * c.observedUnitCost

lemma costDepletion_eq_some {ls' : List StrictLayer} {c : DepletionCosting}
    (h : costDepletion newestFirst ls ev = some (c, ls')) :
    c.depletionTrxLineId = ev.trxLineId ∧ c.qty = absAsI64 ev.qty ∧
      c.observedUnitCost = ev.unitCost ∧
      bankerDiv (depletionValue c) c.qty = some c.authoritativeUnitCost ∧
      c.uncoveredQty = (walkDeque newestFirst ls (absAsI64 ev.qty)).remaining ∧
      c.draws = (walkDeque newestFirst ls (absAsI64 ev.qty)).draws ∧
      ls' = (walkDeque newestFirst ls (absAsI64 ev.qty)).layers := by
  unfold costDepletion at h
  simp only [bind_eq_bind, bind_eq_some_iff] at h
  obtain ⟨a, ha, h⟩ := h
  obtain ⟨rfl, rfl⟩ := h
  exact ⟨rfl, rfl, rfl, ha, rfl, rfl, rfl⟩

structure DepletionCosting.Ok (c : DepletionCosting) : Prop where
  qty_pos : 0 < c.qty
  qty_inI64 : InI64 c.qty
  authoritative_nonneg : 0 ≤ c.authoritativeUnitCost
  authoritative_inI64 : InI64 c.authoritativeUnitCost
  uncovered_nonneg : 0 ≤ c.uncoveredQty
  covered : c.uncoveredQty + drawWeight (fun _ _ => 1) c.draws = c.qty
  draws_ok : ∀ d ∈ c.draws, d.Ok
  authoritative_eq : bankerDiv (depletionValue c) c.qty = some c.authoritativeUnitCost
  rounded : 2 * (depletionValue c - c.authoritativeUnitCost * c.qty).natAbs ≤ c.qty.natAbs

theorem exists_costDepletion (newestFirst : Bool) (hls : ∀ l ∈ ls, l.Ok) (hev : ev.Ok)
    (hneg : ¬ ev.qty > 0) :
    ∃ c ls', costDepletion newestFirst ls ev = some (c, ls') ∧ c.Ok ∧ ∀ l ∈ ls', l.Ok := by
  have hne := hev.qty_ne_zero
  have hgt := hev.qty_gt
  have habs : absAsI64 ev.qty = -ev.qty := by
    rw [absAsI64_of_gt hgt]; omega
  obtain ⟨q, hq⟩ : ∃ q, q = absAsI64 ev.qty := ⟨_, rfl⟩
  have hqpos : 0 < q := by omega
  have hqI : InI64 q := by unfold InI64; omega
  set w := walkDeque newestFirst ls q with hw
  obtain ⟨hlayers, hdraws⟩ := walkDeque_ok newestFirst q hls
  have hrem : 0 ≤ w.remaining := walkDeque_remaining_nonneg newestFirst hqpos.le
  have hcov : w.remaining + drawWeight (fun _ _ => 1) w.draws = q :=
    walkDeque_remaining newestFirst ls q
  obtain ⟨hv0, hv1⟩ := drawValue_bounds hdraws
  have hc0 := mul_nonneg hrem hev.cost_nonneg
  have hc1 : w.remaining * ev.unitCost ≤ w.remaining * (2 ^ 63 - 1) :=
    mul_le_mul_of_nonneg_left (Int.le_sub_one_of_lt hev.cost_inI64.2) hrem
  -- No unit costs more than the largest `i64`, so the rounded unit cost is one.
  have hle : drawValue w.draws + w.remaining * ev.unitCost ≤ q * (2 ^ 63 - 1) := by
    rw [← hcov, add_mul]
    linarith
  have h0 : 0 ≤ drawValue w.draws + w.remaining * ev.unitCost := by linarith
  obtain ⟨a, ha, ha0, ha1⟩ := exists_bankerDiv_of_le hqpos hqI (by decide) h0 hle
  have hI128 : InI128 (drawValue w.draws + w.remaining * ev.unitCost) := by
    have : q * (2 ^ 63 - 1) ≤ 2 ^ 63 * (2 ^ 63 - 1) :=
      mul_le_mul_of_nonneg_right hqI.2.le (by norm_num)
    unfold InI128
    omega
  refine ⟨⟨ev.trxLineId, q, ev.unitCost, a, w.remaining, w.draws⟩, w.layers, ?_, ?_, hlayers⟩
  · unfold costDepletion
    simp only [← hq, ← hw, ha]
    rfl
  · have haI : InI64 a := by unfold InI64; omega
    exact ⟨hqpos, hqI, ha0, haI, hrem, hcov, hdraws, ha,
      two_mul_natAbs_sub_le_of_bankerDiv hI128 hqpos.ne' ha⟩

/-! ### The fold -/

@[simp] lemma strictFold_nil (newestFirst : Bool) (ls : List StrictLayer) :
    strictFold newestFirst ls [] = some ⟨[], ls⟩ := rfl

lemma strictFold_cons_receipt (h : ev.qty > 0) :
    strictFold newestFirst ls (ev :: evs) =
      strictFold newestFirst (ls ++ [⟨ev.trxLineId, ev.qty, ev.unitCost⟩]) evs := by
  rw [strictFold, if_pos h]

lemma strictFold_cons_depletion (h : ¬ ev.qty > 0) :
    strictFold newestFirst ls (ev :: evs) = some out ↔
      ∃ c ls' out', costDepletion newestFirst ls ev = some (c, ls') ∧
        strictFold newestFirst ls' evs = some out' ∧
        out = { out' with costings := c :: out'.costings } := by
  rw [strictFold, if_neg h]
  simp only [bind_eq_bind, bind_eq_some_iff, Option.pure_def, some.injEq, Prod.exists]
  constructor
  · rintro ⟨c, ls', hc, out', ho, rfl⟩
    exact ⟨c, ls', out', hc, ho, rfl⟩
  · rintro ⟨c, ls', out', hc, ho, rfl⟩
    exact ⟨c, ls', hc, out', ho, rfl⟩

/-- **The fold composes.** Folding a longer stream continues from the layers its prefix leaves. -/
theorem strictFold_append (newestFirst : Bool) (ls : List StrictLayer)
    (evs evs' : List StrictEvent) :
    strictFold newestFirst ls (evs ++ evs') = do
      let out ← strictFold newestFirst ls evs
      let out' ← strictFold newestFirst out.layers evs'
      return ⟨out.costings ++ out'.costings, out'.layers⟩ := by
  induction evs generalizing ls with
  | nil =>
    simp only [nil_append, strictFold_nil, bind_eq_bind, bind_some]
    cases strictFold newestFirst ls evs' <;> rfl
  | cons ev evs ih =>
    rw [cons_append]
    by_cases h : ev.qty > 0
    · rw [strictFold_cons_receipt h, strictFold_cons_receipt h, ih]
    · rw [strictFold, if_neg h, strictFold, if_neg h]
      cases costDepletion newestFirst ls ev with
      | none => rfl
      | some r =>
        simp only [bind_eq_bind, bind_some, ih]
        cases strictFold newestFirst r.2 evs with
        | none => rfl
        | some out =>
          simp only [bind_some, Option.pure_def]
          cases strictFold newestFirst out.layers evs' <;> rfl

lemma strictFold_append_eq_some {out' : StrictFoldOutput}
    (h : strictFold newestFirst ls evs = some out)
    (h' : strictFold newestFirst out.layers evs' = some out') :
    strictFold newestFirst ls (evs ++ evs') =
      some ⟨out.costings ++ out'.costings, out'.layers⟩ := by
  rw [strictFold_append, h]
  simp [h']

lemma exists_of_strictFold_append (h : strictFold newestFirst ls (evs ++ evs') = some out) :
    ∃ o o', strictFold newestFirst ls evs = some o ∧
      strictFold newestFirst o.layers evs' = some o' ∧
      out = ⟨o.costings ++ o'.costings, o'.layers⟩ := by
  simp only [strictFold_append, bind_eq_bind, bind_eq_some_iff, Option.pure_def,
    some.injEq] at h
  obtain ⟨o, ho, o', ho', rfl⟩ := h
  exact ⟨o, o', ho, ho', rfl⟩

theorem exists_strictFold (newestFirst : Bool) (hls : ∀ l ∈ ls, l.Ok) (hevs : ∀ e ∈ evs, e.Ok) :
    ∃ out, strictFold newestFirst ls evs = some out ∧ (∀ c ∈ out.costings, c.Ok) ∧
      ∀ l ∈ out.layers, l.Ok := by
  induction evs generalizing ls with
  | nil => exact ⟨_, rfl, by simp, hls⟩
  | cons ev evs ih =>
    have hev := hevs ev mem_cons_self
    have hrest := fun e he => hevs e (mem_cons_of_mem _ he)
    by_cases h : ev.qty > 0
    · rw [strictFold_cons_receipt h]
      refine ih (fun l hl => ?_) hrest
      rcases mem_append.mp hl with hl | hl
      · exact hls l hl
      · rw [mem_singleton.mp hl]
        exact ⟨h, hev.cost_nonneg, hev.cost_inI64⟩
    · obtain ⟨c, ls', hc, hcok, hls'⟩ := exists_costDepletion newestFirst hls hev h
      obtain ⟨out, hout, hcs, hl⟩ := ih hls' hrest
      refine ⟨_, (strictFold_cons_depletion h).mpr ⟨c, ls', out, hc, hout, rfl⟩, ?_, hl⟩
      rintro x (_ | ⟨_, hx⟩)
      · exact hcok
      · exact hcs x hx

lemma strictFold_costings (h : strictFold newestFirst ls evs = some out) :
    out.costings.map (fun c => (c.depletionTrxLineId, c.qty, c.observedUnitCost)) =
      (evs.filter (·.qty ≤ 0)).map fun e => (e.trxLineId, absAsI64 e.qty, e.unitCost) := by
  induction evs generalizing ls out with
  | nil =>
    cases h
    rfl
  | cons ev evs ih =>
    by_cases hpos : ev.qty > 0
    · rw [strictFold_cons_receipt hpos] at h
      simp [not_le.mpr hpos, ih h]
    · obtain ⟨c, ls', out', hc, hout, rfl⟩ := (strictFold_cons_depletion hpos).mp h
      obtain ⟨h1, h2, h3, -⟩ := costDepletion_eq_some hc
      simp [not_lt.mp hpos, ih hout, h1, h2, h3]

lemma strictFold_layers_sublist (h : strictFold newestFirst ls evs = some out) :
    (out.layers.map fun l => (l.layerId, l.unitCost)).Sublist
      ((ls.map fun l => (l.layerId, l.unitCost)) ++
        (evs.filter (·.qty > 0)).map fun e => (e.trxLineId, e.unitCost)) := by
  induction evs generalizing ls out with
  | nil =>
    cases h
    simp
  | cons ev evs ih =>
    by_cases hpos : ev.qty > 0
    · rw [strictFold_cons_receipt hpos] at h
      simpa [hpos] using ih h
    · obtain ⟨c, ls', out', hc, hout, rfl⟩ := (strictFold_cons_depletion hpos).mp h
      obtain ⟨-, -, -, -, -, -, rfl⟩ := costDepletion_eq_some hc
      have hw := walkDeque_layers_sublist newestFirst ls (absAsI64 ev.qty)
      simpa [hpos] using (ih hout).trans (List.Sublist.append_right hw _)

/-- **Conservation.** Whatever `g` counts per unit, what is open at the end and what was drawn make
up what was open at the start and what was received. -/
theorem strictFold_weight (g : ℤ → ℤ → ℤ) (h : strictFold newestFirst ls evs = some out) :
    layerWeight g out.layers + (out.costings.map fun c => drawWeight g c.draws).sum =
      layerWeight g ls + receiptWeight g evs := by
  induction evs generalizing ls out with
  | nil =>
    cases h
    simp
  | cons ev evs ih =>
    by_cases hpos : ev.qty > 0
    · rw [strictFold_cons_receipt hpos] at h
      rw [ih h]
      simp [hpos, add_assoc]
    · obtain ⟨c, ls', out', hc, hout, rfl⟩ := (strictFold_cons_depletion hpos).mp h
      obtain ⟨-, -, -, -, -, hdraws, rfl⟩ := costDepletion_eq_some hc
      have hw := walkDeque_weight newestFirst ls (absAsI64 ev.qty) g
      rw [← hdraws] at hw
      have := ih hout
      simp only [map_cons, sum_cons, receiptWeight_cons, hpos, if_false]
      linarith

/-! ### What is left of a layer -/

section Lowered

variable {P : StrictLayer → Prop}
  (hlower : ∀ l q, P l → 0 < q → q ≤ l.qty → P { l with qty := q })
include hlower

lemma walkLayers_forall (rem : ℤ) (h : ∀ l ∈ ls, P l) :
    ∀ l ∈ (walkLayers ls rem).layers, P l := by
  fun_induction walkLayers ls rem with
  | case1 rem => simp
  | case2 l ls rem hpos take draw hzero rest ih =>
    exact ih fun x hx => h x (mem_cons_of_mem _ hx)
  | case3 l ls rem hpos take draw hzero =>
    rintro x (_ | ⟨_, hx⟩)
    · exact hlower l _ (h l mem_cons_self) (by omega) (by omega)
    · exact h x (mem_cons_of_mem _ hx)
  | case4 l ls rem hpos => exact h

lemma walkDeque_forall (newestFirst : Bool) (rem : ℤ) (h : ∀ l ∈ ls, P l) :
    ∀ l ∈ (walkDeque newestFirst ls rem).layers, P l := by
  cases newestFirst
  · exact walkLayers_forall hlower rem h
  · have hrev := walkLayers_forall hlower rem fun l (hl : l ∈ ls.reverse) =>
      h l (mem_reverse.mp hl)
    exact fun l hl => hrev l (mem_reverse.mp hl)

/-- A property of the opening layers and the receipts that survives drawing from a layer holds of
the layers left open. -/
theorem strictFold_layers_forall (hls : ∀ l ∈ ls, P l)
    (hevs : ∀ e ∈ evs, e.qty > 0 → P ⟨e.trxLineId, e.qty, e.unitCost⟩)
    (h : strictFold newestFirst ls evs = some out) : ∀ l ∈ out.layers, P l := by
  induction evs generalizing ls out with
  | nil =>
    cases h
    exact hls
  | cons ev evs ih =>
    have hrest := fun e he => hevs e (mem_cons_of_mem _ he)
    by_cases hpos : ev.qty > 0
    · rw [strictFold_cons_receipt hpos] at h
      refine ih (fun l hl => ?_) hrest h
      rcases mem_append.mp hl with hl | hl
      · exact hls l hl
      · rw [mem_singleton.mp hl]
        exact hevs ev mem_cons_self hpos
    · obtain ⟨c, ls', out', hc, hout, rfl⟩ := (strictFold_cons_depletion hpos).mp h
      obtain ⟨-, -, -, -, -, -, rfl⟩ := costDepletion_eq_some hc
      have hopen := ih (walkDeque_forall hlower newestFirst _ hls) hrest hout
      exact hopen

end Lowered

end Acct.V32
