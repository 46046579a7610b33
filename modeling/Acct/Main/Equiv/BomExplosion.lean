import Acct.Main.BomExplosion
import Mathlib.Algebra.BigOperators.Group.List.Basic
import Mathlib.Algebra.Ring.Int.Defs

/-!
# The explosion lists the paths of the bill

The working table after `n` rounds holds the rows of the trails with `n` lines above the last
(`walkLevel_eq`), up to the depth at which the query stops. A trail that is longer passes through a
phantom of depth 16 (`Reaches.exists_above`), so the check of the first query sees it, and otherwise
the rows are those of the paths (`explodeBom_spec`).
-/

namespace Acct.Main.Bom

open Table List Option

variable (db : Tables) (date : Date) {c b : Line} {loc n bomId sku : ℕ} {p : Line × List Line}
  {r : WalkRow}

/-! ### Paths -/

/-- `c` is a phantom and `b` a line of its bill at the date. -/
def Tables.Below (c b : Line) : Prop :=
  ∃ sku loc qty, c.detail = .item sku loc qty ∧ db.isPhantom sku ∧
    ∃ h ∈ db.headers, h.Explodes sku date ∧ b ∈ db.lines ∧ b.bomId = h.id

inductive Tables.Reaches (bomId : ℕ) : Line × List Line → Prop
  | root {l : Line} : l ∈ db.lines → l.bomId = bomId → Reaches bomId (l, [])
  | down {b c : Line} {above : List Line} : Reaches bomId (c, above) → db.Below date c b →
      Reaches bomId (b, c :: above)

def Tables.IsPath (bomId : ℕ) (p : Line × List Line) : Prop :=
  db.Reaches date bomId p ∧ db.compIsPhantom p.1.detail = false

structure Tables.Explodable (bomId : ℕ) : Prop where
  has_bom : ∀ p, db.Reaches date bomId p → ∀ sku loc qty, p.1.detail = .item sku loc qty →
    db.isPhantom sku → ∃ h ∈ db.headers, h.Explodes sku date
  nests : ∀ p, db.Reaches date bomId p → db.compIsPhantom p.1.detail → p.2.length + 1 < 16

/-- The quantity of a component; other lines are never above another line. -/
def Line.qty (l : Line) : ℤ :=
  match l.detail with
  | .item _ _ qty => qty
  | .service .. | .charge .. => 1

/-- The row of a path: the amounts multiplied by the quantities above, the operation of the line in
the root bill. -/
def pathRow (p : Line × List Line) : ExplodedLine :=
  { sourceBomId := p.1.bomId, sourceLineNo := p.1.lineNo, depth := p.2.length + 1,
    detail := p.1.detail.scale (p.2.map (·.qty)).prod,
    appliesAtOp := (p.2.getLast?.getD p.1).appliesAtOp,
    fireAt := p.1.fireAt, yieldPct := p.1.yieldPct }

/-! ### The bill of a phantom -/

def Tables.children (c : Line) : List Line :=
  ((db.phantomBomId date c.detail).map db.linesOf).getD []

variable {db date}

lemma phantomBomId_eq_some {d : Detail} :
    db.phantomBomId date d = some bomId ↔ ∃ sku loc qty, d = .item sku loc qty ∧
      db.isPhantom sku ∧ ∃ h ∈ db.headers, h.Explodes sku date ∧ h.id = bomId := by
  cases d with
  | service | charge => simp [Tables.phantomBomId]
  | item sku loc qty =>
    constructor
    · intro h
      simp only [Tables.phantomBomId] at h
      split at h
      · next hph =>
        obtain ⟨hd, hfind, hid⟩ := Option.map_eq_some_iff.mp h
        exact ⟨sku, loc, qty, rfl, hph, hd, List.mem_of_find?_eq_some hfind,
          by simpa using List.find?_some hfind, hid⟩
      · cases h
    · rintro ⟨sku', loc', qty', heq, hph, hd, hmem, hex, rfl⟩
      obtain ⟨rfl, rfl, rfl⟩ := Detail.item.inj heq
      simp only [Tables.phantomBomId, hph, if_true, Option.map_eq_some_iff]
      obtain ⟨hd', hfind⟩ : ∃ hd', db.headers.find? (fun h => h.Explodes sku date) = some hd' :=
        Option.isSome_iff_exists.mp (List.find?_isSome.mpr ⟨hd, hmem, by simpa using hex⟩)
      have hex' : hd'.Explodes sku date := by simpa using List.find?_some hfind
      have hsame : hd' = hd := db.primary_key hd' (List.mem_of_find?_eq_some hfind) hd hmem
        hex'.2.2.1 hex.2.2.1 hex'.2.2.2.1 hex.2.2.2.1 (hex'.1.trans hex.1.symm)
        (hex'.2.1.trans hex.2.1.symm)
      exact ⟨hd', hfind, by rw [hsame]⟩

lemma mem_linesOf {l : Line} :
    l ∈ db.linesOf bomId ↔ l ∈ db.lines ∧ l.bomId = bomId := by
  simp [Tables.linesOf]

lemma mem_children : b ∈ db.children date c ↔ db.Below date c b := by
  unfold Tables.children Tables.Below
  cases hph : db.phantomBomId date c.detail with
  | none =>
    refine iff_of_false (by simp) ?_
    rintro ⟨sku, loc, qty, hc, hsku, h, hmem, hex, -⟩
    have hsome := phantomBomId_eq_some.mpr ⟨sku, loc, qty, hc, hsku, h, hmem, hex, rfl⟩
    rw [hph] at hsome
    cases hsome
  | some bomId =>
    show b ∈ db.linesOf bomId ↔ _
    rw [mem_linesOf]
    constructor
    · rintro ⟨hb, rfl⟩
      obtain ⟨sku, loc, qty, hc, hsku, h, hmem, hex, hid⟩ := phantomBomId_eq_some.mp hph
      exact ⟨sku, loc, qty, hc, hsku, h, hmem, hex, hb, hid.symm⟩
    · rintro ⟨sku, loc, qty, hc, hsku, h, hmem, hex, hb, hid⟩
      have hsome := phantomBomId_eq_some.mpr ⟨sku, loc, qty, hc, hsku, h, hmem, hex, rfl⟩
      rw [hph, some.injEq] at hsome
      exact ⟨hb, hid.trans hsome.symm⟩

lemma trail_iff_reaches :
    Trail (db.linesOf bomId) (db.children date) p ↔ db.Reaches date bomId p := by
  constructor
  · intro h
    induction h with
    | root hb => exact .root (mem_linesOf.mp hb).1 (mem_linesOf.mp hb).2
    | down _ hb ih => exact .down ih (mem_children.mp hb)
  · intro h
    induction h with
    | root hl hbom => exact .root (mem_linesOf.mpr ⟨hl, hbom⟩)
    | down _ hb ih => exact .down ih (mem_children.mpr hb)

lemma Tables.Below.compIsPhantom (h : db.Below date c b) : db.compIsPhantom c.detail := by
  obtain ⟨sku, loc, qty, hc, hsku, -⟩ := h
  rw [hc]
  exact hsku

lemma Tables.Reaches.exists_above (h : db.Reaches date bomId p) {k : ℕ} (hk : k < p.2.length) :
    ∃ q, db.Reaches date bomId q ∧ q.2.length = k ∧ db.compIsPhantom q.1.detail := by
  induction h with
  | root => simp at hk
  | @down b c above hc hb ih =>
    by_cases hlt : k < above.length
    · exact ih hlt
    · have hlen : above.length = k := by
        simp only [length_cons] at hk
        omega
      exact ⟨(c, above), hc, hlen, hb.compIsPhantom⟩

/-! ### The query -/

lemma scale_one (d : Detail) : d.scale 1 = d := by
  rcases d with ⟨_, _, _⟩ | ⟨_ | _, _, _⟩ | ⟨_, _⟩ <;> simp [Detail.scale]

variable (db date)

/-- The row of `walk` for a trail. -/
def Tables.trailRow (p : Line × List Line) : WalkRow :=
  { pathRow p with
    compIsPhantom := db.compIsPhantom p.1.detail
    phantomBomId := db.phantomBomId date p.1.detail }

lemma walkRoot_eq (l : Line) : db.walkRoot date l = db.trailRow date (l, []) := by
  simp [Tables.walkRoot, Tables.trailRow, pathRow, scale_one]

lemma walkStep_of_none (h : r.phantomBomId = none) : db.walkStep date r = [] := by
  unfold Tables.walkStep
  rw [h]
  cases r.detail <;> rfl

lemma walkStep_of_phantom {qty : ℤ} (hdetail : r.detail = .item sku loc qty)
    (hbom : r.phantomBomId = some bomId) (hphantom : r.compIsPhantom) : db.walkStep date r =
      if r.depth < 16 then (db.linesOf bomId).map (db.walkChild date r qty) else [] := by
  unfold Tables.walkStep
  simp only [hdetail, hbom, hphantom, true_and]

lemma walkStep_trailRow (p : Line × List Line) : db.walkStep date (db.trailRow date p) =
    if p.2.length + 1 < 16 then (nextTrails (db.children date) p).map (db.trailRow date)
    else [] := by
  obtain ⟨c, above⟩ := p
  have hnext : nextTrails (db.children date) (c, above) =
      (db.children date c).map fun b => (b, c :: above) := rfl
  rw [hnext, List.map_map]
  cases hph : db.phantomBomId date c.detail with
  | none =>
    have hchildren : db.children date c = [] := by simp [Tables.children, hph]
    rw [hchildren, map_nil, ite_self]
    exact walkStep_of_none db date hph
  | some bomId =>
    obtain ⟨sku, loc, qty, hc, hsku, -⟩ := phantomBomId_eq_some.mp hph
    have hchildren : db.children date c = db.linesOf bomId := by simp [Tables.children, hph]
    have hphantom : db.compIsPhantom c.detail := by rw [hc]; exact hsku
    have hdetail : (db.trailRow date (c, above)).detail =
        .item sku loc (qty * (above.map (·.qty)).prod) := by
      simp [Tables.trailRow, pathRow, hc, Detail.scale]
    have hqty : ((c :: above).map (·.qty)).prod = qty * (above.map (·.qty)).prod := by
      simp [Line.qty, hc]
    rw [hchildren, walkStep_of_phantom db date hdetail hph hphantom]
    -- The child multiplies by the quantity its parent has accumulated.
    have hrow : db.walkChild date (db.trailRow date (c, above)) (qty * (above.map (·.qty)).prod) =
        db.trailRow date ∘ fun b => (b, c :: above) := by
      funext b
      simp only [Tables.walkChild, Tables.trailRow, pathRow, Function.comp_apply, hqty,
        length_cons, List.getLast?_cons, Option.getD_some]
    rw [hrow]
    rfl

lemma walkLevel_eq (bomId : ℕ) (hn : n < 16) : db.walkLevel date bomId n =
    (trails (db.linesOf bomId) (db.children date) n).map (db.trailRow date) := by
  induction n with
  | zero =>
    rw [trails, level, List.map_map]
    exact map_congr_left fun l _ => walkRoot_eq db date l
  | succ n ih =>
    show (db.walkLevel date bomId n).flatMap (db.walkStep date) = _
    rw [ih (by omega), flatMap_map]
    show _ = ((trails _ _ n).flatMap (nextTrails _)).map _
    rw [map_flatMap]
    refine flatMap_congr fun p hp => ?_
    rw [walkStep_trailRow, (mem_trails.mp hp).2, if_pos hn]

lemma walkLevel_eq_nil (bomId : ℕ) (hn : 16 ≤ n) : db.walkLevel date bomId n = [] := by
  refine level_eq_nil_of_le (n := 16) ?_ hn
  show (db.walkLevel date bomId 15).flatMap (db.walkStep date) = []
  rw [walkLevel_eq db date bomId (by omega), flatMap_map, flatMap_eq_nil_iff]
  intro p hp
  rw [walkStep_trailRow, (mem_trails.mp hp).2, if_neg (by omega)]

variable {db date}

lemma walk_eq (bomId : ℕ) : db.walk date bomId =
    ((List.range 16).flatMap (trails (db.linesOf bomId) (db.children date))).map
      (db.trailRow date) := by
  rw [map_flatMap]
  exact flatMap_congr fun n hn => walkLevel_eq db date bomId (mem_range.mp hn)

lemma mem_walk : r ∈ db.walk date bomId ↔
    ∃ p, db.Reaches date bomId p ∧ p.2.length < 16 ∧ db.trailRow date p = r := by
  simp only [walk_eq, List.mem_map, mem_flatMap, mem_range, mem_trails, trail_iff_reaches]
  constructor
  · rintro ⟨p, ⟨n, hn, hp, rfl⟩, hr⟩
    exact ⟨p, hp, hn, hr⟩
  · rintro ⟨p, hp, hn, hr⟩
    exact ⟨p, ⟨_, hn, hp, rfl⟩, hr⟩

/-! ### The checks -/

lemma phantomBomId_item_isSome {qty : ℤ} (hph : db.isPhantom sku) :
    (db.phantomBomId date (.item sku loc qty)).isSome ↔
      ∃ h ∈ db.headers, h.Explodes sku date := by
  simp [Tables.phantomBomId, hph, List.find?_isSome]

lemma orphan?_eq_some :
    (db.trailRow date p).orphan? = some sku ↔ (∃ loc qty, p.1.detail = .item sku loc qty) ∧
      db.isPhantom sku ∧ ¬ ∃ h ∈ db.headers, h.Explodes sku date := by
  obtain ⟨l, above⟩ := p
  cases hl : l.detail with
  | service basis =>
    cases basis <;> simp [WalkRow.orphan?, Tables.trailRow, pathRow, hl, Detail.scale]
  | charge => simp [WalkRow.orphan?, Tables.trailRow, pathRow, hl, Detail.scale]
  | item sku' loc qty =>
    have horphan : (db.trailRow date (l, above)).orphan? =
        if db.isPhantom sku' ∧ db.phantomBomId date (.item sku' loc qty) = none then some sku'
        else none := by
      simp [WalkRow.orphan?, Tables.trailRow, pathRow, hl, Detail.scale, Tables.compIsPhantom]
    rw [horphan, ite_eq_iff]
    simp only [some.injEq, reduceCtorEq, and_false, or_false, Detail.item.injEq]
    constructor
    · rintro ⟨⟨hph, hnone⟩, rfl⟩
      refine ⟨⟨loc, qty, rfl, rfl, rfl⟩, hph, fun hex => ?_⟩
      have hsome : (db.phantomBomId date (.item sku' loc qty)).isSome :=
        (phantomBomId_item_isSome hph).mpr hex
      rw [hnone] at hsome
      cases hsome
    · rintro ⟨⟨loc', qty', rfl, rfl, rfl⟩, hph, hno⟩
      refine ⟨⟨hph, ?_⟩, rfl⟩
      rw [← Option.not_isSome_iff_eq_none, phantomBomId_item_isSome hph]
      exact hno

lemma overflows_trailRow : (db.trailRow date p).overflows ↔
    p.2.length = 15 ∧ db.compIsPhantom p.1.detail ∧ (db.phantomBomId date p.1.detail).isSome := by
  simp [WalkRow.overflows, Tables.trailRow, pathRow, and_assoc]

/-- Where neither check of the first query finds anything, the bill can be exploded. -/
lemma explodable_of_checks (horphan : ∀ r ∈ db.walk date bomId, r.orphan? = none)
    (hoverflow : ∀ r ∈ db.walk date bomId, ¬ r.overflows) : db.Explodable date bomId := by
  have hbom : ∀ p, db.Reaches date bomId p → p.2.length < 16 → ∀ sku loc qty,
      p.1.detail = .item sku loc qty → db.isPhantom sku →
        ∃ h ∈ db.headers, h.Explodes sku date := by
    intro p hp hlen sku loc qty hdetail hph
    by_contra hno
    have hsome := orphan?_eq_some.mpr ⟨⟨loc, qty, hdetail⟩, hph, hno⟩
    rw [horphan _ (mem_walk.mpr ⟨p, hp, hlen, rfl⟩)] at hsome
    cases hsome
  -- A phantom of depth 16 has a bill, so the overflow check sees it.
  have hdepth : ∀ p, db.Reaches date bomId p → db.compIsPhantom p.1.detail → p.2.length ≠ 15 := by
    intro p hp hph hlen
    refine hoverflow _ (mem_walk.mpr ⟨p, hp, by omega, rfl⟩)
      (overflows_trailRow.mpr ⟨hlen, hph, ?_⟩)
    cases hdetail : p.1.detail with
    | service | charge => simp [hdetail, Tables.compIsPhantom] at hph
    | item sku loc qty =>
      rw [hdetail] at hph
      exact (phantomBomId_item_isSome hph).mpr (hbom p hp (by omega) sku loc qty hdetail hph)
  have hnests : ∀ p, db.Reaches date bomId p → db.compIsPhantom p.1.detail →
      p.2.length + 1 < 16 := by
    intro p hp hph
    by_contra hlong
    by_cases hlt : 15 < p.2.length
    · obtain ⟨q, hq, hlen, hqph⟩ := hp.exists_above hlt
      exact hdepth q hq hqph hlen
    · exact hdepth p hp hph (by omega)
  refine ⟨fun p hp sku loc qty hdetail hph => ?_, hnests⟩
  have hlen := hnests p hp (by rw [hdetail]; exact hph)
  exact hbom p hp (by omega) sku loc qty hdetail hph

/-! ### The rows -/

def Tables.paths (db : Tables) (date : Date) (bomId : ℕ) : List (Line × List Line) :=
  ((List.range 16).flatMap (trails (db.linesOf bomId) (db.children date))).filter
    fun p => !db.compIsPhantom p.1.detail

lemma nodup_linesOf (bomId : ℕ) : (db.linesOf bomId).Nodup :=
  (List.Nodup.of_map _ db.lines_key).filter _

lemma nodup_children (c : Line) : (db.children date c).Nodup := by
  unfold Tables.children
  cases db.phantomBomId date c.detail with
  | none => exact nodup_nil
  | some bomId => exact nodup_linesOf bomId

lemma nodup_paths (bomId : ℕ) : (db.paths date bomId).Nodup := by
  refine List.Nodup.filter _ (nodup_flatMap.mpr ⟨fun n _ =>
    nodup_trails (nodup_linesOf bomId) nodup_children n, ?_⟩)
  -- Trails of different rounds have different lengths.
  refine nodup_range.imp fun {m n} hne => ?_
  intro p hm hn
  exact hne ((mem_trails.mp hm).2.symm.trans (mem_trails.mp hn).2)

lemma mem_paths (h : db.Explodable date bomId) :
    p ∈ db.paths date bomId ↔ db.IsPath date bomId p := by
  simp only [Tables.paths, Tables.IsPath, mem_filter, mem_flatMap, mem_range,
    mem_trails, trail_iff_reaches, Bool.not_eq_true']
  constructor
  · rintro ⟨⟨n, -, hp, -⟩, hph⟩
    exact ⟨hp, hph⟩
  · rintro ⟨hp, hph⟩
    refine ⟨⟨_, ?_, hp, rfl⟩, hph⟩
    by_contra hlong
    obtain ⟨q, hq, hlen, hqph⟩ := hp.exists_above (k := 15) (by omega)
    have := h.nests q hq hqph
    omega

/-- What the explosion of a bill is to return. -/
def Tables.IsExplosion (db : Tables) (date : Date) (bomId : ℕ) :
    Except ExplodeErr (List ExplodedLine) → Prop
  | .ok rows => db.Explodable date bomId ∧ ∃ paths : List (Line × List Line), paths.Nodup ∧
      (∀ p, p ∈ paths ↔ db.IsPath date bomId p) ∧ rows.Perm (paths.map pathRow)
  | .error _ => ¬ db.Explodable date bomId

/-- **The explosion is path-exact.** If every phantom that is reached has a bill and phantoms nest
less than 16 deep, the rows are those of the paths, each path once; otherwise an error is raised.
The query ends after 16 rounds. -/
theorem explodeBom_spec (db : Tables) (date : Date) (bomId : ℕ) :
    db.IsExplosion date bomId (explodeBom db date (some bomId)) ∧
      ∀ n, 16 ≤ n → db.walkLevel date bomId n = [] := by
  refine ⟨?_, fun n hn => walkLevel_eq_nil db date bomId hn⟩
  cases hfind : (db.walk date bomId).findSome? (·.orphan?) with
  | some sku =>
    have hres : explodeBom db date (some bomId) = .error (.bomMissing sku) := by
      simp only [explodeBom, hfind]
    rw [hres]
    intro hex
    obtain ⟨r, hr, horphan⟩ := List.exists_of_findSome?_eq_some hfind
    obtain ⟨p, hp, -, rfl⟩ := mem_walk.mp hr
    obtain ⟨⟨loc, qty, hdetail⟩, hph, hno⟩ := orphan?_eq_some.mp horphan
    exact hno (hex.has_bom p hp sku loc qty hdetail hph)
  | none =>
    by_cases hover : (db.walk date bomId).any (·.overflows)
    · have hres : explodeBom db date (some bomId) = .error .phantomRecursionLimit := by
        simp only [explodeBom, hfind, hover, if_true]
      rw [hres]
      intro hex
      obtain ⟨r, hr, hover⟩ := List.any_eq_true.mp hover
      obtain ⟨p, hp, -, rfl⟩ := mem_walk.mp hr
      obtain ⟨hlen, hph, -⟩ := overflows_trailRow.mp hover
      have := hex.nests p hp hph
      omega
    · have hres : explodeBom db date (some bomId) = .ok ((((db.walk date bomId).filter
          fun r => !r.compIsPhantom).map (·.toExplodedLine)).insertionSort
            fun a b => a.sortKey ≤ b.sortKey) := by
        simp only [explodeBom, hfind, hover]
        rfl
      rw [hres]
      have hex : db.Explodable date bomId := explodable_of_checks
        (List.findSome?_eq_none_iff.mp hfind) fun r hr hr' =>
          hover (List.any_eq_true.mpr ⟨r, hr, hr'⟩)
      refine ⟨hex, db.paths date bomId, nodup_paths bomId, fun p => mem_paths hex, ?_⟩
      refine (perm_insertionSort _ _).trans (List.Perm.of_eq ?_)
      rw [walk_eq, List.filter_map, List.map_map]
      rfl

/-- A frame of two panels and a bolt; a panel is a phantom with three screws. -/
def frameBill : Tables where
  headers := [⟨1, 10, 1, .active, true, none, none⟩, ⟨2, 20, 1, .active, true, none, none⟩]
  lines := [⟨1, 1, .item 20 7 2, 5, .opArrival, 10000⟩, ⟨1, 2, .item 30 7 1, 5, .opArrival, 10000⟩,
    ⟨2, 1, .item 40 7 3, 9, .opArrival, 10000⟩]
  isPhantom sku := sku = 20
  lines_key := by decide
  primary_key := by decide

example : explodeBom frameBill 0 (some 1) = .ok [⟨1, 2, 1, .item 30 7 1, 5, .opArrival, 10000⟩,
    ⟨2, 1, 2, .item 40 7 6, 5, .opArrival, 10000⟩] := by
  decide +kernel

end Acct.Main.Bom
