import Mathlib.Data.Setoid.Basic
import Mathlib.Logic.Function.Basic
import Mathlib.Order.Basic

/-!
# Disjoint sets with path compression and union by rank

The loops of `find` take fuel, and `none` is a loop that has not ended. `Forest uf root B`: `uf` is
a forest with the roots `root` and ranks up to `B`, which grow towards the root, so fuel above `B`
ends every walk. Unions give the least equivalence with their pairs (`foldlM_union_spec`).
-/

namespace Acct

open Function

structure UnionFind (ι : Type*) where
  parent : ι → ι
  rank : ι → ℕ

namespace UnionFind

variable {ι : Type*} [DecidableEq ι] {uf : UnionFind ι} {root : ι → ι} {B fuel : ℕ}

def new : UnionFind ι := ⟨id, fun _ => 0⟩

def rootFrom (uf : UnionFind ι) : ℕ → ι → Option ι
  | 0, _ => none
  | fuel + 1, x => if uf.parent x = x then some x else uf.rootFrom fuel (uf.parent x)

def compress (root : ι) : ℕ → ι → UnionFind ι → Option (UnionFind ι)
  | 0, _, _ => none
  | fuel + 1, cur, uf =>
    if uf.parent cur = root then some uf
    else compress root fuel (uf.parent cur) { uf with parent := update uf.parent cur root }

def find (fuel : ℕ) (uf : UnionFind ι) (x : ι) : Option (ι × UnionFind ι) := do
  let root ← uf.rootFrom fuel x
  let uf ← compress root fuel x uf
  return (root, uf)

def union (fuel : ℕ) (uf : UnionFind ι) (a b : ι) : Option (UnionFind ι) := do
  let (ra, uf) ← uf.find fuel a
  let (rb, uf) ← uf.find fuel b
  return if ra = rb then uf
    else if uf.rank ra < uf.rank rb then { uf with parent := update uf.parent ra rb }
    else if uf.rank ra > uf.rank rb then { uf with parent := update uf.parent rb ra }
    else ⟨update uf.parent rb ra, update uf.rank ra (uf.rank ra + 1)⟩

def findAll (fuel : ℕ) : UnionFind ι → List ι → Option (List ι)
  | _, [] => some []
  | uf, x :: xs => do
    let (root, uf) ← uf.find fuel x
    let roots ← uf.findAll fuel xs
    return root :: roots

structure Forest (uf : UnionFind ι) (root : ι → ι) (B : ℕ) : Prop where
  rank_lt : ∀ x, uf.parent x ≠ x → uf.rank x < uf.rank (uf.parent x)
  rank_le : ∀ x, uf.rank x ≤ B
  parent_root : ∀ x, uf.parent (root x) = root x
  root_parent : ∀ x, root (uf.parent x) = root x
  root_of_fixed : ∀ x, uf.parent x = x → root x = x

lemma classes_link {a b r s : ι} (R : Setoid ι)
    (hrs : r = root a ∧ s = root b ∨ r = root b ∧ s = root a) :
    (∀ x y, (if root x = s then r else root x) = (if root y = s then r else root y) → R x y) ↔
      (∀ x y, root x = root y → R x y) ∧ R a b := by
  constructor
  · intro hR
    refine ⟨fun x y hxy => hR x y (by rw [hxy]), hR a b ?_⟩
    rcases hrs with ⟨rfl, rfl⟩ | ⟨rfl, rfl⟩ <;> simp
  · rintro ⟨hold, hab⟩ x y hxy
    have hsr : ∀ x y, root x = s → root y = r → R x y := by
      intro x y hx hy
      rcases hrs with ⟨rfl, rfl⟩ | ⟨rfl, rfl⟩
      · exact R.trans (hold x b hx) (R.trans (R.symm hab) (hold a y hy.symm))
      · exact R.trans (hold x a hx) (R.trans hab (hold b y hy.symm))
    split_ifs at hxy with hx hy hy
    · exact hold x y (hx.trans hy.symm)
    · exact hsr x y hx hxy.symm
    · exact R.symm (hsr y x hy hxy)
    · exact hold x y hxy

namespace Forest

variable (h : Forest uf root B)
include h

omit [DecidableEq ι] in
lemma root_root (x : ι) : root (root x) = root x :=
  h.root_of_fixed _ (h.parent_root x)

lemma rank_lt_root {x : ι} (hx : root x ≠ x) :
    uf.rank x < uf.rank (root x) := by
  -- induction on the distance of the rank from the bound
  induction hk : B - uf.rank x using Nat.strong_induction_on generalizing x with
  | h k ih =>
    have hlt := h.rank_lt x fun hfix => hx (h.root_of_fixed x hfix)
    have hle := h.rank_le (uf.parent x)
    rw [← h.root_parent x]
    by_cases hp : root (uf.parent x) = uf.parent x
    · rwa [hp]
    · exact hlt.trans (ih _ (by omega) hp rfl)

lemma rootFrom_eq {x : ι} (hf : B - uf.rank x < fuel) :
    uf.rootFrom fuel x = some (root x) := by
  induction fuel generalizing x with
  | zero => omega
  | succ fuel ih =>
    unfold rootFrom
    split_ifs with hfix
    · rw [h.root_of_fixed x hfix]
    · have hlt := h.rank_lt x hfix
      have hle := h.rank_le (uf.parent x)
      rw [ih (by omega), h.root_parent]

lemma shorten {x : ι} (hx : root x ≠ x) :
    Forest { uf with parent := update uf.parent x (root x) } root B where
  rank_lt y hy := by
    by_cases hyx : y = x
    · subst hyx
      simpa using h.rank_lt_root hx
    · simp only [update_of_ne hyx] at hy ⊢
      exact h.rank_lt y hy
  rank_le := h.rank_le
  parent_root y := by
    have hne : root y ≠ x := fun heq => hx (heq ▸ h.root_root y)
    simp [hne, h.parent_root]
  root_parent y := by
    by_cases hyx : y = x
    · subst hyx
      simpa using h.root_root y
    · simp [hyx, h.root_parent]
  root_of_fixed y hy := by
    by_cases hyx : y = x
    · subst hyx
      simpa using hy
    · exact h.root_of_fixed y (by simpa [hyx] using hy)

lemma compress_spec {x : ι} (hf : B - uf.rank x < fuel) :
    ∃ uf', compress (root x) fuel x uf = some uf' ∧ Forest uf' root B := by
  induction fuel generalizing x uf with
  | zero => omega
  | succ fuel ih =>
    unfold compress
    split_ifs with hroot
    · exact ⟨uf, rfl, h⟩
    · have hfix : uf.parent x ≠ x := fun hfix => hroot (hfix.trans (h.root_of_fixed x hfix).symm)
      have hx : root x ≠ x := by
        intro hx
        have hself := h.parent_root x
        rw [hx] at hself
        exact hfix hself
      have hlt := h.rank_lt x hfix
      have hle := h.rank_le (uf.parent x)
      have hrest := ih (h.shorten hx) (show B - uf.rank (uf.parent x) < fuel by omega)
      rwa [h.root_parent] at hrest

lemma find_spec (hf : B < fuel) (x : ι) :
    ∃ uf', uf.find fuel x = some (root x, uf') ∧ Forest uf' root B := by
  have hrank : B - uf.rank x < fuel := by omega
  obtain ⟨uf', huf, h'⟩ := h.compress_spec hrank
  exact ⟨uf', by simp [find, h.rootFrom_eq hrank, huf], h'⟩

lemma findAll_eq (hf : B < fuel) (xs : List ι) :
    uf.findAll fuel xs = some (xs.map root) := by
  induction xs generalizing uf with
  | nil => rfl
  | cons x xs ih =>
    obtain ⟨uf', hfind, h'⟩ := h.find_spec hf x
    simp [findAll, hfind, ih h']

/-- The root `s` is hung from the root `r`. -/
lemma link {r s : ι} (hr : uf.parent r = r) (hs : uf.parent s = s)
    (hne : r ≠ s) {rank : ι → ℕ} (hrank : ∀ x ≠ r, rank x = uf.rank x)
    (hle : uf.rank r ≤ rank r) (hlt : uf.rank s < rank r) (hB : rank r ≤ B + 1) :
    Forest ⟨update uf.parent s r, rank⟩ (fun x => if root x = s then r else root x) (B + 1) where
  rank_lt y hy := by
    have hmono : ∀ x, uf.rank x ≤ rank x := by
      intro x
      by_cases hx : x = r
      · rwa [hx]
      · exact (hrank x hx).ge
    by_cases hys : y = s
    · subst hys
      simpa [hrank y hne.symm] using hlt
    · simp only [update_of_ne hys] at hy ⊢
      have hyr : y ≠ r := fun heq => hy (heq ▸ hr)
      rw [hrank y hyr]
      exact (h.rank_lt y hy).trans_le (hmono _)
  rank_le x := by
    by_cases hx : x = r
    · rwa [hx]
    · exact (hrank x hx).trans_le ((h.rank_le x).trans (Nat.le_succ B))
  parent_root x := by
    show update uf.parent s r (if root x = s then r else root x) = _
    split_ifs with hx
    · rw [update_of_ne hne, hr]
    · rw [update_of_ne hx, h.parent_root]
  root_parent x := by
    by_cases hx : x = s
    · subst hx
      simp [h.root_of_fixed r hr, h.root_of_fixed x hs, hne]
    · simp [hx, h.root_parent]
  root_of_fixed x hx := by
    show (if root x = s then r else root x) = x
    by_cases hxs : x = s
    · subst hxs
      exact absurd (by simpa using hx) hne
    · have hroot := h.root_of_fixed x (by simpa [hxs] using hx)
      rw [hroot, if_neg hxs]

/-- The equivalences that have the new classes are those that have the old ones and the pair. -/
lemma union_spec (hf : B < fuel) (a b : ι) : ∃ uf' root',
    uf.union fuel a b = some uf' ∧ Forest uf' root' (B + 1) ∧ ∀ R : Setoid ι,
      (∀ x y, root' x = root' y → R x y) ↔ (∀ x y, root x = root y → R x y) ∧ R a b := by
  obtain ⟨uf1, hfind1, h1⟩ := h.find_spec hf a
  obtain ⟨uf2, hfind2, h2⟩ := h1.find_spec hf b
  have hra := h2.parent_root a
  have hrb := h2.parent_root b
  have hleA := h2.rank_le (root a)
  have hleB := h2.rank_le (root b)
  simp only [union, hfind1, hfind2, Option.bind_eq_bind, Option.bind_some, Option.pure_def]
  split_ifs with hsame hlt hgt
  · refine ⟨uf2, root, rfl, ⟨h2.rank_lt, fun x => (h2.rank_le x).trans (Nat.le_succ B),
      h2.parent_root, h2.root_parent, h2.root_of_fixed⟩, fun R => ?_⟩
    exact (and_iff_left_of_imp fun hR => hR a b hsame).symm
  · exact ⟨_, _, rfl, h2.link hrb hra (Ne.symm hsame) (fun _ _ => rfl) le_rfl hlt (by omega),
      fun R => classes_link R (.inr ⟨rfl, rfl⟩)⟩
  · exact ⟨_, _, rfl, h2.link hra hrb hsame (fun _ _ => rfl) le_rfl hgt (by omega),
      fun R => classes_link R (.inl ⟨rfl, rfl⟩)⟩
  · refine ⟨_, _, rfl, h2.link hra hrb hsame (fun x hx => update_of_ne hx _ _) ?_ ?_ ?_,
      fun R => classes_link R (.inl ⟨rfl, rfl⟩)⟩
    all_goals
      rw [update_self]
      omega

lemma foldlM_union_spec (edges : List (ι × ι))
    (hf : B + edges.length < fuel) : ∃ uf' root',
    edges.foldlM (fun uf e => uf.union fuel e.1 e.2) uf = some uf' ∧
      Forest uf' root' (B + edges.length) ∧ ∀ R : Setoid ι,
        (∀ x y, root' x = root' y → R x y) ↔
          (∀ x y, root x = root y → R x y) ∧ ∀ e ∈ edges, R e.1 e.2 := by
  induction edges generalizing uf root B with
  | nil => exact ⟨uf, root, rfl, h, by simp⟩
  | cons e edges ih =>
    rw [List.length_cons] at hf
    obtain ⟨uf1, root1, hunion, h1, hR1⟩ := h.union_spec (show B < fuel by omega) e.1 e.2
    obtain ⟨uf2, root2, hfold, h2, hR2⟩ := ih h1 (by omega)
    refine ⟨uf2, root2, ?_, ?_, fun R => ?_⟩
    · rw [List.foldlM_cons, hunion]
      exact hfold
    · rwa [List.length_cons, Nat.add_comm edges.length, ← Nat.add_assoc]
    · rw [hR2, hR1, and_assoc, List.forall_mem_cons]

end Forest

omit [DecidableEq ι] in
lemma forest_new : Forest (new : UnionFind ι) id 0 := by
  constructor <;> simp [new]

end UnionFind

end Acct
