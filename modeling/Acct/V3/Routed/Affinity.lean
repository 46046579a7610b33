import Acct.Linked.UnionFind
import Acct.Table.Keyed
import Mathlib.Data.List.Dedup
import Mathlib.Data.List.FinRange
import Mathlib.Logic.Relation

/-!
# Affinity groups

`affinity_group` of `ledger-routed/src/router.rs` packs the candidates of a pass into groups that
share no pool: the elements of `UnionFind` are the indices of the candidates. The order in which a
hash map gives its keys is a parameter. The groups are the connected components of "shares a pool"
(`affinityGroup_components`).
-/

namespace Acct.V3

open List UnionFind Table

variable {κ β : Type*}

/-! ### The code -/

/-- `Candidate` -/
structure Candidate where
  stagingIdx : ℕ
  requestSeq : ℕ
  poolKeys : List ℤ
  deriving DecidableEq

/-- The values of a `HashMap<K, Vec<V>>` that was filled by `entry(k).or_default().push(v)`. -/
def hashValues [DecidableEq κ] (order : List κ → List κ) (pushes : List (κ × β)) : List (List β) :=
  (order (pushes.map (·.1))).map fun k => (pushes.filter (·.1 = k)).map (·.2)

def starEdges : List β → List (β × β)
  | [] => []
  | head :: others => others.map (head, ·)

def headSeq (g : List Candidate) : ℕ := (g.head?.map (·.requestSeq)).getD 0

variable (cands : List Candidate)

def poolToEnvs : List (ℤ × Fin cands.length) :=
  (finRange cands.length).flatMap fun idx => (cands.get idx).poolKeys.map (·, idx)

def poolEdges (poolOrder : List ℤ → List ℤ) : List (Fin cands.length × Fin cands.length) :=
  (hashValues poolOrder (poolToEnvs cands)).flatMap starEdges

/-- `affinity_group` -/
def affinityGroup (fuel : ℕ) (poolOrder : List ℤ → List ℤ)
    (rootOrder : List (Fin cands.length) → List (Fin cands.length)) :
    Option (List (List Candidate)) :=
  if cands.length = 0 then some []
  else do
    let uf ← (poolEdges cands poolOrder).foldlM (fun uf e => uf.union fuel e.1 e.2) new
    let roots ← uf.findAll fuel (finRange cands.length)
    let groups := hashValues rootOrder (roots.zip cands)
    return sortBy headSeq (groups.map (sortBy (·.requestSeq)))

/-! ### The components -/

/-- A hash map gives each of its keys once. -/
def Enumerates (order : List κ → List κ) : Prop :=
  ∀ ks, (order ks).Nodup ∧ ∀ k, k ∈ order ks ↔ k ∈ ks

/-- Two candidates of the list share a pool. -/
def Share (c c' : Candidate) : Prop :=
  c ∈ cands ∧ c' ∈ cands ∧ ∃ k, k ∈ c.poolKeys ∧ k ∈ c'.poolKeys

variable {cands} {order : List κ → List κ}

section Hash

variable [DecidableEq κ] {pushes : List (κ × β)}

lemma enumerates_dedup : Enumerates (dedup : List κ → List κ) :=
  fun ks => ⟨nodup_dedup ks, fun _ => mem_dedup⟩

lemma mem_hashValues (ho : Enumerates order) {vs : List β} :
    vs ∈ hashValues order pushes ↔
      ∃ k ∈ pushes.map (·.1), vs = (pushes.filter (·.1 = k)).map (·.2) := by
  simp only [hashValues, mem_map, (ho _).2, eq_comm]

lemma flatten_hashValues_perm (ho : Enumerates order) :
    (hashValues order pushes).flatten.Perm (pushes.map (·.2)) := by
  obtain ⟨hnd, hmem⟩ := ho (pushes.map (·.1))
  have hall : pushes = pushes.filter (·.1 ∈ order (pushes.map (·.1))) :=
    (filter_eq_self.mpr fun p hp => decide_eq_true ((hmem _).mpr (mem_map_of_mem hp))).symm
  unfold hashValues
  rw [← flatMap_def]
  generalize order (pushes.map (·.1)) = ks at hnd hall
  have hflat : (ks.flatMap fun k => pushes.filter (·.1 = k)).Perm
      (pushes.filter (·.1 ∈ ks)) := by
    clear hall hmem
    induction ks with
    | nil => simp
    | cons k ks ih =>
      rw [nodup_cons] at hnd
      rw [flatMap_cons]
      refine ((ih hnd.2).append_left _).trans ?_
      have hsplit := filter_append_perm (fun p => decide (p.1 = k))
        (pushes.filter (·.1 ∈ k :: ks))
      rw [filter_filter, filter_filter] at hsplit
      convert hsplit using 2
      · refine filter_congr fun p _ => ?_
        by_cases hp : p.1 = k <;> simp [hp]
      · refine filter_congr fun p _ => ?_
        by_cases hp : p.1 = k <;> simp [hp, hnd.1]
  rw [← hall] at hflat
  simpa [map_flatMap] using hflat.map (·.2)

end Hash

lemma starEdges_iff {R : Setoid β} {l : List β} :
    (∀ e ∈ starEdges l, R e.1 e.2) ↔ ∀ i ∈ l, ∀ j ∈ l, R i j := by
  cases l with
  | nil => simp [starEdges]
  | cons head others =>
    simp only [starEdges, forall_mem_map]
    constructor
    · intro h
      have hhead : ∀ x ∈ head :: others, R head x := forall_mem_cons.mpr ⟨R.refl head, h⟩
      exact fun i hi j hj => R.trans (R.symm (hhead i hi)) (hhead j hj)
    · exact fun h x hx => h head mem_cons_self x (mem_cons_of_mem head hx)

lemma poolEdges_iff {poolOrder : List ℤ → List ℤ} (ho : Enumerates poolOrder)
    {R : Setoid (Fin cands.length)} : (∀ e ∈ poolEdges cands poolOrder, R e.1 e.2) ↔
      ∀ i j, Share cands (cands.get i) (cands.get j) → R i j := by
  have hmem : ∀ k i, i ∈ ((poolToEnvs cands).filter (·.1 = k)).map (·.2) ↔
      k ∈ (cands.get i).poolKeys := by
    simp [poolToEnvs]
  constructor
  · rintro h i j ⟨-, -, k, hi, hj⟩
    have hkey : (k, i) ∈ poolToEnvs cands := by simpa [poolToEnvs] using hi
    have henvs := (mem_hashValues ho).mpr ⟨k, mem_map_of_mem hkey, rfl⟩
    exact starEdges_iff.mp (fun e he => h e (mem_flatMap.mpr ⟨_, henvs, he⟩))
      i ((hmem k i).mpr hi) j ((hmem k j).mpr hj)
  · intro h e he
    obtain ⟨envs, henvs, he⟩ := mem_flatMap.mp he
    obtain ⟨k, -, rfl⟩ := (mem_hashValues ho).mp henvs
    refine starEdges_iff.mpr (fun i hi j hj => h i j ?_) e he
    exact ⟨get_mem _ _, get_mem _ _, k, (hmem k i).mp hi, (hmem k j).mp hj⟩

lemma forest_poolEdges {poolOrder : List ℤ → List ℤ} (ho : Enumerates poolOrder)
    (hnd : cands.Nodup) {fuel : ℕ} (hf : (poolEdges cands poolOrder).length < fuel) : ∃ uf root,
    (poolEdges cands poolOrder).foldlM (fun uf e => uf.union fuel e.1 e.2) new = some uf ∧
      uf.findAll fuel (finRange cands.length) = some ((finRange cands.length).map root) ∧
      ∀ i j, root i = root j ↔ Relation.ReflTransGen (Share cands) (cands.get i) (cands.get j) := by
  obtain ⟨uf, root, hfold, hforest, hR⟩ :=
    forest_new.foldlM_union_spec (poolEdges cands poolOrder) (by rwa [Nat.zero_add])
  rw [Nat.zero_add] at hforest
  refine ⟨uf, root, hfold, hforest.findAll_eq hf _, fun i j => ⟨?_, fun hchain => ?_⟩⟩
  · have hsymm : Std.Symm (Share cands) :=
      ⟨fun c c' ⟨hc, hc', k, hk, hk'⟩ => ⟨hc', hc, k, hk', hk⟩⟩
    let linked : Setoid (Fin cands.length) :=
      ⟨fun i j => Relation.ReflTransGen (Share cands) (cands.get i) (cands.get j),
        fun _ => .refl, fun h => symm h, fun h h' => h.trans h'⟩
    refine (hR linked).mpr ⟨fun x y hxy => ?_, (poolEdges_iff ho).mpr fun _ _ => .single⟩ i j
    rw [show x = y from hxy]
  · have hshare := (poolEdges_iff ho).mp ((hR (Setoid.ker root)).mp fun _ _ h => h).2
    generalize hc' : cands.get j = c' at hchain
    induction hchain generalizing j with
    | refl => rw [nodup_iff_injective_get.mp hnd hc']
    | tail _ hlast ih =>
      obtain ⟨m, rfl⟩ := get_of_mem hlast.1
      subst hc'
      exact (ih m rfl).trans (hshare m j hlast)

lemma headSeq_sublist {groups : List (List Candidate)} (hne : ∀ g ∈ groups, g ≠ []) :
    (groups.map headSeq).Sublist (groups.flatten.map (·.requestSeq)) := by
  induction groups with
  | nil => exact .slnil
  | cons g groups ih =>
    obtain ⟨c, g, rfl⟩ := exists_cons_of_ne_nil (hne g mem_cons_self)
    have hrest := ih fun g hg => hne g (mem_cons_of_mem _ hg)
    simp only [map_cons, flatten_cons, cons_append, map_append]
    exact .cons_cons _ (hrest.trans (sublist_append_right _ _))

/-! ### The groups of a choice of roots -/

section Groups

variable (cands) (rootOrder : List (Fin cands.length) → List (Fin cands.length))
  (root : Fin cands.length → Fin cands.length)

def rootPushes : List (Fin cands.length × Candidate) :=
  (finRange cands.length).map fun i => (root i, cands.get i)

def groupOf (r : Fin cands.length) : List Candidate :=
  sortBy (·.requestSeq) (((rootPushes cands root).filter (·.1 = r)).map (·.2))

def groupsOf : List (List Candidate) :=
  sortBy headSeq ((hashValues rootOrder (rootPushes cands root)).map (sortBy (·.requestSeq)))

lemma map_rootPushes : (rootPushes cands root).map (·.2) = cands := by
  rw [rootPushes, map_map]
  exact map_get_finRange cands

lemma zip_roots : ((finRange cands.length).map root).zip cands = rootPushes cands root := by
  calc _ = ((finRange cands.length).map root).zip ((finRange cands.length).map cands.get) := by
        rw [map_get_finRange]
    _ = _ := zip_map' ..

variable {cands rootOrder root}

lemma mem_groupOf {r : Fin cands.length} {c : Candidate} :
    c ∈ groupOf cands root r ↔ ∃ i, root i = r ∧ cands.get i = c := by
  simp [groupOf, rootPushes]

variable (hseq : (cands.map (·.requestSeq)).Nodup) (ho : Enumerates rootOrder)

include hseq in
lemma pairwise_groupOf (r : Fin cands.length) :
    (groupOf cands root r).Pairwise (·.requestSeq < ·.requestSeq) := by
  have hsub := (filter_sublist (p := (·.1 = r)) (l := rootPushes cands root)).map (·.2)
  rw [map_rootPushes] at hsub
  exact pairwise_sortBy (hseq.sublist (hsub.map _))

include ho

lemma mem_groupsOf {g : List Candidate} :
    g ∈ groupsOf cands rootOrder root ↔ ∃ i, g = groupOf cands root (root i) := by
  simp only [groupsOf, mem_sortBy, mem_map, mem_hashValues ho]
  simp [groupOf, rootPushes, eq_comm]

lemma ne_nil_of_mem_groupsOf : ∀ g ∈ groupsOf cands rootOrder root, g ≠ [] := by
  intro g hg
  obtain ⟨i, rfl⟩ := (mem_groupsOf ho).mp hg
  exact ne_nil_of_mem (mem_groupOf.mpr ⟨i, rfl, rfl⟩)

lemma flatten_groupsOf_perm : (groupsOf cands rootOrder root).flatten.Perm cands := by
  refine (sortBy_perm _ _).flatten.trans ?_
  refine Perm.trans ?_ ((flatten_hashValues_perm ho).trans (.of_eq (map_rootPushes cands root)))
  rw [← flatMap_def, ← flatMap_id]
  exact Perm.flatMap_left _ fun vs _ => sortBy_perm _ vs

include hseq

lemma pairwise_groupsOf : (groupsOf cands rootOrder root).Pairwise (headSeq · < headSeq ·) := by
  have hflat : (groupsOf cands rootOrder root).flatten.Perm cands := flatten_groupsOf_perm ho
  have hnd := (hflat.map (·.requestSeq)).nodup_iff.mpr hseq
  have hheads := hnd.sublist (headSeq_sublist (ne_nil_of_mem_groupsOf ho))
  exact pairwise_sortBy (((sortBy_perm _ _).map headSeq).nodup_iff.mp hheads)

end Groups

/-- **Affinity groups are the connected components.** Whatever the order of the hash maps, every
series of unions, and every `find` after it, ends. Each candidate is in one group, two are in the
same one iff a chain of shared pools links them, and both orders are by `request_seq`. -/
theorem affinityGroup_components (cands : List Candidate)
    (hseq : (cands.map (·.requestSeq)).Nodup) (poolOrder : List ℤ → List ℤ)
    (hpool : Enumerates poolOrder) (rootOrder : List (Fin cands.length) → List (Fin cands.length))
    (hroot : Enumerates rootOrder) (fuel : ℕ) :
    (∀ pairs : List (Fin cands.length × Fin cands.length), pairs.length < fuel →
      ∃ uf, pairs.foldlM (fun uf e => uf.union fuel e.1 e.2) new = some uf ∧
        ∀ x, (uf.find fuel x).isSome) ∧
    ((poolEdges cands poolOrder).length < fuel →
      ∃ groups, affinityGroup cands fuel poolOrder rootOrder = some groups ∧
        groups.flatten.Perm cands ∧
        (∀ c ∈ cands, ∀ c' ∈ cands,
          (∃ g ∈ groups, c ∈ g ∧ c' ∈ g) ↔ Relation.ReflTransGen (Share cands) c c') ∧
        (∀ g ∈ groups, ∀ g' ∈ groups, ∀ c ∈ g, ∀ c' ∈ g', Share cands c c' → g = g') ∧
        (∀ g ∈ groups, g ≠ [] ∧ g.Pairwise (·.requestSeq < ·.requestSeq)) ∧
        groups.Pairwise (headSeq · < headSeq ·)) := by
  refine ⟨fun pairs hf => ?_, fun hf => ?_⟩
  · obtain ⟨uf, root, hfold, hforest, -⟩ :=
      forest_new.foldlM_union_spec pairs (by rwa [Nat.zero_add])
    refine ⟨uf, hfold, fun x => ?_⟩
    obtain ⟨uf', hfind, -⟩ := hforest.find_spec (by rwa [Nat.zero_add]) x
    rw [hfind]
    rfl
  by_cases hlen : cands.length = 0
  · refine ⟨[], if_pos hlen, ?_⟩
    simp [length_eq_zero_iff.mp hlen]
  obtain ⟨uf, root, hfold, hfind, hlinked⟩ := forest_poolEdges hpool (.of_map _ hseq) hf
  refine ⟨groupsOf cands rootOrder root, ?_, flatten_groupsOf_perm hroot, ?_, ?_, ?_,
    pairwise_groupsOf hseq hroot⟩
  · simp [affinityGroup, hlen, hfold, hfind, zip_roots, groupsOf]
  · intro c hc c' hc'
    obtain ⟨i, rfl⟩ := get_of_mem hc
    obtain ⟨j, rfl⟩ := get_of_mem hc'
    have hinj := nodup_iff_injective_get.mp (.of_map _ hseq)
    rw [← hlinked]
    constructor
    · rintro ⟨g, hg, hi, hj⟩
      obtain ⟨m, rfl⟩ := (mem_groupsOf hroot).mp hg
      obtain ⟨i', hi', hget⟩ := mem_groupOf.mp hi
      obtain ⟨j', hj', hget'⟩ := mem_groupOf.mp hj
      rw [← hinj hget, ← hinj hget', hi', hj']
    · intro heq
      exact ⟨groupOf cands root (root i), (mem_groupsOf hroot).mpr ⟨i, rfl⟩,
        mem_groupOf.mpr ⟨i, rfl, rfl⟩, mem_groupOf.mpr ⟨j, heq.symm, rfl⟩⟩
  · intro g hg g' hg' c hc c' hc' hshare
    obtain ⟨m, rfl⟩ := (mem_groupsOf hroot).mp hg
    obtain ⟨m', rfl⟩ := (mem_groupsOf hroot).mp hg'
    obtain ⟨i, hi, rfl⟩ := mem_groupOf.mp hc
    obtain ⟨j, hj, rfl⟩ := mem_groupOf.mp hc'
    rw [← hi, ← hj, (hlinked i j).mpr (.single hshare)]
  · intro g hg
    refine ⟨ne_nil_of_mem_groupsOf hroot g hg, ?_⟩
    obtain ⟨m, rfl⟩ := (mem_groupsOf hroot).mp hg
    exact pairwise_groupOf hseq _

def threeCandidates : List Candidate := [⟨0, 3, [1]⟩, ⟨1, 1, [2, 1]⟩, ⟨2, 2, [5]⟩]

theorem affinityGroup_threeCandidates : affinityGroup threeCandidates 9 dedup dedup =
      some [[⟨1, 1, [2, 1]⟩, ⟨0, 3, [1]⟩], [⟨2, 2, [5]⟩]] ∧
    ∃ groups, affinityGroup threeCandidates 9 dedup dedup = some groups ∧
      groups.flatten.Perm threeCandidates := by
  refine ⟨by decide, ?_⟩
  obtain ⟨groups, h, hperm, -⟩ := (affinityGroup_components threeCandidates (by decide) dedup
    enumerates_dedup dedup enumerates_dedup 9).2 (by decide)
  exact ⟨groups, h, hperm⟩

end Acct.V3
