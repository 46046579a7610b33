import Acct.V31.Oracle.Envelope
import Mathlib.Algebra.Order.BigOperators.Group.List

/-!
# Legal outcomes are explained

A short list of operations is tried in every order: `permute` visits every permutation of the places
(`permute_append`). For a longer list, what an order applies is a sublist of its depletions
(`simulateOrder_eq`), whose sum is in the table of subset sums of any other order (`sum_mem_foldl`).
If the pool starts empty that verdict is exact as well (`exists_perm_of_explained`).
-/

namespace Acct.V31

open List

/-! ### Every order is visited -/

lemma swap_append {α : Type} (pre rest : List α) (j : ℕ) :
    (pre ++ rest).swap pre.length (pre.length + j) = pre ++ rest.swap 0 j := by
  induction pre with
  | nil => simp
  | cons a pre ih =>
    rw [length_cons, Nat.succ_add]
    exact congrArg (a :: ·) ih

lemma swap_zero {α : Type} {rest : List α} {j : ℕ} (hj : j < rest.length) :
    rest.swap 0 j = rest[j] :: (rest.swap 0 j).tail := by
  cases rest with
  | nil => simp at hj
  | cons a rest =>
    cases j with
    | zero => simp
    | succ j => simp [getElem?_eq_getElem (Nat.lt_of_succ_lt_succ hj)]

lemma perm_iff_swap {α : Type} {l rest : List α} (hne : rest ≠ []) : l ~ rest ↔
    ∃ j < rest.length, ∃ y tail l', rest.swap 0 j = y :: tail ∧ l = y :: l' ∧ l' ~ tail := by
  constructor
  · intro h
    cases l with
    | nil => exact absurd h.nil_eq.symm hne
    | cons y l' =>
      obtain ⟨j, hj, rfl⟩ := getElem_of_mem (h.subset mem_cons_self)
      refine ⟨j, hj, rest[j], _, l', swap_zero hj, rfl, Perm.cons_inv (a := rest[j]) ?_⟩
      rw [← swap_zero hj]
      exact h.trans (swap_perm rest 0 j).symm
  · rintro ⟨j, -, y, tail, l', hswap, rfl, hl⟩
    exact (hl.cons y).trans (hswap ▸ swap_perm rest 0 j)

/-- From `out` on, the places are as they were and the values with `P` have been added. -/
def Adds (arr : List ℕ) (out : Finset ℤ) (P : ℤ → Prop) (x : List ℕ × Finset ℤ) : Prop :=
  x.1 = arr ∧ ∀ q, q ∈ x.2 ↔ q ∈ out ∨ P q

lemma Adds.foldl {a l : List ℕ} {P : ℕ → ℤ → Prop} {r : List ℕ × Finset ℤ → ℕ → List ℕ × Finset ℤ}
    (h : ∀ i ∈ l, ∀ out, Adds a out (P i) (r (a, out) i)) (out : Finset ℤ) :
    Adds a out (fun q => ∃ i ∈ l, P i q) (l.foldl r (a, out)) := by
  induction l generalizing out with
  | nil => simp [Adds]
  | cons i l ih =>
    obtain ⟨harr, hout⟩ := h i mem_cons_self out
    have hrest := ih (fun j hj => h j (mem_cons_of_mem i hj)) (r (a, out) i).2
    rw [foldl_cons, show r (a, out) i = (a, (r (a, out) i).2) from Prod.ext harr rfl]
    refine ⟨hrest.1, fun q => ?_⟩
    rw [hrest.2 q, hout q]
    simp [or_assoc]

/-- `permute` leaves the places as they were, and visits each order of those from `k` on. -/
lemma permute_append (f : List ℕ → ℤ) (m : ℕ) (pre rest : List ℕ) (out : Finset ℤ)
    (hm : rest.length = m) : Adds (pre ++ rest) out (fun q => ∃ l, l ~ rest ∧ f (pre ++ l) = q)
      (permute (fun a out => insert (f a) out) m pre.length (pre ++ rest, out)) := by
  induction m generalizing pre rest out with
  | zero =>
    obtain rfl := eq_nil_of_length_eq_zero hm
    refine ⟨rfl, fun q => ?_⟩
    simp [permute, eq_comm, or_comm]
  | succ m ih =>
    have hne : rest ≠ [] := ne_nil_of_length_eq_add_one hm
    have hloop := Adds.foldl (a := pre ++ rest) (l := range' pre.length (m + 1))
      (P := fun i q => ∃ y tail l', rest.swap 0 (i - pre.length) = y :: tail ∧ l' ~ tail ∧
        f (pre ++ y :: l') = q)
      (r := fun x i =>
        let (arr, s) := permute (fun a out => insert (f a) out) m (pre.length + 1)
          (x.1.swap pre.length i, x.2)
        (arr.swap pre.length i, s)) ?_ out
    · refine ⟨hloop.1, fun q => (hloop.2 q).trans (or_congr_right ⟨?_, ?_⟩)⟩
      · rintro ⟨i, hi, y, tail, l, hswap, hl, rfl⟩
        rw [mem_range'_1] at hi
        exact ⟨y :: l, (perm_iff_swap hne).mpr ⟨_, by omega, y, tail, l, hswap, rfl, hl⟩, rfl⟩
      · rintro ⟨l, hl, rfl⟩
        obtain ⟨j, hj, y, tail, l', hswap, rfl, hl'⟩ := (perm_iff_swap hne).mp hl
        refine ⟨pre.length + j, by rw [mem_range'_1]; omega, y, tail, l', ?_, hl', rfl⟩
        rw [Nat.add_sub_cancel_left, hswap]
    · -- a round brings an entry forward, visits the orders of the rest and puts it back
      intro i hi out
      obtain ⟨j, hj, rfl⟩ : ∃ j < rest.length, i = pre.length + j := by
        rw [mem_range'_1] at hi
        exact ⟨i - pre.length, by omega, by omega⟩
      have hih := ih (pre ++ [rest[j]]) (rest.swap 0 j).tail out (by simp [hm])
      rw [append_assoc, singleton_append, ← swap_zero hj, length_append, length_singleton] at hih
      rw [Nat.add_sub_cancel_left]
      refine ⟨?_, fun q => ?_⟩
      · dsimp only
        rw [swap_append, hih.1, swap_append, swap_swap]
      · rw [swap_append, hih.2 q, swap_zero hj]
        refine or_congr_right ⟨?_, ?_⟩
        · rintro ⟨l, hl, rfl⟩
          exact ⟨_, _, l, rfl, hl, by simp⟩
        · rintro ⟨y, tail, l, heq, hl, rfl⟩
          obtain ⟨rfl, rfl⟩ := cons.inj heq
          exact ⟨l, hl, by simp⟩

lemma mem_reachableFinalQtys {startQty : ℤ} {ops : List ℤ} {q : ℤ} :
    q ∈ reachableFinalQtys startQty ops ↔ ∃ l, l ~ ops ∧ simulateOrder startQty l = q := by
  have hvisit := (permute_append (fun perm => simulateOrder startQty (perm.map (ops.getD · 0)))
    ops.length [] (range ops.length) ∅ (by simp)).2 q
  rw [nil_append] at hvisit
  refine hvisit.trans ?_
  have hid : (range ops.length).map (ops.getD · 0) = ops := by
    refine ext_getElem (by simp) fun i _ hi => ?_
    simp [hi]
  -- an order of the operations is one of their places
  have hperm : ∀ l, l ~ ops ↔
      ∃ places, l = places.map (ops.getD · 0) ∧ places ~ range ops.length := by
    intro l
    nth_rewrite 1 [← hid]
    exact iff_of_eq (congrFun₂ (eq_map_comp_perm (ops.getD · 0)) l (range ops.length)).symm
  simp only [Finset.notMem_empty, false_or, nil_append, hperm]
  constructor
  · rintro ⟨places, hplaces, rfl⟩
    exact ⟨_, ⟨places, rfl, hplaces⟩, rfl⟩
  · rintro ⟨_, ⟨places, rfl, hplaces⟩, rfl⟩
    exact ⟨places, hplaces, rfl⟩

/-! ### What an order applies -/

lemma simulateOrder_cons (startQty op : ℤ) (ops : List ℤ) :
    simulateOrder startQty (op :: ops) = simulateOrder
      (if op ≥ 0 then startQty + op else if startQty ≥ -op then startQty + op else startQty) ops :=
  rfl

lemma simulateOrder_eq {startQty : ℤ} (h : 0 ≤ startQty) (ops : List ℤ) :
    0 ≤ simulateOrder startQty ops ∧ ∃ ds, ds <+ depletions ops ∧
      simulateOrder startQty ops = startQty + totalReceipts ops - ds.sum := by
  induction ops generalizing startQty with
  | nil => exact ⟨h, [], by simp [depletions], by simp [simulateOrder, totalReceipts]⟩
  | cons op ops ih =>
    rw [simulateOrder_cons]
    rcases lt_trichotomy op 0 with hneg | rfl | hpos
    · rw [if_neg (by omega)]
      have hdep : depletions (op :: ops) = -op :: depletions ops := by simp [depletions, hneg]
      have hrec : totalReceipts (op :: ops) = totalReceipts ops := by
        simp [totalReceipts, hneg.le]
      rw [hdep, hrec]
      split_ifs with hroom
      · have hroom' : 0 ≤ startQty + op := by omega
        obtain ⟨hle, ds, hds, heq⟩ := ih hroom'
        refine ⟨hle, -op :: ds, hds.cons_cons _, ?_⟩
        rw [heq, sum_cons]
        omega
      · obtain ⟨hle, ds, hds, heq⟩ := ih h
        exact ⟨hle, ds, hds.cons _, heq⟩
    · simpa [depletions, totalReceipts] using ih h
    · rw [if_pos hpos.le]
      have hle' : 0 ≤ startQty + op := by omega
      obtain ⟨hle, ds, hds, heq⟩ := ih hle'
      refine ⟨hle, ds, ?_, ?_⟩
      · simpa [depletions, hpos.le] using hds
      · simp only [totalReceipts, hpos, decide_true, filter_cons_of_pos, sum_cons] at heq ⊢
        omega

lemma pos_of_mem_depletions {ops : List ℤ} {d : ℤ} (h : d ∈ depletions ops) : 0 < d := by
  obtain ⟨op, hop, rfl⟩ := mem_map.mp h
  have hneg : op < 0 := by simpa using (mem_filter.mp hop).2
  omega

lemma sum_mem_foldl {cap : ℤ} {ds vs : List ℤ} (h : ds <+ vs) (hpos : ∀ v ∈ vs, 0 < v) {s : ℤ}
    {reachable : Finset ℤ} (hs : s ∈ reachable) (hcap : s + ds.sum ≤ cap) :
    s + ds.sum ∈ vs.foldl (fun reachable v => if v ≤ 0 then reachable
      else reachable ∪ (reachable.image (· + v)).filter (· ≤ cap)) reachable := by
  induction h generalizing s reachable with
  | slnil => simpa using hs
  | cons v h ih =>
    have hv := hpos v mem_cons_self
    rw [foldl_cons, if_neg (by omega)]
    exact ih (fun w hw => hpos w (mem_cons_of_mem _ hw)) (Finset.mem_union_left _ hs) hcap
  | @cons_cons ds vs v h ih =>
    have hv := hpos v mem_cons_self
    rw [foldl_cons, if_neg (by omega)]
    rw [sum_cons, ← add_assoc] at hcap ⊢
    have hrest : ∀ w ∈ vs, 0 < w := fun w hw => hpos w (mem_cons_of_mem v hw)
    refine ih hrest (Finset.mem_union_right _ ?_) hcap
    have hsum : 0 ≤ ds.sum := sum_nonneg fun w hw => (hrest w (h.subset hw)).le
    exact Finset.mem_filter.mpr ⟨Finset.mem_image_of_mem _ hs, by omega⟩

/-- Legal outcomes are explained, and short lists explain nothing else. -/
theorem explained_of_perm (startQty : ℤ) (h : 0 ≤ startQty) (ops : List ℤ) :
    (∀ l, l ~ ops → (explainsFinalQty startQty ops (simulateOrder startQty l)).explained = true) ∧
    (ops.length ≤ enumOpCap → ∀ q, (explainsFinalQty startQty ops q).explained = true ↔
      ∃ l, l ~ ops ∧ simulateOrder startQty l = q) := by
  have hexact : ops.length ≤ enumOpCap → ∀ q,
      (explainsFinalQty startQty ops q).explained = true ↔
        ∃ l, l ~ ops ∧ simulateOrder startQty l = q := by
    intro hshort q
    rw [explainsFinalQty, if_pos hshort, ← mem_reachableFinalQtys]
    simp [Verdict.explained]
  refine ⟨fun l hl => ?_, hexact⟩
  by_cases hshort : ops.length ≤ enumOpCap
  · exact (hexact hshort _).mpr ⟨l, hl, rfl⟩
  obtain ⟨hnonneg, ds, hds, heq⟩ := simulateOrder_eq h l
  have hreceipts : totalReceipts l = totalReceipts ops := (hl.filter _).sum_eq
  have hdepletions : depletions l ~ depletions ops := (hl.filter _).map _
  -- what was applied, as a sublist of the depletions in their own order
  obtain ⟨ds', hperm, hsub⟩ := hds.subperm.trans hdepletions.subperm
  have hpos : ∀ d ∈ depletions ops, 0 < d := fun d => pos_of_mem_depletions
  have hle : ds'.sum ≤ (depletions ops).sum := hsub.sum_le_sum fun d hd => (hpos d hd).le
  have hsum : 0 ≤ ds'.sum := sum_nonneg fun d hd => (hpos d (hsub.subset hd)).le
  rw [← hperm.sum_eq, hreceipts] at heq
  have happlied : startQty + totalReceipts ops - simulateOrder startQty l = ds'.sum := by omega
  have hmem : ds'.sum ∈ subsetSums (depletions ops) (max ds'.sum 0) := by
    have hcap : 0 + ds'.sum ≤ max ds'.sum 0 := by omega
    have hfold := sum_mem_foldl hsub hpos (Finset.mem_singleton_self 0) hcap
    rwa [zero_add] at hfold
  simp only [explainsFinalQty, if_neg hshort, Verdict.explained, happlied, decide_eq_true_eq]
  exact ⟨⟨by omega, by omega, hnonneg⟩, hsum, hle, hmem⟩

/-- Two of the three orders of a receipt and two depletions that do not both fit. -/
theorem explained_of_perm_sample : (0 : ℤ) ≤ 0 ∧
    (explainsFinalQty 0 [10, -6, -5] (simulateOrder 0 [-5, 10, -6])).explained = true ∧
    ((explainsFinalQty 0 [10, -6, -5] 3).explained = true ↔
      ∃ l, l ~ [10, -6, -5] ∧ simulateOrder 0 l = 3) := by
  have hsample := explained_of_perm 0 le_rfl [10, -6, -5]
  exact ⟨le_rfl, hsample.1 [-5, 10, -6] (by decide), hsample.2 (by decide) 3⟩

/-! ### From an empty pool -/

/-- A sum in the table is one that was there before, and some of the values. -/
lemma exists_sublist_of_mem_foldl {cap s : ℤ} {vs : List ℤ} {reachable : Finset ℤ}
    (h : s ∈ vs.foldl (fun reachable v => if v ≤ 0 then reachable
      else reachable ∪ (reachable.image (· + v)).filter (· ≤ cap)) reachable) :
    ∃ s₀ ∈ reachable, ∃ ds, ds <+ vs ∧ s = s₀ + ds.sum := by
  induction vs generalizing reachable with
  | nil => exact ⟨s, h, [], .slnil, by simp⟩
  | cons v vs ih =>
    obtain ⟨s₁, hs₁, ds, hds, rfl⟩ := ih h
    dsimp only at hs₁
    split_ifs at hs₁
    · exact ⟨s₁, hs₁, ds, hds.cons _, rfl⟩
    rcases Finset.mem_union.mp hs₁ with hs | hs
    · exact ⟨s₁, hs, ds, hds.cons _, rfl⟩
    · obtain ⟨s₀, hs₀, rfl⟩ := Finset.mem_image.mp (Finset.mem_filter.mp hs).1
      exact ⟨s₀, hs₀, v :: ds, hds.cons_cons v, by simp [add_assoc]⟩

lemma simulateOrder_append (q : ℤ) (l l' : List ℤ) :
    simulateOrder q (l ++ l') = simulateOrder (simulateOrder q l) l' := foldl_append

lemma simulateOrder_dropped {l : List ℤ} (h : ∀ op ∈ l, op < 0) : simulateOrder 0 l = 0 := by
  induction l with
  | nil => rfl
  | cons op l ih =>
    have hop := h op mem_cons_self
    rw [simulateOrder_cons, if_neg (by omega), if_neg (by omega)]
    exact ih fun x hx => h x (mem_cons_of_mem _ hx)

lemma simulateOrder_received {q : ℤ} {l : List ℤ} (h : ∀ op ∈ l, 0 ≤ op) :
    simulateOrder q l = q + l.sum := by
  induction l generalizing q with
  | nil => simp [simulateOrder]
  | cons op l ih =>
    rw [simulateOrder_cons, if_pos (h op mem_cons_self),
      ih fun x hx => h x (mem_cons_of_mem _ hx), sum_cons, add_assoc]

lemma simulateOrder_applied {q : ℤ} {l : List ℤ} (h : ∀ op ∈ l, op < 0) (hq : 0 ≤ q + l.sum) :
    simulateOrder q l = q + l.sum := by
  induction l generalizing q with
  | nil => simp [simulateOrder]
  | cons op l ih =>
    have hop := h op mem_cons_self
    have hrest : ∀ x ∈ l, x < 0 := fun x hx => h x (mem_cons_of_mem _ hx)
    have hsum : l.sum ≤ 0 := by simpa using sum_le_card_nsmul l 0 fun x hx => (hrest x hx).le
    rw [sum_cons, ← add_assoc] at hq ⊢
    rw [simulateOrder_cons, if_neg (by omega), if_pos (by omega), ih hrest hq]

lemma sum_receipts (ops : List ℤ) :
    (ops.filter fun op => !decide (op < 0)).sum = totalReceipts ops := by
  induction ops with
  | nil => rfl
  | cons op ops ih =>
    simp only [totalReceipts, filter_cons] at ih ⊢
    grind

/-- **The envelope of an empty pool is exact.** Every quantity that is explained is what some order
of the operations leaves, however many there are: first the depletions that are dropped, then the
receipts, then the depletions that are applied. -/
theorem exists_perm_of_explained (ops : List ℤ) (q : ℤ)
    (h : (explainsFinalQty 0 ops q).explained = true) :
    ∃ l, l ~ ops ∧ simulateOrder 0 l = q := by
  by_cases hshort : ops.length ≤ enumOpCap
  · rw [explainsFinalQty, if_pos hshort] at h
    exact mem_reachableFinalQtys.mp (of_decide_eq_true h)
  simp only [explainsFinalQty, if_neg hshort, Verdict.explained, decide_eq_true_eq] at h
  obtain ⟨⟨-, -, hq⟩, -, -, hmem⟩ := h
  obtain ⟨s₀, hs₀, ds, hds, hsum⟩ := exists_sublist_of_mem_foldl hmem
  obtain rfl := Finset.mem_singleton.mp hs₀
  obtain ⟨applied, happlied, rfl⟩ := sublist_map_iff.mp hds
  obtain ⟨dropped, hperm⟩ := happlied.exists_perm_append
  have hneg : ∀ op ∈ applied ++ dropped, op < 0 := fun op hop => by
    simpa using (mem_filter.mp (hperm.symm.subset hop)).2
  have hnonneg : ∀ op ∈ ops.filter (fun op => !decide (op < 0)), 0 ≤ op := fun op hop => by
    simpa using (mem_filter.mp hop).2
  have happly : (applied.map (- ·)).sum = -applied.sum := by simp [sum_neg]
  refine ⟨dropped ++ ops.filter (fun op => !decide (op < 0)) ++ applied, ?_, ?_⟩
  · refine (perm_append_comm.trans ?_).trans (filter_append_perm (· < 0) ops)
    rw [← append_assoc]
    exact hperm.symm.append_right _
  · rw [simulateOrder_append, simulateOrder_append,
      simulateOrder_dropped fun op hop => hneg op (mem_append_right _ hop),
      simulateOrder_received hnonneg, sum_receipts,
      simulateOrder_applied (fun op hop => hneg op (mem_append_left _ hop)) (by omega)]
    omega

/-- Nine operations, of which the depletion of six is dropped. -/
theorem exists_perm_of_explained_nine :
    (explainsFinalQty 0 [5, -6, -5, 1, 1, 1, 1, 1, 1] 6).explained = true ∧
    ∃ l, l ~ [5, -6, -5, 1, 1, 1, 1, 1, 1] ∧ simulateOrder 0 l = 6 :=
  ⟨by decide +kernel, exists_perm_of_explained _ _ (by decide +kernel)⟩

end Acct.V31
