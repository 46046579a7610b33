import Mathlib.Algebra.BigOperators.Group.List.Basic
import Mathlib.Data.List.Sort
import Mathlib.Data.List.MinMax

/-!
# Lists as keyed tables

A table is a list of rows, a primary key a function `key` with `(l.map key).Nodup`. `sortBy key l`
is `ORDER BY key`; strictly sorted lists are determined by their elements (`eq_of_mem_iff`).
`filterMap_find?_eq` is the join of a sorted table with rows that carry its keys, `sum_filter_key`
an aggregate over such rows, and `latest_append_of_lt` the latest version after newer rows.
-/

namespace Acct.Table

open List

variable {α β κ M : Type*}

lemma exists_of_forall₂_of_mem {R : β → α → Prop} {rows : List β} {l : List α}
    (h : List.Forall₂ R rows l) {r : β} (hr : r ∈ rows) : ∃ a ∈ l, R r a := by
  induction h with
  | nil => cases hr
  | @cons r' a rows l hra h ih =>
    rcases mem_cons.mp hr with rfl | hr
    · exact ⟨a, mem_cons_self, hra⟩
    · obtain ⟨b, hb, hR⟩ := ih hr
      exact ⟨b, mem_cons_of_mem _ hb, hR⟩

lemma forall₂_of_mapM_eq_some {f : α → Option β} {l : List α} {l' : List β}
    (h : l.mapM f = some l') : List.Forall₂ (fun a b => f a = some b) l l' := by
  induction l generalizing l' with
  | nil =>
    obtain rfl : [] = l' := by simpa using h
    exact .nil
  | cons a l ih =>
    simp only [mapM_cons, Option.bind_eq_bind, Option.bind_eq_some_iff, Option.pure_def,
      Option.some.injEq] at h
    obtain ⟨b, hb, rest, hrest, rfl⟩ := h
    exact .cons hb (ih hrest)

/-! ### Primary keys -/

section Key

variable [DecidableEq κ] {key : α → κ} {l : List α}

lemma filter_key_eq_singleton (hn : (l.map key).Nodup) {a : α} (ha : a ∈ l) :
    l.filter (key · = key a) = [a] := by
  induction l with
  | nil => cases ha
  | cons b l ih =>
    rw [map_cons, nodup_cons] at hn
    rcases mem_cons.mp ha with rfl | ha
    · have hnone : l.filter (key · = key a) = [] := by
        rw [filter_eq_nil_iff]
        intro b hb hk
        exact hn.1 (of_decide_eq_true hk ▸ List.mem_map_of_mem hb)
      rw [filter_cons_of_pos (by simp), hnone]
    · have hb : key b ≠ key a := fun hk => hn.1 (hk ▸ List.mem_map_of_mem ha)
      rw [filter_cons_of_neg (by simpa using hb), ih hn.2 ha]

lemma sum_ite_key [AddCommMonoid M] (hn : (l.map key).Nodup) {a : α} (ha : a ∈ l) (x : M) :
    (l.map fun b => if key b = key a then x else 0).sum = x := by
  rw [sum_map_ite, filter_key_eq_singleton hn ha]
  simp

lemma sum_filter_key [AddCommMonoid M] {f : β → κ} {rows : List β} (hn : (l.map key).Nodup)
    (h : ∀ r ∈ rows, ∃ a ∈ l, key a = f r) (w : β → M) :
    (l.map fun a => ((rows.filter (f · = key a)).map w).sum).sum = (rows.map w).sum := by
  induction rows with
  | nil => simp
  | cons r rows ih =>
    obtain ⟨a, ha, hk⟩ := h r mem_cons_self
    have hsplit : ∀ b, (((r :: rows).filter (f · = key b)).map w).sum =
        (if key b = key a then w r else 0) + ((rows.filter (f · = key b)).map w).sum := by
      intro b
      rw [filter_cons]
      by_cases hb : key b = key a
      · simp [hb, hk]
      · simp [hb, ← hk, Ne.symm hb]
    simp only [hsplit]
    rw [sum_map_add, sum_ite_key hn ha, ih fun r hr => h r (mem_cons_of_mem _ hr),
      map_cons, sum_cons]

lemma filterMap_find?_eq {f : β → κ} {rows : List β} (h : (rows.map f).Sublist (l.map key))
    (hn : (l.map key).Nodup) : l.filterMap (fun a => rows.find? (f · = key a)) = rows := by
  induction l generalizing rows with
  | nil =>
    have hnil : rows = [] := by simpa using h
    rw [hnil]
    rfl
  | cons a l ih =>
    rw [map_cons] at h hn
    obtain ⟨hnot, hn⟩ := nodup_cons.mp hn
    rcases sublist_cons_iff.mp h with h | ⟨r, hr, h⟩
    -- No row carries the head's key.
    · have hnone : rows.find? (f · = key a) = none := by
        rw [List.find?_eq_none]
        intro b hb hk
        apply hnot
        rw [← of_decide_eq_true hk]
        exact h.subset (List.mem_map_of_mem hb)
      simp only [filterMap_cons, hnone]
      exact ih h hn
    -- The first row does, and no later key equals it.
    · obtain ⟨b, rows, rfl⟩ : ∃ b rows', rows = b :: rows' := by
        cases rows with
        | nil => simp at hr
        | cons b rows => exact ⟨b, rows, rfl⟩
      rw [map_cons, List.cons.injEq] at hr
      obtain ⟨hb, rfl⟩ := hr
      have hsome : (b :: rows).find? (f · = key a) = some b := by simp [hb]
      simp only [filterMap_cons, hsome]
      congr 1
      refine Eq.trans (filterMap_congr fun x hx => ?_) (ih h hn)
      apply List.find?_cons_of_neg
      simp only [decide_eq_true_eq]
      intro hx'
      apply hnot
      rw [← hb, hx']
      exact List.mem_map_of_mem hx

/-- Rows written one for each entry of a keyed list: a key selects the row of its entry, or none. -/
lemma forall₂_filter_key {R : β → α → Prop} {f : β → κ} {rows : List β}
    (h : List.Forall₂ R rows l) (hR : ∀ r a, R r a → f r = key a) (hn : (l.map key).Nodup) (k : κ) :
    (rows.filter (f · = k) = [] ∧ ∀ a ∈ l, key a ≠ k) ∨
      ∃ r a, rows.filter (f · = k) = [r] ∧ a ∈ l ∧ key a = k ∧ R r a := by
  induction h with
  | nil => exact .inl ⟨rfl, by simp⟩
  | @cons r a rows l hra h ih =>
    rw [map_cons, nodup_cons] at hn
    by_cases hk : key a = k
    · refine .inr ⟨r, a, ?_, mem_cons_self, hk, hra⟩
      rw [filter_cons_of_pos (by simpa [hR r a hra] using hk)]
      rcases ih hn.2 with ⟨hnil, -⟩ | ⟨r', a', -, ha', hk', -⟩
      · rw [hnil]
      · exact absurd (hk.trans hk'.symm ▸ List.mem_map_of_mem ha') hn.1
    · rw [filter_cons_of_neg (by simpa [hR r a hra] using hk)]
      rcases ih hn.2 with ⟨hnil, hall⟩ | ⟨r', a', hr', ha', hk', hra'⟩
      · refine .inl ⟨hnil, ?_⟩
        rintro x (_ | ⟨_, hx⟩)
        · exact hk
        · exact hall x hx
      · exact .inr ⟨r', a', hr', mem_cons_of_mem _ ha', hk', hra'⟩

end Key

/-! ### Sorting -/

section Sorting

variable [LinearOrder κ] {key : α → κ} {l l₁ l₂ : List α}

/-- `ORDER BY key`. -/
def sortBy (key : α → κ) (l : List α) : List α := l.insertionSort fun a b => key a ≤ key b

lemma sortBy_perm (key : α → κ) (l : List α) : (sortBy key l).Perm l := perm_insertionSort _ _

@[simp] lemma mem_sortBy {a : α} : a ∈ sortBy key l ↔ a ∈ l := (sortBy_perm key l).mem_iff

lemma pairwise_le_sortBy (key : α → κ) (l : List α) : (sortBy key l).Pairwise (key · ≤ key ·) := by
  have : Std.Total fun a b : α => key a ≤ key b := ⟨fun a b => le_total _ _⟩
  have : IsTrans α fun a b => key a ≤ key b := ⟨fun a b c => le_trans⟩
  exact pairwise_insertionSort _ _

lemma pairwise_sortBy (hn : (l.map key).Nodup) :
    (sortBy key l).Pairwise (key · < key ·) := by
  have hne : (sortBy key l).Pairwise (key · ≠ key ·) := by
    have := ((sortBy_perm key l).map key).nodup_iff.mpr hn
    exact pairwise_map.mp this
  exact (pairwise_le_sortBy key l).imp₂ (fun a b h1 h2 => lt_of_le_of_ne h1 h2) hne

lemma filter_sortBy (key : α → κ) (l : List α) (k : κ) :
    (sortBy key l).filter (key · = k) = l.filter (key · = k) := by
  have hpair : (l.filter (key · = k)).Pairwise (key · ≤ key ·) := by
    refine pairwise_iff_forall_sublist.mpr fun {a b} hab => ?_
    have ha := hab.subset (mem_cons_self (a := a))
    have hb := hab.subset (mem_cons_of_mem a (mem_singleton_self b))
    rw [mem_filter, decide_eq_true_eq] at ha hb
    exact (ha.2.trans hb.2.symm).le
  have hsub := (sublist_insertionSort hpair filter_sublist).filter (key · = k)
  rw [List.filter_filter] at hsub
  simp only [Bool.and_self] at hsub
  exact (hsub.eq_of_length ((sortBy_perm key l).filter _).length_eq.symm).symm

lemma nodup_of_pairwise_lt (h : l.Pairwise (key · < key ·)) : l.Nodup :=
  h.imp fun hlt heq => absurd hlt (by rw [heq]; exact lt_irrefl _)

lemma sublist_of_subset (h1 : l₁.Pairwise (key · < key ·)) (h2 : l₂.Pairwise (key · < key ·))
    (h : l₁ ⊆ l₂) : l₁.Sublist l₂ := by
  have : Std.Antisymm fun a b : α => key a < key b :=
    ⟨fun a b hab hba => absurd hab (lt_asymm hba)⟩
  exact sublist_of_subperm_of_pairwise
    (subperm_of_subset (nodup_of_pairwise_lt h1) h) h1 h2

lemma eq_of_mem_iff (h1 : l₁.Pairwise (key · < key ·)) (h2 : l₂.Pairwise (key · < key ·))
    (h : ∀ a, a ∈ l₁ ↔ a ∈ l₂) : l₁ = l₂ :=
  (sublist_of_subset h1 h2 fun a => (h a).mp).antisymm
    (sublist_of_subset h2 h1 fun a => (h a).mpr)

/-- A list splits where a predicate that is closed downwards along it ends. -/
lemma filter_append_filter_not {p : α → Prop} [DecidablePred p]
    (h : l.Pairwise fun a b => p b → p a) : l.filter p ++ l.filter (¬ p ·) = l := by
  induction h with
  | nil => rfl
  | @cons a l ha _ ih =>
    by_cases hp : p a
    · rw [filter_cons_of_pos (by simpa using hp), filter_cons_of_neg (by simpa using hp),
        cons_append, ih]
    · have hnil : (a :: l).filter p = [] := by
        rw [filter_eq_nil_iff]
        rintro b (_ | ⟨_, hb⟩) hpb
        · exact hp (of_decide_eq_true hpb)
        · exact hp (ha b hb (of_decide_eq_true hpb))
      rw [hnil, nil_append, filter_eq_self]
      rintro b (_ | ⟨_, hb⟩)
      · simpa using hp
      · simpa using fun hpb => hp (ha b hb hpb)

end Sorting

/-! ### Least and greatest rows -/

section Version

variable [LinearOrder κ] {key version : α → κ} {l : List α}

/-- `ORDER BY key LIMIT 1`. -/
def earliest (key : α → κ) (l : List α) : Option α := l.argmin key

/-- `ORDER BY version DESC LIMIT 1`. -/
def latest (version : α → κ) (l : List α) : Option α := l.argmax version

@[simp] lemma latest_nil : latest version [] = none := rfl

lemma earliest_eq_head? (h : l.Pairwise (key · < key ·)) : earliest key l = l.head? := by
  cases l with
  | nil => rfl
  | cons a l =>
    rw [pairwise_cons] at h
    rw [earliest, argmin_cons]
    rcases hm : l.argmin key with _ | m
    · rfl
    · simp [(h.1 m (argmin_mem hm)).le]

lemma earliest_mem {a : α} (h : earliest key l = some a) : a ∈ l := argmin_mem h

lemma latest_mem {a : α} (h : latest version l = some a) : a ∈ l := argmax_mem h

lemma latest_append_of_lt {a : α} (h : ∀ b ∈ l, version b < version a) :
    latest version (l ++ [a]) = some a := by
  unfold latest
  rw [argmax_concat]
  rcases hm : l.argmax version with _ | m
  · rfl
  · simp [h m (argmax_mem hm)]

end Version

lemma perm_of_filter_key [DecidableEq κ] {l l' : List (κ × β)}
    (h : ∀ k, (l.filter (·.1 = k)).map (·.2) = (l'.filter (·.1 = k)).map (·.2)) : l.Perm l' := by
  classical
  have hcount : ∀ (l : List (κ × β)) (k : κ) (b : β),
      l.count (k, b) = ((l.filter (·.1 = k)).map (·.2)).count b := by
    intro l k b
    rw [count_eq_countP, count_eq_countP, countP_map, countP_filter]
    refine countP_congr fun x _ => ?_
    simp [Prod.ext_iff, and_comm]
  rw [perm_iff_count]
  rintro ⟨k, b⟩
  rw [hcount, hcount, h k]

end Acct.Table
