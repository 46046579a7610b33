import Mathlib.Algebra.Ring.Nat
import Mathlib.Data.List.Nodup

/-!
# Serving a queue of runs unit by unit

A queue kept as runs `(a, n)`, meaning `n` equal units `a`, stands for the list of its units
(`expand`). A withdrawal takes one unit at a time from one end of that list (`serve`); an
implementation walks the runs (`serveRuns`). The two agree (`serve_expand`), and where the runs have
distinct keys the units determine the runs (`regroup_expand`).
-/

namespace Acct.Queue

open List

variable {α : Type*}

/-! ### Runs and units -/

def expand (runs : List (α × ℕ)) : List α := runs.flatMap fun r => List.replicate r.2 r.1

@[simp] lemma expand_nil : expand ([] : List (α × ℕ)) = [] := rfl

@[simp] lemma expand_cons (r : α × ℕ) (runs : List (α × ℕ)) :
    expand (r :: runs) = List.replicate r.2 r.1 ++ expand runs := by
  simp [expand]

@[simp] lemma expand_append (runs runs' : List (α × ℕ)) :
    expand (runs ++ runs') = expand runs ++ expand runs' := by
  simp [expand]

lemma expand_reverse (runs : List (α × ℕ)) : (expand runs).reverse = expand runs.reverse := by
  induction runs with
  | nil => rfl
  | cons r runs ih => simp [ih]

lemma length_expand (runs : List (α × ℕ)) :
    (expand runs).length = (runs.map Prod.snd).sum := by
  induction runs with
  | nil => rfl
  | cons r runs ih => simp [ih]

section Regroup

variable [DecidableEq α]

def consRun (a : α) : List (α × ℕ) → List (α × ℕ)
  | [] => [(a, 1)]
  | (b, n) :: runs => if a = b then (b, n + 1) :: runs else (a, 1) :: (b, n) :: runs

def regroup : List α → List (α × ℕ)
  | [] => []
  | a :: units => consRun a (regroup units)

/-- A block of equal units that does not continue into the next run is a run of its own. -/
lemma regroup_replicate_append {a : α} {n : ℕ} {units : List α} (hn : 0 < n)
    (hne : ∀ r ∈ (regroup units).head?, a ≠ r.1) :
    regroup (List.replicate n a ++ units) = (a, n) :: regroup units := by
  induction n with
  | zero => omega
  | succ n ih =>
    show consRun a (regroup (List.replicate n a ++ units)) = _
    rcases Nat.eq_zero_or_pos n with rfl | hpos
    · rw [replicate_zero, nil_append]
      cases hu : regroup units with
      | nil => rfl
      | cons r runs =>
        have hr : a ≠ r.1 := hne r (by rw [hu]; rfl)
        simp [consRun, hr]
    · rw [ih hpos]
      simp [consRun]

/-- **The units determine the runs**, where no two runs have the same key. -/
theorem regroup_expand {runs : List (α × ℕ)} (hpos : ∀ r ∈ runs, 0 < r.2)
    (hnodup : (runs.map Prod.fst).Nodup) : regroup (expand runs) = runs := by
  induction runs with
  | nil => rfl
  | cons r runs ih =>
    rw [map_cons, nodup_cons] at hnodup
    have hrest : regroup (expand runs) = runs :=
      ih (fun x hx => hpos x (mem_cons_of_mem _ hx)) hnodup.2
    have hne : ∀ x ∈ (regroup (expand runs)).head?, r.1 ≠ x.1 := by
      rw [hrest]
      intro x hx heq
      exact hnodup.1 (heq ▸ List.mem_map_of_mem (mem_of_mem_head? hx))
    rw [expand_cons, regroup_replicate_append (hpos r mem_cons_self) hne, hrest]

end Regroup

/-! ### One unit at a time -/

/-- The next unit to serve, and the units behind it: from the back if `newestFirst`, else from the
front. -/
def serveUnit (newestFirst : Bool) (units : List α) : Option (α × List α) :=
  if newestFirst then units.getLast?.map fun a => (a, units.dropLast)
  else units.head?.map fun a => (a, units.tail)

/-- Serve up to `k` units: those served, in order, and those left. -/
def serve (newestFirst : Bool) : ℕ → List α → List α × List α
  | 0, units => ([], units)
  | k + 1, units =>
    match serveUnit newestFirst units with
    | none => ([], units)
    | some (a, rest) => (a :: (serve newestFirst k rest).1, (serve newestFirst k rest).2)

lemma serve_front (k : ℕ) (units : List α) :
    serve false k units = (units.take k, units.drop k) := by
  induction k generalizing units with
  | zero => rfl
  | succ k ih =>
    cases units with
    | nil => rfl
    | cons a units => simp [serve, serveUnit, ih]

lemma serve_back (k : ℕ) (units : List α) :
    serve true k units.reverse = ((serve false k units).1, (serve false k units).2.reverse) := by
  induction k generalizing units with
  | zero => rfl
  | succ k ih =>
    cases units with
    | nil => rfl
    | cons a units => simp [serve, serveUnit, ih]

/-! ### Run by run -/

/-- Serve up to `k` units from the front of a list of runs. -/
def serveRuns : List (α × ℕ) → ℕ → List (α × ℕ) × List (α × ℕ)
  | [], _ => ([], [])
  | (a, n) :: runs, k =>
    if k = 0 then ([], (a, n) :: runs)
    else if k < n then ([(a, k)], (a, n - k) :: runs)
    else ((a, n) :: (serveRuns runs (k - n)).1, (serveRuns runs (k - n)).2)

theorem serve_expand (runs : List (α × ℕ)) (k : ℕ) :
    serve false k (expand runs) = (expand (serveRuns runs k).1, expand (serveRuns runs k).2) := by
  fun_induction serveRuns runs k with
  | case1 k => simp [serve_front]
  | case2 a n runs => rfl
  | case3 a n runs k h0 hlt =>
    have hk : k - n = 0 := by omega
    simp [serve_front, take_append, drop_append, hk, Nat.min_eq_left (Nat.le_of_lt hlt)]
  | case4 a n runs k h0 hge ih =>
    have hle : n ≤ k := Nat.le_of_not_lt hge
    rw [serve_front, Prod.mk.injEq] at ih
    simp [serve_front, take_append, drop_append, hle, ih.1, ih.2]

lemma serveRuns_keys (runs : List (α × ℕ)) (k : ℕ) :
    ((serveRuns runs k).1.map Prod.fst).Sublist (runs.map Prod.fst) ∧
      ((serveRuns runs k).2.map Prod.fst).Sublist (runs.map Prod.fst) := by
  fun_induction serveRuns runs k with
  | case1 k => simp
  | case2 a n runs => simp
  | case3 a n runs k h0 hlt => simp
  | case4 a n runs k h0 hge ih => exact ⟨ih.1.cons_cons _, ih.2.cons _⟩

lemma serveRuns_pos {runs : List (α × ℕ)} (k : ℕ) (h : ∀ r ∈ runs, 0 < r.2) :
    (∀ r ∈ (serveRuns runs k).1, 0 < r.2) ∧ ∀ r ∈ (serveRuns runs k).2, 0 < r.2 := by
  fun_induction serveRuns runs k with
  | case1 k => simp
  | case2 a n runs => exact ⟨by simp, h⟩
  | case3 a n runs k h0 hlt =>
    refine ⟨fun r hr => ?_, fun r hr => ?_⟩
    · rw [mem_singleton.mp hr]
      omega
    · rcases mem_cons.mp hr with rfl | hr
      · show 0 < n - k
        omega
      · exact h r (mem_cons_of_mem _ hr)
  | case4 a n runs k h0 hge ih =>
    obtain ⟨hdrawn, hleft⟩ := ih fun r hr => h r (mem_cons_of_mem _ hr)
    refine ⟨fun r hr => ?_, hleft⟩
    rcases mem_cons.mp hr with rfl | hr
    · exact h _ mem_cons_self
    · exact hdrawn r hr

lemma sum_serveRuns_le (runs : List (α × ℕ)) (k : ℕ) :
    ((serveRuns runs k).1.map Prod.snd).sum ≤ k := by
  fun_induction serveRuns runs k with
  | case1 k => simp
  | case2 a n runs => simp
  | case3 a n runs k h0 hlt => simp
  | case4 a n runs k h0 hge ih =>
    simp only [map_cons, sum_cons]
    omega

end Acct.Queue
