import Mathlib.Order.Basic

/-!
# Lists in a memory

A list that a program keeps in its memory: every element has the address of the next one, and
address 0 ends the list.
-/

namespace Acct

open List

variable {next next' : ℕ → ℕ} {h q x : ℕ} {l post : List ℕ}

/-- From `h` on, `next` lists `l` and ends at 0. -/
def Chain (next : ℕ → ℕ) : ℕ → List ℕ → Prop
  | h, [] => h = 0
  | h, x :: l => h = x ∧ x ≠ 0 ∧ Chain next (next x) l

namespace Chain

lemma congr (hc : Chain next h l) (heq : ∀ x ∈ l, next' x = next x) : Chain next' h l := by
  induction l generalizing h with
  | nil => exact hc
  | cons x l ih =>
    obtain ⟨rfl, h0, hc⟩ := hc
    refine ⟨rfl, h0, ?_⟩
    rw [heq h mem_cons_self]
    exact ih hc fun y hy => heq y (mem_cons_of_mem h hy)

lemma append (hc : Chain next h (l ++ post)) : ∃ m, Chain next m post := by
  induction l generalizing h with
  | nil => exact ⟨h, hc⟩
  | cons x l ih => exact ih hc.2.2

/-- An element is taken out: the one before it gets the one after it. -/
lemma unlink (hc : Chain next h (l ++ q :: x :: post)) (hq : next' q = next x)
    (heq : ∀ y ∈ l ++ post, next' y = next y) : Chain next' h (l ++ q :: post) := by
  induction l generalizing h with
  | nil =>
    obtain ⟨rfl, h0, -, -, hc⟩ := hc
    refine ⟨rfl, h0, ?_⟩
    rw [hq]
    exact hc.congr heq
  | cons y l ih =>
    obtain ⟨rfl, h0, hc⟩ := hc
    refine ⟨rfl, h0, ?_⟩
    rw [heq h (by simp)]
    exact ih hc fun z hz => heq z (mem_cons_of_mem h hz)

lemma lt {B : ℕ} (hc : Chain next h l) (hB : ∀ x ∈ l, x < B) (h0 : 0 < B) : h < B := by
  cases l with
  | nil => exact hc.trans_lt h0
  | cons x l => exact hc.1.trans_lt (hB x mem_cons_self)

end Chain

end Acct
