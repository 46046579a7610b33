import Mathlib.Data.List.Flatten
import Mathlib.Data.List.Sigma

/-!
# Recursive queries

`WITH RECURSIVE` evaluates its first term into a working table, then again and again replaces the
working table by the recursive term applied to it, and returns all of them together (`UNION ALL`).
`level` is the working table after a number of rounds and `rounds` what has been collected by then.

A query that walks a graph of `children` down from some `roots` lists the trails of the graph: a
node together with the nodes above it, each exactly once (`mem_trails`, `nodup_trails`).
-/

namespace Acct.Table

/-! ### Working tables -/

section Levels

variable {α : Type*} (step : α → List α) (base : List α)

/-- The working table after `n` rounds. -/
def level : ℕ → List α
  | 0 => base
  | n + 1 => (level n).flatMap step

/-- All rows of the first `n` working tables. -/
def rounds (n : ℕ) : List α := (List.range n).flatMap (level step base)

variable {step base}

lemma level_eq_nil_of_le {n m : ℕ} (h : level step base n = []) (hle : n ≤ m) :
    level step base m = [] := by
  induction m, hle using Nat.le_induction with
  | base => exact h
  | succ m _ ih =>
    show (level step base m).flatMap step = []
    rw [ih]
    rfl

end Levels

/-! ### Trails of a graph -/

section Trails

variable {β : Type*} (roots : List β) (children : β → List β)

inductive Trail : β × List β → Prop
  | root {b : β} : b ∈ roots → Trail (b, [])
  | down {b c : β} {above : List β} : Trail (c, above) → b ∈ children c → Trail (b, c :: above)

def nextTrails (t : β × List β) : List (β × List β) := (children t.1).map fun b => (b, t.1 :: t.2)

/-- The trails with `n` nodes above the last. -/
def trails (n : ℕ) : List (β × List β) :=
  level (nextTrails children) (roots.map fun b => (b, [])) n

variable {roots children}

lemma mem_trails {n : ℕ} {t : β × List β} :
    t ∈ trails roots children n ↔ Trail roots children t ∧ t.2.length = n := by
  induction n generalizing t with
  | zero =>
    constructor
    · intro ht
      obtain ⟨b, hb, rfl⟩ := List.mem_map.mp ht
      exact ⟨.root hb, rfl⟩
    · rintro ⟨ht, hlen⟩
      cases ht with
      | root hb => exact List.mem_map_of_mem hb
      | down _ _ => cases hlen
  | succ n ih =>
    show t ∈ (trails roots children n).flatMap (nextTrails children) ↔ _
    rw [List.mem_flatMap]
    constructor
    · rintro ⟨s, hs, ht⟩
      obtain ⟨b, hb, rfl⟩ := List.mem_map.mp ht
      obtain ⟨hs, hlen⟩ := ih.mp hs
      exact ⟨.down hs hb, by simp [hlen]⟩
    · rintro ⟨ht, hlen⟩
      cases ht with
      | root hb => cases hlen
      | @down b c above hc hb =>
        have habove : above.length = n := by simpa using hlen
        exact ⟨(c, above), ih.mpr ⟨hc, habove⟩, List.mem_map_of_mem hb⟩

theorem nodup_trails (hroots : roots.Nodup) (hchildren : ∀ b, (children b).Nodup) (n : ℕ) :
    (trails roots children n).Nodup := by
  induction n with
  | zero => exact hroots.map fun a b h => (Prod.mk.inj h).1
  | succ n ih =>
    show ((trails roots children n).flatMap (nextTrails children)).Nodup
    rw [List.nodup_flatMap]
    refine ⟨fun t _ => (hchildren t.1).map fun a b h => (Prod.mk.inj h).1, ?_⟩
    -- The steps down from two different trails have different nodes above them.
    refine ih.imp fun {s t} hne => ?_
    intro x hs ht
    obtain ⟨b, -, rfl⟩ := List.mem_map.mp hs
    obtain ⟨c, -, heq⟩ := List.mem_map.mp ht
    simp only [Prod.mk.injEq, List.cons.injEq] at heq
    exact hne (Prod.ext heq.2.1.symm heq.2.2.symm)

end Trails

end Acct.Table
