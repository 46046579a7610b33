import Mathlib.Data.List.Basic

/-!
# Locks among transactions

Transactions are addressed by their index in a list. A lock is a predicate on transactions, those
that hold it: it is exclusive if no two do (`Exclusive`), and stays so if it is taken only when no
other holds it (`NoOther`). A shared and an exclusive side are a pair of predicates (`Excludes`).
-/

namespace Acct.Machine

variable {τ : Type*} {txs : List τ} {i : ℕ} {tx tx' : τ} {Holds : τ → Prop}

/-- No transaction but `i` holds the lock. -/
def NoOther (txs : List τ) (i : ℕ) (Holds : τ → Prop) : Prop :=
  ∀ p ∈ txs.zipIdx, p.2 ≠ i → ¬ Holds p.1

instance [DecidablePred Holds] : Decidable (NoOther txs i Holds) :=
  inferInstanceAs (Decidable (∀ p ∈ txs.zipIdx, p.2 ≠ i → ¬ Holds p.1))

lemma noOther_iff : NoOther txs i Holds ↔ ∀ j u, txs[j]? = some u → j ≠ i → ¬ Holds u := by
  constructor
  · intro h j u hj hne
    exact h (u, j) (List.mem_zipIdx_iff_getElem?.mpr hj) hne
  · rintro h ⟨u, j⟩ hp hne
    exact h j u (List.mem_zipIdx_iff_getElem?.mp hp) hne

lemma NoOther.of_mem (h : NoOther txs i Holds) (hi : txs[i]? = some tx) {u : τ} (hu : u ∈ txs)
    (hne : u ≠ tx) : ¬ Holds u := by
  obtain ⟨j, hj⟩ := List.getElem?_of_mem hu
  refine noOther_iff.mp h j u hj ?_
  rintro rfl
  exact hne (Option.some.inj (hj.symm.trans hi))

lemma getElem?_set_cases {j : ℕ} {u : τ} (hj : (txs.set i tx')[j]? = some u) :
    (j = i ∧ u = tx') ∨ (j ≠ i ∧ txs[j]? = some u) := by
  rcases eq_or_ne j i with rfl | hne
  · rw [List.getElem?_set_self'] at hj
    obtain ⟨-, -, rfl⟩ := Option.map_eq_some_iff.mp hj
    exact .inl ⟨rfl, rfl⟩
  · rw [List.getElem?_set_ne hne.symm] at hj
    exact .inr ⟨hne, hj⟩

lemma exists_of_mem_set {u : τ} (hu : u ∈ txs.set i tx') (hne : u ≠ tx') :
    ∃ j, j ≠ i ∧ txs[j]? = some u := by
  obtain ⟨j, hj⟩ := List.getElem?_of_mem hu
  rcases getElem?_set_cases hj with ⟨-, rfl⟩ | ⟨hji, hj'⟩
  · exact absurd rfl hne
  · exact ⟨j, hji, hj'⟩

lemma getElem?_append_singleton_cases {j : ℕ} {u : τ} (hj : (txs ++ [tx])[j]? = some u) :
    (j = txs.length ∧ u = tx) ∨ (j ≠ txs.length ∧ txs[j]? = some u) := by
  rcases Nat.lt_trichotomy j txs.length with hlt | rfl | hgt
  · rw [List.getElem?_append_left hlt] at hj
    exact .inr ⟨by omega, hj⟩
  · rw [List.getElem?_concat_length] at hj
    exact .inl ⟨rfl, (Option.some.inj hj).symm⟩
  · rw [List.getElem?_eq_none (by simp; omega)] at hj
    cases hj

def Excludes (txs : List τ) (Owns Holds : τ → Prop) : Prop :=
  ∀ (i j : ℕ) u v, i ≠ j → txs[i]? = some u → txs[j]? = some v → Owns u → ¬ Holds v

namespace Excludes

variable {Owns : τ → Prop}

lemma nil : Excludes [] Owns Holds := by
  intro i j u v _ hi
  simp at hi

lemma of_mem (h : Excludes txs Owns Holds) {u v : τ} (hu : u ∈ txs) (hv : v ∈ txs) (hne : u ≠ v)
    (howns : Owns u) : ¬ Holds v := by
  obtain ⟨i, hi⟩ := List.getElem?_of_mem hu
  obtain ⟨j, hj⟩ := List.getElem?_of_mem hv
  refine h i j u v ?_ hi hj howns
  rintro rfl
  exact hne (Option.some.inj (hi.symm.trans hj))

/-- Transaction `i` moves; in either mode, it had the lock before or no other has the other mode. -/
lemma set (h : Excludes txs Owns Holds) (hi : txs[i]? = some tx)
    (howns : Owns tx' → Owns tx ∨ NoOther txs i Holds)
    (hholds : Holds tx' → Holds tx ∨ NoOther txs i Owns) : Excludes (txs.set i tx') Owns Holds := by
  intro j k u v hjk hj hk hu hv
  rcases getElem?_set_cases hj with ⟨hji, rfl⟩ | ⟨hji, hj'⟩
  · rcases getElem?_set_cases hk with ⟨hki, -⟩ | ⟨hki, hk'⟩
    · exact hjk (hji.trans hki.symm)
    · rcases howns hu with hold | hno
      · exact h i k tx v hki.symm hi hk' hold hv
      · exact noOther_iff.mp hno k v hk' hki hv
  · rcases getElem?_set_cases hk with ⟨-, rfl⟩ | ⟨-, hk'⟩
    · rcases hholds hv with hold | hno
      · exact h j i u tx hji hj' hi hu hold
      · exact noOther_iff.mp hno j u hj' hji hu
    · exact h j k u v hjk hj' hk' hu hv

lemma append (h : Excludes txs Owns Holds) (howns : Owns tx → NoOther txs txs.length Holds)
    (hholds : Holds tx → NoOther txs txs.length Owns) : Excludes (txs ++ [tx]) Owns Holds := by
  intro j k u v hjk hj hk hu hv
  rcases getElem?_append_singleton_cases hj with ⟨hjn, rfl⟩ | ⟨hjn, hj'⟩
  · rcases getElem?_append_singleton_cases hk with ⟨hkn, -⟩ | ⟨hkn, hk'⟩
    · exact hjk (hjn.trans hkn.symm)
    · exact noOther_iff.mp (howns hu) k v hk' hkn hv
  · rcases getElem?_append_singleton_cases hk with ⟨-, rfl⟩ | ⟨-, hk'⟩
    · exact noOther_iff.mp (hholds hv) j u hj' hjn hu
    · exact h j k u v hjk hj' hk' hu hv

end Excludes

def Exclusive (txs : List τ) (Holds : τ → Prop) : Prop :=
  ∀ (i j : ℕ) u v, i ≠ j → txs[i]? = some u → txs[j]? = some v → Holds u → ¬ Holds v

namespace Exclusive

lemma nil : Exclusive [] Holds := Excludes.nil

lemma of_mem (h : Exclusive txs Holds) {u v : τ} (hu : u ∈ txs) (hv : v ∈ txs) (hne : u ≠ v)
    (hholds : Holds u) : ¬ Holds v :=
  Excludes.of_mem h hu hv hne hholds

/-- Transaction `i` moves; if it holds the lock now, it did before or no other does. -/
lemma set (h : Exclusive txs Holds) (hi : txs[i]? = some tx)
    (htakes : Holds tx' → Holds tx ∨ NoOther txs i Holds) : Exclusive (txs.set i tx') Holds :=
  Excludes.set h hi htakes htakes

lemma append (h : Exclusive txs Holds) (htakes : Holds tx → NoOther txs txs.length Holds) :
    Exclusive (txs ++ [tx]) Holds :=
  Excludes.append h htakes htakes

end Exclusive

end Acct.Machine
