import Mathlib.Data.Finset.Basic
import Mathlib.Data.Finset.Lattice.Lemmas

/-!
# Replaying a list with exclusions

A list of items is planned in order, each on the state the earlier ones left. A plan can be fatal
(the whole list is given up), fail, or succeed with a result and a new state. Two restart loops
share one set of excluded positions:

* `replan` walks the list (`pass`), and when an item fails, excludes it and starts again;
* `settle` writes the plans of `replan` in order (`writeAll`). If one is a duplicate it undoes the
  writes, excludes that one too, and starts again; any other error of a write is fatal.

The restarts of `replan` come to one walk that skips the failing items (`greedy`, `replan_eq`), and
those of `settle` to one walk that leaves a duplicate out, after a side walk has told which of the
later items its effect would make fail (`resolve`, `settle_eq_resolve`). The reference is
`oneByOne`. The two agree exactly when no write is fatal and no side walk strikes out an item that
`oneByOne` keeps (`Unharmed`, `resolve_eq_oneByOne_iff`).
-/

namespace Acct.Replay

open List

variable {X Y : Finset ℕ} {i fuel : ℕ}

inductive Verdict (ε ρ σ : Type*)
  | fatal (e : ε)
  | failed
  | planned (r : ρ) (s : σ)

inductive Pass (ε ρ : Type*)
  | fatal (e : ε)
  | failed (i : ℕ)
  | clean (rs : List (ℕ × ρ))

def Pass.cons {ε ρ : Type*} (p : ℕ × ρ) : Pass ε ρ → Pass ε ρ
  | .clean rs => .clean (p :: rs)
  | .failed i => .failed i
  | .fatal e => .fatal e

variable {α ε ρ σ : Type*} (plan : ℕ → α → σ → Verdict ε ρ σ)

/-! ### One walk -/

/-- Plan the items that are not excluded, up to the first failure. Positions count from `i`. -/
def pass (X : Finset ℕ) : ℕ → σ → List α → Pass ε ρ
  | _, _, [] => .clean []
  | i, s, a :: as =>
    if i ∈ X then pass X (i + 1) s as
    else match plan i a s with
      | .fatal e => .fatal e
      | .failed => .failed i
      | .planned r s' => (pass X (i + 1) s' as).cons (i, r)

/-- Plan the items that are not excluded and skip those that fail: the plans, or the fatal error,
and the positions that failed. -/
def greedy (X : Finset ℕ) : ℕ → σ → List α → Except ε (List (ℕ × ρ)) × Finset ℕ
  | _, _, [] => (.ok [], ∅)
  | i, s, a :: as =>
    if i ∈ X then greedy X (i + 1) s as
    else match plan i a s with
      | .fatal e => (.error e, ∅)
      | .failed =>
        let rest := greedy X (i + 1) s as
        (rest.1, insert i rest.2)
      | .planned r s' =>
        let rest := greedy X (i + 1) s' as
        (rest.1.map ((i, r) :: ·), rest.2)

section Walks

variable {plan} {j : ℕ} {a : α} {as : List α} {s s' : σ} {r : ρ} {e : ε}

lemma pass_excluded (h : i ∈ X) : pass plan X i s (a :: as) = pass plan X (i + 1) s as := by
  simp [pass, h]

lemma pass_failed (h : i ∉ X) (hp : plan i a s = .failed) :
    pass plan X i s (a :: as) = .failed i := by
  simp [pass, h, hp]

lemma pass_fatal (h : i ∉ X) (hp : plan i a s = .fatal e) :
    pass plan X i s (a :: as) = .fatal e := by
  simp [pass, h, hp]

lemma pass_planned (h : i ∉ X) (hp : plan i a s = .planned r s') :
    pass plan X i s (a :: as) = (pass plan X (i + 1) s' as).cons (i, r) := by
  simp [pass, h, hp]

lemma greedy_excluded (h : i ∈ X) :
    greedy plan X i s (a :: as) = greedy plan X (i + 1) s as := by
  simp [greedy, h]

lemma greedy_failed (h : i ∉ X) (hp : plan i a s = .failed) :
    greedy plan X i s (a :: as) =
      ((greedy plan X (i + 1) s as).1, insert i (greedy plan X (i + 1) s as).2) := by
  simp [greedy, h, hp]

lemma greedy_fatal (h : i ∉ X) (hp : plan i a s = .fatal e) :
    greedy plan X i s (a :: as) = (.error e, ∅) := by
  simp [greedy, h, hp]

lemma greedy_planned (h : i ∉ X) (hp : plan i a s = .planned r s') :
    greedy plan X i s (a :: as) =
      ((greedy plan X (i + 1) s' as).1.map ((i, r) :: ·), (greedy plan X (i + 1) s' as).2) := by
  simp [greedy, h, hp]

lemma greedy_congr (h : ∀ j, i ≤ j → (j ∈ X ↔ j ∈ Y)) :
    greedy plan X i s as = greedy plan Y i s as := by
  induction as generalizing i s with
  | nil => rfl
  | cons a as ih =>
    have hrest : ∀ j, i + 1 ≤ j → (j ∈ X ↔ j ∈ Y) := fun j hj => h j (by omega)
    by_cases hi : i ∈ X
    · rw [greedy_excluded hi, greedy_excluded ((h i le_rfl).mp hi), ih hrest]
    · have hi' : i ∉ Y := fun hY => hi ((h i le_rfl).mpr hY)
      cases hp : plan i a s with
      | fatal e => rw [greedy_fatal hi hp, greedy_fatal hi' hp]
      | failed => rw [greedy_failed hi hp, greedy_failed hi' hp, ih hrest]
      | planned r s' => rw [greedy_planned hi hp, greedy_planned hi' hp, ih hrest]

lemma le_of_pass_eq_failed (h : pass plan X i s as = .failed j) : i ≤ j := by
  induction as generalizing i s with
  | nil => simp [pass] at h
  | cons a as ih =>
    by_cases hi : i ∈ X
    · rw [pass_excluded hi] at h
      exact Nat.le_of_succ_le (ih h)
    · cases hp : plan i a s with
      | fatal e => simp [pass_fatal hi hp] at h
      | failed =>
        rw [pass_failed hi hp] at h
        cases h
        exact le_rfl
      | planned r s' =>
        rw [pass_planned hi hp] at h
        cases hq : pass plan X (i + 1) s' as with
        | fatal e | clean rs => simp [hq, Pass.cons] at h
        | failed k =>
          simp only [hq, Pass.cons, Pass.failed.injEq] at h
          subst h
          exact Nat.le_of_succ_le (ih hq)

lemma le_of_mem_greedy (h : j ∈ (greedy plan X i s as).2) : i ≤ j := by
  induction as generalizing i s with
  | nil => simp [greedy] at h
  | cons a as ih =>
    by_cases hi : i ∈ X
    · rw [greedy_excluded hi] at h
      exact Nat.le_of_succ_le (ih h)
    · cases hp : plan i a s with
      | fatal e => simp [greedy_fatal hi hp] at h
      | failed =>
        rw [greedy_failed hi hp] at h
        obtain rfl | h := Finset.mem_insert.mp h
        · exact le_rfl
        · exact Nat.le_of_succ_le (ih h)
      | planned r s' =>
        rw [greedy_planned hi hp] at h
        exact Nat.le_of_succ_le (ih h)

/-- What holds of every plan from `i` on holds of the plans of a walk from there. -/
lemma forall_of_greedy_eq_ok {P : ℕ → ρ → Prop} {rs : List (ℕ × ρ)}
    (hP : ∀ j a s r s', i ≤ j → plan j a s = .planned r s' → P j r)
    (h : (greedy plan X i s as).1 = .ok rs) : ∀ p ∈ rs, P p.1 p.2 := by
  induction as generalizing i s rs with
  | nil =>
    simp only [greedy, Except.ok.injEq] at h
    simp [← h]
  | cons a as ih =>
    have hlater : ∀ j a s r s', i + 1 ≤ j → plan j a s = .planned r s' → P j r :=
      fun j a s r s' hj => hP j a s r s' (Nat.le_of_succ_le hj)
    by_cases hi : i ∈ X
    · rw [greedy_excluded hi] at h
      exact ih hlater h
    · cases hp : plan i a s with
      | fatal e => simp [greedy_fatal hi hp] at h
      | failed =>
        rw [greedy_failed hi hp] at h
        exact ih hlater h
      | planned r s' =>
        rw [greedy_planned hi hp] at h
        cases hq : (greedy plan X (i + 1) s' as).1 with
        | error e => simp [hq, Except.map] at h
        | ok rest =>
          simp only [hq, Except.map, Except.ok.injEq] at h
          subst h
          intro p hmem
          obtain rfl | hmem := mem_cons.mp hmem
          · exact hP i a s r s' le_rfl hp
          · exact ih hlater hq p hmem

lemma le_of_greedy_eq_ok {rs : List (ℕ × ρ)} (h : (greedy plan X i s as).1 = .ok rs) :
    ∀ p ∈ rs, i ≤ p.1 :=
  forall_of_greedy_eq_ok (P := fun j _ => i ≤ j) (fun _ _ _ _ _ hj _ => hj) h

end Walks

/-! ### Restarting on failures -/

/-- Walk, and on a failure exclude the failing item and walk again. `none` if the fuel ends. -/
def replan (i : ℕ) (s : σ) (as : List α) :
    ℕ → Finset ℕ → Option (Except ε (List (ℕ × ρ)) × Finset ℕ)
  | 0, _ => none
  | fuel + 1, X =>
    match pass plan X i s as with
    | .fatal e => some (.error e, X)
    | .failed j => replan i s as fuel (insert j X)
    | .clean rs => some (.ok rs, X)

section Replan

variable {plan} {a : α} {as : List α} {s s' : σ} {r : ρ}

lemma replan_excluded (h : i ∈ X) :
    replan plan i s (a :: as) fuel X = replan plan (i + 1) s as fuel X := by
  induction fuel generalizing X with
  | zero => rfl
  | succ fuel ih =>
    simp only [replan, pass_excluded h]
    cases pass plan X (i + 1) s as with
    | fatal e | clean rs => rfl
    | failed j => exact ih (Finset.mem_insert_of_mem h)

lemma replan_planned (h : i ∉ X) (hp : plan i a s = .planned r s') :
    replan plan i s (a :: as) fuel X =
      (replan plan (i + 1) s' as fuel X).map fun q => (q.1.map ((i, r) :: ·), q.2) := by
  induction fuel generalizing X with
  | zero => rfl
  | succ fuel ih =>
    simp only [replan, pass_planned h hp]
    cases hq : pass plan X (i + 1) s' as with
    | fatal e | clean rs => rfl
    | failed j =>
      have hij : i ≠ j := Nat.ne_of_lt (le_of_pass_eq_failed hq)
      exact ih (by simp [hij, h])

/-- The restarts come to the one walk that skips what fails; a restart for each item, and one pass
more, are enough. -/
lemma replan_eq (h : as.length < fuel) :
    replan plan i s as fuel X =
      some ((greedy plan X i s as).1, X ∪ (greedy plan X i s as).2) := by
  induction as generalizing i s X fuel with
  | nil =>
    obtain ⟨fuel, rfl⟩ := Nat.exists_eq_succ_of_ne_zero (Nat.ne_zero_of_lt h)
    simp [replan, pass, greedy]
  | cons a as ih =>
    have hlen : as.length < fuel := Nat.lt_of_succ_lt h
    by_cases hi : i ∈ X
    · rw [replan_excluded hi, greedy_excluded hi, ih hlen]
    · cases hp : plan i a s with
      | fatal e =>
        obtain ⟨fuel, rfl⟩ := Nat.exists_eq_succ_of_ne_zero (Nat.ne_zero_of_lt h)
        simp [replan, pass_fatal hi hp, greedy_fatal hi hp]
      | failed =>
        obtain ⟨fuel, rfl⟩ := Nat.exists_eq_succ_of_ne_zero (Nat.ne_zero_of_lt h)
        have hsame : greedy plan (insert i X) (i + 1) s as = greedy plan X (i + 1) s as :=
          greedy_congr fun j hj => by simp [show j ≠ i by omega]
        simp only [replan, pass_failed hi hp]
        rw [replan_excluded (Finset.mem_insert_self i X), ih (Nat.lt_of_succ_lt_succ h), hsame,
          greedy_failed hi hp, Finset.insert_union, Finset.union_insert]
      | planned r s' =>
        rw [replan_planned hi hp, ih hlen, greedy_planned hi hp]
        rfl

end Replan

/-! ### Restarting on duplicates -/

/-- What comes of writing one plan. -/
inductive Write (δ ω : Type*)
  | done (w : ω)
  | duplicate
  | fatal (e : δ)

/-- What comes of writing a list of plans, up to the first that is not written. -/
inductive WriteAll (δ ω : Type*)
  | done (w : ω)
  | duplicateAt (i : ℕ)
  | fatal (e : δ)

variable {δ ω : Type*} (write : ω → ρ → Write δ ω)

def writeAll : ω → List (ℕ × ρ) → WriteAll δ ω
  | w, [] => .done w
  | w, (i, r) :: rs =>
    match write w r with
    | .done w' => writeAll w' rs
    | .duplicate => .duplicateAt i
    | .fatal e => .fatal e

/-- Put a plan in front of those that were written. -/
def keep (i : ℕ) (r : ρ) (q : List (ℕ × ρ) × ω) : List (ℕ × ρ) × ω := ((i, r) :: q.1, q.2)

/-- Walk skipping failures and write the plans; if one is a duplicate exclude it, with all that
failed, and walk again. `none` if the fuel ends. -/
def settle (w : ω) (i : ℕ) (s : σ) (as : List α) :
    ℕ → Finset ℕ → Option (Except (ε ⊕ δ) (List (ℕ × ρ) × ω))
  | 0, _ => none
  | fuel + 1, X =>
    match (greedy plan X i s as).1 with
    | .error e => some (.error (.inl e))
    | .ok rs =>
      match writeAll write w rs with
      | .done w' => some (.ok (rs, w'))
      | .duplicateAt j => settle w i s as fuel (insert j (X ∪ (greedy plan X i s as).2))
      | .fatal e => some (.error (.inr e))

/-- The items one by one: one takes effect if its plan succeeds and is written. -/
def oneByOne : ω → ℕ → σ → List α → List (ℕ × ρ) × ω
  | w, _, _, [] => ([], w)
  | w, i, s, a :: as =>
    match plan i a s with
    | .planned r s' =>
      match write w r with
      | .done w' => keep i r (oneByOne w' (i + 1) s' as)
      | _ => oneByOne w (i + 1) s as
    | _ => oneByOne w (i + 1) s as

/-- What the restarts come to: a planned duplicate is left out, and with it all that fails in the
walk behind its effect. -/
def resolve : Finset ℕ → ω → ℕ → σ → List α → Except δ (List (ℕ × ρ) × ω)
  | _, w, _, _, [] => .ok ([], w)
  | X, w, i, s, a :: as =>
    if i ∈ X then resolve X w (i + 1) s as
    else match plan i a s with
      | .planned r s' =>
        match write w r with
        | .done w' => (resolve X w' (i + 1) s' as).map (keep i r)
        | .duplicate => resolve (X ∪ (greedy plan X (i + 1) s' as).2) w (i + 1) s as
        | .fatal e => .error e
      | _ => resolve X w (i + 1) s as

/-- The item takes effect. -/
def Commits (w : ω) (i : ℕ) (a : α) (s : σ) : Prop :=
  ∃ r s' w', plan i a s = .planned r s' ∧ write w r = .done w'

/-- No write is fatal, and no item that takes effect one by one is struck out: those are the items
that fail in the walk behind an earlier duplicate, as if that one had taken effect. -/
def Unharmed : Finset ℕ → ω → ℕ → σ → List α → Prop
  | _, _, _, _, [] => True
  | X, w, i, s, a :: as =>
    if i ∈ X then ¬ Commits plan write w i a s ∧ Unharmed X w (i + 1) s as
    else match plan i a s with
      | .planned r s' =>
        match write w r with
        | .done w' => Unharmed X w' (i + 1) s' as
        | .duplicate => Unharmed (X ∪ (greedy plan X (i + 1) s' as).2) w (i + 1) s as
        | .fatal _ => False
      | _ => Unharmed X w (i + 1) s as

section Settle

variable {plan} {write} {w w' : ω} {a : α} {as : List α} {s s' : σ} {r : ρ} {e : δ}

lemma exists_greedy_eq_ok (h : ∀ a ∈ as, ∀ i s e, plan i a s ≠ .fatal e) :
    ∃ rs, (greedy plan X i s as).1 = .ok rs := by
  induction as generalizing i s with
  | nil => exact ⟨[], rfl⟩
  | cons a as ih =>
    have hrest : ∀ a ∈ as, ∀ i s e, plan i a s ≠ .fatal e :=
      fun b hb => h b (mem_cons_of_mem a hb)
    by_cases hi : i ∈ X
    · rw [greedy_excluded hi]
      exact ih hrest
    · cases hp : plan i a s with
      | fatal e => exact absurd hp (h a mem_cons_self i s e)
      | failed =>
        rw [greedy_failed hi hp]
        exact ih hrest
      | planned r s' =>
        rw [greedy_planned hi hp]
        obtain ⟨rs, hrs⟩ := ih hrest (i := i + 1) (s := s')
        exact ⟨(i, r) :: rs, by simp [hrs, Except.map]⟩

/-- An item that is fatal on every state ends every walk that does not exclude it. -/
lemma exists_greedy_eq_error {pre : List α} (h : ∀ i s, ∃ e, plan i a s = .fatal e)
    (hX : i + pre.length ∉ X) : ∃ e, (greedy plan X i s (pre ++ a :: as)).1 = .error e := by
  induction pre generalizing i s with
  | nil =>
    obtain ⟨e, he⟩ := h i s
    exact ⟨e, by rw [nil_append, greedy_fatal (i := i) hX he]⟩
  | cons b pre ih =>
    have hX' : i + 1 + pre.length ∉ X := by
      rwa [length_cons, Nat.add_comm pre.length, ← Nat.add_assoc] at hX
    rw [cons_append]
    by_cases hi : i ∈ X
    · rw [greedy_excluded hi]
      exact ih hX'
    · cases hp : plan i b s with
      | fatal e => exact ⟨e, by rw [greedy_fatal hi hp]⟩
      | failed =>
        rw [greedy_failed hi hp]
        exact ih hX'
      | planned r s' =>
        rw [greedy_planned hi hp]
        obtain ⟨e, he⟩ := ih hX' (s := s')
        exact ⟨e, by simp [he, Except.map]⟩

lemma mem_of_writeAll {rs : List (ℕ × ρ)} {j : ℕ} (h : writeAll write w rs = .duplicateAt j) :
    ∃ r, (j, r) ∈ rs := by
  induction rs generalizing w with
  | nil => simp [writeAll] at h
  | cons p rs ih =>
    obtain ⟨k, r⟩ := p
    rw [writeAll] at h
    split at h
    · obtain ⟨r', hr'⟩ := ih h
      exact ⟨r', mem_cons_of_mem _ hr'⟩
    · cases h
      exact ⟨r, mem_cons_self⟩
    · cases h

lemma settle_congr (h : ∀ j, i ≤ j → (j ∈ X ↔ j ∈ Y)) :
    settle plan write w i s as fuel X = settle plan write w i s as fuel Y := by
  induction fuel generalizing X Y with
  | zero => rfl
  | succ fuel ih =>
    simp only [settle, greedy_congr h]
    split
    · rfl
    split
    · rfl
    · refine ih fun j hj => ?_
      simp only [Finset.mem_insert, Finset.mem_union, h j hj]
    · rfl

lemma settle_excluded (h : i ∈ X) :
    settle plan write w i s (a :: as) fuel X = settle plan write w (i + 1) s as fuel X := by
  induction fuel generalizing X with
  | zero => rfl
  | succ fuel ih =>
    simp only [settle, greedy_excluded h]
    split
    · rfl
    split
    · rfl
    · exact ih (Finset.mem_insert_of_mem (Finset.mem_union_left _ h))
    · rfl

lemma settle_failed (h : i ∉ X) (hp : plan i a s = .failed) :
    settle plan write w i s (a :: as) fuel X = settle plan write w (i + 1) s as fuel X := by
  cases fuel with
  | zero => rfl
  | succ fuel =>
    simp only [settle, greedy_failed h hp]
    split
    · rfl
    split
    · rfl
    · rw [settle_excluded (by simp)]
      refine settle_congr fun j hj => ?_
      have hne : j ≠ i := by omega
      simp [hne]
    · rfl

lemma settle_done (h : i ∉ X) (hp : plan i a s = .planned r s') (hw : write w r = .done w') :
    settle plan write w i s (a :: as) fuel X =
      (settle plan write w' (i + 1) s' as fuel X).map (·.map (keep i r)) := by
  induction fuel generalizing X with
  | zero => rfl
  | succ fuel ih =>
    simp only [settle, greedy_planned h hp]
    cases hg : (greedy plan X (i + 1) s' as).1 with
    | error e => rfl
    | ok rs =>
      simp only [Except.map, writeAll, hw]
      cases hc : writeAll write w' rs with
      | done w'' | fatal e => rfl
      | duplicateAt j =>
        obtain ⟨r', hmem⟩ := mem_of_writeAll hc
        have hj : i < j := le_of_greedy_eq_ok hg _ hmem
        refine ih ?_
        simp only [Finset.mem_insert, Finset.mem_union, not_or]
        exact ⟨by omega, h, fun hf => absurd (le_of_mem_greedy hf) (by omega)⟩

section Decodes

variable (hfatal : ∀ a ∈ as, ∀ i s e, plan i a s ≠ .fatal e)
include hfatal

lemma settle_duplicate (h : i ∉ X) (hp : plan i a s = .planned r s')
    (hw : write w r = .duplicate) :
    settle plan write w i s (a :: as) (fuel + 1) X =
      settle plan write w (i + 1) s as fuel (X ∪ (greedy plan X (i + 1) s' as).2) := by
  obtain ⟨rs, hrs⟩ := exists_greedy_eq_ok (X := X) (i := i + 1) (s := s') hfatal
  simp only [settle, greedy_planned h hp, hrs, Except.map, writeAll, hw]
  rw [settle_excluded (Finset.mem_insert_self i _)]
  refine settle_congr fun j hj => ?_
  have hne : j ≠ i := by omega
  simp [hne]

lemma settle_write_fatal (h : i ∉ X) (hp : plan i a s = .planned r s')
    (hw : write w r = .fatal e) :
    settle plan write w i s (a :: as) (fuel + 1) X = some (.error (.inr e)) := by
  obtain ⟨rs, hrs⟩ := exists_greedy_eq_ok (X := X) (i := i + 1) (s := s') hfatal
  simp only [settle, greedy_planned h hp, hrs, Except.map, writeAll, hw]

/-- The restarts come to one walk with side walks; a restart for each item, and one walk more, are
enough. -/
lemma settle_eq_resolve (hlen : as.length < fuel) :
    settle plan write w i s as fuel X =
      some ((resolve plan write X w i s as).mapError .inr) := by
  induction as generalizing i s X w fuel with
  | nil =>
    obtain ⟨fuel, rfl⟩ := Nat.exists_eq_succ_of_ne_zero (Nat.ne_zero_of_lt hlen)
    simp [settle, greedy, writeAll, resolve, Except.mapError]
  | cons a as ih =>
    have hrest : ∀ a ∈ as, ∀ i s e, plan i a s ≠ .fatal e :=
      fun b hb => hfatal b (mem_cons_of_mem a hb)
    have hlen' : as.length < fuel := Nat.lt_of_succ_lt hlen
    by_cases hi : i ∈ X
    · rw [settle_excluded hi, ih hrest hlen', resolve, if_pos hi]
    rw [resolve, if_neg hi]
    cases hp : plan i a s with
    | fatal e => exact absurd hp (hfatal a mem_cons_self i s e)
    | failed => rw [settle_failed hi hp, ih hrest hlen']
    | planned r s' =>
      obtain ⟨fuel, rfl⟩ := Nat.exists_eq_succ_of_ne_zero (Nat.ne_zero_of_lt hlen)
      dsimp only
      cases hw : write w r with
      | done w' =>
        rw [settle_done hi hp hw, ih hrest hlen', Option.map_some]
        dsimp only
        cases resolve plan write X w' (i + 1) s' as <;> rfl
      | duplicate => rw [settle_duplicate hrest hi hp hw, ih hrest (Nat.lt_of_succ_lt_succ hlen)]
      | fatal e => exact settle_write_fatal hrest hi hp hw

end Decodes

lemma settle_fatal {pre : List α} (h : ∀ i s, ∃ e, plan i a s = .fatal e)
    (hX : i + pre.length ∉ X) :
    ∃ e, settle plan write w i s (pre ++ a :: as) (fuel + 1) X = some (.error (.inl e)) := by
  obtain ⟨e, he⟩ : ∃ e, (greedy plan X i s (pre ++ a :: as)).1 = .error e :=
    exists_greedy_eq_error h hX
  exact ⟨e, by simp [settle, he]⟩

/-! ### The reference -/

/-- What holds of every plan from `i` on holds of those the walk keeps. -/
lemma forall_of_resolve {P : ℕ → ρ → Prop} {q : List (ℕ × ρ) × ω}
    (hP : ∀ j a s r s', i ≤ j → plan j a s = .planned r s' → P j r)
    (h : resolve plan write X w i s as = .ok q) : ∀ p ∈ q.1, P p.1 p.2 := by
  fun_induction resolve plan write X w i s as generalizing q with
  | case1 =>
    cases h
    simp
  | case2 _ _ _ _ _ _ _ ih | case4 _ _ _ _ _ _ _ _ _ _ _ ih | case6 _ _ _ _ _ _ _ _ ih =>
    exact ih (fun j a s r s' hj => hP j a s r s' (Nat.le_of_succ_le hj)) h
  | case3 X w i s a as hi r s' hp w' hw ih =>
    cases hq : resolve plan write X w' (i + 1) s' as with
    | error e => simp [hq, Except.map] at h
    | ok q' =>
      rw [hq] at h
      cases h
      intro p hmem
      obtain rfl | hmem := mem_cons.mp hmem
      · exact hP i a s r s' le_rfl hp
      · exact ih (fun j a s r s' hj => hP j a s r s' (Nat.le_of_succ_le hj)) hq p hmem
  | case5 => cases h

lemma oneByOne_of_not_commits (h : ¬ Commits plan write w i a s) :
    oneByOne plan write w i s (a :: as) = oneByOne plan write w (i + 1) s as := by
  rw [oneByOne]
  split
  · rename_i r s' hp
    split
    · rename_i w' hw
      exact absurd ⟨r, s', w', hp, hw⟩ h
    · rfl
  · rfl

/-- The walk with side walks agrees with the items one by one exactly when no write is fatal and no
side walk strikes out an item that takes effect. -/
lemma resolve_eq_oneByOne_iff : resolve plan write X w i s as = .ok (oneByOne plan write w i s as) ↔
    Unharmed plan write X w i s as := by
  induction as generalizing i s X w with
  | nil => simp [resolve, oneByOne, Unharmed]
  | cons a as ih =>
    by_cases hi : i ∈ X
    · rw [resolve, if_pos hi, Unharmed, if_pos hi]
      by_cases hc : Commits plan write w i a s
      · -- the struck item has position `i`, which nothing later has
        have hne : resolve plan write X w (i + 1) s as ≠
            .ok (oneByOne plan write w i s (a :: as)) := by
          intro heq
          obtain ⟨r, s', w', hp, hw⟩ := hc
          have hlater := forall_of_resolve (P := fun j _ => i + 1 ≤ j)
            (fun _ _ _ _ _ hj _ => hj) heq (i, r) (by simp [oneByOne, hp, hw, keep])
          exact absurd hlater (Nat.not_succ_le_self i)
        simp [hne, hc]
      · rw [oneByOne_of_not_commits hc, ih]
        simp [hc]
    · rw [resolve, if_neg hi, Unharmed, if_neg hi, oneByOne]
      cases hp : plan i a s with
      | fatal e | failed => exact ih
      | planned r s' =>
        dsimp only
        cases hw : write w r with
        | duplicate => exact ih
        | fatal e => simp
        | done w' =>
          simp only [← ih]
          cases resolve plan write X w' (i + 1) s' as with
          | error e => simp [Except.map]
          | ok q => simp [Except.map, keep, Prod.ext_iff]

/-- If nothing takes effect one by one, nothing does in the walk. -/
lemma resolve_of_oneByOne_eq_nil (h : (oneByOne plan write w i s as).1 = [])
    {q : List (ℕ × ρ) × ω} (hq : resolve plan write X w i s as = .ok q) :
    q = oneByOne plan write w i s as := by
  induction as generalizing i X with
  | nil =>
    cases hq
    rfl
  | cons a as ih =>
    have hc : ¬ Commits plan write w i a s := by
      rintro ⟨r, s', w', hp, hw⟩
      simp [oneByOne, hp, hw, keep] at h
    rw [oneByOne_of_not_commits hc] at h ⊢
    rw [resolve] at hq
    split_ifs at hq with hi
    · exact ih h hq
    split at hq
    · rename_i r s' hp
      split at hq
      · rename_i w' hw
        exact absurd ⟨r, s', w', hp, hw⟩ hc
      · exact ih h hq
      · cases hq
    · exact ih h hq

lemma snd_oneByOne_of_eq_nil (h : (oneByOne plan write w i s as).1 = []) :
    (oneByOne plan write w i s as).2 = w := by
  induction as generalizing i with
  | nil => rfl
  | cons a as ih =>
    have hc : ¬ Commits plan write w i a s := by
      rintro ⟨r, s', w', hp, hw⟩
      simp [oneByOne, hp, hw, keep] at h
    rw [oneByOne_of_not_commits hc] at h ⊢
    exact ih h

lemma forall_of_oneByOne {P : ℕ → ρ → Prop}
    (hP : ∀ i a s r s', plan i a s = .planned r s' → P i r) :
    ∀ p ∈ (oneByOne plan write w i s as).1, P p.1 p.2 := by
  induction as generalizing i s w with
  | nil => simp [oneByOne]
  | cons a as ih =>
    by_cases hc : Commits plan write w i a s
    · obtain ⟨r, s', w', hp, hw⟩ := hc
      simp only [oneByOne, hp, hw, keep]
      intro p hmem
      obtain rfl | hmem := mem_cons.mp hmem
      · exact hP i a s r s' hp
      · exact ih p hmem
    · rw [oneByOne_of_not_commits hc]
      exact ih

end Settle

end Acct.Replay
