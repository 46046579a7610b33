import Mathlib.Data.List.Nodup
import Mathlib.Data.List.Perm.Basic

/-!
# Batched writes to a keyed table

A table with a primary key is a list of rows with distinct keys (`KeyedTable`). `applyAll?` runs
writes one by one. The batched statements are `upsertBatch?` (`INSERT ... ON CONFLICT DO UPDATE`,
rejected if it proposes a key twice), `insertBatch?` and `deleteBatch`.

What writes with distinct keys do is said key by key (`exists_applyAll?_iff`, `get?_applyAll?`), so
their order does not matter (`applyAll?_perm`), and one batch of each kind does the same
(`exists_batches`).
-/

namespace Acct.Table

open List Option

variable {ρ κ : Type*} [DecidableEq κ] {key : ρ → κ}

structure KeyedTable (key : ρ → κ) where
  rows : List ρ
  keys_nodup : (rows.map key).Nodup

inductive Write (ρ κ : Type*)
  | upsert (r : ρ)
  | insert (r : ρ)
  | delete (k : κ)

def Write.target (key : ρ → κ) : Write ρ κ → κ
  | upsert r | insert r => key r
  | delete k => k

def Write.row : Write ρ κ → Option ρ
  | upsert r | insert r => some r
  | delete _ => none

def Write.upsertRow? : Write ρ κ → Option ρ
  | upsert r => some r
  | _ => none

def Write.insertRow? : Write ρ κ → Option ρ
  | insert r => some r
  | _ => none

def Write.deleteKey? : Write ρ κ → Option κ
  | delete k => some k
  | _ => none

namespace KeyedTable

def SameRows (t u : KeyedTable key) : Prop := ∀ r, r ∈ t.rows ↔ r ∈ u.rows

def get? (t : KeyedTable key) (k : κ) : Option ρ := t.rows.find? (key · = k)

omit [DecidableEq κ] in
lemma keys_nodup_filter (t : KeyedTable key) (p : ρ → Bool) :
    ((t.rows.filter p).map key).Nodup :=
  t.keys_nodup.sublist (filter_sublist.map key)

def delete (t : KeyedTable key) (k : κ) : KeyedTable key where
  rows := t.rows.filter (key · ≠ k)
  keys_nodup := t.keys_nodup_filter _

def upsert (t : KeyedTable key) (r : ρ) : KeyedTable key where
  rows := r :: t.rows.filter (key · ≠ key r)
  keys_nodup := by
    rw [map_cons, nodup_cons]
    exact ⟨by simp, t.keys_nodup_filter _⟩

def insert? (t : KeyedTable key) (r : ρ) : Option (KeyedTable key) :=
  if h : key r ∈ t.rows.map key then none
  else some ⟨r :: t.rows, by rw [map_cons, nodup_cons]; exact ⟨h, t.keys_nodup⟩⟩

def applyOne? (t : KeyedTable key) : Write ρ κ → Option (KeyedTable key)
  | .upsert r => some (t.upsert r)
  | .insert r => t.insert? r
  | .delete k => some (t.delete k)

def applyAll? (t : KeyedTable key) (ws : List (Write ρ κ)) : Option (KeyedTable key) :=
  ws.foldlM applyOne? t

/-- `INSERT ... ON CONFLICT DO UPDATE`: rejected if it proposes a key twice. -/
def upsertBatch? (t : KeyedTable key) (rs : List ρ) : Option (KeyedTable key) :=
  if (rs.map key).Nodup then some (rs.foldl upsert t) else none

/-- `INSERT` of several rows. -/
def insertBatch? (t : KeyedTable key) (rs : List ρ) : Option (KeyedTable key) := rs.foldlM insert? t

/-- `DELETE` of several keys. -/
def deleteBatch (t : KeyedTable key) (ks : List κ) : KeyedTable key where
  rows := t.rows.filter (key · ∉ ks)
  keys_nodup := t.keys_nodup_filter _

/-! ### Reading a table -/

lemma get?_eq_some_iff (t : KeyedTable key) {k : κ} {r : ρ} :
    t.get? k = some r ↔ r ∈ t.rows ∧ key r = k := by
  constructor
  · intro h
    exact ⟨List.mem_of_find?_eq_some h, by simpa using List.find?_some h⟩
  · rintro ⟨hr, rfl⟩
    obtain ⟨s, hs⟩ : ∃ s, t.get? (key r) = some s := by
      rw [← Option.isSome_iff_exists, get?, List.find?_isSome]
      exact ⟨r, hr, by simp⟩
    have hmem := List.mem_of_find?_eq_some hs
    have hkey : key s = key r := by simpa using List.find?_some hs
    rw [hs, inj_on_of_nodup_map t.keys_nodup hmem hr hkey]

lemma get?_eq_none_iff (t : KeyedTable key) {k : κ} : t.get? k = none ↔ k ∉ t.rows.map key := by
  simp [get?, List.find?_eq_none]

lemma get?_self_iff {t : KeyedTable key} {r : ρ} : t.get? (key r) = some r ↔ r ∈ t.rows := by
  rw [get?_eq_some_iff]
  simp

lemma sameRows_of_get? {t u : KeyedTable key} (h : ∀ k, t.get? k = u.get? k) : SameRows t u := by
  intro r
  rw [← get?_self_iff, ← get?_self_iff, h]

/-! ### One write -/

lemma get?_congr {t u : KeyedTable key} (h : SameRows t u) (k : κ) : t.get? k = u.get? k := by
  refine Option.ext fun r => ?_
  rw [get?_eq_some_iff, get?_eq_some_iff, h r]

lemma get?_delete (t : KeyedTable key) (k k' : κ) :
    (t.delete k).get? k' = if k' = k then none else t.get? k' := by
  split_ifs with h
  · rw [get?_eq_none_iff]
    simp [delete, h]
  · ext r
    rw [get?_eq_some_iff, get?_eq_some_iff]
    simp only [delete, mem_filter, decide_eq_true_eq]
    constructor
    · rintro ⟨⟨hr, -⟩, rfl⟩
      exact ⟨hr, rfl⟩
    · rintro ⟨hr, rfl⟩
      exact ⟨⟨hr, h⟩, rfl⟩

lemma get?_cons {t u : KeyedTable key} {r : ρ} (h : u.rows = r :: t.rows) (k : κ) :
    u.get? k = if k = key r then some r else t.get? k := by
  rw [get?, h, List.find?_cons]
  by_cases hk : key r = k
  · simp [hk]
  · simp [hk, Ne.symm hk, get?]

lemma get?_applyOne? {t u : KeyedTable key} {w : Write ρ κ} (h : t.applyOne? w = some u) (k : κ) :
    u.get? k = if k = w.target key then w.row else t.get? k := by
  cases w with
  | upsert r =>
    obtain rfl := some.inj h
    rw [get?_cons (t := t.delete (key r)) rfl, get?_delete]
    show _ = if k = key r then some r else t.get? k
    split_ifs <;> rfl
  | insert r =>
    simp only [applyOne?, insert?] at h
    split_ifs at h
    obtain rfl := some.inj h
    exact get?_cons (t := t) rfl k
  | delete k' =>
    obtain rfl := some.inj h
    exact get?_delete t k' k

lemma exists_applyOne?_iff {t : KeyedTable key} {w : Write ρ κ} :
    (∃ u, t.applyOne? w = some u) ↔ ∀ r, w = .insert r → t.get? (key r) = none := by
  cases w with
  | upsert r => simp [applyOne?]
  | insert r =>
    simp only [applyOne?, insert?, Write.insert.injEq, forall_eq']
    rw [get?_eq_none_iff]
    by_cases hmem : key r ∈ t.rows.map key <;> simp [hmem]
  | delete k => simp [applyOne?]

/-! ### Many writes -/

lemma applyAll?_cons (t : KeyedTable key) (w : Write ρ κ) (ws : List (Write ρ κ)) :
    t.applyAll? (w :: ws) = (t.applyOne? w).bind (·.applyAll? ws) := rfl

lemma applyAll?_append (t : KeyedTable key) (ws ws' : List (Write ρ κ)) :
    t.applyAll? (ws ++ ws') = (t.applyAll? ws).bind (·.applyAll? ws') := foldlM_append

lemma mem_of_applyAll? {t u : KeyedTable key} {ws : List (Write ρ κ)} (h : t.applyAll? ws = some u)
    {r : ρ} (hr : r ∈ u.rows) : r ∈ t.rows ∨ .upsert r ∈ ws ∨ .insert r ∈ ws := by
  induction ws generalizing t with
  | nil =>
    obtain rfl := some.inj h
    exact .inl hr
  | cons w ws ih =>
    rw [applyAll?_cons] at h
    obtain ⟨v, hv, hu⟩ := Option.bind_eq_some_iff.mp h
    rcases ih hu with hv' | hw | hw
    · rw [← get?_self_iff, get?_applyOne? hv] at hv'
      split_ifs at hv'
      · cases w with
        | upsert s => exact .inr (.inl (some.inj hv' ▸ mem_cons_self))
        | insert s => exact .inr (.inr (some.inj hv' ▸ mem_cons_self))
        | delete k => cases hv'
      · exact .inl (get?_self_iff.mp hv')
    · exact .inr (.inl (mem_cons_of_mem _ hw))
    · exact .inr (.inr (mem_cons_of_mem _ hw))

theorem get?_applyAll? {t u : KeyedTable key} {ws : List (Write ρ κ)}
    (hws : (ws.map (Write.target key)).Nodup) (h : t.applyAll? ws = some u) :
    (∀ w ∈ ws, u.get? (w.target key) = w.row) ∧
      ∀ k ∉ ws.map (Write.target key), u.get? k = t.get? k := by
  induction ws generalizing t with
  | nil =>
    obtain rfl := some.inj h
    simp
  | cons w ws ih =>
    rw [map_cons, nodup_cons] at hws
    rw [applyAll?_cons] at h
    obtain ⟨v, hv, hu⟩ := Option.bind_eq_some_iff.mp h
    obtain ⟨hrow, hold⟩ := ih hws.2 hu
    refine ⟨fun w' hw' => ?_, fun k hk => ?_⟩
    · rcases mem_cons.mp hw' with rfl | hw'
      · rw [hold _ hws.1, get?_applyOne? hv, if_pos rfl]
      · exact hrow w' hw'
    · rw [map_cons, mem_cons, not_or] at hk
      rw [hold k hk.2, get?_applyOne? hv, if_neg hk.1]

theorem exists_applyAll?_iff {t : KeyedTable key} {ws : List (Write ρ κ)}
    (hws : (ws.map (Write.target key)).Nodup) :
    (∃ u, t.applyAll? ws = some u) ↔ ∀ r, .insert r ∈ ws → t.get? (key r) = none := by
  induction ws generalizing t with
  | nil => simp [applyAll?]
  | cons w ws ih =>
    rw [map_cons, nodup_cons] at hws
    -- the first write does not touch the keys inserted later
    have hlater : ∀ {v}, t.applyOne? w = some v → ∀ r, Write.insert r ∈ ws →
        v.get? (key r) = t.get? (key r) := by
      intro v hv r hr
      rw [get?_applyOne? hv, if_neg]
      rintro heq
      exact hws.1 (heq ▸ List.mem_map_of_mem hr)
    constructor
    · rintro ⟨u, hu⟩ r hr
      rw [applyAll?_cons] at hu
      obtain ⟨v, hv, hu⟩ := Option.bind_eq_some_iff.mp hu
      rcases mem_cons.mp hr with rfl | hr
      · exact exists_applyOne?_iff.mp ⟨v, hv⟩ r rfl
      · rw [← hlater hv r hr]
        exact (ih hws.2).mp ⟨u, hu⟩ r hr
    · intro h
      obtain ⟨v, hv⟩ := exists_applyOne?_iff.mpr fun r hr => h r (hr ▸ mem_cons_self)
      rw [applyAll?_cons, hv]
      refine (ih hws.2).mpr fun r hr => ?_
      rw [hlater hv r hr]
      exact h r (mem_cons_of_mem _ hr)

/-- **Regrouping.** Writes with distinct keys do the same in every order. -/
theorem applyAll?_perm {t u : KeyedTable key} {ws ws' : List (Write ρ κ)} (hperm : ws.Perm ws')
    (hws : (ws.map (Write.target key)).Nodup) (h : t.applyAll? ws = some u) :
    ∃ u', t.applyAll? ws' = some u' ∧ SameRows u u' := by
  have hws' : (ws'.map (Write.target key)).Nodup := (hperm.map _).nodup_iff.mp hws
  obtain ⟨u', hu'⟩ := (exists_applyAll?_iff (t := t) hws').mpr fun r hr =>
    (exists_applyAll?_iff hws).mp ⟨u, h⟩ r (hperm.mem_iff.mpr hr)
  obtain ⟨hrow, hold⟩ := get?_applyAll? hws h
  obtain ⟨hrow', hold'⟩ := get?_applyAll? hws' hu'
  refine ⟨u', hu', sameRows_of_get? fun k => ?_⟩
  by_cases hk : k ∈ ws.map (Write.target key)
  · obtain ⟨w, hw, rfl⟩ := List.mem_map.mp hk
    rw [hrow w hw, hrow' w (hperm.mem_iff.mp hw)]
  · rw [hold k hk, hold' k fun hk' => hk ((hperm.map _).mem_iff.mpr hk')]

/-! ### The batches -/

lemma applyAll?_upsert (t : KeyedTable key) (rs : List ρ) :
    t.applyAll? (rs.map .upsert) = some (rs.foldl upsert t) := by
  induction rs generalizing t with
  | nil => rfl
  | cons r rs ih => exact ih (t.upsert r)

lemma insertBatch?_eq (t : KeyedTable key) (rs : List ρ) :
    t.insertBatch? rs = t.applyAll? (rs.map .insert) := by
  rw [applyAll?, foldlM_map]
  rfl

lemma applyAll?_delete (t : KeyedTable key) (ks : List κ) :
    t.applyAll? (ks.map .delete) = some (t.deleteBatch ks) := by
  induction ks generalizing t with
  | nil =>
    show some t = _
    simp [deleteBatch]
  | cons k ks ih =>
    rw [map_cons, applyAll?_cons]
    show (t.delete k).applyAll? (ks.map .delete) = _
    rw [ih]
    simp [deleteBatch, delete, List.filter_filter, not_or, Bool.and_comm]

omit [DecidableEq κ] in
lemma batches_perm (ws : List (Write ρ κ)) :
    ws.Perm ((ws.filterMap Write.upsertRow?).map .upsert ++
      ((ws.filterMap Write.insertRow?).map .insert ++
        (ws.filterMap Write.deleteKey?).map .delete)) := by
  induction ws with
  | nil => simp
  | cons w ws ih =>
    cases w with
    | upsert r => exact ih.cons _
    | insert r =>
      refine (ih.cons _).trans ?_
      exact perm_middle.symm
    | delete k =>
      refine (ih.cons _).trans ?_
      rw [← append_assoc, ← append_assoc]
      exact perm_middle.symm

lemma applyAll?_batches {t t1 t2 : KeyedTable key} {ws : List (Write ρ κ)}
    (h1 : t.upsertBatch? (ws.filterMap Write.upsertRow?) = some t1)
    (h2 : t1.insertBatch? (ws.filterMap Write.insertRow?) = some t2) :
    t.applyAll? ((ws.filterMap Write.upsertRow?).map .upsert ++
      ((ws.filterMap Write.insertRow?).map .insert ++
        (ws.filterMap Write.deleteKey?).map .delete)) =
      some (t2.deleteBatch (ws.filterMap Write.deleteKey?)) := by
  unfold upsertBatch? at h1
  split_ifs at h1
  rw [applyAll?_append, applyAll?_upsert, h1, Option.bind_some, applyAll?_append, ← insertBatch?_eq,
    h2, Option.bind_some, applyAll?_delete]

/-- **Three batches for a list of writes.** Writes with distinct keys may be sent as one upsert, one
insert and one delete. -/
theorem exists_batches {t u : KeyedTable key} {ws : List (Write ρ κ)}
    (hws : (ws.map (Write.target key)).Nodup) (h : t.applyAll? ws = some u) :
    ∃ t1 t2, t.upsertBatch? (ws.filterMap Write.upsertRow?) = some t1 ∧
      t1.insertBatch? (ws.filterMap Write.insertRow?) = some t2 ∧
      SameRows (t2.deleteBatch (ws.filterMap Write.deleteKey?)) u := by
  obtain ⟨u', hu', hsame⟩ := applyAll?_perm (batches_perm ws) hws h
  rw [applyAll?_append] at hu'
  obtain ⟨t1, ht1, hu'⟩ := Option.bind_eq_some_iff.mp hu'
  rw [applyAll?_append] at hu'
  obtain ⟨t2, ht2, hu'⟩ := Option.bind_eq_some_iff.mp hu'
  rw [applyAll?_delete] at hu'
  obtain rfl := some.inj hu'
  have hnodup : ((ws.filterMap Write.upsertRow?).map key).Nodup := by
    have hall := ((batches_perm ws).map (Write.target key)).nodup_iff.mp hws
    rw [map_append, List.map_map] at hall
    exact hall.of_append_left
  refine ⟨t1, t2, ?_, by rw [insertBatch?_eq, ht2], fun r => (hsame r).symm⟩
  rw [upsertBatch?, if_pos hnodup, ← ht1, applyAll?_upsert]

end KeyedTable

end Acct.Table
