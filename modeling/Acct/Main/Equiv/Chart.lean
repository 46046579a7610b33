import Acct.Main.Equiv.Writes
import Acct.Main.WorkOrder

/-!
# The chart of accounts

What posting never changes of an account: everything but its totals. A chart with distinct ids tells
what every id stands for, however much has been posted since.
-/

namespace Acct.Main

open Isolation

def Db.chart (db : Db) : List Account := db.accounts.map Account.static

@[simp] lemma Account.static_id (a : Account) : a.static.id = a.id := rfl

@[simp] lemma chart_apply (w : Write) (db : Db) : (w.apply db).chart = db.chart := by
  rw [Db.chart, accounts_apply, List.map_map, Db.chart]
  rfl

def Fixed (p : Account → Bool) : Prop := ∀ a, p a.static = p a

lemma find?_chart {p : Account → Bool} (hp : Fixed p) (db : Db) :
    db.chart.find? p = (db.accounts.find? p).map Account.static := by
  have hcomp : p ∘ Account.static = p := funext hp
  rw [Db.chart, List.find?_map, hcomp]

section Distinct

variable {C : List Account} {db : Db}

lemma eq_of_mem_chart (hC : (C.map (·.id)).Nodup) {a b : Account} (ha : a ∈ C) (hb : b ∈ C)
    (h : a.id = b.id) : a = b := by
  exact List.inj_on_of_nodup_map hC ha hb h

lemma account?_of_mem_chart (hC : (C.map (·.id)).Nodup) (h : db.chart = C) {a : Account}
    (ha : a ∈ C) : ∃ x, db.account? a.id = some x ∧ x.static = a := by
  have hmem : a ∈ db.accounts.map Account.static := by
    rw [← h] at ha
    exact ha
  obtain ⟨y, hy, hya⟩ := List.mem_map.mp hmem
  have hid : y.id = a.id := by rw [← hya, Account.static_id]
  have hsome : (db.account? a.id).isSome := by
    rw [Db.account?, List.find?_isSome]
    exact ⟨y, hy, by simp [hid]⟩
  obtain ⟨x, hx⟩ := Option.isSome_iff_exists.mp hsome
  refine ⟨x, hx, eq_of_mem_chart hC ?_ ha ?_⟩
  · rw [← h]
    exact List.mem_map_of_mem (List.mem_of_find?_eq_some hx)
  · rw [Account.static_id]
    exact id_of_account? hx

end Distinct

end Acct.Main
