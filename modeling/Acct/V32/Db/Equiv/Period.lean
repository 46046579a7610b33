import Acct.V32.Db.Period
import Mathlib.Data.List.Nodup

/-!
# Frozen instants

An instant is frozen iff it lies before the end of some closed period (`frozen_iff`), and the two
guards of `0024` reject exactly the frozen ones (`periodGuardAdmits_iff`). Changing the state of one
period changes what is frozen only through that period.
-/

namespace Acct.V32

variable {periods : List AccountingPeriod} {at' : ℤ} {period : AccountingPeriod}

def AccountingPeriod.day (id date : ℤ) (state : PeriodState) : AccountingPeriod :=
  ⟨id, date, date, state, le_rfl⟩

def PeriodTable.dayZero : PeriodTable := ⟨[.day 7 0 .isOpen], by decide, by decide⟩

lemma mem_closedPeriods {p : AccountingPeriod} :
    p ∈ closedPeriods periods ↔ p ∈ periods ∧ p.state = .isClosed := by
  simp [closedPeriods]

theorem frozen_iff :
    Frozen periods at' ↔ ∃ p ∈ periods, p.state = .isClosed ∧ at' < p.endAt := by
  constructor
  · rintro ⟨f, hf, hlt⟩
    obtain ⟨p, hp, rfl⟩ := List.mem_map.mp (List.max?_mem hf)
    obtain ⟨hmem, hclosed⟩ := mem_closedPeriods.mp hp
    exact ⟨p, hmem, hclosed, hlt⟩
  · rintro ⟨p, hp, hclosed, hlt⟩
    have hmem : p.endAt ∈ (closedPeriods periods).map (·.endAt) :=
      List.mem_map_of_mem (mem_closedPeriods.mpr ⟨hp, hclosed⟩)
    obtain ⟨f, hf⟩ := Option.ne_none_iff_exists'.mp fun hnone =>
      List.ne_nil_of_mem hmem (List.max?_eq_none_iff.mp hnone)
    exact ⟨f, hf, hlt.trans_le ((List.max?_eq_some_iff.mp hf).2 _ hmem)⟩

/-- The coverage check of the guards adds nothing to the frontier check. -/
theorem periodGuardAdmits_iff :
    PeriodGuardAdmits periods at' ↔ ¬ Frozen periods at' := by
  refine ⟨And.right, fun h => ⟨fun p hp hcov hclosed => h ?_, h⟩⟩
  exact frozen_iff.mpr ⟨p, hp, hclosed, hcov.2⟩

lemma frozen_setState_closing {periods : PeriodTable} (hmem : period ∈ periods.rows)
    (hopen : period.state ≠ .isClosed) :
    Frozen (periods.setState period.id .isClosing).rows at' ↔ Frozen periods.rows at' := by
  rw [frozen_iff, frozen_iff]
  constructor
  · rintro ⟨_, hrow, hclosed, hlt⟩
    obtain ⟨p, hp, rfl⟩ := List.mem_map.mp hrow
    by_cases hid : p.id = period.id
    · simp [hid] at hclosed
    · simp only [hid, if_false] at hclosed hlt
      exact ⟨p, hp, hclosed, hlt⟩
  · rintro ⟨p, hp, hclosed, hlt⟩
    have hid : p.id ≠ period.id := by
      intro hid
      exact hopen (List.inj_on_of_nodup_map periods.ids_nodup hp hmem hid ▸ hclosed)
    exact ⟨p, List.mem_map.mpr ⟨p, hp, if_neg hid⟩, hclosed, hlt⟩

lemma frozen_setState_closed {periods : PeriodTable} (hmem : period ∈ periods.rows)
    (h : Frozen (periods.setState period.id .isClosed).rows at') :
    Frozen periods.rows at' ∨ at' < period.endAt := by
  obtain ⟨_, hrow, hclosed, hlt⟩ := frozen_iff.mp h
  obtain ⟨p, hp, rfl⟩ := List.mem_map.mp hrow
  by_cases hid : p.id = period.id
  · rw [if_pos hid] at hlt
    rw [← List.inj_on_of_nodup_map periods.ids_nodup hp hmem hid]
    exact .inr hlt
  · simp only [hid, if_false] at hclosed hlt
    exact .inl (frozen_iff.mpr ⟨p, hp, hclosed, hlt⟩)

end Acct.V32
