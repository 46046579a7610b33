import Mathlib.Data.List.Nodup

/-!
# Numbered items

Items are numbered as they come in, put in a free place, and some time later given back. `Conserved`
says that none is lost or duplicated: the numbers given out are those held, each in one place, and
those given back, each once.
-/

namespace Acct.Machine

open List Function

variable {ι : Type*} {held : ι → Option ℕ} {returned : List ℕ} {next n : ℕ} {i : ι}

/-- Every number given out is held in one place or has been given back once, and not both. -/
structure Conserved (held : ι → Option ℕ) (returned : List ℕ) (next : ℕ) : Prop where
  nodup : returned.Nodup
  apart : ∀ i n, held i = some n → n ∉ returned
  inj : ∀ i j n, held i = some n → held j = some n → i = j
  total : ∀ n, n < next ↔ n ∈ returned ∨ ∃ i, held i = some n

namespace Conserved

lemma init : Conserved (fun _ : ι => none) [] 0 := ⟨nodup_nil, nofun, nofun, by simp⟩

variable [DecidableEq ι] (h : Conserved held returned next)
include h

lemma takeIn (hi : held i = none) : Conserved (update held i (some next)) returned (next + 1) where
  nodup := h.nodup
  apart j n hj := by
    have hn := h.total n
    have hold := h.apart j n
    grind [update_apply]
  inj j k n hj hk := by
    have hn := h.total n
    have hold := h.inj j k n
    grind [update_apply]
  total n := by
    have hn := h.total n
    simp only [update_apply]
    grind

lemma giveBack (hi : held i = some n) : Conserved (update held i none) (n :: returned) next where
  nodup := nodup_cons.mpr ⟨h.apart i n hi, h.nodup⟩
  apart j m hj := by
    have hold := h.apart j m
    have hinj := h.inj i j n hi
    grind [update_apply]
  inj j k m hj hk := by
    have hold := h.inj j k m
    grind [update_apply]
  total m := by
    have hm := h.total m
    simp only [update_apply]
    grind

end Conserved

end Acct.Machine
