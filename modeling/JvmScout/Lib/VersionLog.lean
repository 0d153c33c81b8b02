import Mathlib.Algebra.Order.Ring.Rat
import Mathlib.Data.List.Basic
import Mathlib.Tactic.Basic

namespace VersionLog

variable {δ : Type*}

abbrev Log (δ : Type*) := List (ℚ × δ)

def ReadSince (log : Log δ) (t : ℚ) (P : ℚ × δ → Prop) : Prop :=
  ∃ (i : ℕ) (e : ℚ × δ), log[i]? = some e ∧ P e ∧ ∀ (j : ℕ) (f : ℚ × δ), log[j]? = some f → f.1 < t → j ≤ i

variable {log : Log δ} {t t' c : ℚ} {P Q : ℚ × δ → Prop} {d : δ}

theorem ReadSince.mono (h : ReadSince log t P) (hle : t' ≤ t) : ReadSince log t' P := by
  obtain ⟨i, e, hi, hp, hlate⟩ := h
  refine ⟨i, e, hi, hp, fun j f hj hf => ?_⟩
  apply hlate j f hj
  exact hf.trans_le hle

theorem ReadSince.imp (h : ReadSince log t P) (hpq : ∀ e ∈ log, P e → Q e) : ReadSince log t Q := by
  obtain ⟨i, e, hi, hp, hlate⟩ := h
  refine ⟨i, e, hi, ?_, hlate⟩
  exact hpq e (List.mem_of_getElem? hi) hp

theorem ReadSince.commit (h : ReadSince log t P) (hle : t ≤ c) : ReadSince (log ++ [(c, d)]) t P := by
  obtain ⟨i, e, hi, hp, hlate⟩ := h
  have hbound : i < log.length := (List.getElem?_eq_some_iff.mp hi).1
  refine ⟨i, e, by rw [List.getElem?_append_left hbound, hi], hp, fun j f hj hf => ?_⟩
  by_cases hjlog : j < log.length
  · rw [List.getElem?_append_left hjlog] at hj
    exact hlate j f hj hf
  · rw [List.getElem?_append_right (Nat.le_of_not_lt hjlog)] at hj
    have hmem : f ∈ [(c, d)] := List.mem_of_getElem? hj
    rw [List.mem_singleton.mp hmem] at hf
    exact absurd hf (not_lt.mpr hle)

theorem readSince_last (hlast : log.getLast? = some (c, d)) (hp : P (c, d)) (t : ℚ) : ReadSince log t P := by
  refine ⟨log.length - 1, (c, d), by rw [← List.getLast?_eq_getElem?, hlast], hp, fun j f hj _ => ?_⟩
  have hbound : j < log.length := (List.getElem?_eq_some_iff.mp hj).1
  omega

end VersionLog
