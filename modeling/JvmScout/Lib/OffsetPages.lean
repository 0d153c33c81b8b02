import Mathlib.Algebra.Order.Group.Nat
import Mathlib.Data.List.Basic
import Mathlib.Data.List.Nodup
import Mathlib.Data.List.TakeDrop
import Mathlib.Tactic.Basic
import Mathlib.Tactic.Ring

namespace OffsetPages

variable {α : Type*}

def page (L : ℕ) (V : ℕ → List α) (p : ℕ) : List α := ((V p).drop (L * p)).take L

def pages (L : ℕ) (V : ℕ → List α) (m : ℕ) : List α := (List.range m).flatMap (page L V)

variable {L : ℕ} {V : ℕ → List α}

theorem pages_succ (m : ℕ) : pages L V (m + 1) = pages L V m ++ page L V m := by
  rw [pages, List.range_succ, List.flatMap_append, List.flatMap_singleton, ← pages]

theorem length_page_le (p : ℕ) : (page L V p).length ≤ L := List.length_take_le L _

theorem length_page (p : ℕ) : (page L V p).length = min L ((V p).length - L * p) := by
  rw [page, List.length_take, List.length_drop]

theorem pages_of_still {V₀ : List α} {m : ℕ} (hstill : ∀ p < m, V p = V₀) : pages L V m = V₀.take (L * m) := by
  induction m with
  | zero => rfl
  | succ m ih =>
    rw [pages_succ, ih fun p hp => hstill p (Nat.lt_succ_of_lt hp), page, hstill m (Nat.lt_succ_self m), Nat.mul_succ,
      List.take_add]

structure Grown (V : ℕ → List α) (V₀ : List α) (K : ℕ → ℕ) : Prop where
  split : ∀ p, ∃ new, V p = new ++ V₀ ∧ new.length = K p
  nodup : ∀ p, (V p).Nodup

variable {V₀ : List α} {K : ℕ → ℕ}

theorem mem_page_iff (p : ℕ) (a : α) :
    a ∈ page L V p ↔ ∃ i, L * p ≤ i ∧ i < L * p + L ∧ (V p)[i]? = some a := by
  rw [page, List.mem_iff_getElem?]
  simp only [List.getElem?_take, List.getElem?_drop, Option.ite_none_right_eq_some]
  constructor
  · rintro ⟨i, hi, heq⟩
    exact ⟨L * p + i, by omega, by omega, heq⟩
  · rintro ⟨i, hle, hlt, heq⟩
    refine ⟨i - L * p, by omega, ?_⟩
    rw [Nat.add_sub_cancel' hle]
    exact heq

theorem Grown.mem_page (h : Grown V V₀ K) (p : ℕ) {i : ℕ} (hi : i < V₀.length) :
    V₀[i] ∈ page L V p ↔ L * p ≤ K p + i ∧ K p + i < L * p + L := by
  obtain ⟨new, hsplit, hnew⟩ := h.split p
  have hat : (V p)[K p + i]? = some V₀[i] := by
    rw [hsplit, ← hnew, List.getElem?_append_right (Nat.le_add_right _ _), Nat.add_sub_cancel_left]
    exact List.getElem?_eq_getElem hi
  rw [mem_page_iff]
  constructor
  · rintro ⟨i', hle, hlt, heq⟩
    obtain ⟨hbound, -⟩ := List.getElem?_eq_some_iff.mp heq
    have hsame : i' = K p + i := (List.getElem?_inj hbound (h.nodup p)).mp (heq.trans hat.symm)
    exact ⟨by omega, by omega⟩
  · exact fun hin => ⟨K p + i, hin.1, hin.2, hat⟩

theorem Grown.not_exact (h : Grown V V₀ K) {j m : ℕ} (hL : 0 < L) (hjm : j + 1 ≤ m)
    (hlt : L * (j + 1) < V₀.length) (hstill : ∀ p ≤ j, K p = 0) (hgrow : 1 ≤ K (j + 1))
    (hmono : ∀ p, K p ≤ K (p + 1)) :
    ¬ ((pages L V (m + 1)).Nodup ∧ V₀[L * (j + 1)] ∈ pages L V (m + 1)) := by
  rintro ⟨hnodup, hmem⟩
  have hsucc (p : ℕ) : L * (p + 1) = L * p + L := Nat.mul_succ L p
  have hlast : L * j + (L - 1) < V₀.length := by
    have := hsucc j
    omega
  have hshown : V₀[L * j + (L - 1)] ∈ page L V j := by
    apply (h.mem_page j hlast).mpr
    rw [hstill j le_rfl]
    omega
  have honce (p : ℕ) (hp : j + 1 ≤ p) (hpm : p ≤ m) : V₀[L * j + (L - 1)] ∉ page L V p := by
    intro hagain
    have hpairs := List.pairwise_iff_getElem.mp (List.nodup_flatMap.mp hnodup).2
    have hapart := hpairs j p (by rw [List.length_range]; omega) (by rw [List.length_range]; omega) (by omega)
    rw [List.getElem_range, List.getElem_range] at hapart
    exact hapart hshown hagain
  -- the start of page `p`, read as a place of the first version, stays before page `j`
  have hbehind (p : ℕ) (hp : j + 1 ≤ p) (hpm : p ≤ m) : L * p < K p + L * j := by
    induction p, hp using Nat.le_induction with
    | base =>
      have hout := mt (h.mem_page (j + 1) hlast).mpr (honce (j + 1) le_rfl hpm)
      have := hsucc j
      omega
    | succ p hp ih =>
      have hprev := ih (by omega)
      have hout := mt (h.mem_page (p + 1) hlast).mpr (honce (p + 1) (by omega) hpm)
      have := hsucc p
      have := hmono p
      omega
  obtain ⟨p, hp, hin⟩ := List.mem_flatMap.mp hmem
  have hpm : p ≤ m := Nat.lt_succ_iff.mp (List.mem_range.mp hp)
  have hat := (h.mem_page p hlt).mp hin
  have := hsucc j
  by_cases hpj : p ≤ j
  · have hle : L * p ≤ L * j := Nat.mul_le_mul_left L hpj
    have := hstill p hpj
    omega
  · have := hbehind p (by omega) hpm
    omega

end OffsetPages
