import Mathlib.Data.List.Basic
import Mathlib.Data.List.Chain
import Mathlib.Data.List.Pairwise
import Mathlib.Order.Lattice
import Mathlib.Order.Monotone.Defs

namespace Window

variable {τ : Type*} [LinearOrder τ]

def since (cutoff : τ) (ts : List τ) : List τ := ts.filter fun t => cutoff ≤ t

theorem since_append (cutoff : τ) (ts us : List τ) : since cutoff (ts ++ us) = since cutoff ts ++ since cutoff us :=
  List.filter_append ts us

theorem since_since {c c' : τ} (h : c ≤ c') (ts : List τ) : since c' (since c ts) = since c' ts := by
  unfold since
  rw [List.filter_filter]
  apply List.filter_congr
  intro t _
  apply Bool.eq_iff_iff.mpr
  simp only [Bool.and_eq_true, decide_eq_true_eq]
  exact ⟨fun ht => ht.1, fun ht => ⟨ht, h.trans ht⟩⟩

theorem since_eq_self {cutoff : τ} {ts : List τ} (h : ∀ t ∈ ts, cutoff ≤ t) : since cutoff ts = ts := by
  apply List.filter_eq_self.mpr
  intro t ht
  exact decide_eq_true (h t ht)

theorem since_eq_nil {cutoff : τ} {ts : List τ} (h : ∀ t ∈ ts, t < cutoff) : since cutoff ts = [] := by
  apply List.filter_eq_nil_iff.mpr
  intro t ht
  simpa using h t ht

theorem dropWhile_lt {ts : List τ} (hs : ts.Pairwise (· ≤ ·)) (cutoff : τ) :
    (ts.dropWhile fun t => t < cutoff) = since cutoff ts := by
  induction ts with
  | nil => rfl
  | cons t ts ih =>
    rw [List.pairwise_cons] at hs
    by_cases ht : t < cutoff
    · rw [List.dropWhile_cons_of_pos (by simpa using ht), ih hs.2, since, since,
        List.filter_cons_of_neg (by simpa using ht)]
    · rw [List.dropWhile_cons_of_neg (by simpa using ht)]
      symm
      apply since_eq_self
      intro u hu
      rcases List.mem_cons.mp hu with rfl | hu
      · exact not_lt.mp ht
      · exact (not_lt.mp ht).trans (hs.1 u hu)

theorem le_getLast {ts : List τ} (hs : ts.Pairwise (· ≤ ·)) {last : τ} (hlast : ts.getLast? = some last) :
    ∀ t ∈ ts, t ≤ last := by
  obtain ⟨us, rfl⟩ := List.getLast?_eq_some_iff.mp hlast
  intro t ht
  rcases List.mem_append.mp ht with ht | ht
  · exact (List.pairwise_append.mp hs).2.2 t ht last (List.mem_singleton_self last)
  · exact (List.mem_singleton.mp ht).le

theorem pairwise_concat {ts : List τ} (hs : ts.Pairwise (· ≤ ·)) {u : τ} (hu : ∀ t ∈ ts, t ≤ u) :
    (ts ++ [u]).Pairwise (· ≤ ·) := by
  apply List.pairwise_append.mpr
  refine ⟨hs, List.pairwise_singleton _ u, fun t ht v hv => ?_⟩
  rw [List.mem_singleton.mp hv]
  exact hu t ht

def Spaced (ahead : τ → τ) (n : ℕ) (ts : List τ) : Prop :=
  ∀ i t u, ts[i]? = some t → ts[i + n]? = some u → ahead t ≤ u

variable {ahead : τ → τ} {n : ℕ}

theorem countP_lt_le_iff {ts : List τ} (hs : ts.Pairwise (· ≤ ·)) (b : τ) :
    (ts.countP fun t => t < b) ≤ n ↔ ∀ u, ts[n]? = some u → b ≤ u := by
  induction ts generalizing n with
  | nil => simp
  | cons t ts ih =>
    rw [List.pairwise_cons] at hs
    by_cases ht : t < b
    · rw [List.countP_cons_of_pos (by simpa using ht)]
      cases n with
      | zero =>
        apply iff_of_false
        · omega
        · intro h
          exact absurd ht (not_lt.mpr (h t rfl))
      | succ n =>
        rw [List.getElem?_cons_succ, ← ih hs.2]
        omega
    · have hnone : (ts.countP fun t => t < b) = 0 := by
        apply List.countP_eq_zero.mpr
        intro u hu
        simpa using (not_lt.mp ht).trans (hs.1 u hu)
      rw [List.countP_cons_of_neg (by simpa using ht), hnone]
      apply iff_of_true (Nat.zero_le n)
      intro u hu
      rcases List.mem_cons.mp (List.mem_of_getElem? hu) with rfl | hu
      · exact not_lt.mp ht
      · exact (not_lt.mp ht).trans (hs.1 u hu)

theorem spaced_cons {t : τ} {ts : List τ} :
    Spaced ahead n (t :: ts) ↔ (∀ u, (t :: ts)[n]? = some u → ahead t ≤ u) ∧ Spaced ahead n ts := by
  constructor
  · intro h
    constructor
    · intro u hu
      exact h 0 t u rfl (by rwa [Nat.zero_add])
    · intro i x u hx hu
      apply h (i + 1) x u hx
      rwa [Nat.add_right_comm, List.getElem?_cons_succ]
  · rintro ⟨hfirst, hrest⟩ i x u hx hu
    cases i with
    | zero =>
      cases hx
      apply hfirst u
      rwa [Nat.zero_add] at hu
    | succ i =>
      rw [Nat.add_right_comm, List.getElem?_cons_succ] at hu
      exact hrest i x u hx hu

theorem bounded_iff_spaced (mono : Monotone ahead) {ts : List τ} (hs : ts.Pairwise (· ≤ ·)) :
    (∀ a, (ts.countP fun t => a ≤ t ∧ t < ahead a) ≤ n) ↔ Spaced ahead n ts := by
  induction ts with
  | nil => exact iff_of_true (fun _ => Nat.zero_le n) fun _ _ _ h => nomatch h
  | cons t ts ih =>
    have htail := List.pairwise_cons.mp hs
    have hall (a : τ) (ha : a ≤ t) : ((t :: ts).countP fun u => a ≤ u ∧ u < ahead a) = (t :: ts).countP fun u => u < ahead a := by
      apply List.countP_congr
      intro u hu
      have hau : a ≤ u := by
        rcases List.mem_cons.mp hu with rfl | hu
        · exact ha
        · exact ha.trans (htail.1 u hu)
      simp [hau]
    rw [spaced_cons, ← ih htail.2, ← countP_lt_le_iff hs]
    constructor
    · intro h
      constructor
      · rw [← hall t le_rfl]
        exact h t
      · intro a
        apply le_trans _ (h a)
        exact (List.sublist_cons_self t ts).countP_le
    · rintro ⟨hfirst, hrest⟩ a
      by_cases ha : a ≤ t
      · rw [hall a ha]
        apply le_trans _ hfirst
        apply List.countP_mono_left
        intro u _ hu
        simp only [decide_eq_true_eq] at hu ⊢
        exact hu.trans_le (mono ha)
      · rw [List.countP_cons_of_neg (by simp [ha])]
        exact hrest a

theorem Spaced.of_infix {ts us : List τ} (h : Spaced ahead n us) (hts : ts <:+: us) : Spaced ahead n ts := by
  obtain ⟨as, bs, rfl⟩ := hts
  have hat {i : ℕ} {t : τ} (ht : ts[i]? = some t) : (as ++ ts ++ bs)[as.length + i]? = some t := by
    rw [List.append_assoc, List.getElem?_append_right (Nat.le_add_right _ _), Nat.add_sub_cancel_left,
      List.getElem?_append_left (List.getElem?_eq_some_iff.mp ht).1]
    exact ht
  intro i t u ht hu
  apply h (as.length + i) t u (hat ht)
  rw [Nat.add_assoc]
  exact hat hu

def Apart (ahead : τ → τ) : List (List τ) → Prop
  | u :: v :: rest => (∀ x ∈ u, ∀ y ∈ rest.flatten, ahead x ≤ y) ∧ Apart ahead (v :: rest)
  | _ => True

theorem spaced_flatten_iff {blocks : List (List τ)} (hlen : ∀ v ∈ blocks, v.length ≤ n) (hapart : Apart ahead blocks) :
    Spaced ahead n blocks.flatten ↔ blocks.IsChain fun v w => Spaced ahead n (v ++ w) := by
  match blocks with
  | [] => exact iff_of_true (fun _ _ _ h => nomatch h) .nil
  | [v] =>
    have hv := hlen v (List.mem_singleton_self v)
    apply iff_of_true _ (.singleton v)
    intro i t u _ hu
    rw [List.flatten_singleton] at hu
    have hlt := (List.getElem?_eq_some_iff.mp hu).1
    omega
  | v :: w :: rest =>
    rw [List.isChain_cons_cons, ← spaced_flatten_iff (fun x hx => hlen x (List.mem_cons_of_mem v hx)) hapart.2]
    constructor
    · intro h
      refine ⟨h.of_infix ⟨[], rest.flatten, ?_⟩, h.of_infix ⟨v, [], ?_⟩⟩
      · simp
      · simp
    · rintro ⟨hpair, hrest⟩ i t u ht hu
      rw [List.flatten_cons] at ht hu
      by_cases hi : i < v.length
      · rw [List.getElem?_append_left hi] at ht
        by_cases hj : i + n < (v ++ w).length
        · rw [List.flatten_cons, ← List.append_assoc, List.getElem?_append_left hj] at hu
          apply hpair i t u _ hu
          rwa [List.getElem?_append_left hi]
        · rw [List.flatten_cons, ← List.append_assoc, List.getElem?_append_right (by omega)] at hu
          exact hapart.1 t (List.mem_of_getElem? ht) u (List.mem_of_getElem? hu)
      · rw [List.getElem?_append_right (by omega)] at ht hu
        apply hrest (i - v.length) t u ht
        have hshift : i + n - v.length = i - v.length + n := by omega
        rwa [hshift] at hu

end Window
