import Mathlib.Data.List.Basic
import Mathlib.Data.List.Induction
import Mathlib.Data.List.Nodup

namespace Recency

variable {κ : Type*} [DecidableEq κ]

def touch (n : ℕ) (k : κ) (l : List κ) : List κ := (k :: l.filter fun x => x ≠ k).take n

def recent (n : ℕ) (h : List κ) : List κ := h.foldl (fun l k => touch n k l) []

def age (h : List κ) (k : κ) : ℕ := h.reverse.idxOf k

variable {n : ℕ} {k : κ} {l : List κ}

theorem touch_of_mem (hlen : l.length ≤ n) (hk : k ∈ l) : touch n k l = k :: l.filter fun x => x ≠ k := by
  have hshort : (l.filter fun x => x ≠ k).length < l.length := by
    apply List.length_filter_lt_length_iff_exists.mpr
    exact ⟨k, hk, by simp⟩
  apply List.take_of_length_le
  rw [List.length_cons]
  omega

theorem filter_ne_of_not_mem (hk : k ∉ l) : (l.filter fun x => x ≠ k) = l := by
  apply List.filter_eq_self.mpr
  intro x hx
  simp only [decide_eq_true_eq]
  rintro rfl
  exact hk hx

theorem touch_of_room (hlen : l.length < n) (hk : k ∉ l) : touch n k l = k :: l := by
  rw [touch, filter_ne_of_not_mem hk]
  exact List.take_of_length_le hlen

theorem touch_of_full (hn : 1 ≤ n) (hlen : l.length = n) (hk : k ∉ l) : touch n k l = k :: l.dropLast := by
  obtain ⟨m, rfl⟩ := Nat.exists_eq_add_of_le' hn
  rw [touch, filter_ne_of_not_mem hk, List.take_succ_cons, List.dropLast_eq_take, hlen, Nat.add_sub_cancel]

theorem mem_touch_of_kept (hlen : l.length ≤ n) (h : k ∈ l ∨ l.length < n) {x : κ} :
    x ∈ touch n k l ↔ x = k ∨ x ∈ l := by
  have hfilter : x ∈ k :: (l.filter fun y => y ≠ k) ↔ x = k ∨ x ∈ l := by
    rw [List.mem_cons, List.mem_filter]
    by_cases hx : x = k <;> simp [hx]
  by_cases hk : k ∈ l
  · rw [touch_of_mem hlen hk]
    exact hfilter
  · rw [touch_of_room (h.resolve_left hk) hk, List.mem_cons]

theorem mem_touch_of_full (hn : 1 ≤ n) (hlen : l.length = n) (hl : l.Nodup) (hk : k ∉ l) :
    ∃ victim, l.getLast? = some victim ∧ ∀ x, x ∈ touch n k l ↔ x = k ∨ (x ∈ l ∧ x ≠ victim) := by
  have hne : l ≠ [] := by
    rintro rfl
    rw [List.length_nil] at hlen
    omega
  refine ⟨l.getLast hne, List.getLast?_eq_some_getLast hne, fun x => ?_⟩
  obtain ⟨front, hfront⟩ := List.getLast?_eq_some_iff.mp (List.getLast?_eq_some_getLast hne)
  have hlast : l.getLast hne ∉ front := by
    intro hmem
    rw [hfront] at hl
    exact (List.nodup_append.mp hl).2.2 _ hmem _ (List.mem_singleton_self _) rfl
  rw [touch_of_full hn hlen hk, List.mem_cons]
  have hmem : x ∈ l ∧ x ≠ l.getLast hne ↔ x ∈ front := by
    constructor
    · rintro ⟨hx, hxne⟩
      rw [hfront, List.mem_append, List.mem_singleton] at hx
      exact hx.resolve_right hxne
    · intro hx
      refine ⟨?_, ?_⟩
      · rw [hfront]
        exact List.mem_append_left _ hx
      · rintro heq
        exact hlast (heq ▸ hx)
  have hdrop : l.dropLast = front := by
    rw [hfront]
    exact List.dropLast_concat
  rw [hmem, hdrop]

theorem length_touch_le (n : ℕ) (k : κ) (l : List κ) : (touch n k l).length ≤ n := List.length_take_le n _

theorem recent_concat (n : ℕ) (h : List κ) (k : κ) : recent n (h ++ [k]) = touch n k (recent n h) := by
  rw [recent, List.foldl_append]
  rfl

theorem length_recent_le (n : ℕ) (h : List κ) : (recent n h).length ≤ n := by
  induction h using List.reverseRecOn with
  | nil => exact Nat.zero_le n
  | append_singleton h k _ =>
    rw [recent_concat]
    exact length_touch_le n k _

theorem mem_of_mem_recent {h : List κ} (hk : k ∈ recent n h) : k ∈ h := by
  induction h using List.reverseRecOn with
  | nil => exact hk
  | append_singleton h j ih =>
    rw [recent_concat] at hk
    rcases List.mem_cons.mp (List.mem_of_mem_take hk) with rfl | hk
    · exact List.mem_append_right h (List.mem_singleton_self k)
    · exact List.mem_append_left [j] (ih (List.mem_of_mem_filter hk))

theorem age_concat_self (h : List κ) (k : κ) : age (h ++ [k]) k = 0 := by
  rw [age, List.reverse_append, List.reverse_singleton, List.singleton_append, List.idxOf_cons_self]

theorem age_concat_ne (h : List κ) {k x : κ} (hx : x ≠ k) : age (h ++ [k]) x = age h x + 1 := by
  rw [age, List.reverse_append, List.reverse_singleton, List.singleton_append, List.idxOf_cons_ne _ hx.symm]
  rfl

theorem recent_sorted (n : ℕ) (h : List κ) : (recent n h).Pairwise fun a b => age h a < age h b := by
  induction h using List.reverseRecOn with
  | nil => exact List.Pairwise.nil
  | append_singleton h k ih =>
    rw [recent_concat]
    have hcons : (k :: (recent n h).filter fun x => x ≠ k).Pairwise fun a b => age (h ++ [k]) a < age (h ++ [k]) b := by
      apply List.pairwise_cons.mpr
      constructor
      · intro x hx
        have hne : x ≠ k := by simpa using (List.mem_filter.mp hx).2
        rw [age_concat_self, age_concat_ne h hne]
        exact Nat.succ_pos _
      · apply (ih.filter _).imp_of_mem
        intro a b ha hb hab
        have hak : a ≠ k := by simpa using (List.mem_filter.mp ha).2
        have hbk : b ≠ k := by simpa using (List.mem_filter.mp hb).2
        rw [age_concat_ne h hak, age_concat_ne h hbk]
        omega
    exact hcons.sublist (List.take_sublist n _)

end Recency
