import JvmScout.Lib.PaddedRadix
import JvmScout.Lib.Python
import Mathlib.Data.String.Basic

namespace PaddedDigits

section Order

variable {a b c d : List Char}

theorem append_lt_append (hlength : a.length = b.length) (h : a < b) (c d : List Char) : a ++ c < b ++ d := by
  induction a generalizing b with
  | nil =>
    cases b with
    | nil => exact absurd h (List.lt_irrefl _)
    | cons y b => cases hlength
  | cons x a ih =>
    cases b with
    | nil => cases hlength
    | cons y b =>
      rw [List.cons_append, List.cons_append, List.cons_lt_cons_iff]
      rw [List.cons_lt_cons_iff] at h
      apply h.imp_right
      rintro ⟨rfl, hlt⟩
      exact ⟨rfl, ih (Nat.succ.inj hlength) hlt⟩

end Order

theorem digits_eq (width n : ℕ) : Python.digits width n = String.ofList (PaddedRadix.padded 10 width n) := by
  have htext : toString n = String.ofList (Nat.toDigits 10 n) := Nat.repr_eq_ofList_toDigits
  rw [Python.digits, htext, PaddedRadix.padded, String.length_ofList, String.toList_ofList]

theorem digitChar_lt {m n : ℕ} (h : m < n) (hn : n < 10) : m.digitChar < n.digitChar := by
  have hall : ∀ n < 10, ∀ m < n, m.digitChar < n.digitChar := by decide
  exact hall n hn m h

theorem padded_lt {width m n : ℕ} (h : m < n) (hn : n < 10 ^ (width + 1)) :
    PaddedRadix.padded 10 (width + 1) m < PaddedRadix.padded 10 (width + 1) n := by
  induction width generalizing m n with
  | zero =>
    have hten : n < 10 := by omega
    rw [PaddedRadix.padded_one (h.trans hten), PaddedRadix.padded_one hten, List.cons_lt_cons_iff]
    exact .inl (digitChar_lt h hten)
  | succ width ih =>
    have hbase : 1 < 10 := by omega
    have hquot : n / 10 < 10 ^ (width + 1) := PaddedRadix.div_lt_pow hn
    rw [PaddedRadix.padded_succ hbase, PaddedRadix.padded_succ hbase]
    by_cases hfirst : m / 10 < n / 10
    · apply append_lt_append
      · rw [PaddedRadix.length_padded hbase (hfirst.trans hquot), PaddedRadix.length_padded hbase hquot]
      · exact ih hfirst hquot
    · have hsame : m / 10 = n / 10 := by omega
      rw [hsame]
      apply List.append_left_lt
      rw [List.cons_lt_cons_iff]
      apply Or.inl
      apply digitChar_lt
      · omega
      · omega

theorem length_digits {width n : ℕ} (h : n < 10 ^ (width + 1)) : (Python.digits (width + 1) n).length = width + 1 := by
  rw [digits_eq, String.length_ofList, PaddedRadix.length_padded (by omega) h]

theorem digits_lt {width m n : ℕ} (h : m < n) (hn : n < 10 ^ (width + 1)) :
    Python.digits (width + 1) m < Python.digits (width + 1) n := by
  rw [digits_eq, digits_eq, String.lt_iff_toList_lt, String.toList_ofList, String.toList_ofList]
  exact padded_lt h hn

theorem text_lt_of_field {a b : String} (hlength : a.length = b.length) (h : a < b) (c d : String) :
    a ++ c < b ++ d := by
  rw [String.lt_iff_toList_lt, String.toList_append, String.toList_append]
  apply append_lt_append
  · rw [String.length_toList, String.length_toList, hlength]
  · exact String.lt_iff_toList_lt.mp h

theorem text_lt_of_rest (a : String) {c d : String} (h : c < d) : a ++ c < a ++ d := by
  rw [String.lt_iff_toList_lt, String.toList_append, String.toList_append]
  apply List.append_left_lt
  exact String.lt_iff_toList_lt.mp h

end PaddedDigits
