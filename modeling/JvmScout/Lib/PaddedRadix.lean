import Mathlib.Algebra.Ring.Nat

namespace PaddedRadix

def padded (base width n : ℕ) : List Char :=
  List.replicate (width - (Nat.toDigits base n).length) '0' ++ Nat.toDigits base n

theorem digitChar_injective {m n : ℕ} (hm : m < 16) (hn : n < 16) (h : m.digitChar = n.digitChar) : m = n := by
  have hall : ∀ m < 16, ∀ n < 16, m.digitChar = n.digitChar → m = n := by decide
  exact hall m hm n hn h

variable {base : ℕ}

theorem padded_one {n : ℕ} (h : n < base) : padded base 1 n = [n.digitChar] := by
  rw [padded, Nat.toDigits_of_lt_base h]
  rfl

theorem padded_succ (hbase : 1 < base) (width n : ℕ) :
    padded base (width + 2) n = padded base (width + 1) (n / base) ++ [(n % base).digitChar] := by
  by_cases hn : n < base
  · have hquot : n / base = 0 := Nat.div_eq_of_lt hn
    have hrem : n % base = n := Nat.mod_eq_of_lt hn
    rw [hquot, hrem, padded, padded, Nat.toDigits_of_lt_base hn, Nat.toDigits_zero]
    simp [List.replicate_succ']
  · have hlast : Nat.toDigits base n = Nat.toDigits base (n / base) ++ [(n % base).digitChar] :=
      Nat.toDigits_of_base_le hbase (by omega)
    rw [padded, padded, hlast, List.length_append, List.append_assoc]
    congr 2
    simp only [List.length_cons, List.length_nil]
    omega

theorem div_lt_pow {width n : ℕ} (h : n < base ^ (width + 2)) : n / base < base ^ (width + 1) := by
  apply Nat.div_lt_of_lt_mul
  rwa [← Nat.pow_succ']

theorem length_padded (hbase : 1 < base) {width n : ℕ} (h : n < base ^ (width + 1)) :
    (padded base (width + 1) n).length = width + 1 := by
  induction width generalizing n with
  | zero =>
    rw [Nat.zero_add, Nat.pow_one] at h
    rw [padded_one h]
    rfl
  | succ width ih =>
    rw [padded_succ hbase, List.length_append, ih (div_lt_pow h)]
    rfl

theorem mem_padded (hbase : 1 < base) {width n : ℕ} (h : n < base ^ (width + 1)) {c : Char}
    (hc : c ∈ padded base (width + 1) n) : ∃ d < base, c = d.digitChar := by
  induction width generalizing n with
  | zero =>
    rw [Nat.zero_add, Nat.pow_one] at h
    rw [padded_one h] at hc
    exact ⟨n, h, List.mem_singleton.mp hc⟩
  | succ width ih =>
    rw [padded_succ hbase, List.mem_append] at hc
    rcases hc with hc | hc
    · exact ih (div_lt_pow h) hc
    · exact ⟨n % base, Nat.mod_lt n (by omega), List.mem_singleton.mp hc⟩

theorem padded_injective (hbase : 1 < base) (hle : base ≤ 16) {width m n : ℕ} (hm : m < base ^ (width + 1))
    (hn : n < base ^ (width + 1)) (h : padded base (width + 1) m = padded base (width + 1) n) : m = n := by
  induction width generalizing m n with
  | zero =>
    rw [Nat.zero_add, Nat.pow_one] at hm hn
    rw [padded_one hm, padded_one hn] at h
    exact digitChar_injective (by omega) (by omega) (List.head_eq_of_cons_eq h)
  | succ width ih =>
    rw [padded_succ hbase, padded_succ hbase] at h
    obtain ⟨hfront, hlast⟩ := List.append_inj' h rfl
    have hquot : m / base = n / base := ih (div_lt_pow hm) (div_lt_pow hn) hfront
    have hrem : m % base = n % base := by
      apply digitChar_injective
      · exact Nat.lt_of_lt_of_le (Nat.mod_lt m (by omega)) hle
      · exact Nat.lt_of_lt_of_le (Nat.mod_lt n (by omega)) hle
      · exact List.head_eq_of_cons_eq hlast
    rw [← Nat.div_add_mod m base, ← Nat.div_add_mod n base, hquot, hrem]

end PaddedRadix
