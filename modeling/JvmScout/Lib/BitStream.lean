import Mathlib.Data.List.Basic
import Mathlib.Algebra.Ring.Nat

namespace BitStream

def bits : ℕ → ℕ → List Bool
  | 0, _ => []
  | w + 1, n => n.testBit w :: bits w n

def ofBits : List Bool → ℕ
  | [] => 0
  | b :: l => b.toNat * 2 ^ l.length + ofBits l

@[simp] theorem length_bits (w n : ℕ) : (bits w n).length = w := by
  induction w with
  | zero => rfl
  | succ w ih => rw [bits, List.length_cons, ih]

theorem ofBits_lt (l : List Bool) : ofBits l < 2 ^ l.length := by
  induction l with
  | nil => exact Nat.one_pos
  | cons b l ih =>
    rw [ofBits, List.length_cons, Nat.pow_succ]
    cases b
    · simp only [Bool.toNat_false]
      omega
    · simp only [Bool.toNat_true]
      omega

theorem testBit_top {w n : ℕ} (h : n < 2 ^ (w + 1)) : n.testBit w = decide (2 ^ w ≤ n) := by
  rw [Nat.pow_succ] at h
  by_cases hle : 2 ^ w ≤ n
  · rw [decide_eq_true hle]
    have hsum : n = 2 ^ w + (n - 2 ^ w) := by omega
    rw [hsum, Nat.testBit_two_pow_add_eq, Nat.testBit_lt_two_pow]
    · rfl
    · omega
  · rw [decide_eq_false hle]
    apply Nat.testBit_lt_two_pow
    omega

theorem bits_mod (w k n : ℕ) (h : w ≤ k) : bits w (n % 2 ^ k) = bits w n := by
  induction w with
  | zero => rfl
  | succ w ih =>
    rw [bits, bits, ih (by omega), Nat.testBit_mod_two_pow, decide_eq_true (by omega : w < k), Bool.true_and]

theorem ofBits_bits (w n : ℕ) : ofBits (bits w n) = n % 2 ^ w := by
  induction w generalizing n with
  | zero => exact (Nat.mod_one n).symm
  | succ w ih =>
    have hlow : n % 2 ^ (w + 1) % 2 ^ w = n % 2 ^ w := Nat.mod_mod_of_dvd n (Nat.pow_dvd_pow 2 (by omega))
    have hlt : n % 2 ^ (w + 1) < 2 ^ (w + 1) := Nat.mod_lt n (Nat.two_pow_pos _)
    have hbit : n.testBit w = decide (2 ^ w ≤ n % 2 ^ (w + 1)) := by
      rw [← testBit_top hlt, Nat.testBit_mod_two_pow, decide_eq_true (by omega : w < w + 1), Bool.true_and]
    rw [bits, ofBits, ih, length_bits, hbit]
    rw [Nat.pow_succ] at hlt hlow ⊢
    by_cases hle : 2 ^ w ≤ n % (2 ^ w * 2)
    · have hsub : n % (2 ^ w * 2) % 2 ^ w = n % (2 ^ w * 2) - 2 ^ w := by
        rw [Nat.mod_eq_sub_mod hle, Nat.mod_eq_of_lt (by omega)]
      rw [decide_eq_true hle, Bool.toNat_true]
      omega
    · rw [Nat.mod_eq_of_lt (by omega)] at hlow
      rw [decide_eq_false hle, Bool.toNat_false]
      omega

theorem bits_ofBits (l : List Bool) : bits l.length (ofBits l) = l := by
  induction l with
  | nil => rfl
  | cons b l ih =>
    have hlt := ofBits_lt l
    have hmod : ofBits (b :: l) % 2 ^ l.length = ofBits l := by
      rw [ofBits, Nat.mul_comm, Nat.mul_add_mod, Nat.mod_eq_of_lt hlt]
    rw [List.length_cons, bits]
    congr 1
    · rw [testBit_top (ofBits_lt (b :: l)), ofBits]
      cases b
      · simp only [Bool.toNat_false]
        exact decide_eq_false (by omega)
      · simp only [Bool.toNat_true]
        exact decide_eq_true (by omega)
    · rw [← bits_mod l.length l.length _ (Nat.le_refl _), hmod, ih]

theorem bits_append (v w n : ℕ) : bits (v + w) n = bits v (n / 2 ^ w) ++ bits w n := by
  induction v with
  | zero => rw [Nat.zero_add, bits, List.nil_append]
  | succ v ih =>
    rw [Nat.add_right_comm, bits, bits, ih, List.cons_append, ← Nat.testBit_div_two_pow]

theorem bits_eq_of_mod {w m n : ℕ} (h : m % 2 ^ w = n % 2 ^ w) : bits w m = bits w n := by
  rw [← bits_mod w w m (Nat.le_refl _), h, bits_mod w w n (Nat.le_refl _)]

theorem bits_mul_add {w n : ℕ} (h : n < 2 ^ w) (v m : ℕ) : bits (v + w) (m * 2 ^ w + n) = bits v m ++ bits w n := by
  rw [bits_append]
  congr 1
  · rw [Nat.add_comm, Nat.add_mul_div_right n m (Nat.two_pow_pos w), Nat.div_eq_of_lt h, Nat.zero_add]
  · apply bits_eq_of_mod
    rw [Nat.add_comm, Nat.add_mul_mod_self_right]

theorem bits_zero (w : ℕ) : bits w 0 = List.replicate w false := by
  induction w with
  | zero => rfl
  | succ w ih => rw [bits, ih, Nat.zero_testBit, List.replicate_succ]

variable {α : Type*}

def chunks (w : ℕ) : ℕ → List α → List (List α)
  | 0, _ => []
  | k + 1, l => l.take w :: chunks w k (l.drop w)

@[simp] theorem length_chunks (w k : ℕ) (l : List α) : (chunks w k l).length = k := by
  induction k generalizing l with
  | zero => rfl
  | succ k ih => rw [chunks, List.length_cons, ih]

theorem chunks_append {w : ℕ} {g : List α} (hg : g.length = w) (k : ℕ) (l : List α) :
    chunks w (k + 1) (g ++ l) = g :: chunks w k l := by
  rw [chunks, List.take_left' hg, List.drop_left' hg]

theorem length_flatten {w : ℕ} {gs : List (List α)} (h : ∀ g ∈ gs, g.length = w) :
    gs.flatten.length = w * gs.length := by
  induction gs with
  | nil => rfl
  | cons g gs ih =>
    rw [List.forall_mem_cons] at h
    rw [List.flatten_cons, List.length_append, h.1, ih h.2, List.length_cons, Nat.mul_succ, Nat.add_comm]

theorem chunks_flatten {w : ℕ} {gs : List (List α)} (h : ∀ g ∈ gs, g.length = w) (rest : List α) :
    chunks w gs.length (gs.flatten ++ rest) = gs := by
  induction gs with
  | nil => rfl
  | cons g gs ih =>
    rw [List.forall_mem_cons] at h
    rw [List.flatten_cons, List.append_assoc, List.length_cons, chunks_append h.1, ih h.2]

theorem length_of_mem_chunks {w k : ℕ} {l : List α} (h : w * k ≤ l.length) :
    ∀ g ∈ chunks w k l, g.length = w := by
  induction k generalizing l with
  | zero => exact fun g hg => absurd hg List.not_mem_nil
  | succ k ih =>
    rw [Nat.mul_succ] at h
    rw [chunks, List.forall_mem_cons]
    constructor
    · rw [List.length_take]
      omega
    · apply ih
      rw [List.length_drop]
      omega

theorem flatten_chunks {w k : ℕ} {l : List α} (h : w * k ≤ l.length) : (chunks w k l).flatten = l.take (w * k) := by
  induction k generalizing l with
  | zero =>
    rw [Nat.mul_zero, List.take_zero]
    rfl
  | succ k ih =>
    rw [Nat.mul_succ] at h
    rw [chunks, List.flatten_cons, ih, Nat.mul_succ, Nat.add_comm, List.take_add]
    rw [List.length_drop]
    omega

end BitStream
