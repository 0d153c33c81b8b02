import Mathlib.Data.Nat.ModEq
import Mathlib.Data.Nat.Prime.Basic
import Mathlib.Logic.Function.Basic

namespace Fnv

section Fold

variable {σ α : Type*} {f : σ → α → σ}

theorem foldl_injective (hstate : ∀ a, Function.Injective fun s => f s a) (q : List α) :
    Function.Injective fun s => q.foldl f s := by
  induction q with
  | nil => exact Function.injective_id
  | cons a q ih => exact ih.comp (hstate a)

theorem foldl_ne (hstate : ∀ a, Function.Injective fun s => f s a) (hletter : ∀ s, Function.Injective (f s))
    (s : σ) (p q : List α) {a b : α} (h : a ≠ b) :
    (p ++ [a] ++ q).foldl f s ≠ (p ++ [b] ++ q).foldl f s := by
  intro heq
  simp only [List.foldl_append, List.foldl_cons, List.foldl_nil] at heq
  have hstep : f (p.foldl f s) a = f (p.foldl f s) b := foldl_injective hstate q heq
  exact h (hletter _ hstep)

end Fold

def OneApart {α : Type*} (x y : List α) : Prop :=
  ∃ p q a b, a ≠ b ∧ x = p ++ [a] ++ q ∧ y = p ++ [b] ++ q

theorem OneApart.append_left {α : Type*} {x y : List α} (h : OneApart x y) (front : List α) :
    OneApart (front ++ x) (front ++ y) := by
  obtain ⟨p, q, a, b, hne, rfl, rfl⟩ := h
  exact ⟨front ++ p, q, a, b, hne, by simp only [List.append_assoc], by simp only [List.append_assoc]⟩

variable {w : ℕ}

theorem mul_right_cancel_of_odd {x y k : BitVec w} (hodd : k.toNat % 2 = 1) (h : x * k = y * k) : x = y := by
  have hmod : x.toNat * k.toNat ≡ y.toNat * k.toNat [MOD 2 ^ w] := by
    have htoNat := congrArg BitVec.toNat h
    rwa [BitVec.toNat_mul, BitVec.toNat_mul] at htoNat
  have hcoprime : (2 ^ w).gcd k.toNat = 1 :=
    Nat.Coprime.pow_left w (Nat.coprime_two_left.mpr (Nat.odd_iff.mpr hodd))
  have hcancel := hmod.cancel_right_of_coprime hcoprime
  apply BitVec.eq_of_toNat_eq
  rwa [Nat.ModEq, Nat.mod_eq_of_lt x.isLt, Nat.mod_eq_of_lt y.isLt] at hcancel

theorem setWidth_injective (hw : 8 ≤ w) {a b : UInt8} (h : a.toBitVec.setWidth w = b.toBitVec.setWidth w) : a = b := by
  have htoNat := congrArg BitVec.toNat h
  have hpow : 2 ^ 8 ≤ 2 ^ w := Nat.pow_le_pow_right (by omega) hw
  have ha : a.toNat < 2 ^ w := a.toNat_lt.trans_le hpow
  have hb : b.toNat < 2 ^ w := b.toNat_lt.trans_le hpow
  rw [BitVec.toNat_setWidth, BitVec.toNat_setWidth, UInt8.toNat_toBitVec, UInt8.toNat_toBitVec,
    Nat.mod_eq_of_lt ha, Nat.mod_eq_of_lt hb] at htoNat
  exact UInt8.toNat_inj.mp htoNat

def step (prime : BitVec w) (hash : BitVec w) (c : UInt8) : BitVec w := (hash ^^^ c.toBitVec.setWidth w) * prime

def fnv1a (prime basis : BitVec w) (s : List UInt8) : BitVec w := s.foldl (step prime) basis

theorem step_injective_state {prime : BitVec w} (hodd : prime.toNat % 2 = 1) (c : UInt8) :
    Function.Injective fun hash => step prime hash c := by
  intro x y h
  exact (BitVec.xor_left_inj _).mp (mul_right_cancel_of_odd hodd h)

theorem step_injective_byte {prime : BitVec w} (hodd : prime.toNat % 2 = 1) (hw : 8 ≤ w) (hash : BitVec w) :
    Function.Injective (step prime hash) := by
  intro a b h
  exact setWidth_injective hw ((BitVec.xor_right_inj _).mp (mul_right_cancel_of_odd hodd h))

theorem fnv1a_ne {prime : BitVec w} (hodd : prime.toNat % 2 = 1) (hw : 8 ≤ w) (basis : BitVec w)
    {x y : List UInt8} (h : OneApart x y) : fnv1a prime basis x ≠ fnv1a prime basis y := by
  obtain ⟨p, q, a, b, hne, rfl, rfl⟩ := h
  exact foldl_ne (step_injective_state hodd) (step_injective_byte hodd hw) basis p q hne

end Fnv
