import JvmScout.Agent.JsonWriter
import JvmScout.Lib.Fnv
import JvmScout.Lib.PaddedRadix

namespace JvmScout.Agent

open Fnv

theorem ascii_injective {x y : List Char} (hx : ∀ c ∈ x, c.toNat < 256) (hy : ∀ c ∈ y, c.toNat < 256)
    (h : ascii x = ascii y) : x = y := by
  induction x generalizing y with
  | nil => exact (List.map_eq_nil_iff.mp h.symm).symm
  | cons c x ih =>
    cases y with
    | nil => exact absurd h (List.cons_ne_nil _ _)
    | cons d y =>
      rw [List.forall_mem_cons] at hx hy
      obtain ⟨hhead, htail⟩ := List.cons_eq_cons.mp h
      have htoNat := congrArg UInt8.toNat hhead
      rw [UInt8.toNat_ofNat_of_lt' hx.1, UInt8.toNat_ofNat_of_lt' hy.1] at htoNat
      rw [Char.toNat_inj.mp htoNat, ih hx.2 hy.2 htail]

def fnv1a64 (s : Bytes) : UInt64 :=
  s.foldl (fun hash c => (hash ^^^ c.toUInt64) * 1099511628211) 14695981039346656037

def hex016 (h : UInt64) : Bytes := ascii (PaddedRadix.padded 16 16 h.toNat)

def decimal (n : ℤ) : Bytes := ascii (toString n).toList

def material (exceptionSig throwClass method : Bytes) (line : ℤ) : Bytes :=
  exceptionSig ++ ascii ['|'] ++ throwClass ++ ascii ['|'] ++ method ++ ascii ['|'] ++ decimal line

def computeFingerprint (exceptionSig throwClass method : Bytes) (line : ℤ) : Bytes :=
  hex016 (fnv1a64 (material exceptionSig throwClass method line))

theorem fnv1a64_eq (s : Bytes) : (fnv1a64 s).toBitVec = fnv1a 1099511628211#64 14695981039346656037#64 s := by
  have hfold (hash : UInt64) : (s.foldl (fun hash c => (hash ^^^ c.toUInt64) * 1099511628211) hash).toBitVec =
      s.foldl (step 1099511628211#64) hash.toBitVec := by
    induction s generalizing hash with
    | nil => rfl
    | cons c s ih =>
      rw [List.foldl_cons, List.foldl_cons, ih]
      rfl
  exact hfold _

theorem fnv1a64_ne {x y : Bytes} (h : OneApart x y) : fnv1a64 x ≠ fnv1a64 y := by
  intro heq
  have hbits := congrArg UInt64.toBitVec heq
  rw [fnv1a64_eq, fnv1a64_eq] at hbits
  exact fnv1a_ne (by decide) (by omega) _ h hbits

theorem toNat_lt_pow (h : UInt64) : h.toNat < 16 ^ (15 + 1) := h.toNat_lt

theorem hexDigit_lt (h : UInt64) : ∀ c ∈ PaddedRadix.padded 16 16 h.toNat, c.toNat < 256 := by
  intro c hc
  obtain ⟨d, hd, rfl⟩ := PaddedRadix.mem_padded (by omega) (toNat_lt_pow h) hc
  have hall : ∀ d < 16, d.digitChar.toNat < 256 := by decide
  exact hall d hd

theorem hex016_injective : Function.Injective hex016 := by
  intro g h heq
  have hpadded := ascii_injective (hexDigit_lt g) (hexDigit_lt h) heq
  apply UInt64.toNat_inj.mp
  exact PaddedRadix.padded_injective (by omega) (by omega) (toNat_lt_pow g) (toNat_lt_pow h) hpadded

theorem length_hex016 (h : UInt64) : (hex016 h).length = 16 := by
  rw [hex016, ascii, List.length_map]
  exact PaddedRadix.length_padded (by omega) (toNat_lt_pow h)

theorem hex016_digits (h : UInt64) : ∀ b ∈ hex016 h, b ∈ ascii "0123456789abcdef".toList := by
  intro b hb
  obtain ⟨c, hc, rfl⟩ := List.mem_map.mp hb
  obtain ⟨d, hd, rfl⟩ := PaddedRadix.mem_padded (by omega) (toNat_lt_pow h) hc
  have hall : ∀ d < 16, UInt8.ofNat d.digitChar.toNat ∈ ascii "0123456789abcdef".toList := by decide
  exact hall d hd

theorem material_line {line line' : ℤ} (exceptionSig throwClass method : Bytes)
    (h : OneApart (decimal line) (decimal line')) :
    OneApart (material exceptionSig throwClass method line) (material exceptionSig throwClass method line') :=
  h.append_left _

structure ThrowSite where
  exceptionSig : Bytes
  throwClass : Bytes
  method : Bytes
  line : ℤ

namespace ThrowSite

def material (x : ThrowSite) : Bytes := Agent.material x.exceptionSig x.throwClass x.method x.line

def fingerprint (x : ThrowSite) : Bytes := computeFingerprint x.exceptionSig x.throwClass x.method x.line

end ThrowSite

/-- One byte of the hashed text decides the hash, and so the digits it is written in. -/
theorem neighbouring_sites_apart :
    (∀ (p q : Bytes) (a b : UInt8), a ≠ b → fnv1a64 (p ++ [a] ++ q) ≠ fnv1a64 (p ++ [b] ++ q)) ∧
      (∀ x y : ThrowSite, OneApart x.material y.material →
        x.fingerprint.length = 16 ∧ y.fingerprint.length = 16 ∧ x.fingerprint ≠ y.fingerprint) ∧
      ∀ (exceptionSig throwClass method : Bytes) (line line' : ℤ), OneApart (decimal line) (decimal line') →
        computeFingerprint exceptionSig throwClass method line ≠
          computeFingerprint exceptionSig throwClass method line' := by
  have happart {x y : Bytes} (h : OneApart x y) : hex016 (fnv1a64 x) ≠ hex016 (fnv1a64 y) := by
    intro heq
    exact fnv1a64_ne h (hex016_injective heq)
  refine ⟨?_, ?_, ?_⟩
  · intro p q a b hne
    exact fnv1a64_ne ⟨p, q, a, b, hne, rfl, rfl⟩
  · intro x y h
    exact ⟨length_hex016 _, length_hex016 _, happart h⟩
  · intro exceptionSig throwClass method line line' h
    exact happart (material_line exceptionSig throwClass method h)

theorem neighbouring_sites_apart_lines :
    fnv1a64 [0x61] ≠ fnv1a64 [0x62] ∧
      computeFingerprint [0x45] [0x43] [0x6D] 10 ≠ computeFingerprint [0x45] [0x43] [0x6D] 11 := by
  obtain ⟨hbytes, hsites, -⟩ := neighbouring_sites_apart
  constructor
  · exact hbytes [] [] 0x61 0x62 (by decide)
  · have happart := hsites ⟨[0x45], [0x43], [0x6D], 10⟩ ⟨[0x45], [0x43], [0x6D], 11⟩
      ⟨[0x45, 0x7C, 0x43, 0x7C, 0x6D, 0x7C, 0x31], [], 0x30, 0x31, by decide, by decide, by decide⟩
    exact happart.2.2

end JvmScout.Agent
