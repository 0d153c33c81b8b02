import Mathlib.Data.List.Basic
import Mathlib.Tactic.IntervalCases

namespace Sha256

abbrev Word := BitVec 32

def constants : List Word := [
  0x428a2f98, 0x71374491, 0xb5c0fbcf, 0xe9b5dba5, 0x3956c25b, 0x59f111f1, 0x923f82a4, 0xab1c5ed5,
  0xd807aa98, 0x12835b01, 0x243185be, 0x550c7dc3, 0x72be5d74, 0x80deb1fe, 0x9bdc06a7, 0xc19bf174,
  0xe49b69c1, 0xefbe4786, 0x0fc19dc6, 0x240ca1cc, 0x2de92c6f, 0x4a7484aa, 0x5cb0a9dc, 0x76f988da,
  0x983e5152, 0xa831c66d, 0xb00327c8, 0xbf597fc7, 0xc6e00bf3, 0xd5a79147, 0x06ca6351, 0x14292967,
  0x27b70a85, 0x2e1b2138, 0x4d2c6dfc, 0x53380d13, 0x650a7354, 0x766a0abb, 0x81c2c92e, 0x92722c85,
  0xa2bfe8a1, 0xa81a664b, 0xc24b8b70, 0xc76c51a3, 0xd192e819, 0xd6990624, 0xf40e3585, 0x106aa070,
  0x19a4c116, 0x1e376c08, 0x2748774c, 0x34b0bcb5, 0x391c0cb3, 0x4ed8aa4a, 0x5b9cca4f, 0x682e6ff3,
  0x748f82ee, 0x78a5636f, 0x84c87814, 0x8cc70208, 0x90befffa, 0xa4506ceb, 0xbef9a3f7, 0xc67178f2]

structure State where
  a : Word
  b : Word
  c : Word
  d : Word
  e : Word
  f : Word
  g : Word
  h : Word

def initial : State :=
  ⟨0x6a09e667, 0xbb67ae85, 0x3c6ef372, 0xa54ff53a, 0x510e527f, 0x9b05688c, 0x1f83d9ab, 0x5be0cd19⟩

def smallSigma0 (x : Word) : Word := x.rotateRight 7 ^^^ x.rotateRight 18 ^^^ x >>> 3

def smallSigma1 (x : Word) : Word := x.rotateRight 17 ^^^ x.rotateRight 19 ^^^ x >>> 10

def bigSigma0 (x : Word) : Word := x.rotateRight 2 ^^^ x.rotateRight 13 ^^^ x.rotateRight 22

def bigSigma1 (x : Word) : Word := x.rotateRight 6 ^^^ x.rotateRight 11 ^^^ x.rotateRight 25

def schedule : ℕ → List Word → List Word
  | 0, ws => ws
  | n + 1, ws => schedule n
      ((smallSigma1 (ws.getD 1 0) + ws.getD 6 0 + smallSigma0 (ws.getD 14 0) + ws.getD 15 0) :: ws)

def round (s : State) (kw : Word × Word) : State :=
  let t1 := s.h + bigSigma1 s.e + ((s.e &&& s.f) ^^^ (~~~s.e &&& s.g)) + kw.1 + kw.2
  let t2 := bigSigma0 s.a + ((s.a &&& s.b) ^^^ (s.a &&& s.c) ^^^ (s.b &&& s.c))
  ⟨t1 + t2, s.a, s.b, s.c, s.d + t1, s.e, s.f, s.g⟩

def wordOf (bytes : List ℕ) : Word := BitVec.ofNat 32 (bytes.foldl (fun n b => n * 256 + b) 0)

def chunks {α : Type} (size : ℕ) : ℕ → List α → List (List α)
  | 0, _ => []
  | fuel + 1, xs => if xs.isEmpty then [] else xs.take size :: chunks size fuel (xs.drop size)

def compress (s : State) (block : List ℕ) : State :=
  let words := (schedule 48 ((chunks 4 16 block).map wordOf).reverse).reverse
  let t := (constants.zip words).foldl round s
  ⟨s.a + t.a, s.b + t.b, s.c + t.c, s.d + t.d, s.e + t.e, s.f + t.f, s.g + t.g, s.h + t.h⟩

def bigEndian : ℕ → ℕ → List ℕ
  | 0, _ => []
  | n + 1, x => bigEndian n (x / 256) ++ [x % 256]

def pad (message : List ℕ) : List ℕ :=
  message ++ [128] ++ List.replicate ((119 - message.length % 64) % 64) 0 ++
    bigEndian 8 (8 * message.length)

def digest (message : List ℕ) : State :=
  (chunks 64 (message.length / 64 + 2) (pad message)).foldl compress initial

def hexDigit (n : ℕ) : Char := "0123456789abcdef".toList.getD (n % 16) '0'

def hexWord (w : Word) : List Char :=
  [28, 24, 20, 16, 12, 8, 4, 0].map fun shift => hexDigit (w.toNat / 2 ^ shift)

def hexDigest (message : List ℕ) : String :=
  let s := digest message
  String.ofList ([s.a, s.b, s.c, s.d, s.e, s.f, s.g, s.h].flatMap hexWord)

theorem hexDigit_mem (n : ℕ) : hexDigit n ∈ "0123456789abcdef".toList := by
  have hn : n % 16 < 16 := Nat.mod_lt _ (by decide)
  unfold hexDigit
  generalize n % 16 = m at hn
  interval_cases m <;> decide

theorem hexDigest_toList (message : List ℕ) :
    ∀ c ∈ (hexDigest message).toList, c ∈ "0123456789abcdef".toList := by
  intro c hc
  simp only [hexDigest, String.toList_ofList, List.mem_flatMap, hexWord, List.mem_map] at hc
  obtain ⟨w, -, n, -, rfl⟩ := hc
  exact hexDigit_mem _

example : hexDigest [97, 98, 99] =
    "ba7816bf8f01cfea414140de5dae2223b00361a396177a9cb410ff61f20015ad" := by decide +kernel

end Sha256
