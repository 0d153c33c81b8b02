import JvmScout.Agent.JsonWriter
import JvmScout.Lib.AssocKeys
import JvmScout.Lib.Base64
import Mathlib.Data.Nat.Bitwise

namespace JvmScout.Agent

def kB64 : Bytes := ascii "ABCDEFGHIJKLMNOPQRSTUVWXYZabcdefghijklmnopqrstuvwxyz0123456789+/".toList

def b64At (n : ℕ) : UInt8 := kB64.getD (n &&& 63) 0

def base64Encode : Bytes → Bytes
  | p0 :: p1 :: p2 :: rest =>
    let n := p0.toNat <<< 16 ||| p1.toNat <<< 8 ||| p2.toNat
    b64At (n >>> 18) :: b64At (n >>> 12) :: b64At (n >>> 6) :: b64At n :: base64Encode rest
  | [p0, p1] =>
    let n := p0.toNat <<< 16 ||| p1.toNat <<< 8
    [b64At (n >>> 18), b64At (n >>> 12), b64At (n >>> 6), '='.toUInt8]
  | [p0] =>
    let n := p0.toNat <<< 16
    [b64At (n >>> 18), b64At (n >>> 12), '='.toUInt8, '='.toUInt8]
  | [] => []

theorem b64At_eq (n : ℕ) : b64At n = Base64.standard.symbol (n % 64) := by
  have htable : kB64 = (List.range 64).map Base64.standardSymbol := by decide
  have hmod : n &&& 63 = n % 64 := Nat.and_two_pow_sub_one_eq_mod n 6
  have hlt : n % 64 < 64 := Nat.mod_lt n (by omega)
  rw [b64At, hmod, htable, List.getD_eq_getElem?_getD, List.getElem?_map, List.getElem?_range hlt]
  rfl

theorem or_shifts (p0 p1 p2 : UInt8) :
    p0.toNat <<< 16 ||| p1.toNat <<< 8 ||| p2.toNat = Base64.quantum p0.toNat p1.toNat p2.toNat := by
  have h1 := p1.toNat_lt
  have h2 := p2.toNat_lt
  have hlow : p1.toNat <<< 8 ||| p2.toNat = p1.toNat * 2 ^ 8 + p2.toNat := by
    rw [← Nat.shiftLeft_add_eq_or_of_lt h2, Nat.shiftLeft_eq]
  have hlt : p1.toNat * 2 ^ 8 + p2.toNat < 2 ^ 16 := by omega
  rw [Nat.or_assoc, hlow, ← Nat.shiftLeft_add_eq_or_of_lt hlt, Nat.shiftLeft_eq, Base64.quantum]
  omega

theorem or_shifts_two (p0 p1 : UInt8) :
    p0.toNat <<< 16 ||| p1.toNat <<< 8 = Base64.quantum p0.toNat p1.toNat 0 := by
  have hor := or_shifts p0 p1 0
  rwa [UInt8.toNat_zero, Nat.or_zero] at hor

theorem shift_one (p0 : UInt8) : p0.toNat <<< 16 = Base64.quantum p0.toNat 0 0 := by
  rw [Nat.shiftLeft_eq, Base64.quantum]
  omega

theorem base64Encode_eq (x : Bytes) : base64Encode x = Base64.encode Base64.standard x := by
  induction x using base64Encode.induct with
  | case1 p0 p1 p2 rest ih =>
    rw [base64Encode, Base64.encode_cons, ← or_shifts, ih]
    simp only [b64At_eq, Nat.shiftRight_eq_div_pow]
  | case2 p0 p1 =>
    rw [base64Encode, Base64.encode_two, ← or_shifts_two]
    simp only [b64At_eq, Nat.shiftRight_eq_div_pow]
    rfl
  | case3 p0 =>
    rw [base64Encode, Base64.encode_one, ← shift_one]
    simp only [b64At_eq, Nat.shiftRight_eq_div_pow]
    rfl
  | case4 => rfl

theorem base64_hop (x : Bytes) :
    base64Encode x = Base64.encode Base64.standard x ∧
      (base64Encode x).length = 4 * ((x.length + 2) / 3) ∧
      Base64.decode Base64.standard (base64Encode x) = some x ∧
      ∀ text, Base64.decode Base64.standard text = some x → text = base64Encode x := by
  rw [base64Encode_eq]
  refine ⟨rfl, Base64.length_encode _ x, Base64.decode_encode _ x, ?_⟩
  intro text h
  exact Base64.encode_of_decode _ h

def kMaxBytes : ℕ := 32 * 1024 * 1024

def kMaxClasses : ℕ := 8192

def maxStringSize : ℕ := 2 ^ 63 - 1

structure SourceCache where
  bytes : List (Bytes × Bytes)
  shipped : List (Bytes × Bool)
  totalBytes : ℕ

namespace SourceCache

def empty : SourceCache := ⟨[], [], 0⟩

/-- The sum of `total_bytes_` and the length is one of `size_t`. -/
def store (nameSlash : Bytes) (data : Option Bytes) (s : SourceCache) : SourceCache :=
  match data with
  | none => s
  | some d =>
    if d.length = 0 then s
    else if (Assoc.get? s.bytes nameSlash).isSome then s
    else if kMaxClasses ≤ s.bytes.length then s
    else if kMaxBytes < (s.totalBytes + d.length) % 2 ^ 64 then s
    else if maxStringSize < d.length then s
    else
      { s with
        bytes := s.bytes ++ [(nameSlash, d)]
        totalBytes := s.totalBytes + d.length }

def takeUnshipped (nameSlash : Bytes) (s : SourceCache) : Bytes × SourceCache :=
  match Assoc.get? s.bytes nameSlash with
  | none => ([], s)
  | some d =>
    if (Assoc.get? s.shipped nameSlash).getD false then ([], s)
    else (base64Encode d, { s with shipped := Assoc.set s.shipped nameSlash true })

end SourceCache

inductive CacheCall where
  | store (nameSlash : Bytes) (data : Option Bytes)
  | takeUnshipped (nameSlash : Bytes)

structure CacheRun where
  cache : SourceCache
  stored : List (Bytes × Bytes)
  taken : List (Bytes × Bytes)

namespace CacheRun

def start : CacheRun := ⟨.empty, [], []⟩

def caches (nameSlash : Bytes) (s : SourceCache) : Bool := (Assoc.get? s.bytes nameSlash).isSome

def step (r : CacheRun) : CacheCall → CacheRun
  | .store nameSlash data =>
    let cache := r.cache.store nameSlash data
    let succeeded := !caches nameSlash r.cache && caches nameSlash cache
    { r with
      cache
      stored := if succeeded then r.stored ++ [(nameSlash, data.getD [])] else r.stored }
  | .takeUnshipped nameSlash =>
    let (result, cache) := r.cache.takeUnshipped nameSlash
    { r with
      cache
      taken := if result ≠ [] then r.taken ++ [(nameSlash, result)] else r.taken }

def after (calls : List CacheCall) : CacheRun := calls.foldl step start

end CacheRun

namespace SourceCache

theorem store_cases (nameSlash : Bytes) (data : Option Bytes) (s : SourceCache) :
    s.store nameSlash data = s ∨
      ∃ d, data = some d ∧ Assoc.get? s.bytes nameSlash = none ∧ s.bytes.length < kMaxClasses ∧
        (s.totalBytes + d.length) % 2 ^ 64 ≤ kMaxBytes ∧ d.length ≤ maxStringSize ∧
        s.store nameSlash data =
          { s with
            bytes := s.bytes ++ [(nameSlash, d)]
            totalBytes := s.totalBytes + d.length } := by
  cases data with
  | none => exact .inl rfl
  | some d =>
    rw [store]
    split
    · exact .inl rfl
    split
    · exact .inl rfl
    rename_i hnew
    split
    · exact .inl rfl
    split
    · exact .inl rfl
    split
    · exact .inl rfl
    refine .inr ⟨d, rfl, ?_, by omega, by omega, by omega, rfl⟩
    rwa [Bool.not_eq_true, Option.isSome_eq_false_iff, Option.isNone_iff_eq_none] at hnew

theorem takeUnshipped_cases (nameSlash : Bytes) (s : SourceCache) :
    s.takeUnshipped nameSlash = ([], s) ∨
      ∃ d, Assoc.get? s.bytes nameSlash = some d ∧ Assoc.get? s.shipped nameSlash ≠ some true ∧
        s.takeUnshipped nameSlash =
          (base64Encode d, { s with shipped := Assoc.set s.shipped nameSlash true }) := by
  rw [takeUnshipped]
  split
  · exact .inl rfl
  · rename_i d hd
    split
    · exact .inl rfl
    · rename_i hnew
      refine .inr ⟨d, hd, ?_, rfl⟩
      intro htrue
      rw [htrue] at hnew
      exact hnew rfl

end SourceCache

namespace CacheRun

structure Sound (r : CacheRun) : Prop where
  bytes : r.cache.bytes = r.stored
  distinct : (Assoc.keys r.cache.bytes).Nodup
  total : r.cache.totalBytes = (r.cache.bytes.map fun e => e.2.length).sum
  budget : r.cache.totalBytes ≤ kMaxBytes
  classes : r.cache.bytes.length ≤ kMaxClasses
  once : (Assoc.keys r.taken).Nodup
  shipped : ∀ e ∈ r.taken, Assoc.get? r.cache.shipped e.1 = some true
  text : ∀ e ∈ r.taken, ∃ d, Assoc.get? r.stored e.1 = some d ∧ e.2 = base64Encode d

theorem sound_start : start.Sound where
  bytes := rfl
  distinct := List.nodup_nil
  total := rfl
  budget := Nat.zero_le _
  classes := Nat.zero_le _
  once := List.nodup_nil
  shipped _ he := absurd he List.not_mem_nil
  text _ he := absurd he List.not_mem_nil

theorem step_refused {r : CacheRun} {nameSlash : Bytes} {data : Option Bytes}
    (hsame : r.cache.store nameSlash data = r.cache) : r.step (.store nameSlash data) = r := by
  rw [step, hsame]
  simp

theorem step_stored {r : CacheRun} {nameSlash d : Bytes} {cache : SourceCache}
    (hnew : Assoc.get? r.cache.bytes nameSlash = none) (hstore : r.cache.store nameSlash (some d) = cache)
    (hbytes : cache.bytes = Assoc.set r.cache.bytes nameSlash d) :
    r.step (.store nameSlash (some d)) =
      { r with
        cache
        stored := r.stored ++ [(nameSlash, d)] } := by
  have hbefore : caches nameSlash r.cache = false := by rw [caches, hnew, Option.isSome_none]
  have hafter : caches nameSlash cache = true := by rw [caches, hbytes, Assoc.get?_set_self, Option.isSome_some]
  rw [step, hstore]
  simp only [hbefore, hafter]
  rfl

theorem Sound.store {r : CacheRun} (h : r.Sound) (nameSlash : Bytes) (data : Option Bytes) :
    (r.step (.store nameSlash data)).Sound := by
  rcases r.cache.store_cases nameSlash data with hsame | ⟨d, rfl, hnew, hclasses, hsum, hsize, hstore⟩
  · rw [step_refused hsame]
    exact h
  · have hset := Assoc.set_new hnew d
    have hbudget := h.budget
    have htotal := h.total
    have hfits : r.cache.totalBytes + d.length ≤ kMaxBytes := by
      rwa [Nat.mod_eq_of_lt] at hsum
      rw [maxStringSize] at hsize
      rw [kMaxBytes] at hbudget
      omega
    rw [step_stored hnew hstore hset.symm]
    refine ⟨?_, ?_, ?_, hfits, ?_, h.once, h.shipped, ?_⟩
    · exact congrArg (· ++ [(nameSlash, d)]) h.bytes
    · rw [← hset]
      exact Assoc.nodup_set h.distinct nameSlash d
    · simp only [List.map_append, List.sum_append, List.map_cons, List.map_nil, List.sum_cons, List.sum_nil]
      omega
    · simp only [List.length_append, List.length_cons, List.length_nil]
      omega
    · intro e he
      obtain ⟨d', hget, htext⟩ := h.text e he
      refine ⟨d', ?_, htext⟩
      have hne : nameSlash ≠ e.1 := by
        rintro rfl
        rw [h.bytes, hget] at hnew
        cases hnew
      rw [h.bytes] at hset
      rw [← hset, Assoc.get?_set_ne _ _ hne, hget]

theorem Sound.takeUnshipped {r : CacheRun} (h : r.Sound) (nameSlash : Bytes) :
    (r.step (.takeUnshipped nameSlash)).Sound := by
  rcases r.cache.takeUnshipped_cases nameSlash with hnone | ⟨d, hget, hnew, htake⟩
  · rw [step, hnone]
    exact h
  · have hfresh : nameSlash ∉ Assoc.keys r.taken := by
      intro hmem
      obtain ⟨e, he, rfl⟩ := List.mem_map.mp hmem
      exact hnew (h.shipped e he)
    rw [step, htake]
    dsimp only
    refine ⟨h.bytes, h.distinct, h.total, h.budget, h.classes, ?_, ?_, ?_⟩
    · split
      · rw [Assoc.keys, List.map_append, List.nodup_append]
        refine ⟨h.once, List.nodup_singleton _, ?_⟩
        intro name hname name' hname' heq
        rw [List.map_singleton, List.mem_singleton] at hname'
        rw [heq, hname'] at hname
        exact hfresh hname
      · exact h.once
    · intro e he
      rw [Assoc.get?_set]
      by_cases heq : nameSlash = e.1
      · rw [if_pos heq]
      · rw [if_neg heq]
        split at he
        · rcases List.mem_append.mp he with hold | hlast
          · exact h.shipped e hold
          · rw [List.mem_singleton.mp hlast] at heq
            exact absurd rfl heq
        · exact h.shipped e he
    · intro e he
      split at he
      · rcases List.mem_append.mp he with hold | hlast
        · exact h.text e hold
        · rw [List.mem_singleton.mp hlast]
          exact ⟨d, h.bytes ▸ hget, rfl⟩
      · exact h.text e he

theorem after_sound (calls : List CacheCall) : (after calls).Sound := by
  have hrun (r : CacheRun) (h : r.Sound) : (calls.foldl step r).Sound := by
    induction calls generalizing r with
    | nil => exact h
    | cons call calls ih =>
      apply ih
      cases call with
      | store nameSlash data => exact h.store nameSlash data
      | takeUnshipped nameSlash => exact h.takeUnshipped nameSlash
  exact hrun start sound_start

end CacheRun

/-- Over any calls, in any order: the running total is the size of what is cached, the cache keeps
within its budget, and each class is shipped at most once, as the bytes it was first stored with. -/
theorem shipped_once_as_stored (calls : List CacheCall) :
    (Assoc.keys (CacheRun.after calls).cache.bytes).Nodup ∧
      (CacheRun.after calls).cache.totalBytes =
        ((CacheRun.after calls).cache.bytes.map fun e => e.2.length).sum ∧
      (CacheRun.after calls).cache.totalBytes ≤ kMaxBytes ∧
      (CacheRun.after calls).cache.bytes.length ≤ kMaxClasses ∧
      ∀ nameSlash,
        ((CacheRun.after calls).taken.filter fun e => e.1 = nameSlash).length ≤ 1 ∧
          ∀ result, (nameSlash, result) ∈ (CacheRun.after calls).taken →
            ∃ d, Assoc.get? (CacheRun.after calls).stored nameSlash = some d ∧
              Base64.decode Base64.standard result = some d := by
  have h := CacheRun.after_sound calls
  refine ⟨h.distinct, h.total, h.budget, h.classes, fun nameSlash => ⟨?_, ?_⟩⟩
  · cases hfound : (CacheRun.after calls).taken.filter fun e => e.1 = nameSlash with
    | nil => exact Nat.zero_le 1
    | cons e rest =>
      have he : e ∈ (CacheRun.after calls).taken.filter fun e => e.1 = nameSlash := hfound ▸ List.mem_cons_self
      obtain ⟨he, hname⟩ := List.mem_filter.mp he
      rw [← hfound, ← of_decide_eq_true hname, Assoc.filter_key h.once he]
      exact Nat.le_refl 1
  · intro result hresult
    obtain ⟨d, hget, htext⟩ := h.text _ hresult
    refine ⟨d, hget, ?_⟩
    dsimp only at htext
    rw [htext, base64Encode_eq, Base64.decode_encode]

end JvmScout.Agent
