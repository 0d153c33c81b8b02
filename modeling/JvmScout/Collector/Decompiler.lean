import JvmScout.Lib.AssocKeys
import JvmScout.Lib.Base64
import JvmScout.Lib.Python
import JvmScout.Lib.Runs
import JvmScout.Lib.Sha256
import Mathlib.Data.List.Dedup

/-!
The decompiler of stored classes (`decompiler.py`): the decoding of their bytes, and the results
it keeps, which requests reach from several threads. A thread may be interrupted before each use
of the cache.
-/

namespace JvmScout.Decompiler

open Runs

def digit (quadPos leftchar n : ℕ) : List UInt8 × ℕ × ℕ :=
  match quadPos with
  | 0 => ([], 1, n)
  | 1 => ([UInt8.ofNat (leftchar * 4 + n / 16)], 2, n % 16)
  | 2 => ([UInt8.ofNat (leftchar * 16 + n / 4)], 3, n % 4)
  | _ => ([UInt8.ofNat (leftchar * 64 + n)], 0, 0)

def a2bBase64 : List UInt8 → ℕ → ℕ → ℕ → Option (List UInt8)
  | [], quadPos, _, _ => if quadPos = 0 then some [] else none
  | c :: text, quadPos, leftchar, pads =>
    if c = Base64.standard.pad then
      if 2 ≤ quadPos then
        if 4 ≤ quadPos + (pads + 1) then some [] else a2bBase64 text quadPos leftchar (pads + 1)
      else a2bBase64 text quadPos leftchar pads
    else
      match Base64.standard.index c with
      | none => a2bBase64 text quadPos leftchar pads
      | some n =>
        let (out, quadPos, leftchar) := digit quadPos leftchar n
        (a2bBase64 text quadPos leftchar 0).map (out ++ ·)

def b64decode (s : String) : Option (List UInt8) :=
  if s.toList.all fun c => decide (c.toNat < 128) then
    a2bBase64 (s.toList.map fun c => UInt8.ofNat c.toNat) 0 0 0
  else none

theorem a2bBase64_pad (text : List UInt8) (leftchar : ℕ) :
    a2bBase64 (Base64.standard.pad :: text) 3 leftchar 0 = some [] := by
  rw [a2bBase64, if_pos rfl, if_pos (by omega), if_pos (by omega)]

theorem a2bBase64_pads (text : List UInt8) (leftchar : ℕ) :
    a2bBase64 (Base64.standard.pad :: Base64.standard.pad :: text) 2 leftchar 0 = some [] := by
  rw [a2bBase64, if_pos rfl, if_pos (by omega), if_neg (by omega), a2bBase64, if_pos rfl, if_pos (by omega),
    if_pos (by omega)]

theorem a2bBase64_symbol {n : ℕ} (h : n < 64) (text : List UInt8) (quadPos leftchar pads : ℕ) :
    a2bBase64 (Base64.standard.symbol n :: text) quadPos leftchar pads =
      (a2bBase64 text (digit quadPos leftchar n).2.1 (digit quadPos leftchar n).2.2 0).map
        ((digit quadPos leftchar n).1 ++ ·) := by
  rw [a2bBase64, if_neg (Base64.symbol_ne_pad _ h), Base64.standard.index_symbol n h]

section Places

variable (leftchar n : ℕ)

theorem digit_first : digit 0 leftchar n = ([], 1, n) := rfl

theorem digit_second : digit 1 leftchar n = ([UInt8.ofNat (leftchar * 4 + n / 16)], 2, n % 16) := rfl

theorem digit_third : digit 2 leftchar n = ([UInt8.ofNat (leftchar * 16 + n / 4)], 3, n % 4) := rfl

theorem digit_fourth : digit 3 leftchar n = ([UInt8.ofNat (leftchar * 64 + n)], 0, 0) := rfl

end Places

theorem byte_eq {b : UInt8} {m : ℕ} (h : m = b.toNat) : UInt8.ofNat m = b := by
  rw [h, UInt8.ofNat_toNat]

theorem a2bBase64_encode : ∀ x : List UInt8, a2bBase64 (Base64.encode Base64.standard x) 0 0 0 = some x
  | [] => rfl
  | [b0] => by
    have h0 := b0.toNat_lt
    have hlt (m : ℕ) : m % 64 < 64 := Nat.mod_lt m (by omega)
    have hfirst : UInt8.ofNat (Base64.quantum b0.toNat 0 0 / 2 ^ 18 % 64 * 4 +
        Base64.quantum b0.toNat 0 0 / 2 ^ 12 % 64 / 16) = b0 := by
      apply byte_eq
      rw [Base64.quantum]
      omega
    rw [Base64.encode_one, a2bBase64_symbol (hlt _), digit_first, a2bBase64_symbol (hlt _), digit_second,
      a2bBase64_pads, hfirst]
    rfl
  | [b0, b1] => by
    have h0 := b0.toNat_lt
    have h1 := b1.toNat_lt
    have hlt (m : ℕ) : m % 64 < 64 := Nat.mod_lt m (by omega)
    have hfirst : UInt8.ofNat (Base64.quantum b0.toNat b1.toNat 0 / 2 ^ 18 % 64 * 4 +
        Base64.quantum b0.toNat b1.toNat 0 / 2 ^ 12 % 64 / 16) = b0 := by
      apply byte_eq
      rw [Base64.quantum]
      omega
    have hsecond : UInt8.ofNat (Base64.quantum b0.toNat b1.toNat 0 / 2 ^ 12 % 64 % 16 * 16 +
        Base64.quantum b0.toNat b1.toNat 0 / 2 ^ 6 % 64 / 4) = b1 := by
      apply byte_eq
      rw [Base64.quantum]
      omega
    rw [Base64.encode_two, a2bBase64_symbol (hlt _), digit_first, a2bBase64_symbol (hlt _), digit_second,
      a2bBase64_symbol (hlt _), digit_third, a2bBase64_pad, hfirst, hsecond]
    rfl
  | b0 :: b1 :: b2 :: rest => by
    have h0 := b0.toNat_lt
    have h1 := b1.toNat_lt
    have h2 := b2.toNat_lt
    have hlt (m : ℕ) : m % 64 < 64 := Nat.mod_lt m (by omega)
    have hfirst : UInt8.ofNat (Base64.quantum b0.toNat b1.toNat b2.toNat / 2 ^ 18 % 64 * 4 +
        Base64.quantum b0.toNat b1.toNat b2.toNat / 2 ^ 12 % 64 / 16) = b0 := by
      apply byte_eq
      rw [Base64.quantum]
      omega
    have hsecond : UInt8.ofNat (Base64.quantum b0.toNat b1.toNat b2.toNat / 2 ^ 12 % 64 % 16 * 16 +
        Base64.quantum b0.toNat b1.toNat b2.toNat / 2 ^ 6 % 64 / 4) = b1 := by
      apply byte_eq
      rw [Base64.quantum]
      omega
    have hthird : UInt8.ofNat (Base64.quantum b0.toNat b1.toNat b2.toNat / 2 ^ 6 % 64 % 4 * 64 +
        Base64.quantum b0.toNat b1.toNat b2.toNat % 64) = b2 := by
      apply byte_eq
      rw [Base64.quantum]
      omega
    rw [Base64.encode_cons, a2bBase64_symbol (hlt _), digit_first, a2bBase64_symbol (hlt _), digit_second,
      a2bBase64_symbol (hlt _), digit_third, a2bBase64_symbol (hlt _), digit_fourth, a2bBase64_encode rest, hfirst,
      hsecond, hthird]
    rfl

/-! ### The cache, and the threads in it -/

def maxCache : ℕ := 256

def sha256 (raw : List UInt8) : String := Sha256.hexDigest (raw.map UInt8.toNat)

def rawBytes (available : Bool) (bytecodeB64 : String) : Option (List UInt8) :=
  if bytecodeB64 = "" ∨ available = false then none else b64decode bytecodeB64

/-- What comes of the process in `_run_cfr`: what it printed, nothing when it could not be started
or took too long, or an error outside the `try` (a class file that cannot be opened or written)
or one it does not name (an output that is not UTF-8). -/
inductive Process where
  | ended (stdout : String)
  | failed
  | raised

def runCfr : Process → Except Unit (Option String)
  | .ended stdout => .ok (if Python.strip stdout = "" then none else some stdout)
  | .failed => .ok none
  | .raised => .error ()

/-- The next use of the cache that a thread makes, or how its call ended: `raised` with the
`KeyError` of the cache, `failed` with what `_run_cfr` raised. -/
inductive Stage where
  | looking
  | hit
  | fetching
  | running
  | storing (src : Option String)
  | touching (src : Option String)
  | trimming (src : Option String)
  | popping (src : Option String)
  | returned (src : Option String)
  | raised
  | failed

structure Call where
  raw : List UInt8
  stage : Stage

def Call.sha (c : Call) : String := sha256 c.raw

structure State where
  cache : List (String × Option String)
  calls : List Call
  ran : List (List UInt8 × Option String)
  evicted : List String

def start : State := ⟨[], [], [], []⟩

def moveToEnd (sha : String) (cache : List (String × Option String)) : Option (List (String × Option String)) :=
  (Assoc.get? cache sha).map fun src => Assoc.remove cache sha ++ [(sha, src)]

def Call.advance (process : Process) (c : Call) (s : State) : Option (Stage × State) :=
  match c.stage with
  | .looking => some (if (Assoc.get? s.cache c.sha).isSome then .hit else .running, s)
  | .hit =>
    match moveToEnd c.sha s.cache with
    | none => some (.raised, s)
    | some cache => some (.fetching, { s with cache := cache })
  | .fetching =>
    match Assoc.get? s.cache c.sha with
    | none => some (.raised, s)
    | some src => some (.returned src, s)
  | .running =>
    match runCfr process with
    | .ok src => some (.storing src, { s with ran := s.ran ++ [(c.raw, src)] })
    | .error _ => some (.failed, s)
  | .storing src => some (.touching src, { s with cache := Assoc.set s.cache c.sha src })
  | .touching src =>
    match moveToEnd c.sha s.cache with
    | none => some (.raised, s)
    | some cache => some (.trimming src, { s with cache := cache })
  | .trimming src => some (if maxCache < s.cache.length then .popping src else .returned src, s)
  | .popping src =>
    match s.cache with
    | [] => some (.raised, s)
    | e :: cache => some (.trimming src, { s with cache := cache, evicted := s.evicted ++ [e.1] })
  | .returned _ | .raised | .failed => none

inductive Label where
  | call (available : Bool) (bytecodeB64 : String)
  | advance (i : ℕ) (process : Process)

def step (s : State) : Label → Option State
  | .call available bytecodeB64 =>
    some { s with
      calls := s.calls ++ [match rawBytes available bytecodeB64 with
        | none => ⟨[], .returned none⟩
        | some raw => ⟨raw, .looking⟩] }
  | .advance i process =>
    (s.calls[i]?).bind fun c => (c.advance process s).map fun (stage, t) =>
      { t with calls := t.calls.set i { c with stage := stage } }

/-! ### What holds in every run -/

def Ran (s : State) (sha : String) (src : Option String) : Prop := ∃ e ∈ s.ran, sha256 e.1 = sha ∧ e.2 = src

def Seen (s : State) (sha : String) : Prop := sha ∈ Assoc.keys s.cache ∨ sha ∈ s.evicted

def Stage.inserting : Stage → Bool
  | .touching _ | .trimming _ | .popping _ => true
  | _ => false

def Fits (s : State) (c : Call) : Prop :=
  match c.stage with
  | .looking | .running | .failed => True
  | .hit | .fetching => Seen s c.sha
  | .storing src => Ran s c.sha src
  | .touching src | .trimming src => Ran s c.sha src ∧ Seen s c.sha
  | .popping src => Ran s c.sha src ∧ Seen s c.sha ∧ (s.evicted = [] → maxCache < s.cache.length)
  | .returned src => src = none ∨ Ran s c.sha src
  | .raised => c.sha ∈ s.evicted

def Inserting (s : State) (sha : String) : Prop := ∃ c ∈ s.calls, c.stage.inserting = true ∧ c.sha = sha

def settledKeys (s : State) : List String :=
  (Assoc.keys s.cache).filter fun k => !s.calls.any fun c => c.stage.inserting && decide (c.sha = k)

def classFiles (s : State) : ℕ := (s.ran.map fun e => sha256 e.1).dedup.length

structure Sound (s : State) : Prop where
  distinct : (Assoc.keys s.cache).Nodup
  genuine : ∀ e ∈ s.cache, Ran s e.1 e.2
  calls : ∀ c ∈ s.calls, Fits s c
  settled : (settledKeys s).length ≤ maxCache
  evicted : s.evicted ≠ [] → maxCache < classFiles s

theorem mem_settledKeys {s : State} {k : String} :
    k ∈ settledKeys s ↔ k ∈ Assoc.keys s.cache ∧ ¬ Inserting s k := by
  simp [settledKeys, Inserting]

structure Later (s t : State) : Prop where
  ran : s.ran ⊆ t.ran
  seen : ∀ sha, Seen s sha → Seen t sha
  evicted : s.evicted ⊆ t.evicted
  room : t.evicted = [] → s.cache.length ≤ t.cache.length

section Later

variable {s t : State}

theorem Later.refl (s : State) : Later s s := ⟨fun _ h => h, fun _ h => h, fun _ h => h, fun _ => Nat.le_refl _⟩

theorem Ran.mono (h : Later s t) {sha : String} {src : Option String} (hran : Ran s sha src) : Ran t sha src := by
  obtain ⟨e, he, hsame⟩ := hran
  exact ⟨e, h.ran he, hsame⟩

theorem Later.none_evicted (h : Later s t) (hnone : t.evicted = []) : s.evicted = [] := by
  apply List.eq_nil_of_subset_nil
  rw [← hnone]
  exact h.evicted

theorem Fits.mono (h : Later s t) {c : Call} (hc : Fits s c) : Fits t c := by
  obtain ⟨raw, stage⟩ := c
  cases stage with
  | looking | running | failed => trivial
  | hit | fetching => exact h.seen _ hc
  | storing src => exact Ran.mono h hc
  | touching src | trimming src => exact ⟨hc.1.mono h, h.seen _ hc.2⟩
  | popping src =>
    refine ⟨hc.1.mono h, h.seen _ hc.2.1, fun hnone => ?_⟩
    exact Nat.lt_of_lt_of_le (hc.2.2 (h.none_evicted hnone)) (h.room hnone)
  | returned src => exact hc.imp id (Ran.mono h)
  | raised => exact h.evicted hc

theorem Later.classFiles_le (h : Later s t) : classFiles s ≤ classFiles t := by
  apply (List.subperm_of_subset (List.nodup_dedup _) _).length_le
  intro sha hsha
  rw [List.mem_dedup] at hsha ⊢
  exact List.map_subset _ h.ran hsha

end Later

theorem Sound.length_le (h : Sound s) : s.cache.length ≤ classFiles s := by
  have hkeys : (Assoc.keys s.cache).length = s.cache.length := List.length_map _
  rw [← hkeys]
  apply (List.subperm_of_subset h.distinct _).length_le
  intro sha hsha
  obtain ⟨e, he, rfl⟩ := List.mem_map.mp hsha
  obtain ⟨x, hx, hsha, -⟩ := h.genuine e he
  rw [List.mem_dedup, ← hsha]
  exact List.mem_map_of_mem hx

structure Advances (s : State) (c : Call) (stage : Stage) (t : State) : Prop where
  later : Later s t
  calls : t.calls = s.calls
  distinct : (Assoc.keys t.cache).Nodup
  genuine : ∀ e ∈ t.cache, Ran t e.1 e.2
  fits : Fits t ⟨c.raw, stage⟩
  settled : t.cache.length ≤ maxCache ∨ ∀ k ∈ Assoc.keys t.cache,
    (k ∈ Assoc.keys s.cache ∨ stage.inserting = true ∧ c.sha = k) ∧
      (c.stage.inserting = true → c.sha = k → stage.inserting = true)
  evicted : t.evicted ≠ [] → s.evicted = [] → maxCache < s.cache.length

theorem Inserting.set {s t : State} {i : ℕ} {c : Call} {stage : Stage} {k : String} (hi : s.calls[i]? = some c)
    (hcalls : t.calls = s.calls) (hc : c.stage.inserting = true → c.sha = k → stage.inserting = true)
    (h : Inserting s k) : Inserting { t with calls := t.calls.set i ⟨c.raw, stage⟩ } k := by
  obtain ⟨c', hc', hinserting, hk⟩ := h
  obtain ⟨j, hj, hget⟩ := List.getElem_of_mem hc'
  by_cases hij : i = j
  · subst hij
    rw [List.getElem?_eq_getElem hj, hget] at hi
    cases hi
    refine ⟨⟨c.raw, stage⟩, ?_, hc hinserting hk, hk⟩
    rw [hcalls]
    exact List.mem_set hj _
  · refine ⟨c', ?_, hinserting, hk⟩
    rw [hcalls]
    apply List.mem_of_getElem? (i := j)
    rw [List.getElem?_set_ne hij, List.getElem?_eq_getElem hj, hget]

theorem Sound.advance {s t : State} {i : ℕ} {c : Call} {stage : Stage} (h : Sound s) (hi : s.calls[i]? = some c)
    (hadvance : Advances s c stage t) : Sound { t with calls := t.calls.set i ⟨c.raw, stage⟩ } where
  distinct := hadvance.distinct
  genuine := hadvance.genuine
  calls := by
    intro c' hc'
    rcases List.mem_or_eq_of_mem_set hc' with hold | rfl
    · rw [hadvance.calls] at hold
      exact (h.calls c' hold).mono hadvance.later
    · exact hadvance.fits
  settled := by
    rcases hadvance.settled with hfits | hkeys
    · apply Nat.le_trans (List.length_filter_le _ _)
      rw [Assoc.keys, List.length_map]
      exact hfits
    · apply Nat.le_trans _ h.settled
      apply (List.subperm_of_subset (hadvance.distinct.filter _) _).length_le
      intro k hk
      obtain ⟨hmem, hnot⟩ := mem_settledKeys.mp hk
      obtain ⟨hold, hsame⟩ := hkeys k hmem
      refine mem_settledKeys.mpr ⟨?_, fun hinserting => hnot (hinserting.set hi hadvance.calls hsame)⟩
      rcases hold with hold | ⟨hinserting, rfl⟩
      · exact hold
      · have hlt := (List.getElem?_eq_some_iff.mp hi).1
        refine absurd ⟨⟨c.raw, stage⟩, ?_, hinserting, rfl⟩ hnot
        rw [hadvance.calls]
        exact List.mem_set hlt _
  evicted := by
    intro hevicted
    by_cases hnone : s.evicted = []
    · have hmany := hadvance.evicted hevicted hnone
      exact Nat.lt_of_lt_of_le (Nat.lt_of_lt_of_le hmany h.length_le) hadvance.later.classFiles_le
    · exact Nat.lt_of_lt_of_le (h.evicted hnone) hadvance.later.classFiles_le

/-! ### One stage -/

section Stages

variable {s : State} {c : Call} {sha : String} {src : Option String}

theorem moveToEnd_eq_some {cache cache' : List (String × Option String)} (h : moveToEnd sha cache = some cache') :
    ∃ src, Assoc.get? cache sha = some src ∧ cache' = Assoc.remove cache sha ++ [(sha, src)] := by
  obtain ⟨src, hget, heq⟩ := Option.map_eq_some_iff.mp h
  exact ⟨src, hget, heq.symm⟩

theorem moveToEnd_eq_none {cache : List (String × Option String)} (h : moveToEnd sha cache = none) :
    sha ∉ Assoc.keys cache := Assoc.get?_eq_none.mp (Option.map_eq_none_iff.mp h)

theorem moveToEnd_perm {cache cache' : List (String × Option String)} (hd : (Assoc.keys cache).Nodup)
    (h : moveToEnd sha cache = some cache') : cache'.Perm cache := by
  obtain ⟨src, hget, rfl⟩ := moveToEnd_eq_some h
  have hone : (cache.filter fun e => e.1 = sha) = [(sha, src)] := Assoc.filter_key hd (Assoc.mem_of_get? hget)
  have hsplit := List.filter_append_perm (fun e : String × Option String => decide (e.1 = sha)) cache
  rw [hone] at hsplit
  apply List.perm_append_comm.trans
  have hrest : Assoc.remove cache sha = cache.filter fun e => !decide (e.1 = sha) := by
    unfold Assoc.remove
    simp only [ne_eq, decide_not]
  rwa [hrest]

theorem later_of_perm {cache : List (String × Option String)} (h : cache.Perm s.cache) :
    Later s { s with cache := cache } where
  ran := fun _ he => he
  seen sha hsha := by
    refine hsha.imp (fun hkey => ?_) id
    exact (h.map Prod.fst).mem_iff.mpr hkey
  evicted := fun _ he => he
  room _ := Nat.le_of_eq h.length_eq.symm

theorem Sound.stay (h : Sound s) {stage : Stage} (hfits : Fits s ⟨c.raw, stage⟩)
    (hsettled : s.cache.length ≤ maxCache ∨
      (c.stage.inserting = true → stage.inserting = true ∨ c.sha ∉ Assoc.keys s.cache)) :
    Advances s c stage s where
  later := Later.refl s
  calls := rfl
  distinct := h.distinct
  genuine := h.genuine
  fits := hfits
  settled := by
    refine hsettled.imp id fun hstage k hk => ⟨.inl hk, fun hinserting heq => ?_⟩
    rcases hstage hinserting with hstage | hgone
    · exact hstage
    · rw [heq] at hgone
      exact absurd hk hgone
  evicted hevicted hnone := absurd hnone hevicted

theorem Sound.move (h : Sound s) {stage : Stage} {cache : List (String × Option String)}
    (hmove : moveToEnd sha s.cache = some cache) (hfits : Fits s ⟨c.raw, stage⟩)
    (hstage : c.stage.inserting = stage.inserting) :
    Advances s c stage { s with cache := cache } where
  later := later_of_perm (moveToEnd_perm h.distinct hmove)
  calls := rfl
  distinct := ((moveToEnd_perm h.distinct hmove).map Prod.fst).nodup_iff.mpr h.distinct
  genuine e he := h.genuine e ((moveToEnd_perm h.distinct hmove).mem_iff.mp he)
  fits := Fits.mono (later_of_perm (moveToEnd_perm h.distinct hmove)) hfits
  settled := by
    refine .inr fun k hk => ⟨.inl ?_, fun hinserting _ => hstage ▸ hinserting⟩
    exact ((moveToEnd_perm h.distinct hmove).map Prod.fst).mem_iff.mp hk
  evicted hevicted hnone := absurd hnone hevicted

theorem later_run (s : State) (raw : List UInt8) (src : Option String) :
    Later s { s with ran := s.ran ++ [(raw, src)] } where
  ran := List.subset_append_left _ _
  seen := fun _ h => h
  evicted := fun _ h => h
  room := fun _ => Nat.le_refl _

theorem Sound.run (h : Sound s) (hc : c.stage = .running) (src : Option String) :
    Advances s c (.storing src) { s with ran := s.ran ++ [(c.raw, src)] } where
  later := later_run s c.raw src
  calls := rfl
  distinct := h.distinct
  genuine e he := (h.genuine e he).mono (later_run s c.raw src)
  fits := ⟨(c.raw, src), List.mem_append_right _ List.mem_cons_self, rfl, rfl⟩
  settled := by
    refine .inr fun k hk => ⟨.inl hk, fun hinserting => ?_⟩
    rw [hc] at hinserting
    cases hinserting
  evicted hevicted hnone := absurd hnone hevicted

theorem mem_keys_set {cache : List (String × Option String)} {k : String} :
    k ∈ Assoc.keys (Assoc.set cache sha src) ↔ k ∈ Assoc.keys cache ∨ k = sha := by
  rw [Assoc.keys_set]
  split
  · rename_i hmem
    refine ⟨.inl, fun h => h.elim id ?_⟩
    rintro rfl
    exact hmem
  · rw [List.mem_append, List.mem_singleton]

theorem later_store (s : State) (sha : String) (src : Option String) :
    Later s { s with cache := Assoc.set s.cache sha src } where
  ran := fun _ h => h
  seen _ h := h.imp (fun hkey => mem_keys_set.mpr (.inl hkey)) id
  evicted := fun _ h => h
  room _ := by
    have hlength := congrArg List.length (Assoc.keys_set s.cache sha src)
    rw [Assoc.keys, List.length_map] at hlength
    rw [hlength]
    split
    · rw [Assoc.keys, List.length_map]
    · rw [Assoc.keys, List.length_append, List.length_map]
      exact Nat.le_add_right _ _

theorem Sound.store (h : Sound s) (hc : c.stage = .storing src) (hran : Ran s c.sha src) :
    Advances s c (.touching src) { s with cache := Assoc.set s.cache c.sha src } where
  later := later_store s c.sha src
  calls := rfl
  distinct := Assoc.nodup_set h.distinct _ _
  genuine e he := by
    rcases Assoc.mem_set he with hold | rfl
    · exact (h.genuine e hold).mono (later_store s c.sha src)
    · exact hran
  fits := ⟨hran.mono (later_store s c.sha src), .inl (mem_keys_set.mpr (.inr rfl))⟩
  settled := by
    refine .inr fun k hk => ⟨(mem_keys_set.mp hk).imp id fun heq => ⟨rfl, heq.symm⟩, fun hinserting => ?_⟩
    rw [hc] at hinserting
    cases hinserting
  evicted hevicted hnone := absurd hnone hevicted

theorem later_pop {e : String × Option String} {cache : List (String × Option String)}
    (hcache : s.cache = e :: cache) : Later s { s with cache := cache, evicted := s.evicted ++ [e.1] } where
  ran := fun _ h => h
  seen k h := by
    rw [Seen, hcache, Assoc.keys_cons] at h
    rcases h with hkey | hgone
    · rcases List.mem_cons.mp hkey with rfl | hkey
      · exact .inr (List.mem_append_right _ List.mem_cons_self)
      · exact .inl hkey
    · exact .inr (List.mem_append_left _ hgone)
  evicted := List.subset_append_left _ _
  room hnone := by simp at hnone

theorem Sound.pop (h : Sound s) (hc : c.stage = .popping src) (hfits : Fits s c) {e : String × Option String}
    {cache : List (String × Option String)} (hcache : s.cache = e :: cache) :
    Advances s c (.trimming src) { s with cache := cache, evicted := s.evicted ++ [e.1] } where
  later := later_pop hcache
  calls := rfl
  distinct := by
    have hd := h.distinct
    rw [hcache, Assoc.keys_cons, List.nodup_cons] at hd
    exact hd.2
  genuine x hx := by
    apply Ran.mono (later_pop hcache)
    apply h.genuine
    rw [hcache]
    exact List.mem_cons_of_mem e hx
  fits := by
    rw [Fits, hc] at hfits
    exact ⟨hfits.1.mono (later_pop hcache), (later_pop hcache).seen _ hfits.2.1⟩
  settled := by
    refine .inr fun k hk => ⟨.inl ?_, fun _ _ => rfl⟩
    rw [hcache, Assoc.keys_cons]
    exact List.mem_cons_of_mem e.1 hk
  evicted _ hnone := by
    rw [Fits, hc] at hfits
    exact hfits.2.2 hnone

theorem Sound.look (h : Sound s) (hc : c.stage = .looking) :
    Advances s c (if (Assoc.get? s.cache c.sha).isSome then .hit else .running) s := by
  apply h.stay
  · split
    · rename_i hkey
      obtain ⟨src, hsrc⟩ := Option.isSome_iff_exists.mp hkey
      exact .inl (Assoc.mem_keys_of_get? hsrc)
    · trivial
  · rw [hc]
    exact .inr fun hinserting => absurd hinserting Bool.false_ne_true

theorem Sound.keyError (h : Sound s) (hgone : c.sha ∉ Assoc.keys s.cache) (hseen : Seen s c.sha) :
    Advances s c .raised s :=
  h.stay (hseen.resolve_left hgone) (.inr fun _ => .inr hgone)

variable {process : Process} {next : Stage} {t : State}

theorem Sound.touchHit (h : Sound s) (hfits : Fits s c) (hc : c.stage = .hit)
    (hstep : c.advance process s = some (next, t)) : Advances s c next t := by
  have hseen : Seen s c.sha := by rwa [Fits, hc] at hfits
  simp only [Call.advance, hc] at hstep
  split at hstep
  · rename_i hnone
    cases hstep
    exact h.keyError (moveToEnd_eq_none hnone) hseen
  · rename_i cache hmove
    cases hstep
    have hfetching : Fits s ⟨c.raw, .fetching⟩ := hseen
    apply h.move hmove hfetching
    rw [hc]
    rfl

theorem Sound.fetch (h : Sound s) (hfits : Fits s c) (hc : c.stage = .fetching)
    (hstep : c.advance process s = some (next, t)) : Advances s c next t := by
  have hseen : Seen s c.sha := by rwa [Fits, hc] at hfits
  simp only [Call.advance, hc] at hstep
  split at hstep
  · rename_i hnone
    cases hstep
    exact h.keyError (Assoc.get?_eq_none.mp hnone) hseen
  · rename_i src hsrc
    cases hstep
    apply h.stay
    · exact .inr (h.genuine _ (Assoc.mem_of_get? hsrc))
    · rw [hc]
      exact .inr fun hinserting => absurd hinserting Bool.false_ne_true

theorem Sound.decompile (h : Sound s) (hc : c.stage = .running) (hstep : c.advance process s = some (next, t)) :
    Advances s c next t := by
  simp only [Call.advance, hc] at hstep
  split at hstep
  · cases hstep
    exact h.run hc _
  · cases hstep
    have hfailed : Fits s ⟨c.raw, .failed⟩ := trivial
    apply h.stay hfailed
    rw [hc]
    exact .inr fun hinserting => absurd hinserting Bool.false_ne_true

theorem Sound.touchStored (h : Sound s) (hfits : Fits s c) (hc : c.stage = .touching src)
    (hstep : c.advance process s = some (next, t)) : Advances s c next t := by
  have hstored : Ran s c.sha src ∧ Seen s c.sha := by rwa [Fits, hc] at hfits
  simp only [Call.advance, hc] at hstep
  split at hstep
  · rename_i hnone
    cases hstep
    exact h.keyError (moveToEnd_eq_none hnone) hstored.2
  · rename_i cache hmove
    cases hstep
    have htrimming : Fits s ⟨c.raw, .trimming src⟩ := hstored
    apply h.move hmove htrimming
    rw [hc]
    rfl

theorem Sound.trim (h : Sound s) (hfits : Fits s c) (hc : c.stage = .trimming src) :
    Advances s c (if maxCache < s.cache.length then .popping src else .returned src) s := by
  have hstored : Ran s c.sha src ∧ Seen s c.sha := by rwa [Fits, hc] at hfits
  split
  · rename_i hlarge
    apply h.stay
    · exact ⟨hstored.1, hstored.2, fun _ => hlarge⟩
    · exact .inr fun _ => .inl rfl
  · rename_i hsmall
    apply h.stay
    · exact .inr hstored.1
    · exact .inl (Nat.le_of_not_lt hsmall)

theorem Sound.popOldest (h : Sound s) (hfits : Fits s c) (hc : c.stage = .popping src)
    (hstep : c.advance process s = some (next, t)) : Advances s c next t := by
  simp only [Call.advance, hc] at hstep
  split at hstep
  · rename_i hnil
    cases hstep
    have hstored : Ran s c.sha src ∧ Seen s c.sha ∧ (s.evicted = [] → maxCache < s.cache.length) := by
      rwa [Fits, hc] at hfits
    have hgone : c.sha ∉ Assoc.keys s.cache := by
      rw [hnil]
      exact List.not_mem_nil
    exact h.keyError hgone hstored.2.1
  · rename_i e cache hcache
    cases hstep
    exact h.pop hc hfits hcache

theorem Sound.stage (h : Sound s) (hfits : Fits s c) (hstep : c.advance process s = some (next, t)) :
    Advances s c next t := by
  cases hc : c.stage with
  | looking =>
    simp only [Call.advance, hc] at hstep
    cases hstep
    exact h.look hc
  | hit => exact h.touchHit hfits hc hstep
  | fetching => exact h.fetch hfits hc hstep
  | running => exact h.decompile hc hstep
  | storing src =>
    simp only [Call.advance, hc] at hstep
    cases hstep
    apply h.store hc
    rwa [Fits, hc] at hfits
  | touching src => exact h.touchStored hfits hc hstep
  | trimming src =>
    simp only [Call.advance, hc] at hstep
    cases hstep
    exact h.trim hfits hc
  | popping src => exact h.popOldest hfits hc hstep
  | returned src | raised | failed =>
    simp only [Call.advance, hc] at hstep
    cases hstep

end Stages

/-! ### Whole runs -/

theorem sound_start : Sound start where
  distinct := List.nodup_nil
  genuine _ he := absurd he List.not_mem_nil
  calls _ hc := absurd hc List.not_mem_nil
  settled := Nat.zero_le _
  evicted h := absurd rfl h

theorem Sound.call {s : State} (h : Sound s) {c : Call} (hc : Fits s c) (hstage : c.stage.inserting = false) :
    Sound { s with calls := s.calls ++ [c] } where
  distinct := h.distinct
  genuine := h.genuine
  calls := by
    intro c' hc'
    rcases List.mem_append.mp hc' with hold | hnew
    · exact h.calls c' hold
    · cases List.mem_singleton.mp hnew
      exact hc
  settled := by
    apply Nat.le_trans _ h.settled
    unfold settledKeys
    simp [List.any_append, hstage]
  evicted := h.evicted

theorem Sound.step {s t : State} {a : Label} (h : Sound s) (hstep : step s a = some t) : Sound t := by
  cases a with
  | call available bytecodeB64 =>
    cases hstep
    apply h.call
    · split
      · exact .inl rfl
      · trivial
    · split <;> rfl
  | advance i process =>
    obtain ⟨c, hi, hstep⟩ := Option.bind_eq_some_iff.mp hstep
    obtain ⟨⟨stage, u⟩, hadvance, rfl⟩ := Option.map_eq_some_iff.mp hstep
    exact h.advance hi (h.stage (h.calls c (List.mem_of_getElem? hi)) hadvance)

end JvmScout.Decompiler
