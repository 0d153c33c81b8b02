import JvmScout.Agent.JsonWriter
import Mathlib.Logic.Function.Basic

namespace JvmScout.Agent

/-- `depth` is -1 without an instrumented activation. A slot holds null as `none`. -/
structure JvmtiShadow (V : Type) where
  depth : ℤ
  frames : ℕ → ℕ → Option V
  names : ℕ → ℕ → Option Bytes

structure ShadowLocal (V : Type) where
  name : Bytes
  slot : ℕ
  value : V

namespace JvmtiShadow

variable {V : Type}

def maxDepth : ℕ := 64

def maxSlots : ℕ := 32

def initial : JvmtiShadow V := ⟨-1, fun _ _ => none, fun _ _ => none⟩

def clearRow (d : ℤ) (sh : JvmtiShadow V) : JvmtiShadow V :=
  if 0 ≤ d ∧ d < maxDepth then
    { sh with
      frames := Function.update sh.frames d.toNat (fun _ => none)
      names := Function.update sh.names d.toNat (fun _ => none) }
  else sh

def enterMethod (sh : JvmtiShadow V) : JvmtiShadow V :=
  { sh.clearRow (sh.depth + 1) with depth := sh.depth + 1 }

def exitMethod (sh : JvmtiShadow V) : JvmtiShadow V :=
  if 0 ≤ sh.depth then { sh.clearRow sh.depth with depth := sh.depth - 1 } else sh

def write (slot : ℕ) (v : Option V) (sh : JvmtiShadow V) : JvmtiShadow V :=
  if 0 ≤ sh.depth ∧ sh.depth < maxDepth ∧ slot < maxSlots then
    let row := Function.update (sh.frames sh.depth.toNat) slot v
    { sh with frames := Function.update sh.frames sh.depth.toNat row }
  else sh

def getFrame (depth : ℕ) (sh : JvmtiShadow V) : Option (ℕ → Option V) :=
  let d := sh.depth - depth
  if 0 ≤ d ∧ d < maxDepth then some (sh.frames d.toNat) else none

def getMetadata (depth : ℕ) (sh : JvmtiShadow V) : Option (ℕ → Option Bytes) :=
  let d := sh.depth - depth
  if 0 ≤ d ∧ d < maxDepth then some (sh.names d.toNat) else none

def rowLocals (names : Option (ℕ → Option Bytes)) (row : ℕ → Option V) : List (ShadowLocal V) :=
  (List.range maxSlots).filterMap fun i =>
    (row i).map fun v => ⟨((names.bind fun names => names i).getD []), i, v⟩

def readFrame (depth : ℕ) (sh : JvmtiShadow V) : List (ShadowLocal V) :=
  match sh.getFrame depth with
  | none => []
  | some row => rowLocals (sh.getMetadata depth) row

theorem clearRow_self {d : ℕ} (hd : d < maxDepth) (sh : JvmtiShadow V) :
    (sh.clearRow d).frames d = fun _ => none := by
  have hrow : (0 : ℤ) ≤ d ∧ (d : ℤ) < maxDepth := by omega
  simp [clearRow, hrow]

theorem clearRow_other {d : ℤ} {e : ℕ} (he : (e : ℤ) ≠ d) (sh : JvmtiShadow V) :
    (sh.clearRow d).frames e = sh.frames e := by
  unfold clearRow
  split
  · apply Function.update_of_ne
    omega
  · rfl

theorem clearRow_unnamed {sh : JvmtiShadow V} (h : ∀ e slot, sh.names e slot = none) (d : ℤ) :
    ∀ e slot, (sh.clearRow d).names e slot = none := by
  intro e slot
  unfold clearRow
  split
  · by_cases he : e = d.toNat
    · subst he
      simp
    · simp only [Function.update_of_ne he]
      exact h e slot
  · exact h e slot

theorem write_depth (slot : ℕ) (v : Option V) (sh : JvmtiShadow V) :
    (sh.write slot v).depth = sh.depth := by
  unfold write
  split <;> rfl

theorem write_names (slot : ℕ) (v : Option V) (sh : JvmtiShadow V) :
    (sh.write slot v).names = sh.names := by
  unfold write
  split <;> rfl

theorem write_self {slot d : ℕ} {v : Option V} {sh : JvmtiShadow V} (hd : sh.depth = d)
    (hlow : d < maxDepth) (hslot : slot < maxSlots) :
    (sh.write slot v).frames d = Function.update (sh.frames d) slot v := by
  simp [write, hslot, hlow, hd]

theorem write_other {slot e : ℕ} {v : Option V} {sh : JvmtiShadow V} (he : (e : ℤ) ≠ sh.depth) :
    (sh.write slot v).frames e = sh.frames e := by
  unfold write
  split
  · apply Function.update_of_ne
    omega
  · rfl

theorem write_past {slot : ℕ} {v : Option V} {sh : JvmtiShadow V} (hslot : maxSlots ≤ slot) :
    sh.write slot v = sh := by
  unfold write
  apply if_neg
  omega

theorem rowLocals_inj {row row' : ℕ → Option V} :
    rowLocals none row = rowLocals none row' ↔ ∀ slot < maxSlots, row slot = row' slot := by
  have hmem (row : ℕ → Option V) (slot : ℕ) (v : V) :
      ⟨[], slot, v⟩ ∈ rowLocals none row ↔ slot < maxSlots ∧ row slot = some v := by
    simp [rowLocals]
  constructor
  · intro h slot hslot
    ext v
    have hv := hmem row slot v
    rw [h, hmem row' slot v] at hv
    constructor
    · intro hrow
      exact (hv.mpr ⟨hslot, hrow⟩).2
    · intro hrow
      exact (hv.mp ⟨hslot, hrow⟩).2
  · intro h
    apply List.filterMap_congr
    intro slot hslot
    rw [h slot (List.mem_range.mp hslot)]

end JvmtiShadow

end JvmScout.Agent
