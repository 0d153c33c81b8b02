import Mathlib.Data.List.Dedup
import Mathlib.Algebra.BigOperators.Group.List.Basic

namespace Relational

variable {ρ κ : Type*} [DecidableEq κ]

def countDistinct (column : ρ → Option κ) (rows : List ρ) : ℕ := (rows.filterMap column).dedup.length

def groupBy (key : ρ → κ) (rows : List ρ) : List (κ × List ρ) :=
  (rows.map key).dedup.map fun k => (k, rows.filter fun r => key r = k)

def largest (value : ρ → ℕ) (n : ℕ) (rows : List ρ) : List ρ :=
  (rows.mergeSort fun a b => decide (value b ≤ value a)).take n

end Relational
