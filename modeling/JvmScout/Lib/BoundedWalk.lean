import Mathlib.Algebra.BigOperators.Group.Finset.Basic
import Mathlib.Algebra.BigOperators.Group.List.Basic
import Mathlib.Algebra.BigOperators.Ring.Finset
import Mathlib.Algebra.Order.BigOperators.Group.List
import Mathlib.Algebra.Order.Ring.Nat

namespace BoundedWalk

variable {α β : Type*}

def walk (children : α → List α) : ℕ → α → List α
  | 0, a => [a]
  | n + 1, a => a :: (children a).flatMap (walk children n)

theorem mem_walk_self (children : α → List α) (n : ℕ) (a : α) : a ∈ walk children n a := by
  cases n with
  | zero => exact List.mem_singleton_self a
  | succ n => exact List.mem_cons_self

theorem mem_walk_child {children : α → List α} {n : ℕ} {a b x : α} (hb : b ∈ children a) (hx : x ∈ walk children n b) :
    x ∈ walk children (n + 1) a :=
  List.mem_cons_of_mem a (List.mem_flatMap.mpr ⟨b, hb, hx⟩)

theorem length_walk_le {children : α → List α} {k : ℕ} (h : ∀ a, (children a).length ≤ k) (n : ℕ) (a : α) :
    (walk children n a).length ≤ ∑ i ∈ Finset.range (n + 1), k ^ i := by
  induction n generalizing a with
  | zero => simp [walk]
  | succ n ih =>
    have hrest : ((children a).flatMap (walk children n)).length ≤ k * ∑ i ∈ Finset.range (n + 1), k ^ i := by
      rw [List.length_flatMap]
      calc ((children a).map fun b => (walk children n b).length).sum
          ≤ ((children a).map fun b => (walk children n b).length).length • ∑ i ∈ Finset.range (n + 1), k ^ i := by
            apply List.sum_le_card_nsmul
            intro m hm
            obtain ⟨b, -, rfl⟩ := List.mem_map.mp hm
            exact ih b
        _ ≤ k * ∑ i ∈ Finset.range (n + 1), k ^ i := by
            rw [List.length_map, nsmul_eq_mul, Nat.cast_id]
            exact Nat.mul_le_mul_right _ (h a)
    rw [walk, List.length_cons, Finset.sum_range_succ']
    have hshift : ∑ i ∈ Finset.range (n + 1), k ^ (i + 1) = k * ∑ i ∈ Finset.range (n + 1), k ^ i := by
      rw [Finset.mul_sum]
      exact Finset.sum_congr rfl fun i _ => pow_succ' k i
    rw [hshift, pow_zero]
    omega

def expand (node : α → Option (α → β) → β) : ℕ → α → β
  | 0, a => node a none
  | n + 1, a => node a (some (expand node n))

theorem expand_congr {children : α → List α} {node node' : α → Option (α → β) → β} {n : ℕ} {a : α}
    (hleaf : ∀ x ∈ walk children n a, node x none = node' x none)
    (hnode : ∀ x ∈ walk children n a, ∀ f g : α → β, (∀ b ∈ children x, f b = g b) →
      node x (some f) = node' x (some g)) :
    expand node n a = expand node' n a := by
  induction n generalizing a with
  | zero => exact hleaf a (mem_walk_self children 0 a)
  | succ n ih =>
    rw [expand, expand]
    apply hnode a (mem_walk_self children (n + 1) a)
    intro b hb
    apply ih
    · exact fun x hx => hleaf x (mem_walk_child hb hx)
    · exact fun x hx => hnode x (mem_walk_child hb hx)

theorem expand_size_le {children : α → List α} {node : α → Option (α → β) → β} {size : β → ℕ} {cost : α → ℕ}
    (hleaf : ∀ x, size (node x none) ≤ cost x)
    (hnode : ∀ x (f : α → β), size (node x (some f)) ≤ cost x + ((children x).map fun b => size (f b)).sum)
    (n : ℕ) (a : α) : size (expand node n a) ≤ ((walk children n a).map cost).sum := by
  induction n generalizing a with
  | zero => simpa [expand, walk] using hleaf a
  | succ n ih =>
    rw [expand, walk, List.map_cons, List.sum_cons]
    apply (hnode a (expand node n)).trans
    apply Nat.add_le_add_left
    rw [List.map_flatMap, List.flatMap_def, List.sum_flatten, List.map_map]
    apply List.sum_le_sum
    exact fun b _ => ih b

end BoundedWalk
