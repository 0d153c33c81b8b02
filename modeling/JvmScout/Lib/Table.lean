import Mathlib.Data.List.Basic
import Mathlib.Data.List.Nodup
import Mathlib.Data.List.Pairwise
import Mathlib.Tactic.Basic

namespace Relational

structure Table (ρ : Type*) where
  rows : List (ℕ × ρ)
  ordered : rows.Pairwise (fun a b => a.1 < b.1)

namespace Table

variable {ρ : Type*}

def empty : Table ρ := ⟨[], List.Pairwise.nil⟩

def values (t : Table ρ) : List ρ := t.rows.map Prod.snd

def select (t : Table ρ) (p : ρ → Bool) : List (ℕ × ρ) := t.rows.filter fun r => p r.2

def count (t : Table ρ) (p : ρ → Bool) : ℕ := (t.select p).length

def lookup (t : Table ρ) (k : ℕ) : Option ρ := (t.rows.find? fun r => r.1 == k).map Prod.snd

def nextKey (t : Table ρ) : ℕ := (t.rows.getLast?.map Prod.fst).elim 1 (· + 1)

theorem lt_nextKey (t : Table ρ) {r : ℕ × ρ} (hr : r ∈ t.rows) : r.1 < t.nextKey := by
  rcases List.eq_nil_or_concat t.rows with h | ⟨init, last, h⟩
  · simp [h] at hr
  · have ho := t.ordered
    rw [List.concat_eq_append] at h
    rw [h, List.pairwise_append] at ho
    rw [h] at hr
    have hn : t.nextKey = last.1 + 1 := by simp [nextKey, h]
    rw [hn]
    rcases List.mem_append.mp hr with hr | hr
    · have := ho.2.2 r hr last (by simp)
      omega
    · have := List.mem_singleton.mp hr
      subst this
      omega

def insert (t : Table ρ) (v : ρ) : Table ρ :=
  ⟨t.rows ++ [(t.nextKey, v)], by
    rw [List.pairwise_append]
    refine ⟨t.ordered, List.pairwise_singleton _ _, ?_⟩
    intro a ha b hb
    rw [List.mem_singleton.mp hb]
    exact t.lt_nextKey ha⟩

def insertAll (t : Table ρ) : List ρ → Table ρ × List ℕ
  | [] => (t, [])
  | v :: vs => (((t.insert v).insertAll vs).1, t.nextKey :: ((t.insert v).insertAll vs).2)

def mapRows (t : Table ρ) (f : ℕ → ρ → ρ) : Table ρ :=
  ⟨t.rows.map fun r => (r.1, f r.1 r.2), by
    rw [List.pairwise_map]
    exact t.ordered⟩

def filterRows (t : Table ρ) (p : ℕ → ρ → Bool) : Table ρ :=
  ⟨t.rows.filter fun r => p r.1 r.2, t.ordered.sublist List.filter_sublist⟩

def update (t : Table ρ) (p : ρ → Bool) (f : ρ → ρ) : Table ρ :=
  t.mapRows fun _ v => if p v then f v else v

def set (t : Table ρ) (k : ℕ) (v : ρ) : Table ρ :=
  t.mapRows fun k' v' => if k' = k then v else v'

def delete (t : Table ρ) (p : ρ → Bool) : Table ρ := t.filterRows fun _ v => !p v

def erase (t : Table ρ) (k : ℕ) : Table ρ := t.filterRows fun k' _ => k' != k

theorem ext {t u : Table ρ} (h : t.rows = u.rows) : t = u := by
  cases t
  cases u
  congr

theorem mem_select {t : Table ρ} {p : ρ → Bool} {r : ℕ × ρ} :
    r ∈ t.select p ↔ r ∈ t.rows ∧ p r.2 = true := List.mem_filter

@[simp] theorem rows_insert (t : Table ρ) (v : ρ) :
    (t.insert v).rows = t.rows ++ [(t.nextKey, v)] := rfl

@[simp] theorem rows_mapRows (t : Table ρ) (f : ℕ → ρ → ρ) :
    (t.mapRows f).rows = t.rows.map fun r => (r.1, f r.1 r.2) := rfl

@[simp] theorem rows_filterRows (t : Table ρ) (p : ℕ → ρ → Bool) :
    (t.filterRows p).rows = t.rows.filter fun r => p r.1 r.2 := rfl

theorem keys_nodup (t : Table ρ) : (t.rows.map Prod.fst).Nodup :=
  List.pairwise_map.mpr (t.ordered.imp Nat.ne_of_lt)

theorem key_unique (t : Table ρ) {k : ℕ} {v w : ρ} (hv : (k, v) ∈ t.rows) (hw : (k, w) ∈ t.rows) :
    v = w :=
  (Prod.mk.inj (List.inj_on_of_nodup_map t.keys_nodup hv hw rfl)).2

theorem set_self (t : Table ρ) {k : ℕ} {v : ρ} (h : (k, v) ∈ t.rows) : t.set k v = t := by
  apply Table.ext
  rw [set, rows_mapRows]
  conv_rhs => rw [← List.map_id t.rows]
  apply List.map_congr_left
  rintro ⟨k', v'⟩ hr
  by_cases hk : k' = k
  · subst hk
    rw [t.key_unique hr h]
    simp
  · simp [hk]

theorem lookup_eq_some (t : Table ρ) {k : ℕ} {v : ρ} :
    t.lookup k = some v ↔ (k, v) ∈ t.rows := by
  simp only [lookup, Option.map_eq_some_iff]
  constructor
  · rintro ⟨r, hr, rfl⟩
    have hk : r.1 = k := by simpa using List.find?_some hr
    exact hk ▸ List.mem_of_find?_eq_some hr
  · intro hv
    cases hf : t.rows.find? fun r => r.1 == k with
    | none => simpa using List.find?_eq_none.mp hf _ hv
    | some r =>
      have hk : r.1 = k := by simpa using List.find?_some hf
      have hr : (k, r.2) ∈ t.rows := hk ▸ List.mem_of_find?_eq_some hf
      exact ⟨r, rfl, t.key_unique hr hv⟩

theorem mem_rows_insert {t : Table ρ} {v : ρ} {r : ℕ × ρ} :
    r ∈ (t.insert v).rows ↔ r ∈ t.rows ∨ r = (t.nextKey, v) := by
  rw [rows_insert, List.mem_append, List.mem_singleton]

theorem head?_select {t : Table ρ} {p : ρ → Bool} {r : ℕ × ρ} :
    (t.select p).head? = some r ↔
      r ∈ t.rows ∧ p r.2 = true ∧ ∀ r' ∈ t.rows, p r'.2 = true → r.1 ≤ r'.1 := by
  have ordered : (t.select p).Pairwise (fun a b => a.1 < b.1) := t.ordered.sublist List.filter_sublist
  constructor
  · intro h
    obtain ⟨rest, hrest⟩ := List.head?_eq_some_iff.mp h
    have hmem : r ∈ t.select p := by
      rw [hrest]
      exact List.mem_cons_self
    refine ⟨(mem_select.mp hmem).1, (mem_select.mp hmem).2, fun r' hr' hp => ?_⟩
    have hmem' : r' ∈ t.select p := mem_select.mpr ⟨hr', hp⟩
    rw [hrest] at hmem' ordered
    rcases List.mem_cons.mp hmem' with rfl | hlater
    · exact Nat.le_refl _
    · exact Nat.le_of_lt ((List.pairwise_cons.mp ordered).1 r' hlater)
  · rintro ⟨hr, hp, hleast⟩
    have hmem : r ∈ t.select p := mem_select.mpr ⟨hr, hp⟩
    cases hsel : t.select p with
    | nil =>
      rw [hsel] at hmem
      cases hmem
    | cons r' rest =>
      rw [hsel] at hmem ordered
      rcases List.mem_cons.mp hmem with rfl | hlater
      · rfl
      · have hlt : r'.1 < r.1 := (List.pairwise_cons.mp ordered).1 r hlater
        have hfirst : r' ∈ t.select p := by
          rw [hsel]
          exact List.mem_cons_self
        have hle := hleast r' (mem_select.mp hfirst).1 (mem_select.mp hfirst).2
        omega

def Agree (p : ρ → Bool) (t u : Table ρ) : Prop := ∀ r : ℕ × ρ, p r.2 = true → (r ∈ t.rows ↔ r ∈ u.rows)

theorem Agree.refl (p : ρ → Bool) (t : Table ρ) : Agree p t t := fun _ _ => Iff.rfl

theorem Agree.symm {p : ρ → Bool} {t u : Table ρ} (h : Agree p t u) : Agree p u t :=
  fun r hr => (h r hr).symm

theorem Agree.trans {p : ρ → Bool} {t u v : Table ρ} (h : Agree p t u) (h' : Agree p u v) :
    Agree p t v := fun r hr => (h r hr).trans (h' r hr)

theorem agree_iff_select {p : ρ → Bool} {t u : Table ρ} : Agree p t u ↔ t.select p = u.select p := by
  constructor
  · intro h
    have sorted (v : Table ρ) : (v.select p).Pairwise (fun a b => a.1 < b.1) :=
      v.ordered.sublist List.filter_sublist
    have nodup (v : Table ρ) : (v.select p).Nodup :=
      (sorted v).imp fun {a b} (hlt : a.1 < b.1) he => absurd (congrArg Prod.fst he) (Nat.ne_of_lt hlt)
    have hperm : (t.select p).Perm (u.select p) := by
      apply (List.perm_ext_iff_of_nodup (nodup t) (nodup u)).mpr
      intro r
      simp only [mem_select]
      exact and_congr_left (h r)
    exact hperm.eq_of_pairwise (fun a b _ _ hab hba => absurd hab (Nat.lt_asymm hba)) (sorted t) (sorted u)
  · intro h r hr
    have : r ∈ t.select p ↔ r ∈ u.select p := by rw [h]
    simpa only [mem_select, hr, and_true] using this

theorem Agree.select {p : ρ → Bool} {t u : Table ρ} (h : Agree p t u) : t.select p = u.select p :=
  agree_iff_select.mp h

theorem Agree.select_of_imp {p q : ρ → Bool} {t u : Table ρ} (h : Agree p t u)
    (hq : ∀ v, q v = true → p v = true) : t.select q = u.select q := by
  apply agree_iff_select.mp
  exact fun r hr => h r (hq r.2 hr)

theorem Agree.lookup_filter {p : ρ → Bool} {t u : Table ρ} (h : Agree p t u) (k : ℕ) :
    (t.lookup k).filter p = (u.lookup k).filter p := by
  apply Option.ext
  intro v
  simp only [Option.filter_eq_some_iff, lookup_eq_some]
  constructor
  · rintro ⟨hv, hp⟩
    exact ⟨(h (k, v) hp).mp hv, hp⟩
  · rintro ⟨hv, hp⟩
    exact ⟨(h (k, v) hp).mpr hv, hp⟩

end Table

end Relational
