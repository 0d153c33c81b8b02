import Mathlib.Data.List.Sort
import Mathlib.Data.List.TakeWhile

namespace JvmScout.Agent

structure LineNumberEntry where
  startLocation : ℕ
  lineNumber : ℕ
  deriving DecidableEq

def LineNumberEntry.le (a b : LineNumberEntry) : Prop :=
  a.startLocation < b.startLocation ∨ a.startLocation = b.startLocation ∧ a.lineNumber ≤ b.lineNumber

instance : DecidableRel LineNumberEntry.le := fun a b =>
  inferInstanceAs (Decidable (a.startLocation < b.startLocation ∨
    a.startLocation = b.startLocation ∧ a.lineNumber ≤ b.lineNumber))

def scanLines (location : ℤ) (line : ℤ) : List LineNumberEntry → ℤ
  | [] => line
  | e :: rest => if e.startLocation ≤ location then scanLines location e.lineNumber rest else line

def resolveLineNumber (table : Option (List LineNumberEntry)) (location : ℤ) : ℤ :=
  if location < 0 then -1
  else
    match table with
    | none => -1
    | some entries => scanLines location (-1) entries

def lookupLineTable (table : Option (List LineNumberEntry)) : List LineNumberEntry :=
  match table with
  | none => []
  | some entries => entries.insertionSort LineNumberEntry.le

def lineAt (lineTable : List LineNumberEntry) (location : ℤ) : ℤ :=
  if location < 0 ∨ lineTable = [] then -1 else scanLines location (-1) lineTable

namespace LineNumberEntry

instance : Std.Total LineNumberEntry.le where
  total a b := by
    simp only [le]
    omega

instance : IsTrans LineNumberEntry LineNumberEntry.le where
  trans a b c := by
    simp only [le]
    omega

theorem le_antisymm {a b : LineNumberEntry} (h : a.le b) (h' : b.le a) : a = b := by
  obtain ⟨s, l⟩ := a
  obtain ⟨t, m⟩ := b
  simp only [le] at h h'
  have hstart : s = t := by omega
  have hline : l = m := by omega
  rw [hstart, hline]

end LineNumberEntry

def EndsRun (entries : List LineNumberEntry) (location : ℤ) (e : LineNumberEntry) : Prop :=
  ∃ before after, entries = before ++ e :: after ∧ (∀ x ∈ before, x.startLocation ≤ location) ∧
    e.startLocation ≤ location ∧ ∀ x ∈ after.head?, location < x.startLocation

def Greatest (entries : List LineNumberEntry) (location : ℤ) (e : LineNumberEntry) : Prop :=
  e ∈ entries ∧ e.startLocation ≤ location ∧ ∀ x ∈ entries, x.startLocation ≤ location → x.le e

variable {location : ℤ}

theorem scanLines_beyond {entries : List LineNumberEntry} (h : ∀ x ∈ entries, location < x.startLocation) (line : ℤ) :
    scanLines location line entries = line := by
  cases entries with
  | nil => rfl
  | cons e rest =>
    have he := h e List.mem_cons_self
    rw [scanLines, if_neg (by omega)]

theorem scanLines_run {entries : List LineNumberEntry} {e : LineNumberEntry} (h : EndsRun entries location e)
    (line : ℤ) : scanLines location line entries = e.lineNumber := by
  obtain ⟨before, after, rfl, hbefore, he, hafter⟩ := h
  induction before generalizing line with
  | nil =>
    rw [List.nil_append, scanLines, if_pos he]
    cases after with
    | nil => rfl
    | cons x rest =>
      have hx := hafter x rfl
      rw [scanLines, if_neg (by omega)]
  | cons x before ih =>
    rw [List.forall_mem_cons] at hbefore
    rw [List.cons_append, scanLines, if_pos hbefore.1, ih _ hbefore.2]

theorem endsRun_exists {e : LineNumberEntry} (rest : List LineNumberEntry) (he : e.startLocation ≤ location) :
    ∃ x, EndsRun (e :: rest) location x := by
  induction rest generalizing e with
  | nil => exact ⟨e, [], [], rfl, fun x hx => absurd hx List.not_mem_nil, he, by simp⟩
  | cons y rest ih =>
    by_cases hy : y.startLocation ≤ location
    · obtain ⟨x, before, after, heq, hbefore, hx, hafter⟩ := ih hy
      refine ⟨x, e :: before, after, ?_, List.forall_mem_cons.mpr ⟨he, hbefore⟩, hx, hafter⟩
      rw [heq, List.cons_append]
    · refine ⟨e, [], y :: rest, rfl, fun x hx => absurd hx List.not_mem_nil, he, ?_⟩
      intro x hx
      cases hx
      omega

theorem greatest_of_endsRun {entries : List LineNumberEntry} (hsorted : entries.Pairwise LineNumberEntry.le)
    {e : LineNumberEntry} (h : EndsRun entries location e) : Greatest entries location e := by
  obtain ⟨before, after, rfl, hbefore, he, hafter⟩ := h
  obtain ⟨-, hlast, hcross⟩ := List.pairwise_append.mp hsorted
  refine ⟨List.mem_append_right _ List.mem_cons_self, he, ?_⟩
  intro x hx hle
  rcases List.mem_append.mp hx with hx | hx
  · exact hcross x hx e List.mem_cons_self
  rcases List.mem_cons.mp hx with rfl | hx
  · exact .inr ⟨rfl, Nat.le_refl _⟩
  -- What follows the run starts beyond the location, as its first entry does.
  · cases after with
    | nil => cases hx
    | cons y after =>
      have hy := hafter y rfl
      obtain ⟨-, hrest⟩ := List.pairwise_cons.mp hlast
      obtain ⟨hfirst, -⟩ := List.pairwise_cons.mp hrest
      rcases List.mem_cons.mp hx with rfl | hx
      · omega
      · have hstart := hfirst x hx
        simp only [LineNumberEntry.le] at hstart
        omega

theorem Greatest.unique {entries : List LineNumberEntry} {a b : LineNumberEntry} (ha : Greatest entries location a)
    (hb : Greatest entries location b) : a = b :=
  LineNumberEntry.le_antisymm (hb.2.2 a ha.1 ha.2.1) (ha.2.2 b hb.1 hb.2.1)

theorem Greatest.of_perm {entries sorted : List LineNumberEntry} (hperm : sorted.Perm entries) {e : LineNumberEntry}
    (h : Greatest sorted location e) : Greatest entries location e :=
  ⟨hperm.mem_iff.mp h.1, h.2.1, fun x hx => h.2.2 x (hperm.mem_iff.mpr hx)⟩

def SameLine (table : Option (List LineNumberEntry)) (location : ℤ) : Prop :=
  location < 0 ∨ ∀ entries, table = some entries →
    (∀ x ∈ entries, location < x.startLocation) ∨
      ∃ e m, EndsRun entries location e ∧ Greatest entries location m ∧ e.lineNumber = m.lineNumber

theorem beyond_or_reached (entries : List LineNumberEntry) (location : ℤ) :
    (∀ x ∈ entries, location < x.startLocation) ∨ ∃ x ∈ entries, x.startLocation ≤ location := by
  by_cases h : ∃ x ∈ entries, x.startLocation ≤ location
  · exact .inr h
  · refine .inl fun x hx => ?_
    by_contra hle
    exact h ⟨x, hx, by omega⟩

theorem sorted_run {entries : List LineNumberEntry} {x : LineNumberEntry} (hx : x ∈ entries)
    (hle : x.startLocation ≤ location) :
    ∃ m, EndsRun (entries.insertionSort LineNumberEntry.le) location m ∧ Greatest entries location m := by
  have hperm := List.perm_insertionSort LineNumberEntry.le entries
  have hsorted := List.pairwise_insertionSort LineNumberEntry.le entries
  have hmem : x ∈ entries.insertionSort LineNumberEntry.le := hperm.mem_iff.mpr hx
  cases hlist : entries.insertionSort LineNumberEntry.le with
  | nil =>
    rw [hlist] at hmem
    cases hmem
  | cons e rest =>
    rw [hlist] at hsorted hmem hperm
    have he : e.startLocation ≤ location := by
      rcases List.mem_cons.mp hmem with rfl | hmem
      · exact hle
      · have hfirst := (List.pairwise_cons.mp hsorted).1 x hmem
        simp only [LineNumberEntry.le] at hfirst
        omega
    obtain ⟨m, hm⟩ := endsRun_exists rest he
    exact ⟨m, hm, (greatest_of_endsRun hsorted hm).of_perm hperm⟩

theorem lineAt_greatest {entries : List LineNumberEntry} {m : LineNumberEntry} (hlocation : 0 ≤ location)
    (h : Greatest entries location m) : lineAt (lookupLineTable (some entries)) location = m.lineNumber := by
  obtain ⟨m', hrun, hgreatest⟩ := sorted_run h.1 h.2.1
  have hne : entries.insertionSort LineNumberEntry.le ≠ [] := by
    obtain ⟨before, after, heq, -⟩ := hrun
    rw [heq]
    exact List.append_ne_nil_of_right_ne_nil _ (List.cons_ne_nil _ _)
  rw [lineAt, lookupLineTable, if_neg (not_or.mpr ⟨by omega, hne⟩), scanLines_run hrun, hgreatest.unique h]

theorem lineAt_beyond {entries : List LineNumberEntry} (h : ∀ x ∈ entries, location < x.startLocation) :
    lineAt (lookupLineTable (some entries)) location = -1 := by
  rw [lineAt, lookupLineTable]
  split
  · rfl
  · apply scanLines_beyond
    intro x hx
    exact h x ((List.mem_insertionSort _).mp hx)

theorem sameLine_of_sorted {entries : List LineNumberEntry} (hsorted : entries.Pairwise LineNumberEntry.le)
    (location : ℤ) : SameLine (some entries) location := by
  refine .inr fun entries' heq => ?_
  cases heq
  cases entries with
  | nil => exact .inl fun x hx => absurd hx List.not_mem_nil
  | cons e rest =>
    by_cases he : e.startLocation ≤ location
    · obtain ⟨x, hx⟩ := endsRun_exists rest he
      exact .inr ⟨x, x, hx, greatest_of_endsRun hsorted hx, rfl⟩
    · refine .inl (List.forall_mem_cons.mpr ⟨by omega, fun x hx => ?_⟩)
      have hle := (List.pairwise_cons.mp hsorted).1 x hx
      simp only [LineNumberEntry.le] at hle
      omega

theorem resolveLineNumber_some (entries : List LineNumberEntry) (hlocation : 0 ≤ location) :
    resolveLineNumber (some entries) location = scanLines location (-1) entries :=
  if_neg (by omega)

/-- The throw site and the top frame of an event get one line exactly where the scan of the raw
table ends on an entry of the greatest one's line. -/
theorem cached_line_eq_iff (table : Option (List LineNumberEntry)) (location : ℤ) :
    lineAt (lookupLineTable table) location = resolveLineNumber table location ↔ SameLine table location := by
  by_cases hlocation : location < 0
  · have hraw : resolveLineNumber table location = -1 := if_pos hlocation
    rw [lineAt, if_pos (.inl hlocation), hraw]
    exact iff_of_true rfl (.inl hlocation)
  cases table with
  | none =>
    have hraw : resolveLineNumber none location = -1 := if_neg hlocation
    rw [lineAt, if_pos (.inr rfl), hraw]
    exact iff_of_true rfl (.inr (by simp))
  | some entries =>
    rw [resolveLineNumber_some entries (by omega)]
    constructor
    · intro hsame
      refine .inr fun entries' heq => ?_
      cases heq
      apply (beyond_or_reached entries location).imp_right
      rintro ⟨x, hx, hle⟩
      obtain ⟨m, -, hm⟩ := sorted_run hx hle
      rw [lineAt_greatest (by omega) hm] at hsame
      cases entries with
      | nil => cases hx
      | cons e rest =>
        by_cases he : e.startLocation ≤ location
        · obtain ⟨y, hy⟩ := endsRun_exists rest he
          rw [scanLines_run hy] at hsame
          exact ⟨y, m, hy, hm, by omega⟩
        · rw [scanLines, if_neg he] at hsame
          omega
    · rintro (hneg | h)
      · exact absurd hneg hlocation
      rcases h entries rfl with hbeyond | ⟨e, m, he, hm, hline⟩
      · rw [lineAt_beyond hbeyond, scanLines_beyond hbeyond]
      · rw [lineAt_greatest (by omega) hm, scanLines_run he, hline]

theorem cached_line_differs :
    ¬ ∀ table location, lineAt (lookupLineTable table) location = resolveLineNumber table location := by
  intro h
  exact absurd (h (some [⟨10, 7⟩, ⟨0, 3⟩]) 5) (by decide)

end JvmScout.Agent
