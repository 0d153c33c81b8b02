import JvmScout.Collector.Queries
import JvmScout.Collector.Tenancy
import JvmScout.Lib.Runs

/-!
Calls of `store_source_class` on the event loop. A call selects its row, and then commits
an INSERT, or an UPDATE of the row it has found; others run between the two.
-/

namespace JvmScout.Storage.SourceClassStores

open Relational Runs

structure StoreCall where
  projectId : Option String
  className : String
  bytecodeB64 : String

def StoreCall.find (c : StoreCall) (db : Db) : Option (ℕ × SourceClassRow) :=
  db.sourceClasses.rows.find? fun r => classClause c.className c.projectId r.2

/-- The session writes the columns that differ from what it has loaded. No call here
deletes a row. -/
def StoreCall.refresh (c : StoreCall) (now : ℕ) (existing row : SourceClassRow) : SourceClassRow :=
  { row with
    bytecodeB64 := if c.bytecodeB64 = existing.bytecodeB64 then row.bytecodeB64 else c.bytecodeB64
    receivedAt := if now = existing.receivedAt then row.receivedAt else now }

def StoreCall.write (c : StoreCall) (now : ℕ) (found : Option (ℕ × SourceClassRow)) (db : Db) : Db :=
  match found with
  | none => { db with sourceClasses := db.sourceClasses.insert ⟨c.projectId, c.className, now, c.bytecodeB64⟩ }
  | some (k, existing) =>
    { db with
      sourceClasses := db.sourceClasses.mapRows fun k' row =>
        if k' = k then c.refresh now existing row else row }

structure Stores where
  db : Db
  pending : ℕ → Option (StoreCall × Option (ℕ × SourceClassRow))
  stored : Option String → String → Option String

def Stores.start (db : Db) : Stores := ⟨db, fun _ => none, fun _ _ => none⟩

inductive StoreStep where
  | call (i : ℕ) (c : StoreCall)
  | commit (i : ℕ) (now : ℕ)

def record (c : StoreCall) (stored : Option String → String → Option String) :
    Option String → String → Option String := fun p name =>
  if p = c.projectId ∧ name = c.className then some c.bytecodeB64 else stored p name

def storeStep (s : Stores) : StoreStep → Option Stores
  | .call i c =>
    match s.pending i with
    | some _ => none
    | none =>
      if c.className = "" ∨ c.bytecodeB64 = "" then some s
      else some { s with pending := Function.update s.pending i (some (c, c.find s.db)) }
  | .commit i now =>
    match s.pending i with
    | none => none
    | some (c, found) =>
      some
        { db := c.write now found s.db
          pending := Function.update s.pending i none
          stored := record c s.stored }

def OnePerTenant (t : Table SourceClassRow) : Prop :=
  ∀ r ∈ t.rows, ∀ r' ∈ t.rows, r.2.projectId = r'.2.projectId → r.2.className = r'.2.className → r = r'

def Reads (db : Db) (p : Option String) (name b : String) : Prop :=
  getSourceClass name p db = some b ∧
    ∀ r ∈ (db.sourceClasses.select (classClause name p)).head?, r.2.projectId = p

def PerTenant (s : Stores) : Prop :=
  OnePerTenant s.db.sourceClasses ∧ ∀ p name b, s.stored p name = some b → Reads s.db p name b

def StoresOwn (c : StoreCall) (db db' : Db) : Prop :=
  Table.Agree (fun row => !owned SourceClassRow.projectId c.projectId row) db.sourceClasses db'.sourceClasses ∧
    ∃ r ∈ db'.sourceClasses.rows, r.2.projectId = c.projectId ∧ r.2.className = c.className ∧
      r.2.bytecodeB64 = c.bytecodeB64

def MapStep (s : Stores) (a : StoreStep) : Prop :=
  ∀ t, storeStep s a = some t → PerTenant t ∧
    ∀ i now c found, a = .commit i now → s.pending i = some (c, found) → StoresOwn c s.db t.db

def Absent (c : StoreCall) (db : Db) : Prop :=
  ∀ r ∈ db.sourceClasses.rows, r.2.className = c.className → r.2.projectId ≠ c.projectId ∧ c.projectId ≠ none

def Own (c : StoreCall) (k : ℕ) (existing : SourceClassRow) (db : Db) : Prop :=
  existing.projectId = c.projectId ∧ (c.bytecodeB64 = existing.bytecodeB64 →
    ∀ row, (k, row) ∈ db.sourceClasses.rows → row.bytecodeB64 = c.bytecodeB64)

def Undisturbed (s : Stores) : StoreStep → Prop
  | .call _ _ => True
  | .commit i _ => ∀ c, (s.pending i = some (c, none) → Absent c s.db) ∧
    ∀ k existing, s.pending i = some (c, some (k, existing)) → Own c k existing s.db

theorem write_find {backend : Backend} {now : ℕ} {c : StoreCall} {db : Db}
    (hc : c.className ≠ "" ∧ c.bytecodeB64 ≠ "") :
    storeSourceClass backend now c.projectId (.str c.className) (.str c.bytecodeB64) db =
      .ok (c.write now (c.find db) db) := by
  have htruthy : ((Json.str c.className).truthy && (Json.str c.bytecodeB64).truthy) = true := by
    simp [Json.truthy, hc]
  unfold storeSourceClass StoreCall.find
  simp only [htruthy, if_true, backend.bindText_str]
  cases hfound : db.sourceClasses.rows.find? fun r => classClause c.className c.projectId r.2 with
  | none => rfl
  | some r =>
    obtain ⟨k, existing⟩ := r
    have hrows : db.sourceClasses.set k { existing with bytecodeB64 := c.bytecodeB64, receivedAt := now } =
        db.sourceClasses.mapRows fun k' row => if k' = k then c.refresh now existing row else row := by
      apply Table.ext
      apply List.map_congr_left
      rintro ⟨k', row⟩ hrow
      by_cases hk : k' = k
      · subst hk
        cases db.sourceClasses.key_unique hrow (List.mem_of_find?_eq_some hfound)
        have hrefresh : c.refresh now existing existing =
            { existing with bytecodeB64 := c.bytecodeB64, receivedAt := now } := by
          unfold StoreCall.refresh
          split <;> split <;> simp_all
        simp only [if_true, hrefresh]
      · simp only [hk, if_false]
    simp only [StoreCall.write, hrows]

theorem classClause_iff {name : String} {p : Option String} {row : SourceClassRow} :
    classClause name p row = true ↔ row.className = name ∧ (p = none ∨ row.projectId = p) := by
  simp [classClause, applyProject, owned]

theorem find_iff {c : StoreCall} {db : Db} {r : ℕ × SourceClassRow} :
    c.find db = some r ↔ r ∈ db.sourceClasses.rows ∧
      (r.2.className = c.className ∧ (c.projectId = none ∨ r.2.projectId = c.projectId)) ∧
      ∀ r' ∈ db.sourceClasses.rows, r'.2.className = c.className →
        (c.projectId = none ∨ r'.2.projectId = c.projectId) → r.1 ≤ r'.1 := by
  rw [StoreCall.find, ← List.head?_filter]
  refine Table.head?_select.trans ?_
  simp only [classClause_iff, and_imp]

theorem reads_iff {db : Db} {p : Option String} {name b : String} :
    Reads db p name b ↔ ∃ r ∈ db.sourceClasses.rows, r.2.projectId = p ∧ r.2.className = name ∧
      r.2.bytecodeB64 = b ∧
      ∀ r' ∈ db.sourceClasses.rows, r'.2.className = name → (p = none ∨ r'.2.projectId = p) → r.1 ≤ r'.1 := by
  unfold Reads getSourceClass
  constructor
  · rintro ⟨hget, hown⟩
    obtain ⟨r, hr, hb⟩ := Option.map_eq_some_iff.mp hget
    obtain ⟨hmem, hclause, hleast⟩ := Table.head?_select.mp hr
    refine ⟨r, hmem, hown r hr, (classClause_iff.mp hclause).1, hb, fun r' hr' hname hp => ?_⟩
    exact hleast r' hr' (classClause_iff.mpr ⟨hname, hp⟩)
  · rintro ⟨r, hmem, hp, hname, hb, hleast⟩
    have hr : (db.sourceClasses.select (classClause name p)).head? = some r := by
      refine Table.head?_select.mpr ⟨hmem, classClause_iff.mpr ⟨hname, .inr hp⟩, fun r' hr' hclause => ?_⟩
      exact hleast r' hr' (classClause_iff.mp hclause).1 (classClause_iff.mp hclause).2
    rw [hr]
    refine ⟨congrArg some hb, ?_⟩
    rintro _ ⟨⟩
    exact hp

theorem mem_write_none {c : StoreCall} {now : ℕ} {db : Db} {r : ℕ × SourceClassRow} :
    r ∈ (c.write now none db).sourceClasses.rows ↔ r ∈ db.sourceClasses.rows ∨
      r = (db.sourceClasses.nextKey, ⟨c.projectId, c.className, now, c.bytecodeB64⟩) :=
  Table.mem_rows_insert

theorem mem_write_some {c : StoreCall} {now k : ℕ} {existing : SourceClassRow} {db : Db}
    {r : ℕ × SourceClassRow} :
    r ∈ (c.write now (some (k, existing)) db).sourceClasses.rows ↔
      ∃ row, (r.1, row) ∈ db.sourceClasses.rows ∧
        r.2 = if r.1 = k then c.refresh now existing row else row := by
  simp only [StoreCall.write, Table.rows_mapRows, List.mem_map]
  constructor
  · rintro ⟨⟨k', row⟩, hrow, rfl⟩
    exact ⟨row, hrow, rfl⟩
  · rintro ⟨row, hrow, heq⟩
    exact ⟨(r.1, row), hrow, Prod.ext rfl heq.symm⟩

theorem mem_write_some_old {c : StoreCall} {now k : ℕ} {existing : SourceClassRow} {db : Db}
    {r : ℕ × SourceClassRow} (h : r ∈ (c.write now (some (k, existing)) db).sourceClasses.rows) :
    ∃ row, (r.1, row) ∈ db.sourceClasses.rows ∧ row.projectId = r.2.projectId ∧
      row.className = r.2.className := by
  obtain ⟨row, hrow, heq⟩ := mem_write_some.mp h
  refine ⟨row, hrow, ?_⟩
  rw [heq]
  split <;> exact ⟨rfl, rfl⟩

theorem mem_write_some_new (c : StoreCall) (now k : ℕ) (existing : SourceClassRow) {db : Db}
    {r : ℕ × SourceClassRow} (h : r ∈ db.sourceClasses.rows) :
    ∃ row, (r.1, row) ∈ (c.write now (some (k, existing)) db).sourceClasses.rows ∧
      row.projectId = r.2.projectId ∧ row.className = r.2.className ∧ (r.1 ≠ k → row = r.2) := by
  refine ⟨if r.1 = k then c.refresh now existing r.2 else r.2, mem_write_some.mpr ⟨r.2, h, rfl⟩, ?_⟩
  by_cases hk : r.1 = k
  · rw [if_pos hk]
    exact ⟨rfl, rfl, fun hne => absurd hk hne⟩
  · rw [if_neg hk]
    exact ⟨rfl, rfl, fun _ => rfl⟩

theorem refresh_bytecode_iff {c : StoreCall} {now : ℕ} {existing row : SourceClassRow} :
    (c.refresh now existing row).bytecodeB64 = c.bytecodeB64 ↔
      (c.bytecodeB64 = existing.bytecodeB64 → row.bytecodeB64 = c.bytecodeB64) := by
  unfold StoreCall.refresh
  dsimp only
  split
  · rename_i hsame
    exact ⟨fun h _ => h, fun h => h hsame⟩
  · rename_i hother
    exact iff_of_true rfl fun h => absurd h hother

def Found (db : Db) (c : StoreCall) (k : ℕ) (existing : SourceClassRow) : Prop :=
  (∃ row, (k, row) ∈ db.sourceClasses.rows ∧ row.projectId = existing.projectId ∧
      row.className = c.className) ∧
    (c.projectId = none ∨ existing.projectId = c.projectId) ∧
    (c.projectId = none → ∀ r ∈ db.sourceClasses.rows, r.2.className = c.className → k ≤ r.1)

structure Kept (s : Stores) : Prop where
  tenant : PerTenant s
  found : ∀ i c k existing, s.pending i = some (c, some (k, existing)) → Found s.db c k existing

theorem find_found {c : StoreCall} {db : Db} {k : ℕ} {existing : SourceClassRow}
    (h : c.find db = some (k, existing)) : Found db c k existing := by
  obtain ⟨hmem, ⟨hname, hp⟩, hleast⟩ := find_iff.mp h
  refine ⟨⟨existing, hmem, rfl, hname⟩, hp, fun hnone r hr hclass => ?_⟩
  exact hleast r hr hclass (.inl hnone)

theorem Found.write_none {db : Db} {c c' : StoreCall} {now k : ℕ} {existing : SourceClassRow}
    (h : Found db c k existing) : Found (c'.write now none db) c k existing := by
  obtain ⟨⟨row, hrow, hsame⟩, hp, hleast⟩ := h
  refine ⟨⟨row, mem_write_none.mpr (.inl hrow), hsame⟩, hp, fun hnone r hr hclass => ?_⟩
  rcases mem_write_none.mp hr with hold | rfl
  · exact hleast hnone r hold hclass
  · exact Nat.le_of_lt (db.sourceClasses.lt_nextKey hrow)

theorem Found.write_some {db : Db} {c c' : StoreCall} {now k k' : ℕ} {existing existing' : SourceClassRow}
    (h : Found db c k existing) : Found (c'.write now (some (k', existing')) db) c k existing := by
  obtain ⟨⟨row, hrow, hproject, hname⟩, hp, hleast⟩ := h
  obtain ⟨row', hrow', hproject', hname', -⟩ := mem_write_some_new c' now k' existing' hrow
  refine ⟨⟨row', hrow', hproject'.trans hproject, hname'.trans hname⟩, hp, fun hnone r hr hclass => ?_⟩
  obtain ⟨old, hold, -, hclass'⟩ := mem_write_some_old hr
  exact hleast hnone (r.1, old) hold (hclass'.trans hclass)

theorem Found.write {db : Db} {c c' : StoreCall} {now k : ℕ} {existing : SourceClassRow}
    {found : Option (ℕ × SourceClassRow)} (h : Found db c k existing) :
    Found (c'.write now found db) c k existing := by
  cases found with
  | none => exact h.write_none
  | some r => exact h.write_some

theorem Reads.write_none {db : Db} {c : StoreCall} {now : ℕ} {p : Option String} {name b : String}
    (h : Reads db p name b) : Reads (c.write now none db) p name b := by
  obtain ⟨r, hr, hp, hname, hb, hleast⟩ := reads_iff.mp h
  refine reads_iff.mpr ⟨r, mem_write_none.mpr (.inl hr), hp, hname, hb, fun r' hr' hclass htenant => ?_⟩
  rcases mem_write_none.mp hr' with hold | rfl
  · exact hleast r' hold hclass htenant
  · exact Nat.le_of_lt (db.sourceClasses.lt_nextKey hr)

theorem Reads.write_some {db : Db} {c : StoreCall} {now k : ℕ} {existing row : SourceClassRow}
    {p : Option String} {name b : String} (h : Reads db p name b) (hrow : (k, row) ∈ db.sourceClasses.rows)
    (hother : row.projectId ≠ p ∨ row.className ≠ name) :
    Reads (c.write now (some (k, existing)) db) p name b := by
  obtain ⟨r, hr, hp, hname, hb, hleast⟩ := reads_iff.mp h
  have hkey : r.1 ≠ k := by
    rintro rfl
    cases db.sourceClasses.key_unique hr hrow
    rcases hother with hproject | hclass
    · exact hproject hp
    · exact hclass hname
  obtain ⟨row', hrow', -, -, hsame⟩ := mem_write_some_new c now k existing hr
  have heq : row' = r.2 := hsame hkey
  subst heq
  refine reads_iff.mpr ⟨r, hrow', hp, hname, hb, fun r' hr' hclass htenant => ?_⟩
  obtain ⟨old, hold, hproject, hclass'⟩ := mem_write_some_old hr'
  apply hleast (r'.1, old) hold (hclass'.trans hclass)
  rwa [hproject]

theorem record_cases {c : StoreCall} {stored : Option String → String → Option String} {p : Option String}
    {name b : String} (h : record c stored p name = some b) :
    (p = c.projectId ∧ name = c.className ∧ b = c.bytecodeB64) ∨
      ((c.projectId ≠ p ∨ c.className ≠ name) ∧ stored p name = some b) := by
  unfold record at h
  split at h
  · rename_i hsame
    cases h
    exact .inl ⟨hsame.1, hsame.2, rfl⟩
  · rename_i hother
    refine .inr ⟨?_, h⟩
    by_contra hsame
    simp only [not_or, not_not] at hsame
    exact hother ⟨hsame.1.symm, hsame.2.symm⟩

section Insert

variable {db : Db} {c : StoreCall} {now : ℕ} {stored : Option String → String → Option String}

theorem insert_perTenant (hone : OnePerTenant db.sourceClasses)
    (hreads : ∀ p name b, stored p name = some b → Reads db p name b) (habsent : Absent c db) :
    OnePerTenant (c.write now none db).sourceClasses ∧
      ∀ p name b, record c stored p name = some b → Reads (c.write now none db) p name b := by
  constructor
  · intro r hr r' hr' hproject hclass
    rcases mem_write_none.mp hr with hold | rfl
    · rcases mem_write_none.mp hr' with hold' | rfl
      · exact hone r hold r' hold' hproject hclass
      · exact absurd hproject (habsent r hold hclass).1
    · rcases mem_write_none.mp hr' with hold' | rfl
      · exact absurd hproject.symm (habsent r' hold' hclass.symm).1
      · rfl
  · intro p name b hb
    rcases record_cases hb with ⟨rfl, rfl, rfl⟩ | ⟨-, hold⟩
    · refine reads_iff.mpr ⟨_, mem_write_none.mpr (.inr rfl), rfl, rfl, rfl, fun r hr hclass htenant => ?_⟩
      rcases mem_write_none.mp hr with hold | rfl
      · rcases htenant with hnone | hproject
        · exact absurd hnone (habsent r hold hclass).2
        · exact absurd hproject (habsent r hold hclass).1
      · exact Nat.le_refl _
    · exact (hreads p name b hold).write_none

theorem insert_storesOwn : StoresOwn c db (c.write now none db) := by
  refine ⟨Table.agree_insert _ ?_, _, mem_write_none.mpr (.inr rfl), rfl, rfl, rfl⟩
  simp [owned]

theorem absent_of_insert (hone : OnePerTenant (c.write now none db).sourceClasses)
    (hreads : Reads (c.write now none db) c.projectId c.className c.bytecodeB64) : Absent c db := by
  have hown (r : ℕ × SourceClassRow) (hr : r ∈ db.sourceClasses.rows) (hclass : r.2.className = c.className) :
      r.2.projectId ≠ c.projectId := by
    intro hproject
    have heq := hone r (mem_write_none.mpr (.inl hr)) _ (mem_write_none.mpr (.inr rfl)) hproject hclass
    have hlt := db.sourceClasses.lt_nextKey hr
    rw [heq] at hlt
    exact absurd hlt (Nat.lt_irrefl _)
  refine fun r hr hclass => ⟨hown r hr hclass, fun hnone => ?_⟩
  obtain ⟨first, hfirst, hp, hname, -, hleast⟩ := reads_iff.mp hreads
  rcases mem_write_none.mp hfirst with hold | rfl
  · exact hown first hold hname hp
  · have hle := hleast r (mem_write_none.mpr (.inl hr)) hclass (.inl hnone)
    have hlt := db.sourceClasses.lt_nextKey hr
    exact absurd hle (Nat.not_le_of_lt hlt)

end Insert

section Update

variable {db : Db} {c : StoreCall} {now k : ℕ} {existing : SourceClassRow}
  {stored : Option String → String → Option String}

theorem update_one (hone : OnePerTenant db.sourceClasses) :
    OnePerTenant (c.write now (some (k, existing)) db).sourceClasses := by
  rintro ⟨key, v⟩ hr ⟨key', v'⟩ hr' hproject hclass
  obtain ⟨row, hrow, hv⟩ := mem_write_some.mp hr
  obtain ⟨row', hrow', hv'⟩ := mem_write_some.mp hr'
  obtain ⟨old, hold, hp, hname⟩ := mem_write_some_old hr
  obtain ⟨old', hold', hp', hname'⟩ := mem_write_some_old hr'
  have hsame := hone _ hold _ hold' (hp.trans (hproject.trans hp'.symm)) (hname.trans (hclass.trans hname'.symm))
  have hkey : key = key' := congrArg Prod.fst hsame
  subst hkey
  cases db.sourceClasses.key_unique hrow hrow'
  exact Prod.ext rfl (hv.trans hv'.symm)

theorem update_perTenant (hone : OnePerTenant db.sourceClasses)
    (hreads : ∀ p name b, stored p name = some b → Reads db p name b) (hfound : Found db c k existing)
    (hown : Own c k existing db) :
    ∀ p name b, record c stored p name = some b → Reads (c.write now (some (k, existing)) db) p name b := by
  obtain ⟨⟨row, hrow, hproject, hname⟩, -, hleast⟩ := hfound
  have hp : row.projectId = c.projectId := hproject.trans hown.1
  intro p name b hb
  rcases record_cases hb with ⟨rfl, rfl, rfl⟩ | ⟨hother, hold⟩
  · refine reads_iff.mpr ⟨(k, c.refresh now existing row), mem_write_some.mpr ⟨row, hrow, (if_pos rfl).symm⟩,
      hp, hname, ?_, fun r hr hclass htenant => ?_⟩
    · apply refresh_bytecode_iff.mpr
      intro hsame
      exact hown.2 hsame row hrow
    · obtain ⟨old, hold, hpold, hnameold⟩ := mem_write_some_old hr
      have hclassold : old.className = c.className := hnameold.trans hclass
      rcases htenant with hnone | htenant
      · exact hleast hnone (r.1, old) hold hclassold
      · have hsame := hone _ hrow _ hold (hp.trans (hpold.trans htenant).symm) (hname.trans hclassold.symm)
        have hkey : k = r.1 := congrArg Prod.fst hsame
        exact Nat.le_of_eq hkey
  · apply (hreads p name b hold).write_some hrow
    rwa [hp, hname]

theorem update_storesOwn (hfound : Found db c k existing) (hown : Own c k existing db) :
    StoresOwn c db (c.write now (some (k, existing)) db) := by
  obtain ⟨⟨row, hrow, hproject, hname⟩, -, -⟩ := hfound
  have hp : row.projectId = c.projectId := hproject.trans hown.1
  constructor
  · simp only [StoreCall.write]
    apply Table.agree_mapRows
    rintro ⟨k', row'⟩ hrow'
    by_cases hk : k' = k
    · subst hk
      cases db.sourceClasses.key_unique hrow' hrow
      right
      simp [owned, hp, StoreCall.refresh]
    · left
      exact if_neg hk
  · refine ⟨(k, c.refresh now existing row), mem_write_some.mpr ⟨row, hrow, (if_pos rfl).symm⟩, hp, hname, ?_⟩
    apply refresh_bytecode_iff.mpr
    intro hsame
    exact hown.2 hsame row hrow

theorem own_of_update (hfound : Found db c k existing)
    (hone : OnePerTenant (c.write now (some (k, existing)) db).sourceClasses)
    (hreads : Reads (c.write now (some (k, existing)) db) c.projectId c.className c.bytecodeB64) :
    Own c k existing db := by
  obtain ⟨⟨row, hrow, hproject, hname⟩, htenant, hleast⟩ := hfound
  obtain ⟨first, hfirst, hp, hclass, hb, hfirstleast⟩ := reads_iff.mp hreads
  have hnew : (k, c.refresh now existing row) ∈ (c.write now (some (k, existing)) db).sourceClasses.rows :=
    mem_write_some.mpr ⟨row, hrow, (if_pos rfl).symm⟩
  have hkey : c.projectId = none → first.1 = k := by
    intro hnone
    obtain ⟨old, hold, -, hnameold⟩ := mem_write_some_old hfirst
    apply Nat.le_antisymm
    · exact hfirstleast _ hnew hname (.inl hnone)
    · exact hleast hnone (first.1, old) hold (hnameold.trans hclass)
  have hown : existing.projectId = c.projectId := by
    rcases htenant with hnone | hown
    · obtain ⟨old, hold, hpold, -⟩ := mem_write_some_old hfirst
      rw [hkey hnone] at hold
      cases db.sourceClasses.key_unique hold hrow
      exact hproject.symm.trans (hpold.trans hp)
    · exact hown
  refine ⟨hown, fun hsame row' hrow' => ?_⟩
  cases db.sourceClasses.key_unique hrow' hrow
  have heq := hone _ hfirst _ hnew (hp.trans (hproject.trans hown).symm) (hclass.trans hname.symm)
  rw [heq] at hb
  exact refresh_bytecode_iff.mp hb hsame

end Update

theorem commit_inv {s t : Stores} {i now : ℕ} (h : storeStep s (.commit i now) = some t) :
    ∃ c found, s.pending i = some (c, found) ∧
      t = ⟨c.write now found s.db, Function.update s.pending i none, record c s.stored⟩ := by
  simp only [storeStep] at h
  split at h
  · cases h
  · rename_i c found hi
    cases h
    exact ⟨c, found, hi, rfl⟩

theorem call_inv {s t : Stores} {i : ℕ} {c : StoreCall} (h : storeStep s (.call i c) = some t) :
    t = s ∨ t = { s with pending := Function.update s.pending i (some (c, c.find s.db)) } := by
  simp only [storeStep] at h
  split at h
  · cases h
  · split at h
    · cases h
      exact .inl rfl
    · cases h
      exact .inr rfl

theorem mapStep_of_commit {s : Stores} {i now : ℕ} {c : StoreCall} {found : Option (ℕ × SourceClassRow)}
    (hi : s.pending i = some (c, found))
    (htenant : OnePerTenant (c.write now found s.db).sourceClasses ∧
      ∀ p name b, record c s.stored p name = some b → Reads (c.write now found s.db) p name b)
    (hown : StoresOwn c s.db (c.write now found s.db)) : MapStep s (.commit i now) := by
  intro t ht
  obtain ⟨c', found', hi', rfl⟩ := commit_inv ht
  rw [hi] at hi'
  cases hi'
  refine ⟨htenant, fun j now' c' found' ha hj => ?_⟩
  cases ha
  rw [hi] at hj
  cases hj
  exact hown

theorem commit_iff {s : Stores} (hs : Kept s) {i now : ℕ} :
    MapStep s (.commit i now) ↔ Undisturbed s (.commit i now) := by
  constructor
  · intro h c
    have hafter (found : Option (ℕ × SourceClassRow)) (hi : s.pending i = some (c, found)) :
        OnePerTenant (c.write now found s.db).sourceClasses ∧
          Reads (c.write now found s.db) c.projectId c.className c.bytecodeB64 := by
      have ht : storeStep s (.commit i now) =
          some ⟨c.write now found s.db, Function.update s.pending i none, record c s.stored⟩ := by
        simp only [storeStep, hi]
      obtain ⟨⟨hone, hreads⟩, -⟩ := h _ ht
      exact ⟨hone, hreads _ _ _ (if_pos ⟨rfl, rfl⟩)⟩
    constructor
    · intro hi
      exact absent_of_insert (hafter none hi).1 (hafter none hi).2
    · intro k existing hi
      exact own_of_update (hs.found i c k existing hi) (hafter _ hi).1 (hafter _ hi).2
  · intro h
    cases hi : s.pending i with
    | none =>
      intro t ht
      obtain ⟨c, found, hi', -⟩ := commit_inv ht
      rw [hi] at hi'
      cases hi'
    | some call =>
      obtain ⟨c, _ | ⟨k, existing⟩⟩ := call
      · exact mapStep_of_commit hi (insert_perTenant hs.tenant.1 hs.tenant.2 ((h c).1 hi)) insert_storesOwn
      · have hfound := hs.found i c k existing hi
        have hown := (h c).2 k existing hi
        exact mapStep_of_commit hi
          ⟨update_one hs.tenant.1, update_perTenant hs.tenant.1 hs.tenant.2 hfound hown⟩
          (update_storesOwn hfound hown)

theorem Kept.step {s t : Stores} {a : StoreStep} (hs : Kept s) (hmap : MapStep s a)
    (h : storeStep s a = some t) : Kept t := by
  refine ⟨(hmap t h).1, fun j c k existing hj => ?_⟩
  cases a with
  | call i c' =>
    rcases call_inv h with rfl | rfl
    · exact hs.found j c k existing hj
    · by_cases hij : j = i
      · subst hij
        simp only [Function.update_self, Option.some.injEq, Prod.mk.injEq] at hj
        obtain ⟨rfl, hfind⟩ := hj
        exact find_found hfind
      · simp only [Function.update_of_ne hij] at hj
        exact hs.found j c k existing hj
  | commit i now =>
    obtain ⟨c', found, -, rfl⟩ := commit_inv h
    by_cases hij : j = i
    · subst hij
      simp only [Function.update_self] at hj
      cases hj
    · simp only [Function.update_of_ne hij] at hj
      exact (hs.found j c k existing hj).write

theorem step_iff {s : Stores} (hs : Kept s) (a : StoreStep) : MapStep s a ↔ Undisturbed s a := by
  cases a with
  | call i c =>
    refine iff_of_true (fun t ht => ⟨?_, fun j now c' found ha => (by cases ha)⟩) trivial
    rcases call_inv ht with rfl | rfl
    · exact hs.tenant
    · exact hs.tenant
  | commit i now => exact commit_iff hs

theorem start_kept {db : Db} (h : OnePerTenant db.sourceClasses) : Kept (.start db) := by
  refine ⟨⟨h, fun p name b hb => ?_⟩, fun i c k existing hi => ?_⟩
  · cases hb
  · cases hi

/-- The calls of a run keep one row per tenant and class, each with what its tenant has
stored last, exactly when no commit is disturbed. -/
theorem per_tenant_map_iff {db : Db} (h : OnePerTenant db.sourceClasses) (steps : List StoreStep) :
    AllSteps storeStep MapStep (.start db) steps ↔ AllSteps storeStep Undisturbed (.start db) steps :=
  allSteps_congr (I := Kept) (fun _ _ _ hs hmap ht => hs.step hmap ht) (fun _ a hs => step_iff hs a) (start_kept h) steps

def upload (p : Option String) (b : String) : StoreCall := ⟨p, "com/acme/A", b⟩

theorem two_tenants_kept :
    AllSteps storeStep MapStep (.start Db.empty)
      [.call 0 (upload (some "a") "x"), .call 1 (upload (some "b") "y"), .commit 0 1, .commit 1 1] := by
  refine (per_tenant_map_iff (fun r hr => (by cases hr)) _).mpr ⟨trivial, fun s hs => ⟨trivial, fun t ht => ?_⟩⟩
  cases hs
  cases ht
  refine ⟨fun c => ⟨fun hc r hr => ?_, fun k existing hc => ?_⟩, fun u hu => ⟨fun c => ⟨fun hc r hr hclass => ?_,
    fun k existing hc => ?_⟩, fun _ _ => trivial⟩⟩
  · cases hr
  · cases hc
  · cases hu
    cases hc
    cases hr with
    | head => exact ⟨by decide, by decide⟩
    | tail _ hr => cases hr
  · cases hu
    cases hc

theorem duplicate_and_overwritten :
    (∃ t, run storeStep (.start Db.empty)
        [.call 0 (upload (some "a") "x"), .call 1 (upload (some "a") "x"), .commit 0 1, .commit 1 1] = some t ∧
      ¬ OnePerTenant t.db.sourceClasses) ∧
    ∃ t, run storeStep (.start Db.empty)
        [.call 0 (upload (some "a") "x"), .commit 0 1, .call 1 (upload none "y"), .commit 1 2] = some t ∧
      t.stored (some "a") "com/acme/A" = some "x" ∧ getSourceClass "com/acme/A" (some "a") t.db = some "y" := by
  refine ⟨⟨_, rfl, fun hone => ?_⟩, _, rfl, rfl, rfl⟩
  have hsame := hone _ List.mem_cons_self _ (List.mem_cons_of_mem _ List.mem_cons_self) rfl rfl
  cases hsame

end JvmScout.Storage.SourceClassStores
