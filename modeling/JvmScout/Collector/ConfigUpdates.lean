import JvmScout.Collector.Routes
import JvmScout.Lib.Runs

/-!
Two calls of `update_config` on the event loop. Each call selects its row, merges its
patch into the document it has read, and commits an UPDATE of that document; the
other call can run between any two of these steps.
-/

namespace JvmScout.Storage

open Relational Runs

inductive Side where
  | one
  | two
deriving DecidableEq

def Side.other : Side → Side
  | .one => .two
  | .two => .one

structure UpdateCall where
  table : String
  entityId : String
  patch : Dict
  projectId : Option String
  allProjects : Bool

def UpdateCall.find (c : UpdateCall) (db : Db) : Option (ℕ × ConfigEntityRow) :=
  findConfig c.table c.entityId c.projectId c.allProjects db

/-- Where a call stands. `staleRow` is what the session raises when the row is gone at
the commit. -/
inductive Progress where
  | called
  | selected (k : ℕ) (row : ConfigEntityRow)
  | merged (k : ℕ) (row : ConfigEntityRow) (data : Dict)
  | notFound
  | staleRow
  | returned (out : Dict)

structure Updates where
  db : Db
  progress : Side → Progress

def Updates.start (db : Db) : Updates := ⟨db, fun _ => .called⟩

def Updates.moveTo (s : Updates) (i : Side) (p : Progress) : Updates :=
  { s with progress := Function.update s.progress i p }

def setJsonData (k : ℕ) (data : Dict) (db : Db) : Db :=
  { db with
    configEntities := db.configEntities.mapRows fun k' row =>
      if k' = k then { row with jsonData := data } else row }

inductive UpdateStep where
  | select (i : Side)
  | merge (i : Side)
  | commit (i : Side)

variable (calls : Side → UpdateCall)

def selectRow (i : Side) (s : Updates) : Option Updates :=
  match s.progress i with
  | .called =>
    match (calls i).find s.db with
    | none => some (s.moveTo i .notFound)
    | some (k, row) => some (s.moveTo i (.selected k row))
  | _ => none

def mergePatch (i : Side) (s : Updates) : Option Updates :=
  match s.progress i with
  | .selected k row => some (s.moveTo i (.merged k row (Dict.merge row.jsonData (calls i).patch payloadKey)))
  | _ => none

def commitUpdate (i : Side) (s : Updates) : Option Updates :=
  match s.progress i with
  | .merged k row data =>
    let done := s.moveTo i (.returned (configToDict { row with jsonData := data }))
    -- the session emits no UPDATE for a column whose value has not changed
    if data = row.jsonData then some done
    else
      match s.db.configEntities.lookup k with
      | none => some (s.moveTo i .staleRow)
      | some _ => some { done with db := setJsonData k data s.db }
  | _ => none

def updateStep (s : Updates) : UpdateStep → Option Updates
  | .select i => selectRow calls i s
  | .merge i => mergePatch calls i s
  | .commit i => commitUpdate i s

def writtenValue (patch : Dict) (key : String) : Option Json :=
  Dict.get? (Dict.merge [] patch payloadKey) key

def Carries (data patch : Dict) : Prop := ∀ key v, writtenValue patch key = some v → Dict.get? data key = some v

def DisjointKeys (p q : Dict) : Prop := ∀ key, writtenValue p key = none ∨ writtenValue q key = none

theorem get?_merged (data patch : Dict) (key : String) :
    Dict.get? (Dict.merge data patch payloadKey) key = (writtenValue patch key).or (Dict.get? data key) :=
  Dict.get?_merge data patch payloadKey key

theorem carries_merged (data patch : Dict) : Carries (Dict.merge data patch payloadKey) patch := by
  intro key v hv
  rw [get?_merged, hv, Option.some_or]

theorem merged_eq_iff {data patch : Dict} : Dict.merge data patch payloadKey = data ↔ Carries data patch := by
  constructor
  · intro h
    rw [← h]
    exact carries_merged data patch
  · intro h
    exact Dict.merge_eq_self h

theorem carries_merged_disjoint {p q data : Dict} (hd : DisjointKeys p q) :
    Carries (Dict.merge data q payloadKey) p ↔ Carries data p := by
  have hkey {key : String} {v : Json} (hv : writtenValue p key = some v) :
      Dict.get? (Dict.merge data q payloadKey) key = Dict.get? data key := by
    rcases hd key with hp | hq
    · rw [hp] at hv
      cases hv
    · rw [get?_merged, hq, Option.none_or]
  constructor
  · intro h key v hv
    rw [← hkey hv]
    exact h key v hv
  · intro h key v hv
    rw [hkey hv]
    exact h key v hv

theorem DisjointKeys.symm {p q : Dict} (h : DisjointKeys p q) : DisjointKeys q p := fun key => (h key).symm

theorem find_setJsonData {c : UpdateCall} {db : Db} {k : ℕ} {row : ConfigEntityRow} (data : Dict)
    (h : c.find db = some (k, row)) :
    c.find (setJsonData k data db) = some (k, { row with jsonData := data }) := by
  have hclause (r : ℕ × ConfigEntityRow) :
      (configClause c.table c.projectId c.allProjects
          (if r.1 = k then { r.2 with jsonData := data } else r.2) &&
        (if r.1 = k then { r.2 with jsonData := data } else r.2).entityId == c.entityId) =
      (configClause c.table c.projectId c.allProjects r.2 && r.2.entityId == c.entityId) := by
    split <;> rfl
  unfold UpdateCall.find findConfig at h ⊢
  simp only [setJsonData, Table.rows_mapRows, List.find?_map, Function.comp_def, hclause, h,
    Option.map_some, if_true]

def ReadBy (s : Updates) (row : ConfigEntityRow) (i : Side) (read : ConfigEntityRow) : Prop :=
  read.jsonData = row.jsonData ∨
    (∃ out, s.progress i.other = .returned out) ∧
      row.jsonData = Dict.merge read.jsonData (calls i.other).patch payloadKey

structure Kept (k : ℕ) (row : ConfigEntityRow) (s : Updates) : Prop where
  found : ∀ i, (calls i).find s.db = some (k, row)
  carried : ∀ i out, s.progress i = .returned out → Carries row.jsonData (calls i).patch
  selected : ∀ i k' read, s.progress i = .selected k' read → k' = k ∧ ReadBy calls s row i read
  merged : ∀ i k' read data, s.progress i = .merged k' read data →
    k' = k ∧ data = Dict.merge read.jsonData (calls i).patch payloadKey ∧ ReadBy calls s row i read

def Lost (k : ℕ) (s : Updates) : Prop :=
  (∀ i, ∃ out, s.progress i = .returned out) ∧
    ∃ row i, (∀ j, (calls j).find s.db = some (k, row)) ∧ ¬ Carries row.jsonData (calls i).patch

def Unchanged (s : Updates) (l : UpdateStep) : Prop :=
  ∀ i, l = .commit i → ∀ k read data, s.progress i = .merged k read data →
    data = read.jsonData ∨ ∃ row, s.db.configEntities.lookup k = some row ∧ row.jsonData = read.jsonData

variable {calls} {k : ℕ} {row : ConfigEntityRow} {s t : Updates} {i j : Side}

theorem Side.eq_or_other (i j : Side) : j = i ∨ j = i.other := by
  cases i <;> cases j <;> simp [Side.other]

theorem Side.other_ne (i : Side) : i.other ≠ i := by
  cases i <;> simp [Side.other]

theorem Side.other_other (i : Side) : i.other.other = i := by
  cases i <;> rfl

@[simp] theorem Updates.progress_moveTo (s : Updates) (i : Side) (p : Progress) :
    (s.moveTo i p).progress i = p := by
  simp [Updates.moveTo]

@[simp] theorem Updates.progress_moveTo_other (s : Updates) (i : Side) (p : Progress) :
    (s.moveTo i p).progress i.other = s.progress i.other := by
  simp [Updates.moveTo, Function.update_of_ne i.other_ne]

theorem lookup_of_find {c : UpdateCall} {db : Db} (h : c.find db = some (k, row)) :
    db.configEntities.lookup k = some row :=
  db.configEntities.lookup_eq_some.mpr (findConfig_eq_some h).1

theorem setJsonData_eq_set {db : Db} (data : Dict) (h : (k, row) ∈ db.configEntities.rows) :
    setJsonData k data db =
      { db with configEntities := db.configEntities.set k { row with jsonData := data } } := by
  have hrows : (db.configEntities.mapRows fun k' row' =>
      if k' = k then { row' with jsonData := data } else row') =
      db.configEntities.set k { row with jsonData := data } := by
    apply Table.ext
    simp only [Table.set, Table.rows_mapRows]
    apply List.map_congr_left
    rintro ⟨k', row'⟩ hr
    by_cases hk : k' = k
    · subst hk
      rw [db.configEntities.key_unique hr h]
    · simp [hk]
  rw [setJsonData, hrows]

theorem setJsonData_self {db : Db} (h : (k, row) ∈ db.configEntities.rows) :
    setJsonData k row.jsonData db = db := by
  have hset : db.configEntities.set k row = db.configEntities := db.configEntities.set_self h
  rw [setJsonData_eq_set row.jsonData h, hset]

theorem run_uninterrupted (i : Side) (db : Db) :
    (run (updateStep calls) (.start db) [.select i, .merge i, .commit i]).map Updates.db =
      (updateConfig (calls i).table (calls i).entityId (calls i).patch (calls i).projectId
        (calls i).allProjects db).map Prod.fst := by
  have hfind : findConfig (calls i).table (calls i).entityId (calls i).projectId (calls i).allProjects db =
    (calls i).find db := rfl
  unfold updateConfig
  rw [hfind]
  cases hf : (calls i).find db with
  | none => simp [run, updateStep, selectRow, mergePatch, Updates.start, Updates.moveTo, hf]
  | some r =>
    obtain ⟨k, row⟩ := r
    have hrow := (findConfig_eq_some hf).1
    simp only [run, updateStep, selectRow, mergePatch, commitUpdate, Updates.start, Updates.moveTo, hf,
      Function.update_self, Option.bind_some, (Table.lookup_eq_some _).mpr hrow, patched]
    split
    · rename_i hsame
      rw [hsame]
      simp only [Option.bind_some, Option.map_some, ← setJsonData_eq_set row.jsonData hrow,
        setJsonData_self hrow]
    · simp only [Option.bind_some, Option.map_some, setJsonData_eq_set _ hrow]

theorem ReadBy.moveTo {read : ConfigEntityRow} {p : Progress} (h : ReadBy calls s row j read)
    (hp : ∀ out, s.progress i ≠ .returned out) : ReadBy calls (s.moveTo i p) row j read := by
  refine h.imp id ?_
  rintro ⟨⟨out, hout⟩, hdata⟩
  refine ⟨⟨out, ?_⟩, hdata⟩
  rcases i.eq_or_other j.other with heq | heq
  · rw [heq] at hout
    exact absurd hout (hp out)
  · rw [heq] at hout ⊢
    rw [s.progress_moveTo_other, hout]

theorem Kept.start {db : Db} (h : ∀ i, (calls i).find db = some (k, row)) : Kept calls k row (.start db) :=
  ⟨h, by simp [Updates.start], by simp [Updates.start], by simp [Updates.start]⟩

theorem Kept.moveTo {p : Progress} (h : Kept calls k row s) (hno : ∀ out, s.progress i ≠ .returned out)
    (hreturned : ∀ out, p ≠ .returned out)
    (hselected : ∀ k' read, p = .selected k' read → k' = k ∧ ReadBy calls s row i read)
    (hmerged : ∀ k' read data, p = .merged k' read data →
      k' = k ∧ data = Dict.merge read.jsonData (calls i).patch payloadKey ∧ ReadBy calls s row i read) :
    Kept calls k row (s.moveTo i p) := by
  refine ⟨h.found, fun j out hj => ?_, fun j k' read hj => ?_, fun j k' read data hj => ?_⟩
  · rcases i.eq_or_other j with rfl | rfl
    · rw [s.progress_moveTo] at hj
      exact absurd hj (hreturned out)
    · rw [s.progress_moveTo_other] at hj
      exact h.carried _ out hj
  · rcases i.eq_or_other j with rfl | rfl
    · rw [s.progress_moveTo] at hj
      obtain ⟨hk, hread⟩ := hselected k' read hj
      exact ⟨hk, hread.moveTo hno⟩
    · rw [s.progress_moveTo_other] at hj
      obtain ⟨hk, hread⟩ := h.selected _ k' read hj
      exact ⟨hk, hread.moveTo hno⟩
  · rcases i.eq_or_other j with rfl | rfl
    · rw [s.progress_moveTo] at hj
      obtain ⟨hk, hdata, hread⟩ := hmerged k' read data hj
      exact ⟨hk, hdata, hread.moveTo hno⟩
    · rw [s.progress_moveTo_other] at hj
      obtain ⟨hk, hdata, hread⟩ := h.merged _ k' read data hj
      exact ⟨hk, hdata, hread.moveTo hno⟩

theorem Kept.select (h : Kept calls k row s) (hs : selectRow calls i s = some t) : Kept calls k row t := by
  unfold selectRow at hs
  split at hs
  · rename_i hcalled
    rw [h.found i] at hs
    cases hs
    apply h.moveTo
    · simp [hcalled]
    · nofun
    · rintro _ _ ⟨⟩
      exact ⟨rfl, .inl rfl⟩
    · nofun
  · cases hs

theorem Kept.merge (h : Kept calls k row s) (hs : mergePatch calls i s = some t) : Kept calls k row t := by
  unfold mergePatch at hs
  split at hs
  · rename_i k₀ read₀ hselected
    cases hs
    apply h.moveTo
    · simp [hselected]
    · nofun
    · nofun
    · rintro _ _ _ ⟨⟩
      obtain ⟨hk, hread⟩ := h.selected _ k₀ read₀ hselected
      exact ⟨hk, rfl, hread⟩
  · cases hs

theorem Kept.returned {row' : ConfigEntityRow} {out : Dict} (h : Kept calls k row s)
    (hfound : ∀ j, (calls j).find t.db = some (k, row')) (hself : t.progress i = .returned out)
    (hother : t.progress i.other = s.progress i.other) (hcarries : Carries row'.jsonData (calls i).patch)
    (hcarried : Carries row.jsonData (calls i.other).patch → Carries row'.jsonData (calls i.other).patch)
    (hread : ∀ read, ReadBy calls s row i.other read → ReadBy calls t row' i.other read) :
    Kept calls k row' t := by
  refine ⟨hfound, fun j out' hj => ?_, fun j k' read hj => ?_, fun j k' read data hj => ?_⟩
  · rcases i.eq_or_other j with rfl | rfl
    · exact hcarries
    · rw [hother] at hj
      exact hcarried (h.carried _ out' hj)
  · rcases i.eq_or_other j with rfl | rfl
    · rw [hself] at hj
      cases hj
    · rw [hother] at hj
      obtain ⟨hk, hread'⟩ := h.selected _ k' read hj
      exact ⟨hk, hread read hread'⟩
  · rcases i.eq_or_other j with rfl | rfl
    · rw [hself] at hj
      cases hj
    · rw [hother] at hj
      obtain ⟨hk, hdata, hread'⟩ := h.merged _ k' read data hj
      exact ⟨hk, hdata, hread read hread'⟩

theorem commitUpdate_cases (h : Kept calls k row s) (hs : commitUpdate i s = some t) :
    ∃ read out, ReadBy calls s row i read ∧ t.progress = (s.moveTo i (.returned out)).progress ∧
      s.progress i = .merged k read (Dict.merge read.jsonData (calls i).patch payloadKey) ∧
      ((Carries read.jsonData (calls i).patch ∧ t.db = s.db) ∨
        (¬ Carries read.jsonData (calls i).patch ∧
          t.db = setJsonData k (Dict.merge read.jsonData (calls i).patch payloadKey) s.db)) := by
  unfold commitUpdate at hs
  split at hs
  · rename_i k₀ read data hmerged
    obtain ⟨rfl, rfl, hread⟩ := h.merged i _ read _ hmerged
    dsimp only at hs
    split at hs
    · rename_i hsame
      cases hs
      exact ⟨read, _, hread, rfl, hmerged, .inl ⟨merged_eq_iff.mp hsame, rfl⟩⟩
    · rename_i hchanged
      rw [lookup_of_find (h.found i)] at hs
      cases hs
      exact ⟨read, _, hread, rfl, hmerged, .inr ⟨fun hc => hchanged (merged_eq_iff.mpr hc), rfl⟩⟩
  · cases hs

section Commit

variable (hd : DisjointKeys (calls .one).patch (calls .two).patch)
include hd

theorem disjoint_other (i : Side) : DisjointKeys (calls i).patch (calls i.other).patch := by
  cases i with
  | one => exact hd
  | two => exact hd.symm

theorem ReadBy.carries {read : ConfigEntityRow} (h : ReadBy calls s row i read) :
    Carries row.jsonData (calls i).patch ↔ Carries read.jsonData (calls i).patch := by
  rcases h with heq | ⟨-, hdata⟩
  · rw [heq]
  · rw [hdata]
    exact carries_merged_disjoint (disjoint_other hd i)

theorem Kept.commit (h : Kept calls k row s) (hu : Unchanged s (.commit i))
    (hs : commitUpdate i s = some t) : ∃ row', Kept calls k row' t := by
  obtain ⟨read, out, hread, hprogress, hmerged, hdone⟩ := commitUpdate_cases h hs
  have hself : t.progress i = .returned out := by rw [hprogress, s.progress_moveTo]
  have hother : t.progress i.other = s.progress i.other := by rw [hprogress, s.progress_moveTo_other]
  have hearlier (read' : ConfigEntityRow) (h' : ReadBy calls s row i.other read') :
      read'.jsonData = row.jsonData := by
    rcases h' with heq | ⟨⟨out', hout⟩, -⟩
    · exact heq
    · rw [i.other_other, hmerged] at hout
      cases hout
  rcases hdone with ⟨hc, hdb⟩ | ⟨hc, hdb⟩
  · refine ⟨row, h.returned (fun j => ?_) hself hother ?_ id fun read' hread' => ?_⟩
    · rw [hdb, h.found j]
    · exact (hread.carries hd).mpr hc
    · exact .inl (hearlier read' hread')
  · -- the document that is written over is the one that was read
    have hsame : row.jsonData = read.jsonData := by
      rcases hu i rfl k read _ hmerged with hnone | ⟨row', hlookup, hsame⟩
      · exact absurd (merged_eq_iff.mp hnone) hc
      · rw [lookup_of_find (h.found i)] at hlookup
        cases hlookup
        exact hsame
    refine ⟨{ row with jsonData := Dict.merge read.jsonData (calls i).patch payloadKey },
      h.returned (fun j => ?_) hself hother (carries_merged _ _) (fun hcarried => ?_) fun read' hread' => ?_⟩
    · rw [hdb, find_setJsonData _ (h.found j)]
    · rw [hsame] at hcarried
      exact (carries_merged_disjoint (disjoint_other hd i).symm).mpr hcarried
    · refine .inr ⟨⟨out, by rw [i.other_other, hself]⟩, ?_⟩
      rw [hearlier read' hread', i.other_other, hsame]

theorem Kept.lost (h : Kept calls k row s) (hu : ¬ Unchanged s (.commit i))
    (hs : commitUpdate i s = some t) : Lost calls k t := by
  obtain ⟨read, out, hread, hprogress, hmerged, hdone⟩ := commitUpdate_cases h hs
  have hlookup := lookup_of_find (h.found i)
  have hguard : ¬ (Dict.merge read.jsonData (calls i).patch payloadKey = read.jsonData ∨ row.jsonData = read.jsonData) := by
    intro hstands
    apply hu
    rintro j hj k' read' data hj'
    cases hj
    rw [hmerged] at hj'
    cases hj'
    exact hstands.imp id fun hsame => ⟨row, hlookup, hsame⟩
  obtain ⟨hchanged, hstale⟩ := not_or.mp hguard
  rcases hread with heq | ⟨⟨out', hout⟩, hdata⟩
  · exact absurd heq.symm hstale
  · rcases hdone with ⟨hc, -⟩ | ⟨-, hdb⟩
    · exact absurd (merged_eq_iff.mpr hc) hchanged
    · refine ⟨fun j => ?_, _, i.other, fun j => by rw [hdb, find_setJsonData _ (h.found j)], ?_⟩
      · rcases i.eq_or_other j with rfl | rfl
        · exact ⟨out, by rw [hprogress, s.progress_moveTo]⟩
        · exact ⟨out', by rw [hprogress, s.progress_moveTo_other, hout]⟩
      · -- the other call's patch is in the document that was written over only
        intro hc
        have hbefore := (carries_merged_disjoint (disjoint_other hd i).symm).mp hc
        rw [hdata, merged_eq_iff.mpr hbefore] at hstale
        exact hstale rfl

omit hd in
theorem Lost.stuck {l : UpdateStep} (h : Lost calls k s) (hs : updateStep calls s l = some t) :
    Lost calls k t := by
  cases l with
  | select i =>
    obtain ⟨out, hout⟩ := h.1 i
    simp [updateStep, selectRow, hout] at hs
  | merge i =>
    obtain ⟨out, hout⟩ := h.1 i
    simp [updateStep, mergePatch, hout] at hs
  | commit i =>
    obtain ⟨out, hout⟩ := h.1 i
    simp [updateStep, commitUpdate, hout] at hs

/-- Two calls that have returned have left both patches in their row exactly when each
of them committed over the document that it had selected, or had nothing to change. -/
theorem both_patches_kept_iff {db : Db} {steps : List UpdateStep} (hone : (calls .one).find db = some (k, row))
    (htwo : (calls .two).find db = some (k, row))
    (hr : run (updateStep calls) (.start db) steps = some t)
    (hreturned : ∀ i, ∃ out, t.progress i = .returned out) :
    (∃ row', t.db.configEntities.lookup k = some row' ∧
        ∀ i, Carries row'.jsonData (calls i).patch) ↔
      AllSteps (updateStep calls) Unchanged (.start db) steps := by
  have good (s : Updates) (l : UpdateStep) (u : Updates) (hs : ∃ row, Kept calls k row s)
      (hp : Unchanged s l) (hu : updateStep calls s l = some u) : ∃ row, Kept calls k row u := by
    obtain ⟨row, hkept⟩ := hs
    cases l with
    | select i => exact ⟨row, hkept.select hu⟩
    | merge i => exact ⟨row, hkept.merge hu⟩
    | commit i => exact hkept.commit hd hp hu
  have slip (s : Updates) (l : UpdateStep) (u : Updates) (hs : ∃ row, Kept calls k row s)
      (hp : ¬ Unchanged s l) (hu : updateStep calls s l = some u) : Lost calls k u := by
    obtain ⟨row, hkept⟩ := hs
    cases l with
    | select i => exact absurd (fun _ h => by cases h) hp
    | merge i => exact absurd (fun _ h => by cases h) hp
    | commit i => exact hkept.lost hd hp hu
  have hfound (i : Side) : (calls i).find db = some (k, row) := by
    cases i with
    | one => exact hone
    | two => exact htwo
  have hinit : ∃ row, Kept calls k row (.start db) := ⟨row, .start hfound⟩
  rcases run_dichotomy (fun s l _ u => good s l u) (fun s l _ u => slip s l u)
    (fun s _ _ u hs => hs.stuck) hinit hr with ⟨hsteps, row', hkept⟩ | ⟨hsteps, -, row', i, hrow, hlost⟩
  · refine iff_of_true ⟨row', lookup_of_find (hkept.found .one), fun i => ?_⟩ hsteps
    obtain ⟨out, hout⟩ := hreturned i
    exact hkept.carried i out hout
  · refine iff_of_false ?_ hsteps
    rintro ⟨row'', hlookup, hcarries⟩
    rw [lookup_of_find (hrow i)] at hlookup
    cases hlookup
    exact hlost (hcarries i)

end Commit

def oneToken : Db :=
  { Db.empty with
    configEntities := Table.empty.insert ⟨"api_tokens", "u1", some "acme", "2026-01-01T00:00:00Z",
      [("name", .str "ci"), ("revoked_at", .null)]⟩ }

def revokeAndRename : Side → UpdateCall
  | .one => ⟨"api_tokens", "u1", [("revoked_at", .str "2026-02-01T00:00:00Z")], some "acme", false⟩
  | .two => ⟨"api_tokens", "u1", [("name", .str "build")], some "acme", false⟩

def interleaved : List UpdateStep :=
  [.select .one, .select .two, .merge .one, .merge .two, .commit .one, .commit .two]

theorem revokeAndRename_disjoint :
    DisjointKeys (revokeAndRename .one).patch (revokeAndRename .two).patch := by
  intro key
  by_cases hkey : "revoked_at" = key
  · right
    simp [writtenValue, revokeAndRename, Dict.merge, payloadKey, Assoc.get?_set, ← hkey]
  · left
    simp [writtenValue, revokeAndRename, Dict.merge, payloadKey, Assoc.get?_set, hkey]

theorem interleaved_rename_drops_revocation :
    (∀ i, ((revokeAndRename i).find oneToken).map Prod.fst = some 1) ∧
      ∃ t, run (updateStep revokeAndRename) (.start oneToken) interleaved = some t ∧
        (∀ i, ∃ out, t.progress i = .returned out) ∧
        ¬ ∃ row', t.db.configEntities.lookup 1 = some row' ∧
          ∀ i, Carries row'.jsonData (revokeAndRename i).patch := by
  refine ⟨fun i => by cases i <;> rfl, _, rfl, fun i => by cases i <;> exact ⟨_, rfl⟩, ?_⟩
  rintro ⟨row', hlookup, hcarries⟩
  cases hlookup
  have hrevoked := hcarries .one "revoked_at" _ rfl
  cases hrevoked

def oneAfterTheOther : List UpdateStep :=
  [.select .one, .merge .one, .commit .one, .select .two, .merge .two, .commit .two]

theorem sequential_updates_kept :
    ∃ t, run (updateStep revokeAndRename) (.start oneToken) oneAfterTheOther = some t ∧
      ∃ row', t.db.configEntities.lookup 1 = some row' ∧
        ∀ i, Carries row'.jsonData (revokeAndRename i).patch := by
  have hrun : run (updateStep revokeAndRename) (.start oneToken) oneAfterTheOther = some _ := rfl
  refine ⟨_, hrun, (both_patches_kept_iff revokeAndRename_disjoint rfl rfl hrun ?_).mpr ?_⟩
  · intro i
    cases i <;> exact ⟨_, rfl⟩
  · refine ⟨nofun, ?_⟩
    rintro _ ⟨⟩
    refine ⟨nofun, ?_⟩
    rintro _ ⟨⟩
    refine ⟨?_, ?_⟩
    · rintro _ ⟨⟩ _ _ _ ⟨⟩
      exact .inr ⟨_, rfl, rfl⟩
    rintro _ ⟨⟩
    refine ⟨nofun, ?_⟩
    rintro _ ⟨⟩
    refine ⟨nofun, ?_⟩
    rintro _ ⟨⟩
    refine ⟨?_, fun _ _ => trivial⟩
    rintro _ ⟨⟩ _ _ _ ⟨⟩
    exact .inr ⟨_, rfl, rfl⟩

end JvmScout.Storage
