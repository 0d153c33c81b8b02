import JvmScout.Collector.ConfigUpdates

namespace JvmScout.Storage

open Relational Runs

inductive ConfigCall where
  | insert (now : ℕ) (uuid table : String) (payload : Dict) (projectId : Option String)
  | update (table entityId : String) (patch : Dict) (projectId : Option String) (allProjects : Bool)
  | delete (table entityId : String) (projectId : Option String) (allProjects : Bool)

def perform (py : Python) (db : Db) : ConfigCall → Db
  | .insert now uuid table payload projectId => (insertConfig py now uuid table payload projectId db).1
  | .update table entityId patch projectId allProjects =>
    (updateConfig table entityId patch projectId allProjects db).elim db Prod.fst
  | .delete table entityId projectId allProjects => (deleteConfig table entityId projectId allProjects db).getD db

def configStep (py : Python) (db : Db) (call : ConfigCall) : Option Db := some (perform py db call)

def SameIdentity (row row' : ConfigEntityRow) : Prop :=
  row.table = row'.table ∧ row.projectId = row'.projectId ∧ row.entityId = row'.entityId

def OneRowEach (db : Db) : Prop :=
  ∀ r ∈ db.configEntities.rows, ∀ r' ∈ db.configEntities.rows, SameIdentity r.2 r'.2 → r = r'

def Lists (py : Python) (db : Db) : ConfigCall → Prop
  | .insert .. => True
  | .update table entityId patch projectId allProjects =>
    (updateConfig table entityId patch projectId allProjects db).isSome →
      ∀ d ∈ listConfig table projectId allProjects
        (perform py db (.update table entityId patch projectId allProjects)),
        Dict.get d "id" = .str entityId → Carries d patch
  | .delete table entityId projectId allProjects =>
    allProjects = false → (deleteConfig table entityId projectId allProjects db).isSome →
      ∀ d ∈ listConfig table projectId false (perform py db (.delete table entityId projectId allProjects)),
        Dict.get d "id" ≠ .str entityId

def KeepsIdentity (py : Python) (db : Db) (call : ConfigCall) : Prop :=
  OneRowEach (perform py db call) ∧ Lists py db call

/-- An insert brings an id that its table and project do not have yet, and what the master
patches is carried by the other rows of the table that have the id. -/
def Unambiguous (py : Python) (db : Db) : ConfigCall → Prop
  | .insert now uuid table payload projectId =>
    ∀ r ∈ db.configEntities.rows, ¬ SameIdentity r.2 (configRow py now uuid table payload projectId)
  | .update table entityId patch projectId allProjects =>
    allProjects = true → ∀ k row, findConfig table entityId projectId true db = some (k, row) →
      ∀ r ∈ db.configEntities.rows, r.2.table = table → r.2.entityId = entityId → r.1 ≠ k →
        Carries (configToDict r.2) patch
  | .delete .. => True

variable {py : Python} {db : Db}

theorem mem_listConfig {table : String} {projectId : Option String} {allProjects : Bool} {d : Dict} :
    d ∈ listConfig table projectId allProjects db ↔
      ∃ r ∈ db.configEntities.rows, configClause table projectId allProjects r.2 = true ∧ configToDict r.2 = d := by
  simp only [listConfig, List.mem_map, Table.mem_select, and_assoc]

theorem configClause_iff {table : String} {projectId : Option String} {allProjects : Bool}
    {row : ConfigEntityRow} :
    configClause table projectId allProjects row = true ↔
      row.table = table ∧ (allProjects = true ∨ row.projectId = projectId) := by
  simp [configClause, owned]

theorem findConfig_spec {table entityId : String} {projectId : Option String} {allProjects : Bool} {k : ℕ}
    {row : ConfigEntityRow} (h : findConfig table entityId projectId allProjects db = some (k, row)) :
    (k, row) ∈ db.configEntities.rows ∧ configClause table projectId allProjects row = true ∧
      row.entityId = entityId := by
  have hfound := List.find?_some h
  simp only [Bool.and_eq_true, beq_iff_eq] at hfound
  exact ⟨List.mem_of_find?_eq_some h, hfound⟩

theorem carries_patched (row : ConfigEntityRow) (patch : Dict) :
    Carries (configToDict (patched row patch)) patch := by
  intro key v hv
  have hmerged : Dict.get? (patched row patch).jsonData key = some v := carries_merged row.jsonData patch key v hv
  have hpayload : payloadKey key = true := Dict.keep_of_get?_merge hv
  simp only [payloadKey, Bool.and_eq_true, bne_iff_ne, ne_eq] at hpayload
  have hbase (d e : Json) :
      Dict.get? (Dict.set (Dict.set (patched row patch).jsonData "id" d) "project_id" e) key = some v := by
    rw [Dict.get?, Assoc.get?_set_ne _ _ (Ne.symm hpayload.2), Assoc.get?_set_ne _ _ (Ne.symm hpayload.1)]
    exact hmerged
  unfold configToDict
  dsimp only
  split
  · exact hbase _ _
  · rename_i hcreated
    have hne : "created_at" ≠ key := by
      rintro rfl
      apply hcreated
      rw [Dict.has, hbase]
      rfl
    rw [Dict.get?, Assoc.get?_set_ne _ _ hne]
    exact hbase _ _

theorem oneRowEach_insert (h : OneRowEach db) (row : ConfigEntityRow) :
    OneRowEach { db with configEntities := db.configEntities.insert row } ↔
      ∀ r ∈ db.configEntities.rows, ¬ SameIdentity r.2 row := by
  constructor
  · intro hone r hr hsame
    have heq := hone r (Table.mem_rows_insert.mpr (.inl hr)) _ (Table.mem_rows_insert.mpr (.inr rfl)) hsame
    have hlt := db.configEntities.lt_nextKey hr
    rw [heq] at hlt
    exact absurd hlt (Nat.lt_irrefl _)
  · intro hfresh r hr r' hr' hsame
    rcases Table.mem_rows_insert.mp hr with hr | rfl
    · rcases Table.mem_rows_insert.mp hr' with hr' | rfl
      · exact h r hr r' hr' hsame
      · exact absurd hsame (hfresh r hr)
    · rcases Table.mem_rows_insert.mp hr' with hr' | rfl
      · exact absurd ⟨hsame.1.symm, hsame.2.1.symm, hsame.2.2.symm⟩ (hfresh r' hr')
      · rfl

theorem mem_patched {k : ℕ} {row : ConfigEntityRow} {patch : Dict} {r : ℕ × ConfigEntityRow} (hr : r ∈ (db.configEntities.set k (patched row patch)).rows) :
    r = (k, patched row patch) ∨ r.1 ≠ k ∧ r ∈ db.configEntities.rows := by
  obtain ⟨w, hw, heq⟩ := (Table.mem_set _).mp hr
  by_cases hrk : r.1 = k
  · rw [if_pos hrk] at heq
    exact .inl (Prod.ext hrk heq)
  · rw [if_neg hrk] at heq
    exact .inr ⟨hrk, by rw [← heq] at hw; exact hw⟩

theorem oneRowEach_patched (h : OneRowEach db) {k : ℕ} {row : ConfigEntityRow} (patch : Dict)
    (hk : (k, row) ∈ db.configEntities.rows) :
    OneRowEach { db with configEntities := db.configEntities.set k (patched row patch) } := by
  intro r hr r' hr' hsame
  rcases mem_patched hr with rfl | ⟨hne, hr⟩
  · rcases mem_patched hr' with rfl | ⟨hne', hr'⟩
    · rfl
    · exact absurd (congrArg Prod.fst (h _ hk _ hr' hsame)).symm hne'
  · rcases mem_patched hr' with rfl | ⟨-, hr'⟩
    · exact absurd (congrArg Prod.fst (h _ hr _ hk hsame)) hne
    · exact h _ hr _ hr' hsame

theorem OneRowEach.perform_update (h : OneRowEach db) (table entityId : String) (patch : Dict)
    (projectId : Option String) (allProjects : Bool) :
    OneRowEach (perform py db (.update table entityId patch projectId allProjects)) := by
  cases hf : findConfig table entityId projectId allProjects db with
  | none =>
    simp only [perform, updateConfig, hf]
    exact h
  | some found =>
    simp only [perform, updateConfig, hf]
    exact oneRowEach_patched h patch (findConfig_spec hf).1

theorem OneRowEach.perform_delete (h : OneRowEach db) (table entityId : String) (projectId : Option String)
    (allProjects : Bool) : OneRowEach (perform py db (.delete table entityId projectId allProjects)) := by
  cases hf : findConfig table entityId projectId allProjects db with
  | none =>
    simp only [perform, deleteConfig, hf]
    exact h
  | some found =>
    simp only [perform, deleteConfig, hf]
    intro r hr r' hr' hsame
    exact h r ((Table.mem_erase _).mp hr).1 r' ((Table.mem_erase _).mp hr').1 hsame

theorem OneRowEach.key_eq (h : OneRowEach db) {table entityId : String} {projectId : Option String} {k : ℕ}
    {row : ConfigEntityRow} (hf : findConfig table entityId projectId false db = some (k, row))
    {r : ℕ × ConfigEntityRow} (hr : r ∈ db.configEntities.rows)
    (hclause : configClause table projectId false r.2 = true) (hid : r.2.entityId = entityId) : r.1 = k := by
  obtain ⟨hk, hclause', hid'⟩ := findConfig_spec hf
  simp only [configClause_iff, Bool.false_eq_true, false_or] at hclause hclause'
  have hsame : SameIdentity r.2 row :=
    ⟨hclause.1.trans hclause'.1.symm, hclause.2.trans hclause'.2.symm, hid.trans hid'.symm⟩
  exact congrArg Prod.fst (h r hr (k, row) hk hsame)

theorem lists_update_iff (h : OneRowEach db) (table entityId : String) (patch : Dict) (projectId : Option String)
    (allProjects : Bool) :
    Lists py db (.update table entityId patch projectId allProjects) ↔
      Unambiguous py db (.update table entityId patch projectId allProjects) := by
  simp only [Lists, Unambiguous, perform, updateConfig]
  cases hf : findConfig table entityId projectId allProjects db with
  | none =>
    constructor
    · rintro - rfl k row hfound
      rw [hf] at hfound
      cases hfound
    · exact fun _ hsome => absurd hsome (by simp)
  | some found =>
    obtain ⟨k, row⟩ := found
    obtain ⟨hk, hclause, hid⟩ := findConfig_spec hf
    simp only [Option.isSome_some, Option.elim_some, forall_const]
    constructor
    · rintro hlist rfl k' row' hfound r hr htable hrid hne
      rw [hf] at hfound
      cases hfound
      apply hlist (configToDict r.2) _ (by rw [configToDict_id, hrid])
      refine mem_listConfig.mpr ⟨r, (Table.mem_set _).mpr ⟨r.2, hr, (if_neg hne).symm⟩, ?_, rfl⟩
      exact configClause_iff.mpr ⟨htable, .inl rfl⟩
    · intro hcond d hd hdid
      obtain ⟨r, hr, hrclause, rfl⟩ := mem_listConfig.mp hd
      rw [configToDict_id] at hdid
      rcases mem_patched hr with rfl | ⟨hne, hr⟩
      · exact carries_patched row patch
      · cases allProjects with
        | true => exact hcond rfl k row hf r hr (configClause_iff.mp hrclause).1 (Json.str.inj hdid) hne
        | false => exact absurd (h.key_eq hf hr hrclause (Json.str.inj hdid)) hne

theorem lists_delete (h : OneRowEach db) (table entityId : String) (projectId : Option String) (allProjects : Bool) :
    Lists py db (.delete table entityId projectId allProjects) := by
  rintro rfl hsome d hd hdid
  simp only [perform, deleteConfig] at hsome hd
  cases hf : findConfig table entityId projectId false db with
  | none =>
    rw [hf] at hsome
    cases hsome
  | some found =>
    simp only [hf, Option.getD_some] at hd
    obtain ⟨r, hr, hclause, rfl⟩ := mem_listConfig.mp hd
    rw [configToDict_id] at hdid
    obtain ⟨hr, hne⟩ := (Table.mem_erase _).mp hr
    exact hne (h.key_eq hf hr hclause (Json.str.inj hdid))

theorem keepsIdentity_iff (h : OneRowEach db) (call : ConfigCall) :
    KeepsIdentity py db call ↔ Unambiguous py db call := by
  cases call with
  | insert now uuid table payload projectId =>
    constructor
    · exact fun hkeep => (oneRowEach_insert h _).mp hkeep.1
    · exact fun hfresh => ⟨(oneRowEach_insert h _).mpr hfresh, trivial⟩
  | update table entityId patch projectId allProjects =>
    rw [KeepsIdentity, lists_update_iff h]
    exact and_iff_right (h.perform_update table entityId patch projectId allProjects)
  | delete table entityId projectId allProjects =>
    exact iff_of_true ⟨h.perform_delete table entityId projectId allProjects, lists_delete h table entityId projectId allProjects⟩ trivial

theorem OneRowEach.empty : OneRowEach Db.empty := fun _ hr => nomatch hr

/-- In a run of config calls every id stays one row's, and every list shows what was deleted and
patched, exactly when each insert brings a new id and the master patches no id of two rows. -/
theorem identities_kept_iff (py : Python) (calls : List ConfigCall) :
    AllSteps (configStep py) (KeepsIdentity py) Db.empty calls ↔
      AllSteps (configStep py) (Unambiguous py) Db.empty calls := by
  apply allSteps_congr (I := OneRowEach)
  · intro db call db' _ hkeep hstep
    cases hstep
    exact hkeep.1
  · exact fun db call h => keepsIdentity_iff h call
  · exact OneRowEach.empty

def postedTwice : List ConfigCall :=
  [.insert 0 "u1" "api_tokens" [("id", .str "t1"), ("token_hash", .str "h")] (some "acme"),
    .insert 0 "u2" "api_tokens" [("id", .str "t1"), ("token_hash", .str "h")] (some "acme"),
    .delete "api_tokens" "t1" (some "acme") false]

theorem deleted_token_still_listed :
    ¬ AllSteps (configStep Python.literal) (KeepsIdentity Python.literal) Db.empty postedTwice ∧
      (run (configStep Python.literal) Db.empty postedTwice).map (fun db =>
        (listConfig "api_tokens" (some "acme") false db).map fun d => (Dict.get d "id", Dict.get d "revoked_at")) =
          some [(.str "t1", .null)] := by
  constructor
  · rintro ⟨hfirst, hrest⟩
    have hsecond := (hrest _ rfl).1.1
    apply (oneRowEach_insert hfirst.1 _).mp hsecond _ (Table.mem_rows_insert.mpr (.inr rfl))
    exact ⟨rfl, rfl, by decide⟩
  · decide +kernel

end JvmScout.Storage
