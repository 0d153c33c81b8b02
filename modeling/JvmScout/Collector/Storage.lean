import JvmScout.Collector.Models
import JvmScout.Lib.TableFrames
import JvmScout.Lib.Traverse

namespace JvmScout.Storage

open Models Relational

structure ExceptionRow where
  receivedAt : ℕ
  timestamp : Option String
  fingerprint : String
  captureMode : Option String
  hitCount : ℤ
  occurrences : Option ℤ
  projectId : Option String
  deploymentId : Option String
  environment : Option String
  instanceId : Option String
  exceptionType : Option String
  exceptionMessage : Option String
  caught : Option Bool
  className : Option String
  methodName : Option String
  lineNumber : Option ℤ
  sourceFile : Option String
  threadName : Option String
  rawJson : Dict

structure JvmInstanceRow where
  receivedAt : ℕ
  timestamp : Option String
  instanceId : String
  projectId : Option String
  deploymentId : Option String
  hostName : Option String
  jvmVersion : Option String
  jvmVendor : Option String
  osName : Option String
  kubernetes : Option Bool
  rawJson : Dict

structure SourceClassRow where
  projectId : Option String
  className : String
  receivedAt : ℕ
  bytecodeB64 : String

structure ConfigEntityRow where
  table : String
  entityId : String
  projectId : Option String
  createdAt : String
  jsonData : Dict

structure Db where
  exceptions : Table ExceptionRow
  jvmInstances : UniqueTable JvmInstanceRow JvmInstanceRow.instanceId
  sourceClasses : Table SourceClassRow
  configEntities : Table ConfigEntityRow

def Db.empty : Db := ⟨Table.empty, UniqueTable.empty, Table.empty, Table.empty⟩

/-- What the database decides: which rows its columns can hold, and how a value
that is not a string reaches a text column. -/
structure Backend where
  fits : ExceptionRow → Bool
  bindText : Json → Option String
  bindText_str : ∀ s, bindText (.str s) = some s

def signed64 (n : ℤ) : Bool := decide (-2 ^ 63 ≤ n ∧ n < 2 ^ 63)

def Backend.sqlite : Backend where
  fits row := signed64 row.hitCount && row.occurrences.all signed64 && row.lineNumber.all signed64
  bindText
    | .str s => some s
    | .int n => some (toString n)
    | .bool b => some (if b then "1" else "0")
    | _ => none
  bindText_str _ := rfl

def owned {ρ : Type} (column : ρ → Option String) (projectId : Option String) (row : ρ) : Bool :=
  column row == projectId

/-- `_apply_project`: no clause at all when `project_id` is `None`. -/
def applyProject {ρ : Type} (column : ρ → Option String) (projectId : Option String) (row : ρ) : Bool :=
  projectId.isNone || owned column projectId row

def orOne (n : ℤ) : ℤ := if n = 0 then 1 else n

def exceptionRow (now : ℕ) (ev : ExceptionEvent) (raw : Dict) (projectId : Option String) :
    ExceptionRow where
  receivedAt := now
  timestamp := ev.timestamp
  fingerprint := ev.fingerprint
  captureMode := ev.captureMode
  hitCount := orOne ev.hitCount
  occurrences := some (orOne ev.occurrences)
  projectId := projectId
  deploymentId := ev.deploymentId
  environment := ev.environment
  instanceId := ev.instanceId
  exceptionType := ev.exceptionType
  exceptionMessage := ev.exceptionMessage
  caught := ev.caught
  className := ev.location.bind (·.className)
  methodName := ev.location.bind (·.methodName)
  lineNumber := ev.location.bind (·.lineNumber)
  sourceFile := ev.location.bind (·.sourceFile)
  threadName := ev.threadInfo.bind (·.name)
  rawJson := raw

def instanceIds (events : List (ExceptionEvent × Dict)) : List String :=
  events.filterMap fun e => e.1.instanceId.filter (· ≠ "")

def touch (now : ℕ) (ids : List String)
    (t : UniqueTable JvmInstanceRow JvmInstanceRow.instanceId) :
    UniqueTable JvmInstanceRow JvmInstanceRow.instanceId :=
  t.update (fun row => ids.contains row.instanceId) (fun row => { row with receivedAt := now })
    fun _ => rfl

def addExceptions (now : ℕ) (events : List (ExceptionEvent × Dict)) (projectId : Option String)
    (db : Db) : Db × List ℕ :=
  let added := db.exceptions.insertAll (events.map fun e => exceptionRow now e.1 e.2 projectId)
  ({ db with
    exceptions := added.1
    jvmInstances := touch now (instanceIds events) db.jvmInstances }, added.2)

def storeExceptions (backend : Backend) (now : ℕ) (events : List (ExceptionEvent × Dict))
    (projectId : Option String) (db : Db) : Except PyError (Db × List ℕ) :=
  if events.all fun e => backend.fits (exceptionRow now e.1 e.2 projectId) then
    .ok (addExceptions now events projectId db)
  else .error .operationalError

def jvmInstanceRow (now : ℕ) (ev : AgentStartEvent) (raw : Dict) (projectId : Option String) :
    JvmInstanceRow where
  receivedAt := now
  timestamp := ev.timestamp
  instanceId := ev.instanceId.getD ""
  projectId := projectId
  deploymentId := ev.deploymentId
  hostName := ev.hostInfo.bind (·.name)
  jvmVersion := ev.jvmInfo.bind (·.version)
  jvmVendor := ev.jvmInfo.bind (·.vendor)
  osName := ev.hostInfo.bind (·.os)
  kubernetes := ev.hostInfo.bind (·.kubernetes)
  rawJson := raw

def findInstance (instanceId : String) (db : Db) : Option (ℕ × JvmInstanceRow) :=
  db.jvmInstances.lookup instanceId

def refresh (now : ℕ) (ev : AgentStartEvent) (raw : Dict) (instanceId : String)
    (t : UniqueTable JvmInstanceRow JvmInstanceRow.instanceId) :
    UniqueTable JvmInstanceRow JvmInstanceRow.instanceId :=
  t.update (fun row => row.instanceId == instanceId)
    (fun row => { row with rawJson := raw, timestamp := ev.timestamp, receivedAt := now }) fun _ => rfl

def storeAgentStart (now : ℕ) (ev : AgentStartEvent) (raw : Dict) (projectId : Option String)
    (db : Db) : Except PyError Db :=
  match h : findInstance (ev.instanceId.getD "") db with
  | some (_, existing) =>
    -- a scoped token may only refresh a row its own project registered
    if projectId ≠ none ∧ existing.projectId ≠ projectId then .error .permissionError
    else .ok { db with jvmInstances := refresh now ev raw (ev.instanceId.getD "") db.jvmInstances }
  | none =>
    .ok { db with
      jvmInstances := db.jvmInstances.insert (jvmInstanceRow now ev raw projectId)
        fun r hr => by simpa [jvmInstanceRow] using List.find?_eq_none.mp h r hr }

def classClause (className : String) (projectId : Option String) (row : SourceClassRow) : Bool :=
  row.className == className && applyProject SourceClassRow.projectId projectId row

def storeSourceClass (backend : Backend) (now : ℕ) (projectId : Option String)
    (className bytecodeB64 : Json) (db : Db) : Except PyError Db :=
  if className.truthy && bytecodeB64.truthy then
    match backend.bindText className, backend.bindText bytecodeB64 with
    | some name, some code =>
      match db.sourceClasses.rows.find? fun r => classClause name projectId r.2 with
      | some (k, existing) =>
        .ok { db with
          sourceClasses := db.sourceClasses.set k { existing with bytecodeB64 := code, receivedAt := now } }
      | none =>
        .ok { db with
          sourceClasses := db.sourceClasses.insert ⟨projectId, name, now, code⟩ }
    | _, _ => .error .operationalError
  else .ok db

def deleteException (excId : ℕ) (projectId : Option String) (db : Db) : Db × Bool :=
  match db.exceptions.lookup excId with
  | none => (db, false)
  | some row =>
    if projectId ≠ none ∧ row.projectId ≠ projectId then (db, false)
    else ({ db with exceptions := db.exceptions.erase excId }, true)

def deleteAllExceptions (projectId : Option String) (db : Db) : Db × ℕ :=
  ({ db with exceptions := db.exceptions.delete (applyProject ExceptionRow.projectId projectId) },
    db.exceptions.count (applyProject ExceptionRow.projectId projectId))

def deleteAllInstances (projectId : Option String) (db : Db) : Db × ℕ :=
  ({ db with jvmInstances := db.jvmInstances.delete (applyProject JvmInstanceRow.projectId projectId) },
    db.jvmInstances.count (applyProject JvmInstanceRow.projectId projectId))

def deleteAllSourceClasses (projectId : Option String) (db : Db) : Db × ℕ :=
  ({ db with sourceClasses := db.sourceClasses.delete (applyProject SourceClassRow.projectId projectId) },
    db.sourceClasses.count (applyProject SourceClassRow.projectId projectId))

def configTables : List String :=
  ["alert_rules", "integrations", "redaction_rules", "api_tokens", "team_members",
    "workspace_settings", "projects"]

def optionalText (s : Option String) : Json := s.elim .null .str

def configToDict (row : ConfigEntityRow) : Dict :=
  let data := Dict.set (Dict.set row.jsonData "id" (.str row.entityId)) "project_id"
    (optionalText row.projectId)
  if Dict.has data "created_at" then data else Dict.set data "created_at" (.str row.createdAt)

def configClause (table : String) (projectId : Option String) (allProjects : Bool)
    (row : ConfigEntityRow) : Bool :=
  row.table == table && (allProjects || owned ConfigEntityRow.projectId projectId row)

def listConfig (table : String) (projectId : Option String) (allProjects : Bool) (db : Db) : List Dict :=
  (db.configEntities.select (configClause table projectId allProjects)).map fun r => configToDict r.2

def payloadKey (k : String) : Bool := k != "id" && k != "project_id"

def configRow (py : Python) (now : ℕ) (uuid table : String) (payload : Dict)
    (projectId : Option String) : ConfigEntityRow :=
  let entityId := py.str ((Dict.get payload "id").orElse (.str uuid))
  let createdAt := py.str ((Dict.get payload "created_at").orElse (.str (Python.isoFormat now)))
  let data := payload.filter fun e => payloadKey e.1
  ⟨table, entityId, projectId, createdAt, Dict.set data "created_at" (.str createdAt)⟩

def insertConfig (py : Python) (now : ℕ) (uuid table : String) (payload : Dict)
    (projectId : Option String) (db : Db) : Db × Dict :=
  let row := configRow py now uuid table payload projectId
  ({ db with configEntities := db.configEntities.insert row },
    Dict.set (Dict.set row.jsonData "id" (.str row.entityId)) "project_id" (optionalText projectId))

def findConfig (table entityId : String) (projectId : Option String) (allProjects : Bool) (db : Db) :
    Option (ℕ × ConfigEntityRow) :=
  db.configEntities.rows.find? fun r =>
    configClause table projectId allProjects r.2 && r.2.entityId == entityId

def patched (row : ConfigEntityRow) (patch : Dict) : ConfigEntityRow :=
  { row with jsonData := Dict.merge row.jsonData patch payloadKey }

def updateConfig (table entityId : String) (patch : Dict) (projectId : Option String)
    (allProjects : Bool) (db : Db) : Option (Db × Dict) :=
  match findConfig table entityId projectId allProjects db with
  | none => none
  | some (k, row) =>
    some ({ db with configEntities := db.configEntities.set k (patched row patch) },
      configToDict (patched row patch))

def deleteConfig (table entityId : String) (projectId : Option String) (allProjects : Bool)
    (db : Db) : Option Db :=
  match findConfig table entityId projectId allProjects db with
  | none => none
  | some (k, _) => some { db with configEntities := db.configEntities.erase k }

theorem configToDict_get (row : ConfigEntityRow) {k : String} (hid : k ≠ "id") (hp : k ≠ "project_id")
    (hc : k ≠ "created_at") : Dict.get (configToDict row) k = Dict.get row.jsonData k := by
  unfold configToDict
  dsimp only
  split
  · rw [Dict.get_set_ne _ _ hp.symm, Dict.get_set_ne _ _ hid.symm]
  · rw [Dict.get_set_ne _ _ hc.symm, Dict.get_set_ne _ _ hp.symm, Dict.get_set_ne _ _ hid.symm]

theorem storeExceptions_ok {backend : Backend} {now : ℕ} {events : List (ExceptionEvent × Dict)}
    {projectId : Option String} {db : Db} {r : Db × List ℕ} :
    storeExceptions backend now events projectId db = .ok r ↔
      (∀ e ∈ events, backend.fits (exceptionRow now e.1 e.2 projectId) = true) ∧
        addExceptions now events projectId db = r := by
  rw [storeExceptions, ← List.all_eq_true]
  split <;> simp [*]

theorem storeExceptions_error {backend : Backend} {now : ℕ} {events : List (ExceptionEvent × Dict)}
    {projectId : Option String} {db : Db} {e : PyError}
    (h : storeExceptions backend now events projectId db = .error e) : e = .operationalError := by
  rw [storeExceptions] at h
  split at h <;> cases h
  rfl

theorem storeAgentStart_ok {now : ℕ} {ev : AgentStartEvent} {raw : Dict} {projectId : Option String}
    {db db' : Db} (h : storeAgentStart now ev raw projectId db = .ok db') :
    ∃ t, db' = { db with jvmInstances := t } := by
  unfold storeAgentStart at h
  split at h
  · split at h <;> cases h
    exact ⟨_, rfl⟩
  · cases h
    exact ⟨_, rfl⟩

theorem storeAgentStart_cases {now : ℕ} {ev : AgentStartEvent} {raw : Dict} {projectId : Option String}
    {db db' : Db} (h : storeAgentStart now ev raw projectId db = .ok db') :
    ∃ t, db' = { db with jvmInstances := t } ∧
      ((∃ r, findInstance (ev.instanceId.getD "") db = some r ∧
          t = refresh now ev raw (ev.instanceId.getD "") db.jvmInstances) ∨
        findInstance (ev.instanceId.getD "") db = none ∧
          t.toTable = db.jvmInstances.toTable.insert (jvmInstanceRow now ev raw projectId)) := by
  unfold storeAgentStart at h
  split at h
  · rename_i hfound
    split at h <;> cases h
    exact ⟨_, rfl, .inl ⟨_, hfound, rfl⟩⟩
  · rename_i hnone
    cases h
    exact ⟨_, rfl, .inr ⟨hnone, rfl⟩⟩

theorem storeSourceClass_ok {backend : Backend} {now : ℕ} {projectId : Option String}
    {className bytecodeB64 : Json} {db db' : Db}
    (h : storeSourceClass backend now projectId className bytecodeB64 db = .ok db') :
    ∃ t, db' = { db with sourceClasses := t } := by
  unfold storeSourceClass at h
  split at h
  · split at h
    · split at h <;> cases h <;> exact ⟨_, rfl⟩
    · cases h
  · cases h
    exact ⟨_, rfl⟩

theorem configRow_get (py : Python) (now : ℕ) (uuid table : String) (payload : Dict)
    (projectId : Option String) {k : String} (hk : payloadKey k = true) (hc : k ≠ "created_at") :
    Dict.get (configRow py now uuid table payload projectId).jsonData k = Dict.get payload k := by
  have hfilter (d : Dict) : Dict.get? (d.filter fun e => payloadKey e.1) k = Dict.get? d k := by
    induction d with
    | nil => rfl
    | cons e d ih =>
      by_cases he : e.1 = k
      · simp [he, hk, Assoc.get?_cons]
      · by_cases hp : payloadKey e.1 = true
        · simpa [hp, Assoc.get?_cons, he] using ih
        · simpa [hp, Assoc.get?_cons, he] using ih
  simp only [configRow]
  rw [Dict.get_set_ne _ _ hc.symm, Dict.get, hfilter, Dict.get]

theorem configToDict_project (row : ConfigEntityRow) :
    Dict.get (configToDict row) "project_id" = optionalText row.projectId := by
  unfold configToDict
  dsimp only
  split
  · rw [Dict.get_set_self]
  · rw [Dict.get_set_ne _ _ (by decide), Dict.get_set_self]

theorem configToDict_id (row : ConfigEntityRow) : Dict.get (configToDict row) "id" = .str row.entityId := by
  unfold configToDict
  dsimp only
  split
  · rw [Dict.get_set_ne _ _ (by decide), Dict.get_set_self]
  · rw [Dict.get_set_ne _ _ (by decide), Dict.get_set_ne _ _ (by decide), Dict.get_set_self]

theorem findConfig_eq_some {table entityId : String} {projectId : Option String} {allProjects : Bool}
    {db : Db} {k : ℕ} {row : ConfigEntityRow}
    (h : findConfig table entityId projectId allProjects db = some (k, row)) :
    (k, row) ∈ db.configEntities.rows ∧ configClause table projectId allProjects row = true := by
  have hclause := List.find?_some h
  simp only [Bool.and_eq_true] at hclause
  exact ⟨List.mem_of_find?_eq_some h, hclause.1⟩

end JvmScout.Storage
