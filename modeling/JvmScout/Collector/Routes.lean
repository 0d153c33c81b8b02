import JvmScout.Collector.Security
import JvmScout.Lib.Traverse

namespace JvmScout.Routes

open Storage Security Traverse

/-- How a handler ends when it does not return: an `HTTPException`, or an exception
that leaves the application as a 500. -/
inductive Failure where
  | http (status : ℕ) (detail : String)
  | raised (e : PyError)
deriving DecidableEq

def Failure.status : Failure → ℕ
  | .http status _ => status
  | .raised _ => 500

def raising {α : Type} : Except PyError α → Except Failure α
  | .ok a => .ok a
  | .error e => .error (.raised e)

inductive BodyText where
  | json (v : Json)
  | decodeError
  | raises (e : PyError)

structure Body where
  contentLength : Option String
  size : ℕ
  text : BodyText

variable (py : Python)

def checkContentLength (limit : ℕ) : Option String → Except Failure Unit
  | none => .ok ()
  | some header =>
    match py.parseInt header with
    | none => .error (.http 400 "invalid Content-Length")
    | some n => if (limit : ℤ) < n then .error (.http 413 "payload too large") else .ok ()

def readJsonBody (limit : ℕ) (body : Body) : Except Failure Json := do
  checkContentLength py limit body.contentLength
  if limit < body.size then throw (.http 413 "payload too large")
  else if body.size = 0 then return .null
  else
    match body.text with
    | .json v => return v
    | .decodeError => throw (.http 400 "invalid JSON")
    | .raises e => throw (.raised e)

def requireIngest (who : Principal) : Except Failure Unit :=
  if who.canIngest then .ok () else .error (.http 403 "token lacks ingest access")

def requireRead (who : Principal) : Except Failure Unit :=
  if who.canRead then .ok () else .error (.http 403 "token lacks read access")

def requireAdmin (who : Principal) : Except Failure Unit :=
  if who.canAdmin then .ok () else .error (.http 403 "token lacks admin access")

def requireObject : Json → Except Failure Dict
  | .obj d => .ok d
  | _ => .error (.http 400 "expected a JSON object")

def checkConfigTable (table : String) : Except Failure Unit :=
  if configTables.contains table then .ok ()
  else .error (.http 404 ("unknown config table: " ++ table))

def configScope (who : Principal) : Option String × Bool :=
  if who.isMaster then (none, true) else (who.projectId, false)

structure Env where
  now : ℕ
  uuid : String
  tokenHex : String
  maxBodyBytes : ℕ

def mintedRole : Json → Except PyError Role
  | .str "viewer" => .ok .viewer
  | .str "admin" => .ok .admin
  | .arr _ | .obj _ => .error .typeError
  | _ => .ok .ingest

def mintedProject (backend : Backend) (who : Principal) (requested : Json) :
    Except Failure (Option String) :=
  if who.isMaster then
    match backend.bindText (requested.orElse (.str defaultProject)) with
    | some p => .ok (some p)
    | none => .error (.raised .operationalError)
  else if requested.truthy ∧ requested ≠ optionalText who.projectId then
    .error (.http 403 "cannot mint tokens for another project")
  else .ok (some (if who.projectId.getD "" = "" then defaultProject else who.projectId.getD ""))

def tokenPayload (name : Json) (raw : String) (role : Role) : Dict :=
  [("name", name.orElse (.str "Untitled token")),
    ("token_prefix", .str (String.ofList (raw.toList.take 10))),
    ("token_hash", .str (hashToken raw)),
    ("role", .str role.name),
    ("revoked_at", .null)]

def createToken (backend : Backend) (env : Env) (who : Principal) (body : Body) (db : Db) :
    Except Failure (Db × Dict) := do
  requireAdmin who
  let payload ← readJsonBody py env.maxBodyBytes body
  let payload : Dict := match payload with
    | .obj d => d
    | _ => []
  let name := Dict.get payload "name"
  let role ← raising (mintedRole (Dict.get payload "role"))
  let projectId ← mintedProject backend who (Dict.get payload "project_id")
  let raw := "stk_" ++ env.tokenHex
  let (db, stored) := insertConfig py env.now env.uuid "api_tokens" (tokenPayload name raw role) projectId db
  return (db,
    [("token", .str raw), ("token_prefix", .str (String.ofList (raw.toList.take 10))),
      ("id", Dict.get stored "id"), ("name", Dict.get stored "name"),
      ("project_id", optionalText projectId), ("role", .str role.name)])

def createConfig (env : Env) (who : Principal) (table : String) (body : Body) (db : Db) :
    Except Failure (Db × Dict) := do
  requireAdmin who
  checkConfigTable table
  let payload ← readJsonBody py env.maxBodyBytes body
  let payload ← requireObject payload
  let projectId := if who.isMaster then none else who.projectId
  return insertConfig py env.now env.uuid table payload projectId db

def patchConfig (env : Env) (who : Principal) (table entityId : String) (body : Body) (db : Db) :
    Except Failure (Db × Dict) := do
  requireAdmin who
  checkConfigTable table
  let payload ← readJsonBody py env.maxBodyBytes body
  let payload ← requireObject payload
  let (projectId, allProjects) := configScope who
  match updateConfig table entityId payload projectId allProjects db with
  | none => throw (.http 404 "not found")
  | some updated => return updated

def removeConfig (who : Principal) (table entityId : String) (db : Db) : Except Failure (Db × Dict) := do
  requireAdmin who
  checkConfigTable table
  let (projectId, allProjects) := configScope who
  match deleteConfig table entityId projectId allProjects db with
  | none => throw (.http 404 "not found")
  | some db => return (db, [("deleted", .str entityId)])

def removeException (who : Principal) (excId : ℤ) (db : Db) : Except Failure (Db × Dict) := do
  requireAdmin who
  if excId < 0 then throw (.http 404 "not found")
  else
    let (db, found) := deleteException excId.toNat who.scope db
    if found then return (db, [("deleted", .int excId)]) else throw (.http 404 "not found")

def deleteAll (who : Principal) (confirm : Bool) (db : Db) : Except Failure (Db × Dict) := do
  requireAdmin who
  if confirm then
    let (db, n) := deleteAllExceptions who.scope db
    return (db, [("deleted", .int n)])
  else throw (.http 400 "pass ?confirm=true to delete all exceptions")

def deleteAllData (who : Principal) (confirm : Bool) (db : Db) : Except Failure (Db × Dict) := do
  requireAdmin who
  if confirm then
    let (db, exceptions) := deleteAllExceptions who.scope db
    let (db, instances) := deleteAllInstances who.scope db
    let (db, sourceClasses) := deleteAllSourceClasses who.scope db
    return (db, [("deleted", .obj [("exceptions", .int exceptions), ("instances", .int instances),
      ("source_classes", .int sourceClasses)])])
  else throw (.http 400 "pass ?confirm=true to delete all data")

inductive ConfigRequest where
  | createToken (body : Body)
  | createConfig (table : String) (body : Body)
  | patchConfig (table entityId : String) (body : Body)
  | removeConfig (table entityId : String)

def handleConfig (backend : Backend) (env : Env) (who : Principal) (db : Db) :
    ConfigRequest → Except Failure (Db × Dict)
  | .createToken body => createToken py backend env who body db
  | .createConfig table body => createConfig py env who table body db
  | .patchConfig table entityId body => patchConfig py env who table entityId body db
  | .removeConfig table entityId => removeConfig who table entityId db

section Tenant

variable {py} {backend : Backend} {env : Env} {t : Tenant} {db db' : Db} {out : Dict}

theorem requireObject_ok {v : Json} {d : Dict} (h : requireObject v = .ok d) : v = .obj d := by
  cases v <;> simp [requireObject] at h
  rw [h]

theorem mintedProject_ok {requested : Json} {projectId : Option String}
    (h : mintedProject backend t.principal requested = .ok projectId) :
    projectId = some t.project := by
  simp only [mintedProject, Tenant.isMaster_principal, Tenant.projectId_principal, Bool.false_eq_true,
    if_false, Option.getD_some, t.nonempty] at h
  split at h <;> cases h
  rfl

theorem createToken_ok {body : Body} (h : createToken py backend env t.principal body db = .ok (db', out)) :
    ∃ name raw role, db' = { db with
      configEntities := db.configEntities.insert
        (configRow py env.now env.uuid "api_tokens" (tokenPayload name raw role) (some t.project)) } := by
  simp only [createToken, bind_eq_ok, pure_eq_ok] at h
  obtain ⟨-, -, payload, -, role, -, projectId, hproject, h⟩ := h
  cases mintedProject_ok hproject
  cases h
  exact ⟨_, _, role, rfl⟩

theorem createConfig_ok {table : String} {body : Body}
    (h : createConfig py env t.principal table body db = .ok (db', out)) :
    ∃ payload, readJsonBody py env.maxBodyBytes body = .ok (.obj payload) ∧ db' = { db with
      configEntities := db.configEntities.insert
        (configRow py env.now env.uuid table payload (some t.project)) } := by
  simp only [createConfig, bind_eq_ok, pure_eq_ok] at h
  obtain ⟨-, -, -, -, v, hv, payload, hpayload, h⟩ := h
  cases h
  exact ⟨payload, requireObject_ok hpayload ▸ hv, rfl⟩

theorem patchConfig_ok {table entityId : String} {body : Body}
    (h : patchConfig py env t.principal table entityId body db = .ok (db', out)) :
    ∃ payload k row, readJsonBody py env.maxBodyBytes body = .ok (.obj payload) ∧
      findConfig table entityId (some t.project) false db = some (k, row) ∧
      db' = { db with configEntities := db.configEntities.set k (patched row payload) } := by
  simp only [patchConfig, bind_eq_ok, configScope, Tenant.isMaster_principal, Bool.false_eq_true,
    if_false, Tenant.projectId_principal, updateConfig] at h
  obtain ⟨-, -, -, -, v, hv, payload, hpayload, h⟩ := h
  cases hf : findConfig table entityId (some t.project) false db with
  | none =>
    rw [hf] at h
    cases h
  | some r =>
    rw [hf] at h
    cases pure_eq_ok.mp h
    exact ⟨payload, r.1, r.2, requireObject_ok hpayload ▸ hv, rfl, rfl⟩

theorem removeConfig_ok {table entityId : String}
    (h : removeConfig t.principal table entityId db = .ok (db', out)) :
    ∃ k row, findConfig table entityId (some t.project) false db = some (k, row) ∧
      db' = { db with configEntities := db.configEntities.erase k } := by
  simp only [removeConfig, bind_eq_ok, configScope, Tenant.isMaster_principal, Bool.false_eq_true,
    if_false, Tenant.projectId_principal, deleteConfig] at h
  obtain ⟨-, -, -, -, h⟩ := h
  cases hf : findConfig table entityId (some t.project) false db with
  | none =>
    rw [hf] at h
    cases h
  | some r =>
    rw [hf] at h
    cases pure_eq_ok.mp h
    exact ⟨r.1, r.2, rfl, rfl⟩

end Tenant

def acme : Tenant := ⟨"acme", .admin, .str "stk_a", by decide⟩

def acmeTokens : Db :=
  { Db.empty with
    configEntities := Relational.Table.empty.insert (configRow Python.literal 0 "u1" "api_tokens"
      (tokenPayload (.str "ci") "stk_a" .admin) (some "acme")) }

end JvmScout.Routes
