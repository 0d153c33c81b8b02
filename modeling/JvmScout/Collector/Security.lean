import JvmScout.Collector.Storage
import JvmScout.Lib.Sha256

namespace JvmScout.Security

open Storage

inductive Role where
  | ingest
  | viewer
  | admin
deriving DecidableEq

def Role.name : Role → String
  | .ingest => "ingest"
  | .viewer => "viewer"
  | .admin => "admin"

inductive StoredRole where
  | limited (role : Role)
  | master
deriving DecidableEq

def defaultProject : String := "default"

def defaultRole : Role := .admin

def hashToken (raw : String) : String :=
  Sha256.hexDigest (raw.toUTF8.data.toList.map UInt8.toNat)

structure Principal where
  projectId : Option String
  role : Role
  isMaster : Bool
  tokenId : Json
deriving DecidableEq

namespace Principal

def scope (who : Principal) : Option String := if who.isMaster then none else who.projectId

def canRead (who : Principal) : Bool := who.isMaster || who.role == .viewer || who.role == .admin

def canIngest (who : Principal) : Bool := who.isMaster || who.role == .ingest || who.role == .admin

def canAdmin (who : Principal) : Bool := who.isMaster || who.role == .admin

end Principal

structure Tenant where
  project : String
  role : Role
  tokenId : Json
  nonempty : project ≠ ""

def Tenant.principal (t : Tenant) : Principal := ⟨some t.project, t.role, false, t.tokenId⟩

@[simp] theorem Tenant.scope_principal (t : Tenant) : t.principal.scope = some t.project := rfl

@[simp] theorem Tenant.isMaster_principal (t : Tenant) : t.principal.isMaster = false := rfl

@[simp] theorem Tenant.projectId_principal (t : Tenant) : t.principal.projectId = some t.project := rfl

/-- `source` is the primary key of the row the entry was read from. -/
structure TokenEntry where
  projectId : String
  role : StoredRole
  tokenPrefix : Json
  source : ℕ
deriving DecidableEq

def TokenEntry.principal (e : TokenEntry) : Principal :=
  match e.role with
  | .master => ⟨none, defaultRole, true, e.tokenPrefix⟩
  | .limited role => ⟨some e.projectId, role, false, e.tokenPrefix⟩

def storedRole : Json → Except PyError StoredRole
  | .str "ingest" => .ok (.limited .ingest)
  | .str "viewer" => .ok (.limited .viewer)
  | .str "admin" => .ok (.limited .admin)
  | .str "master" => .ok .master
  | .arr _ | .obj _ => .error .typeError
  | _ => .ok (.limited defaultRole)

def tokenProject (d : Dict) : String :=
  match (Dict.get d "project_id").orElse (.str defaultProject) with
  | .str p => p
  | _ => defaultProject

abbrev TokenMap := List (HashKey × TokenEntry)

def readToken (r : ℕ × ConfigEntityRow) : Except PyError (Option (HashKey × TokenEntry)) :=
  let d := configToDict r.2
  if (Dict.get d "token_hash").truthy && !(Dict.get d "revoked_at").truthy then do
    let key ← HashKey.of (Dict.get d "token_hash")
    let role ← storedRole (Dict.get d "role")
    return some (key, ⟨tokenProject d, role, Dict.get d "token_prefix", r.1⟩)
  else return none

def tokenClause : ConfigEntityRow → Bool := configClause "api_tokens" none true

def tokenRows (db : Db) : List (ℕ × ConfigEntityRow) := db.configEntities.select tokenClause

def toMap (entries : TokenMap) : TokenMap := entries.foldl (fun d e => Assoc.set d e.1 e.2) []

def loadTokens (rows : List (ℕ × ConfigEntityRow)) : Except PyError TokenMap := do
  let entries ← rows.mapM readToken
  return toMap (entries.filterMap id)

def isAscii (s : String) : Bool := s.toList.all fun c => decide (c.toNat < 128)

def compareDigest (a : String) : HashKey → Except PyError Bool
  | .text b => if isAscii a && isAscii b then .ok (a == b) else .error .typeError
  | _ => .error .typeError

def findToken (candidate : String) : TokenMap → Except PyError (Option TokenEntry)
  | [] => .ok none
  | (h, e) :: rest => do
    if ← compareDigest candidate h then return some e else findToken candidate rest

def resolvePrincipal (apiKey provided : String) (active : Except PyError TokenMap) :
    Except PyError (Option Principal) :=
  if provided = "" then return none
  else do
    if ← compareDigest provided (.text apiKey) then
      return some ⟨none, defaultRole, true, .str "master"⟩
    else
      let found ← findToken (hashToken provided) (← active)
      return found.map TokenEntry.principal

theorem isAscii_hashToken (raw : String) : isAscii (hashToken raw) = true := by
  have hex : ("0123456789abcdef".toList.all fun c => decide (c.toNat < 128)) = true := by decide
  simp only [isAscii, List.all_eq_true, decide_eq_true_eq] at hex ⊢
  exact fun c hc => hex c (Sha256.hexDigest_toList _ c hc)

end JvmScout.Security
