import JvmScout.Collector.Queries

namespace JvmScout.Alerts

open Storage

def httpChannels : List String := ["webhook", "slack"]

def minRefire : ℚ := 60

/-- The network as a delivery meets it: whether the resolver finds public addresses
only, and the status that a POST returns, if it returns. -/
structure Network where
  destinationAllowed : String → Except PyError Bool
  post : String → Dict → Option ℕ

def nowIso (clock : ℚ) : String := Python.isoFormat ⌊clock⌋.toNat

structure EventFields where
  fingerprint : String
  exceptionType : Json
  deploymentId : Json
  environment : Json
  caught : Json

section Conditions

variable (py : Python) (backend : Backend) (clock : ℚ)

def scopeDeployment (rule : Dict) : Json := (Dict.get rule "application_id").orElse (Dict.get rule "deployment_id")

def eventDeployment (ev : Dict) : Json := (Dict.get ev "deploymentId").orElse (Dict.get ev "deployment_id")

def matchesScope (rule ev : Dict) : Bool :=
  !(scopeDeployment rule).truthy || (eventDeployment ev).pyEq (scopeDeployment rule)

def eventFingerprint (ev : Dict) : String := Models.coerceFingerprint py (Dict.get ev "fingerprint")

def eventFields (ev : Dict) : EventFields where
  fingerprint := eventFingerprint py ev
  exceptionType := ((Dict.get ev "exceptionType").orElse (Dict.get ev "exception_type")).orElse (.str "")
  deploymentId := eventDeployment ev
  environment := Dict.get ev "environment"
  caught := Dict.get ev "caught"

def firstSeenTrigger (rule : Dict) : Bool :=
  Dict.get rule "trigger_type" == .str "new_event" || Dict.get rule "trigger_type" == .str "deploy_regression"

def ruleConfig (rule : Dict) : Except PyError Dict := Python.asDict ((Dict.get rule "config").orElse (.obj []))

def configInt (cfg : Dict) (k : String) (default : ℤ) : Except PyError ℤ :=
  py.toInt ((Dict.get cfg k).orElse (.int default))

def reoccurs (rule : Dict) (fields : EventFields) : Except PyError (Option String) := do
  let cfg ← ruleConfig rule
  let eventName ← Python.asText ((Dict.get cfg "eventName").orElse (.str ""))
  let wanted := Python.strip eventName
  if wanted = "" then return none
  else
    let exceptionType ← Python.asText (fields.exceptionType.orElse (.str ""))
    if Python.isIn (py.lower wanted) (py.lower exceptionType) then
      return some (exceptionType ++ " reoccurred")
    else return none

def volumeReached (rule : Dict) (projectId : Option String) (db : Db) : Except PyError (Option String) := do
  let cfg ← ruleConfig rule
  let threshold ← configInt py cfg "threshold" 0
  let window ← configInt py cfg "windowMinutes" 5
  if threshold ≤ 0 then return none
  else
    let count ← countOccurrences backend clock window (scopeDeployment rule) projectId db
    if threshold ≤ count then
      return some (toString count ++ " occurrences in " ++ toString window ++ "m (threshold " ++
        toString threshold ++ ")")
    else return none

def conditionMet (rule : Dict) (fields : EventFields) (projectId : Option String) (db : Db) :
    Except PyError (Option String) :=
  if firstSeenTrigger rule then
    if fingerprintRowCount fields.fingerprint projectId db ≤ 1 then
      .ok (some ("New exception class " ++ py.str fields.exceptionType ++ " first seen"))
    else .ok none
  else if Dict.get rule "trigger_type" = .str "event_reoccurs" then reoccurs py rule fields
  else if Dict.get rule "trigger_type" = .str "volume_threshold" then
    volumeReached py backend clock rule projectId db
  else .ok none

def parseIso : Json → Option ℤ
  | .str s => if s = "" then none else py.parseIso s
  | _ => none

def debounced (rule : Dict) : Except PyError Bool :=
  if firstSeenTrigger rule then .ok false
  else
    match parseIso py (Dict.get rule "last_triggered_at") with
    | none => .ok false
    | some last => do
      let cfg ← ruleConfig rule
      let minutes ← py.toFloat ((Dict.get cfg "windowMinutes").orElse (.int 0))
      return decide (clock - last < max minRefire (minutes * 60))

def firing (rule ev : Dict) (projectId : Option String) (db : Db) : Except PyError (Option String) := do
  if !(Dict.get rule "enabled").truthy || !matchesScope rule ev then return none
  else if ← debounced py clock rule then return none
  else conditionMet py backend clock rule (eventFields py ev) projectId db

end Conditions

section Delivery

variable (py : Python) (backend : Backend) (clock : ℚ) (net : Network)

def messageText (rule : Dict) (fields : EventFields) (reason : String) : String :=
  "[jvmScout] " ++ py.str ((Dict.get rule "name").orElse (.str "Alert")) ++ "\n" ++ reason ++ "\n" ++
    "Type: " ++ py.str (fields.exceptionType.orElse (.str "unknown")) ++ "\n" ++
    "Deployment: " ++ py.str (fields.deploymentId.orElse (.str "(none)")) ++ "\n" ++
    "Fingerprint: " ++ fields.fingerprint

def buildMessage (rule : Dict) (fields : EventFields) (reason : String) : Dict :=
  [("text", .str (messageText py rule fields reason)),
    ("alert", Dict.get rule "name"),
    ("reason", .str reason),
    ("trigger_type", Dict.get rule "trigger_type"),
    ("exception_type", fields.exceptionType),
    ("deployment_id", fields.deploymentId),
    ("environment", fields.environment),
    ("fingerprint", .str fields.fingerprint),
    ("fired_at", .str (nowIso clock))]

def httpChannel : Json → Except PyError Bool
  | .str channel => .ok (httpChannels.contains channel)
  | .arr _ | .obj _ => .error .typeError
  | _ => .ok false

def isHttpUrl (url : String) : Bool := Python.startsWith "http://" url || Python.startsWith "https://" url

def deliver (rule payload : Dict) : Except PyError Bool := do
  let target ← Python.asText ((Dict.get rule "target").orElse (.str ""))
  let config ← ruleConfig rule
  let destination ← Python.asText ((Dict.get config "destination").orElse (.str (Python.strip target)))
  let destination := Python.strip destination
  if ← httpChannel (Dict.get rule "channel") then
    if isHttpUrl destination then
      if ← net.destinationAllowed destination then
        return (net.post destination payload).any fun status => decide (status < 400)
      else return false
    else return false
  else return false

def markFired (rule : Dict) (projectId : Option String) (db : Db) : Db :=
  (updateConfig "alert_rules" (py.str (Dict.get rule "id"))
    [("last_triggered_at", .str (nowIso clock))] projectId false db).elim db Prod.fst

def evaluateRule (rule ev : Dict) (projectId : Option String) (db : Db) :
    Except PyError (Option (Db × Dict)) := do
  match ← firing py backend clock rule ev projectId db with
  | none => return none
  | some reason =>
    let payload := buildMessage py clock rule (eventFields py ev) reason
    if ← deliver net rule payload then return some (markFired py clock rule projectId db, payload)
    else return none

def alertRules (projectId : Option String) (db : Db) : List (ℕ × Dict) :=
  (db.configEntities.select (configClause "alert_rules" projectId false)).map fun r => (r.1, configToDict r.2)

def tryRule (rule ev : Dict) (projectId : Option String) (db : Db) : Db × Option Dict :=
  match evaluateRule py backend clock net rule ev projectId db with
  | .ok (some (db', payload)) => (db', some payload)
  | _ => (db, none)

def evaluateRules (ev : Dict) (projectId : Option String) : List (ℕ × Dict) → Db → Db × List (ℕ × Dict)
  | [], db => (db, [])
  | (k, rule) :: rules, db =>
    let fired := tryRule py backend clock net rule ev projectId db
    let rest := evaluateRules ev projectId rules fired.1
    (rest.1, (fired.2.map fun payload => (k, payload)).toList ++ rest.2)

def evaluateEvent (ev : Dict) (projectId : Option String) (db : Db) : Db × List (ℕ × Dict) :=
  if eventFingerprint py ev = "" then (db, [])
  else evaluateRules py backend clock net ev projectId (alertRules projectId db) db

end Delivery

theorem alertRules_eq_listConfig (projectId : Option String) (db : Db) :
    (alertRules projectId db).map Prod.snd = listConfig "alert_rules" projectId false db := by
  rw [alertRules, listConfig, List.map_map]
  rfl

end JvmScout.Alerts
