import JvmScout.Collector.Routes
import JvmScout.Lib.Aggregate

namespace JvmScout.Storage

open Relational

def envClause (environment : String) (row : ExceptionRow) : Bool :=
  if environment = "production" then
    row.environment == some "production" || row.environment == none || row.environment == some ""
  else row.environment == some environment

def filtered (clause : String → ExceptionRow → Bool) (value : Option String) (row : ExceptionRow) : Bool :=
  value.all fun v => v == "" || clause v row

def inScope (projectId : Option String) : ExceptionRow → Bool := applyProject ExceptionRow.projectId projectId

structure ExceptionFilter where
  exceptionType : Option String
  deploymentId : Option String
  environment : Option String
  caught : Option Bool
  fingerprint : Option String

def listClause (f : ExceptionFilter) (projectId : Option String) (row : ExceptionRow) : Bool :=
  inScope projectId row &&
    filtered (fun v row => row.exceptionType == some v) f.exceptionType row &&
    filtered (fun v row => row.deploymentId == some v) f.deploymentId row &&
    filtered envClause f.environment row &&
    f.caught.all (fun v => row.caught == some v) &&
    filtered (fun v row => row.fingerprint == v) f.fingerprint row

def optionalInt (n : Option ℤ) : Json := n.elim .null .int

def optionalBool (b : Option Bool) : Json := b.elim .null .bool

def exceptionColumns (r : ℕ × ExceptionRow) : Dict :=
  [("id", .int r.1),
    ("received_at", .str (Python.isoFormat r.2.receivedAt)),
    ("timestamp", optionalText r.2.timestamp),
    ("fingerprint", .str r.2.fingerprint),
    ("capture_mode", optionalText r.2.captureMode),
    ("hit_count", .int r.2.hitCount),
    ("deployment_id", optionalText r.2.deploymentId),
    ("environment", optionalText r.2.environment),
    ("instance_id", optionalText r.2.instanceId),
    ("exception_type", optionalText r.2.exceptionType),
    ("exception_message", optionalText r.2.exceptionMessage),
    ("caught", optionalBool r.2.caught),
    ("class_name", optionalText r.2.className),
    ("method_name", optionalText r.2.methodName),
    ("line_number", optionalInt r.2.lineNumber),
    ("source_file", optionalText r.2.sourceFile),
    ("thread_name", optionalText r.2.threadName)]

def listExceptions (limit offset : ℕ) (f : ExceptionFilter) (projectId : Option String) (db : Db) :
    List Dict × ℕ :=
  ((((db.exceptions.select (listClause f projectId)).reverse.drop offset).take limit).map exceptionColumns,
    db.exceptions.count (listClause f projectId))

def getException (excId : ℕ) (projectId : Option String) (db : Db) : Option Dict :=
  match db.exceptions.lookup excId with
  | none => none
  | some row => if projectId ≠ none ∧ row.projectId ≠ projectId then none else some row.rawJson

def uncaughtClause (projectId : Option String) (row : ExceptionRow) : Bool :=
  inScope projectId row && row.caught == some false

def stats (projectId : Option String) (db : Db) : Dict :=
  let rows := (db.exceptions.select (inScope projectId)).map Prod.snd
  let instances := (db.jvmInstances.select (applyProject JvmInstanceRow.projectId projectId)).map Prod.snd
  let topTypes := largest (fun g => g.2.length) 10 (groupBy ExceptionRow.exceptionType rows)
  let lastSeen (g : Option String × List JvmInstanceRow) : ℕ :=
    (g.2.map JvmInstanceRow.receivedAt).foldl max 0
  let recent := largest lastSeen 10 (groupBy JvmInstanceRow.deploymentId instances)
  [("totalExceptions", .int (db.exceptions.count (inScope projectId))),
    ("uniqueFingerprints", .int (countDistinct (fun row => some row.fingerprint) rows)),
    ("uncaught", .int (db.exceptions.count (uncaughtClause projectId))),
    ("deployments", .int (countDistinct ExceptionRow.deploymentId rows)),
    ("topTypes", .arr (topTypes.map fun g =>
      .obj [("type", (optionalText g.1).orElse (.str "unknown")), ("count", .int g.2.length)])),
    ("recentDeployments", .arr (recent.map fun g =>
      .obj [("deployment", (optionalText g.1).orElse (.str "(none)")),
        ("lastSeen", .str (Python.isoFormat (lastSeen g)))]))]

def occ (row : ExceptionRow) : ℤ := row.occurrences.getD 1

def sumOcc (rows : List ExceptionRow) : ℤ := (rows.map occ).sum

/-- The granularity of the groups: seconds below a minute, minutes from there on. -/
def groupSecond (bucket : ℚ) (receivedAt : ℕ) : ℕ :=
  if bucket < 60 then receivedAt else receivedAt / 60 * 60

def bucketSeconds (hours buckets : ℕ) : ℚ := max 1 (hours * 3600 / buckets)

def windowFrom (clock : ℚ) (hours : ℕ) : ℚ := clock - hours * 3600

def bucketIndex (start bucket : ℚ) (buckets second : ℕ) : ℕ :=
  let idx := Python.truncate ((second - start) / bucket)
  if idx < 0 then 0 else if (buckets : ℤ) ≤ idx then buckets - 1 else idx.toNat

def receivedFrom (start : ℚ) (row : ExceptionRow) : Bool := decide (⌊start⌋ ≤ (row.receivedAt : ℤ))

def windowClause (start : ℚ) (environment projectId : Option String) (row : ExceptionRow) : Bool :=
  receivedFrom start row && filtered envClause environment row && inScope projectId row

structure Slot where
  t : ℤ
  caught : ℤ
  uncaught : ℤ

def Slot.add (caught : Option Bool) (n : ℤ) (s : Slot) : Slot :=
  if caught = some true then { s with caught := s.caught + n } else { s with uncaught := s.uncaught + n }

def Slot.toJson (s : Slot) : Json :=
  .obj [("t", .int s.t), ("caught", .int s.caught), ("uncaught", .int s.uncaught)]

def millis (seconds : ℚ) : ℤ := Python.truncate (seconds * 1000)

def timeseriesSlots (clock : ℚ) (hours buckets : ℕ) (environment projectId : Option String) (db : Db) :
    List Slot :=
  let start := windowFrom clock hours
  let bucket := bucketSeconds hours buckets
  let rows := (db.exceptions.select (windowClause start environment projectId)).map Prod.snd
  let groups := groupBy (fun row => (groupSecond bucket row.receivedAt, row.caught)) rows
  let series := (List.range buckets).map fun i => ⟨millis (start + i * bucket), 0, 0⟩
  groups.foldl (fun slots g =>
    slots.modify (bucketIndex start bucket buckets g.1.1) (Slot.add g.1.2 (sumOcc g.2))) series

def timeseries (clock : ℚ) (hours buckets : ℕ) (environment projectId : Option String) (db : Db) : Dict :=
  [("hours", .int hours), ("buckets", .int buckets),
    ("series", .arr ((timeseriesSlots clock hours buckets environment projectId db).map Slot.toJson))]

structure EventCounts where
  total : ℤ
  buckets : List ℤ

def EventCounts.add (i : ℕ) (n : ℤ) (e : EventCounts) : EventCounts :=
  ⟨e.total + n, e.buckets.modify i (· + n)⟩

def EventCounts.toJson (e : EventCounts) : Json :=
  .obj [("total", .int e.total), ("buckets", .arr (e.buckets.map .int))]

def eventCounts (clock : ℚ) (hours buckets : ℕ) (environment projectId : Option String) (db : Db) :
    List (String × EventCounts) :=
  let start := windowFrom clock hours
  let bucket := bucketSeconds hours buckets
  let rows := (db.exceptions.select (windowClause start environment projectId)).map Prod.snd
  let groups := groupBy (fun row => (row.fingerprint, groupSecond bucket row.receivedAt)) rows
  groups.foldl (fun series g =>
    if g.1.1 = "" then series
    else
      let entry := (Assoc.get? series g.1.1).getD ⟨0, List.replicate buckets 0⟩
      Assoc.set series g.1.1 (entry.add (bucketIndex start bucket buckets g.1.2) (sumOcc g.2))) []

def eventSeries (clock : ℚ) (hours buckets : ℕ) (environment projectId : Option String) (db : Db) : Dict :=
  [("hours", .int hours), ("buckets", .int buckets),
    ("start", .int (millis (windowFrom clock hours))),
    ("bucket_ms", .int (millis (bucketSeconds hours buckets))),
    ("series", .obj ((eventCounts clock hours buckets environment projectId db).map fun e =>
      (e.1, e.2.toJson)))]

def minutesBefore (clock : ℚ) (minutes : ℤ) : Except PyError ℚ :=
  let start := clock - minutes * 60
  if -62135596800 ≤ start ∧ start < 253402300800 then .ok start else .error .overflowError

def boundFilter (backend : Backend) (value : Json) : Except PyError (Option String) :=
  if value.truthy then
    match backend.bindText value with
    | some s => .ok (some s)
    | none => .error .operationalError
  else .ok none

def occurrencesClause (start : ℚ) (deploymentId projectId : Option String) (row : ExceptionRow) : Bool :=
  receivedFrom start row && deploymentId.all (fun d => row.deploymentId == some d) && inScope projectId row

def countOccurrences (backend : Backend) (clock : ℚ) (minutes : ℤ) (deploymentId : Json)
    (projectId : Option String) (db : Db) : Except PyError ℤ := do
  let start ← minutesBefore clock minutes
  let deployment ← boundFilter backend deploymentId
  return sumOcc ((db.exceptions.select (occurrencesClause start deployment projectId)).map Prod.snd)

def fingerprintClause (fingerprint : String) (projectId : Option String) (row : ExceptionRow) : Bool :=
  row.fingerprint == fingerprint && inScope projectId row

def fingerprintRowCount (fingerprint : String) (projectId : Option String) (db : Db) : ℕ :=
  db.exceptions.count (fingerprintClause fingerprint projectId)

def countedRow (receivedAt : ℕ) (fingerprint : String) (occurrences : ℤ)
    (deploymentId projectId : Option String) : ExceptionRow where
  receivedAt := receivedAt
  timestamp := none
  fingerprint := fingerprint
  captureMode := none
  hitCount := 1
  occurrences := some occurrences
  projectId := projectId
  deploymentId := deploymentId
  environment := none
  instanceId := none
  exceptionType := none
  exceptionMessage := none
  caught := none
  className := none
  methodName := none
  lineNumber := none
  sourceFile := none
  threadName := none
  rawJson := []

def getSourceClass (className : String) (projectId : Option String) (db : Db) : Option String :=
  (db.sourceClasses.select (classClause className projectId)).head?.map fun r => r.2.bytecodeB64

def listInstances (projectId : Option String) (db : Db) : List Dict :=
  (db.jvmInstances.select (applyProject JvmInstanceRow.projectId projectId)).reverse.map fun r => r.2.rawJson

def getInstance (instanceId : String) (projectId : Option String) (db : Db) : Option Dict :=
  match findInstance instanceId db with
  | none => none
  | some (_, row) => if projectId ≠ none ∧ row.projectId ≠ projectId then none else some row.rawJson

end JvmScout.Storage

namespace JvmScout.Routes

open Storage Security

structure Decompiler where
  available : Bool
  decompileClass : String → String → Option String
  buildSnippet : String → Json → ℤ → Except PyError String

section Source

variable (py : Python) (decompiler : Decompiler)

def firstOf (d : Dict) (camel snake : String) (default : Json) : Json :=
  ((Dict.get d camel).orElse (Dict.get d snake)).orElse default

def attachFrame (projectId : Option String) (db : Db) : Json → Except PyError Json
  | .obj f =>
    let cls := firstOf f "className" "class_name" (.str "")
    if !(firstOf f "isAppCode" "is_app_code" .null).truthy || (Dict.get f "sourceSnippet").truthy ||
      !cls.truthy then .ok (.obj f)
    else do
      let cls ← Python.asText cls
      let slash := Python.replaceChar '.' '/' cls
      match (getSourceClass slash projectId db).filter (· ≠ "") with
      | none => return .obj f
      | some b64 =>
        match (decompiler.decompileClass slash b64).filter (· ≠ "") with
        | none => return .obj f
        | some src =>
          let line ← py.toInt (firstOf f "lineNumber" "line_number" (.int 0))
          let snippet ← decompiler.buildSnippet src (firstOf f "methodName" "method_name" (.str "")) line
          return .obj (Dict.set f "sourceSnippet" (.str snippet))
  | f => .ok f

def attachFrames (projectId : Option String) (db : Db) : Json → Except PyError Json
  | .arr frames => (frames.mapM (attachFrame py decompiler projectId db)).map .arr
  | .str s => .ok (.str s)
  | .obj d => .ok (.obj d)
  | _ => .error .typeError

def attachSource (projectId : Option String) (db : Db) (ev : Dict) : Except PyError Dict :=
  let attach (k : String) : Except PyError Dict :=
    (attachFrames py decompiler projectId db (Dict.get ev k)).map (Dict.set ev k)
  if !decompiler.available then .ok ev
  else if (Dict.get ev "stackTrace").truthy then attach "stackTrace"
  else if (Dict.get ev "stack_trace").truthy then attach "stack_trace"
  else .ok ev

end Source

/-- The requests that read, but for `/metrics`, which does not ask the database. -/
inductive ReadRequest where
  | exceptions (limit offset : ℤ) (f : ExceptionFilter)
  | exception (excId : ℤ)
  | stats
  | timeseries (hours buckets : ℤ) (environment : Option String)
  | eventSeries (hours buckets : ℤ) (environment : Option String)
  | jvmInfo
  | jvmInfoOne (instanceId : String)
  | config (table : String)

def queryParam (low : ℤ) (high : Option ℤ) (n : ℤ) : Except Failure ℕ :=
  if low ≤ n ∧ high.all (fun h => decide (n ≤ h)) then .ok n.toNat
  else .error (.http 422 "Unprocessable Entity")

def found : Option Dict → Except Failure Dict
  | some d => .ok d
  | none => .error (.http 404 "not found")

section Endpoints

variable (py : Python) (decompiler : Decompiler) (clock : ℚ) (who : Principal) (db : Db)

def getExceptions (limit offset : ℤ) (f : ExceptionFilter) : Except Failure Json := do
  let limit ← queryParam 1 (some 500) limit
  let offset ← queryParam 0 none offset
  let (items, total) := listExceptions limit offset f who.scope db
  return .obj [("items", .arr (items.map .obj)), ("total", .int total), ("limit", .int limit),
    ("offset", .int offset)]

def getExceptionDetail (excId : ℤ) : Except Failure Json := do
  let ev ← found (if excId < 0 then none else getException excId.toNat who.scope db)
  let ev ← raising (attachSource py decompiler who.scope db ev)
  return .obj ev

def getTimeseries (hours buckets : ℤ) (environment : Option String) : Except Failure Json := do
  let hours ← queryParam 1 (some (24 * 90)) hours
  let buckets ← queryParam 1 (some 200) buckets
  return .obj (timeseries clock hours buckets environment who.scope db)

def getEventSeries (hours buckets : ℤ) (environment : Option String) : Except Failure Json := do
  let hours ← queryParam 1 (some (24 * 90)) hours
  let buckets ← queryParam 1 (some 200) buckets
  return .obj (eventSeries clock hours buckets environment who.scope db)

def getConfig (table : String) : Except Failure Json := do
  checkConfigTable table
  if table = "api_tokens" ∧ ¬ who.canAdmin then throw (.http 403 "token lacks admin access")
  else
    let (projectId, allProjects) := configScope who
    return .arr ((listConfig table projectId allProjects db).map .obj)

def respond (request : ReadRequest) : Except Failure Json := do
  requireRead who
  match request with
  | .exceptions limit offset f => getExceptions who db limit offset f
  | .exception excId => getExceptionDetail py decompiler who db excId
  | .stats => return .obj (stats who.scope db)
  | .timeseries hours buckets environment => getTimeseries clock who db hours buckets environment
  | .eventSeries hours buckets environment => getEventSeries clock who db hours buckets environment
  | .jvmInfo => return .arr ((listInstances who.scope db).map .obj)
  | .jvmInfoOne instanceId => return .obj (← found (getInstance instanceId who.scope db))
  | .config table => getConfig who db table

end Endpoints

end JvmScout.Routes
