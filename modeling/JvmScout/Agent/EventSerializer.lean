import JvmScout.Agent.JsonWriter

namespace JvmScout.Agent

inductive CaptureMode where
  | FULL
  | REDUCED
  | COUNT_ONLY
deriving DecidableEq

def captureModeName : CaptureMode → String
  | .FULL => "FULL"
  | .REDUCED => "REDUCED"
  | .COUNT_ONLY => "COUNT_ONLY"

structure LocalVariable (α : Type) where
  name : α
  signature : α
  slot : ℤ
  type : α
  value : α
  source : α

structure StackFrame (α : Type) where
  frameIndex : ℤ
  className : α
  methodName : α
  lineNumber : ℤ
  sourceFile : α
  appCode : Bool
  locals : List (LocalVariable α)

structure Location (α : Type) where
  className : α
  methodName : α
  lineNumber : ℤ
  sourceFile : α
  valid : Bool

structure CauseInfo (α : Type) where
  exceptionType : α
  exceptionMessage : α

structure ThreadDetails (α : Type) where
  name : α
  priority : ℤ
  isDaemon : Bool

structure JvmMetrics where
  heapUsedBytes : ℤ
  heapMaxBytes : ℤ
  gcCollectionCount : ℤ
  gcTimeMs : ℤ
  threadCount : ℤ
  loadedClassCount : ℤ
  uptimeMs : ℤ

structure CapturedEvent (α : Type) where
  fingerprint : α
  mode : CaptureMode
  hitCount : ℕ
  occurrences : ℕ
  timestamp : α
  deploymentId : α
  environment : α
  instanceId : α
  exceptionType : α
  exceptionMessage : α
  caught : Bool
  location : Location α
  caughtAt : Location α
  thread : ThreadDetails α
  causeChain : List (CauseInfo α)
  suppressed : List (CauseInfo α)
  metrics : JvmMetrics
  metricsValid : Bool
  stack : List (StackFrame α)

section Map

variable {α β : Type} (f : α → β)

def LocalVariable.map (lv : LocalVariable α) : LocalVariable β :=
  ⟨f lv.name, f lv.signature, lv.slot, f lv.type, f lv.value, f lv.source⟩

def StackFrame.map (fr : StackFrame α) : StackFrame β :=
  ⟨fr.frameIndex, f fr.className, f fr.methodName, fr.lineNumber, f fr.sourceFile, fr.appCode,
    fr.locals.map (LocalVariable.map f)⟩

def Location.map (loc : Location α) : Location β :=
  ⟨f loc.className, f loc.methodName, loc.lineNumber, f loc.sourceFile, loc.valid⟩

def CauseInfo.map (c : CauseInfo α) : CauseInfo β := ⟨f c.exceptionType, f c.exceptionMessage⟩

def ThreadDetails.map (t : ThreadDetails α) : ThreadDetails β := ⟨f t.name, t.priority, t.isDaemon⟩

def CapturedEvent.map (ev : CapturedEvent α) : CapturedEvent β where
  fingerprint := f ev.fingerprint
  mode := ev.mode
  hitCount := ev.hitCount
  occurrences := ev.occurrences
  timestamp := f ev.timestamp
  deploymentId := f ev.deploymentId
  environment := f ev.environment
  instanceId := f ev.instanceId
  exceptionType := f ev.exceptionType
  exceptionMessage := f ev.exceptionMessage
  caught := ev.caught
  location := ev.location.map f
  caughtAt := ev.caughtAt.map f
  thread := ev.thread.map f
  causeChain := ev.causeChain.map (CauseInfo.map f)
  suppressed := ev.suppressed.map (CauseInfo.map f)
  metrics := ev.metrics
  metricsValid := ev.metricsValid
  stack := ev.stack.map (StackFrame.map f)

end Map

def writeLocation (k : String) (loc : Location Bytes) (w : JsonWriter) : JsonWriter :=
  let w := w.key k
  if loc.valid then
    let w := w.beginObject
    let w := w.fieldString "className" loc.className
    let w := w.fieldString "methodName" loc.methodName
    let w := if 0 ≤ loc.lineNumber then w.fieldInt "lineNumber" loc.lineNumber else w.fieldNull "lineNumber"
    let w := w.fieldString "sourceFile" loc.sourceFile
    w.endObject
  else w.valueNull

def writeCause (c : CauseInfo Bytes) (w : JsonWriter) : JsonWriter :=
  let w := w.beginObject
  let w := w.fieldString "exceptionType" c.exceptionType
  let w := w.fieldString "exceptionMessage" c.exceptionMessage
  w.endObject

def writeCauses (k : String) (causes : List (CauseInfo Bytes)) (w : JsonWriter) : JsonWriter :=
  let w := (w.key k).beginArray
  let w := causes.foldl (fun w c => writeCause c w) w
  w.endArray

def writeMetrics (m : JvmMetrics) (w : JsonWriter) : JsonWriter :=
  let w := (w.key "jvmMetrics").beginObject
  let w := w.fieldInt "heapUsedBytes" m.heapUsedBytes
  let w := w.fieldInt "heapMaxBytes" m.heapMaxBytes
  let w := w.fieldInt "gcCollectionCount" m.gcCollectionCount
  let w := w.fieldInt "gcTimeMs" m.gcTimeMs
  let w := w.fieldInt "threadCount" m.threadCount
  let w := w.fieldInt "loadedClassCount" m.loadedClassCount
  let w := w.fieldInt "uptimeMs" m.uptimeMs
  w.endObject

def optionalField (k : String) (v : Bytes) (w : JsonWriter) : JsonWriter :=
  if v.isEmpty then w else w.fieldString k v

def writeLocal (lv : LocalVariable Bytes) (w : JsonWriter) : JsonWriter :=
  let w := w.beginObject
  let w := optionalField "name" lv.name w
  let w := optionalField "signature" lv.signature w
  let w := w.fieldInt "slot" lv.slot
  let w := optionalField "type" lv.type w
  let w := w.fieldString "value" lv.value
  let w := w.fieldString "source" lv.source
  w.endObject

def writeFrame (f : StackFrame Bytes) (w : JsonWriter) : JsonWriter :=
  let w := w.beginObject
  let w := w.fieldInt "frameIndex" f.frameIndex
  let w := w.fieldString "className" f.className
  let w := w.fieldString "methodName" f.methodName
  let w := if 0 ≤ f.lineNumber then w.fieldInt "lineNumber" f.lineNumber else w.fieldNull "lineNumber"
  let w := w.fieldString "sourceFile" f.sourceFile
  let w := w.fieldBool "isAppCode" f.appCode
  let w := (w.key "localVariables").beginArray
  let w := f.locals.foldl (fun w lv => writeLocal lv w) w
  let w := w.endArray
  w.endObject

def CapturedEvent.wireOccurrences {α : Type} (ev : CapturedEvent α) : ℕ :=
  if ev.occurrences = 0 then 1 else ev.occurrences

def serializeEvent (ev : CapturedEvent Bytes) : String :=
  let w := JsonWriter.empty.beginObject
  let w := w.fieldString "timestamp" ev.timestamp
  let w := w.fieldString "fingerprint" ev.fingerprint
  let w := w.fieldText "captureMode" (captureModeName ev.mode)
  let w := w.fieldUint "hitCount" ev.hitCount
  let w := w.fieldUint "occurrences" ev.wireOccurrences
  let w := w.fieldString "deploymentId" ev.deploymentId
  let w := w.fieldString "environment" ev.environment
  let w := w.fieldString "instanceId" ev.instanceId
  let w := w.fieldString "exceptionType" ev.exceptionType
  let w := w.fieldString "exceptionMessage" ev.exceptionMessage
  let w := w.fieldBool "caught" ev.caught
  let w := writeLocation "location" ev.location w
  let w := writeLocation "caughtAt" ev.caughtAt w
  let w := (w.key "threadInfo").beginObject
  let w := w.fieldString "name" ev.thread.name
  let w := w.fieldInt "priority" ev.thread.priority
  let w := w.fieldBool "isDaemon" ev.thread.isDaemon
  let w := w.endObject
  let w := writeCauses "causeChain" ev.causeChain w
  let w := writeCauses "suppressedExceptions" ev.suppressed w
  let w := if ev.metricsValid then writeMetrics ev.metrics w else w.fieldNull "jvmMetrics"
  let w := (w.key "stackTrace").beginArray
  let w := ev.stack.foldl (fun w f => writeFrame f w) w
  let w := w.endArray
  let w := w.endObject
  w.out

end JvmScout.Agent
