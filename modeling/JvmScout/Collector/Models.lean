import JvmScout.Lib.Python

/-!
The wire models of `models.py`. A field is looked up under its camelCase alias
first and under its own name second, unknown keys are ignored, and `none` is a
`ValidationError`.
-/

namespace JvmScout.Models

def field (d : Dict) (camel snake : String) : Option Json := (Dict.get? d camel).or (Dict.get? d snake)

def optional {α : Type} (read : Json → Option α) : Option Json → Option (Option α)
  | none => some none
  | some .null => some none
  | some v => (read v).map some

def withDefault {α : Type} (default : α) (read : Json → Option α) : Option Json → Option α
  | none => some default
  | some v => read v

def text : Json → Option String
  | .str s => some s
  | _ => none

def model {α : Type} (read : Dict → Option α) : Json → Option α
  | .obj d => read d
  | _ => none

def list {α : Type} (read : Json → Option α) : Json → Option (List α)
  | .arr xs => xs.mapM read
  | _ => none

def dict : Json → Option Dict
  | .obj d => some d
  | _ => none

structure Location where
  className : Option String
  methodName : Option String
  lineNumber : Option ℤ
  sourceFile : Option String

structure ThreadInfo where
  name : Option String
  priority : Option ℤ
  isDaemon : Option Bool

structure Cause where
  exceptionType : Option String
  exceptionMessage : Option String

structure LocalVariable where
  name : Option String
  signature : Option String
  slot : Option ℤ
  type : Option String
  value : Option String
  source : Option String

structure StackFrame where
  frameIndex : Option ℤ
  className : Option String
  methodName : Option String
  lineNumber : Option ℤ
  sourceFile : Option String
  isAppCode : Option Bool
  localVariables : List LocalVariable

structure JvmMetrics where
  heapUsedBytes : Option ℤ
  heapMaxBytes : Option ℤ
  gcCollectionCount : Option ℤ
  gcTimeMs : Option ℤ
  threadCount : Option ℤ
  loadedClassCount : Option ℤ
  uptimeMs : Option ℤ

structure ExceptionEvent where
  timestamp : Option String
  fingerprint : String
  captureMode : Option String
  hitCount : ℤ
  occurrences : ℤ
  deploymentId : Option String
  environment : Option String
  instanceId : Option String
  exceptionType : Option String
  exceptionMessage : Option String
  caught : Option Bool
  location : Option Location
  caughtAt : Option Location
  threadInfo : Option ThreadInfo
  causeChain : List Cause
  suppressedExceptions : List Cause
  jvmMetrics : Option JvmMetrics
  stackTrace : List StackFrame

structure JvmInfo where
  version : Option String
  vendor : Option String
  vmName : Option String
  vmVersion : Option String
  runtimeName : Option String

structure HostInfo where
  name : Option String
  os : Option String
  osVersion : Option String
  arch : Option String
  kubernetes : Option Bool

structure AgentStartEvent where
  type : String
  timestamp : Option String
  instanceId : Option String
  deploymentId : Option String
  environment : Option String
  jvmInfo : Option JvmInfo
  hostInfo : Option HostInfo
  jvmArgs : List String
  classpath : Option String
  envVars : Dict
  systemProperties : Dict
  agentConfig : Dict

variable (py : Python)

def Location.validate (d : Dict) : Option Location := do
  let className ← optional text (field d "className" "class_name")
  let methodName ← optional text (field d "methodName" "method_name")
  let lineNumber ← optional py.laxInt (field d "lineNumber" "line_number")
  let sourceFile ← optional text (field d "sourceFile" "source_file")
  return ⟨className, methodName, lineNumber, sourceFile⟩

def ThreadInfo.validate (d : Dict) : Option ThreadInfo := do
  let name ← optional text (Dict.get? d "name")
  let priority ← optional py.laxInt (Dict.get? d "priority")
  let isDaemon ← optional py.laxBool (field d "isDaemon" "is_daemon")
  return ⟨name, priority, isDaemon⟩

def Cause.validate (d : Dict) : Option Cause := do
  let exceptionType ← optional text (field d "exceptionType" "exception_type")
  let exceptionMessage ← optional text (field d "exceptionMessage" "exception_message")
  return ⟨exceptionType, exceptionMessage⟩

def LocalVariable.validate (d : Dict) : Option LocalVariable := do
  let name ← optional text (Dict.get? d "name")
  let signature ← optional text (Dict.get? d "signature")
  let slot ← optional py.laxInt (Dict.get? d "slot")
  let type ← optional text (Dict.get? d "type")
  let value ← optional text (Dict.get? d "value")
  let source ← optional text (Dict.get? d "source")
  return ⟨name, signature, slot, type, value, source⟩

def StackFrame.validate (d : Dict) : Option StackFrame := do
  let frameIndex ← optional py.laxInt (field d "frameIndex" "frame_index")
  let className ← optional text (field d "className" "class_name")
  let methodName ← optional text (field d "methodName" "method_name")
  let lineNumber ← optional py.laxInt (field d "lineNumber" "line_number")
  let sourceFile ← optional text (field d "sourceFile" "source_file")
  let isAppCode ← optional py.laxBool (field d "isAppCode" "is_app_code")
  let localVariables ← withDefault [] (list (model (LocalVariable.validate py)))
    (field d "localVariables" "local_variables")
  return ⟨frameIndex, className, methodName, lineNumber, sourceFile, isAppCode, localVariables⟩

def JvmMetrics.validate (d : Dict) : Option JvmMetrics := do
  let heapUsedBytes ← optional py.laxInt (field d "heapUsedBytes" "heap_used_bytes")
  let heapMaxBytes ← optional py.laxInt (field d "heapMaxBytes" "heap_max_bytes")
  let gcCollectionCount ← optional py.laxInt (field d "gcCollectionCount" "gc_collection_count")
  let gcTimeMs ← optional py.laxInt (field d "gcTimeMs" "gc_time_ms")
  let threadCount ← optional py.laxInt (field d "threadCount" "thread_count")
  let loadedClassCount ← optional py.laxInt (field d "loadedClassCount" "loaded_class_count")
  let uptimeMs ← optional py.laxInt (field d "uptimeMs" "uptime_ms")
  return ⟨heapUsedBytes, heapMaxBytes, gcCollectionCount, gcTimeMs, threadCount, loadedClassCount,
    uptimeMs⟩

def coerceFingerprint : Json → String
  | .null => ""
  | v => py.str v

def positiveOccurrences (v : ℤ) : ℤ := if 1 ≤ v then v else 1

def ExceptionEvent.validate (d : Dict) : Option ExceptionEvent := do
  let timestamp ← optional text (Dict.get? d "timestamp")
  let fingerprint ← withDefault "" (fun v => some (coerceFingerprint py v)) (Dict.get? d "fingerprint")
  let captureMode ← optional text (field d "captureMode" "capture_mode")
  let hitCount ← withDefault 1 py.laxInt (field d "hitCount" "hit_count")
  let occurrences ← withDefault 1 (fun v => (py.laxInt v).map positiveOccurrences)
    (Dict.get? d "occurrences")
  let deploymentId ← optional text (field d "deploymentId" "deployment_id")
  let environment ← optional text (Dict.get? d "environment")
  let instanceId ← optional text (field d "instanceId" "instance_id")
  let exceptionType ← optional text (field d "exceptionType" "exception_type")
  let exceptionMessage ← optional text (field d "exceptionMessage" "exception_message")
  let caught ← optional py.laxBool (Dict.get? d "caught")
  let location ← optional (model (Location.validate py)) (Dict.get? d "location")
  let caughtAt ← optional (model (Location.validate py)) (field d "caughtAt" "caught_at")
  let threadInfo ← optional (model (ThreadInfo.validate py)) (field d "threadInfo" "thread_info")
  let causeChain ← withDefault [] (list (model Cause.validate)) (field d "causeChain" "cause_chain")
  let suppressedExceptions ← withDefault [] (list (model Cause.validate))
    (field d "suppressedExceptions" "suppressed_exceptions")
  let jvmMetrics ← optional (model (JvmMetrics.validate py)) (field d "jvmMetrics" "jvm_metrics")
  let stackTrace ← withDefault [] (list (model (StackFrame.validate py)))
    (field d "stackTrace" "stack_trace")
  return ⟨timestamp, fingerprint, captureMode, hitCount, occurrences, deploymentId, environment,
    instanceId, exceptionType, exceptionMessage, caught, location, caughtAt, threadInfo, causeChain,
    suppressedExceptions, jvmMetrics, stackTrace⟩

def JvmInfo.validate (d : Dict) : Option JvmInfo := do
  let version ← optional text (Dict.get? d "version")
  let vendor ← optional text (Dict.get? d "vendor")
  let vmName ← optional text (field d "vmName" "vm_name")
  let vmVersion ← optional text (field d "vmVersion" "vm_version")
  let runtimeName ← optional text (field d "runtimeName" "runtime_name")
  return ⟨version, vendor, vmName, vmVersion, runtimeName⟩

def HostInfo.validate (d : Dict) : Option HostInfo := do
  let name ← optional text (Dict.get? d "name")
  let os ← optional text (Dict.get? d "os")
  let osVersion ← optional text (field d "osVersion" "os_version")
  let arch ← optional text (Dict.get? d "arch")
  let kubernetes ← optional py.laxBool (Dict.get? d "kubernetes")
  return ⟨name, os, osVersion, arch, kubernetes⟩

def AgentStartEvent.validate (d : Dict) : Option AgentStartEvent := do
  let type ← withDefault "agent_start" text (Dict.get? d "type")
  let timestamp ← optional text (Dict.get? d "timestamp")
  let instanceId ← optional text (field d "instanceId" "instance_id")
  let deploymentId ← optional text (field d "deploymentId" "deployment_id")
  let environment ← optional text (Dict.get? d "environment")
  let jvmInfo ← optional (model JvmInfo.validate) (field d "jvmInfo" "jvm_info")
  let hostInfo ← optional (model (HostInfo.validate py)) (field d "hostInfo" "host_info")
  let jvmArgs ← withDefault [] (list text) (field d "jvmArgs" "jvm_args")
  let classpath ← optional text (Dict.get? d "classpath")
  let envVars ← withDefault [] dict (field d "envVars" "env_vars")
  let systemProperties ← withDefault [] dict (field d "systemProperties" "system_properties")
  let agentConfig ← withDefault [] dict (field d "agentConfig" "agent_config")
  return ⟨type, timestamp, instanceId, deploymentId, environment, jvmInfo, hostInfo, jvmArgs,
    classpath, envVars, systemProperties, agentConfig⟩

theorem optional_text {j : Option Json} {o : Option String} (h : optional text j = some o) (s : String) :
    o = some s ↔ j = some (.str s) := by
  rcases j with _ | v
  · simp only [optional, Option.some.injEq] at h
    simp [← h]
  · cases v <;> simp [optional, text] at h <;> simp [← h]

theorem mem_list_model {α : Type} {read : Dict → Option α} {xs : List Json} {ys : List α}
    (h : list (model read) (.arr xs) = some ys) :
    ∃ ds : List Dict, xs = ds.map Json.obj ∧ ds.mapM read = some ys := by
  induction xs generalizing ys with
  | nil => exact ⟨[], rfl, by simpa [list] using h⟩
  | cons x xs ih =>
    simp only [list, List.mapM_cons, bind, Option.bind_eq_some_iff, pure, Option.some.injEq] at h
    obtain ⟨y, hy, rest, hrest, rfl⟩ := h
    obtain ⟨ds, rfl, hds⟩ := ih hrest
    cases x with
    | obj d =>
      exact ⟨d :: ds, rfl, by simp [List.mapM_cons, hds, show read d = some y from hy]⟩
    | _ => simp [model] at hy

variable {py}

theorem LocalVariable.validate_fields {d : Dict} {lv : LocalVariable}
    (h : LocalVariable.validate py d = some lv) :
    optional text (Dict.get? d "name") = some lv.name ∧
      optional text (Dict.get? d "value") = some lv.value := by
  simp only [validate, bind, Option.bind_eq_some_iff, pure, Option.some.injEq] at h
  obtain ⟨_, hname, _, _, _, _, _, _, _, hvalue, _, _, rfl⟩ := h
  exact ⟨hname, hvalue⟩

theorem StackFrame.validate_locals {d : Dict} {fr : StackFrame}
    (h : StackFrame.validate py d = some fr) :
    withDefault [] (list (model (LocalVariable.validate py)))
      (field d "localVariables" "local_variables") = some fr.localVariables := by
  simp only [validate, bind, Option.bind_eq_some_iff, pure, Option.some.injEq] at h
  obtain ⟨_, _, _, _, _, _, _, _, _, _, _, _, _, hlocals, rfl⟩ := h
  exact hlocals

theorem ExceptionEvent.validate_fields {d : Dict} {ev : ExceptionEvent}
    (h : ExceptionEvent.validate py d = some ev) :
    optional text (field d "exceptionMessage" "exception_message") = some ev.exceptionMessage ∧
      withDefault [] (list (model (StackFrame.validate py))) (field d "stackTrace" "stack_trace") =
        some ev.stackTrace ∧
      withDefault "" (fun v => some (coerceFingerprint py v)) (Dict.get? d "fingerprint") =
        some ev.fingerprint := by
  unfold validate at h
  obtain ⟨_, -, h⟩ := Option.bind_eq_some_iff.mp h
  obtain ⟨fingerprint, hfingerprint, h⟩ := Option.bind_eq_some_iff.mp h
  obtain ⟨_, -, h⟩ := Option.bind_eq_some_iff.mp h
  obtain ⟨_, -, h⟩ := Option.bind_eq_some_iff.mp h
  obtain ⟨_, -, h⟩ := Option.bind_eq_some_iff.mp h
  obtain ⟨_, -, h⟩ := Option.bind_eq_some_iff.mp h
  obtain ⟨_, -, h⟩ := Option.bind_eq_some_iff.mp h
  obtain ⟨_, -, h⟩ := Option.bind_eq_some_iff.mp h
  obtain ⟨_, -, h⟩ := Option.bind_eq_some_iff.mp h
  obtain ⟨exceptionMessage, hmessage, h⟩ := Option.bind_eq_some_iff.mp h
  obtain ⟨_, -, h⟩ := Option.bind_eq_some_iff.mp h
  obtain ⟨_, -, h⟩ := Option.bind_eq_some_iff.mp h
  obtain ⟨_, -, h⟩ := Option.bind_eq_some_iff.mp h
  obtain ⟨_, -, h⟩ := Option.bind_eq_some_iff.mp h
  obtain ⟨_, -, h⟩ := Option.bind_eq_some_iff.mp h
  obtain ⟨_, -, h⟩ := Option.bind_eq_some_iff.mp h
  obtain ⟨_, -, h⟩ := Option.bind_eq_some_iff.mp h
  obtain ⟨stackTrace, hstack, h⟩ := Option.bind_eq_some_iff.mp h
  cases h
  exact ⟨hmessage, hstack, hfingerprint⟩

end JvmScout.Models
