import JvmScout.Agent.Config
import JvmScout.Agent.WriterTexts

namespace JvmScout.Agent

structure SystemState where
  now : Bytes
  hostname : Bytes
  environment : List (Bytes × Bytes)
  property : String → Option Bytes
  inputArguments : List Bytes

namespace SystemInfo

def getProperty (sys : SystemState) (key : String) : Bytes := (sys.property key).getD []

/-- The loop of `glob_match`: the pattern and the text that are left, and where to go on
when they differ, after the last star. -/
def globLoop (p v : Bytes) (back : Option (Bytes × Bytes)) : Bool :=
  match v with
  | [] => (p.dropWhile fun c => c = '*'.toUInt8).isEmpty
  | c :: rest =>
    if p.head? = some '?'.toUInt8 ∨ p.head? = some c then globLoop p.tail rest back
    else if p.head? = some '*'.toUInt8 then globLoop p.tail (c :: rest) (some (p.tail, c :: rest))
    else
      match back with
      | some (star, mark) => globLoop star mark.tail (some (star, mark.tail))
      | none => false
termination_by (max ((back.map fun b => b.2.length).getD 0) v.length, p.length)
decreasing_by
  · have hp : p ≠ [] := by
      rintro rfl
      simp_all
    have hlt : p.tail.length < p.length := by
      rw [List.length_tail]
      exact Nat.sub_lt (List.length_pos_of_ne_nil hp) Nat.one_pos
    simp only [List.length_cons, Prod.lex_def]
    omega
  · have hp : p ≠ [] := by
      rintro rfl
      simp_all
    have hlt : p.tail.length < p.length := by
      rw [List.length_tail]
      exact Nat.sub_lt (List.length_pos_of_ne_nil hp) Nat.one_pos
    simp only [List.length_cons, Prod.lex_def, Option.map_some, Option.getD_some]
    omega
  · simp only [List.length_cons, Prod.lex_def, Option.map_some, Option.getD_some, List.length_tail]
    omega

def globMatch (pat s : Bytes) : Bool := globLoop (lower pat) (lower s) none

def isRedacted (cfg : AgentConfig) (key : Bytes) : Bool := redactMatches cfg.redactProps.patterns key

def mask : Bytes := Utf16.modifiedUtf8 "***"

def writeJvmArgs (sys : SystemState) (w : JsonWriter) : JsonWriter :=
  let w := (w.key "jvmArgs").beginArray
  let w := sys.inputArguments.foldl (fun w a => w.valueString a) w
  w.endArray

def kubernetes (sys : SystemState) : Bool :=
  sys.environment.any fun kv => kv.1 = Utf16.modifiedUtf8 "KUBERNETES_SERVICE_HOST"

def captured (cfg : AgentConfig) (key : Bytes) : Bool := cfg.envCapture.any fun pat => globMatch pat key

def kProps : List String :=
  ["java.home", "java.io.tmpdir", "user.timezone", "file.encoding", "os.name", "os.arch", "user.name",
    "user.dir", "sun.java.command"]

def writeEnvVar (cfg : AgentConfig) (kv : Bytes × Bytes) (w : JsonWriter) : JsonWriter :=
  if captured cfg kv.1 then (w.keyBytes kv.1).valueString (if isRedacted cfg kv.1 then mask else kv.2) else w

def writeProperty (cfg : AgentConfig) (sys : SystemState) (p : String) (w : JsonWriter) : JsonWriter :=
  let v := getProperty sys p
  w.fieldString p (if isRedacted cfg (Utf16.modifiedUtf8 p) then mask else v)

def writeJvmInfo (sys : SystemState) (w : JsonWriter) : JsonWriter :=
  let w := (w.key "jvmInfo").beginObject
  let w := w.fieldString "version" (getProperty sys "java.version")
  let w := w.fieldString "vendor" (getProperty sys "java.vendor")
  let w := w.fieldString "vmName" (getProperty sys "java.vm.name")
  let w := w.fieldString "vmVersion" (getProperty sys "java.vm.version")
  let w := w.fieldString "runtimeName" (getProperty sys "java.runtime.name")
  w.endObject

def writeHostInfo (sys : SystemState) (w : JsonWriter) : JsonWriter :=
  let w := (w.key "hostInfo").beginObject
  let w := w.fieldString "name" sys.hostname
  let w := w.fieldString "os" (getProperty sys "os.name")
  let w := w.fieldString "osVersion" (getProperty sys "os.version")
  let w := w.fieldString "arch" (getProperty sys "os.arch")
  let w := w.fieldBool "kubernetes" (kubernetes sys)
  w.endObject

def writeEnvVars (cfg : AgentConfig) (sys : SystemState) (w : JsonWriter) : JsonWriter :=
  let w := (w.key "envVars").beginObject
  let w := if cfg.envCapture.isEmpty then w
    else sys.environment.foldl (fun w kv => writeEnvVar cfg kv w) w
  w.endObject

def writeSystemProperties (cfg : AgentConfig) (sys : SystemState) (w : JsonWriter) : JsonWriter :=
  let w := (w.key "systemProperties").beginObject
  let w := kProps.foldl (fun w p => writeProperty cfg sys p w) w
  w.endObject

def writeAgentConfig (cfg : AgentConfig) (w : JsonWriter) : JsonWriter :=
  let w := (w.key "agentConfig").beginObject
  let w := w.fieldString "host" cfg.host
  let w := w.fieldInt "port" cfg.port
  let w := w.fieldString "path" cfg.path
  let w := w.fieldBool "console" cfg.console
  let w := w.fieldInt "depth" cfg.depth
  let w := w.fieldBool "bci" cfg.bci
  w.endObject

def buildAgentStartEvent (cfg : AgentConfig) (sys : SystemState) : String :=
  let w := JsonWriter.empty.beginObject
  let w := w.fieldText "type" "agent_start"
  let w := w.fieldString "timestamp" sys.now
  let w := w.fieldString "instanceId" cfg.instanceId
  let w := w.fieldString "deploymentId" cfg.deployment
  let w := w.fieldString "environment" cfg.environment
  let w := writeJvmInfo sys w
  let w := writeHostInfo sys w
  let w := writeJvmArgs sys w
  let w := w.fieldString "classpath" (getProperty sys "java.class.path")
  let w := writeEnvVars cfg sys w
  let w := writeSystemProperties cfg sys w
  let w := writeAgentConfig cfg w
  let w := w.endObject
  w.out

end SystemInfo

end JvmScout.Agent
