import JvmScout.Agent.Config
import JvmScout.Lib.Layers
import Mathlib.Data.List.DropRight

namespace JvmScout.Agent

open Layers

structure AgentSettings extends AgentConfig where
  timeoutMs : ℤ
  https : Bool
  tlsInsecure : Bool
  apiKey : Bytes
  deny : List Bytes
  locationDeny : List Bytes
  capturePackages : List Bytes
  bciJar : Bytes
  bciPackages : List Bytes
  bciExclude : List Bytes
  bciVerbose : Bool
  source : Bool

def defaultTypeDeny : List Bytes :=
  ["java/lang/ClassNotFoundException", "java/lang/NoClassDefFoundError", "java/lang/InterruptedException",
    "java/io/FileNotFoundException", "java/net/SocketException", "java/net/SocketTimeoutException",
    "java/util/concurrent/TimeoutException", "sun/misc/Unsafe", "jdk/internal/",
    "java/lang/reflect/InvocationTargetException"].map fun s => ascii s.toList

def defaultLocationDeny : List Bytes :=
  ["java/", "javax/", "jdk/", "sun/", "com/sun/", "org/springframework/", "org/apache/catalina/",
    "org/apache/coyote/", "org/apache/tomcat/", "org/eclipse/jetty/", "io/netty/", "org/hibernate/",
    "com/fasterxml/jackson/", "ch/qos/logback/", "org/apache/logging/log4j/", "org/slf4j/", "kotlin/", "scala/",
    "groovy/", "clojure/", "org/junit/", "org/testng/", "org/mockito/", "net/bytebuddy/"].map fun s =>
      ascii s.toList

def defaultSettings : AgentSettings where
  host := ascii "localhost".toList
  port := 8080
  path := ascii "/collector".toList
  deployment := []
  environment := []
  console := false
  depth := 3
  bci := false
  instanceId := []
  envCapture := []
  redactProps := defaultRedactProps
  timeoutMs := 5000
  https := false
  tlsInsecure := false
  apiKey := []
  deny := defaultTypeDeny
  locationDeny := defaultLocationDeny
  capturePackages := []
  bciJar := []
  bciPackages := []
  bciExclude := []
  bciVerbose := false
  source := false

/-! ### Texts -/

def toBool (v : Bytes) : Bool :=
  lower v = ascii "true".toList || lower v = ascii "1".toList || lower v = ascii "yes".toList ||
    lower v = ascii "on".toList

def isSpace (b : UInt8) : Bool := b = 0x20 || (0x09 ≤ b && b ≤ 0x0D)

def isDigit (b : UInt8) : Bool := 0x30 ≤ b && b ≤ 0x39

def digitsValue (s : Bytes) : ℤ := (s.takeWhile isDigit).foldl (fun n b => 10 * n + (b.toNat - 0x30 : ℤ)) 0

def atoi (s : Bytes) : ℤ :=
  let s := s.dropWhile isSpace
  if s.head? = some '-'.toUInt8 then -digitsValue (s.drop 1)
  else if s.head? = some '+'.toUInt8 then digitsValue (s.drop 1)
  else digitsValue s

def isBlank (b : UInt8) : Bool := b = 0x20 || b = 0x09 || b = 0x0D || b = 0x0A

def trim (s : Bytes) : Bytes := (s.dropWhile isBlank).rdropWhile isBlank

def unquote (s : Bytes) : Bytes :=
  if 2 ≤ s.length ∧ (s.head? = some 0x22 ∨ s.head? = some 0x27) ∧ s.getLast? = s.head? then
    (s.drop 1).dropLast
  else s

def splitFirst (delim : UInt8) (s : Bytes) : Option (Bytes × Bytes) :=
  if delim ∈ s then some (s.takeWhile (· ≠ delim), (s.dropWhile (· ≠ delim)).drop 1) else none

def joinSemicolons (items : List Bytes) : Bytes :=
  items.foldl (fun joined it => (if joined ≠ [] then joined ++ [';'.toUInt8] else joined) ++ it) []

def readKeyFile (files : Bytes → Option Bytes) (path : Bytes) : Bytes :=
  match files path with
  | none => []
  | some content => trim (content.takeWhile (· ≠ '\n'.toUInt8))

/-! ### The mapper -/

inductive Key where
  | host | port | path | deployment | environment | console | depth | timeout | https | tlsInsecure | apiKey
  | apiKeyFile | deny | locationDeny | capturePackages | bci | bciJar | bciPackages | bciExclude | bciVerbose
  | source | instanceId | envCapture | redactProps
  deriving DecidableEq

namespace Key

def text : Key → String
  | host => "host"
  | port => "port"
  | path => "path"
  | deployment => "deployment"
  | environment => "environment"
  | console => "console"
  | depth => "depth"
  | timeout => "timeout"
  | https => "https"
  | tlsInsecure => "tls_insecure"
  | apiKey => "api_key"
  | apiKeyFile => "api_key_file"
  | deny => "deny"
  | locationDeny => "location_deny"
  | capturePackages => "capture_packages"
  | bci => "bci"
  | bciJar => "bci_jar"
  | bciPackages => "bci_packages"
  | bciExclude => "bci_exclude"
  | bciVerbose => "bci_verbose"
  | source => "source"
  | instanceId => "instance_id"
  | envCapture => "env_capture"
  | redactProps => "redact_props"

def name (k : Key) : Bytes := ascii k.text.toList

end Key

def knownKeys : List Key :=
  [.host, .port, .path, .deployment, .environment, .console, .depth, .timeout, .https, .tlsInsecure, .apiKey,
    .apiKeyFile, .deny, .locationDeny, .capturePackages, .bci, .bciJar, .bciPackages, .bciExclude, .bciVerbose,
    .source, .instanceId, .envCapture, .redactProps]

def Key.apply (files : Bytes → Option Bytes) (k : Key) (val : Bytes) (cfg : AgentSettings) : AgentSettings :=
  match k with
  | .host => { cfg with host := val }
  | .port => { cfg with port := atoi val }
  | .path => { cfg with path := val }
  | .deployment => { cfg with deployment := val }
  | .environment => { cfg with environment := val }
  | .console => { cfg with console := toBool val }
  | .depth => { cfg with depth := atoi val }
  | .timeout => { cfg with timeoutMs := atoi val }
  | .https => { cfg with https := toBool val }
  | .tlsInsecure => { cfg with tlsInsecure := toBool val }
  | .apiKey => { cfg with apiKey := val }
  | .apiKeyFile => if readKeyFile files val ≠ [] then { cfg with apiKey := readKeyFile files val } else cfg
  | .deny => { cfg with deny := cfg.deny ++ split val ';'.toUInt8 }
  | .locationDeny => { cfg with locationDeny := cfg.locationDeny ++ split val ';'.toUInt8 }
  | .capturePackages => { cfg with capturePackages := split val ';'.toUInt8 }
  | .bci => { cfg with bci := toBool val }
  | .bciJar => { cfg with bciJar := val }
  | .bciPackages => { cfg with bciPackages := split val ';'.toUInt8 }
  | .bciExclude => { cfg with bciExclude := split val ';'.toUInt8 }
  | .bciVerbose => { cfg with bciVerbose := toBool val }
  | .source => { cfg with source := toBool val }
  | .instanceId => { cfg with instanceId := val }
  | .envCapture => { cfg with envCapture := split val ';'.toUInt8 }
  | .redactProps => { cfg with redactProps := cfg.redactProps.add val }

def applyKv (files : Bytes → Option Bytes) (key val : Bytes) (cfg : AgentSettings) : AgentSettings :=
  match knownKeys.find? fun k => key = k.name with
  | some k => k.apply files val cfg
  | none => cfg

/-! ### The three parsers -/

section Parsers

variable (files : Bytes → Option Bytes)

def applyOptions (options : Bytes) (cfg : AgentSettings) : AgentSettings :=
  (split options ','.toUInt8).foldl
    (fun cfg kv =>
      match splitFirst '='.toUInt8 kv with
      | none => cfg
      | some (key, val) => applyKv files key val cfg)
    cfg

def toupper (b : UInt8) : UInt8 := if 0x61 ≤ b ∧ b ≤ 0x7A then b - 0x20 else b

def envName (k : Key) : Bytes := (ascii "JVMSCOUT_".toList ++ k.name).map toupper

def applyEnvOverrides (getenv : Bytes → Option Bytes) (cfg : AgentSettings) : AgentSettings :=
  knownKeys.foldl
    (fun cfg k =>
      match getenv (envName k) with
      | none => cfg
      | some v => if v ≠ [] then applyKv files k.name v cfg else cfg)
    cfg

def flowSeqToSemicolons (inner : Bytes) : Bytes :=
  joinSemicolons (((split inner ','.toUInt8).map fun item => unquote (trim item)).filter (· ≠ []))

structure YamlState where
  cfg : AgentSettings
  pendingListKey : Bytes
  pendingItems : List Bytes

def flushList (s : YamlState) : YamlState where
  cfg :=
    if s.pendingListKey ≠ [] then applyKv files s.pendingListKey (joinSemicolons s.pendingItems) s.cfg else s.cfg
  pendingListKey := []
  pendingItems := []

def isItem (t : Bytes) : Bool := [0x2D, 0x20] <+: t || t = [0x2D]

def itemText (t : Bytes) : Bytes := unquote (trim (t.drop 1))

def isFlow (val : Bytes) : Bool := val.head? = some '['.toUInt8 && val.getLast? = some ']'.toUInt8

def yamlLine (s : YamlState) (line : Bytes) : YamlState :=
  let t := trim (line.takeWhile (· ≠ '#'.toUInt8))
  if t = [] then s
  else if isItem t then
    if s.pendingListKey ≠ [] ∧ itemText t ≠ [] then { s with pendingItems := s.pendingItems ++ [itemText t] } else s
  else
    let s := flushList files s
    match splitFirst ':'.toUInt8 t with
    | none => s
    | some (before, after) =>
      let key := trim before
      let val := trim after
      if val = [] then { s with pendingListKey := key }
      else if isFlow val then
        { s with cfg := applyKv files key (flowSeqToSemicolons (val.drop 1).dropLast) s.cfg }
      else { s with cfg := applyKv files key (unquote val) s.cfg }

def parseYamlConfig (text : Bytes) (cfg : AgentSettings) : AgentSettings :=
  (flushList files ((text.splitOn '\n'.toUInt8).foldl (yamlLine files) ⟨cfg, [], []⟩)).cfg

end Parsers

/-! ### The configuration the agent runs with -/

structure Host where
  getenv : Bytes → Option Bytes
  files : Bytes → Option Bytes
  libraryPath : Bytes

def isSeparator (b : UInt8) : Bool := b = 0x2F || b = 0x5C

def dirname (path : Bytes) : Bytes := path.rdropWhile fun b => !isSeparator b

def optionValue (options key : Bytes) : Bytes :=
  (split options ','.toUInt8).foldl
    (fun found kv =>
      match splitFirst '='.toUInt8 kv with
      | none => found
      | some (k, v) => if k = key then v else found)
    []

namespace Host

def getenvStr (h : Host) (key : String) : Bytes := (h.getenv (ascii key.toList)).getD []

def exists? (h : Host) (p : Bytes) : Bool := p ≠ [] && (h.files p).isSome

def candidates (home : Bytes) : List Bytes :=
  if home = [] then []
  else
    let home := if (home.getLast?.map isSeparator).getD false then home else home ++ ['/'.toUInt8]
    [home ++ ascii "jvmscout.yaml".toList, home ++ ascii "jvmscout.yml".toList]

def resolveConfigPath (h : Host) (options : Bytes) : Bytes :=
  let optHome := optionValue options (ascii "home".toList)
  let optConfig := optionValue options (ascii "config".toList)
  let envConfig := h.getenvStr "JVMSCOUT_CONFIG"
  if optConfig ≠ [] then optConfig
  else if envConfig ≠ [] then envConfig
  else
    let envHome := h.getenvStr "JVMSCOUT_HOME"
    let homes := [optHome, envHome, dirname h.libraryPath]
    ((homes.flatMap candidates).find? h.exists?).getD []

def settingsText (h : Host) (options : Bytes) : Option Bytes :=
  let path := h.resolveConfigPath options
  if path ≠ [] then h.files path else none

end Host

def buildConfig (h : Host) (options : Bytes) : AgentSettings :=
  let cfg := defaultSettings
  let cfg :=
    match h.settingsText options with
    | none => cfg
    | some text => parseYamlConfig h.files text cfg
  let cfg := applyEnvOverrides h.files h.getenv cfg
  applyOptions h.files options cfg

/-! ### What the layers mention -/

def optionPairs (options : Bytes) : List (Bytes × Bytes) := (split options ','.toUInt8).filterMap (splitFirst '='.toUInt8)

def envPairs (getenv : Bytes → Option Bytes) : List (Bytes × Bytes) :=
  knownKeys.filterMap fun k => ((getenv (envName k)).filter (· ≠ [])).map fun v => (k.name, v)

def significant (line : Bytes) : Bytes := trim (line.takeWhile (· ≠ '#'.toUInt8))

def blockItems (ts : List Bytes) : List Bytes := ((ts.takeWhile isItem).map itemText).filter (· ≠ [])

def lineMention (t : Bytes) (below : List Bytes) : Option (Bytes × Bytes) :=
  if isItem t then none
  else
    match splitFirst ':'.toUInt8 t with
    | none => none
    | some (before, after) =>
      if trim after = [] then
        if trim before = [] then none else some (trim before, joinSemicolons (blockItems below))
      else if isFlow (trim after) then some (trim before, flowSeqToSemicolons ((trim after).drop 1).dropLast)
      else some (trim before, unquote (trim after))

def mentionsOf : List Bytes → List (Bytes × Bytes)
  | [] => []
  | t :: below => (lineMention t below).toList ++ mentionsOf below

def yamlPairs (text : Bytes) : List (Bytes × Bytes) :=
  mentionsOf (((text.splitOn '\n'.toUInt8).map significant).filter (· ≠ []))

section Layers

variable (files : Bytes → Option Bytes)

def applyPair (cfg : AgentSettings) (m : Bytes × Bytes) : AgentSettings := applyKv files m.1 m.2 cfg

theorem applyOptions_eq (options : Bytes) (cfg : AgentSettings) :
    applyOptions files options cfg = (optionPairs options).foldl (applyPair files) cfg := by
  rw [applyOptions, optionPairs, List.foldl_filterMap]
  congr 1
  funext cfg kv
  cases splitFirst '='.toUInt8 kv <;> rfl

theorem applyEnvOverrides_eq (getenv : Bytes → Option Bytes) (cfg : AgentSettings) :
    applyEnvOverrides files getenv cfg = (envPairs getenv).foldl (applyPair files) cfg := by
  rw [applyEnvOverrides, envPairs, List.foldl_filterMap]
  congr 1
  funext cfg k
  cases getenv (envName k) with
  | none => rfl
  | some v =>
    by_cases hv : v = []
    · simp [hv, Option.filter]
    · simp [hv, Option.filter, applyPair]

def pendingPairs (s : YamlState) (ts : List Bytes) : List (Bytes × Bytes) :=
  if s.pendingListKey ≠ [] then [(s.pendingListKey, joinSemicolons (s.pendingItems ++ blockItems ts))] else []

theorem flushList_cfg (s : YamlState) : (flushList files s).cfg = (pendingPairs s []).foldl (applyPair files) s.cfg := by
  rw [flushList, pendingPairs]
  split
  · rw [blockItems, List.takeWhile_nil, List.map_nil, List.filter_nil, List.append_nil]
    rfl
  · rfl

theorem blockItems_cons_item {t : Bytes} (ht : isItem t = true) (ts : List Bytes) :
    blockItems (t :: ts) = (if itemText t ≠ [] then [itemText t] else []) ++ blockItems ts := by
  rw [blockItems, List.takeWhile_cons_of_pos ht, List.map_cons, List.filter_cons]
  split <;> simp_all [blockItems]

theorem blockItems_cons_other {t : Bytes} (ht : isItem t = false) (ts : List Bytes) : blockItems (t :: ts) = [] := by
  rw [blockItems, List.takeWhile_cons_of_neg (by simp [ht])]
  rfl

theorem lineMention_item {t : Bytes} (ht : isItem t = true) (below : List Bytes) : lineMention t below = none :=
  if_pos ht

theorem pendingPairs_item {s : YamlState} {t : Bytes} (ht : isItem t = true) (ts : List Bytes) :
    pendingPairs s (t :: ts) =
      pendingPairs (if itemText t ≠ [] then { s with pendingItems := s.pendingItems ++ [itemText t] } else s) ts := by
  rw [pendingPairs, blockItems_cons_item ht]
  split
  · rename_i hkey
    split
    · simp [pendingPairs, hkey]
    · simp [pendingPairs, hkey]
  · rename_i hkey
    split
    · simp [pendingPairs, hkey]
    · simp [pendingPairs, hkey]

theorem yamlLine_blank {line : Bytes} (ht : significant line = []) (s : YamlState) : yamlLine files s line = s :=
  if_pos ht

theorem yamlLine_item {line : Bytes} (ht : isItem (significant line) = true) (s : YamlState) (ts : List Bytes) :
    (yamlLine files s line).cfg = s.cfg ∧
      pendingPairs (yamlLine files s line) ts = pendingPairs s (significant line :: ts) := by
  have hne : significant line ≠ [] := by
    intro hnil
    rw [hnil] at ht
    exact absurd ht (by decide)
  have hline : yamlLine files s line =
      if s.pendingListKey ≠ [] ∧ itemText (significant line) ≠ [] then
        { s with pendingItems := s.pendingItems ++ [itemText (significant line)] }
      else s := by
    rw [yamlLine]
    dsimp only
    rw [← significant, if_neg hne, if_pos ht]
  rw [hline, pendingPairs_item ht]
  by_cases hkey : s.pendingListKey = []
  · rw [if_neg fun h => h.1 hkey]
    refine ⟨rfl, ?_⟩
    split
    · simp [pendingPairs, hkey]
    · rfl
  · by_cases hitem : itemText (significant line) = []
    · rw [if_neg fun h => h.2 hitem, if_neg fun h => h hitem]
      exact ⟨rfl, rfl⟩
    · rw [if_pos ⟨hkey, hitem⟩, if_pos hitem]
      exact ⟨rfl, rfl⟩

theorem yamlLine_other {line : Bytes} (hne : significant line ≠ []) (ht : isItem (significant line) = false)
    (s : YamlState) (ts : List Bytes) :
    (pendingPairs (yamlLine files s line) ts).foldl (applyPair files) (yamlLine files s line).cfg =
      (lineMention (significant line) ts).toList.foldl (applyPair files) (flushList files s).cfg := by
  rw [yamlLine, lineMention]
  dsimp only
  rw [← significant, if_neg hne, if_neg (by simp [ht]), if_neg (by simp [ht])]
  cases splitFirst ':'.toUInt8 (significant line) with
  | none => rfl
  | some parts =>
    obtain ⟨before, after⟩ := parts
    dsimp only
    by_cases hval : trim after = []
    · rw [if_pos hval, if_pos hval, pendingPairs]
      by_cases hkey : trim before = []
      · rw [if_pos hkey, if_neg (by simp [hkey])]
        rfl
      · rw [if_neg hkey, if_pos (by simp [hkey])]
        rfl
    · rw [if_neg hval, if_neg hval]
      cases isFlow (trim after) <;> rfl

theorem yaml_run (lines : List Bytes) (s : YamlState) :
    (flushList files (lines.foldl (yamlLine files) s)).cfg =
      (pendingPairs s ((lines.map significant).filter (· ≠ [])) ++
        mentionsOf ((lines.map significant).filter (· ≠ []))).foldl (applyPair files) s.cfg := by
  induction lines generalizing s with
  | nil =>
    rw [List.foldl_nil, flushList_cfg, List.map_nil, List.filter_nil, mentionsOf, List.append_nil]
  | cons line lines ih =>
    rw [List.foldl_cons, ih, List.map_cons]
    by_cases hblank : significant line = []
    · rw [yamlLine_blank files hblank, List.filter_cons_of_neg (by simp [hblank])]
    · rw [List.filter_cons_of_pos (by simp [hblank]), mentionsOf]
      cases ht : isItem (significant line) with
      | true =>
        obtain ⟨hcfg, hpending⟩ := yamlLine_item files ht s ((lines.map significant).filter (· ≠ []))
        rw [hcfg, hpending, lineMention_item ht]
        rfl
      | false =>
        have hpending : pendingPairs s (significant line :: (lines.map significant).filter (· ≠ [])) =
            pendingPairs s [] := by
          rw [pendingPairs, blockItems_cons_other ht]
          rfl
        rw [List.foldl_append, List.foldl_append, List.foldl_append, yamlLine_other files hblank ht, hpending,
          flushList_cfg]

theorem parseYamlConfig_eq (text : Bytes) (cfg : AgentSettings) :
    parseYamlConfig files text cfg = (yamlPairs text).foldl (applyPair files) cfg := by
  rw [parseYamlConfig, yaml_run, yamlPairs]
  rfl

end Layers

/-! ### What each key takes from the layers -/

inductive Value where
  | text (b : Bytes)
  | number (n : ℤ)
  | flag (b : Bool)
  | items (l : List Bytes)
  deriving DecidableEq

namespace Key

def replaces : Key → Bool
  | apiKey | apiKeyFile | deny | locationDeny | redactProps => false
  | _ => true

def appends : Key → Bool
  | deny | locationDeny | redactProps => true
  | _ => false

def value (cfg : AgentSettings) : Key → Value
  | host => .text cfg.host
  | port => .number cfg.port
  | path => .text cfg.path
  | deployment => .text cfg.deployment
  | environment => .text cfg.environment
  | console => .flag cfg.console
  | depth => .number cfg.depth
  | timeout => .number cfg.timeoutMs
  | https => .flag cfg.https
  | tlsInsecure => .flag cfg.tlsInsecure
  | apiKey => .text cfg.apiKey
  | apiKeyFile => .text cfg.apiKey
  | deny => .items cfg.deny
  | locationDeny => .items cfg.locationDeny
  | capturePackages => .items cfg.capturePackages
  | bci => .flag cfg.bci
  | bciJar => .text cfg.bciJar
  | bciPackages => .items cfg.bciPackages
  | bciExclude => .items cfg.bciExclude
  | bciVerbose => .flag cfg.bciVerbose
  | source => .flag cfg.source
  | instanceId => .text cfg.instanceId
  | envCapture => .items cfg.envCapture
  | redactProps => .items cfg.redactProps.patterns

def parse (val : Bytes) : Key → Value
  | host | path | deployment | environment | apiKey | apiKeyFile | bciJar | instanceId => .text val
  | port | depth | timeout => .number (atoi val)
  | console | https | tlsInsecure | bci | bciVerbose | source => .flag (toBool val)
  | deny | locationDeny | capturePackages | bciPackages | bciExclude | envCapture | redactProps =>
    .items (split val ';'.toUInt8)

def list (cfg : AgentSettings) : Key → List Bytes
  | deny => cfg.deny
  | locationDeny => cfg.locationDeny
  | redactProps => cfg.redactProps.patterns
  | _ => []

theorem find_name (k : Key) : knownKeys.find? (fun j => k.name = j.name) = some k := by
  cases k <;> decide

variable (files : Bytes → Option Bytes)

theorem applyKv_name (k : Key) (val : Bytes) (cfg : AgentSettings) :
    applyKv files k.name val cfg = k.apply files val cfg := by
  rw [applyKv, find_name]

theorem applyKv_other {k : Key} {key : Bytes} (hkey : key ≠ k.name) (val : Bytes) (cfg : AgentSettings) :
    applyKv files key val cfg = cfg ∨ ∃ j, j ≠ k ∧ applyKv files key val cfg = j.apply files val cfg := by
  rw [applyKv]
  cases hfind : knownKeys.find? fun j => key = j.name with
  | none => exact .inl rfl
  | some j =>
    refine .inr ⟨j, ?_, rfl⟩
    rintro rfl
    have hname := List.find?_some hfind
    exact hkey (of_decide_eq_true hname)

theorem apply_apiKeyFile (val : Bytes) (cfg : AgentSettings) :
    ∃ key, apiKeyFile.apply files val cfg = { cfg with apiKey := key } := by
  rw [apply]
  split
  · exact ⟨_, rfl⟩
  · exact ⟨cfg.apiKey, rfl⟩

theorem value_apply_other {j k : Key} (hk : k.replaces = true) (hj : j ≠ k) (val : Bytes) (cfg : AgentSettings) :
    k.value (j.apply files val cfg) = k.value cfg := by
  by_cases hfile : j = apiKeyFile
  · obtain ⟨key, hkey⟩ := apply_apiKeyFile files val cfg
    rw [hfile, hkey]
    cases k <;> first | rfl | cases hk
  · cases j <;> cases k <;> first | rfl | exact absurd rfl hj | exact absurd rfl hfile | cases hk

theorem value_apply_self {k : Key} (hk : k.replaces = true) (val : Bytes) (cfg : AgentSettings) :
    k.value (k.apply files val cfg) = k.parse val := by
  cases k <;> first | rfl | cases hk

theorem list_apply_other {j k : Key} (hj : j ≠ k) (val : Bytes) (cfg : AgentSettings) :
    k.list (j.apply files val cfg) = k.list cfg := by
  by_cases hfile : j = apiKeyFile
  · obtain ⟨key, hkey⟩ := apply_apiKeyFile files val cfg
    rw [hfile, hkey]
    cases k <;> rfl
  · cases j <;> cases k <;> first | rfl | exact absurd rfl hj | exact absurd rfl hfile

theorem list_apply_self {k : Key} (hk : k.appends = true) (val : Bytes) (cfg : AgentSettings) :
    k.list (k.apply files val cfg) = k.list cfg ++ split val ';'.toUInt8 := by
  cases k <;> first | rfl | cases hk

theorem replaces_mentions {k : Key} (hk : k.replaces = true) : Replaces (applyPair files) k.name k.value k.parse where
  own cfg val := by
    rw [applyPair, applyKv_name, value_apply_self files hk]
  other cfg key val hkey := by
    rcases applyKv_other files hkey val cfg with hsame | ⟨j, hj, happly⟩
    · rw [applyPair, hsame]
    · rw [applyPair, happly, value_apply_other files hk hj]

theorem appends_mentions {k : Key} (hk : k.appends = true) :
    Appends (applyPair files) k.name k.list fun val => split val ';'.toUInt8 where
  own cfg val := by
    rw [applyPair, applyKv_name, list_apply_self files hk]
  other cfg key val hkey := by
    rcases applyKv_other files hkey val cfg with hsame | ⟨j, hj, happly⟩
    · rw [applyPair, hsame]
    · rw [applyPair, happly, list_apply_other files hj]

end Key

def Host.yamlLayer (h : Host) (options : Bytes) : List (Bytes × Bytes) :=
  match h.settingsText options with
  | none => []
  | some text => yamlPairs text

def Host.layers (h : Host) (options : Bytes) : List (List (Bytes × Bytes)) :=
  [optionPairs options, envPairs h.getenv, h.yamlLayer options]

theorem buildConfig_eq (h : Host) (options : Bytes) :
    buildConfig h options = (h.layers options).reverse.flatten.foldl (applyPair h.files) defaultSettings := by
  have hlayers : (h.layers options).reverse.flatten =
      h.yamlLayer options ++ (envPairs h.getenv ++ optionPairs options) := by
    simp [Host.layers]
  rw [hlayers, List.foldl_append, List.foldl_append, buildConfig, Host.yamlLayer]
  rw [applyOptions_eq, applyEnvOverrides_eq]
  cases h.settingsText options with
  | none => rfl
  | some text =>
    dsimp only
    rw [parseYamlConfig_eq]

/-- Each key takes the last mention of the highest layer that has one, or collects what the layers
mention, from the file to the options. -/
theorem buildConfig_layers (h : Host) (options : Bytes) :
    (∀ k : Key, k.replaces = true →
        k.value (buildConfig h options) =
          ((highest k.name [optionPairs options, envPairs h.getenv, h.yamlLayer options]).map k.parse).getD
            (k.value defaultSettings)) ∧
      ∀ k : Key, k.appends = true →
        k.list (buildConfig h options) =
          k.list defaultSettings ++
            ((mentions k.name (h.yamlLayer options)).flatMap (split · ';'.toUInt8) ++
              (mentions k.name (envPairs h.getenv)).flatMap (split · ';'.toUInt8) ++
              (mentions k.name (optionPairs options)).flatMap (split · ';'.toUInt8)) := by
  constructor
  · intro k hk
    rw [buildConfig_eq, (k.replaces_mentions h.files hk).layers, Host.layers]
  · intro k hk
    rw [buildConfig_eq, (k.appends_mentions h.files hk).foldl, Host.layers]
    simp only [List.reverse_cons, List.reverse_nil, List.nil_append, List.flatten_append, List.flatten_cons,
      List.flatten_nil, List.append_nil, mentions_append, List.flatMap_append]

def sampleHost : Host where
  getenv name := if name = ascii "JVMSCOUT_PORT".toList then some (ascii "9090".toList) else none
  files path :=
    if path = ascii "j.yaml".toList then some (ascii "port: 1\ndepth: 2\ndeny:\n - A\n".toList) else none
  libraryPath := []

def sampleOptions : Bytes := ascii "config=j.yaml,depth=4,deny=B".toList

theorem buildConfig_layers_sample :
    Key.depth.value (buildConfig sampleHost sampleOptions) = .number 4 ∧
      Key.port.value (buildConfig sampleHost sampleOptions) = .number 9090 ∧
      Key.deny.list (buildConfig sampleHost sampleOptions) =
        defaultTypeDeny ++ [ascii "A".toList, ascii "B".toList] := by
  obtain ⟨hreplace, happend⟩ := buildConfig_layers sampleHost sampleOptions
  refine ⟨?_, ?_, ?_⟩
  · rw [hreplace .depth rfl]
    decide
  · rw [hreplace .port rfl]
    decide
  · rw [happend .deny rfl]
    decide

end JvmScout.Agent
