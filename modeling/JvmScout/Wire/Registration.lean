import JvmScout.Agent.SystemInfo
import JvmScout.Collector.Queries
import JvmScout.Wire.RoundTrip

namespace JvmScout.Wire.Registration

open Agent Agent.SystemInfo JsonWriter Redaction Storage

structure Host where
  now : String
  hostname : String
  environment : List (String × String)
  property : String → Option String
  inputArguments : List String

def Host.state (host : Host) : SystemState where
  now := Utf16.modifiedUtf8 host.now
  hostname := Utf16.modifiedUtf8 host.hostname
  environment := host.environment.map fun kv => (Utf16.modifiedUtf8 kv.1, Utf16.modifiedUtf8 kv.2)
  property key := (host.property key).map Utf16.modifiedUtf8
  inputArguments := host.inputArguments.map Utf16.modifiedUtf8

def Host.getProperty (host : Host) (key : String) : String := (host.property key).getD ""

structure ConfigText (cfg : AgentConfig) where
  host : String
  path : String
  deployment : String
  environment : String
  instanceId : String
  host_eq : Utf16.modifiedUtf8 host = cfg.host
  path_eq : Utf16.modifiedUtf8 path = cfg.path
  deployment_eq : Utf16.modifiedUtf8 deployment = cfg.deployment
  environment_eq : Utf16.modifiedUtf8 environment = cfg.environment
  instanceId_eq : Utf16.modifiedUtf8 instanceId = cfg.instanceId

def shown (cfg : AgentConfig) (key value : String) : String :=
  if isRedacted cfg (Utf16.modifiedUtf8 key) then "***" else value

def envFields (cfg : AgentConfig) (host : Host) : List (String × Json) :=
  (host.environment.filter fun kv => captured cfg (Utf16.modifiedUtf8 kv.1)).map fun kv =>
    (kv.1, .str (shown cfg kv.1 kv.2))

def envVars (cfg : AgentConfig) (host : Host) : Dict :=
  (envFields cfg host).foldl (fun d kv => Dict.set d kv.1 kv.2) []

def systemProperties (cfg : AgentConfig) (host : Host) : Dict :=
  kProps.map fun p => (p, .str (shown cfg p (host.getProperty p)))

def jvmInfo (host : Host) : Dict :=
  [("version", .str (host.getProperty "java.version")), ("vendor", .str (host.getProperty "java.vendor")),
    ("vmName", .str (host.getProperty "java.vm.name")), ("vmVersion", .str (host.getProperty "java.vm.version")),
    ("runtimeName", .str (host.getProperty "java.runtime.name"))]

def hostInfo (host : Host) : Dict :=
  [("name", .str host.hostname), ("os", .str (host.getProperty "os.name")),
    ("osVersion", .str (host.getProperty "os.version")), ("arch", .str (host.getProperty "os.arch")),
    ("kubernetes", .bool (kubernetes host.state))]

def agentConfig (cfg : AgentConfig) (t : ConfigText cfg) : Dict :=
  [("host", .str t.host), ("port", .int cfg.port), ("path", .str t.path), ("console", .bool cfg.console),
    ("depth", .int cfg.depth), ("bci", .bool cfg.bci)]

def startFields (cfg : AgentConfig) (t : ConfigText cfg) (host : Host) : Dict :=
  [("type", .str "agent_start"), ("timestamp", .str host.now), ("instanceId", .str t.instanceId),
    ("deploymentId", .str t.deployment), ("environment", .str t.environment), ("jvmInfo", .obj (jvmInfo host)),
    ("hostInfo", .obj (hostInfo host)), ("jvmArgs", .arr (host.inputArguments.map .str)),
    ("classpath", .str (host.getProperty "java.class.path")), ("envVars", .obj (envVars cfg host)),
    ("systemProperties", .obj (systemProperties cfg host)), ("agentConfig", .obj (agentConfig cfg t))]

def receivedStart (cfg : AgentConfig) (t : ConfigText cfg) (host : Host) : Models.AgentStartEvent where
  type := "agent_start"
  timestamp := some host.now
  instanceId := some t.instanceId
  deploymentId := some t.deployment
  environment := some t.environment
  jvmInfo := some ⟨some (host.getProperty "java.version"), some (host.getProperty "java.vendor"),
    some (host.getProperty "java.vm.name"), some (host.getProperty "java.vm.version"),
    some (host.getProperty "java.runtime.name")⟩
  hostInfo := some ⟨some host.hostname, some (host.getProperty "os.name"), some (host.getProperty "os.version"),
    some (host.getProperty "os.arch"), some (kubernetes host.state)⟩
  jvmArgs := host.inputArguments
  classpath := some (host.getProperty "java.class.path")
  envVars := envVars cfg host
  systemProperties := systemProperties cfg host
  agentConfig := agentConfig cfg t

section Writes

variable (cfg : AgentConfig) (host : Host)

theorem getProperty_state (key : String) :
    SystemInfo.getProperty host.state key = Utf16.modifiedUtf8 (host.getProperty key) := by
  unfold SystemInfo.getProperty Host.getProperty Host.state
  dsimp only
  cases host.property key <;> rfl

theorem mask_shown (key value : String) :
    (if isRedacted cfg (Utf16.modifiedUtf8 key) then mask else Utf16.modifiedUtf8 value) =
      Utf16.modifiedUtf8 (shown cfg key value) := by
  unfold shown
  split <;> rfl

theorem writes_property (k key : String) :
    WritesFields (fieldString k (SystemInfo.getProperty host.state key)) [(k, .str (host.getProperty key))] := by
  rw [getProperty_state]
  exact (writes_string _).field k

theorem writes_jvmInfo : WritesFields (writeJvmInfo host.state) [("jvmInfo", .obj (jvmInfo host))] := by
  have hfields := ((((writes_property host "version" "java.version").append
    (writes_property host "vendor" "java.vendor")).append (writes_property host "vmName" "java.vm.name")).append
    (writes_property host "vmVersion" "java.vm.version")).append
    (writes_property host "runtimeName" "java.runtime.name")
  exact (hfields.object (by simp)).field "jvmInfo"

theorem writes_hostInfo : WritesFields (writeHostInfo host.state) [("hostInfo", .obj (hostInfo host))] := by
  have hfields := (((((writes_string host.hostname).field "name").append
    (writes_property host "os" "os.name")).append (writes_property host "osVersion" "os.version")).append
    (writes_property host "arch" "os.arch")).append ((writes_bool (kubernetes host.state)).field "kubernetes")
  exact (hfields.object (by simp)).field "hostInfo"

theorem writes_jvmArgs :
    WritesFields (writeJvmArgs host.state) [("jvmArgs", .arr (host.inputArguments.map .str))] := by
  have hitems := WritesParts.each (fun a : String => (writes_string a).item) host.inputArguments
  exact (hitems.array.field "jvmArgs").congr fun w => by
    rw [writeJvmArgs, Host.state, List.foldl_map]

theorem writes_envVar (kv : String × String) :
    WritesFields (writeEnvVar cfg (Utf16.modifiedUtf8 kv.1, Utf16.modifiedUtf8 kv.2))
      (if captured cfg (Utf16.modifiedUtf8 kv.1) then [(kv.1, .str (shown cfg kv.1 kv.2))] else []) := by
  unfold writeEnvVar
  dsimp only
  split
  · rw [mask_shown]
    exact (writes_string _).field kv.1
  · exact writesParts_nil

theorem writes_variables :
    WritesFields (fun w => host.state.environment.foldl (fun w kv => writeEnvVar cfg kv w) w) (envFields cfg host) := by
  unfold envFields Host.state
  dsimp only
  induction host.environment with
  | nil => exact writesParts_nil
  | cons kv rest ih =>
    have happend := (writes_envVar cfg kv).append ih
    rw [List.filter_cons]
    split
    · rename_i hkept
      rw [if_pos hkept] at happend
      exact happend
    · rename_i hskipped
      rw [if_neg hskipped] at happend
      exact happend

theorem writes_envVars : WritesFields (writeEnvVars cfg host.state) [("envVars", .obj (envVars cfg host))] := by
  have hfields : WritesFields (fun w => if cfg.envCapture.isEmpty then w
      else host.state.environment.foldl (fun w kv => writeEnvVar cfg kv w) w) (envFields cfg host) := by
    by_cases hempty : cfg.envCapture.isEmpty = true
    · have hnone : envFields cfg host = [] := by
        unfold envFields captured
        rw [List.isEmpty_iff.mp hempty]
        simp
      simp only [hempty, if_true, hnone]
      exact writesParts_nil
    · simp only [hempty]
      exact writes_variables cfg host
  exact hfields.objectOf.field "envVars"

theorem writes_property_shown (p : String) :
    WritesFields (writeProperty cfg host.state p) [(p, .str (shown cfg p (host.getProperty p)))] := by
  unfold writeProperty
  dsimp only
  rw [getProperty_state, mask_shown]
  exact (writes_string _).field p

theorem writes_systemProperties :
    WritesFields (writeSystemProperties cfg host.state) [("systemProperties", .obj (systemProperties cfg host))] := by
  have hfields := WritesParts.each (writes_property_shown cfg host) kProps
  have hnames : (systemProperties cfg host).map Prod.fst = kProps := by
    rw [systemProperties, List.map_map]
    exact List.map_id kProps
  have hkeys : ((systemProperties cfg host).map Prod.fst).Nodup := by
    rw [hnames]
    decide
  exact (hfields.object hkeys).field "systemProperties"

theorem writes_agentConfig (t : ConfigText cfg) :
    WritesFields (writeAgentConfig cfg) [("agentConfig", .obj (agentConfig cfg t))] := by
  have hfields := ((((((writes_string t.host).field "host").append ((writes_int cfg.port).field "port")).append
    ((writes_string t.path).field "path")).append ((writes_bool cfg.console).field "console")).append
    ((writes_int cfg.depth).field "depth")).append ((writes_bool cfg.bci).field "bci")
  rw [t.host_eq, t.path_eq] at hfields
  exact (hfields.object (by simp)).field "agentConfig"

theorem reads_start (t : ConfigText cfg) :
    JsonText.Reads (buildAgentStartEvent cfg host.state) (.obj (startFields cfg t host)) := by
  have hidentity := (((((writes_string "agent_start").field "type").append
    ((writes_string host.now).field "timestamp")).append ((writes_string t.instanceId).field "instanceId")).append
    ((writes_string t.deployment).field "deploymentId")).append ((writes_string t.environment).field "environment")
  have hjvm := ((hidentity.append (writes_jvmInfo host)).append (writes_hostInfo host)).append (writes_jvmArgs host)
  have hfields := (((hjvm.append (writes_property host "classpath" "java.class.path")).append
    (writes_envVars cfg host)).append (writes_systemProperties cfg host)).append (writes_agentConfig cfg t)
  rw [t.instanceId_eq, t.deployment_eq, t.environment_eq] at hfields
  exact (hfields.object (by simp)).reads

end Writes

section Validation

open Models

variable {py : Python} (hbool : ∀ b, py.laxBool (.bool b) = some b)

include hbool

theorem validate_start (cfg : AgentConfig) (t : ConfigText cfg) (host : Host) :
    AgentStartEvent.validate py (startFields cfg t host) = some (receivedStart cfg t host) := by
  have hjvm : Models.optional (model JvmInfo.validate) (some (.obj (jvmInfo host))) =
      some (receivedStart cfg t host).jvmInfo := by
    apply optional_obj
    simp [JvmInfo.validate, jvmInfo, field, optional_str, Assoc.get?_cons]
  have hhost : Models.optional (model (HostInfo.validate py)) (some (.obj (hostInfo host))) =
      some (receivedStart cfg t host).hostInfo := by
    apply optional_obj
    simp [HostInfo.validate, hostInfo, field, optional_str, optional_bool hbool, Assoc.get?_cons]
  have htext (x : String) : text (.str x) = some (id x) := rfl
  have hargs := list_map htext host.inputArguments
  rw [List.map_id] at hargs
  simp [AgentStartEvent.validate, startFields, field, optional_str, withDefault, text, hjvm, hhost, hargs, dict,
    receivedStart, Assoc.get?_cons]

end Validation

structure Report where
  cfg : AgentConfig
  texts : ConfigText cfg
  host : Host
  project : Option String
  now : ℕ

namespace Report

def instanceId (r : Report) : String := r.texts.instanceId

def text (r : Report) : String := buildAgentStartEvent r.cfg r.host.state

def fields (r : Report) : Dict := startFields r.cfg r.texts r.host

def event (r : Report) : Models.AgentStartEvent := receivedStart r.cfg r.texts r.host

end Report

variable {py : Python}

def orKept (db : Db) : Except PyError Db → Db
  | .ok db => db
  | .error _ => db

def collect (rules : CompiledRules py.Pattern) (db : Db) (r : Report) : Db :=
  match (JsonText.parse r.text).map (Routes.readItem rules) with
  | some (.ok (.agentStart ev raw)) => orKept db (storeAgentStart r.now ev raw r.project db)
  | _ => db

def firsts (reports : List Report) : List Report :=
  reports.foldl (fun fs r => if fs.any fun f => f.instanceId = r.instanceId then fs else fs ++ [r]) []

def Renews (first r : Report) : Prop :=
  r.instanceId = first.instanceId ∧ (r.project = none ∨ r.project = first.project)

instance (first r : Report) : Decidable (Renews first r) := inferInstanceAs (Decidable (_ ∧ _))

def standing (reports : List Report) (first : Report) : Report :=
  (reports.filter fun r => Renews first r).getLast?.getD first

theorem readItem_start (hbool : ∀ b, py.laxBool (.bool b) = some b) (rules : CompiledRules py.Pattern) (r : Report) :
    Routes.readItem rules (.obj r.fields) = .ok (.agentStart r.event r.fields) := by
  have hvalid := validate_start hbool r.cfg r.texts r.host
  have htype : Dict.get r.fields "type" = .str "agent_start" := by
    simp [Report.fields, startFields, Dict.get, Assoc.get?_cons]
  rw [Routes.readItem, if_pos htype, Report.fields, hvalid]
  rfl

theorem parse_text (r : Report) : JsonText.parse r.text = some (.obj r.fields) := by
  apply JsonText.parse_of_reads
  exact reads_start r.cfg r.host r.texts

theorem collect_eq (hbool : ∀ b, py.laxBool (.bool b) = some b) (rules : CompiledRules py.Pattern) (db : Db)
    (r : Report) :
    collect rules db r = orKept db (storeAgentStart r.now r.event r.fields r.project db) := by
  unfold collect
  have h : (JsonText.parse r.text).map (Routes.readItem rules) = some (.ok (.agentStart r.event r.fields)) := by
    rw [parse_text]
    exact congrArg some (readItem_start hbool rules r)
  rw [h]

structure Entry where
  instanceId : String
  project : Option String
  rawJson : Dict

def Entry.ofRow (row : JvmInstanceRow) : Entry := ⟨row.instanceId, row.projectId, row.rawJson⟩

def entries (db : Db) : List Entry := db.jvmInstances.rows.map fun x => .ofRow x.2

def Entry.renew (r : Report) (e : Entry) : Entry :=
  if r.instanceId = e.instanceId ∧ (r.project = none ∨ r.project = e.project) then { e with rawJson := r.fields } else e

def register (es : List Entry) (r : Report) : List Entry :=
  if es.any fun e => e.instanceId = r.instanceId then es.map (Entry.renew r)
  else es ++ [⟨r.instanceId, r.project, r.fields⟩]

def entryOf (reports : List Report) (first : Report) : Entry :=
  ⟨first.instanceId, first.project, (standing reports first).fields⟩

def registry (reports : List Report) : List Entry := (firsts reports).map (entryOf reports)

section Store

variable {db : Db} {r : Report}

theorem register_new (h : ∀ x ∈ db.jvmInstances.rows, x.2.instanceId ≠ r.instanceId) :
    register (entries db) r = entries db ++ [⟨r.instanceId, r.project, r.fields⟩] := by
  apply if_neg
  rw [List.any_eq_true]
  rintro ⟨e, he, hid⟩
  obtain ⟨x, hx, rfl⟩ := List.mem_map.mp he
  exact h x hx (of_decide_eq_true hid)

theorem register_known {x : ℕ × JvmInstanceRow} (hx : x ∈ db.jvmInstances.rows) (hid : x.2.instanceId = r.instanceId) :
    register (entries db) r = (entries db).map (Entry.renew r) := by
  apply if_pos
  rw [List.any_eq_true]
  exact ⟨.ofRow x.2, List.mem_map_of_mem hx, decide_eq_true hid⟩

theorem renew_refused {x y : ℕ × JvmInstanceRow} (hx : x ∈ db.jvmInstances.rows) (hid : x.2.instanceId = r.instanceId)
    (hproject : r.project ≠ none ∧ x.2.projectId ≠ r.project) (hy : y ∈ db.jvmInstances.rows) :
    Entry.renew r (.ofRow y.2) = .ofRow y.2 := by
  apply if_neg
  rintro ⟨hsame, howner⟩
  have hxy : y = x := db.jvmInstances.column_unique hy hx (hsame.symm.trans hid.symm)
  rw [hxy] at howner
  rcases howner with hnone | howner
  · exact hproject.1 hnone
  · exact hproject.2 howner.symm

theorem renew_refreshed {x y : ℕ × JvmInstanceRow} (hx : x ∈ db.jvmInstances.rows) (hid : x.2.instanceId = r.instanceId)
    (hproject : ¬ (r.project ≠ none ∧ x.2.projectId ≠ r.project)) (hy : y ∈ db.jvmInstances.rows) :
    Entry.ofRow (if y.2.instanceId == r.instanceId then
        { y.2 with rawJson := r.fields, timestamp := r.event.timestamp, receivedAt := r.now } else y.2) =
      Entry.renew r (.ofRow y.2) := by
  by_cases hsame : y.2.instanceId = r.instanceId
  · have hxy : y = x := db.jvmInstances.column_unique hy hx (hsame.trans hid.symm)
    have howner : r.project = none ∨ r.project = y.2.projectId := by
      rw [hxy]
      by_contra hneither
      obtain ⟨hnone, hother⟩ := not_or.mp hneither
      exact hproject ⟨hnone, fun heq => hother heq.symm⟩
    rw [if_pos (beq_iff_eq.mpr hsame), Entry.renew, if_pos ⟨hsame.symm, howner⟩]
    rfl
  · rw [if_neg fun h => hsame (eq_of_beq h), Entry.renew, if_neg fun h => hsame h.1.symm]

theorem entries_store (db : Db) (r : Report) :
    entries (orKept db (storeAgentStart r.now r.event r.fields r.project db)) = register (entries db) r := by
  have hname : r.event.instanceId.getD "" = r.instanceId := rfl
  unfold storeAgentStart
  split
  · rename_i k existing hfound
    obtain ⟨hrow, hid⟩ := (Relational.UniqueTable.lookup_eq_some _).mp hfound
    rw [register_known hrow hid]
    split
    · rename_i hproject
      have hsame : (entries db).map (Entry.renew r) = (entries db).map id := by
        apply List.map_congr_left
        intro e he
        obtain ⟨y, hy, rfl⟩ := List.mem_map.mp he
        exact renew_refused hrow hid hproject hy
      rw [hsame, List.map_id]
      rfl
    · rename_i hproject
      rw [entries, entries, List.map_map]
      change List.map _ (List.map _ _) = _
      rw [List.map_map]
      apply List.map_congr_left
      intro y hy
      exact renew_refreshed hrow hid hproject hy
  · rename_i hnone
    have hfresh : ∀ x ∈ db.jvmInstances.rows, x.2.instanceId ≠ r.instanceId := by
      intro x hx hid
      have hfound := (Relational.UniqueTable.lookup_eq_some _).mpr ⟨hx, hid⟩
      rw [hname, findInstance, hfound] at hnone
      cases hnone
    rw [register_new hfresh]
    exact List.map_append

end Store

theorem standing_snoc (reports : List Report) (r first : Report) :
    standing (reports ++ [r]) first = if Renews first r then r else standing reports first := by
  rw [standing, List.filter_append]
  by_cases h : Renews first r
  · simp [h]
  · simp [h, standing]

theorem firsts_snoc (reports : List Report) (r : Report) :
    firsts (reports ++ [r]) =
      if (firsts reports).any fun f => f.instanceId = r.instanceId then firsts reports else firsts reports ++ [r] := by
  rw [firsts, List.foldl_append]
  rfl

theorem registry_snoc (reports : List Report) (r : Report) :
    registry (reports ++ [r]) = register (registry reports) r := by
  have hany : ((registry reports).any fun e => e.instanceId = r.instanceId) =
      (firsts reports).any fun f => f.instanceId = r.instanceId := by
    rw [registry, List.any_map]
    rfl
  have hrenew (f : Report) : entryOf (reports ++ [r]) f = Entry.renew r (entryOf reports f) := by
    rw [entryOf, standing_snoc, Entry.renew]
    by_cases h : Renews f r
    · rw [if_pos h]
      exact (if_pos h).symm
    · rw [if_neg h]
      exact (if_neg h).symm
  rw [registry, firsts_snoc, register, hany]
  split
  · rw [registry, List.map_map]
    exact List.map_congr_left fun f _ => hrenew f
  · rename_i hnew
    have hself : entryOf (reports ++ [r]) r = ⟨r.instanceId, r.project, r.fields⟩ := by
      rw [entryOf, standing_snoc, if_pos ⟨rfl, .inr rfl⟩]
    rw [List.map_append, List.map_singleton, hself]
    congr 1
    apply List.map_congr_left
    intro f hf
    rw [hrenew, Entry.renew, if_neg]
    rintro ⟨hid, -⟩
    apply hnew
    rw [List.any_eq_true]
    exact ⟨f, hf, decide_eq_true hid.symm⟩

theorem entries_collected (hbool : ∀ b, py.laxBool (.bool b) = some b) (rules : CompiledRules py.Pattern)
    (reports : List Report) {db : Db} (hempty : db.jvmInstances.rows = []) :
    entries (reports.foldl (collect rules) db) = registry reports := by
  induction reports using List.reverseRecOn with
  | nil =>
    rw [List.foldl_nil, entries, hempty]
    rfl
  | append_singleton reports r ih =>
    rw [List.foldl_append, List.foldl_cons, List.foldl_nil, collect_eq hbool, entries_store, ih, registry_snoc]

def visible (projectId owner : Option String) : Bool := projectId.isNone || owner == projectId

theorem listInstances_eq (projectId : Option String) (db : Db) :
    listInstances projectId db =
      (((entries db).filter fun e => visible projectId e.project).map Entry.rawJson).reverse := by
  rw [listInstances, Relational.Table.select, entries, List.filter_map, List.map_map, List.map_reverse]
  rfl

theorem getInstance_eq (projectId : Option String) (instanceId : String) (db : Db) :
    getInstance instanceId projectId db =
      (((entries db).find? fun e => e.instanceId = instanceId).filter fun e => visible projectId e.project).map
        Entry.rawJson := by
  have hfind : findInstance instanceId db =
      db.jvmInstances.rows.find? fun x => decide ((Entry.ofRow x.2).instanceId = instanceId) := rfl
  have hcomp : ((fun e : Entry => decide (e.instanceId = instanceId)) ∘ fun x : ℕ × JvmInstanceRow => Entry.ofRow x.2) =
      fun x => decide ((Entry.ofRow x.2).instanceId = instanceId) := rfl
  rw [getInstance, hfind, entries, List.find?_map, hcomp]
  cases db.jvmInstances.rows.find? fun x => decide ((Entry.ofRow x.2).instanceId = instanceId) with
  | none => rfl
  | some x =>
    have hvisible : visible projectId (Entry.ofRow x.2).project = false ↔
        projectId ≠ none ∧ x.2.projectId ≠ projectId := by
      cases projectId <;> simp [visible, Entry.ofRow]
    rw [Option.map_some, Option.filter_some]
    dsimp only [Function.comp_apply]
    split
    · rename_i hhidden
      rw [hvisible.mpr hhidden]
      rfl
    · rename_i hshown
      have hshown : visible projectId (Entry.ofRow x.2).project = true := by
        rw [← Bool.not_eq_false]
        exact fun h => hshown (hvisible.mp h)
      rw [hshown]
      rfl

/-- After any start reports, from any projects and in any order: the servers that a project is shown
are the instances that it registered first, each with what its JVM last reported, as the JVM's texts
were and with the values of sensitive names masked; and a report of another project changes nothing. -/
theorem servers_as_reported (hbool : ∀ b, py.laxBool (.bool b) = some b) (rules : CompiledRules py.Pattern)
    (reports : List Report) {db : Db} (hempty : db.jvmInstances.rows = []) (projectId : Option String) :
    listInstances projectId (reports.foldl (collect rules) db) =
        (((firsts reports).filter fun f => visible projectId f.project).map
          fun f => (standing reports f).fields).reverse ∧
      ∀ instanceId, getInstance instanceId projectId (reports.foldl (collect rules) db) =
        (((firsts reports).find? fun f => f.instanceId = instanceId).filter fun f => visible projectId f.project).map
          fun f => (standing reports f).fields := by
  have hentries := entries_collected hbool rules reports hempty
  constructor
  · rw [listInstances_eq, hentries, registry, List.filter_map, List.map_map]
    rfl
  · intro instanceId
    rw [getInstance_eq, hentries, registry, List.find?_map]
    have hsame : ((fun e : Entry => decide (e.instanceId = instanceId)) ∘ entryOf reports) =
        fun f => decide (f.instanceId = instanceId) := rfl
    rw [hsame]
    cases (firsts reports).find? fun f => decide (f.instanceId = instanceId) with
    | none => rfl
    | some f =>
      rw [Option.map_some, Option.filter_some, Option.filter_some]
      have hproject : (entryOf reports f).project = f.project := rfl
      rw [hproject]
      split <;> rfl

def sampleTexts : ConfigText sampleConfig := ⟨"", "", "", "", "", rfl, rfl, rfl, rfl, rfl⟩

def sampleReport (project : String) (hostname : String) : Report :=
  ⟨sampleConfig, sampleTexts, ⟨"2024-01-01T00:00:00Z", hostname, [("DB_PASSWORD", "x")], fun _ => none, []⟩,
    some project, 0⟩

theorem servers_as_reported_restart :
    listInstances (some "acme") ([sampleReport "acme" "a", sampleReport "acme" "b", sampleReport "beta" "c"].foldl
      (@collect Python.literal ⟨[], []⟩) Db.empty) = [(sampleReport "acme" "b").fields] := by
  have hempty : Db.empty.jvmInstances.rows = [] := rfl
  have hservers := (@servers_as_reported Python.literal (fun _ => rfl) ⟨[], []⟩
    [sampleReport "acme" "a", sampleReport "acme" "b", sampleReport "beta" "c"] _ hempty (some "acme")).1
  have hfirsts : firsts [sampleReport "acme" "a", sampleReport "acme" "b", sampleReport "beta" "c"] =
      [sampleReport "acme" "a"] := by
    simp [firsts, sampleReport, Report.instanceId, sampleTexts]
  have hstanding : standing [sampleReport "acme" "a", sampleReport "acme" "b", sampleReport "beta" "c"]
      (sampleReport "acme" "a") = sampleReport "acme" "b" := by
    simp [standing, Renews, sampleReport, Report.instanceId, sampleTexts]
  rw [hservers, hfirsts, List.filter_cons, if_pos (by decide), List.filter_nil, List.map_singleton, hstanding]
  rfl

end JvmScout.Wire.Registration
