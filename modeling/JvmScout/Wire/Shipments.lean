import JvmScout.Agent.ExceptionHandler
import JvmScout.Wire.RoundTrip

namespace JvmScout.Wire

open Agent JsonWriter Redaction Traverse

variable {py : Python}

section Masking

variable (rules : CompiledRules py.Pattern)

def maskedLocal (lv : LocalVariable String) : LocalVariable String :=
  if (py.lower lv.name ≠ "" ∧ rules.identifiers.any (fun fragment => Python.isIn fragment (py.lower lv.name))) ∨
    matchesPattern rules.patterns (.str lv.value) then { lv with value := redacted }
  else lv

def maskedFrame (f : StackFrame String) : StackFrame String := { f with locals := f.locals.map (maskedLocal rules) }

def masked (ev : CapturedEvent String) : CapturedEvent String :=
  if rules.active then
    { ev with
      exceptionMessage :=
        if matchesPattern rules.patterns (.str ev.exceptionMessage) then redacted else ev.exceptionMessage
      stack := ev.stack.map (maskedFrame rules) }
  else ev

theorem masked_wireOccurrences (ev : CapturedEvent String) :
    (masked rules ev).wireOccurrences = ev.wireOccurrences := by
  unfold masked
  split <;> rfl

theorem mapM_json {α : Type} {json json' : α → Json} {f : Json → Except PyError Json}
    (h : ∀ x, f (json x) = .ok (json' x)) (xs : List α) : (xs.map json).mapM f = .ok (xs.map json') := by
  induction xs with
  | nil => rfl
  | cons x xs ih =>
    rw [List.map_cons, List.mapM_cons, h, ih]
    rfl

theorem localFields_value (lv : LocalVariable String) : Dict.get? (localFields lv) "value" = some (.str lv.value) := by
  unfold localFields optionalJson
  split <;> split <;> split <;> simp [Assoc.get?_cons]

theorem localFields_set (lv : LocalVariable String) (s : String) :
    Dict.set (localFields lv) "value" (.str s) = localFields { lv with value := s } := by
  unfold localFields optionalJson
  dsimp only
  split <;> split <;> split <;> simp [Assoc.set]

theorem localFields_name (lv : LocalVariable String) :
    Python.asText ((Dict.get (localFields lv) "name").orElse (.str "")) = .ok lv.name := by
  by_cases hname : lv.name = ""
  · have hget : Dict.get (localFields lv) "name" = .null := by
      unfold localFields optionalJson Dict.get
      rw [if_pos hname]
      split <;> split <;> simp [Assoc.get?_cons]
    rw [hget, hname]
    rfl
  · have hget : Dict.get (localFields lv) "name" = .str lv.name := by
      unfold localFields optionalJson Dict.get
      rw [if_neg hname]
      rfl
    rw [hget]
    simp [Json.orElse, Json.truthy, hname, Python.asText]

theorem redact_local (lv : LocalVariable String) :
    redactLocal rules (.obj (localFields lv)) = .ok (.obj (localFields (maskedLocal rules lv))) := by
  have hhas : Dict.has (localFields lv) "value" = true := by
    rw [Dict.has, localFields_value]
    rfl
  have hvalue : Dict.get (localFields lv) "value" = .str lv.value := by
    rw [Dict.get, localFields_value]
    rfl
  have hmask := localFields_set lv redacted
  simp only [redactLocal, hhas, if_true, localFields_name, hvalue, bind, Except.bind, pure, Except.pure]
  unfold maskedLocal
  by_cases hname : py.lower lv.name ≠ "" ∧
      (rules.identifiers.any fun fragment => Python.isIn fragment (py.lower lv.name)) = true
  · rw [if_pos hname, if_pos (.inl hname), hmask]
  · rw [if_neg hname]
    by_cases hpattern : matchesPattern rules.patterns (.str lv.value) = true
    · rw [if_pos hpattern, if_pos (.inr hpattern), hmask]
    · rw [if_neg hpattern, if_neg (not_or.mpr ⟨hname, hpattern⟩)]

theorem redact_frame (f : StackFrame String) :
    redactFrame rules (frameJson f) = .ok (frameJson (maskedFrame rules f)) := by
  have hlocals := mapM_json (redact_local rules) f.locals
  simp only [redactFrame, frameJson, Dict.get?, Assoc.get?_cons]
  simp [hlocals, bind, Except.bind, pure, Except.pure, Assoc.set, maskedFrame, List.map_map, Function.comp_def]

theorem redact_event (ev : CapturedEvent String) :
    redactEvent rules (eventFields ev) = .ok (eventFields (masked rules ev)) := by
  unfold redactEvent masked
  split
  · have hstack := mapM_json (redact_frame rules) ev.stack
    have hmessage : redactMessage rules (eventFields ev) = eventFields { ev with
        exceptionMessage :=
          if matchesPattern rules.patterns (.str ev.exceptionMessage) then redacted else ev.exceptionMessage } := by
      have hget : Dict.get (eventFields ev) "exceptionMessage" = .str ev.exceptionMessage := by
        simp [eventFields, Dict.get, Assoc.get?_cons]
      unfold redactMessage
      rw [hget]
      split
      · simp [eventFields, Assoc.set, CapturedEvent.wireOccurrences]
      · rfl
    rw [hmessage, redactStack]
    simp [eventFields, Assoc.get?_cons, hstack, bind, Except.bind, pure, Except.pure, Assoc.set, List.map_map,
      Function.comp_def, CapturedEvent.wireOccurrences]
  · rfl

end Masking

def throwsIn : Json → ℕ
  | .obj d =>
    match Dict.get? d "occurrences" with
    | some (.int n) => n.toNat
    | _ => 0
  | _ => 0

def throwsOf (text : String) : ℕ := (JsonText.parse text).elim 0 throwsIn

def total (texts : List String) : ℕ := (texts.map throwsOf).sum

@[simp] theorem total_nil : total [] = 0 := rfl

@[simp] theorem total_append (xs ys : List String) : total (xs ++ ys) = total xs + total ys := by
  rw [total, List.map_append, List.sum_append, total, total]

theorem total_cons (x : String) (xs : List String) : total (x :: xs) = throwsOf x + total xs := List.sum_cons

theorem throwsOf_reads {text : String} {v : Json} (h : JsonText.Reads text v) : throwsOf text = throwsIn v := by
  rw [throwsOf, JsonText.parse_of_reads h]
  rfl

theorem throwsOf_event (ev : CapturedEvent String) : throwsOf (eventText ev) = ev.wireOccurrences := by
  rw [throwsOf_reads (reads_event ev)]
  simp [throwsIn, eventFields, Assoc.get?_cons]

structure Legible (py : Python) (text : String) (d : Dict) : Prop where
  reads : JsonText.Reads text (.obj d)
  read (rules : CompiledRules py.Pattern) :
    (∃ ev raw, Routes.readItem rules (.obj d) = .ok (.exception ev raw) ∧
      Storage.orOne ev.occurrences = throwsOf text) ∨
    ∃ className bytecodeB64, Routes.readItem rules (.obj d) = .ok (.sourceClass className bytecodeB64) ∧
      throwsOf text = 0

theorem legible_event (hint : ∀ n, py.laxInt (.int n) = some n) (hbool : ∀ b, py.laxBool (.bool b) = some b)
    (ev : CapturedEvent String) : Legible py (eventText ev) (eventFields ev) where
  reads := reads_event ev
  read rules := by
    refine .inl ⟨received (masked rules ev), eventFields (masked rules ev), ?_, ?_⟩
    · have htype : Dict.get? (eventFields ev) "type" = none := by simp [eventFields, Assoc.get?_cons]
      simp [Routes.readItem, Dict.get, htype, redact_event, validate_event hint hbool, Routes.validated, bind,
        Except.bind, pure, Except.pure]
    · have hwire := masked_wireOccurrences rules ev
      rw [throwsOf_event, ← hwire]
      unfold CapturedEvent.wireOccurrences Storage.orOne received
      dsimp only
      split <;> split <;> omega

def sourceClassFields (instanceId deployment slash b64 : String) : Dict :=
  [("type", .str "source_class"), ("instanceId", .str instanceId), ("deploymentId", .str deployment),
    ("className", .str slash), ("bytecodeB64", .str b64)]

theorem reads_sourceClass {cfg : AgentConfig} {instanceId deployment : String}
    (hinstance : Utf16.modifiedUtf8 instanceId = cfg.instanceId)
    (hdeployment : Utf16.modifiedUtf8 deployment = cfg.deployment) (slash b64 : String) :
    JsonText.Reads (ExceptionHandler.sourceClassText cfg (Utf16.modifiedUtf8 slash) (Utf16.modifiedUtf8 b64))
      (.obj (sourceClassFields instanceId deployment slash b64)) := by
  have hfields := (((((writes_string "source_class").field "type").append
    ((writes_string instanceId).field "instanceId")).append
    ((writes_string deployment).field "deploymentId")).append
    ((writes_string slash).field "className")).append ((writes_string b64).field "bytecodeB64")
  have hobject := (hfields.object (by simp)).reads
  rw [ExceptionHandler.sourceClassText, ← hinstance, ← hdeployment]
  exact hobject

theorem legible_sourceClass {text instanceId deployment slash b64 : String}
    (h : JsonText.Reads text (.obj (sourceClassFields instanceId deployment slash b64))) :
    Legible py text (sourceClassFields instanceId deployment slash b64) where
  reads := h
  read rules := by
    refine .inr ⟨(Json.str slash).orElse (.str ""), (Json.str b64).orElse (.str ""), ?_, ?_⟩
    · simp [Routes.readItem, Dict.get, sourceClassFields, Assoc.get?_cons, pure, Except.pure]
    · rw [throwsOf_reads h]
      simp [throwsIn, sourceClassFields, Assoc.get?_cons]

def OfText (b : Bytes) : Prop := ∃ s, Utf16.modifiedUtf8 s = b

structure ConfigOfText (cfg : AgentConfig) : Prop where
  deployment : OfText cfg.deployment
  environment : OfText cfg.environment
  instanceId : OfText cfg.instanceId

structure ThrowOfText (x : ExceptionHandler.Throw) : Prop where
  fingerprint : OfText x.fingerprint
  timestamp : OfText x.timestamp
  exceptionType : OfText x.exceptionType
  location : ∃ l, Location.map Utf16.modifiedUtf8 l = x.location
  exceptionMessage : OfText x.exceptionMessage
  caughtAt : ∃ l, Location.map Utf16.modifiedUtf8 l = x.caughtAt
  thread : ∃ t, ThreadDetails.map Utf16.modifiedUtf8 t = x.thread
  causeChain : ∃ cs : List (CauseInfo String), cs.map (CauseInfo.map Utf16.modifiedUtf8) = x.causeChain
  suppressed : ∃ cs : List (CauseInfo String), cs.map (CauseInfo.map Utf16.modifiedUtf8) = x.suppressed
  stack : ∃ fs : List (StackFrame String), fs.map (StackFrame.map Utf16.modifiedUtf8) = x.stack
  unshippedClasses : ∀ c ∈ x.unshippedClasses, OfText c.1 ∧ OfText c.2

def EventOfText (ev : CapturedEvent Bytes) : Prop := ∃ e : CapturedEvent String, e.map Utf16.modifiedUtf8 = ev

variable {cfg : AgentConfig} {x : ExceptionHandler.Throw}

theorem ofText_nil : OfText [] := ⟨"", rfl⟩

theorem ThrowOfText.capturedEvent (hcfg : ConfigOfText cfg) (hx : ThrowOfText x) (d : Sampler.Decision) :
    EventOfText (ExceptionHandler.capturedEvent cfg x d) := by
  obtain ⟨fingerprint, hfingerprint⟩ := hx.fingerprint
  obtain ⟨timestamp, htimestamp⟩ := hx.timestamp
  obtain ⟨exceptionType, hexceptionType⟩ := hx.exceptionType
  obtain ⟨location, hlocation⟩ := hx.location
  obtain ⟨exceptionMessage, hexceptionMessage⟩ := hx.exceptionMessage
  obtain ⟨caughtAt, hcaughtAt⟩ := hx.caughtAt
  obtain ⟨thread, hthread⟩ := hx.thread
  obtain ⟨causeChain, hcauseChain⟩ := hx.causeChain
  obtain ⟨suppressed, hsuppressed⟩ := hx.suppressed
  obtain ⟨stack, hstack⟩ := hx.stack
  obtain ⟨deployment, hdeployment⟩ := hcfg.deployment
  obtain ⟨environment, henvironment⟩ := hcfg.environment
  obtain ⟨instanceId, hinstanceId⟩ := hcfg.instanceId
  refine ⟨⟨fingerprint, d.mode, d.hitCount, 1, timestamp, deployment, environment, instanceId, exceptionType,
    exceptionMessage, x.caught, location, caughtAt, thread, causeChain, suppressed,
    if d.mode = .FULL then x.metrics else ExceptionHandler.noMetrics, decide (d.mode = .FULL), stack⟩, ?_⟩
  simp only [CapturedEvent.map, ExceptionHandler.capturedEvent, hfingerprint, htimestamp, hexceptionType, hlocation,
    hexceptionMessage, hcaughtAt, hthread, hcauseChain, hsuppressed, hstack, hdeployment, henvironment, hinstanceId]

theorem ThrowOfText.countOnlyProto (hcfg : ConfigOfText cfg) (hx : ThrowOfText x) (hitCount : ℕ) :
    EventOfText (ExceptionHandler.countOnlyProto cfg x hitCount) := by
  obtain ⟨fingerprint, hfingerprint⟩ := hx.fingerprint
  obtain ⟨timestamp, htimestamp⟩ := hx.timestamp
  obtain ⟨exceptionType, hexceptionType⟩ := hx.exceptionType
  obtain ⟨location, hlocation⟩ := hx.location
  obtain ⟨deployment, hdeployment⟩ := hcfg.deployment
  obtain ⟨environment, henvironment⟩ := hcfg.environment
  obtain ⟨instanceId, hinstanceId⟩ := hcfg.instanceId
  refine ⟨⟨fingerprint, .COUNT_ONLY, hitCount, 1, timestamp, deployment, environment, instanceId, exceptionType,
    "", x.caught, location, ⟨"", "", -1, "", false⟩, ⟨"", -1, false⟩, [], [], ExceptionHandler.noMetrics, false,
    []⟩, ?_⟩
  have hempty : Utf16.modifiedUtf8 "" = [] := rfl
  have hcaughtAt : Location.map Utf16.modifiedUtf8 ⟨"", "", -1, "", false⟩ = ExceptionHandler.noLocation := rfl
  have hthread : ThreadDetails.map Utf16.modifiedUtf8 ⟨"", -1, false⟩ = ⟨[], -1, false⟩ := rfl
  simp only [CapturedEvent.map, ExceptionHandler.countOnlyProto, hfingerprint, htimestamp, hexceptionType, hlocation,
    hdeployment, henvironment, hinstanceId, hempty, hcaughtAt, hthread, List.map_nil]

theorem EventOfText.summary {e : CountAggregator.Entry} (h : EventOfText e.proto) : EventOfText e.summary := by
  obtain ⟨ev, hev⟩ := h
  refine ⟨{ ev with occurrences := e.count }, ?_⟩
  rw [CountAggregator.Entry.summary, ← hev]
  rfl

def Sound : ExceptionHandler.Shipment → Prop
  | .event ev => EventOfText ev ∧ (ev.mode ≠ .COUNT_ONLY → ev.wireOccurrences = 1)
  | .sourceClass text => ∃ instanceId deployment slash b64,
      JsonText.Reads text (.obj (sourceClassFields instanceId deployment slash b64))

theorem Sound.legible (hint : ∀ n, py.laxInt (.int n) = some n) (hbool : ∀ b, py.laxBool (.bool b) = some b)
    {h : ExceptionHandler.Shipment} (hs : Sound h) : ∃ d, Legible py h.text d := by
  cases h with
  | event ev =>
    obtain ⟨⟨e, rfl⟩, -⟩ := hs
    exact ⟨eventFields e, legible_event hint hbool e⟩
  | sourceClass text =>
    obtain ⟨instanceId, deployment, slash, b64, hreads⟩ := hs
    exact ⟨_, legible_sourceClass hreads⟩

theorem Sound.throwsOf {h : ExceptionHandler.Shipment} (hs : Sound h) :
    throwsOf h.text = h.captures + h.summarized := by
  cases h with
  | event ev =>
    obtain ⟨⟨e, rfl⟩, hone⟩ := hs
    have hthrows := throwsOf_event e
    have hmode : (e.map Utf16.modifiedUtf8).mode = e.mode := rfl
    have hwire : (e.map Utf16.modifiedUtf8).wireOccurrences = e.wireOccurrences := rfl
    rw [hmode, hwire] at hone
    simp only [ExceptionHandler.Shipment.text, ExceptionHandler.Shipment.captures,
      ExceptionHandler.Shipment.summarized, hmode, hwire]
    rw [← eventText, hthrows]
    split
    · rw [Nat.zero_add]
    · rename_i hcapture
      exact hone hcapture
  | sourceClass text =>
    obtain ⟨instanceId, deployment, slash, b64, hreads⟩ := hs
    rw [ExceptionHandler.Shipment.text, throwsOf_reads hreads]
    simp [throwsIn, sourceClassFields, Assoc.get?_cons, ExceptionHandler.Shipment.captures,
      ExceptionHandler.Shipment.summarized]

theorem sound_shipments (hcfg : ConfigOfText cfg) (hx : ThrowOfText x) {d : Sampler.Decision} :
    ∀ h ∈ ExceptionHandler.shipments cfg x d, Sound h := by
  intro h hh
  rcases List.mem_append.mp hh with hclass | hevent
  · split at hclass
    · obtain ⟨c, hc, rfl⟩ := List.mem_map.mp hclass
      obtain ⟨⟨slash, hslash⟩, b64, hb64⟩ := hx.unshippedClasses c hc
      obtain ⟨deployment, hdeployment⟩ := hcfg.deployment
      obtain ⟨instanceId, hinstanceId⟩ := hcfg.instanceId
      refine ⟨instanceId, deployment, slash, b64, ?_⟩
      rw [← hslash, ← hb64]
      exact reads_sourceClass hinstanceId hdeployment slash b64
    · cases hclass
  · cases List.mem_singleton.mp hevent
    exact ⟨hx.capturedEvent hcfg d, fun _ => rfl⟩

end JvmScout.Wire
