import JvmScout.Agent.EventSerializer
import JvmScout.Agent.AsyncQueue
import JvmScout.Collector.Ingest

namespace JvmScout.Wire

open Agent JsonWriter

def present (s : String) : Option String := if s = "" then none else some s

def atLine (n : ℤ) : Option ℤ := if 0 ≤ n then some n else none

def receivedLocation (loc : Location String) : Option Models.Location :=
  if loc.valid then some ⟨some loc.className, some loc.methodName, atLine loc.lineNumber, some loc.sourceFile⟩
  else none

def receivedCause (c : CauseInfo String) : Models.Cause := ⟨some c.exceptionType, some c.exceptionMessage⟩

def receivedLocal (lv : LocalVariable String) : Models.LocalVariable :=
  ⟨present lv.name, present lv.signature, some lv.slot, present lv.type, some lv.value, some lv.source⟩

def receivedFrame (f : StackFrame String) : Models.StackFrame :=
  ⟨some f.frameIndex, some f.className, some f.methodName, atLine f.lineNumber, some f.sourceFile, some f.appCode,
    f.locals.map receivedLocal⟩

def receivedMetrics (m : JvmMetrics) : Models.JvmMetrics :=
  ⟨some m.heapUsedBytes, some m.heapMaxBytes, some m.gcCollectionCount, some m.gcTimeMs, some m.threadCount,
    some m.loadedClassCount, some m.uptimeMs⟩

/-- The collector's model of an event, as the wire format is meant. -/
def received (ev : CapturedEvent String) : Models.ExceptionEvent where
  timestamp := some ev.timestamp
  fingerprint := ev.fingerprint
  captureMode := some (captureModeName ev.mode)
  hitCount := ev.hitCount
  occurrences := max ev.occurrences 1
  deploymentId := some ev.deploymentId
  environment := some ev.environment
  instanceId := some ev.instanceId
  exceptionType := some ev.exceptionType
  exceptionMessage := some ev.exceptionMessage
  caught := some ev.caught
  location := receivedLocation ev.location
  caughtAt := receivedLocation ev.caughtAt
  threadInfo := some ⟨some ev.thread.name, some ev.thread.priority, some ev.thread.isDaemon⟩
  causeChain := ev.causeChain.map receivedCause
  suppressedExceptions := ev.suppressed.map receivedCause
  jvmMetrics := if ev.metricsValid then some (receivedMetrics ev.metrics) else none
  stackTrace := ev.stack.map receivedFrame

def lineJson (n : ℤ) : Json := if 0 ≤ n then .int n else .null

def locationJson (loc : Location String) : Json :=
  if loc.valid then
    .obj [("className", .str loc.className), ("methodName", .str loc.methodName),
      ("lineNumber", lineJson loc.lineNumber), ("sourceFile", .str loc.sourceFile)]
  else .null

def causeJson (c : CauseInfo String) : Json :=
  .obj [("exceptionType", .str c.exceptionType), ("exceptionMessage", .str c.exceptionMessage)]

def metricsJson (m : JvmMetrics) : Json :=
  .obj [("heapUsedBytes", .int m.heapUsedBytes), ("heapMaxBytes", .int m.heapMaxBytes),
    ("gcCollectionCount", .int m.gcCollectionCount), ("gcTimeMs", .int m.gcTimeMs),
    ("threadCount", .int m.threadCount), ("loadedClassCount", .int m.loadedClassCount), ("uptimeMs", .int m.uptimeMs)]

def optionalJson (k s : String) : List (String × Json) := if s = "" then [] else [(k, .str s)]

def localFields (lv : LocalVariable String) : Dict :=
  optionalJson "name" lv.name ++ optionalJson "signature" lv.signature ++ [("slot", .int lv.slot)] ++
    optionalJson "type" lv.type ++ [("value", .str lv.value), ("source", .str lv.source)]

def frameJson (f : StackFrame String) : Json :=
  .obj [("frameIndex", .int f.frameIndex), ("className", .str f.className), ("methodName", .str f.methodName),
    ("lineNumber", lineJson f.lineNumber), ("sourceFile", .str f.sourceFile), ("isAppCode", .bool f.appCode),
    ("localVariables", .arr (f.locals.map fun lv => .obj (localFields lv)))]

def threadJson (t : ThreadDetails String) : Json :=
  .obj [("name", .str t.name), ("priority", .int t.priority), ("isDaemon", .bool t.isDaemon)]

def eventFields (ev : CapturedEvent String) : Dict :=
  [("timestamp", .str ev.timestamp), ("fingerprint", .str ev.fingerprint),
    ("captureMode", .str (captureModeName ev.mode)), ("hitCount", .int ev.hitCount),
    ("occurrences", .int ev.wireOccurrences), ("deploymentId", .str ev.deploymentId),
    ("environment", .str ev.environment), ("instanceId", .str ev.instanceId),
    ("exceptionType", .str ev.exceptionType), ("exceptionMessage", .str ev.exceptionMessage),
    ("caught", .bool ev.caught), ("location", locationJson ev.location), ("caughtAt", locationJson ev.caughtAt),
    ("threadInfo", threadJson ev.thread), ("causeChain", .arr (ev.causeChain.map causeJson)),
    ("suppressedExceptions", .arr (ev.suppressed.map causeJson)),
    ("jvmMetrics", if ev.metricsValid then metricsJson ev.metrics else .null),
    ("stackTrace", .arr (ev.stack.map frameJson))]

theorem writes_line (k : String) (n : ℤ) :
    WritesFields (fun w => if 0 ≤ n then w.fieldInt k n else w.fieldNull k) [(k, lineJson n)] := by
  unfold lineJson
  by_cases hn : 0 ≤ n
  · simp only [hn, if_true]
    exact (writes_int n).field k
  · simp only [hn, if_false]
    exact writes_null.field k

theorem writes_location (k : String) (loc : Location String) :
    WritesFields (writeLocation k (loc.map Utf16.modifiedUtf8)) [(k, locationJson loc)] := by
  unfold locationJson
  by_cases hvalid : loc.valid = true
  · have hfields := ((((writes_string loc.className).field "className").append
      ((writes_string loc.methodName).field "methodName")).append (writes_line "lineNumber" loc.lineNumber)).append
      ((writes_string loc.sourceFile).field "sourceFile")
    have hobject := (hfields.object (by simp)).field k
    rw [if_pos hvalid]
    exact hobject.congr fun w => by
      rw [writeLocation, Location.map, if_pos hvalid]
      rfl
  · rw [if_neg hvalid]
    exact (writes_null.field k).congr fun w => by rw [writeLocation, Location.map, if_neg hvalid]

theorem writes_cause (c : CauseInfo String) :
    WritesItems (writeCause (c.map Utf16.modifiedUtf8)) [causeJson c] := by
  have hfields := ((writes_string c.exceptionType).field "exceptionType").append
    ((writes_string c.exceptionMessage).field "exceptionMessage")
  exact (hfields.object (by simp)).item

theorem writes_causes (k : String) (causes : List (CauseInfo String)) :
    WritesFields (writeCauses k (causes.map (CauseInfo.map Utf16.modifiedUtf8))) [(k, .arr (causes.map causeJson))] := by
  have hitems := WritesParts.each writes_cause causes
  exact (hitems.array.field k).congr fun w => by rw [writeCauses, List.foldl_map]

theorem writes_metrics (m : JvmMetrics) : WritesFields (writeMetrics m) [("jvmMetrics", metricsJson m)] := by
  have hfields := ((((((writes_int m.heapUsedBytes).field "heapUsedBytes").append
    ((writes_int m.heapMaxBytes).field "heapMaxBytes")).append
    ((writes_int m.gcCollectionCount).field "gcCollectionCount")).append
    ((writes_int m.gcTimeMs).field "gcTimeMs")).append ((writes_int m.threadCount).field "threadCount")).append
    (((writes_int m.loadedClassCount).field "loadedClassCount").append ((writes_int m.uptimeMs).field "uptimeMs"))
  exact (hfields.object (by simp)).field "jvmMetrics"

theorem writes_optional (k s : String) :
    WritesFields (optionalField k (Utf16.modifiedUtf8 s)) (optionalJson k s) := by
  unfold optionalJson
  by_cases hs : s = ""
  · rw [if_pos hs]
    have hempty : (Utf16.modifiedUtf8 s).isEmpty = true := by
      rw [hs]
      rfl
    exact writesParts_nil.congr fun w => by rw [optionalField, if_pos hempty, id]
  · rw [if_neg hs]
    have hbytes : ¬ (Utf16.modifiedUtf8 s).isEmpty = true := by
      intro hempty
      exact hs (Utf16.modifiedUtf8_eq_nil (List.isEmpty_iff.mp hempty))
    exact ((writes_string s).field k).congr fun w => by rw [optionalField, if_neg hbytes, fieldString]

theorem writes_local (lv : LocalVariable String) :
    WritesItems (writeLocal (lv.map Utf16.modifiedUtf8)) [.obj (localFields lv)] := by
  have hfields := ((((writes_optional "name" lv.name).append (writes_optional "signature" lv.signature)).append
    ((writes_int lv.slot).field "slot")).append (writes_optional "type" lv.type)).append
    (((writes_string lv.value).field "value").append ((writes_string lv.source).field "source"))
  have hkeys : ((localFields lv).map Prod.fst).Nodup := by
    unfold localFields optionalJson
    split <;> split <;> split <;> simp
  exact (hfields.object hkeys).item

theorem writes_frame (f : StackFrame String) :
    WritesItems (writeFrame (f.map Utf16.modifiedUtf8)) [frameJson f] := by
  have hlocals := (WritesParts.each writes_local f.locals).array.field "localVariables"
  have hfields := (((((((writes_int f.frameIndex).field "frameIndex").append
    ((writes_string f.className).field "className")).append
    ((writes_string f.methodName).field "methodName")).append (writes_line "lineNumber" f.lineNumber)).append
    ((writes_string f.sourceFile).field "sourceFile")).append ((writes_bool f.appCode).field "isAppCode")).append
    hlocals
  exact (hfields.object (by simp)).item.congr fun w => by
    rw [writeFrame, StackFrame.map, List.foldl_map]
    rfl

theorem writes_thread (t : ThreadDetails String) :
    WritesFields (fun w =>
      let w := (w.key "threadInfo").beginObject
      let w := w.fieldString "name" (Utf16.modifiedUtf8 t.name)
      let w := w.fieldInt "priority" t.priority
      let w := w.fieldBool "isDaemon" t.isDaemon
      w.endObject) [("threadInfo", threadJson t)] := by
  have hfields := (((writes_string t.name).field "name").append ((writes_int t.priority).field "priority")).append
    ((writes_bool t.isDaemon).field "isDaemon")
  exact (hfields.object (by simp)).field "threadInfo"

theorem writes_jvmMetrics (ev : CapturedEvent String) :
    WritesFields (fun w => if ev.metricsValid then writeMetrics ev.metrics w else w.fieldNull "jvmMetrics")
      [("jvmMetrics", if ev.metricsValid then metricsJson ev.metrics else .null)] := by
  by_cases hvalid : ev.metricsValid = true
  · simp only [hvalid, if_true]
    exact writes_metrics ev.metrics
  · simp only [hvalid]
    exact writes_null.field "jvmMetrics"

def eventText (ev : CapturedEvent String) : String := serializeEvent (ev.map Utf16.modifiedUtf8)

theorem reads_event (ev : CapturedEvent String) : JsonText.Reads (eventText ev) (.obj (eventFields ev)) := by
  have hidentity := ((((((((((writes_string ev.timestamp).field "timestamp").append
    ((writes_string ev.fingerprint).field "fingerprint")).append
    ((writes_string (captureModeName ev.mode)).field "captureMode")).append
    ((writes_uint ev.hitCount).field "hitCount")).append
    ((writes_uint ev.wireOccurrences).field "occurrences")).append
    ((writes_string ev.deploymentId).field "deploymentId")).append
    ((writes_string ev.environment).field "environment")).append
    ((writes_string ev.instanceId).field "instanceId")).append
    ((writes_string ev.exceptionType).field "exceptionType")).append
    ((writes_string ev.exceptionMessage).field "exceptionMessage")
  have hsites := (((writes_bool ev.caught).field "caught").append (writes_location "location" ev.location)).append
    (writes_location "caughtAt" ev.caughtAt)
  have hcauses := ((writes_thread ev.thread).append (writes_causes "causeChain" ev.causeChain)).append
    (writes_causes "suppressedExceptions" ev.suppressed)
  have hstack := (WritesParts.each writes_frame ev.stack).array.field "stackTrace"
  have hfields := (((hidentity.append hsites).append hcauses).append (writes_jvmMetrics ev)).append hstack
  have hobject := (hfields.object (by simp)).reads
  rw [eventText, serializeEvent]
  dsimp only [CapturedEvent.map]
  rw [List.foldl_map]
  exact hobject

section Validation

open Models

variable {py : Python}

theorem list_map {α β : Type} {read : Json → Option β} {json : α → Json} {value : α → β}
    (h : ∀ x, read (json x) = some (value x)) (xs : List α) :
    list read (.arr (xs.map json)) = some (xs.map value) := by
  induction xs with
  | nil => rfl
  | cons x xs ih =>
    rw [list] at ih ⊢
    rw [List.map_cons, List.mapM_cons, h, ih]
    rfl

theorem optional_absent {α : Type} (read : Json → Option α) : Models.optional read none = some none := rfl

theorem optional_str (s : String) : Models.optional text (some (.str s)) = some (some s) := rfl

theorem optional_obj {α : Type} {read : Dict → Option α} {d : Dict} {a : α} (h : read d = some a) :
    Models.optional (model read) (some (.obj d)) = some (some a) := by
  rw [Models.optional, model, h]
  · rfl
  · intro hnull
    cases hnull

theorem validate_cause (c : CauseInfo String) : model Cause.validate (causeJson c) = some (receivedCause c) := by
  simp [model, causeJson, Cause.validate, field, optional_str, receivedCause, Assoc.get?_cons]

variable (hint : ∀ n, py.laxInt (.int n) = some n) (hbool : ∀ b, py.laxBool (.bool b) = some b)

include hbool in
theorem optional_bool (b : Bool) : Models.optional py.laxBool (some (.bool b)) = some (some b) := by
  simp [Models.optional, hbool]

include hint

theorem optional_int (n : ℤ) : Models.optional py.laxInt (some (.int n)) = some (some n) := by
  simp [Models.optional, hint]

theorem optional_line (n : ℤ) : Models.optional py.laxInt (some (lineJson n)) = some (atLine n) := by
  unfold lineJson atLine
  split
  · exact optional_int hint n
  · rfl

theorem validate_location (loc : Agent.Location String) :
    Models.optional (model (Location.validate py)) (some (locationJson loc)) = some (receivedLocation loc) := by
  unfold locationJson receivedLocation
  split
  · apply optional_obj
    simp [Location.validate, field, optional_str, optional_line hint, Assoc.get?_cons]
  · rfl

theorem validate_metrics (m : Agent.JvmMetrics) :
    Models.optional (model (JvmMetrics.validate py)) (some (metricsJson m)) = some (some (receivedMetrics m)) := by
  apply optional_obj
  simp [JvmMetrics.validate, field, optional_int hint, receivedMetrics, Assoc.get?_cons]

theorem validate_local (lv : Agent.LocalVariable String) :
    model (LocalVariable.validate py) (.obj (localFields lv)) = some (receivedLocal lv) := by
  unfold localFields optionalJson receivedLocal present
  split <;> split <;> split <;>
    simp [model, LocalVariable.validate, optional_absent, optional_str, optional_int hint, Assoc.get?_cons]

include hbool

theorem validate_thread (t : ThreadDetails String) :
    Models.optional (model (ThreadInfo.validate py)) (some (threadJson t)) =
      some (some ⟨some t.name, some t.priority, some t.isDaemon⟩) := by
  apply optional_obj
  simp [ThreadInfo.validate, field, optional_str, optional_int hint, optional_bool hbool, Assoc.get?_cons]

theorem validate_frame (f : Agent.StackFrame String) :
    model (StackFrame.validate py) (frameJson f) = some (receivedFrame f) := by
  have hlocals := list_map (validate_local hint) f.locals
  simp [model, frameJson, StackFrame.validate, field, optional_str, optional_int hint, optional_line hint,
    optional_bool hbool, withDefault, hlocals, receivedFrame, Assoc.get?_cons]

theorem validate_event (ev : CapturedEvent String) :
    ExceptionEvent.validate py (eventFields ev) = some (received ev) := by
  have hcauses := list_map validate_cause ev.causeChain
  have hsuppressed := list_map validate_cause ev.suppressed
  have hstack := list_map (validate_frame hint hbool) ev.stack
  have hoccurrences : positiveOccurrences ev.wireOccurrences = max (ev.occurrences : ℤ) 1 := by
    unfold positiveOccurrences CapturedEvent.wireOccurrences
    split <;> omega
  have hmetrics : Models.optional (model (JvmMetrics.validate py))
      (some (if ev.metricsValid then metricsJson ev.metrics else .null)) =
        some (if ev.metricsValid then some (receivedMetrics ev.metrics) else none) := by
    split
    · exact validate_metrics hint ev.metrics
    · rfl
  simp [ExceptionEvent.validate, eventFields, field, optional_str, optional_bool hbool, validate_location hint,
    validate_thread hint hbool, withDefault, hint, coerceFingerprint, hcauses, hsuppressed, hstack, hoccurrences,
    hmetrics, received, Assoc.get?_cons]
  rfl

end Validation

theorem foldl_separated (events : List String) (body : String) (first : Bool) :
    (events.foldl (fun (body, first) ev => ((if first then body else body ++ ",") ++ ev, false)) (body, first)).1 =
      body ++ JsonText.separated (!first) events := by
  induction events generalizing body first with
  | nil => simp [JsonText.separated]
  | cons ev events ih =>
    rw [List.foldl_cons, ih]
    cases first <;> simp [JsonText.separated, String.append_assoc]

theorem buildBatch_eq (events : List String) :
    AsyncQueue.buildBatch events = "[" ++ JsonText.separated false events ++ "]" := by
  rw [AsyncQueue.buildBatch, foldl_separated]
  rfl

theorem parse_batch (evs : List (CapturedEvent String)) :
    JsonText.parse (AsyncQueue.buildBatch (evs.map eventText)) =
      some (.arr (evs.map fun ev => .obj (eventFields ev))) := by
  rw [buildBatch_eq]
  apply JsonText.parse_of_reads
  apply JsonText.reads_arr
  rw [List.forall₂_map_left_iff, List.forall₂_map_right_iff]
  exact List.forall₂_same.mpr fun ev _ => reads_event ev

/-- What the agent sends of an event is what the collector stores of it, alone and in a batch. -/
theorem event_round_trip {py : Python} (hint : ∀ n, py.laxInt (.int n) = some n)
    (hbool : ∀ b, py.laxBool (.bool b) = some b) :
    (∀ ev, JsonText.parse (eventText ev) = some (.obj (eventFields ev)) ∧
      Dict.get? (eventFields ev) "type" = none ∧
      Models.ExceptionEvent.validate py (eventFields ev) = some (received ev) ∧
      ∀ rules : Redaction.CompiledRules py.Pattern, rules.active = false →
        Routes.readItem rules (.obj (eventFields ev)) = .ok (.exception (received ev) (eventFields ev))) ∧
    ∀ evs : List (CapturedEvent String), JsonText.parse (AsyncQueue.buildBatch (evs.map eventText)) =
      some (.arr (evs.map fun ev => .obj (eventFields ev))) := by
  refine ⟨fun ev => ?_, parse_batch⟩
  have htype : Dict.get? (eventFields ev) "type" = none := by simp [eventFields, Assoc.get?_cons]
  have hvalid := validate_event hint hbool ev
  refine ⟨JsonText.parse_of_reads (reads_event ev), htype, hvalid, fun rules hrules => ?_⟩
  simp [Routes.readItem, Dict.get, htype, Redaction.redactEvent, hrules, Routes.validated, hvalid]

def hotSummary : CapturedEvent String where
  fingerprint := "6c62272e07bb0142"
  mode := .COUNT_ONLY
  hitCount := 105
  occurrences := 0
  timestamp := "2026-01-01T00:00:00.000Z"
  deploymentId := "checkout"
  environment := "prod"
  instanceId := "i-1"
  exceptionType := "java/lang/IllegalStateException"
  exceptionMessage := "sin crédito 😀"
  caught := true
  location := ⟨"com.shop.Cart", "total", 42, "Cart.java", true⟩
  caughtAt := ⟨"", "", -1, "", false⟩
  thread := ⟨"", -1, false⟩
  causeChain := [⟨"java/io/IOException", "a \"quoted\" cause"⟩]
  suppressed := []
  metrics := ⟨-1, -1, -1, -1, -1, -1, -1⟩
  metricsValid := false
  stack := [⟨0, "com.shop.Cart", "total", -1, "", true, [⟨"", "", 1, "int", "7", "bci_shadow"⟩]⟩]

theorem hot_summary_received :
    JsonText.parse (AsyncQueue.buildBatch [eventText hotSummary]) = some (.arr [.obj (eventFields hotSummary)]) ∧
      Models.ExceptionEvent.validate Python.literal (eventFields hotSummary) = some (received hotSummary) ∧
      (received hotSummary).occurrences = 1 := by
  have hint : ∀ n, Python.literal.laxInt (.int n) = some n := fun _ => rfl
  have hround := event_round_trip hint fun _ => rfl
  exact ⟨hround.2 [hotSummary], (hround.1 hotSummary).2.2.1, rfl⟩

end JvmScout.Wire
