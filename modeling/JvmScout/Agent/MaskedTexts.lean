import JvmScout.Agent.StackWalker
import JvmScout.Agent.SystemInfo

namespace JvmScout.Agent.MaskedTexts

open JsonWriter SystemInfo StackWalker JvmtiShadow

structure Store extends JvmtiShadow Bytes where
  unnamed : ∀ d slot, names d slot = none

structure Run where
  system : SystemState
  ready : Bool
  shadow : Store
  stack : List FrameInfo

def Run.shadowOf (cfg : AgentConfig) (r : Run) : Option (JvmtiShadow Bytes) :=
  if cfg.bci && r.ready then some r.shadow.toJvmtiShadow else none

def fullEvent (cfg : AgentConfig) (ev : CapturedEvent Bytes) (r : Run) : CapturedEvent Bytes :=
  { ev with
    mode := .FULL
    stack := walk cfg.redactProps.patterns (r.shadowOf cfg) r.stack true kMaxFrames }

/-! Runs that differ in sensitive values only. -/

def AlikeVar (props : RedactProps) (kv kv' : Bytes × Bytes) : Prop :=
  kv.1 = kv'.1 ∧ (kv.2 = kv'.2 ∨ Sensitive props kv.1)

def option (name v : Bytes) : Bytes := Utf16.modifiedUtf8 "-D" ++ name ++ Utf16.modifiedUtf8 "=" ++ v

def AlikeArgument (props : RedactProps) (a a' : Bytes) : Prop :=
  a = a' ∨ ∃ name v v', Sensitive props name ∧ a = option name v ∧ a' = option name v'

def AlikeEntry (props : RedactProps) (e e' : LocalEntry) : Prop :=
  (∃ v, e' = { e with rendered := v }) ∧ (e = e' ∨ Sensitive props (e.name.getD []))

def AlikeTable (props : RedactProps) : Option (List LocalEntry) → Option (List LocalEntry) → Prop
  | some table, some table' => List.Forall₂ (AlikeEntry props) table table'
  | none, none => True
  | _, _ => False

def AlikeFrame (props : RedactProps) (f f' : FrameInfo) : Prop :=
  (∃ table, f' = { f with table := table }) ∧ AlikeTable props f.table f'.table

/-- `named` has the local variable whose value a slot holds, which the store does not. -/
structure Alike (props : RedactProps) (named : ℕ → ℕ → Option Bytes) (r r' : Run) : Prop where
  now : r.system.now = r'.system.now
  hostname : r.system.hostname = r'.system.hostname
  environment : List.Forall₂ (AlikeVar props) r.system.environment r'.system.environment
  property : ∀ k, r.system.property k = r'.system.property k ∨ Sensitive props (Utf16.modifiedUtf8 k)
  arguments : List.Forall₂ (AlikeArgument props) r.system.inputArguments r'.system.inputArguments
  ready : r.ready = r'.ready
  depth : r.shadow.depth = r'.shadow.depth
  slots : ∀ d slot, r.shadow.frames d slot = r'.shadow.frames d slot ∨
    ∃ name ∈ named d slot, Sensitive props name
  stack : List.Forall₂ (AlikeFrame props) r.stack r'.stack

def SameText (v v' : Bytes) : Prop := codeUnits v = codeUnits v'

instance (v v' : Bytes) : Decidable (SameText v v') := inferInstanceAs (Decidable (_ = _))

def unmasked : List String :=
  ["java.version", "java.vendor", "java.vm.name", "java.vm.version", "java.runtime.name", "os.name",
    "os.version", "os.arch", "java.class.path"]

def SameArguments (r r' : Run) : Prop :=
  List.Forall₂ SameText r.system.inputArguments r'.system.inputArguments

def SameProperties (r r' : Run) : Prop :=
  ∀ k ∈ unmasked, SameText (getProperty r.system k) (getProperty r'.system k)

def SameRow (cfg : AgentConfig) (r r' : Run) (i : ℕ) (f : FrameInfo) : Prop :=
  cfg.bci = true → r.ready = true → f.appCode = true → f.table = none →
    ∀ d < maxDepth, r.shadow.depth = d + i → ∀ slot < maxSlots,
      (r.shadow.frames d slot).map codeUnits = (r'.shadow.frames d slot).map codeUnits

def SameRows (cfg : AgentConfig) (r r' : Run) : Prop :=
  ∀ i f, (r.stack.take kMaxFrames)[i]? = some f → SameRow cfg r r' i f

/-! The start event. -/

theorem tells_fieldString (k : String) (v v' : Bytes) :
    TellsParts (fieldString k v) (fieldString k v') (SameText v v') :=
  (tells_string v v').field (Utf16.modifiedUtf8 k)

theorem same_fieldString (k : String) {v v' : Bytes} (h : v = v') :
    TellsParts (fieldString k v) (fieldString k v') True :=
  (tells_fieldString k v v').congr (iff_of_true (congrArg codeUnits h) trivial)

theorem same_fieldInt (k : String) (n : ℤ) : TellsParts (fieldInt k n) (fieldInt k n) True :=
  (isText_int n).tells.field (Utf16.modifiedUtf8 k)

theorem same_fieldUint (k : String) (n : ℕ) : TellsParts (fieldUint k n) (fieldUint k n) True :=
  (isText_int n).tells.field (Utf16.modifiedUtf8 k)

theorem same_fieldBool (k : String) {b b' : Bool} (h : b = b') :
    TellsParts (fieldBool k b) (fieldBool k b') True := by
  subst h
  exact (isText_bool b).tells.field (Utf16.modifiedUtf8 k)

theorem same_fieldNull (k : String) : TellsParts (fieldNull k) (fieldNull k) True :=
  isText_null.tells.field (Utf16.modifiedUtf8 k)

theorem tells_jvmInfo (sys sys' : SystemState) :
    TellsParts (writeJvmInfo sys) (writeJvmInfo sys')
      (∀ k ∈ ["java.version", "java.vendor", "java.vm.name", "java.vm.version", "java.runtime.name"],
        SameText (getProperty sys k) (getProperty sys' k)) := by
  have hfields :=
    ((((tells_fieldString "version" (getProperty sys "java.version") (getProperty sys' "java.version")).append
      (tells_fieldString "vendor" (getProperty sys "java.vendor") (getProperty sys' "java.vendor"))).append
      (tells_fieldString "vmName" (getProperty sys "java.vm.name") (getProperty sys' "java.vm.name"))).append
      (tells_fieldString "vmVersion" (getProperty sys "java.vm.version")
        (getProperty sys' "java.vm.version"))).append
      (tells_fieldString "runtimeName" (getProperty sys "java.runtime.name")
        (getProperty sys' "java.runtime.name"))
  apply (hfields.object.field (Utf16.modifiedUtf8 "jvmInfo")).congr
  simp only [List.forall_mem_cons, List.not_mem_nil, false_imp_iff, implies_true, and_true, and_assoc]

theorem tells_hostInfo {sys sys' : SystemState} (hname : sys.hostname = sys'.hostname)
    (hkube : kubernetes sys = kubernetes sys') :
    TellsParts (writeHostInfo sys) (writeHostInfo sys')
      (∀ k ∈ ["os.name", "os.version", "os.arch"], SameText (getProperty sys k) (getProperty sys' k)) := by
  have hfields :=
    ((((same_fieldString "name" hname).append
      (tells_fieldString "os" (getProperty sys "os.name") (getProperty sys' "os.name"))).append
      (tells_fieldString "osVersion" (getProperty sys "os.version") (getProperty sys' "os.version"))).append
      (tells_fieldString "arch" (getProperty sys "os.arch") (getProperty sys' "os.arch"))).append
      (same_fieldBool "kubernetes" hkube)
  apply (hfields.object.field (Utf16.modifiedUtf8 "hostInfo")).congr
  simp only [List.forall_mem_cons, List.not_mem_nil, false_imp_iff, implies_true, and_true, and_assoc, true_and]

theorem tells_jvmArgs (sys sys' : SystemState) :
    TellsParts (writeJvmArgs sys) (writeJvmArgs sys')
      (List.Forall₂ SameText sys.inputArguments sys'.inputArguments) :=
  (tells_array tells_string sys.inputArguments sys'.inputArguments).field (Utf16.modifiedUtf8 "jvmArgs")

theorem same_envVars {cfg : AgentConfig} {sys sys' : SystemState}
    (h : List.Forall₂ (AlikeVar cfg.redactProps) sys.environment sys'.environment) :
    TellsParts (writeEnvVars cfg sys) (writeEnvVars cfg sys') True := by
  have hvar (kv kv' : Bytes × Bytes) (hkv : AlikeVar cfg.redactProps kv kv') :
      TellsParts (writeEnvVar cfg kv) (writeEnvVar cfg kv') True := by
    obtain ⟨k, v⟩ := kv
    obtain ⟨k', v'⟩ := kv'
    obtain ⟨rfl, hv⟩ := hkv
    unfold writeEnvVar
    by_cases hcap : captured cfg k = true
    · simp only [hcap, if_true]
      refine ((tells_string _ _).field k).congr (iff_of_true (congrArg codeUnits ?_) trivial)
      rcases hv with rfl | hsensitive
      · rfl
      · have hmask : isRedacted cfg k = true := redactMatches_iff.mpr hsensitive
        rw [if_pos hmask, if_pos hmask]
    · simp only [hcap]
      exact tellsParts_nil
  have hparts : TellsParts
      (fun w => if cfg.envCapture.isEmpty then w
        else sys.environment.foldl (fun w kv => writeEnvVar cfg kv w) w)
      (fun w => if cfg.envCapture.isEmpty then w
        else sys'.environment.foldl (fun w kv => writeEnvVar cfg kv w) w) True := by
    by_cases hempty : cfg.envCapture.isEmpty = true
    · simp only [hempty, if_true]
      exact tellsParts_nil
    · simp only [hempty]
      exact (TellsParts.each hvar h).congr (iff_of_true (h.imp fun _ _ _ => trivial) trivial)
  exact hparts.object.field (Utf16.modifiedUtf8 "envVars")

theorem same_systemProperties {cfg : AgentConfig} {sys sys' : SystemState}
    (h : ∀ k, sys.property k = sys'.property k ∨ Sensitive cfg.redactProps (Utf16.modifiedUtf8 k)) :
    TellsParts (writeSystemProperties cfg sys) (writeSystemProperties cfg sys') True := by
  have hwrite : writeProperty cfg sys = writeProperty cfg sys' := by
    funext p w
    unfold writeProperty getProperty
    rcases h p with heq | hsensitive
    · rw [heq]
    · have hmask : isRedacted cfg (Utf16.modifiedUtf8 p) = true := redactMatches_iff.mpr hsensitive
      dsimp only
      rw [if_pos hmask, if_pos hmask]
  have hprop (p q : String) (hpq : p = q) :
      TellsParts (writeProperty cfg sys' p) (writeProperty cfg sys' q) True := by
    subst hpq
    exact same_fieldString p rfl
  have hparts : TellsParts (fun w => kProps.foldl (fun w p => writeProperty cfg sys' p w) w)
      (fun w => kProps.foldl (fun w p => writeProperty cfg sys' p w) w) True :=
    (TellsParts.each hprop (List.forall₂_refl kProps)).congr
      (iff_of_true (List.forall₂_same.mpr fun _ _ => trivial) trivial)
  have hobject := hparts.object.field (Utf16.modifiedUtf8 "systemProperties")
  unfold writeSystemProperties
  rw [hwrite]
  exact hobject

theorem same_agentConfig (cfg : AgentConfig) :
    TellsParts (writeAgentConfig cfg) (writeAgentConfig cfg) True := by
  have hfields := (((((same_fieldString "host" (rfl : cfg.host = cfg.host)).append
    (same_fieldInt "port" cfg.port)).append (same_fieldString "path" (rfl : cfg.path = cfg.path))).append
    (same_fieldBool "console" (rfl : cfg.console = cfg.console))).append
    (same_fieldInt "depth" cfg.depth)).append (same_fieldBool "bci" (rfl : cfg.bci = cfg.bci))
  apply (hfields.object.field (Utf16.modifiedUtf8 "agentConfig")).congr
  simp only [and_self]

theorem alike_kubernetes {props : RedactProps} {sys sys' : SystemState}
    (h : List.Forall₂ (AlikeVar props) sys.environment sys'.environment) :
    kubernetes sys = kubernetes sys' := by
  unfold kubernetes
  generalize sys.environment = env, sys'.environment = env' at h
  induction h with
  | nil => rfl
  | cons hkv _ ih => rw [List.any_cons, List.any_cons, ih, hkv.1]

theorem start_eq_iff {cfg : AgentConfig} {named : ℕ → ℕ → Option Bytes} {r r' : Run}
    (h : Alike cfg.redactProps named r r') :
    buildAgentStartEvent cfg r.system = buildAgentStartEvent cfg r'.system ↔
      SameArguments r r' ∧ SameProperties r r' := by
  have hfields := ((((((((((same_fieldString "type" (rfl : Utf16.modifiedUtf8 "agent_start" = _)).append
    (same_fieldString "timestamp" h.now)).append
    (same_fieldString "instanceId" (rfl : cfg.instanceId = _))).append
    (same_fieldString "deploymentId" (rfl : cfg.deployment = _))).append
    (same_fieldString "environment" (rfl : cfg.environment = _))).append
    (tells_jvmInfo r.system r'.system)).append
    (tells_hostInfo h.hostname (alike_kubernetes h.environment))).append
    (tells_jvmArgs r.system r'.system)).append
    (tells_fieldString "classpath" (getProperty r.system "java.class.path")
      (getProperty r'.system "java.class.path"))).append
    (same_envVars h.environment)).append
    (same_systemProperties h.property) |>.append (same_agentConfig cfg)
  refine hfields.object.out_eq.trans ?_
  simp only [SameArguments, SameProperties, unmasked, List.forall_mem_cons, List.not_mem_nil, false_imp_iff,
    implies_true, and_true, true_and]
  tauto

/-! The frames of an event. -/

theorem same_optionalField (k : String) (v : Bytes) :
    TellsParts (optionalField k v) (optionalField k v) True := by
  by_cases hempty : v.isEmpty = true
  · have hskip : optionalField k v = id := by
      funext w
      exact if_pos hempty
    rw [hskip]
    exact tellsParts_nil
  · have hwrite : optionalField k v = fieldString k v := by
      funext w
      exact if_neg hempty
    rw [hwrite]
    exact same_fieldString k rfl

theorem same_local (lv : LocalVariable Bytes) : TellsParts (writeLocal lv) (writeLocal lv) True := by
  have hfields := (((((same_optionalField "name" lv.name).append
    (same_optionalField "signature" lv.signature)).append (same_fieldInt "slot" lv.slot)).append
    (same_optionalField "type" lv.type)).append (same_fieldString "value" (rfl : lv.value = _))).append
    (same_fieldString "source" (rfl : lv.source = _))
  apply hfields.object.item.congr
  simp only [and_self]

def slotLocal (p : ℕ × Bytes) : LocalVariable Bytes := shadowLocal ⟨[], p.1, p.2⟩

theorem peels_int (n m : ℤ) :
    Peel.Peels ((toString n).toList ++ [',']) ((toString m).toList ++ [',']) (n = m) := by
  intro r r'
  simp only [List.append_assoc, List.singleton_append]
  constructor
  · intro heq
    have hread (n : ℤ) {l : ℕ} (hl : (toString n).toList.length ≤ l) (r : List Char) :=
      (JsonText.reads_int n).read l (',' :: r) hl (JsonText.delimited_cons (.inl rfl) r)
    have hn := hread n (Nat.le_add_right _ (toString m).toList.length) r
    rw [heq, hread m (Nat.le_add_left _ _) r', Option.some_inj] at hn
    cases hn
    exact ⟨rfl, rfl⟩
  · rintro ⟨rfl, rfl⟩
    rfl

theorem tells_slotLocal (p q : ℕ × Bytes) :
    Tells (writeLocal (slotLocal p)) (writeLocal (slotLocal q)) (p.1 = q.1 ∧ SameText p.2 q.2) := by
  obtain ⟨s, t, hs, ht, hpeel⟩ := (tells_string p.2 q.2).texts
  have hwrite (n : ℤ) {v : Bytes} {s : String} (hs : IsText (valueString v) s) (out : String) (comma : Bool) :
      fieldString "value" v (fieldInt "slot" n ⟨out, comma, false⟩) =
        ⟨out ++ ((if comma then "," else "") ++ "\"" ++ escape (Utf16.modifiedUtf8 "slot") ++ "\":" ++
          (toString n ++ ",") ++ ("\"" ++ escape (Utf16.modifiedUtf8 "value") ++ "\":") ++ s), true, false⟩ := by
    simp only [fieldString, fieldInt, key, valueInt, prefixed_eq, hs.write]
    simp only [separator, String.append_assoc, if_true, if_false, Bool.false_eq_true, String.empty_append]
  have hparts : TellsParts (fun w => fieldString "value" p.2 (fieldInt "slot" p.1 w))
      (fun w => fieldString "value" q.2 (fieldInt "slot" q.1 w)) (p.1 = q.1 ∧ SameText p.2 q.2) := by
    constructor
    intro comma
    refine ⟨_, _, true, fun out => hwrite p.1 hs out comma, fun out => hwrite q.1 ht out comma, ?_⟩
    have hcomma : ",".toList = [','] := rfl
    simp only [String.toList_append, hcomma]
    apply ((((peels_int p.1 q.1).before _).after _).append hpeel).congr
    rw [Nat.cast_inj]
    rfl
  have hfields := hparts.append (same_fieldString "source" (rfl : Utf16.modifiedUtf8 "bci_shadow" = _))
  apply hfields.object.congr
  rw [and_true]

theorem same_lineNumber (n : ℤ) :
    TellsParts (fun w => if 0 ≤ n then fieldInt "lineNumber" n w else fieldNull "lineNumber" w)
      (fun w => if 0 ≤ n then fieldInt "lineNumber" n w else fieldNull "lineNumber" w) True := by
  by_cases hnumber : 0 ≤ n
  · simp only [hnumber, if_true]
    exact same_fieldInt "lineNumber" n
  · simp only [hnumber, if_false]
    exact same_fieldNull "lineNumber"

theorem tells_frame (x : StackFrame Bytes) {ls ls' : List (LocalVariable Bytes)} {P : Prop}
    (h : Tells (fun w => (ls.foldl (fun w lv => writeLocal lv w) w.beginArray).endArray)
      (fun w => (ls'.foldl (fun w lv => writeLocal lv w) w.beginArray).endArray) P) :
    TellsParts (writeFrame { x with locals := ls }) (writeFrame { x with locals := ls' }) P := by
  have hfields := ((((((same_fieldInt "frameIndex" x.frameIndex).append
    (same_fieldString "className" (rfl : x.className = _))).append
    (same_fieldString "methodName" (rfl : x.methodName = _))).append (same_lineNumber x.lineNumber)).append
    (same_fieldString "sourceFile" (rfl : x.sourceFile = _))).append
    (same_fieldBool "isAppCode" (rfl : x.appCode = _))).append
    (h.field (Utf16.modifiedUtf8 "localVariables"))
  apply hfields.object.item.congr
  simp only [true_and]

/-! The locals of a frame. -/

theorem same_array {β : Type} {write : β → JsonWriter → JsonWriter}
    (h : ∀ b, TellsParts (write b) (write b) True) (bs : List β) :
    Tells (fun w => (bs.foldl (fun w b => write b w) w.beginArray).endArray)
      (fun w => (bs.foldl (fun w b => write b w) w.beginArray).endArray) True := by
  have hitem (b b' : β) (hb : b = b') : TellsParts (write b) (write b') True := by
    subst hb
    exact h b
  apply (TellsParts.each hitem (List.forall₂_refl bs)).array.congr
  exact iff_of_true (List.forall₂_same.mpr fun _ _ => trivial) trivial

def rowAt {V : Type} (sh : JvmtiShadow V) (depth : ℕ) : ℕ → Option V := (sh.getFrame depth).getD fun _ => none

def rowValues {V : Type} (row : ℕ → Option V) : List (ℕ × V) :=
  (List.range maxSlots).filterMap fun slot => (row slot).map fun v => (slot, v)

theorem rowLocals_none {V : Type} (row : ℕ → Option V) :
    rowLocals none row = (rowValues row).map fun p => ⟨[], p.1, p.2⟩ := by
  rw [rowValues, List.map_filterMap, rowLocals]
  simp only [Option.bind_none, Option.getD_none, Option.map_map]
  rfl

theorem rowValues_inj {V : Type} {row row' : ℕ → Option V} :
    rowValues row = rowValues row' ↔ ∀ slot < maxSlots, row slot = row' slot := by
  have hinj : Function.Injective fun p : ℕ × V => (⟨[], p.1, p.2⟩ : ShadowLocal V) := by
    rintro ⟨slot, v⟩ ⟨slot', v'⟩ h
    cases h
    rfl
  rw [← rowLocals_inj, rowLocals_none, rowLocals_none, (List.map_injective_iff.mpr hinj).eq_iff]

theorem readFrame_unnamed (st : Store) (depth : ℕ) :
    st.readFrame depth = (rowValues (rowAt st.toJvmtiShadow depth)).map fun p => ⟨[], p.1, p.2⟩ := by
  rw [← rowLocals_none, readFrame, rowAt]
  cases hrow : st.getFrame depth with
  | none => simp [rowLocals]
  | some row =>
    simp only [rowLocals, getMetadata, Option.getD_some]
    split <;> simp [st.unnamed]

theorem mask_slotLocal (props : List Bytes) (p : ℕ × Bytes) :
    maskLocal props (slotLocal p) = slotLocal p := by
  apply if_neg
  rintro ⟨hname, -⟩
  exact hname rfl

theorem shadow_locals (props : List Bytes) (st : Store) (i : ℕ) {f : FrameInfo} (hf : f.table = none) :
    (captureFrameLocals (some st.toJvmtiShadow) i f).map (maskLocal props) =
      (rowValues (rowAt st.toJvmtiShadow i)).map slotLocal := by
  have hread := readFrame_unnamed st i
  rw [captureFrameLocals, hf]
  simp only [hread, List.map_map]
  apply List.map_congr_left
  intro p _
  exact mask_slotLocal props p

theorem tells_rows (row row' : ℕ → Option Bytes) :
    Tells (fun w => (((rowValues row).map slotLocal).foldl (fun w lv => writeLocal lv w) w.beginArray).endArray)
      (fun w => (((rowValues row').map slotLocal).foldl (fun w lv => writeLocal lv w) w.beginArray).endArray)
      (∀ slot < maxSlots, (row slot).map codeUnits = (row' slot).map codeUnits) := by
  have htext (row : ℕ → Option Bytes) : (rowValues row).map (fun p => (p.1, codeUnits p.2)) =
      rowValues fun slot => (row slot).map codeUnits := by
    rw [rowValues, List.map_filterMap, rowValues]
    simp only [Option.map_map]
    rfl
  simp only [List.foldl_map]
  apply (tells_array tells_slotLocal (rowValues row) (rowValues row')).congr
  rw [← rowValues_inj, ← htext, ← htext, ← List.forall₂_eq_eq_eq, List.forall₂_map_left_iff,
    List.forall₂_map_right_iff]
  simp only [Prod.mk.injEq, SameText]

theorem same_rowAt {sh sh' : JvmtiShadow Bytes} (hdepth : sh.depth = sh'.depth) (i : ℕ) :
    (∀ slot < maxSlots, (rowAt sh i slot).map codeUnits = (rowAt sh' i slot).map codeUnits) ↔
      ∀ d < maxDepth, sh.depth = d + i → ∀ slot < maxSlots,
        (sh.frames d slot).map codeUnits = (sh'.frames d slot).map codeUnits := by
  unfold rowAt getFrame
  rw [← hdepth]
  by_cases hrange : 0 ≤ sh.depth - i ∧ sh.depth - i < maxDepth
  · simp only [hrange, and_self, if_true, Option.getD_some]
    constructor
    · intro h d hd hplace slot hslot
      have hrow : (sh.depth - i).toNat = d := by omega
      have hsame := h slot hslot
      rwa [hrow] at hsame
    · intro h slot hslot
      apply h
      · omega
      · omega
      · exact hslot
  · simp only [hrange, if_false, Option.getD_none, implies_true, true_iff]
    intro d hd hplace
    omega

theorem sensitive_name {props : RedactProps} {name : Bytes} (h : Sensitive props name) : name ≠ [] := by
  rintro rfl
  obtain ⟨pat, hpat, hinfix⟩ := h
  have hnil : lower pat = [] := List.eq_nil_of_infix_nil hinfix
  exact props.nonempty pat hpat (List.map_eq_nil_iff.mp hnil)

theorem alike_entry {props : RedactProps} {e e' : LocalEntry} (h : AlikeEntry props e e') :
    maskLocal props.patterns (tableLocal e) = maskLocal props.patterns (tableLocal e') := by
  obtain ⟨⟨v, rfl⟩, heq | hsensitive⟩ := h
  · rw [← heq]
  · have hmask : e.name.getD [] ≠ [] ∧ redactMatches props.patterns (e.name.getD []) = true :=
      ⟨sensitive_name hsensitive, redactMatches_iff.mpr hsensitive⟩
    unfold maskLocal tableLocal
    rw [if_pos hmask, if_pos hmask]

theorem alike_table {props : RedactProps} (loc : ℤ) {table table' : List LocalEntry}
    (h : List.Forall₂ (AlikeEntry props) table table') :
    ((table.filter (locationInScope loc)).map tableLocal).map (maskLocal props.patterns) =
      ((table'.filter (locationInScope loc)).map tableLocal).map (maskLocal props.patterns) := by
  induction h with
  | nil => rfl
  | @cons e e' table table' he _ ih =>
    have hscope : locationInScope loc e' = locationInScope loc e := by
      obtain ⟨⟨v, rfl⟩, -⟩ := he
      rfl
    rw [List.filter_cons, List.filter_cons, hscope]
    split
    · simp only [List.map_cons, alike_entry he]
      exact congrArg _ ih
    · exact ih

theorem tells_walkFrame {cfg : AgentConfig} {named : ℕ → ℕ → Option Bytes} {r r' : Run}
    (h : Alike cfg.redactProps named r r') {f f' : FrameInfo} (hf : AlikeFrame cfg.redactProps f f') (i : ℕ) :
    TellsParts (writeFrame (walkFrame cfg.redactProps.patterns (r.shadowOf cfg) true i f))
      (writeFrame (walkFrame cfg.redactProps.patterns (r'.shadowOf cfg) true i f')) (SameRow cfg r r' i f) := by
  obtain ⟨⟨table, rfl⟩, htable⟩ := hf
  apply tells_frame (walkFrame cfg.redactProps.patterns (r.shadowOf cfg) true i f)
  by_cases happ : f.appCode = true
  · simp only [Bool.true_and, happ, if_true]
    cases hold : f.table with
    | some entries =>
      cases table with
      | none =>
        rw [hold] at htable
        cases htable
      | some entries' =>
        rw [hold] at htable
        have hsame := alike_table f.location htable
        simp only [captureFrameLocals, hold, hsame]
        apply (same_array same_local _).congr
        refine iff_of_true trivial fun _ _ _ hnone => ?_
        rw [hold] at hnone
        cases hnone
    | none =>
      cases table with
      | some entries =>
        rw [hold] at htable
        cases htable
      | none =>
        by_cases hshadow : (cfg.bci && r.ready) = true
        · have hleft : r.shadowOf cfg = some r.shadow.toJvmtiShadow := if_pos hshadow
          have hright : r'.shadowOf cfg = some r'.shadow.toJvmtiShadow := by
            rw [h.ready] at hshadow
            exact if_pos hshadow
          rw [hleft, hright, shadow_locals _ _ _ hold, shadow_locals _ _ _ rfl]
          apply (tells_rows _ _).congr
          rw [same_rowAt h.depth]
          rw [Bool.and_eq_true] at hshadow
          simp only [SameRow, hshadow.1, hshadow.2, happ, hold, true_imp_iff]
        · have hleft : r.shadowOf cfg = none := if_neg hshadow
          have hright : r'.shadowOf cfg = none := by
            rw [h.ready] at hshadow
            exact if_neg hshadow
          simp only [captureFrameLocals, hold, hleft, hright]
          apply (same_array same_local _).congr
          refine iff_of_true trivial fun hbci hready => ?_
          exact absurd (Bool.and_eq_true_iff.mpr ⟨hbci, hready⟩) hshadow
  · simp only [happ, Bool.and_false]
    apply (same_array same_local _).congr
    refine iff_of_true trivial fun _ _ hcode => ?_
    exact absurd hcode happ

theorem tells_walkFrom {cfg : AgentConfig} {named : ℕ → ℕ → Option Bytes} {r r' : Run}
    (h : Alike cfg.redactProps named r r') {fs fs' : List FrameInfo}
    (hfs : List.Forall₂ (AlikeFrame cfg.redactProps) fs fs') (i : ℕ) :
    TellsParts
      (fun w => (walkFrom cfg.redactProps.patterns (r.shadowOf cfg) true i fs).foldl (fun w f => writeFrame f w) w)
      (fun w => (walkFrom cfg.redactProps.patterns (r'.shadowOf cfg) true i fs').foldl (fun w f => writeFrame f w) w)
      (∀ j f, fs[j]? = some f → SameRow cfg r r' (i + j) f) := by
  induction hfs generalizing i with
  | nil =>
    apply tellsParts_nil.congr
    simp
  | cons hf _ ih =>
    apply ((tells_walkFrame h hf i).append (ih (i + 1))).congr
    constructor
    · rintro ⟨hfirst, hrest⟩ j f hj
      cases j with
      | zero =>
        cases hj
        exact hfirst
      | succ j =>
        rw [Nat.add_comm j 1, ← Nat.add_assoc]
        exact hrest j f hj
    · intro hall
      refine ⟨hall 0 _ rfl, fun j f hj => ?_⟩
      rw [Nat.add_assoc, Nat.add_comm 1 j]
      exact hall (j + 1) f hj

theorem same_location (k : String) (loc : Location Bytes) :
    TellsParts (writeLocation k loc) (writeLocation k loc) True := by
  unfold writeLocation
  by_cases hvalid : loc.valid = true
  · simp only [hvalid, if_true]
    have hfields := (((same_fieldString "className" (rfl : loc.className = _)).append
      (same_fieldString "methodName" (rfl : loc.methodName = _))).append (same_lineNumber loc.lineNumber)).append
      (same_fieldString "sourceFile" (rfl : loc.sourceFile = _))
    apply (hfields.object.field (Utf16.modifiedUtf8 k)).congr
    simp only [and_self]
  · simp only [hvalid]
    exact same_fieldNull k

theorem same_cause (c : CauseInfo Bytes) : TellsParts (writeCause c) (writeCause c) True := by
  have hfields := (same_fieldString "exceptionType" (rfl : c.exceptionType = _)).append
    (same_fieldString "exceptionMessage" (rfl : c.exceptionMessage = _))
  apply hfields.object.item.congr
  simp only [and_self]

theorem same_causes (k : String) (causes : List (CauseInfo Bytes)) :
    TellsParts (writeCauses k causes) (writeCauses k causes) True :=
  (same_array same_cause causes).field (Utf16.modifiedUtf8 k)

theorem same_metrics (m : JvmMetrics) : TellsParts (writeMetrics m) (writeMetrics m) True := by
  have hfields := ((((((same_fieldInt "heapUsedBytes" m.heapUsedBytes).append
    (same_fieldInt "heapMaxBytes" m.heapMaxBytes)).append
    (same_fieldInt "gcCollectionCount" m.gcCollectionCount)).append (same_fieldInt "gcTimeMs" m.gcTimeMs)).append
    (same_fieldInt "threadCount" m.threadCount)).append
    (same_fieldInt "loadedClassCount" m.loadedClassCount)).append (same_fieldInt "uptimeMs" m.uptimeMs)
  apply (hfields.object.field (Utf16.modifiedUtf8 "jvmMetrics")).congr
  simp only [and_self]

theorem same_thread (t : ThreadDetails Bytes) :
    Tells (fun w => (fieldBool "isDaemon" t.isDaemon (fieldInt "priority" t.priority
        (fieldString "name" t.name w.beginObject))).endObject)
      (fun w => (fieldBool "isDaemon" t.isDaemon (fieldInt "priority" t.priority
        (fieldString "name" t.name w.beginObject))).endObject) True := by
  have hfields := ((same_fieldString "name" (rfl : t.name = _)).append
    (same_fieldInt "priority" t.priority)).append (same_fieldBool "isDaemon" (rfl : t.isDaemon = _))
  apply hfields.object.congr
  simp only [and_self]

theorem event_stack_eq_iff (ev : CapturedEvent Bytes) {frames frames' : List (StackFrame Bytes)} {P : Prop}
    (h : Tells (fun w => (frames.foldl (fun w f => writeFrame f w) w.beginArray).endArray)
      (fun w => (frames'.foldl (fun w f => writeFrame f w) w.beginArray).endArray) P) :
    serializeEvent { ev with stack := frames } = serializeEvent { ev with stack := frames' } ↔ P := by
  have hmetrics : TellsParts
      (fun w => if ev.metricsValid then writeMetrics ev.metrics w else fieldNull "jvmMetrics" w)
      (fun w => if ev.metricsValid then writeMetrics ev.metrics w else fieldNull "jvmMetrics" w) True := by
    by_cases hvalid : ev.metricsValid = true
    · simp only [hvalid, if_true]
      exact same_metrics ev.metrics
    · simp only [hvalid]
      exact same_fieldNull "jvmMetrics"
  have hhead := (((((((((same_fieldString "timestamp" (rfl : ev.timestamp = _)).append
    (same_fieldString "fingerprint" (rfl : ev.fingerprint = _))).append
    (same_fieldString "captureMode" (rfl : Utf16.modifiedUtf8 (captureModeName ev.mode) = _))).append
    (same_fieldUint "hitCount" ev.hitCount)).append (same_fieldUint "occurrences" ev.wireOccurrences)).append
    (same_fieldString "deploymentId" (rfl : ev.deploymentId = _))).append
    (same_fieldString "environment" (rfl : ev.environment = _))).append
    (same_fieldString "instanceId" (rfl : ev.instanceId = _))).append
    (same_fieldString "exceptionType" (rfl : ev.exceptionType = _))).append
    (same_fieldString "exceptionMessage" (rfl : ev.exceptionMessage = _))
  have hfields := (((((((hhead.append (same_fieldBool "caught" (rfl : ev.caught = _))).append
    (same_location "location" ev.location)).append (same_location "caughtAt" ev.caughtAt)).append
    ((same_thread ev.thread).field (Utf16.modifiedUtf8 "threadInfo"))).append
    (same_causes "causeChain" ev.causeChain)).append (same_causes "suppressedExceptions" ev.suppressed)).append
    hmetrics).append (h.field (Utf16.modifiedUtf8 "stackTrace"))
  refine hfields.object.out_eq.trans ?_
  simp only [true_and]

theorem event_eq_iff {cfg : AgentConfig} {named : ℕ → ℕ → Option Bytes} {r r' : Run}
    (h : Alike cfg.redactProps named r r') (ev : CapturedEvent Bytes) :
    serializeEvent (fullEvent cfg ev r) = serializeEvent (fullEvent cfg ev r') ↔ SameRows cfg r r' := by
  have hstack := tells_walkFrom h (List.forall₂_take kMaxFrames h.stack) 0
  simp only [Nat.zero_add] at hstack
  exact event_stack_eq_iff { ev with mode := .FULL } hstack.array

theorem masked_texts_eq {cfg : AgentConfig} {named : ℕ → ℕ → Option Bytes} {r r' : Run}
    (h : Alike cfg.redactProps named r r') (ev : CapturedEvent Bytes)
    (harguments : ∀ name v, option name v ∈ r.system.inputArguments → ¬ Sensitive cfg.redactProps name)
    (hproperties : ∀ k ∈ unmasked, ¬ Sensitive cfg.redactProps (Utf16.modifiedUtf8 k))
    (hslots : ∀ d slot, ∀ name ∈ named d slot, ¬ Sensitive cfg.redactProps name) :
    buildAgentStartEvent cfg r.system = buildAgentStartEvent cfg r'.system ∧
      serializeEvent (fullEvent cfg ev r) = serializeEvent (fullEvent cfg ev r') := by
  rw [start_eq_iff h, event_eq_iff h, and_assoc]
  refine ⟨?_, fun k hk => ?_, fun i f _ _ _ _ _ d _ _ slot _ => ?_⟩
  · have hargs := h.arguments
    unfold SameArguments
    generalize r.system.inputArguments = args, r'.system.inputArguments = args' at hargs harguments
    induction hargs with
    | nil => exact .nil
    | cons ha _ ih =>
      refine .cons ?_ (ih fun name v hmem => harguments name v (List.mem_cons_of_mem _ hmem))
      rcases ha with rfl | ⟨name, v, v', hsensitive, rfl, -⟩
      · rfl
      · exact absurd hsensitive (harguments name v List.mem_cons_self)
  · rcases h.property k with heq | hsensitive
    · rw [SameText, getProperty, heq]
      rfl
    · exact absurd hsensitive (hproperties k hk)
  · rcases h.slots d slot with heq | ⟨name, hname, hsensitive⟩
    · rw [heq]
    · exact absurd hsensitive (hslots d slot name hname)

end JvmScout.Agent.MaskedTexts
