import JvmScout.Collector.IngestBatch

namespace JvmScout.Redaction

open Models Routes Storage Traverse

variable {py : Python}

def EnabledIdentifier (py : Python) (rs : List Dict) (fragment : String) : Prop :=
  ∃ r ∈ rs, readRule py r = .ok (.identifier fragment)

def EnabledPattern (py : Python) (rs : List Dict) (p : py.Pattern) : Prop :=
  ∃ r ∈ rs, readRule py r = .ok (.pattern p)

theorem compileRules_from {rs : List Dict} {start rules : CompiledRules py.Pattern}
    (h : rs.foldlM (fun rules r => (readRule py r).map rules.add) start = .ok rules) :
    (∀ fragment, fragment ∈ rules.identifiers ↔
        fragment ∈ start.identifiers ∨ EnabledIdentifier py rs fragment) ∧
      ∀ p, p ∈ rules.patterns ↔ p ∈ start.patterns ∨ EnabledPattern py rs p := by
  induction rs generalizing start with
  | nil =>
    simp only [List.foldlM_nil, pure_eq_ok] at h
    simp [h, EnabledIdentifier, EnabledPattern]
  | cons r rs ih =>
    simp only [List.foldlM_cons, bind_eq_ok, map_eq_ok] at h
    obtain ⟨_, ⟨effect, heffect, rfl⟩, h⟩ := h
    obtain ⟨hids, hpats⟩ := ih h
    constructor
    · intro fragment
      rw [hids fragment]
      cases effect <;> simp [CompiledRules.add, EnabledIdentifier, heffect, or_assoc, eq_comm]
    · intro p
      rw [hpats p]
      cases effect <;> simp [CompiledRules.add, EnabledPattern, heffect, or_assoc, eq_comm]

theorem compileRules_spec {rs : List Dict} {rules : CompiledRules py.Pattern}
    (h : compileRules py rs = .ok rules) :
    (∀ fragment, fragment ∈ rules.identifiers ↔ EnabledIdentifier py rs fragment) ∧
      ∀ p, p ∈ rules.patterns ↔ EnabledPattern py rs p := by
  simpa using compileRules_from h

theorem identifier_ne_empty {rs : List Dict} {fragment : String}
    (h : EnabledIdentifier py rs fragment) : fragment ≠ "" := by
  obtain ⟨r, -, hr⟩ := h
  unfold readRule at hr
  split at hr
  · obtain ⟨value, -, hr⟩ := bind_eq_ok.mp hr
    dsimp only at hr
    split at hr
    · cases hr
    · rename_i hvalue
      obtain ⟨kind, -, hr⟩ := bind_eq_ok.mp hr
      split at hr
      · cases hr
        exact py.lower_ne_empty _ hvalue
      · split at hr <;> cases hr
  · cases hr

def NameHit (py : Python) (rs : List Dict) (name : String) : Prop :=
  ∃ fragment, EnabledIdentifier py rs fragment ∧ Python.isIn fragment (py.lower name) = true

def ValueHit (py : Python) (rs : List Dict) (s : String) : Prop :=
  ∃ p, EnabledPattern py rs p ∧ py.search p s = true

def objects (j : Option Json) : List Dict :=
  match j with
  | some (.arr xs) => xs.filterMap dict
  | _ => []

def modelFrames (raw : Dict) : List Dict := objects (field raw "stackTrace" "stack_trace")

def modelLocals (frame : Dict) : List Dict :=
  objects (field frame "localVariables" "local_variables")

def LocalMasked (py : Python) (rs : List Dict) (lv : Dict) (parsed : LocalVariable) : Prop :=
  ∀ v, parsed.value = some v →
    ((∃ name, parsed.name = some name ∧ NameHit py rs name) ∨
      ∃ s, Dict.get? lv "value" = some (.str s) ∧ ValueHit py rs s) → v = redacted

def FrameMasked (py : Python) (rs : List Dict) (frame : Dict) (parsed : StackFrame) : Prop :=
  List.Forall₂ (LocalMasked py rs) (modelLocals frame) parsed.localVariables

structure Complete (py : Python) (rs : List Dict) (raw : Dict) (ev : ExceptionEvent) : Prop where
  message : ∀ m, ev.exceptionMessage = some m → m = redacted ∨ ¬ ValueHit py rs m
  locals : List.Forall₂ (FrameMasked py rs) (modelFrames raw) ev.stackTrace

def LocalClean (py : Python) (rs : List Dict) (lv : Dict) : Prop :=
  ∀ v, Dict.get? lv "value" = some (.str v) →
    ((∃ name, Dict.get? lv "name" = some (.str name) ∧ NameHit py rs name) ∨ ValueHit py rs v) →
      v = redacted

/-- Whatever the model reads under a snake_case spelling holds nothing to hide. -/
structure SnakeClean (py : Python) (rs : List Dict) (raw : Dict) : Prop where
  message : Dict.get? raw "exceptionMessage" = none →
    ∀ m, Dict.get? raw "exception_message" = some (.str m) → m = redacted ∨ ¬ ValueHit py rs m
  locals : ∀ frame ∈ modelFrames raw,
    Dict.get? raw "stackTrace" = none ∨ Dict.get? frame "localVariables" = none →
      ∀ lv ∈ modelLocals frame, LocalClean py rs lv

theorem matchesPattern_iff {rs : List Dict} {rules : CompiledRules py.Pattern}
    (h : compileRules py rs = .ok rules) (v : Json) :
    matchesPattern rules.patterns v = true ↔ ∃ s, v = .str s ∧ ValueHit py rs s := by
  cases v <;> simp [matchesPattern, ValueHit, (compileRules_spec h).2]

theorem localMasked_unredacted (rs : List Dict) {lv : Dict} {parsed : LocalVariable}
    (h : LocalVariable.validate py lv = some parsed) :
    LocalMasked py rs lv parsed ↔ LocalClean py rs lv := by
  obtain ⟨hname, hvalue⟩ := LocalVariable.validate_fields h
  simp only [LocalMasked, LocalClean, optional_text hname, optional_text hvalue]
  constructor
  · intro hm v hv hit
    exact hm v hv (hit.imp id fun hv' => ⟨v, hv, hv'⟩)
  · intro hc v hv hit
    refine hc v hv (hit.imp id ?_)
    rintro ⟨s, hs, hit⟩
    cases hv.symm.trans hs
    exact hit

theorem objects_of_validated {α : Type} {read : Dict → Option α} {j : Option Json} {ys : List α}
    (h : withDefault [] (list (model read)) j = some ys) : (objects j).mapM read = some ys := by
  cases j with
  | none => simpa [objects, withDefault] using h
  | some v =>
    cases v with
    | arr xs =>
      obtain ⟨ds, rfl, hds⟩ := mem_list_model h
      have hobj : (fun d : Dict => dict (.obj d)) = some := rfl
      simpa [objects, List.filterMap_map, Function.comp_def, hobj] using hds
    | _ => simp [withDefault, list] at h

theorem frameMasked_unredacted (rs : List Dict) {frame : Dict} {parsed : StackFrame}
    (h : StackFrame.validate py frame = some parsed) :
    FrameMasked py rs frame parsed ↔ ∀ lv ∈ modelLocals frame, LocalClean py rs lv :=
  forall₂_iff_of_link (option_mapM.mp (objects_of_validated (StackFrame.validate_locals h)))
    fun _ _ => localMasked_unredacted rs

theorem nameHit_iff {rs : List Dict} {rules : CompiledRules py.Pattern}
    (h : compileRules py rs = .ok rules) (name : String) :
    NameHit py rs name ↔ py.lower name ≠ "" ∧
      (rules.identifiers.any fun fragment => Python.isIn fragment (py.lower name)) = true := by
  simp only [NameHit, List.any_eq_true, (compileRules_spec h).1]
  constructor
  · rintro ⟨fragment, hf, hin⟩
    refine ⟨?_, fragment, hf, hin⟩
    intro hempty
    have hnil : fragment.toList = [] := by
      simpa [Python.isIn, hempty] using hin
    exact identifier_ne_empty hf (String.toList_eq_nil_iff.mp hnil)
  · rintro ⟨-, fragment, hf, hin⟩
    exact ⟨fragment, hf, hin⟩

theorem asText_orElse {v : Json} {s : String} (h : v = .str s) :
    Python.asText (v.orElse (.str "")) = .ok s := by
  subst h
  by_cases hs : s = "" <;> simp [Json.orElse, Json.truthy, hs, Python.asText]

theorem localMasked_redacted {rs : List Dict} {rules : CompiledRules py.Pattern}
    (hrules : compileRules py rs = .ok rules) {lv : Dict} {j : Json} {parsed : LocalVariable}
    (hr : redactLocal rules (.obj lv) = .ok j)
    (hv : model (LocalVariable.validate py) j = some parsed) : LocalMasked py rs lv parsed := by
  have masked (h : Json.obj (Dict.set lv "value" (.str redacted)) = j) :
      LocalMasked py rs lv parsed := by
    subst h
    obtain ⟨-, hvalue⟩ := LocalVariable.validate_fields hv
    intro v hp _
    have hset := (optional_text hvalue v).mp hp
    simp only [Assoc.get?_set_self, Option.some.injEq, Json.str.injEq] at hset
    exact hset.symm
  simp only [redactLocal] at hr
  split at hr
  · obtain ⟨name, hname, hr⟩ := bind_eq_ok.mp hr
    split at hr
    · exact masked (pure_eq_ok.mp hr)
    · rename_i hno
      split at hr
      · exact masked (pure_eq_ok.mp hr)
      · rename_i hnp
        cases pure_eq_ok.mp hr
        rw [localMasked_unredacted rs hv]
        rintro v hvalue (⟨n, hn, hit⟩ | hit)
        · -- the name the redactor tested is the one the model reads
          have hget : Dict.get lv "name" = .str n := by simp [Dict.get, hn]
          rw [asText_orElse hget, Except.ok.injEq] at hname
          rw [← hname] at hno
          exact absurd ((nameHit_iff hrules n).mp hit) hno
        · have hget : Dict.get lv "value" = .str v := by simp [Dict.get, hvalue]
          exact absurd ((matchesPattern_iff hrules _).mpr ⟨v, hget, hit⟩) hnp
  · rename_i hhas
    cases pure_eq_ok.mp hr
    rw [localMasked_unredacted rs hv]
    intro v hvalue _
    simp [Dict.has, hvalue] at hhas

theorem forall₂_objects {α : Type} {R : Json → α → Prop} {S : Dict → α → Prop} {xs : List Json}
    {ys : List α} (h : List.Forall₂ R xs ys) (hobj : ∀ x y, R x y → ∃ d, x = .obj d ∧ S d y) :
    List.Forall₂ S (objects (some (.arr xs))) ys := by
  induction h with
  | nil => exact .nil
  | cons hxy _ ih =>
    obtain ⟨d, rfl, hd⟩ := hobj _ _ hxy
    exact .cons hd ih

theorem field_of_camel {d : Dict} {camel snake : String} {v : Json}
    (h : Dict.get? d camel = some v) : field d camel snake = some v := by
  simp [field, h]

theorem model_eq_some {α : Type} {read : Dict → Option α} {j : Json} {a : α}
    (h : model read j = some a) : ∃ d, j = .obj d := by
  cases j <;> first | exact ⟨_, rfl⟩ | simp [model] at h

theorem redactLocal_obj {rules : CompiledRules py.Pattern} {x j : Json}
    (h : redactLocal rules x = .ok j) (hj : ∃ d, j = .obj d) : ∃ lv, x = .obj lv := by
  cases x with
  | obj lv => exact ⟨lv, rfl⟩
  | _ =>
    obtain ⟨d, rfl⟩ := hj
    simp [redactLocal, pure, Except.pure] at h

theorem redactFrame_obj {rules : CompiledRules py.Pattern} {x j : Json}
    (h : redactFrame rules x = .ok j) (hj : ∃ d, j = .obj d) : ∃ frame, x = .obj frame := by
  cases x with
  | obj frame => exact ⟨frame, rfl⟩
  | _ =>
    obtain ⟨d, rfl⟩ := hj
    simp [redactFrame, pure, Except.pure] at h

theorem list_eq_some {α : Type} {read : Json → Option α} {v : Json} {ys : List α}
    (h : withDefault [] (list read) (some v) = some ys) : ∃ xs, v = .arr xs ∧ xs.mapM read = some ys := by
  cases v <;> first | exact ⟨_, rfl, h⟩ | simp [withDefault, list] at h

theorem frameMasked_redacted {rs : List Dict} {rules : CompiledRules py.Pattern}
    (hrules : compileRules py rs = .ok rules) {frame : Dict} {j : Json} {parsed : StackFrame}
    (hr : redactFrame rules (.obj frame) = .ok j)
    (hv : model (StackFrame.validate py) j = some parsed) :
    FrameMasked py rs frame parsed ↔
      (Dict.get? frame "localVariables" = none → ∀ lv ∈ modelLocals frame, LocalClean py rs lv) := by
  unfold redactFrame at hr
  cases hl : Dict.get? frame "localVariables" with
  | none =>
    simp only [hl] at hr
    cases pure_eq_ok.mp hr
    simpa using frameMasked_unredacted rs hv
  | some v =>
    refine iff_of_true ?_ (by simp)
    cases v with
    | arr locals =>
      simp only [hl] at hr
      obtain ⟨locals', hlocals, hr⟩ := bind_eq_ok.mp hr
      cases pure_eq_ok.mp hr
      have hfield := StackFrame.validate_locals hv
      rw [field_of_camel (Assoc.get?_set_self _ _ _)] at hfield
      obtain ⟨_, harr, hparsed⟩ := list_eq_some hfield
      cases harr
      have hlink := forall₂_comp (except_mapM.mp hlocals) (option_mapM.mp hparsed)
      unfold FrameMasked modelLocals
      rw [field_of_camel hl]
      apply forall₂_objects hlink
      rintro x p ⟨y, hxy, hyp⟩
      obtain ⟨lv, rfl⟩ := redactLocal_obj hxy (model_eq_some hyp)
      exact ⟨lv, rfl, localMasked_redacted hrules hxy hyp⟩
    | _ =>
      simp only [hl] at hr
      cases pure_eq_ok.mp hr
      have hfield := StackFrame.validate_locals hv
      rw [field_of_camel hl] at hfield
      obtain ⟨_, harr, -⟩ := list_eq_some hfield
      cases harr

theorem redactMessage_get? (rules : CompiledRules py.Pattern) (raw : Dict) (key : String)
    (h : "exceptionMessage" ≠ key) : Dict.get? (redactMessage rules raw) key = Dict.get? raw key := by
  unfold redactMessage
  split
  · exact Assoc.get?_set_ne raw _ h
  · rfl

theorem redactStack_get? {rules : CompiledRules py.Pattern} {raw red : Dict} {key : String}
    (hr : redactStack rules raw = .ok red) (h : "stackTrace" ≠ key) :
    Dict.get? red key = Dict.get? raw key := by
  unfold redactStack at hr
  split at hr
  · obtain ⟨frames, -, hr⟩ := bind_eq_ok.mp hr
    cases pure_eq_ok.mp hr
    exact Assoc.get?_set_ne raw _ h
  · cases pure_eq_ok.mp hr
    rfl

theorem message_masked_iff {rs : List Dict} {rules : CompiledRules py.Pattern}
    (hrules : compileRules py rs = .ok rules) {raw red : Dict} {message : Option String}
    (hr : redactStack rules (redactMessage rules raw) = .ok red)
    (hv : optional text (field red "exceptionMessage" "exception_message") = some message) :
    (∀ m, message = some m → m = redacted ∨ ¬ ValueHit py rs m) ↔
      (Dict.get? raw "exceptionMessage" = none →
        ∀ m, Dict.get? raw "exception_message" = some (.str m) → m = redacted ∨ ¬ ValueHit py rs m) := by
  have hcamel : Dict.get? red "exceptionMessage" = Dict.get? (redactMessage rules raw) "exceptionMessage" :=
    redactStack_get? hr (by decide)
  have hsnake : Dict.get? red "exception_message" = Dict.get? raw "exception_message" :=
    (redactStack_get? hr (by decide)).trans (redactMessage_get? rules raw _ (by decide))
  simp only [optional_text hv, field, hcamel, hsnake]
  cases hm : Dict.get? raw "exceptionMessage" with
  | none =>
    have hget : Dict.get raw "exceptionMessage" = .null := by simp [Dict.get, hm]
    simp [redactMessage, hget, matchesPattern, hm]
  | some v =>
    have hget : Dict.get raw "exceptionMessage" = v := by simp [Dict.get, hm]
    refine iff_of_true ?_ (by simp)
    intro m hread
    by_cases hit : matchesPattern rules.patterns v = true
    · left
      simp only [redactMessage, hget, hit, if_true, Assoc.get?_set_self, Option.some_or,
        Option.some.injEq, Json.str.injEq] at hread
      exact hread.symm
    · right
      simp only [redactMessage, hget, hit, Bool.false_eq_true, if_false, hm, Option.some_or,
        Option.some.injEq] at hread
      exact fun hvalue => hit ((matchesPattern_iff hrules v).mpr ⟨m, by simpa using hread, hvalue⟩)

theorem locals_masked_iff {rs : List Dict} {rules : CompiledRules py.Pattern}
    (hrules : compileRules py rs = .ok rules) {raw red : Dict} {frames : List StackFrame}
    (hr : redactStack rules raw = .ok red)
    (hv : withDefault [] (list (model (StackFrame.validate py))) (field red "stackTrace" "stack_trace") =
      some frames) :
    List.Forall₂ (FrameMasked py rs) (modelFrames raw) frames ↔
      ∀ frame ∈ modelFrames raw,
        Dict.get? raw "stackTrace" = none ∨ Dict.get? frame "localVariables" = none →
          ∀ lv ∈ modelLocals frame, LocalClean py rs lv := by
  unfold redactStack at hr
  cases hs : Dict.get? raw "stackTrace" with
  | none =>
    simp only [hs] at hr
    cases pure_eq_ok.mp hr
    simp only [true_or, true_implies]
    exact forall₂_iff_of_link (option_mapM.mp (objects_of_validated hv))
      fun _ _ => frameMasked_unredacted rs
  | some v =>
    cases v with
    | arr stack =>
      simp only [hs] at hr
      obtain ⟨stack', hstack, hr⟩ := bind_eq_ok.mp hr
      cases pure_eq_ok.mp hr
      rw [field_of_camel (Assoc.get?_set_self _ _ _)] at hv
      obtain ⟨_, harr, hparsed⟩ := list_eq_some hv
      cases harr
      have hlink := forall₂_comp (except_mapM.mp hstack) (option_mapM.mp hparsed)
      have hframes : List.Forall₂ (fun frame p => ∃ y, redactFrame rules (.obj frame) = .ok y ∧
          model (StackFrame.validate py) y = some p) (modelFrames raw) frames := by
        unfold modelFrames
        rw [field_of_camel hs]
        apply forall₂_objects hlink
        rintro x p ⟨y, hxy, hyp⟩
        obtain ⟨frame, rfl⟩ := redactFrame_obj hxy (model_eq_some hyp)
        exact ⟨frame, rfl, y, hxy, hyp⟩
      simp only [reduceCtorEq, false_or]
      apply forall₂_iff_of_link hframes
      rintro frame p ⟨y, hxy, hyp⟩
      exact frameMasked_redacted hrules hxy hyp
    | _ =>
      simp only [hs] at hr
      cases pure_eq_ok.mp hr
      rw [field_of_camel hs] at hv
      obtain ⟨_, harr, -⟩ := list_eq_some hv
      cases harr

theorem complete_of_inactive {rs : List Dict} {rules : CompiledRules py.Pattern}
    (hrules : compileRules py rs = .ok rules) (hi : rules.active = false) :
    (∀ name, ¬ NameHit py rs name) ∧ ∀ s, ¬ ValueHit py rs s := by
  simp only [CompiledRules.active, Bool.or_eq_false_iff, Bool.not_eq_false', List.isEmpty_iff] at hi
  constructor
  · rintro name ⟨fragment, hf, -⟩
    simpa [hi.1] using ((compileRules_spec hrules).1 fragment).mpr hf
  · rintro s ⟨p, hp, -⟩
    simpa [hi.2] using ((compileRules_spec hrules).2 p).mpr hp

theorem redaction_complete_iff {rs : List Dict} {rules : CompiledRules py.Pattern}
    (hrules : compileRules py rs = .ok rules) {raw red : Dict} {ev : ExceptionEvent}
    (hr : redactEvent rules raw = .ok red) (hv : ExceptionEvent.validate py red = some ev) :
    Complete py rs raw ev ↔ SnakeClean py rs raw := by
  obtain ⟨hmessage, hstack, -⟩ := ExceptionEvent.validate_fields hv
  unfold redactEvent at hr
  split at hr
  · have hframes : modelFrames raw = modelFrames (redactMessage rules raw) := by
      simp only [modelFrames, field, redactMessage_get? rules raw "stackTrace" (by decide),
        redactMessage_get? rules raw "stack_trace" (by decide)]
    have hlocals := locals_masked_iff hrules hr hstack
    rw [← hframes, redactMessage_get? rules raw _ (by decide)] at hlocals
    have hmsg := message_masked_iff hrules hr hmessage
    exact ⟨fun h => ⟨hmsg.mp h.message, hlocals.mp h.locals⟩,
      fun h => ⟨hmsg.mpr h.message, hlocals.mpr h.locals⟩⟩
  · rename_i hi
    cases pure_eq_ok.mp hr
    obtain ⟨hname, hvalue⟩ := complete_of_inactive hrules (by simpa using hi)
    have hclean (lv : Dict) : LocalClean py rs lv := by
      rintro v - (⟨n, -, hit⟩ | hit)
      · exact absurd hit (hname n)
      · exact absurd hit (hvalue v)
    refine iff_of_true ⟨fun m _ => .inr (hvalue m), ?_⟩
      ⟨fun _ m _ => .inr (hvalue m), fun _ _ _ lv _ => hclean lv⟩
    refine (forall₂_iff_of_link (option_mapM.mp (objects_of_validated hstack))
      fun _ _ => frameMasked_unredacted rs).mpr ?_
    exact fun _ _ lv _ => hclean lv

def DocumentComplete (py : Python) (rs : List Dict) (raw d : Dict) : Prop :=
  ∀ ev, ExceptionEvent.validate py d = some ev → Complete py rs raw ev

structure CompleteAsIngested (py : Python) (rs : List Dict) (raw : Dict) (ev : ExceptionEvent)
    (row : Option ExceptionRow) (message : Option Broadcast) : Prop where
  parsed : Complete py rs raw ev
  column : ∀ r, row = some r → ∀ m, r.exceptionMessage = some m → m = redacted ∨ ¬ ValueHit py rs m
  stored : ∀ r, row = some r → DocumentComplete py rs raw r.rawJson
  broadcast : ∀ b, message = some b → DocumentComplete py rs raw b.event

section Ingested

variable {ing : Ingestion py} {items : List Json} {i : ℕ} {raw red : Dict} {ev : ExceptionEvent}

theorem rowFor_reads (hi : items[i]? = some (.obj raw))
    (hread : readItem ing.rules (.obj raw) = .ok (.exception ev red)) (db : Db) :
    (ing.faults.batch = none → AllFit ing items →
        rowFor ing items db i = some (exceptionRow ing.now ev red ing.projectId)) ∧
      ∀ r, rowFor ing items db i = some r → r = exceptionRow ing.now ev red ing.projectId := by
  have committed (hf : ing.faults.batch = none) (hall : AllFit ing items) :
      rowFor ing items db i = some (exceptionRow ing.now ev red ing.projectId) :=
    rowFor_committed hf hall hi (rowOf_eq_some.mpr ⟨ev, red, hread, rfl⟩)
  refine ⟨committed, fun r hr => ?_⟩
  by_cases hstored : ing.faults.batch = none ∧ AllFit ing items
  · rw [committed hstored.1 hstored.2] at hr
    exact (Option.some.inj hr).symm
  · rw [rowFor_eq_none hstored] at hr
    cases hr

theorem messageFor_reads (hi : items[i]? = some (.obj raw))
    (hread : readItem ing.rules (.obj raw) = .ok (.exception ev red)) (db : Db) {b : Broadcast}
    (hb : messageFor ing items db i = some b) : b.event = red := by
  obtain ⟨hcommitted, hlost⟩ := messageFor_eq hi hread db
  by_cases hstored : ing.faults.batch = none ∧ AllFit ing items
  · obtain ⟨rowId, hmessage⟩ := hcommitted hstored.1 hstored.2
    rw [hmessage] at hb
    cases hb
    rfl
  · rw [hlost hstored] at hb
    cases hb

/-- What a batch stores and broadcasts of an event hides all it should exactly when the
spellings the redactor does not know hold nothing to hide. -/
theorem ingested_complete_iff {rs : List Dict} (hrules : compileRules py rs = .ok ing.rules)
    (hi : items[i]? = some (.obj raw)) (hread : readItem ing.rules (.obj raw) = .ok (.exception ev red)) (db : Db) :
    (CompleteAsIngested py rs raw ev (rowFor ing items db i) (messageFor ing items db i) ↔ SnakeClean py rs raw) ∧
      (ing.faults.batch = none → AllFit ing items → ∃ row message, rowFor ing items db i = some row ∧
        messageFor ing items db i = some message ∧
        (DocumentComplete py rs raw row.rawJson ↔ SnakeClean py rs raw) ∧
        (DocumentComplete py rs raw message.event ↔ SnakeClean py rs raw)) := by
  obtain ⟨raw', hobj, -, -, hr, hv⟩ := readItem_exception hread
  cases hobj
  have hiff := redaction_complete_iff hrules hr hv
  have document : DocumentComplete py rs raw red ↔ SnakeClean py rs raw := by
    rw [← hiff]
    constructor
    · exact fun h => h ev hv
    · intro h ev' hv'
      cases hv.symm.trans hv'
      exact h
  obtain ⟨hcommitted, hrow⟩ := rowFor_reads hi hread db
  constructor
  · constructor
    · exact fun h => hiff.mp h.parsed
    · intro h
      refine ⟨hiff.mpr h, fun r hr m hm => ?_, fun r hr => ?_, fun b hb => ?_⟩
      · rw [hrow r hr] at hm
        exact (hiff.mpr h).message m hm
      · rw [hrow r hr]
        exact document.mpr h
      · rw [messageFor_reads hi hread db hb]
        exact document.mpr h
  · intro hf hall
    obtain ⟨rowId, hmessage⟩ := (messageFor_eq hi hread db).1 hf hall
    exact ⟨_, _, hcommitted hf hall, hmessage, document, document⟩

end Ingested

def secretRule : List Dict :=
  [[("kind", .str "pattern"), ("value", .str "secret"), ("enabled", .bool true)]]

def secretIngestion : Ingestion Python.literal := ⟨⟨[], ["secret"]⟩, Backend.sqlite, 0, some "acme", .none⟩

theorem snake_case_message_escapes :
    ∃ ev red row message, compileRules Python.literal secretRule = .ok secretIngestion.rules ∧
      readItem secretIngestion.rules (.obj [("exception_message", .str "secret")]) = .ok (.exception ev red) ∧
      rowFor secretIngestion [.obj [("exception_message", .str "secret")]] Db.empty 0 = some row ∧
      messageFor secretIngestion [.obj [("exception_message", .str "secret")]] Db.empty 0 = some message ∧
      row.exceptionMessage = some "secret" ∧ message.event = [("exception_message", .str "secret")] ∧
      ¬ Complete Python.literal secretRule [("exception_message", .str "secret")] ev := by
  refine ⟨_, _, _, _, rfl, rfl, rfl, rfl, rfl, rfl, fun h => ?_⟩
  rcases h.message "secret" rfl with heq | hno
  · exact absurd heq (by decide)
  · exact hno ⟨"secret", ⟨_, List.mem_singleton_self _, rfl⟩, by decide⟩

theorem camel_case_message_complete_iff :
    ∃ ev red, readItem secretIngestion.rules (.obj [("exceptionMessage", .str "secret")]) = .ok (.exception ev red) ∧
      (CompleteAsIngested Python.literal secretRule [("exceptionMessage", .str "secret")] ev
          (rowFor secretIngestion [.obj [("exceptionMessage", .str "secret")]] Db.empty 0)
          (messageFor secretIngestion [.obj [("exceptionMessage", .str "secret")]] Db.empty 0) ↔
        SnakeClean Python.literal secretRule [("exceptionMessage", .str "secret")]) := by
  have hrules : compileRules Python.literal secretRule = .ok secretIngestion.rules := rfl
  exact ⟨_, _, rfl, (ingested_complete_iff hrules rfl rfl Db.empty).1⟩

end JvmScout.Redaction
