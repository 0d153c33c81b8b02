import JvmScout.Collector.Queries
import JvmScout.Lib.Traverse

namespace JvmScout.Routes

open Storage Security Relational Traverse

def elements : Json → List Json
  | .arr xs => xs
  | _ => []

def framesOf (ev : Dict) : List Json :=
  elements (if (Dict.get ev "stackTrace").truthy then Dict.get ev "stackTrace" else Dict.get ev "stack_trace")

def askedClass : Json → Option String
  | .obj f =>
    let cls := firstOf f "className" "class_name" (.str "")
    if !(firstOf f "isAppCode" "is_app_code" .null).truthy || (Dict.get f "sourceSnippet").truthy ||
      !cls.truthy then none
    else (Python.asText cls).toOption.map (Python.replaceChar '.' '/')
  | _ => none

def Decompiler.decompiles (decompiler : Decompiler) (className bytecodeB64 : String) : Bool :=
  decompiler.available && bytecodeB64 ≠ "" && ((decompiler.decompileClass className bytecodeB64).filter (· ≠ "")).isSome

def snippetBytecode (decompiler : Decompiler) (projectId : Option String) (db : Db) (frame : Json) :
    Option (String × String) :=
  (askedClass frame).bind fun c =>
    ((getSourceClass c projectId db).filter (decompiler.decompiles c)).map fun b => (c, b)

inductive Shown (py : Python) (decompiler : Decompiler) : Option (String × String) → Json → Json → Prop
  | unchanged (frame : Json) : Shown py decompiler none frame frame
  | attached (f : Dict) (c b src snippet : String) (line : ℤ) (hsource : decompiler.decompileClass c b = some src)
      (hline : py.toInt (firstOf f "lineNumber" "line_number" (.int 0)) = .ok line)
      (hsnippet : decompiler.buildSnippet src (firstOf f "methodName" "method_name" (.str "")) line = .ok snippet) :
      Shown py decompiler (some (c, b)) (.obj f) (.obj (Dict.set f "sourceSnippet" (.str snippet)))

section Frames

variable {py : Python} {decompiler : Decompiler} {projectId : Option String} {db : Db}

theorem filter_decompiles (c : String) (found : Option String) (havailable : decompiler.available = true) :
    found.filter (decompiler.decompiles c) =
      (found.filter (· ≠ "")).filter fun b => ((decompiler.decompileClass c b).filter (· ≠ "")).isSome := by
  cases found with
  | none => rfl
  | some b => by_cases hb : b = "" <;> simp [Option.filter, Decompiler.decompiles, havailable, hb]

theorem attachFrame_shown (havailable : decompiler.available = true) {frame frame' : Json}
    (h : attachFrame py decompiler projectId db frame = .ok frame') :
    Shown py decompiler (snippetBytecode decompiler projectId db frame) frame frame' := by
  cases frame with
  | obj f =>
    rw [attachFrame] at h
    rw [snippetBytecode, askedClass]
    dsimp only at h ⊢
    split at h
    · rename_i hskip
      rw [if_pos hskip, Option.bind_none]
      cases h
      exact .unchanged _
    · rename_i hasks
      rw [if_neg hasks]
      obtain ⟨cls, hcls, h⟩ := bind_eq_ok.mp h
      rw [hcls, Except.toOption, Option.map_some, Option.bind_some, filter_decompiles _ _ havailable]
      generalize Python.replaceChar '.' '/' cls = c at h ⊢
      cases hfound : (getSourceClass c projectId db).filter (· ≠ "") with
      | none =>
        rw [hfound] at h
        cases h
        exact .unchanged _
      | some b =>
        rw [hfound] at h
        dsimp only at h
        rw [Option.filter_some]
        cases hsource : (decompiler.decompileClass c b).filter (· ≠ "") with
        | none =>
          rw [hsource] at h
          cases h
          exact .unchanged _
        | some src =>
          rw [hsource] at h
          obtain ⟨line, hline, h⟩ := bind_eq_ok.mp h
          obtain ⟨snippet, hsnippet, h⟩ := bind_eq_ok.mp h
          cases h
          exact .attached f c b src snippet line (Option.filter_eq_some_iff.mp hsource).1 hline hsnippet
  | _ =>
    cases h
    exact .unchanged _

theorem attachFrames_shown (havailable : decompiler.available = true) {v v' : Json}
    (h : attachFrames py decompiler projectId db v = .ok v') :
    List.Forall₂ (fun frame frame' => Shown py decompiler (snippetBytecode decompiler projectId db frame) frame frame')
        (elements v) (elements v') ∧ v'.truthy = v.truthy := by
  cases v with
  | arr frames =>
    rw [attachFrames, map_eq_ok] at h
    obtain ⟨frames', hframes, rfl⟩ := h
    have hshown := (except_mapM.mp hframes).imp fun frame frame' hframe => attachFrame_shown havailable hframe
    refine ⟨hshown, ?_⟩
    cases hshown <;> rfl
  | str s =>
    cases h
    exact ⟨.nil, rfl⟩
  | obj d =>
    cases h
    exact ⟨.nil, rfl⟩
  | _ => cases h

theorem snippetBytecode_unavailable (hunavailable : decompiler.available = false) (frame : Json) :
    snippetBytecode decompiler projectId db frame = none := by
  have hnone (c : String) (found : Option String) : found.filter (decompiler.decompiles c) = none := by
    cases found with
    | none => rfl
    | some b => simp [Option.filter, Decompiler.decompiles, hunavailable]
  rw [snippetBytecode]
  cases askedClass frame with
  | none => rfl
  | some c => rw [Option.bind_some, hnone, Option.map_none]

theorem attachSource_shown {ev ev' : Dict} (h : attachSource py decompiler projectId db ev = .ok ev') :
    List.Forall₂ (fun frame frame' => Shown py decompiler (snippetBytecode decompiler projectId db frame) frame frame')
      (framesOf ev) (framesOf ev') := by
  rw [attachSource] at h
  split at h
  · rename_i hunavailable
    cases h
    rw [List.forall₂_same]
    intro frame _
    rw [snippetBytecode_unavailable (by simpa using hunavailable)]
    exact .unchanged frame
  rename_i havailable
  rw [Bool.not_eq_true, Bool.not_eq_false'] at havailable
  dsimp only at h
  split at h
  · rename_i htrace
    obtain ⟨v, hv, rfl⟩ := map_eq_ok.mp h
    obtain ⟨hshown, htruthy⟩ := attachFrames_shown havailable hv
    rw [framesOf, framesOf, Dict.get_set_self, htruthy, if_pos htrace, if_pos htrace]
    exact hshown
  rename_i htrace
  split at h
  · obtain ⟨v, hv, rfl⟩ := map_eq_ok.mp h
    obtain ⟨hshown, -⟩ := attachFrames_shown havailable hv
    have hne : "stack_trace" ≠ "stackTrace" := by decide
    rw [framesOf, framesOf, Dict.get_set_ne _ _ hne, if_neg htrace, if_neg htrace, Dict.get_set_self]
    exact hshown
  · rename_i hsnake
    cases h
    have hempty : elements (Dict.get ev "stack_trace") = [] := by
      cases hv : Dict.get ev "stack_trace" with
      | arr frames =>
        rw [hv] at hsnake
        cases frames with
        | nil => rfl
        | cons frame frames => exact absurd rfl hsnake
      | _ => rfl
    rw [framesOf, if_neg htrace, hempty]
    exact .nil

end Frames

def Uploaded (db : Db) (projectId : Option String) (className bytecodeB64 : String) : Prop :=
  ∃ r ∈ db.sourceClasses.rows, r.2.projectId = projectId ∧ r.2.className = className ∧ r.2.bytecodeB64 = bytecodeB64

def OwnSnippets (decompiler : Decompiler) (db : Db) (scope : Option String) (row : ExceptionRow) : Prop :=
  ∀ frame ∈ framesOf row.rawJson, ∀ c b, snippetBytecode decompiler scope db frame = some (c, b) →
    Uploaded db row.projectId c b

def firstUpload (db : Db) (className : String) : Option SourceClassRow :=
  (db.sourceClasses.rows.find? fun r => r.2.className = className).map Prod.snd

def FirstUploadsOwn (decompiler : Decompiler) (db : Db) (row : ExceptionRow) : Prop :=
  ∀ frame ∈ framesOf row.rawJson, ∀ c, askedClass frame = some c → ∀ r, firstUpload db c = some r →
    decompiler.decompiles c r.bytecodeB64 = true → Uploaded db row.projectId c r.bytecodeB64

section Tenancy

variable {py : Python} {decompiler : Decompiler} {who : Principal} {db : Db} {excId : ℕ} {row : ExceptionRow}

theorem snippetBytecode_iff {scope : Option String} {frame : Json} {c b : String} :
    snippetBytecode decompiler scope db frame = some (c, b) ↔
      askedClass frame = some c ∧ getSourceClass c scope db = some b ∧ decompiler.decompiles c b = true := by
  rw [snippetBytecode, Option.bind_eq_some_iff]
  constructor
  · rintro ⟨c', hasked, h⟩
    obtain ⟨b', hb, heq⟩ := Option.map_eq_some_iff.mp h
    cases heq
    exact ⟨hasked, Option.filter_eq_some_iff.mp hb⟩
  · rintro ⟨hasked, hb⟩
    exact ⟨c, hasked, Option.map_eq_some_iff.mpr ⟨b, Option.filter_eq_some_iff.mpr hb, rfl⟩⟩

theorem getSourceClass_uploaded {c p b : String} (h : getSourceClass c (some p) db = some b) :
    Uploaded db (some p) c b := by
  obtain ⟨r, hr, hb⟩ := Option.map_eq_some_iff.mp h
  obtain ⟨hmem, hclause⟩ := List.mem_filter.mp (List.mem_of_head? hr)
  rw [classClause, Bool.and_eq_true] at hclause
  refine ⟨r, hmem, ?_, eq_of_beq hclause.1, hb⟩
  simpa [applyProject, owned] using hclause.2

theorem getSourceClass_master (c : String) :
    getSourceClass c none db = (firstUpload db c).map SourceClassRow.bytecodeB64 := by
  have hclause : (fun r : ℕ × SourceClassRow => classClause c none r.2) = fun r => decide (r.2.className = c) := by
    funext r
    rw [classClause, applyProject, Option.isNone_none, Bool.true_or, Bool.and_true, Bool.eq_iff_iff]
    simp
  rw [getSourceClass, Table.select, List.head?_filter, hclause, firstUpload, Option.map_map]
  rfl

theorem getException_readable {ev : Dict} {scope : Option String} (hrow : db.exceptions.lookup excId = some row)
    (h : getException excId scope db = some ev) : ev = row.rawJson ∧ (scope = none ∨ row.projectId = scope) := by
  rw [getException, hrow] at h
  dsimp only at h
  split at h
  · cases h
  · rename_i hscope
    cases h
    refine ⟨rfl, ?_⟩
    by_cases hnone : scope = none
    · exact .inl hnone
    · refine .inr ?_
      by_contra hproject
      exact hscope ⟨hnone, hproject⟩

theorem getExceptionDetail_ok {response : Json} (h : getExceptionDetail py decompiler who db excId = .ok response) :
    ∃ ev ev', getException excId who.scope db = some ev ∧ attachSource py decompiler who.scope db ev = .ok ev' ∧
      response = .obj ev' := by
  have hpos : ¬ (excId : ℤ) < 0 := by omega
  rw [getExceptionDetail, if_neg hpos, Int.toNat_natCast] at h
  obtain ⟨ev, hev, h⟩ := bind_eq_ok.mp h
  obtain ⟨ev', hev', h⟩ := bind_eq_ok.mp h
  rw [pure_eq_ok] at h
  refine ⟨ev, ev', ?_, ?_, h.symm⟩
  · cases hget : getException excId who.scope db with
    | none =>
      rw [hget] at hev
      cases hev
    | some _ =>
      rw [hget] at hev
      cases hev
      rfl
  · cases hsource : attachSource py decompiler who.scope db ev with
    | error e =>
      rw [hsource] at hev'
      cases hev'
    | ok _ =>
      rw [hsource] at hev'
      cases hev'
      rfl

/-- A reader with a scope gets source of the event's own project. For a reader without one that is
so exactly when the first uploads of the classes shown are also the event's project's. -/
theorem own_snippets_iff (hrow : db.exceptions.lookup excId = some row) {response : Json}
    (hresponse : getExceptionDetail py decompiler who db excId = .ok response) :
    (∃ ev', response = .obj ev' ∧
      List.Forall₂
        (fun frame frame' => Shown py decompiler (snippetBytecode decompiler who.scope db frame) frame frame')
        (framesOf row.rawJson) (framesOf ev')) ∧
      (OwnSnippets decompiler db who.scope row ↔ (who.scope = none → FirstUploadsOwn decompiler db row)) := by
  obtain ⟨ev, ev', hread, hattach, hanswer⟩ := getExceptionDetail_ok hresponse
  obtain ⟨rfl, hscope⟩ := getException_readable hrow hread
  refine ⟨⟨ev', hanswer, attachSource_shown hattach⟩, ?_⟩
  constructor
  · intro hown hmaster frame hframe c hasked r hfirst hdecompiles
    apply hown frame hframe
    rw [snippetBytecode_iff, hmaster, getSourceClass_master, hfirst]
    exact ⟨hasked, rfl, hdecompiles⟩
  · intro hmaster frame hframe c b hbytecode
    obtain ⟨hasked, hb, hdecompiles⟩ := snippetBytecode_iff.mp hbytecode
    cases hwho : who.scope with
    | none =>
      rw [hwho, getSourceClass_master] at hb
      obtain ⟨r, hfirst, rfl⟩ := Option.map_eq_some_iff.mp hb
      exact hmaster hwho frame hframe c hasked r hfirst hdecompiles
    | some p =>
      rw [hwho] at hb hscope
      rw [hscope.resolve_left (Option.some_ne_none p)]
      exact getSourceClass_uploaded hb

end Tenancy

def equallyNamed : Db :=
  { Db.empty with
    exceptions := Table.empty.insert
      { countedRow 5 "f1" 1 none (some "globex") with
        rawJson := [("stackTrace", .arr [.obj [("className", .str "com.A"), ("isAppCode", .bool true)]])] }
    sourceClasses := (Table.empty.insert ⟨some "acme", "com/A", 1, "eA=="⟩).insert ⟨some "globex", "com/A", 2, "eQ=="⟩ }

def printing : Decompiler := ⟨true, fun _ b => some b, fun src _ _ => .ok src⟩

def masterKey : Principal := ⟨none, defaultRole, true, .str "master"⟩

def globexViewer : Principal := ⟨some "globex", .viewer, false, .str "stk_g"⟩

def shownFrame (snippet : String) : Json :=
  .obj [("className", .str "com.A"), ("isAppCode", .bool true), ("sourceSnippet", .str snippet)]

theorem own_snippets_iff_viewer :
    ∃ row, equallyNamed.exceptions.lookup 1 = some row ∧
      OwnSnippets printing equallyNamed globexViewer.scope row := by
  refine ⟨_, rfl, ?_⟩
  have hresponse : getExceptionDetail Python.literal printing globexViewer equallyNamed 1 =
      .ok (.obj [("stackTrace", .arr [shownFrame "eQ=="])]) := rfl
  apply (own_snippets_iff rfl hresponse).2.mpr
  intro hnone
  cases hnone

theorem own_snippets_master :
    ¬ ∀ (py : Python) (decompiler : Decompiler) (who : Principal) (db : Db) (excId : ℕ) (row : ExceptionRow)
      (response : Json), db.exceptions.lookup excId = some row →
      getExceptionDetail py decompiler who db excId = .ok response → OwnSnippets decompiler db who.scope row := by
  intro h
  have hresponse : getExceptionDetail Python.literal printing masterKey equallyNamed 1 =
      .ok (.obj [("stackTrace", .arr [shownFrame "eA=="])]) := rfl
  have hown := h _ _ _ _ 1 _ _ rfl hresponse
  obtain ⟨r, hr, hproject, -, hbytecode⟩ := hown _ List.mem_cons_self "com/A" "eA==" (by decide)
  have hrows : ∀ r ∈ equallyNamed.sourceClasses.rows, r.2.projectId = some "globex" → r.2.bytecodeB64 ≠ "eA==" := by
    decide
  exact hrows r hr hproject hbytecode

end JvmScout.Routes
