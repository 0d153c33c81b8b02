import JvmScout.Collector.RedactionComplete
import JvmScout.Lib.AssocKeys

namespace JvmScout.Redaction

open Traverse

variable {py : Python}

def CompiledRules.union {π : Type} (a b : CompiledRules π) : CompiledRules π :=
  ⟨a.identifiers ++ b.identifiers, a.patterns ++ b.patterns⟩

structure CompiledRules.Same {π : Type} (a b : CompiledRules π) : Prop where
  identifiers : ∀ fragment, fragment ∈ a.identifiers ↔ fragment ∈ b.identifiers
  patterns : ∀ p, p ∈ a.patterns ↔ p ∈ b.patterns

def masks (rules : CompiledRules py.Pattern) (name : String) (value : Json) : Bool :=
  decide (py.lower name ≠ "") && rules.identifiers.any (fun fragment => Python.isIn fragment (py.lower name)) ||
    matchesPattern rules.patterns value

variable (a b : CompiledRules py.Pattern)

theorem matchesPattern_append (ps qs : List py.Pattern) (v : Json) :
    matchesPattern (ps ++ qs) v = (matchesPattern ps v || matchesPattern qs v) := by
  cases v <;> simp [matchesPattern]

theorem masks_union (name : String) (v : Json) : masks (a.union b) name v = (masks a name v || masks b name v) := by
  simp only [masks, CompiledRules.union, List.any_append, matchesPattern_append, Bool.and_or_distrib_left]
  ac_rfl

theorem redactLocal_eq (rules : CompiledRules py.Pattern) (lv : Dict) :
    redactLocal rules (.obj lv) =
      if Dict.has lv "value" then
        (Python.asText ((Dict.get lv "name").orElse (.str ""))).map fun name =>
          .obj (if masks rules name (Dict.get lv "value") then Dict.set lv "value" (.str redacted) else lv)
      else .ok (.obj lv) := by
  simp only [redactLocal, masks]
  by_cases hhas : Dict.has lv "value" = true
  · simp only [hhas, if_true]
    cases Python.asText ((Dict.get lv "name").orElse (.str "")) with
    | error e => rfl
    | ok name =>
      by_cases hname : py.lower name ≠ "" ∧
          (rules.identifiers.any fun fragment => Python.isIn fragment (py.lower name)) = true
      · simp [bind, Except.bind, pure, Except.pure, Except.map, hname]
      · by_cases hpattern : matchesPattern rules.patterns (Dict.get lv "value") = true
        · simp [bind, Except.bind, pure, Except.pure, Except.map, hpattern]
        · simp only [bind, Except.bind, pure, Except.pure, Except.map, hname, hpattern, if_false,
            Bool.or_eq_true, Bool.and_eq_true, decide_eq_true_eq, Bool.false_eq_true, or_self]
  · simp only [hhas]
    rfl

theorem redactLocal_fuses : Fuses (redactLocal a) (redactLocal b) (redactLocal (a.union b)) where
  ok v w hw := by
    cases v with
    | obj lv =>
      rw [redactLocal_eq] at hw ⊢
      by_cases hhas : Dict.has lv "value" = true
      · rw [if_pos hhas] at hw ⊢
        obtain ⟨name, hname, rfl⟩ := map_eq_ok.mp hw
        rw [hname]
        refine ⟨_, ?_, rfl⟩
        rw [redactLocal_eq]
        simp only [masks_union]
        by_cases hmasks : masks a name (Dict.get lv "value") = true
        · have hkeep : Dict.get (Dict.set lv "value" (.str redacted)) "name" = Dict.get lv "name" :=
            Dict.get_set_ne lv _ (by decide)
          have hhas' : Dict.has (Dict.set lv "value" (.str redacted)) "value" = true := by
            simp [Dict.has]
          simp only [hmasks, if_true, hhas', hkeep, hname, Bool.true_or, Except.map, Assoc.set_set, ite_self]
        · simp only [hmasks, Bool.false_eq_true, if_false, hhas, if_true, hname, Bool.false_or, Except.map]
      · rw [if_neg hhas] at hw ⊢
        cases hw
        refine ⟨_, ?_, rfl⟩
        rw [redactLocal_eq, if_neg hhas]
    | _ =>
      cases hw
      exact ⟨_, rfl, rfl⟩
  error v e he := by
    cases v with
    | obj lv =>
      rw [redactLocal_eq] at he ⊢
      by_cases hhas : Dict.has lv "value" = true
      · rw [if_pos hhas] at he ⊢
        cases hname : Python.asText ((Dict.get lv "name").orElse (.str "")) with
        | ok name =>
          rw [hname] at he
          cases he
        | error e' =>
          rw [hname] at he
          exact he
      · rw [if_neg hhas] at he
        cases he
    | _ => cases he

def mapArray (key : String) (f : Json → Except PyError Json) (d : Dict) : Except PyError Dict :=
  match Dict.get? d key with
  | some (.arr xs) => (xs.mapM f).map fun ys => Dict.set d key (.arr ys)
  | _ => .ok d

theorem mapArray_arr {key : String} {d : Dict} {xs : List Json} (h : Dict.get? d key = some (.arr xs))
    (f : Json → Except PyError Json) :
    mapArray key f d = (xs.mapM f).map fun ys => Dict.set d key (.arr ys) := by
  rw [mapArray, h]

theorem mapArray_other {key : String} {d : Dict} (h : ¬ ∃ xs, Dict.get? d key = some (.arr xs))
    (f : Json → Except PyError Json) : mapArray key f d = .ok d := by
  unfold mapArray
  split
  · rename_i xs hget
    exact absurd ⟨xs, hget⟩ h
  · rfl

theorem mapArray_fuses (key : String) {f g h : Json → Except PyError Json} (hf : Fuses f g h) :
    Fuses (mapArray key f) (mapArray key g) (mapArray key h) where
  ok d d' hd := by
    by_cases harr : ∃ xs, Dict.get? d key = some (.arr xs)
    · obtain ⟨xs, hget⟩ := harr
      rw [mapArray_arr hget] at hd
      obtain ⟨ys, hys, rfl⟩ := map_eq_ok.mp hd
      obtain ⟨zs, hzs, hxs⟩ := hf.mapM.ok xs ys hys
      have hget' : Dict.get? (Dict.set d key (.arr ys)) key = some (.arr ys) := by simp
      refine ⟨Dict.set d key (.arr zs), ?_, ?_⟩
      · rw [mapArray_arr hget', hzs]
        exact congrArg Except.ok (Assoc.set_set d key _ _)
      · rw [mapArray_arr hget, hxs, Except.map]
    · rw [mapArray_other harr] at hd
      cases hd
      exact ⟨d, mapArray_other harr g, mapArray_other harr h⟩
  error d e he := by
    by_cases harr : ∃ xs, Dict.get? d key = some (.arr xs)
    · obtain ⟨xs, hget⟩ := harr
      rw [mapArray_arr hget] at he ⊢
      cases hxs : xs.mapM f with
      | ok ys =>
        rw [hxs] at he
        cases he
      | error e' =>
        rw [hxs] at he
        rw [hf.mapM.error xs e' hxs]
        exact he
    · rw [mapArray_other harr] at he
      cases he

theorem redactFrame_eq (rules : CompiledRules py.Pattern) (frame : Dict) :
    redactFrame rules (.obj frame) = (mapArray "localVariables" (redactLocal rules) frame).map .obj := by
  by_cases harr : ∃ xs, Dict.get? frame "localVariables" = some (.arr xs)
  · obtain ⟨xs, hget⟩ := harr
    rw [mapArray_arr hget, redactFrame, hget]
    dsimp only
    cases xs.mapM (redactLocal rules) <;> rfl
  · rw [mapArray_other harr, redactFrame]
    split
    · rename_i xs hget
      exact absurd ⟨xs, hget⟩ harr
    · rfl

theorem redactStack_eq (rules : CompiledRules py.Pattern) :
    redactStack rules = mapArray "stackTrace" (redactFrame rules) := by
  funext raw
  by_cases harr : ∃ xs, Dict.get? raw "stackTrace" = some (.arr xs)
  · obtain ⟨xs, hget⟩ := harr
    rw [mapArray_arr hget, redactStack, hget]
    dsimp only
    cases xs.mapM (redactFrame rules) <;> rfl
  · rw [mapArray_other harr, redactStack]
    split
    · rename_i xs hget
      exact absurd ⟨xs, hget⟩ harr
    · rfl

theorem redactFrame_fuses : Fuses (redactFrame a) (redactFrame b) (redactFrame (a.union b)) := by
  have hframe := mapArray_fuses "localVariables" (redactLocal_fuses a b)
  constructor
  · intro v w hw
    cases v with
    | obj frame =>
      rw [redactFrame_eq] at hw ⊢
      obtain ⟨frame', hframe', rfl⟩ := map_eq_ok.mp hw
      obtain ⟨both, hb, hboth⟩ := hframe.ok frame frame' hframe'
      refine ⟨.obj both, ?_, ?_⟩
      · rw [redactFrame_eq, hb]
        rfl
      · rw [hboth]
        rfl
    | _ =>
      cases hw
      exact ⟨_, rfl, rfl⟩
  · intro v e he
    cases v with
    | obj frame =>
      rw [redactFrame_eq] at he ⊢
      cases hred : mapArray "localVariables" (redactLocal a) frame with
      | ok frame' =>
        rw [hred] at he
        cases he
      | error e' =>
        rw [hred] at he
        rw [hframe.error frame e' hred]
        exact he
    | _ => cases he

theorem redactStack_fuses : Fuses (redactStack a) (redactStack b) (redactStack (a.union b)) := by
  rw [redactStack_eq, redactStack_eq, redactStack_eq]
  exact mapArray_fuses "stackTrace" (redactFrame_fuses a b)

theorem redactMessage_union (raw : Dict) : redactMessage b (redactMessage a raw) = redactMessage (a.union b) raw := by
  simp only [redactMessage, CompiledRules.union, matchesPattern_append]
  by_cases ha : matchesPattern a.patterns (Dict.get raw "exceptionMessage") = true
  · simp only [ha, if_true, Bool.true_or, Assoc.set_set, ite_self]
  · simp only [ha, Bool.false_eq_true, if_false, Bool.false_or]

theorem redactStack_redactMessage (raw : Dict) :
    redactStack a (redactMessage b raw) = (redactStack a raw).map (redactMessage b) := by
  have hstack : Dict.get? (redactMessage b raw) "stackTrace" = Dict.get? raw "stackTrace" := by
    unfold redactMessage
    split
    · exact Assoc.get?_set_ne raw _ (by decide)
    · rfl
  rw [redactStack_eq]
  by_cases harr : ∃ xs, Dict.get? raw "stackTrace" = some (.arr xs)
  · obtain ⟨xs, hget⟩ := harr
    rw [mapArray_arr (hstack.trans hget), mapArray_arr hget]
    cases xs.mapM (redactFrame a) with
    | error e => rfl
    | ok ys =>
      have hkeep : Dict.get (Dict.set raw "stackTrace" (.arr ys)) "exceptionMessage" =
          Dict.get raw "exceptionMessage" := Dict.get_set_ne raw _ (by decide)
      simp only [Except.map, redactMessage, hkeep]
      split
      · apply congrArg Except.ok
        exact (Assoc.set_comm (by decide) (Assoc.mem_keys_of_get? hget) _ _).symm
      · rfl
  · rw [mapArray_other (by rw [hstack]; exact harr), mapArray_other harr]
    rfl

theorem redactEvent_union (raw : Dict) : redactEvent a raw >>= redactEvent b = redactEvent (a.union b) raw := by
  have inactive {rules : CompiledRules py.Pattern} (h : ¬ rules.active = true) :
      rules.identifiers = [] ∧ rules.patterns = [] := by
    simpa [CompiledRules.active] using h
  by_cases ha : a.active = true
  · have hunion : (a.union b).active = true := by
      simp only [CompiledRules.active, Bool.or_eq_true, Bool.not_eq_true', List.isEmpty_eq_false_iff,
        CompiledRules.union, ne_eq, List.append_eq_nil_iff, not_and_or] at ha ⊢
      exact ha.imp .inl .inl
    by_cases hb : b.active = true
    · have hcommute (d : Dict) : redactEvent b d = redactStack b (redactMessage b d) := if_pos hb
      rw [redactEvent, redactEvent, if_pos ha, if_pos hunion, ← redactMessage_union,
        ← (redactStack_fuses a b).bind_eq, redactStack_redactMessage a b]
      cases redactStack a (redactMessage a raw) with
      | error e => rfl
      | ok d => exact hcommute d
    · obtain ⟨hids, hpatterns⟩ := inactive hb
      have hsame : a.union b = a := by
        rw [CompiledRules.union, hids, hpatterns, List.append_nil, List.append_nil]
      rw [hsame]
      cases redactEvent a raw with
      | error e => rfl
      | ok d => exact if_neg hb
  · obtain ⟨hids, hpatterns⟩ := inactive ha
    have hsame : a.union b = b := by
      rw [CompiledRules.union, hids, hpatterns, List.nil_append, List.nil_append]
    rw [hsame, redactEvent, if_neg ha]
    rfl

variable {a b}

theorem CompiledRules.Same.redactEvent_eq (h : a.Same b) : redactEvent a = redactEvent b := by
  have hpatterns : matchesPattern a.patterns = matchesPattern b.patterns := by
    funext v
    cases v with
    | str s =>
      rw [Bool.eq_iff_iff]
      simp [matchesPattern, h.patterns]
    | _ => rfl
  have hidentifiers (name : String) : (a.identifiers.any fun fragment => Python.isIn fragment name) =
      b.identifiers.any fun fragment => Python.isIn fragment name := by
    rw [Bool.eq_iff_iff]
    simp [h.identifiers]
  have hactive : a.active = b.active := by
    have empty {α : Type} {xs ys : List α} (hxy : ∀ x, x ∈ xs ↔ x ∈ ys) : xs.isEmpty = ys.isEmpty := by
      rw [Bool.eq_iff_iff]
      simp [List.eq_nil_iff_forall_not_mem, hxy]
    rw [CompiledRules.active, CompiledRules.active, empty h.identifiers, empty h.patterns]
  have hmasks : masks a = masks b := by
    funext name v
    rw [masks, masks, hidentifiers, hpatterns]
  have hlocal : redactLocal a = redactLocal b := by
    funext v
    cases v with
    | obj lv => rw [redactLocal_eq, redactLocal_eq, hmasks]
    | _ => rfl
  have hframe : redactFrame a = redactFrame b := by
    funext v
    cases v with
    | obj frame => rw [redactFrame_eq, redactFrame_eq, hlocal]
    | _ => rfl
  funext raw
  rw [redactEvent, redactEvent, hactive, redactStack_eq, redactStack_eq, hframe, redactMessage, redactMessage,
    hpatterns]

theorem compileRules_ok {rs : List Dict} :
    (∃ rules, compileRules py rs = .ok rules) ↔ ∀ r ∈ rs, ∃ effect, readRule py r = .ok effect := by
  have compiled (start : CompiledRules py.Pattern) :
      (∃ rules, rs.foldlM (fun rules r => (readRule py r).map rules.add) start = .ok rules) ↔
        ∀ r ∈ rs, ∃ effect, readRule py r = .ok effect := by
    induction rs generalizing start with
    | nil => simp [pure, Except.pure]
    | cons r rs ih =>
      simp only [List.foldlM_cons, bind_eq_ok, map_eq_ok, List.forall_mem_cons]
      constructor
      · rintro ⟨rules, _, ⟨effect, heffect, rfl⟩, hrest⟩
        exact ⟨⟨effect, heffect⟩, (ih _).mp ⟨rules, hrest⟩⟩
      · rintro ⟨⟨effect, heffect⟩, hrest⟩
        obtain ⟨rules, hrules⟩ := (ih (start.add effect)).mpr hrest
        exact ⟨rules, _, ⟨effect, heffect, rfl⟩, hrules⟩
  exact compiled ⟨[], []⟩

/-- Two lists of rules one after the other redact as any list of the rows of both, and
redacting again changes nothing. -/
theorem redactions_compose {rs rs' : List Dict} (ha : compileRules py rs = .ok a) (hb : compileRules py rs' = .ok b) :
    (∀ both : List Dict, (∀ r, r ∈ both ↔ r ∈ rs ∨ r ∈ rs') →
      ∃ c, compileRules py both = .ok c ∧ ∀ raw, redactEvent c raw = redactEvent a raw >>= redactEvent b) ∧
    ∀ raw red, redactEvent a raw = .ok red → redactEvent a red = .ok red := by
  obtain ⟨hida, hpata⟩ := compileRules_spec ha
  constructor
  · intro both hboth
    obtain ⟨hidb, hpatb⟩ := compileRules_spec hb
    have hreada := compileRules_ok.mp ⟨a, ha⟩
    have hreadb := compileRules_ok.mp ⟨b, hb⟩
    obtain ⟨c, hc⟩ : ∃ c, compileRules py both = .ok c := by
      apply compileRules_ok.mpr
      intro r hr
      rcases (hboth r).mp hr with hr | hr
      · exact hreada r hr
      · exact hreadb r hr
    obtain ⟨hidc, hpatc⟩ := compileRules_spec hc
    have hsame : c.Same (a.union b) := by
      constructor
      · intro fragment
        simp only [CompiledRules.union, List.mem_append, hida, hidb, hidc, EnabledIdentifier, hboth, or_and_right,
          exists_or]
      · intro p
        simp only [CompiledRules.union, List.mem_append, hpata, hpatb, hpatc, EnabledPattern, hboth, or_and_right,
          exists_or]
    refine ⟨c, hc, fun raw => ?_⟩
    rw [hsame.redactEvent_eq, redactEvent_union]
  · intro raw red hred
    have hsame : (a.union a).Same a := by
      constructor
      · intro fragment
        simp [CompiledRules.union]
      · intro p
        simp [CompiledRules.union]
    have htwice := redactEvent_union a a raw
    rw [hsame.redactEvent_eq, hred] at htwice
    exact htwice

def passwordRule : List Dict :=
  [[("kind", .str "identifier"), ("value", .str "Password"), ("enabled", .bool true)]]

theorem redactions_compose_swapped :
    ∃ a b c, compileRules Python.literal secretRule = .ok a ∧ compileRules Python.literal passwordRule = .ok b ∧
      compileRules Python.literal (passwordRule ++ secretRule) = .ok c ∧
      ∀ raw, redactEvent c raw = redactEvent a raw >>= redactEvent b := by
  have ha : compileRules Python.literal secretRule = .ok ⟨[], ["secret"]⟩ := rfl
  have hb : compileRules Python.literal passwordRule = .ok ⟨["password"], []⟩ := rfl
  obtain ⟨c, hc, hredact⟩ := (redactions_compose ha hb).1 (passwordRule ++ secretRule) fun r => by
    rw [List.mem_append]
    exact or_comm
  exact ⟨_, _, c, ha, hb, hc, hredact⟩

end JvmScout.Redaction
