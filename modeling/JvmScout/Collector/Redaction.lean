import JvmScout.Lib.Python

namespace JvmScout.Redaction

def redacted : String := "***"

structure CompiledRules (π : Type) where
  identifiers : List String
  patterns : List π

def CompiledRules.active {π : Type} (rules : CompiledRules π) : Bool :=
  !rules.identifiers.isEmpty || !rules.patterns.isEmpty

inductive RuleEffect (π : Type) where
  | skip
  | identifier (fragment : String)
  | pattern (p : π)

variable (py : Python)

def readRule (r : Dict) : Except PyError (RuleEffect py.Pattern) :=
  if ((Dict.get? r "enabled").getD (.bool true)).truthy then do
    let value ← Python.asText ((Dict.get r "value").orElse (.str ""))
    let value := Python.strip value
    if value = "" then
      return .skip
    else do
      let kind ← Python.asText ((Dict.get r "kind").orElse (.str ""))
      if py.lower kind = "identifier" then
        return .identifier (py.lower value)
      else
        match py.compile value with
        | .pattern p => return .pattern p
        | .reError => return .skip
        | .raises e => throw e
  else
    return .skip

def CompiledRules.add {π : Type} (rules : CompiledRules π) : RuleEffect π → CompiledRules π
  | .skip => rules
  | .identifier fragment => { rules with identifiers := rules.identifiers ++ [fragment] }
  | .pattern p => { rules with patterns := rules.patterns ++ [p] }

def compileRules (rs : List Dict) : Except PyError (CompiledRules py.Pattern) :=
  rs.foldlM (fun rules r => (readRule py r).map rules.add) ⟨[], []⟩

variable {py}

def matchesPattern (patterns : List py.Pattern) : Json → Bool
  | .str s => patterns.any fun p => py.search p s
  | _ => false

def redactLocal (rules : CompiledRules py.Pattern) : Json → Except PyError Json
  | .obj lv =>
    if Dict.has lv "value" then do
      let name ← Python.asText ((Dict.get lv "name").orElse (.str ""))
      let name := py.lower name
      if name ≠ "" ∧ rules.identifiers.any (fun fragment => Python.isIn fragment name) then
        return .obj (Dict.set lv "value" (.str redacted))
      else if matchesPattern rules.patterns (Dict.get lv "value") then
        return .obj (Dict.set lv "value" (.str redacted))
      else
        return .obj lv
    else
      return .obj lv
  | v => return v

def redactFrame (rules : CompiledRules py.Pattern) : Json → Except PyError Json
  | .obj frame =>
    match Dict.get? frame "localVariables" with
    | some (.arr locals) => do
      let locals ← locals.mapM (redactLocal rules)
      return .obj (Dict.set frame "localVariables" (.arr locals))
    | _ => return .obj frame
  | v => return v

def redactMessage (rules : CompiledRules py.Pattern) (raw : Dict) : Dict :=
  if matchesPattern rules.patterns (Dict.get raw "exceptionMessage") then
    Dict.set raw "exceptionMessage" (.str redacted)
  else raw

def redactStack (rules : CompiledRules py.Pattern) (raw : Dict) : Except PyError Dict :=
  match Dict.get? raw "stackTrace" with
  | some (.arr frames) => do
    let frames ← frames.mapM (redactFrame rules)
    return Dict.set raw "stackTrace" (.arr frames)
  | _ => return raw

def redactEvent (rules : CompiledRules py.Pattern) (raw : Dict) : Except PyError Dict :=
  if rules.active then redactStack rules (redactMessage rules raw) else return raw

end JvmScout.Redaction
