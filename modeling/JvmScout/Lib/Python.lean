import JvmScout.Lib.Json
import Mathlib.Algebra.Order.Floor.Ring
import Mathlib.Data.List.Infix
import Mathlib.Data.Rat.Floor

/-!
The Python built-ins a service leans on. What is fixed by a short rule is defined;
the tables of the library (case mapping, regular expressions, number and date
syntax, lax type coercion) are the fields of `Python`, so that results hold for
whatever they compute.
-/

inductive PyError where
  | attributeError
  | keyError
  | operationalError
  | overflowError
  | permissionError
  | recursionError
  | typeError
  | validationError
  | valueError
deriving DecidableEq, Repr

inductive Compiled (π : Type) where
  | pattern (p : π)
  | reError
  | raises (e : PyError)

structure Python where
  Pattern : Type
  lower : String → String
  lower_ne_empty : ∀ s, s ≠ "" → lower s ≠ ""
  repr : Json → String
  compile : String → Compiled Pattern
  search : Pattern → String → Bool
  parseInt : String → Option ℤ
  parseFloat : String → Option ℚ
  parseIso : String → Option ℤ
  laxInt : Json → Option ℤ
  laxBool : Json → Option Bool

namespace Python

def whitespace : List ℕ :=
  [9, 10, 11, 12, 13, 28, 29, 30, 31, 32, 133, 160, 5760, 8192, 8193, 8194, 8195, 8196, 8197, 8198,
    8199, 8200, 8201, 8202, 8232, 8233, 8239, 8287, 12288]

def isSpace (c : Char) : Bool := whitespace.contains c.toNat

def strip (s : String) : String :=
  String.ofList (((s.toList.dropWhile isSpace).reverse.dropWhile isSpace).reverse)

def replaceChar (a b : Char) (s : String) : String := String.ofList (s.toList.map fun c => if c = a then b else c)

def startsWith (a s : String) : Bool := decide (a.toList <+: s.toList)

def isIn (a b : String) : Bool := decide (a.toList <:+: b.toList)

variable (py : Python)

def str : Json → String
  | .str s => s
  | v => py.repr v

def asText : Json → Except PyError String
  | .str s => .ok s
  | _ => .error .attributeError

def asDict : Json → Except PyError Dict
  | .obj d => .ok d
  | _ => .error .attributeError

def digits (width n : ℕ) : String :=
  String.ofList (List.replicate (width - (toString n).length) '0' ++ (toString n).toList)

def civilOfDays (days : ℕ) : ℕ × ℕ × ℕ :=
  let z := days + 719468
  let era := z / 146097
  let doe := z % 146097
  let yoe := (doe - doe / 1460 + doe / 36524 - doe / 146096) / 365
  let doy := doe - (365 * yoe + yoe / 4 - yoe / 100)
  let mp := (5 * doy + 2) / 153
  let month := if mp < 10 then mp + 3 else mp - 9
  (yoe + era * 400 + (if month ≤ 2 then 1 else 0), month, doy - (153 * mp + 2) / 5 + 1)

def isoFormat (seconds : ℕ) : String :=
  let (year, month, day) := civilOfDays (seconds / 86400)
  let ofDay := seconds % 86400
  digits 4 year ++ "-" ++ digits 2 month ++ "-" ++ digits 2 day ++ "T" ++
    digits 2 (ofDay / 3600) ++ ":" ++ digits 2 (ofDay / 60 % 60) ++ ":" ++ digits 2 (ofDay % 60) ++ "Z"

def truncate (q : ℚ) : ℤ := if 0 ≤ q then ⌊q⌋ else ⌈q⌉

def toInt : Json → Except PyError ℤ
  | .bool b => .ok (if b then 1 else 0)
  | .int n => .ok n
  | .float q => .ok (truncate q)
  | .str s => (py.parseInt s).elim (.error .valueError) .ok
  | _ => .error .typeError

def toFloat : Json → Except PyError ℚ
  | .bool b => .ok (if b then 1 else 0)
  | .int n => .ok n
  | .float q => .ok q
  | .str s => (py.parseFloat s).elim (.error .valueError) .ok
  | _ => .error .typeError

end Python

namespace Json

mutual

def pyEq : Json → Json → Bool
  | .null, .null => true
  | .str s, .str t => s == t
  | .arr xs, .arr ys => pyEqList xs ys
  | .obj d, .obj e => d.length == e.length && pyEqDict d e
  | .bool a, b => b.number? == some (if a then 1 else 0)
  | .int a, b => b.number? == some (a : ℚ)
  | .float a, b => b.number? == some a
  | _, _ => false

def pyEqList : List Json → List Json → Bool
  | [], [] => true
  | x :: xs, y :: ys => pyEq x y && pyEqList xs ys
  | _, _ => false

def pyEqDict : List (String × Json) → List (String × Json) → Bool
  | [], _ => true
  | (k, v) :: rest, e => match Assoc.get? e k with
    | some w => pyEq v w && pyEqDict rest e
    | none => false

end

end Json

/-- A dictionary key: numbers and booleans of one value are one key. -/
inductive HashKey where
  | text (s : String)
  | number (q : ℚ)
  | none
deriving DecidableEq

namespace HashKey

def of : Json → Except PyError HashKey
  | .str s => .ok (.text s)
  | .null => .ok .none
  | .bool b => .ok (.number (if b then 1 else 0))
  | .int n => .ok (.number n)
  | .float q => .ok (.number q)
  | .arr _ | .obj _ => .error .typeError

end HashKey

/-- A `Python` whose regular expressions are literal texts, with case mapping and
number syntax of the ASCII range. -/
def Python.literal : Python where
  Pattern := String
  lower s := String.ofList (s.toList.map Char.toLower)
  lower_ne_empty s hs h := hs (by simpa using congrArg String.toList h)
  repr
    | .int n => toString n
    | .bool b => if b then "True" else "False"
    | _ => "None"
  compile s := .pattern s
  search p s := Python.isIn p s
  parseInt := String.toInt?
  parseFloat s := s.toInt?.map fun n => (n : ℚ)
  parseIso _ := none
  laxInt
    | .int n => some n
    | .bool b => some (if b then 1 else 0)
    | .float q => if q.den = 1 then some q.num else none
    | .str s => s.toInt?
    | _ => none
  laxBool
    | .bool b => some b
    | .int 0 => some false
    | .int 1 => some true
    | _ => none
