import JvmScout.Agent.Config
import JvmScout.Agent.EventSerializer
import JvmScout.Agent.JvmtiShadow

namespace JvmScout.Agent

structure LocalEntry where
  name : Option Bytes
  signature : Option Bytes
  slot : ℤ
  startLocation : ℤ
  length : ℤ
  rendered : Bytes

structure FrameInfo where
  className : Bytes
  methodName : Bytes
  sourceFile : Bytes
  lineNumber : ℤ
  location : ℤ
  appCode : Bool
  table : Option (List LocalEntry)

namespace StackWalker

def kMaxFrames : ℕ := 100

def locationInScope (loc : ℤ) (e : LocalEntry) : Bool :=
  e.startLocation ≤ loc ∧ loc < e.startLocation + e.length

def tableLocal (e : LocalEntry) : LocalVariable Bytes where
  name := e.name.getD []
  signature := e.signature.getD []
  slot := e.slot
  type := []
  value := if (e.signature.getD []).isEmpty then Utf16.modifiedUtf8 "?" else e.rendered
  source := Utf16.modifiedUtf8 "debug_info"

def shadowLocal (l : ShadowLocal Bytes) : LocalVariable Bytes where
  name := l.name
  signature := []
  slot := l.slot
  type := []
  value := l.value
  source := Utf16.modifiedUtf8 "bci_shadow"

def captureFrameLocals (shadow : Option (JvmtiShadow Bytes)) (depth : ℕ) (f : FrameInfo) :
    List (LocalVariable Bytes) :=
  match f.table with
  | none =>
    match shadow with
    | some sh => (sh.readFrame depth).map shadowLocal
    | none => []
  | some table => (table.filter (locationInScope f.location)).map tableLocal

def maskLocal (redactProps : List Bytes) (lv : LocalVariable Bytes) : LocalVariable Bytes :=
  if lv.name ≠ [] ∧ redactMatches redactProps lv.name = true then
    { lv with value := Utf16.modifiedUtf8 "***" }
  else lv

def walkFrame (redactProps : List Bytes) (shadow : Option (JvmtiShadow Bytes)) (captureLocals : Bool)
    (i : ℕ) (f : FrameInfo) : StackFrame Bytes where
  frameIndex := i
  className := f.className
  methodName := f.methodName
  lineNumber := f.lineNumber
  sourceFile := f.sourceFile
  appCode := f.appCode
  locals :=
    if captureLocals && f.appCode then (captureFrameLocals shadow i f).map (maskLocal redactProps) else []

def walkFrom (redactProps : List Bytes) (shadow : Option (JvmtiShadow Bytes)) (captureLocals : Bool) :
    ℕ → List FrameInfo → List (StackFrame Bytes)
  | _, [] => []
  | i, f :: fs => walkFrame redactProps shadow captureLocals i f ::
      walkFrom redactProps shadow captureLocals (i + 1) fs

def walk (redactProps : List Bytes) (shadow : Option (JvmtiShadow Bytes)) (stack : List FrameInfo)
    (captureLocals : Bool) (maxFrames : ℤ) : List (StackFrame Bytes) :=
  let want := if 0 < maxFrames ∧ maxFrames < kMaxFrames then maxFrames.toNat else kMaxFrames
  walkFrom redactProps shadow captureLocals 0 (stack.take want)

end StackWalker

end JvmScout.Agent
