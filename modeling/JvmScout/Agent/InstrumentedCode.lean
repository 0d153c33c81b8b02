import JvmScout.Agent.ShadowAttribution
import JvmScout.Agent.ShadowCodeTransform
import JvmScout.Lib.CallMachine
import JvmScout.Lib.Stutter

namespace JvmScout.Agent.InstrumentedCode

open CallMachine ShadowCodeTransform

inductive Value (R : Type) where
  | int (n : BitVec 32)
  | long (n : BitVec 64)
  | float (bits : BitVec 32)
  | double (bits : BitVec 64)
  | reference (r : Option R)

namespace Value

variable {R : Type}

def type : Value R → LocalType
  | int _ => .int
  | long _ => .long
  | float _ => .float
  | double _ => .double
  | reference _ => .reference

def boxed : Value R → Option (Value R)
  | reference none => none
  | v => some v

end Value

inductive Instruction (O L : Type) where
  | labelTarget (l : L)
  | store (slot : ℕ) (type : LocalType)
  | increment (slot : ℕ) (constant : ℤ)
  | returnInstruction (o : O)
  | invoke (o : O)
  | field (o : O)
  | arrayLoad (o : O)
  | arrayStore (o : O)
  | other (o : O)

def Instruction.element {O L : Type} : Instruction O L → CodeElement
  | .labelTarget _ => .labelTarget
  | .store slot type => .store slot type
  | .increment slot _ => .increment slot
  | .returnInstruction _ => .returnInstruction
  | .invoke _ => .invoke
  | .field _ => .field
  | .arrayLoad _ => .arrayLoad
  | .arrayStore _ => .arrayStore
  | .other _ => .other

def Instruction.label {O L : Type} : Instruction O L → Option L
  | .labelTarget l => some l
  | _ => none

def maxLocals : ℕ := 65536

abbrev Locals (R : Type) := ℕ → Option (Value R)

/-- A wide value takes the slot after its own too, and ends where one of its halves is overwritten. -/
def assign {R : Type} (locals : Locals R) (slot : ℕ) (v : Value R) : Locals R := fun n =>
  if n = slot then some v
  else if v.type.wide && slot + 1 = n then none
  else if n + 1 = slot && (locals n).any (·.type.wide) then none
  else locals n

structure Jvm (O L C M R W : Type) where
  operate : O → Locals R → List (Value R) → W → Option (Effect L (Value R) M × W)
  catches : C → Value R → Bool

namespace Jvm

variable {O L C M R W : Type} (jvm : Jvm O L C M R W)

def exec (locals : Locals R) (stack : List (Value R)) (w : W) :
    Instruction O L → Option (Effect L (Value R) M × Locals R × W)
  | .labelTarget _ => some (.next stack, locals, w)
  | .store slot type =>
    match stack with
    | v :: stack => if slot < maxLocals ∧ v.type = type then some (.next stack, assign locals slot v, w) else none
    | [] => none
  | .increment slot constant =>
    match locals slot with
    | some (.int n) =>
      if slot < maxLocals then some (.next stack, assign locals slot (.int (n + BitVec.ofInt 32 constant)), w) else none
    | _ => none
  | .returnInstruction o | .invoke o | .field o | .arrayLoad o | .arrayStore o | .other o =>
    (jvm.operate o locals stack w).map fun (effect, w) => (effect, locals, w)

end Jvm

structure MethodModel (O L C : Type) where
  method : ShadowAttribution.Method
  isStatic : Bool
  parameterList : List TypeKind
  code : Code (Instruction O L) L C

def MethodModel.params {O L C : Type} (mm : MethodModel O L C) : List (ℕ × TypeKind) :=
  paramSlots mm.isStatic mm.parameterList

def parameters {R : Type} (locals : Locals R) : List Write → List (Value R) → Option (Locals R)
  | [], [] => some locals
  | w :: ws, v :: vs =>
    if w.slot < maxLocals ∧ v.type = w.type then parameters (assign locals w.slot v) ws vs else none
  | _, _ => none

section Languages

variable {O L C M R W : Type} (jvm : Jvm O L C M R W) (program : M → Option (MethodModel O L C))

def source : Language (Instruction O L) L C (Value R) M Unit W where
  label := Instruction.label
  exec i locals stack s w := (jvm.exec locals stack w i).map fun (effect, locals, w) => (effect, locals, s, w)
  catches := jvm.catches
  enter m args := do
    let mm ← program m
    let locals ← parameters (fun _ => none) (declared mm.isStatic mm.parameterList) args
    return (mm.code, locals)

inductive BoundLabel (L : Type) where
  | own (l : L)
  | tryStart
  | tryEnd
  | handler
deriving DecidableEq

inductive Rewritten (O L : Type) where
  | original (i : Instruction O L)
  | labelTarget (l : BoundLabel L)
  | enterMethod
  | exitMethod
  | loadConstant (n : ℕ)
  | load (type : LocalType) (slot : ℕ)
  | capture (type : LocalType)
  | athrow

def Rewritten.label : Rewritten O L → Option (BoundLabel L)
  | .original i => i.label.map .own
  | .labelTarget l => some l
  | _ => none

def emit (own : List (Rewritten O L)) : Emitted → List (Rewritten O L)
  | .enterMethod => [.enterMethod]
  | .exitMethod => [.exitMethod]
  | .capture slot load => [.loadConstant slot, .load load slot, .capture load]
  | .element _ => own

def rewrite (known : Known) (i : Instruction O L) : List (Rewritten O L) :=
  (accept known i.element).2.flatMap (emit [.original i])

def rewriteFrom (known : Known) : List (Instruction O L) → List (Rewritten O L)
  | [] => []
  | i :: body => rewrite known i ++ rewriteFrom (accept known i.element).1 body

def enterParams (params : List (ℕ × TypeKind)) : List (Rewritten O L) :=
  .labelTarget .tryStart :: (atStart params).flatMap (emit [])

def atEnd : List (Rewritten O L) := [.labelTarget .tryEnd, .labelTarget .handler, .exitMethod, .athrow]

def ownHandler (h : Handler L C) : Handler (BoundLabel L) C := ⟨.own h.start, .own h.stop, .own h.target, h.catchType⟩

def catchAll : Handler (BoundLabel L) C := ⟨.tryStart, .tryEnd, .handler, none⟩

def transformCode (params : List (ℕ × TypeKind)) (code : Code (Instruction O L) L C) :
    Code (Rewritten O L) (BoundLabel L) C where
  body := enterParams params ++ rewriteFrom (initialKnown params) code.body ++ atEnd
  handlers := code.handlers.map ownHandler ++ [catchAll]

def unchanged (code : Code (Instruction O L) L C) : Code (Rewritten O L) (BoundLabel L) C where
  body := code.body.map .original
  handlers := code.handlers.map ownHandler

def loadedCode (mm : MethodModel O L C) : Code (Rewritten O L) (BoundLabel L) C :=
  if mm.method.instrumented then transformCode mm.params mm.code else unchanged mm.code

/-- The methods of `__JvmtiShadow` return, whatever happens inside. -/
def instrumented : Language (Rewritten O L) (BoundLabel L) C (Value R) M (JvmtiShadow (Value R)) W where
  label := Rewritten.label
  exec i locals stack sh w :=
    match i, stack with
    | .original i, stack =>
      (jvm.exec locals stack w i).map fun (effect, locals, w) => (effect.relabel .own, locals, sh, w)
    | .labelTarget _, stack => some (.next stack, locals, sh, w)
    | .enterMethod, stack => some (.next stack, locals, sh.enterMethod, w)
    | .exitMethod, stack => some (.next stack, locals, sh.exitMethod, w)
    | .loadConstant n, stack => some (.next (.int (BitVec.ofNat 32 n) :: stack), locals, sh, w)
    | .load type slot, stack =>
      match locals slot with
      | some v => if v.type = type then some (.next (v :: stack), locals, sh, w) else none
      | none => none
    | .capture type, v :: .int n :: stack =>
      if v.type = type then some (.next stack, locals, sh.write n.toNat v.boxed, w) else none
    | .athrow, x :: _ => some (.throws x, locals, sh, w)
    | _, _ => none
  catches := jvm.catches
  enter m args := do
    let mm ← program m
    let locals ← parameters (fun _ => none) (declared mm.isStatic mm.parameterList) args
    return (loadedCode mm, locals)

end Languages

end JvmScout.Agent.InstrumentedCode
