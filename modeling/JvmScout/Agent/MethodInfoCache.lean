import JvmScout.Agent.Filters
import JvmScout.Agent.Fingerprint
import JvmScout.Agent.LineTable
import JvmScout.Lib.AssocKeys

namespace JvmScout.Agent

/-- What JVMTI answers about a method. A call that fails and one that gives a null are alike. -/
structure MethodAnswers where
  methodName : Option Bytes
  signature : Option Bytes
  sourceFile : Option Bytes
  lineTable : Option (List LineNumberEntry)

def isClassSignature (sig : Bytes) : Bool :=
  2 ≤ sig.length && sig.head? == some (UInt8.ofNat 'L'.toNat) && sig.getLast? == some (UInt8.ofNat ';'.toNat)

def signatureToSlash (sig : Bytes) : Bytes := if isClassSignature sig then sig.tail.dropLast else sig

def signatureToDotted (sig : Bytes) : Bytes :=
  if isClassSignature sig then
    sig.tail.dropLast.map fun c => if c = UInt8.ofNat '/'.toNat then UInt8.ofNat '.'.toNat else c
  else sig

structure MethodInfo where
  methodName : Bytes
  classSlash : Bytes
  classDotted : Bytes
  sourceFile : Bytes
  locationDenied : Bool
  lineTable : List LineNumberEntry

namespace MethodInfo

def resolve (filter : DenyAllowFilter) (a : MethodAnswers) : MethodInfo where
  methodName := a.methodName.getD []
  classSlash := signatureToSlash (a.signature.getD [])
  classDotted := signatureToDotted (a.signature.getD [])
  sourceFile := a.sourceFile.getD []
  locationDenied := !filter.accept (signatureToSlash (a.signature.getD []))
  lineTable := lookupLineTable a.lineTable

def lineAt (info : MethodInfo) (location : ℤ) : ℤ := Agent.lineAt info.lineTable location

end MethodInfo

namespace MethodInfoCache

def kMaxEntries : ℕ := 16384

variable {M : Type} [DecidableEq M]

def emplace (m : M) (info : MethodInfo) (map : List (M × MethodInfo)) : MethodInfo × List (M × MethodInfo) :=
  let map := if kMaxEntries ≤ map.length then [] else map
  match Assoc.get? map m with
  | some kept => (kept, map)
  | none => (info, Assoc.set map m info)

theorem emplace_length (m : M) (info : MethodInfo) (map : List (M × MethodInfo)) :
    (emplace m info map).2.length ≤ kMaxEntries := by
  have hroom : (if kMaxEntries ≤ map.length then [] else map).length < kMaxEntries := by
    split
    · exact Nat.zero_lt_succ _
    · omega
  rw [emplace]
  split
  · exact hroom.le
  · rename_i hnew
    rw [Assoc.set_new hnew, List.length_append, List.length_singleton]
    exact hroom

theorem emplace_kept {map : List (M × MethodInfo)} {P : M → MethodInfo → Prop}
    (hmap : ∀ k info, Assoc.get? map k = some info → P k info) {m : M} {info : MethodInfo} (hinfo : P m info) :
    P m (emplace m info map).1 ∧ ∀ k kept, Assoc.get? (emplace m info map).2 k = some kept → P k kept := by
  have hrest : ∀ k kept, Assoc.get? (if kMaxEntries ≤ map.length then [] else map) k = some kept → P k kept := by
    intro k kept hk
    split at hk
    · cases hk
    · exact hmap k kept hk
  rw [emplace]
  split
  · rename_i kept hkept
    exact ⟨hrest m kept hkept, hrest⟩
  · refine ⟨hinfo, ?_⟩
    intro k kept hk
    rw [Assoc.get?_set] at hk
    split at hk
    · rename_i heq
      cases hk
      cases heq
      exact hinfo
    · exact hrest k kept hk

end MethodInfoCache

end JvmScout.Agent
