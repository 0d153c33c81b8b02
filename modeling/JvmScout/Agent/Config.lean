import JvmScout.Agent.JsonWriter
import Mathlib.Data.List.Infix

namespace JvmScout.Agent

def tolower (b : UInt8) : UInt8 := if 0x41 ≤ b ∧ b ≤ 0x5A then b + 0x20 else b

def lower (s : Bytes) : Bytes := s.map tolower

def split (s : Bytes) (delim : UInt8) : List Bytes := (s.splitOn delim).filter fun item => item ≠ []

def redactMatches (patterns : List Bytes) (name : Bytes) : Bool :=
  patterns.any fun pat => lower pat ≠ [] && decide (lower pat <:+: lower name)

structure RedactProps where
  patterns : List Bytes
  nonempty : ∀ pat ∈ patterns, pat ≠ []

def defaultRedactProps : RedactProps where
  patterns := ["password", "passwd", "secret", "token", "apikey", "api.key", "credential"].map Utf16.modifiedUtf8
  nonempty := by decide

def RedactProps.add (val : Bytes) (props : RedactProps) : RedactProps where
  patterns := props.patterns ++ split val ';'.toUInt8
  nonempty := by
    intro pat hpat
    rcases List.mem_append.mp hpat with hold | hnew
    · exact props.nonempty pat hold
    · exact of_decide_eq_true (List.mem_filter.mp hnew).2

structure AgentConfig where
  host : Bytes
  port : ℤ
  path : Bytes
  deployment : Bytes
  environment : Bytes
  console : Bool
  depth : ℤ
  bci : Bool
  instanceId : Bytes
  envCapture : List Bytes
  redactProps : RedactProps

def sampleConfig : AgentConfig where
  host := []
  port := 8080
  path := []
  deployment := []
  environment := []
  console := false
  depth := 3
  bci := false
  instanceId := []
  envCapture := [Utf16.modifiedUtf8 "*"]
  redactProps := defaultRedactProps

def Sensitive (props : RedactProps) (name : Bytes) : Prop :=
  ∃ pat ∈ props.patterns, lower pat <:+: lower name

instance (props : RedactProps) (name : Bytes) : Decidable (Sensitive props name) :=
  inferInstanceAs (Decidable (∃ pat ∈ props.patterns, lower pat <:+: lower name))

theorem redactMatches_iff {props : RedactProps} {name : Bytes} :
    redactMatches props.patterns name = true ↔ Sensitive props name := by
  have hlower (pat : Bytes) (hpat : pat ∈ props.patterns) : lower pat ≠ [] := by
    intro hnil
    exact props.nonempty pat hpat (List.map_eq_nil_iff.mp hnil)
  rw [redactMatches, List.any_eq_true]
  constructor
  · rintro ⟨pat, hpat, hmatch⟩
    exact ⟨pat, hpat, by simpa [hlower pat hpat] using hmatch⟩
  · rintro ⟨pat, hpat, hmatch⟩
    exact ⟨pat, hpat, by simpa [hlower pat hpat] using hmatch⟩

end JvmScout.Agent
