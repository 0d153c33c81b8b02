import JvmScout.Agent.EventSerializer
import JvmScout.Lib.Json

namespace JvmScout.Agent

namespace Sampler

def kDefaultMaxEntries : ℕ := 4096

def kWindowMs : ℤ := 60000

def kFullPerWindow : ℕ := 10

def kResampleMs : ℤ := 300000

def kMaxStripes : ℕ := 16

def kMinEntriesPerStripe : ℕ := 256

structure Decision where
  mode : CaptureMode
  hitCount : ℕ

/-- `lruIt` points at a node of the stripe's list; a node keeps its identity when it is moved. -/
structure State where
  total : ℕ
  windowHits : ℕ
  windowStartMs : ℤ
  lastFullMs : ℤ
  lruIt : ℕ

structure Stripe where
  states : List (Bytes × State)
  lru : List (ℕ × Bytes)
  nextNode : ℕ

def Stripe.empty : Stripe := ⟨[], [], 0⟩

def Stripe.evict (perStripeMax : ℕ) (sp : Stripe) : Stripe :=
  if perStripeMax ≤ sp.states.length then
    match sp.lru.getLast? with
    | some victim =>
      { sp with lru := sp.lru.dropLast, states := sp.states.filter fun e => e.1 ≠ victim.2 }
    | none => sp
  else sp

def splice (it : ℕ) (lru : List (ℕ × Bytes)) : List (ℕ × Bytes) :=
  lru.filter (fun node => node.1 = it) ++ lru.filter (fun node => node.1 ≠ it)

def Stripe.touch (perStripeMax : ℕ) (fingerprint : Bytes) (sp : Stripe) : State × Stripe :=
  match Assoc.get? sp.states fingerprint with
  | none =>
    let sp := sp.evict perStripeMax
    let st : State := ⟨0, 0, 0, 0, sp.nextNode⟩
    (st, ⟨Assoc.set sp.states fingerprint st, (sp.nextNode, fingerprint) :: sp.lru, sp.nextNode + 1⟩)
  | some st => (st, { sp with lru := splice st.lruIt sp.lru })

def State.rollWindow (t : ℤ) (st : State) : State :=
  if st.windowStartMs = 0 ∨ kWindowMs ≤ t - st.windowStartMs then { st with windowStartMs := t, windowHits := 0 }
  else st

def State.hit (t : ℤ) (st : State) : Decision × State :=
  let st := { st with total := st.total + 1 }
  let st := st.rollWindow t
  let st := { st with windowHits := st.windowHits + 1 }
  if st.lastFullMs = 0 ∨ kResampleMs ≤ t - st.lastFullMs then (⟨.FULL, st.total⟩, { st with lastFullMs := t })
  else if st.windowHits ≤ kFullPerWindow then (⟨.FULL, st.total⟩, { st with lastFullMs := t })
  else if st.windowHits ≤ kFullPerWindow * 5 then (⟨.REDUCED, st.total⟩, st)
  else (⟨.COUNT_ONLY, st.total⟩, st)

def Stripe.decide (perStripeMax : ℕ) (fingerprint : Bytes) (t : ℤ) (sp : Stripe) : Decision × Stripe :=
  let (st, sp) := sp.touch perStripeMax fingerprint
  let (decision, st) := st.hit t
  (decision, { sp with states := Assoc.set sp.states fingerprint st })

end Sampler

structure Sampler where
  perStripeMax : ℕ
  stripes : List Sampler.Stripe

namespace Sampler

def new (maxEntries : ℕ) : Sampler :=
  let maxEntries := if maxEntries = 0 then kDefaultMaxEntries else maxEntries
  let stripes := min kMaxStripes (max 1 (maxEntries / kMinEntriesPerStripe))
  ⟨max 1 (maxEntries / stripes), List.replicate stripes Stripe.empty⟩

def decide (hash : Bytes → ℕ) (fingerprint : Bytes) (t : ℤ) (s : Sampler) : Decision × Sampler :=
  let i := hash fingerprint % s.stripes.length
  let (decision, sp) := (s.stripes.getD i Stripe.empty).decide s.perStripeMax fingerprint t
  (decision, { s with stripes := s.stripes.set i sp })

end Sampler

end JvmScout.Agent
