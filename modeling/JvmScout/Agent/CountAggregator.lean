import JvmScout.Agent.EventSerializer
import JvmScout.Lib.Json
import Mathlib.Algebra.BigOperators.Group.List.Basic

namespace JvmScout.Agent

namespace CountAggregator

def kFlushIntervalMs : ℤ := 5000

def kMaxEntries : ℕ := 4096

structure Entry where
  proto : CapturedEvent Bytes
  count : ℕ

end CountAggregator

structure CountAggregator where
  pending : List (Bytes × CountAggregator.Entry)
  lastFlushMs : ℤ
  overflowDropped : ℕ

namespace CountAggregator

def empty : CountAggregator := ⟨[], 0, 0⟩

def record (fingerprint : Bytes) (proto : CapturedEvent Bytes) (t : ℤ) (agg : CountAggregator) : CountAggregator :=
  let lastFlushMs := if agg.lastFlushMs = 0 then t else agg.lastFlushMs
  match Assoc.get? agg.pending fingerprint with
  | some e => { agg with lastFlushMs, pending := Assoc.set agg.pending fingerprint ⟨proto, e.count + 1⟩ }
  | none =>
    if kMaxEntries ≤ agg.pending.length then
      { agg with lastFlushMs, overflowDropped := agg.overflowDropped + 1 }
    else { agg with lastFlushMs, pending := Assoc.set agg.pending fingerprint ⟨proto, 1⟩ }

def drain (force : Bool) (t : ℤ) (agg : CountAggregator) : List (Bytes × Entry) × CountAggregator :=
  if !force && decide (agg.lastFlushMs ≠ 0) && decide (t - agg.lastFlushMs < kFlushIntervalMs) then ([], agg)
  else (agg.pending, { agg with pending := [], lastFlushMs := t })

def Entry.summary (e : Entry) : CapturedEvent Bytes := { e.proto with occurrences := e.count }

def pendingCount (agg : CountAggregator) : ℕ := (agg.pending.map fun e => e.2.count).sum

structure Sound (agg : CountAggregator) : Prop where
  counted : ∀ e ∈ agg.pending, 0 < e.2.count
  suppressed : ∀ e ∈ agg.pending, e.2.proto.mode = .COUNT_ONLY
  bounded : agg.pending.length ≤ kMaxEntries

theorem record_count (fingerprint : Bytes) (proto : CapturedEvent Bytes) (t : ℤ) (agg : CountAggregator) :
    (record fingerprint proto t agg).pendingCount + (record fingerprint proto t agg).overflowDropped =
      agg.pendingCount + agg.overflowDropped + 1 := by
  unfold record pendingCount
  dsimp only
  split
  · rename_i e hold
    obtain ⟨as, bs, hsplit, hset⟩ := Assoc.set_old hold
    rw [hset, hsplit]
    simp only [List.map_append, List.map_cons, List.sum_append, List.sum_cons]
    omega
  · rename_i hnew
    split
    · dsimp only
      omega
    · rw [Assoc.set_new hnew]
      simp only [List.map_append, List.map_cons, List.map_nil, List.sum_append, List.sum_cons, List.sum_nil]
      omega

theorem Sound.record {agg : CountAggregator} (h : agg.Sound) (fingerprint : Bytes) {proto : CapturedEvent Bytes}
    (hmode : proto.mode = .COUNT_ONLY) (t : ℤ) : (record fingerprint proto t agg).Sound := by
  unfold CountAggregator.record
  dsimp only
  split
  · rename_i e hold
    obtain ⟨as, bs, hsplit, hset⟩ := Assoc.set_old hold
    constructor
    · intro x hx
      rcases Assoc.mem_set hx with hx | rfl
      · exact h.counted x hx
      · exact Nat.succ_pos _
    · intro x hx
      rcases Assoc.mem_set hx with hx | rfl
      · exact h.suppressed x hx
      · exact hmode
    · have hlen := h.bounded
      rw [hsplit] at hlen
      rw [hset]
      simpa using hlen
  · rename_i hnew
    split
    · exact ⟨h.counted, h.suppressed, h.bounded⟩
    · rename_i hroom
      constructor
      · intro x hx
        rcases Assoc.mem_set hx with hx | rfl
        · exact h.counted x hx
        · exact Nat.one_pos
      · intro x hx
        rcases Assoc.mem_set hx with hx | rfl
        · exact h.suppressed x hx
        · exact hmode
      · rw [Assoc.set_new hnew, List.length_append, List.length_singleton]
        omega

theorem drain_count (force : Bool) (t : ℤ) (agg : CountAggregator) :
    ((drain force t agg).1.map fun e => e.2.count).sum + (drain force t agg).2.pendingCount = agg.pendingCount ∧
      (drain force t agg).2.overflowDropped = agg.overflowDropped := by
  unfold drain pendingCount
  split <;> simp

theorem Sound.drain {agg : CountAggregator} (h : agg.Sound) (force : Bool) (t : ℤ) :
    (drain force t agg).2.Sound ∧ ∀ e ∈ (drain force t agg).1, 0 < e.2.count ∧ e.2.proto.mode = .COUNT_ONLY := by
  unfold CountAggregator.drain
  split
  · exact ⟨h, fun e he => by cases he⟩
  · refine ⟨⟨fun e he => ?_, fun e he => ?_, Nat.zero_le _⟩, fun e he => ⟨h.counted e he, h.suppressed e he⟩⟩
    · cases he
    · cases he

end CountAggregator

end JvmScout.Agent
