import JvmScout.Agent.JvmtiShadow
import JvmScout.Lib.Runs
import Mathlib.Data.List.Basic

/-!
A thread whose stack mixes instrumented activations with other frames, next to its
shadow store: which activation's values the agent reads for a position of the stack.
-/

namespace JvmScout.Agent.ShadowAttribution

open Runs JvmtiShadow

structure Method where
  name : String
  isNative : Bool
  isAbstract : Bool
  isSynthetic : Bool
  isBridge : Bool
  classTransformed : Bool

def Method.eligible (m : Method) : Bool :=
  if m.name = "<clinit>" ∨ m.name = "<init>" then false
  else !(m.isNative || m.isAbstract || m.isSynthetic || m.isBridge)

def Method.instrumented (m : Method) : Bool := m.classTransformed && m.eligible

/-- An activation of an instrumented method is `live` between its `enterMethod` and its
`exitMethod`. What it captures is kept with its number, which no part of the code sees. -/
inductive Frame (V : Type) where
  | entering
  | live (id : ℕ) (captured : ℕ → Option (ℕ × V))
  | exited
  | other

structure Thread (V : Type) where
  stack : List (Frame V)
  shadow : JvmtiShadow (ℕ × V)
  nextId : ℕ

inductive Label (V : Type) where
  | call (m : Method)
  | enter
  | capture (slot : ℕ) (v : Option V)
  | exit
  | leave

variable {V : Type}

def initial : Thread V := ⟨[], JvmtiShadow.initial, 0⟩

def capture (slot : ℕ) (v : Option (ℕ × V)) (captured : ℕ → Option (ℕ × V)) :
    ℕ → Option (ℕ × V) :=
  if slot < maxSlots then Function.update captured slot v else captured

def step (t : Thread V) : Label V → Option (Thread V)
  | .call m => some { t with stack := (if m.instrumented then .entering else .other) :: t.stack }
  | .enter =>
    match t.stack with
    | .entering :: below =>
      some ⟨.live t.nextId (fun _ => none) :: below, t.shadow.enterMethod, t.nextId + 1⟩
    | _ => none
  | .capture slot v =>
    match t.stack with
    | .live id captured :: below =>
      let v := v.map fun v => (id, v)
      some { t with
        stack := .live id (capture slot v captured) :: below
        shadow := t.shadow.write slot v }
    | _ => none
  | .exit =>
    match t.stack with
    | .live _ _ :: below => some { t with stack := .exited :: below, shadow := t.shadow.exitMethod }
    | _ => none
  | .leave =>
    match t.stack with
    | .exited :: below => some { t with stack := below }
    | .other :: below => some { t with stack := below }
    | _ => none

def Frame.isLive : Frame V → Bool
  | .live _ _ => true
  | .entering | .exited | .other => false

def live (stack : List (Frame V)) : ℕ := stack.countP Frame.isLive

def Empty (captured : ℕ → Option (ℕ × V)) : Prop := ∀ slot < maxSlots, captured slot = none

def Stored (rows : ℕ → ℕ → Option (ℕ × V)) : List (Frame V) → Prop
  | [] => True
  | .live id captured :: below =>
    (live below < maxDepth → ∀ slot < maxSlots, rows (live below) slot = captured slot) ∧
      (∀ slot o v, captured slot = some (o, v) → o = id) ∧
      (∀ id' captured', .live id' captured' ∈ below → id' < id) ∧ Stored rows below
  | .entering :: below | .exited :: below | .other :: below => Stored rows below

structure Kept (t : Thread V) : Prop where
  depth : t.shadow.depth = (live t.stack : ℤ) - 1
  stored : Stored t.shadow.frames t.stack
  fresh : ∀ id captured, .live id captured ∈ t.stack → id < t.nextId
  unnamed : ∀ d slot, t.shadow.names d slot = none

theorem initial_kept : Kept (initial : Thread V) := by
  constructor
  · rfl
  · trivial
  · intro id captured h
    cases h
  · exact fun _ _ => rfl

@[simp] theorem live_live (id : ℕ) (captured : ℕ → Option (ℕ × V)) (below : List (Frame V)) :
    live (.live id captured :: below) = live below + 1 :=
  List.countP_cons_of_pos rfl

theorem live_other {f : Frame V} (hf : f.isLive = false) (below : List (Frame V)) :
    live (f :: below) = live below := by
  simp [live, hf]

theorem stored_other {rows : ℕ → ℕ → Option (ℕ × V)} {f : Frame V} (hf : f.isLive = false)
    (below : List (Frame V)) : Stored rows (f :: below) ↔ Stored rows below := by
  cases f with
  | live => cases hf
  | entering | exited | other => exact Iff.rfl

theorem Stored.congr {rows rows' : ℕ → ℕ → Option (ℕ × V)} {stack : List (Frame V)}
    (h : Stored rows stack) (heq : ∀ d < live stack, rows' d = rows d) : Stored rows' stack := by
  induction stack with
  | nil => trivial
  | cons f below ih =>
    cases f with
    | live id captured =>
      obtain ⟨hrow, howner, hbelow, hrest⟩ := h
      refine ⟨fun hlow slot hslot => ?_, howner, hbelow, ?_⟩
      · rw [heq (live below) (by simp)]
        exact hrow hlow slot hslot
      · apply ih hrest
        intro d hd
        apply heq
        rw [live_live]
        omega
    | entering | exited | other => exact ih h heq

theorem Kept.enter {t : Thread V} {below : List (Frame V)} (h : Kept t)
    (hstack : t.stack = .entering :: below) :
    Kept ⟨.live t.nextId (fun _ => none) :: below, t.shadow.enterMethod, t.nextId + 1⟩ := by
  obtain ⟨hdepth, hstored, hfresh, hnames⟩ := h
  rw [hstack] at hdepth hstored hfresh
  rw [live_other rfl] at hdepth
  have hnext : t.shadow.depth + 1 = (live below : ℕ) := by omega
  have hbelow : ∀ id captured, .live id captured ∈ below → id < t.nextId := by
    intro id captured hmem
    exact hfresh id captured (List.mem_cons_of_mem _ hmem)
  constructor
  · simp only [enterMethod, live_live]
    omega
  · simp only [enterMethod, hnext]
    refine ⟨fun hlow slot _ => ?_, fun _ _ _ hv => (by cases hv), hbelow, ?_⟩
    · rw [clearRow_self hlow]
    · apply Stored.congr ((stored_other rfl below).mp hstored)
      intro d hd
      apply clearRow_other
      omega
  · intro id captured hmem
    rcases List.mem_cons.mp hmem with heq | hmem
    · cases heq
      exact Nat.lt_succ_self _
    · exact Nat.lt_succ_of_lt (hbelow id captured hmem)
  · exact clearRow_unnamed hnames _

theorem capture_owner {id slot : ℕ} {v : Option V} {captured : ℕ → Option (ℕ × V)}
    (h : ∀ slot o v, captured slot = some (o, v) → o = id) :
    ∀ slot' o v', capture slot (v.map fun v => (id, v)) captured slot' = some (o, v') → o = id := by
  intro slot' o v' hv
  unfold capture at hv
  split at hv
  · by_cases heq : slot' = slot
    · subst heq
      rw [Function.update_self, Option.map_eq_some_iff] at hv
      obtain ⟨w, _, hw⟩ := hv
      cases hw
      rfl
    · rw [Function.update_of_ne heq] at hv
      exact h slot' o v' hv
  · exact h slot' o v' hv

theorem Kept.capture {t : Thread V} {below : List (Frame V)} {id slot : ℕ}
    {captured : ℕ → Option (ℕ × V)} {v : Option V} (h : Kept t)
    (hstack : t.stack = .live id captured :: below) :
    Kept { t with
      stack := .live id (capture slot (v.map fun v => (id, v)) captured) :: below
      shadow := t.shadow.write slot (v.map fun v => (id, v)) } := by
  obtain ⟨hdepth, hstored, hfresh, hnames⟩ := h
  rw [hstack] at hdepth hstored hfresh
  rw [live_live] at hdepth
  have hown : t.shadow.depth = (live below : ℕ) := by omega
  obtain ⟨hrow, howner, hbelow, hrest⟩ := hstored
  constructor
  · rw [write_depth, live_live]
    exact hdepth
  · refine ⟨fun hlow slot' hslot' => ?_, capture_owner howner, hbelow, ?_⟩
    · by_cases hslot : slot < maxSlots
      · have hrows : t.shadow.frames (live below) slot' = captured slot' := hrow hlow slot' hslot'
        simp only [write_self hown hlow hslot, ShadowAttribution.capture, hslot, if_true]
        by_cases heq : slot' = slot
        · subst heq
          simp only [Function.update_self]
        · simp only [Function.update_of_ne heq]
          exact hrows
      · simp only [write_past (Nat.le_of_not_lt hslot), ShadowAttribution.capture, hslot, if_false]
        exact hrow hlow slot' hslot'
    · apply hrest.congr
      intro d hd
      apply write_other
      omega
  · intro id' captured' hmem
    rcases List.mem_cons.mp hmem with heq | hmem
    · cases heq
      exact hfresh id captured List.mem_cons_self
    · exact hfresh id' captured' (List.mem_cons_of_mem _ hmem)
  · rw [write_names]
    exact hnames

theorem Kept.exit {t : Thread V} {below : List (Frame V)} {id : ℕ}
    {captured : ℕ → Option (ℕ × V)} (h : Kept t) (hstack : t.stack = .live id captured :: below) :
    Kept { t with stack := .exited :: below, shadow := t.shadow.exitMethod } := by
  obtain ⟨hdepth, hstored, hfresh, hnames⟩ := h
  rw [hstack] at hdepth hstored hfresh
  rw [live_live] at hdepth
  have hlive : 0 ≤ t.shadow.depth := by omega
  simp only [exitMethod, hlive, if_true]
  constructor
  · simp only [live_other (rfl : Frame.isLive (.exited : Frame V) = false)]
    omega
  · rw [stored_other rfl]
    apply hstored.2.2.2.congr
    intro d hd
    apply clearRow_other
    omega
  · intro id' captured' hmem
    rcases List.mem_cons.mp hmem with heq | hmem
    · cases heq
    · exact hfresh id' captured' (List.mem_cons_of_mem _ hmem)
  · exact clearRow_unnamed hnames _

theorem Kept.push {t : Thread V} {f : Frame V} (h : Kept t) (hf : f.isLive = false) :
    Kept { t with stack := f :: t.stack } := by
  obtain ⟨hdepth, hstored, hfresh, hnames⟩ := h
  refine ⟨?_, (stored_other hf _).mpr hstored, fun id captured hmem => ?_, hnames⟩
  · rw [live_other hf]
    exact hdepth
  · rcases List.mem_cons.mp hmem with heq | hmem
    · subst heq
      cases hf
    · exact hfresh id captured hmem

theorem Kept.pop {t : Thread V} {f : Frame V} {below : List (Frame V)} (h : Kept t)
    (hf : f.isLive = false) (hstack : t.stack = f :: below) : Kept { t with stack := below } := by
  obtain ⟨hdepth, hstored, hfresh, hnames⟩ := h
  rw [hstack] at hdepth hstored hfresh
  refine ⟨?_, (stored_other hf _).mp hstored, fun id captured hmem => ?_, hnames⟩
  · rw [live_other hf] at hdepth
    exact hdepth
  · exact hfresh id captured (List.mem_cons_of_mem _ hmem)

theorem Kept.step {t u : Thread V} {a : Label V} (h : Kept t) (hs : step t a = some u) : Kept u := by
  cases a with
  | call m =>
    cases hs
    apply h.push
    split <;> rfl
  | enter =>
    simp only [ShadowAttribution.step] at hs
    split at hs
    · rename_i below hstack
      cases hs
      exact h.enter hstack
    · cases hs
  | capture slot v =>
    simp only [ShadowAttribution.step] at hs
    split at hs
    · rename_i id captured below hstack
      cases hs
      exact h.capture hstack
    · cases hs
  | exit =>
    simp only [ShadowAttribution.step] at hs
    split at hs
    · rename_i id captured below hstack
      cases hs
      exact h.exit hstack
    · cases hs
  | leave =>
    simp only [ShadowAttribution.step] at hs
    split at hs
    · rename_i below hstack
      cases hs
      exact h.pop rfl hstack
    · rename_i below hstack
      cases hs
      exact h.pop rfl hstack
    · cases hs

theorem run_kept {t u : Thread V} {labels : List (Label V)} (h : Kept t)
    (hr : run step t labels = some u) : Kept u :=
  run_invariant (fun _ _ _ _ hs hstep => hs.step hstep) h hr

theorem Stored.row {rows : ℕ → ℕ → Option (ℕ × V)} {stack : List (Frame V)} {i id : ℕ}
    {captured : ℕ → Option (ℕ × V)} (h : Stored rows stack)
    (hi : stack[i]? = some (.live id captured)) (hlow : live (stack.drop (i + 1)) < maxDepth) :
    ∀ slot < maxSlots, rows (live (stack.drop (i + 1))) slot = captured slot := by
  induction stack generalizing i with
  | nil => cases hi
  | cons f below ih =>
    cases i with
    | zero =>
      cases hi
      exact h.1 hlow
    | succ i =>
      cases f with
      | live => exact ih h.2.2.2 hi hlow
      | entering | exited | other => exact ih h hi hlow

theorem Stored.owner {rows : ℕ → ℕ → Option (ℕ × V)} {stack : List (Frame V)} {id : ℕ}
    {captured : ℕ → Option (ℕ × V)} (h : Stored rows stack) (hmem : .live id captured ∈ stack) :
    ∀ slot o v, captured slot = some (o, v) → o = id := by
  induction stack with
  | nil => cases hmem
  | cons f below ih =>
    rcases List.mem_cons.mp hmem with heq | hbelow
    · subst heq
      exact h.2.1
    · cases f with
      | live => exact ih h.2.2.2 hbelow
      | entering | exited | other => exact ih h hbelow

theorem Stored.number_lt {rows : ℕ → ℕ → Option (ℕ × V)} {stack : List (Frame V)} {i id id' : ℕ}
    {captured captured' : ℕ → Option (ℕ × V)} (h : Stored rows stack)
    (hi : stack[i]? = some (.live id captured)) (hbelow : .live id' captured' ∈ stack.drop (i + 1)) :
    id' < id := by
  induction stack generalizing i with
  | nil => cases hi
  | cons f below ih =>
    cases i with
    | zero =>
      cases hi
      exact h.2.2.1 id' captured' hbelow
    | succ i =>
      cases f with
      | live => exact ih h.2.2.2 hi hbelow
      | entering | exited | other => exact ih h hi hbelow

theorem exists_live_of_lt {stack : List (Frame V)} {d : ℕ} (hd : d < live stack) :
    ∃ j id captured, stack[j]? = some (.live id captured) ∧ live (stack.drop (j + 1)) = d := by
  induction stack with
  | nil => simp [live] at hd
  | cons f below ih =>
    by_cases hbelow : d < live below
    · obtain ⟨j, id, captured, hj, hlive⟩ := ih hbelow
      exact ⟨j + 1, id, captured, hj, hlive⟩
    · cases f with
      | live id captured =>
        rw [live_live] at hd
        refine ⟨0, id, captured, rfl, ?_⟩
        change live below = d
        omega
      | entering | exited | other => exact absurd hd hbelow

theorem live_split {stack : List (Frame V)} {i id : ℕ} {captured : ℕ → Option (ℕ × V)}
    (hi : stack[i]? = some (.live id captured)) :
    live stack = live (stack.take i) + 1 + live (stack.drop (i + 1)) := by
  obtain ⟨hlt, hget⟩ := List.getElem?_eq_some_iff.mp hi
  calc live stack
    _ = live (stack.take i ++ stack.drop i) := by rw [List.take_append_drop]
    _ = live (stack.take i) + live (stack.drop i) := List.countP_append
    _ = live (stack.take i) + (live (stack.drop (i + 1)) + 1) := by
      rw [List.drop_eq_getElem_cons hlt, hget, live_live]
    _ = live (stack.take i) + 1 + live (stack.drop (i + 1)) := by omega

def ReadsNothing (t : Thread V) (i : ℕ) : Prop :=
  ∀ j id captured, t.stack[j]? = some (.live id captured) →
    live (t.stack.drop (j + 1)) + i + 1 = live t.stack → Empty captured

def Aligned (t : Thread V) (i : ℕ) : Prop := ∀ f ∈ t.stack.take i, f.isLive = true

theorem aligned_iff {t : Thread V} {i id : ℕ} {captured : ℕ → Option (ℕ × V)}
    (hi : t.stack[i]? = some (.live id captured)) :
    Aligned t i ↔ live (t.stack.drop (i + 1)) + i + 1 = live t.stack := by
  obtain ⟨hlt, _⟩ := List.getElem?_eq_some_iff.mp hi
  have hlength : (t.stack.take i).length = i := List.length_take_of_le hlt.le
  have hsplit := live_split hi
  constructor
  · intro h
    have hall : live (t.stack.take i) = (t.stack.take i).length := List.countP_eq_length.mpr h
    omega
  · intro h
    apply List.countP_eq_length.mp
    change live (t.stack.take i) = _
    omega

theorem Kept.read {t : Thread V} {i d : ℕ} (h : Kept t) (hd : d + i + 1 = live t.stack)
    (hlow : d < maxDepth) : t.shadow.readFrame i = rowLocals none (t.shadow.frames d) := by
  have hdepth : t.shadow.depth - i = d := by
    rw [h.depth]
    omega
  have hrange : (0 : ℤ) ≤ d ∧ (d : ℤ) < maxDepth := by omega
  simp only [readFrame, getFrame, getMetadata, hdepth, hrange, and_self, if_true, Int.toNat_natCast]
  simp only [rowLocals, Option.bind_some, h.unnamed, Option.bind_none]

theorem Kept.read_below {t : Thread V} {i : ℕ} (h : Kept t) (hi : live t.stack ≤ i) :
    t.shadow.readFrame i = rowLocals none fun _ => none := by
  have hrange : ¬ (0 ≤ t.shadow.depth - i ∧ t.shadow.depth - i < maxDepth) := by
    rw [h.depth]
    omega
  simp only [readFrame, getFrame, hrange, if_false]
  simp [rowLocals]

theorem Stored.agree {rows : ℕ → ℕ → Option (ℕ × V)} {stack : List (Frame V)} {i j id id' : ℕ}
    {captured captured' : ℕ → Option (ℕ × V)} (h : Stored rows stack)
    (hi : stack[i]? = some (.live id captured)) (hj : stack[j]? = some (.live id' captured'))
    (hij : i ≠ j) :
    (∀ slot < maxSlots, captured' slot = captured slot) ↔ Empty captured ∧ Empty captured' := by
  have hbelow {i j id id' : ℕ} {captured captured' : ℕ → Option (ℕ × V)}
      (hi : stack[i]? = some (.live id captured)) (hj : stack[j]? = some (.live id' captured'))
      (hij : i < j) : id' < id := by
    apply h.number_lt hi
    apply List.mem_of_getElem? (i := j - (i + 1))
    rw [List.getElem?_drop, show i + 1 + (j - (i + 1)) = j by omega]
    exact hj
  have hne : id ≠ id' := by
    rcases Nat.lt_or_gt_of_ne hij with hlt | hgt
    · exact (hbelow hi hj hlt).ne'
    · exact (hbelow hj hi hgt).ne
  constructor
  · intro heq
    have hempty : Empty captured := by
      intro slot hslot
      cases hown : captured slot with
      | none => rfl
      | some w =>
        have hid : w.1 = id := h.owner (List.mem_of_getElem? hi) slot w.1 w.2 hown
        have hid' : w.1 = id' :=
          h.owner (List.mem_of_getElem? hj) slot w.1 w.2 ((heq slot hslot).trans hown)
        exact absurd (hid.symm.trans hid') hne
    refine ⟨hempty, fun slot hslot => ?_⟩
    rw [heq slot hslot]
    exact hempty slot hslot
  · rintro ⟨hempty, hempty'⟩ slot hslot
    rw [hempty slot hslot, hempty' slot hslot]

/-- The agent reads an activation's own values exactly when no frame without a row stands
above it, or when there is nothing to tell apart. -/
theorem own_row_read_iff {labels : List (Label V)} {t : Thread V} {i id : ℕ}
    {captured : ℕ → Option (ℕ × V)} (hr : run step initial labels = some t)
    (hi : t.stack[i]? = some (.live id captured))
    (hlow : live (t.stack.drop (i + 1)) < maxDepth) :
    t.shadow.readFrame i = rowLocals none captured ↔
      Aligned t i ∨ (Empty captured ∧ ReadsNothing t i) := by
  have h : Kept t := run_kept initial_kept hr
  have hown := h.stored.row hi hlow
  have hsplit := live_split hi
  have habove : live (t.stack.take i) ≤ i :=
    (List.countP_le_length).trans (List.length_take_le i t.stack)
  by_cases haligned : Aligned t i
  · have hread := h.read ((aligned_iff hi).mp haligned) hlow
    rw [hread, rowLocals_inj]
    exact iff_of_true hown (.inl haligned)
  · simp only [haligned, false_or]
    by_cases hbelow : live t.stack ≤ i
    · rw [h.read_below hbelow, rowLocals_inj]
      constructor
      · intro heq
        refine ⟨fun slot hslot => (heq slot hslot).symm, fun j id' captured' _ hj => ?_⟩
        omega
      · rintro ⟨hempty, -⟩ slot hslot
        exact (hempty slot hslot).symm
    · have hshift : live t.stack - (i + 1) < live t.stack := by omega
      obtain ⟨j, id', captured', hj, hdepth⟩ := exists_live_of_lt hshift
      have hplace : live (t.stack.drop (j + 1)) + i + 1 = live t.stack := by omega
      have hij : i ≠ j := by
        rintro rfl
        exact haligned ((aligned_iff hi).mpr hplace)
      have hlow' : live (t.stack.drop (j + 1)) < maxDepth := by omega
      rw [h.read hplace hlow', rowLocals_inj]
      have hrow := h.stored.row hj hlow'
      constructor
      · intro heq
        have hsame : ∀ slot < maxSlots, captured' slot = captured slot := by
          intro slot hslot
          rw [← hrow slot hslot]
          exact heq slot hslot
        refine ⟨((h.stored.agree hi hj hij).mp hsame).1, fun k id'' captured'' hk hkplace => ?_⟩
        have hkrow := h.stored.row hk (by omega)
        intro slot hslot
        rw [← hkrow slot hslot, show live (t.stack.drop (k + 1)) = live (t.stack.drop (j + 1)) by omega,
          hrow slot hslot]
        exact ((h.stored.agree hi hj hij).mp hsame).2 slot hslot
      · rintro ⟨hempty, hreads⟩ slot hslot
        rw [hrow slot hslot]
        exact ((h.stored.agree hi hj hij).mpr ⟨hempty, hreads j id' captured' hj hplace⟩) slot hslot

def constructorMethod : Method := ⟨"<init>", false, false, false, false, true⟩

def handlerMethod : Method := ⟨"handle", false, false, false, false, true⟩

def constructorOnTop : List (Label ℕ) :=
  [.call handlerMethod, .enter, .capture 0 (some 7), .call handlerMethod, .enter,
    .call constructorMethod]

def nestedHandlers : List (Label ℕ) :=
  [.call handlerMethod, .enter, .capture 0 (some 7), .call handlerMethod, .enter]

theorem own_row_read_nested :
    ∃ t, run step initial nestedHandlers = some t ∧ t.shadow.readFrame 1 = [⟨[], 0, (0, 7)⟩] := by
  have hstack : (run step initial nestedHandlers).map Thread.stack =
      some [.live 1 fun _ => none, .live 0 (capture 0 (some (0, 7)) fun _ => none)] := rfl
  obtain ⟨t, ht, hstack⟩ := Option.map_eq_some_iff.mp hstack
  have hi : t.stack[1]? = some (.live 0 (capture 0 (some (0, 7)) fun _ => none)) := by rw [hstack]; rfl
  have hlow : live (t.stack.drop 2) < maxDepth := by
    rw [hstack]
    decide
  have hread := (own_row_read_iff ht hi hlow).mpr <| by
    apply Or.inl
    intro f hf
    rw [hstack] at hf
    rw [List.mem_singleton.mp hf]
    rfl
  exact ⟨t, ht, hread.trans rfl⟩

theorem callers_row_read :
    ∃ t : Thread ℕ, run step initial constructorOnTop = some t ∧
      t.stack[1]? = some (.live 1 fun _ => none) ∧
      live (t.stack.drop 2) < maxDepth ∧
      t.shadow.readFrame 1 = [⟨[], 0, (0, 7)⟩] ∧
      t.shadow.readFrame 1 ≠ rowLocals none fun _ => none := by
  refine ⟨_, rfl, rfl, by decide, rfl, ?_⟩
  intro h
  cases h

end JvmScout.Agent.ShadowAttribution
