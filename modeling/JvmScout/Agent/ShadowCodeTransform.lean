import JvmScout.Lib.AssocKeys
import Mathlib.Data.List.Basic

namespace JvmScout.Agent.ShadowCodeTransform

inductive TypeKind where
  | BOOLEAN
  | BYTE
  | CHAR
  | SHORT
  | INT
  | LONG
  | FLOAT
  | DOUBLE
  | REFERENCE
deriving DecidableEq

def TypeKind.slotSize : TypeKind → ℕ
  | .LONG | .DOUBLE => 2
  | _ => 1

inductive LocalType where
  | int
  | long
  | float
  | double
  | reference
deriving DecidableEq

namespace LocalType

def typeKind : LocalType → TypeKind
  | int => .INT
  | long => .LONG
  | float => .FLOAT
  | double => .DOUBLE
  | reference => .REFERENCE

def wide : LocalType → Bool
  | long | double => true
  | _ => false

def ofKind : TypeKind → LocalType
  | .LONG => long
  | .FLOAT => float
  | .DOUBLE => double
  | .REFERENCE => reference
  | .BOOLEAN | .BYTE | .CHAR | .SHORT | .INT => int

end LocalType

inductive CodeElement where
  | labelTarget
  | store (slot : ℕ) (type : LocalType)
  | increment (slot : ℕ)
  | returnInstruction
  | invoke
  | field
  | arrayLoad
  | arrayStore
  | other
deriving DecidableEq

inductive Emitted where
  | enterMethod
  | exitMethod
  | capture (slot : ℕ) (load : LocalType)
  | element (e : CodeElement)
deriving DecidableEq

abbrev Known := List (ℕ × TypeKind)

def storeKind : TypeKind → TypeKind
  | .LONG => .LONG
  | .FLOAT => .FLOAT
  | .DOUBLE => .DOUBLE
  | .REFERENCE => .REFERENCE
  | _ => .INT

def paramsFrom (slot : ℕ) : List TypeKind → List (ℕ × TypeKind)
  | [] => []
  | kind :: parameters => (slot, storeKind kind) :: paramsFrom (slot + kind.slotSize) parameters

def paramSlots (isStatic : Bool) (parameterList : List TypeKind) : List (ℕ × TypeKind) :=
  if isStatic then paramsFrom 0 parameterList else (0, .REFERENCE) :: paramsFrom 1 parameterList

def isWide (kind : Option TypeKind) : Bool := kind = some .LONG || kind = some .DOUBLE

def forgetBelow (slot : ℕ) (known : Known) : Known :=
  match slot with
  | 0 => known
  | below + 1 => if isWide (Assoc.get? known below) then Assoc.remove known below else known

def forgetNext (slot : ℕ) (kind : TypeKind) (known : Known) : Known :=
  if isWide (some kind) then Assoc.remove known (slot + 1) else known

def recordStore (slot : ℕ) (kind : TypeKind) (known : Known) : Known :=
  Assoc.set (forgetNext slot kind (forgetBelow slot known)) slot kind

def isThrowCapable : CodeElement → Bool
  | .invoke | .field | .arrayLoad | .arrayStore => true
  | _ => false

def emitCapture (slot : ℕ) (kind : TypeKind) : Emitted :=
  match kind with
  | .REFERENCE => .capture slot .reference
  | .LONG => .capture slot .long
  | .FLOAT => .capture slot .float
  | .DOUBLE => .capture slot .double
  | _ => .capture slot .int

def accept (known : Known) (e : CodeElement) : Known × List Emitted :=
  match e with
  | .labelTarget => ([], [.element e])
  | .store slot type => (recordStore slot type.typeKind known, [.element e])
  | .increment slot => (recordStore slot .INT known, [.element e])
  | .returnInstruction => (known, [.exitMethod, .element e])
  | _ => (known, (if isThrowCapable e then known.map fun en => emitCapture en.1 en.2 else []) ++ [.element e])

def initialKnown (params : List (ℕ × TypeKind)) : Known := params.foldl (fun known p => Assoc.set known p.1 p.2) []

def atStart (params : List (ℕ × TypeKind)) : List Emitted := .enterMethod :: params.map fun p => emitCapture p.1 p.2

def knownAt (params : List (ℕ × TypeKind)) (body : List CodeElement) (i : ℕ) : Known :=
  (body.take i).foldl (fun known e => (accept known e).1) (initialKnown params)

def emittedAt (params : List (ℕ × TypeKind)) (body : List CodeElement) (i : ℕ) : List Emitted :=
  match body[i]? with
  | some e => (accept (knownAt params body i) e).2
  | none => []

structure Write where
  slot : ℕ
  type : LocalType
deriving DecidableEq

def Write.touches (w : Write) (slot : ℕ) : Bool := w.slot = slot || (w.type.wide && w.slot + 1 = slot)

def declaredFrom (slot : ℕ) : List TypeKind → List Write
  | [] => []
  | kind :: parameters => ⟨slot, .ofKind kind⟩ :: declaredFrom (slot + kind.slotSize) parameters

def declared (isStatic : Bool) (parameterList : List TypeKind) : List Write :=
  if isStatic then declaredFrom 0 parameterList else ⟨0, .reference⟩ :: declaredFrom 1 parameterList

def CodeElement.writes : CodeElement → List Write
  | .store slot type => [⟨slot, type⟩]
  | .increment slot => [⟨slot, .int⟩]
  | _ => []

/-- Control reaches the element at `i` with these writes behind it, the last at the end. From
any element it may go on to the next one, or to any label, before or after the element's own write. -/
inductive Reaches (body : List CodeElement) (start : List Write) : ℕ → List Write → Prop
  | start : Reaches body start 0 start
  | next {i : ℕ} {ws : List Write} {e : CodeElement} :
      Reaches body start i ws → body[i]? = some e → Reaches body start (i + 1) (ws ++ e.writes)
  | jump {i j : ℕ} {ws ws' : List Write} {e : CodeElement} :
      Reaches body start i ws → body[i]? = some e → body[j]? = some .labelTarget →
        ws' = ws ∨ ws' = ws ++ e.writes → Reaches body start j ws'

def lastTouch (ws : List Write) (slot : ℕ) : Option Write := ws.reverse.find? fun w => w.touches slot

def Assigned (ws : List Write) (slot : ℕ) (type : LocalType) : Prop :=
  lastTouch ws slot = some ⟨slot, type⟩ ∧ (type.wide = true → lastTouch ws (slot + 1) = some ⟨slot, type⟩)

variable {known : Known} {ws : List Write} {slot : ℕ} {type : LocalType}

theorem lastTouch_concat (ws : List Write) (w : Write) (slot : ℕ) :
    lastTouch (ws ++ [w]) slot = if w.touches slot then some w else lastTouch ws slot := by
  rw [lastTouch, List.reverse_append, List.reverse_singleton, List.singleton_append, List.find?_cons]
  cases w.touches slot <;> rfl

theorem assigned_concat_self (ws : List Write) (slot : ℕ) (type : LocalType) : Assigned (ws ++ [⟨slot, type⟩]) slot type := by
  constructor
  · rw [lastTouch_concat, if_pos (by simp [Write.touches])]
  · intro hwide
    rw [lastTouch_concat, if_pos (by simp [Write.touches, hwide])]

theorem Assigned.concat (h : Assigned ws slot type) {w : Write} (hslot : w.touches slot = false)
    (hnext : type.wide = true → w.touches (slot + 1) = false) : Assigned (ws ++ [w]) slot type := by
  constructor
  · rw [lastTouch_concat, hslot, if_neg Bool.false_ne_true]
    exact h.1
  · intro hwide
    rw [lastTouch_concat, hnext hwide, if_neg Bool.false_ne_true]
    exact h.2 hwide

theorem isWide_typeKind (type : LocalType) : isWide (some type.typeKind) = type.wide := by cases type <;> rfl

theorem emitCapture_typeKind (slot : ℕ) (type : LocalType) : emitCapture slot type.typeKind = .capture slot type := by
  cases type <;> rfl

theorem storeKind_eq (kind : TypeKind) : storeKind kind = (LocalType.ofKind kind).typeKind := by cases kind <;> rfl

theorem slotSize_eq (kind : TypeKind) : kind.slotSize = if (LocalType.ofKind kind).wide then 2 else 1 := by
  cases kind <;> rfl

structure Sound (known : Known) (ws : List Write) : Prop where
  keyed : (Assoc.keys known).Nodup
  assigned : ∀ slot kind, Assoc.get? known slot = some kind → ∃ type, kind = type.typeKind ∧ Assigned ws slot type

theorem sound_nil (ws : List Write) : Sound [] ws := ⟨List.nodup_nil, fun _ _ h => nomatch h⟩

theorem nodup_recordStore (h : (Assoc.keys known).Nodup) (slot : ℕ) (kind : TypeKind) :
    (Assoc.keys (recordStore slot kind known)).Nodup := by
  have hbelow : (Assoc.keys (forgetBelow slot known)).Nodup := by
    unfold forgetBelow
    split
    · exact h
    · split
      · exact Assoc.nodup_filter h _
      · exact h
  have hnext : (Assoc.keys (forgetNext slot kind (forgetBelow slot known))).Nodup := by
    unfold forgetNext
    split
    · exact Assoc.nodup_filter hbelow _
    · exact hbelow
  exact Assoc.nodup_set hnext slot kind

theorem get?_forgetNext {kind kind' : TypeKind} {t : ℕ} (hget : Assoc.get? (forgetNext slot kind known) t = some kind') :
    Assoc.get? known t = some kind' ∧ (isWide (some kind) = true → slot + 1 ≠ t) := by
  unfold forgetNext at hget
  split at hget
  · rw [Assoc.get?_remove] at hget
    split at hget
    · cases hget
    · rename_i hne
      exact ⟨hget, fun _ => hne⟩
  · rename_i hnarrow
    exact ⟨hget, fun hwide => absurd hwide hnarrow⟩

theorem get?_forgetBelow {kind' : TypeKind} {t : ℕ} (hget : Assoc.get? (forgetBelow slot known) t = some kind') :
    Assoc.get? known t = some kind' ∧ (isWide (some kind') = true → slot ≠ t + 1) := by
  cases slot with
  | zero => exact ⟨hget, fun _ h => nomatch h⟩
  | succ below =>
    unfold forgetBelow at hget
    dsimp only at hget
    split at hget
    · rw [Assoc.get?_remove] at hget
      split at hget
      · cases hget
      · rename_i hne
        exact ⟨hget, fun _ heq => hne (Nat.succ_inj.mp heq)⟩
    · rename_i hnarrow
      refine ⟨hget, fun hwide heq => hnarrow ?_⟩
      rw [Nat.succ_inj.mp heq, hget]
      exact hwide

theorem Sound.recordStore (h : Sound known ws) (slot : ℕ) (type : LocalType) :
    Sound (recordStore slot type.typeKind known) (ws ++ [⟨slot, type⟩]) := by
  refine ⟨nodup_recordStore h.keyed slot _, fun t kind hget => ?_⟩
  by_cases ht : t = slot
  · subst ht
    rw [ShadowCodeTransform.recordStore, Assoc.get?_set_self] at hget
    cases hget
    exact ⟨type, rfl, assigned_concat_self ws t type⟩
  · rw [ShadowCodeTransform.recordStore, Assoc.get?_set_ne _ _ (Ne.symm ht)] at hget
    obtain ⟨hget, hnext⟩ := get?_forgetNext hget
    obtain ⟨hold, hbelow⟩ := get?_forgetBelow hget
    obtain ⟨type', rfl, hassigned⟩ := h.assigned t kind hold
    rw [isWide_typeKind] at hnext hbelow
    refine ⟨type', rfl, hassigned.concat ?_ fun hwide => ?_⟩
    · simp only [Write.touches, Bool.or_eq_false_iff, Bool.and_eq_false_imp, decide_eq_false_iff_not]
      exact ⟨Ne.symm ht, hnext⟩
    · simp only [Write.touches, Bool.or_eq_false_iff, Bool.and_eq_false_imp, decide_eq_false_iff_not]
      exact ⟨hbelow hwide, fun _ h => ht (Nat.succ_inj.mp h).symm⟩

theorem Sound.accept (h : Sound known ws) {e : CodeElement} (he : e ≠ .labelTarget) :
    Sound (accept known e).1 (ws ++ e.writes) := by
  cases e with
  | labelTarget => exact absurd rfl he
  | store slot type => exact h.recordStore slot type
  | increment slot => exact h.recordStore slot .int
  | returnInstruction | invoke | field | arrayLoad | arrayStore | other =>
    change Sound known (ws ++ [])
    rw [List.append_nil]
    exact h

def EndBefore (n : ℕ) (ws : List Write) : Prop := ∀ w ∈ ws, w.slot + (if w.type.wide then 2 else 1) ≤ n

theorem EndBefore.param {n : ℕ} (h : EndBefore n ws) (kind : TypeKind) :
    EndBefore (n + kind.slotSize) (ws ++ [⟨n, .ofKind kind⟩]) := by
  intro w hw
  rcases List.mem_append.mp hw with hw | hw
  · exact (h w hw).trans (Nat.le_add_right n _)
  · rw [List.mem_singleton.mp hw, slotSize_eq]

theorem Assigned.param (h : Assigned ws slot type) {n : ℕ} (hbelow : EndBefore n ws) (type' : LocalType) :
    Assigned (ws ++ [⟨n, type'⟩]) slot type := by
  have hmem : ⟨slot, type⟩ ∈ ws := List.mem_reverse.mp (List.mem_of_find?_eq_some h.1)
  have hlt := hbelow _ hmem
  dsimp only at hlt
  refine h.concat ?_ fun hwide => ?_
  · simp only [Write.touches, Bool.or_eq_false_iff, Bool.and_eq_false_imp, decide_eq_false_iff_not]
    split at hlt <;> omega
  · rw [if_pos hwide] at hlt
    simp only [Write.touches, Bool.or_eq_false_iff, Bool.and_eq_false_imp, decide_eq_false_iff_not]
    omega

theorem Sound.param (h : Sound known ws) {n : ℕ} (hbelow : EndBefore n ws) (type : LocalType) :
    Sound (Assoc.set known n type.typeKind) (ws ++ [⟨n, type⟩]) := by
  refine ⟨Assoc.nodup_set h.keyed n _, fun t kind hget => ?_⟩
  rw [Assoc.get?_set] at hget
  split at hget
  · rename_i heq
    cases hget
    subst heq
    exact ⟨type, rfl, assigned_concat_self ws n type⟩
  · obtain ⟨type', rfl, hassigned⟩ := h.assigned t kind hget
    exact ⟨type', rfl, hassigned.param hbelow type⟩

theorem sound_paramsFrom (parameters : List TypeKind) {n : ℕ} (h : Sound known ws) (hbelow : EndBefore n ws) :
    Sound ((paramsFrom n parameters).foldl (fun known p => Assoc.set known p.1 p.2) known)
      (ws ++ declaredFrom n parameters) := by
  induction parameters generalizing n known ws with
  | nil =>
    rw [declaredFrom, List.append_nil]
    exact h
  | cons kind parameters ih =>
    have hone := h.param hbelow (.ofKind kind)
    rw [← storeKind_eq] at hone
    have hrest := ih hone (hbelow.param kind)
    rw [List.append_assoc] at hrest
    exact hrest

theorem Assigned.declaredFrom (parameters : List TypeKind) {n : ℕ} (h : Assigned ws slot type) (hbelow : EndBefore n ws) :
    Assigned (ws ++ declaredFrom n parameters) slot type := by
  induction parameters generalizing n ws with
  | nil =>
    rw [ShadowCodeTransform.declaredFrom, List.append_nil]
    exact h
  | cons kind parameters ih =>
    have hrest := ih (h.param hbelow (.ofKind kind)) (hbelow.param kind)
    rw [List.append_assoc] at hrest
    exact hrest

theorem assigned_paramsFrom (parameters : List TypeKind) {n : ℕ} (hbelow : EndBefore n ws) {p : ℕ × TypeKind}
    (hp : p ∈ paramsFrom n parameters) {load : LocalType} (hload : emitCapture p.1 p.2 = .capture slot load) :
    Assigned (ws ++ declaredFrom n parameters) slot load := by
  induction parameters generalizing n ws with
  | nil => cases hp
  | cons kind parameters ih =>
    have hsplit : ws ++ declaredFrom n (kind :: parameters) =
        (ws ++ [⟨n, .ofKind kind⟩]) ++ declaredFrom (n + kind.slotSize) parameters := by
      rw [List.append_assoc]
      rfl
    rw [hsplit]
    rcases List.mem_cons.mp hp with rfl | hp
    · rw [storeKind_eq, emitCapture_typeKind, Emitted.capture.injEq] at hload
      rw [← hload.1, ← hload.2]
      exact (assigned_concat_self ws n _).declaredFrom parameters (hbelow.param kind)
    · exact ih (hbelow.param kind) hp

theorem endBefore_this : EndBefore 1 [⟨0, .reference⟩] := by
  intro w hw
  rw [List.mem_singleton.mp hw]
  decide

theorem sound_initial (isStatic : Bool) (parameterList : List TypeKind) :
    Sound (initialKnown (paramSlots isStatic parameterList)) (declared isStatic parameterList) := by
  cases isStatic with
  | true => exact sound_paramsFrom parameterList (sound_nil []) (fun _ hw => nomatch hw)
  | false =>
    have hthis : Sound [(0, .REFERENCE)] [⟨0, .reference⟩] :=
      (sound_nil []).param (n := 0) (fun _ hw => nomatch hw) .reference
    exact sound_paramsFrom parameterList hthis endBefore_this

theorem assigned_atStart (isStatic : Bool) (parameterList : List TypeKind) {load : LocalType}
    (h : .capture slot load ∈ atStart (paramSlots isStatic parameterList)) :
    Assigned (declared isStatic parameterList) slot load := by
  rcases List.mem_cons.mp h with h | h
  · cases h
  obtain ⟨p, hp, hload⟩ := List.mem_map.mp h
  cases isStatic with
  | true =>
    have hnone : EndBefore 0 [] := fun _ hw => nomatch hw
    exact assigned_paramsFrom parameterList hnone hp hload
  | false =>
    rcases List.mem_cons.mp hp with rfl | hp
    · cases hload
      exact (assigned_concat_self [] 0 .reference).declaredFrom parameterList endBefore_this
    · exact assigned_paramsFrom parameterList endBefore_this hp hload

theorem knownAt_succ (params : List (ℕ × TypeKind)) {body : List CodeElement} {i : ℕ} {e : CodeElement}
    (he : body[i]? = some e) : knownAt params body (i + 1) = (accept (knownAt params body i) e).1 := by
  rw [knownAt, List.take_add_one, he, List.foldl_append]
  rfl

theorem Reaches.sound {isStatic : Bool} {parameterList : List TypeKind} {body : List CodeElement} {i : ℕ}
    (h : Reaches body (declared isStatic parameterList) i ws) :
    body[i]? = some .labelTarget ∨ Sound (knownAt (paramSlots isStatic parameterList) body i) ws := by
  induction h with
  | start => exact .inr (sound_initial isStatic parameterList)
  | @next i ws e _ he ih =>
    right
    rw [knownAt_succ _ he]
    by_cases hlabel : e = .labelTarget
    · subst hlabel
      exact sound_nil _
    · rcases ih with ih | ih
      · rw [he] at ih
        cases ih
        exact absurd rfl hlabel
      · exact ih.accept hlabel
  | jump _ _ hj _ _ => exact .inl hj

theorem mem_emittedAt {params : List (ℕ × TypeKind)} {body : List CodeElement} {i : ℕ} {load : LocalType}
    (h : .capture slot load ∈ emittedAt params body i) :
    body[i]? ≠ some .labelTarget ∧ ∃ en ∈ knownAt params body i, emitCapture en.1 en.2 = .capture slot load := by
  unfold emittedAt at h
  split at h
  · rename_i e he
    cases e with
    | labelTarget | store | increment | returnInstruction => simp [accept] at h
    | other => simp [accept, isThrowCapable] at h
    | invoke | field | arrayLoad | arrayStore =>
      refine ⟨by simp [he], ?_⟩
      simpa [accept, isThrowCapable] using h
  · cases h

theorem Sound.assigned_of_mem (h : Sound known ws) {en : ℕ × TypeKind} (hen : en ∈ known) {load : LocalType}
    (hload : emitCapture en.1 en.2 = .capture slot load) : Assigned ws slot load := by
  obtain ⟨type, htype, hassigned⟩ := h.assigned en.1 en.2 (Assoc.get?_of_mem h.keyed hen)
  rw [htype, emitCapture_typeKind, Emitted.capture.injEq] at hload
  rw [← hload.1, ← hload.2]
  exact hassigned

/-- Every load that the transform emits reads a slot that was last written, on every way to it, with just its type. -/
theorem emitted_loads_assigned (isStatic : Bool) (parameterList : List TypeKind) (body : List CodeElement) :
    (∀ slot load, .capture slot load ∈ atStart (paramSlots isStatic parameterList) →
        Assigned (declared isStatic parameterList) slot load) ∧
      ∀ i ws, Reaches body (declared isStatic parameterList) i ws →
        ∀ slot load, .capture slot load ∈ emittedAt (paramSlots isStatic parameterList) body i →
          Assigned ws slot load := by
  constructor
  · exact fun slot load h => assigned_atStart isStatic parameterList h
  · intro i ws hreach slot load hload
    obtain ⟨hlabel, en, hen, hcapture⟩ := mem_emittedAt hload
    rcases hreach.sound with h | h
    · exact absurd h hlabel
    · exact h.assigned_of_mem hen hcapture

theorem emitted_loads_assigned_halved :
    emittedAt (paramSlots false []) [.store 1 .long, .store 2 .int, .invoke] 2 =
        [.capture 0 .reference, .capture 2 .int, .element .invoke] ∧
      Assigned [⟨0, .reference⟩, ⟨1, .long⟩, ⟨2, .int⟩] 2 .int := by
  refine ⟨by decide, ?_⟩
  apply (emitted_loads_assigned false [] [.store 1 .long, .store 2 .int, .invoke]).2 2
  · exact Reaches.next (e := .store 2 .int) (Reaches.next (e := .store 1 .long) .start rfl) rfl
  · decide

end JvmScout.Agent.ShadowCodeTransform
