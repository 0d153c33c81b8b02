import JvmScout.Agent.InjectedCalls

namespace JvmScout.Agent.InstrumentedCode

open CallMachine JvmtiShadow ShadowCodeTransform Stutter

variable {O L C M R W : Type}

/-- The return instructions of the program return, with the monitors of their methods left, and no
other ones do. -/
def Orderly (jvm : Jvm O L C M R W) (program : M → Option (MethodModel O L C)) : Prop :=
  ∀ m mm, program m = some mm → ∀ i ∈ mm.code.body, ∀ locals stack w effect locals' w',
    jvm.exec locals stack w i = some (effect, locals', w') →
      ((∃ v, effect = .returns v) ↔ i.element = .returnInstruction)

section Frames

variable (jvm : Jvm O L C M R W) (program : M → Option (MethodModel O L C))

structure Reached (mm : MethodModel O L C) (f : Frame (Instruction O L) L C (Value R)) : Prop where
  loaded : ∃ m, program m = some mm
  transformed : mm.method.instrumented = true
  code : f.code = mm.code
  way : ∃ ws, Reaches (elements f.code.body) (declared mm.isStatic mm.parameterList) f.pc ws ∧ Holds f.locals ws

def unchangedFrame (f : Frame (Instruction O L) L C (Value R)) :
    Frame (Rewritten O L) (BoundLabel L) C (Value R) :=
  ⟨unchanged f.code, f.pc, f.locals, f.stack⟩

def startFrame (mm : MethodModel O L C) (f : Frame (Instruction O L) L C (Value R)) :
    Frame (Rewritten O L) (BoundLabel L) C (Value R) :=
  ⟨transformCode mm.params f.code, startOf mm.params f.code.body f.pc, f.locals, f.stack⟩

def placedFrame (mm : MethodModel O L C) (f : Frame (Instruction O L) L C (Value R)) :
    Frame (Rewritten O L) (BoundLabel L) C (Value R) :=
  ⟨transformCode mm.params f.code, place mm.params f.code.body f.pc, f.locals, f.stack⟩

def caughtFrame (mm : MethodModel O L C) (f : Frame (Instruction O L) L C (Value R)) (x : Value R) :
    Frame (Rewritten O L) (BoundLabel L) C (Value R) :=
  ⟨transformCode mm.params f.code, startOf mm.params f.code.body f.code.body.length + 3, f.locals, [x]⟩

def Shown (mm : MethodModel O L C) (f : Frame (Instruction O L) L C (Value R)) (d : ℕ) (sh : JvmtiShadow (Value R)) :
    Prop :=
  d < maxDepth → ∀ i, f.code.body[f.pc]? = some i → isThrowCapable i.element = true →
    ∀ en ∈ knownAt mm.params (elements f.code.body) f.pc, en.1 < maxSlots →
      sh.frames d en.1 = (f.locals en.1).bind Value.boxed

inductive Alike (sh : JvmtiShadow (Value R)) (d : ℕ) (f : Frame (Instruction O L) L C (Value R)) :
    Frame (Rewritten O L) (BoundLabel L) C (Value R) → Prop
  | unchanged : Alike sh d f (unchangedFrame f)
  | placed {mm : MethodModel O L C} (hreach : Reached program mm f) (hpc : f.pc < f.code.body.length)
      (hshown : Orderly jvm program → Shown mm f d sh) : Alike sh d f (placedFrame mm f)

def Suspended (f : Frame (Instruction O L) L C (Value R)) : Prop :=
  ∃ i, f.code.body[f.pc]? = some i ∧ i.element.writes = []

def popped (f : Frame (Instruction O L) L C (Value R)) : Bool :=
  (f.code.body[f.pc]?).any fun i => i.element = .returnInstruction

def isTransformed (f' : Frame (Rewritten O L) (BoundLabel L) C (Value R)) : Bool :=
  match f'.code.body.head? with
  | some (.labelTarget .tryStart) => true
  | _ => false

def shadowed (below' : List (Frame (Rewritten O L) (BoundLabel L) C (Value R))) : ℕ := below'.countP isTransformed

inductive Below (sh : JvmtiShadow (Value R)) : List (Frame (Instruction O L) L C (Value R)) →
    List (Frame (Rewritten O L) (BoundLabel L) C (Value R)) → Prop
  | nil : Below sh [] []
  | cons {f f' below below'} (hf : Alike jvm program sh (shadowed below') f f') (hsuspended : Suspended f)
      (hbelow : Below sh below below') : Below sh (f :: below) (f' :: below')

def Counts (sh : JvmtiShadow (Value R)) (n : ℕ) : Prop := Orderly jvm program → sh.depth + 1 = n

inductive ThreadAlike [DecidableEq L] (sh : JvmtiShadow (Value R)) :
    Thread (Instruction O L) L C (Value R) → Thread (Rewritten O L) (BoundLabel L) C (Value R) → Prop
  | running {f f' below below'} (hf : Alike jvm program sh (shadowed below') f f')
      (hbelow : Below jvm program sh below below')
      (hcounts : Counts jvm program sh (if popped f then shadowed below' else shadowed (f' :: below'))) :
      ThreadAlike sh (.running f below) (.running f' below')
  | unwinding {x f below below'} (hbelow : Below jvm program sh below below')
      (hcounts : Counts jvm program sh (shadowed below')) :
      ThreadAlike sh (.unwinding x f below) (.unwinding x (unchangedFrame f) below')
  | caught {x f f' below below' pc} (hf : Alike jvm program sh (shadowed below') f f')
      (hcaught : (source jvm program).handlerOf f.code f.pc x = some pc) (hbelow : Below jvm program sh below below')
      (hcounts : Counts jvm program sh (shadowed (f' :: below'))) :
      ThreadAlike sh (.unwinding x f below) (.unwinding x f' below')
  | passing {x f below below' mm} (huncaught : (source jvm program).handlerOf f.code f.pc x = none)
      (hbelow : Below jvm program sh below below') (hcounts : Counts jvm program sh (shadowed below')) :
      ThreadAlike sh (.unwinding x f below) (.unwinding x (caughtFrame mm f x) below')
  | returned (v : Option (Value R)) : ThreadAlike sh (.returned v) (.returned v)
  | uncaught (x : Value R) : ThreadAlike sh (.uncaught x) (.uncaught x)

def Match [DecidableEq L] (a : Thread (Instruction O L) L C (Value R) × Unit)
    (b : Thread (Rewritten O L) (BoundLabel L) C (Value R) × JvmtiShadow (Value R)) : Prop :=
  ThreadAlike jvm program b.2 a.1 b.1

abbrev Settled [DecidableEq L] := Settles (instrumented jvm program).advance ended Between (Match jvm program)

end Frames

section Stacks

variable {jvm : Jvm O L C M R W} {program : M → Option (MethodModel O L C)} {mm : MethodModel O L C}
  {f : Frame (Instruction O L) L C (Value R)} {f' : Frame (Rewritten O L) (BoundLabel L) C (Value R)}
  {below : List (Frame (Instruction O L) L C (Value R))}
  {below' : List (Frame (Rewritten O L) (BoundLabel L) C (Value R))}
  {sh sh' : JvmtiShadow (Value R)} {i : Instruction O L} {pc : ℕ} {w w' : W} {effect : Effect L (Value R) M}
  {locals' : Locals R}

theorem isTransformed_unchanged (f : Frame (Instruction O L) L C (Value R)) :
    isTransformed (unchangedFrame f) = false := by
  obtain ⟨⟨body, handlers⟩, pc, locals, stack⟩ := f
  cases body <;> rfl

theorem shadowed_unchanged : shadowed (unchangedFrame f :: below') = shadowed below' :=
  List.countP_cons_of_neg (by rw [isTransformed_unchanged]; exact Bool.false_ne_true)

theorem shadowed_transformed (pc : ℕ) (locals : Locals R) (stack : List (Value R)) (code : Code (Instruction O L) L C) :
    shadowed (⟨transformCode mm.params code, pc, locals, stack⟩ :: below') = shadowed below' + 1 :=
  List.countP_cons_of_pos rfl

theorem shadowed_split {frames : List (Frame (Rewritten O L) (BoundLabel L) C (Value R))} {n : ℕ}
    (hf : frames[n]? = some f') (htransformed : isTransformed f' = true) :
    shadowed frames = shadowed (frames.take n) + (shadowed (frames.drop (n + 1)) + 1) := by
  obtain ⟨hlt, hget⟩ := List.getElem?_eq_some_iff.mp hf
  have hdrop := List.drop_eq_getElem_cons hlt
  rw [hget] at hdrop
  have hcons : shadowed (f' :: frames.drop (n + 1)) = shadowed (frames.drop (n + 1)) + 1 :=
    List.countP_cons_of_pos htransformed
  rw [← hcons, ← hdrop, shadowed, shadowed, shadowed, ← List.countP_append, List.take_append_drop]

theorem shadowed_le_cons : shadowed below' ≤ shadowed (f' :: below') := by
  unfold shadowed
  rw [List.countP_cons]
  exact Nat.le_add_right _ _

theorem Below.frame (h : Below jvm program sh below below')
    (hsame : Orderly jvm program → ∀ n < shadowed below', sh'.frames n = sh.frames n) :
    Below jvm program sh' below below' := by
  induction h with
  | nil => exact .nil
  | @cons f f' below below' hf hsuspended hbelow ih =>
    refine .cons ?_ hsuspended (ih fun horderly n hn => hsame horderly n (hn.trans_le shadowed_le_cons))
    cases hf with
    | unchanged => exact .unchanged
    | placed hreach hpc hshown =>
      refine .placed hreach hpc fun horderly hd i hi hcapable en hen hlow => ?_
      rw [hsame horderly _ (by rw [placedFrame, shadowed_transformed]; exact Nat.lt_succ_self _)]
      exact hshown horderly hd i hi hcapable en hen hlow

theorem Orderly.popped (h : Orderly jvm program) (hreach : Reached program mm f) (hi : f.code.body[f.pc]? = some i)
    (hexec : jvm.exec f.locals f.stack w i = some (effect, locals', w')) :
    popped f = true ↔ ∃ v, effect = .returns v := by
  obtain ⟨m, hm⟩ := hreach.loaded
  have hmem : i ∈ mm.code.body := by
    rw [← hreach.code]
    exact List.mem_of_getElem? hi
  rw [h m mm hm i hmem _ _ _ _ _ _ hexec, InstrumentedCode.popped, hi, Option.any_some, decide_eq_true_eq]

theorem counts_stay {d : ℕ} (hf : Alike jvm program sh d f f') (hi : f.code.body[f.pc]? = some i)
    (hexec : jvm.exec f.locals f.stack w i = some (effect, locals', w')) (hno : ∀ v, effect ≠ .returns v)
    (hcounts : Counts jvm program sh (if popped f then shadowed below' else shadowed (f' :: below'))) :
    Counts jvm program sh (shadowed (f' :: below')) := by
  intro horderly
  have hcount := hcounts horderly
  cases hf with
  | unchanged => rwa [shadowed_unchanged, ite_self, ← shadowed_unchanged (f := f)] at hcount
  | placed hreach hpc hshown =>
    rwa [if_neg fun hpopped => ((horderly.popped hreach hi hexec).mp hpopped).elim hno] at hcount

theorem counts_returned {d : ℕ} {v : Option (Value R)} (hf : Alike jvm program sh d f f')
    (hi : f.code.body[f.pc]? = some i) (hexec : jvm.exec f.locals f.stack w i = some (.returns v, locals', w'))
    (hcounts : Counts jvm program sh (if popped f then shadowed below' else shadowed (f' :: below'))) :
    Counts jvm program sh (shadowed below') := by
  intro horderly
  have hcount := hcounts horderly
  cases hf with
  | unchanged => rwa [shadowed_unchanged, ite_self] at hcount
  | placed hreach hpc hshown => rwa [if_pos ((horderly.popped hreach hi hexec).mpr ⟨v, rfl⟩)] at hcount

theorem counts_unchanged (hcounts : Counts jvm program sh (shadowed (unchangedFrame f :: below'))) :
    Counts jvm program sh (shadowed below') := by
  rw [shadowed_unchanged] at hcounts
  exact hcounts

theorem Alike.withStack {d : ℕ} (hf : Alike jvm program sh d f f') (stack : List (Value R)) :
    Alike jvm program sh d { f with stack := stack } { f' with locals := f.locals, stack := stack } := by
  cases hf with
  | unchanged => exact .unchanged
  | placed hreach hpc hshown =>
    exact .placed ⟨hreach.loaded, hreach.transformed, hreach.code, hreach.way⟩ hpc hshown

theorem popped_label {l : L} (hl : f.code.body[f.pc]? = some (.labelTarget l)) : popped f = false := by
  rw [popped, hl]
  rfl

theorem element_at (hi : f.code.body[f.pc]? = some i) : (elements f.code.body)[f.pc]? = some i.element := by
  rw [elements, List.getElem?_map, hi]
  rfl

theorem Reached.next (h : Reached program mm f) (hi : f.code.body[f.pc]? = some i)
    (hexec : jvm.exec f.locals f.stack w i = some (effect, locals', w')) (stack : List (Value R)) :
    Reached program mm { f with pc := f.pc + 1, locals := locals', stack := stack } := by
  obtain ⟨ws, hway, hholds⟩ := h.way
  exact ⟨h.loaded, h.transformed, h.code, _, hway.next (element_at hi), hholds.exec hexec⟩

theorem Reached.resume (h : Reached program mm f) (hsuspended : Suspended f) (stack : List (Value R)) :
    Reached program mm { f with pc := f.pc + 1, stack := stack } := by
  obtain ⟨i, hi, hwrites⟩ := hsuspended
  obtain ⟨ws, hway, hholds⟩ := h.way
  have hnext := hway.next (element_at hi)
  rw [hwrites, List.append_nil] at hnext
  exact ⟨h.loaded, h.transformed, h.code, ws, hnext, hholds⟩

theorem Reached.jump (h : Reached program mm f) (hpc : f.pc < f.code.body.length) {l : L}
    (hl : f.code.body[pc]? = some (.labelTarget l)) (stack : List (Value R)) :
    Reached program mm { f with pc := pc, stack := stack } := by
  obtain ⟨ws, hway, hholds⟩ := h.way
  have hfrom := element_at (List.getElem?_eq_getElem hpc)
  refine ⟨h.loaded, h.transformed, h.code, ws, hway.jump hfrom ?_ (.inl rfl), hholds⟩
  change (elements f.code.body)[pc]? = _
  rw [elements, List.getElem?_map, hl]
  rfl

theorem alike_label {l : L} {d : ℕ} (hreach : Reached program mm f) (hl : f.code.body[f.pc]? = some (.labelTarget l)) :
    Alike jvm program sh d f (startFrame mm f) := by
  have hshown : Shown mm f d sh := by
    intro _ i hi hcapable
    rw [hl] at hi
    cases hi
    cases hcapable
  have hplaced : Alike jvm program sh d f (placedFrame mm f) :=
    .placed hreach (List.getElem?_eq_some_iff.mp hl).1 fun _ => hshown
  rw [placedFrame, place_label hl] at hplaced
  exact hplaced

theorem alike_exec {d : ℕ} (hf : Alike jvm program sh d f f') (hi : f.code.body[f.pc]? = some i) :
    f'.code.body[f'.pc]? = some (.original i) ∧
      (instrumented jvm program).exec (.original i) f'.locals f'.stack sh w =
        (jvm.exec f.locals f.stack w i).map fun (effect, locals, w) => (effect.relabel .own, locals, sh, w) := by
  cases hf with
  | unchanged =>
    refine ⟨?_, rfl⟩
    change (f.code.body.map Rewritten.original)[f.pc]? = _
    rw [List.getElem?_map, hi]
    rfl
  | placed hreach hpc => exact ⟨getElem?_place hi, rfl⟩

theorem alike_element {d : ℕ} (hf : Alike jvm program sh d f f') (hi : f'.code.body[f'.pc]? = some (.original i)) :
    f.code.body[f.pc]? = some i := by
  cases hf with
  | unchanged =>
    change (f.code.body.map Rewritten.original)[f.pc]? = _ at hi
    rw [List.getElem?_map] at hi
    obtain ⟨i', hi', heq⟩ := Option.map_eq_some_iff.mp hi
    cases heq
    exact hi'
  | @placed mm hreach hpc hshown =>
    have hplace : (transformCode mm.params f.code).body[place mm.params f.code.body f.pc]? =
        some (.original f.code.body[f.pc]) := getElem?_place (List.getElem?_eq_getElem hpc)
    cases hplace.symm.trans hi
    exact List.getElem?_eq_getElem hpc

theorem Below.get (h : Below jvm program sh below below') {n : ℕ}
    {g' : Frame (Rewritten O L) (BoundLabel L) C (Value R)} (hg : below'[n]? = some g') :
    ∃ g, Alike jvm program sh (shadowed (below'.drop (n + 1))) g g' := by
  induction h generalizing n with
  | nil => cases hg
  | @cons f f' below below' hf hsuspended hbelow ih =>
    cases n with
    | zero =>
      cases hg
      exact ⟨f, hf⟩
    | succ n => exact ih hg

theorem enterFrame_none {m : M} {args : List (Value R)} (h : (source jvm program).enterFrame m args = none) :
    (instrumented jvm program).enterFrame m args = none := by
  simp only [Language.enterFrame, source, instrumented, Option.map_eq_none_iff, Option.bind_eq_bind,
    Option.bind_eq_none_iff] at h ⊢
  intro mm hmm locals hlocals
  exact absurd (h mm hmm locals hlocals) (by simp)

end Stacks

end JvmScout.Agent.InstrumentedCode
