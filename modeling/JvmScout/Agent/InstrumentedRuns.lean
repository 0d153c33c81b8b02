import JvmScout.Agent.InstrumentedFrames

/-!
What a program does with the code of its methods transformed, against what it did before: between
the injected instructions, which no other thread notices, is what the original does.
-/

namespace JvmScout.Agent.InstrumentedCode

open CallMachine JvmtiShadow ShadowCodeTransform Stutter

variable {O L C M R W : Type}

section Steps

variable [DecidableEq L] {jvm : Jvm O L C M R W} {program : M → Option (MethodModel O L C)} {mm : MethodModel O L C}
  {f : Frame (Instruction O L) L C (Value R)} {f' : Frame (Rewritten O L) (BoundLabel L) C (Value R)}
  {below : List (Frame (Instruction O L) L C (Value R))}
  {below' : List (Frame (Rewritten O L) (BoundLabel L) C (Value R))}
  {sh : JvmtiShadow (Value R)} {i : Instruction O L} {pc : ℕ} {w w' : W} {effect : Effect L (Value R) M}
  {locals' : Locals R} {x : Value R}

theorem settle_start (hreach : Reached program mm f) (hpc : f.pc < f.code.body.length)
    (hbelow : Below jvm program sh below below') (hcounts : Counts jvm program sh (shadowed below' + 1)) :
    Settled jvm program (.running f below, ()) (.running (startFrame mm f) below', sh) := by
  obtain ⟨ws, hway, hholds⟩ := hreach.way
  have hi := List.getElem?_eq_getElem hpc
  generalize f.code.body[f.pc] = i at hi
  let known := knownAt mm.params (elements f.code.body) f.pc
  have hemitted : emittedAt mm.params (elements f.code.body) f.pc = (accept known i.element).2 := by
    rw [emittedAt, element_at hi]
  have hinjected : injectedAt mm.params f.code.body f.pc = (accept known i.element).2.flatMap (emit []) := by
    rw [injectedAt, hi]
    rfl
  have hloads : ∀ slot load, .capture slot load ∈ (accept known i.element).2 →
      ∃ v, f.locals slot = some v ∧ v.type = load := by
    intro slot load hload
    rw [← hemitted] at hload
    obtain ⟨hlabel, en, hen, hcapture⟩ := mem_emittedAt hload
    rcases hway.sound with h | h
    · exact absurd h hlabel
    · exact hholds.values slot load (h.assigned_of_mem hen hcapture)
  have hpath : Relation.ReflTransGen (Quiet jvm program) (.running (startFrame mm f) below', sh)
      (.running (placedFrame mm f) below', (accept known i.element).2.foldl (injectedRun f.locals) sh) :=
    injected_path hinjected (transformCode_body hi) hloads sh
  generalize hsh' : (accept known i.element).2.foldl (injectedRun f.locals) sh = sh' at hpath
  have hshadow : Orderly jvm program → (∀ n < shadowed below', sh'.frames n = sh.frames n) ∧
      sh'.depth = (if i.element = .returnInstruction then (shadowed below' : ℤ) - 1 else shadowed below') ∧
      (isThrowCapable i.element = true → shadowed below' < maxDepth → ∀ en ∈ known, en.1 < maxSlots →
        sh'.frames (shadowed below') en.1 = (f.locals en.1).bind Value.boxed) := by
    intro horderly
    have hdepth : sh.depth = shadowed below' := by
      have hcount := hcounts horderly
      push_cast at hcount
      omega
    rcases hway.sound with h | h
    · rw [element_at hi, Option.some.injEq] at h
      rw [h] at hsh' ⊢
      subst hsh'
      exact ⟨fun _ _ => rfl, hdepth, fun hcapable => by cases hcapable⟩
    · refine accept_shadow h.keyed (fun en hen => ?_) i.element hdepth hsh'.symm
      obtain ⟨type, -, hassigned⟩ := h.assigned en.1 en.2 (Assoc.get?_of_mem h.keyed hen)
      exact hholds.bounded_of_assigned hassigned
  refine ⟨_, hpath, .running (.placed hreach hpc ?_) (hbelow.frame fun horderly => (hshadow horderly).1) ?_⟩
  · intro horderly hd j hj hcapable
    rw [hi] at hj
    cases hj
    exact (hshadow horderly).2.2 hcapable hd
  · intro horderly
    have hdepth := (hshadow horderly).2.1
    rw [placedFrame, shadowed_transformed, popped, hi, Option.any_some, hdepth]
    by_cases hreturn : i.element = .returnInstruction
    · simp [hreturn]
    · simp [hreturn]

theorem match_unchanged (hbelow : Below jvm program sh below below')
    (hcounts : Counts jvm program sh (shadowed below')) :
    Settled jvm program (.running f below, ()) (.running (unchangedFrame f) below', sh) := by
  refine .of_match (.running .unchanged hbelow ?_)
  rw [shadowed_unchanged, ite_self]
  exact hcounts

theorem settle_callee {m : M} {args : List (Value R)} (henter : (source jvm program).enterFrame m args = some f)
    (hwell : f.pc < f.code.body.length) :
    ∃ f', (instrumented jvm program).enterFrame m args = some f' ∧
      ∀ sh, Below jvm program sh below below' → Counts jvm program sh (shadowed below') →
        Settled jvm program (.running f below, ()) (.running f' below', sh) := by
  simp only [Language.enterFrame, source, Option.map_eq_some_iff, Option.bind_eq_bind,
    Option.bind_eq_some_iff] at henter
  obtain ⟨r, ⟨mm, hmm, locals, hlocals, hr⟩, hf⟩ := henter
  cases hr
  subst hf
  refine ⟨⟨loadedCode mm, 0, locals, []⟩, ?_, fun sh hbelow hcounts => ?_⟩
  · simp [Language.enterFrame, instrumented, hmm, hlocals]
  by_cases hinstrumented : mm.method.instrumented = true
  · rw [loadedCode, if_pos hinstrumented]
    have hholds := holds_none.parameters hlocals
    rw [List.nil_append] at hholds
    have hreach : Reached program mm ⟨mm.code, 0, locals, []⟩ := ⟨⟨m, hmm⟩, hinstrumented, rfl, _, .start, hholds⟩
    have hlabel : Quiet jvm program (.running ⟨transformCode mm.params mm.code, 0, locals, []⟩ below', sh)
        (.running ⟨transformCode mm.params mm.code, 1, locals, []⟩ below', sh) :=
      quiet_step (r := .labelTarget .tryStart) rfl (by simp) fun w => rfl
    have hloads : ∀ slot load, .capture slot load ∈ atStart mm.params → ∃ v, locals slot = some v ∧ v.type = load :=
      fun slot load hload => hholds.values slot load (assigned_atStart mm.isStatic mm.parameterList hload)
    have hbody : (transformCode mm.params mm.code).body = [.labelTarget .tryStart] ++
        ((atStart mm.params).flatMap (emit []) ++ (rewriteFrom (initialKnown mm.params) mm.code.body ++ atEnd)) := by
      simp only [transformCode, enterParams, List.cons_append, List.nil_append, List.append_assoc]
    have hpath : Relation.ReflTransGen (Quiet jvm program)
        (.running ⟨transformCode mm.params mm.code, 1, locals, []⟩ below', sh)
        (.running ⟨transformCode mm.params mm.code, 1 + ((atStart mm.params).flatMap (emit [])).length, locals, []⟩
          below', (atStart mm.params).foldl (injectedRun locals) sh) := injected_path rfl hbody hloads sh
    have hcaptures : ∀ e ∈ mm.params.map fun p => emitCapture p.1 p.2, ∃ slot load, e = .capture slot load := by
      intro e he
      obtain ⟨p, -, rfl⟩ := List.mem_map.mp he
      exact capture_emitCapture p
    obtain ⟨hsame, hframes⟩ := captures_frame locals hcaptures sh.enterMethod
    have hpc : startOf mm.params mm.code.body 0 =
        1 + ((atStart mm.params).flatMap (emit [] : _ → List (Rewritten O L))).length := by
      simp only [startOf, enterParams, List.take_zero, rewriteFrom, List.append_nil, List.length_cons]
      omega
    have hstart : Settled jvm program (.running ⟨mm.code, 0, locals, []⟩ below, ())
        (.running (startFrame mm ⟨mm.code, 0, locals, []⟩) below',
          (atStart mm.params).foldl (injectedRun locals) sh) := settle_start hreach hwell (hbelow.frame ?_) ?_
    · rw [startFrame, hpc] at hstart
      exact (hstart.of_path hpath).head hlabel
    · intro horderly n hn
      have hcount := hcounts horderly
      refine (hframes n ?_).trans (ShadowBalance.enterMethod_frames ?_)
      · rw [ShadowBalance.enterMethod_depth]
        omega
      · omega
    · intro horderly
      have hcount := hcounts horderly
      push_cast
      rw [← hcount]
      exact congrArg (· + 1) hsame
  · rw [loadedCode, if_neg hinstrumented]
    exact match_unchanged hbelow hcounts

theorem settle_next (hreach : Reached program mm { f with pc := f.pc + 1 }) (hi : f.code.body[f.pc]? = some i)
    (hwell : f.pc + 1 < f.code.body.length) (hbelow : Below jvm program sh below below')
    (hcounts : Counts jvm program sh (shadowed below' + 1)) :
    Settled jvm program (.running { f with pc := f.pc + 1 } below, ())
      (.running { placedFrame mm f with pc := place mm.params f.code.body f.pc + 1 } below', sh) := by
  have hstart := settle_start hreach hwell hbelow hcounts
  rw [startFrame, startOf_succ hi] at hstart
  exact hstart

theorem settle_resume {d : ℕ} (hf : Alike jvm program sh d f f') (hsuspended : Suspended f)
    (hwell : f.pc + 1 < f.code.body.length) (hbelow : Below jvm program sh below below')
    (hcounts : Counts jvm program sh (shadowed (f' :: below'))) (v : Option (Value R)) :
    Settled jvm program (.running { f with pc := f.pc + 1, stack := v.toList ++ f.stack } below, ())
      (.running { f' with pc := f'.pc + 1, stack := v.toList ++ f'.stack } below', sh) := by
  cases hf with
  | unchanged =>
    rw [shadowed_unchanged] at hcounts
    exact match_unchanged hbelow hcounts
  | placed hreach hpc hshown =>
    have hnext := hreach.resume hsuspended (v.toList ++ f.stack)
    rw [placedFrame, shadowed_transformed] at hcounts
    have hi := List.getElem?_eq_getElem hpc
    exact settle_next (f := { f with stack := v.toList ++ f.stack }) hnext hi hwell hbelow hcounts

theorem settle_unwinding (hf : Alike jvm program sh (shadowed below') f f') (hbelow : Below jvm program sh below below')
    (hcounts : Counts jvm program sh (shadowed (f' :: below'))) :
    Settled jvm program (.unwinding x f below, ()) (.unwinding x f' below', sh) := by
  cases hcaught : (source jvm program).handlerOf f.code f.pc x with
  | some target => exact .of_match (.caught hf hcaught hbelow hcounts)
  | none =>
    cases hf with
    | unchanged =>
      rw [shadowed_unchanged] at hcounts
      exact .of_match (.unwinding hbelow hcounts)
    | @placed mm hreach hpc hshown =>
      rw [placedFrame, shadowed_transformed] at hcounts
      have hhandler : (instrumented jvm program).handlerOf (transformCode mm.params f.code)
          (place mm.params f.code.body f.pc) x =
            some (((source jvm program).handlerOf f.code f.pc x).elim
              (startOf mm.params f.code.body f.code.body.length + 1) (startOf mm.params f.code.body)) :=
        handlerOf_place (List.getElem?_eq_getElem hpc)
      rw [hcaught] at hhandler
      let last := startOf mm.params f.code.body f.code.body.length
      let code := transformCode mm.params f.code
      have hbody (k : ℕ) : code.body[last + k]? = (atEnd : List (Rewritten O L))[k]? := by
        change (transformCode mm.params f.code).body[startOf mm.params f.code.body f.code.body.length + k]? = _
        rw [startOf_end, transformCode, List.getElem?_append_right (Nat.le_add_right _ _), Nat.add_sub_cancel_left]
      have hcatch : Quiet jvm program (.unwinding x (placedFrame mm f) below', sh)
          (.running ⟨code, last + 1, f.locals, [x]⟩ below', sh) := by
        refine ⟨trivial, rfl, fun w => ?_⟩
        simp only [Language.advance, Language.unwind, placedFrame, hhandler]
        rfl
      have hlabel : Quiet jvm program (.running ⟨code, last + 1, f.locals, [x]⟩ below', sh)
          (.running ⟨code, last + 2, f.locals, [x]⟩ below', sh) :=
        quiet_step (hbody 1) (by simp) fun w => rfl
      have hexit : Quiet jvm program (.running ⟨code, last + 2, f.locals, [x]⟩ below', sh)
          (.running ⟨code, last + 3, f.locals, [x]⟩ below', sh.exitMethod) :=
        quiet_step (hbody 2) (by simp) fun w => rfl
      have hthrow : Quiet jvm program (.running ⟨code, last + 3, f.locals, [x]⟩ below', sh.exitMethod)
          (.unwinding x (caughtFrame mm f x) below', sh.exitMethod) := by
        refine ⟨fun i hi => ?_, rfl, fun w => ?_⟩
        · rw [hbody 3] at hi
          cases hi
        · rw [Language.advance_running (hbody 3) rfl]
          rfl
      refine ⟨_, .head hcatch (.head hlabel (.head hexit (.single hthrow))), .passing hcaught (hbelow.frame ?_) ?_⟩
      · intro horderly n hn
        have hcount := hcounts horderly
        apply ShadowBalance.exitMethod_frames
        push_cast at hcount
        omega
      · intro horderly
        have hcount := hcounts horderly
        push_cast at hcount
        change sh.exitMethod.depth + 1 = _
        rw [ShadowBalance.exitMethod_depth, if_pos (by omega)]
        omega

theorem settle_leave (hbelow : Below jvm program sh below below')
    (hcounts : Counts jvm program sh (shadowed below')) :
    Settled jvm program (Language.leave x below, ()) (Language.leave x below', sh) := by
  cases hbelow with
  | nil => exact .of_match (.uncaught x)
  | cons hf hsuspended hbelow => exact settle_unwinding hf hbelow hcounts

theorem find_label {l : L} (h : (source jvm program).find f.code.body l = some pc) :
    f.code.body[pc]? = some (.labelTarget l) := by
  obtain ⟨hlt, hlabel, -⟩ := List.findIdx?_eq_some_iff_getElem.mp h
  rw [List.getElem?_eq_getElem hlt]
  generalize f.code.body[pc] = i at hlabel
  cases i with
  | labelTarget l' =>
    have heq : some l' = some l := of_decide_eq_true hlabel
    cases heq
    rfl
  | _ => exact absurd (of_decide_eq_true hlabel) (by simp [source, Instruction.label])

theorem match_label {l : L} {stack : List (Value R)} (hreach : Reached program mm f) (hpc : f.pc < f.code.body.length)
    (hl : f.code.body[pc]? = some (.labelTarget l)) (hbelow : Below jvm program sh below below')
    (hcounts : Counts jvm program sh (shadowed below' + 1)) :
    Settled jvm program (.running { f with pc := pc, stack := stack } below, ())
      (.running (startFrame mm { f with pc := pc, stack := stack }) below', sh) := by
  refine .of_match (.running (alike_label (hreach.jump hpc hl stack) hl) hbelow ?_)
  rw [popped_label hl, if_neg Bool.false_ne_true, startFrame, shadowed_transformed]
  exact hcounts

theorem settle_after (hf : Alike jvm program sh (shadowed below') f f') (hi : f.code.body[f.pc]? = some i)
    (hexec : jvm.exec f.locals f.stack w i = some (effect, locals', w')) (hbelow : Below jvm program sh below below')
    (hcounts : Counts jvm program sh (if popped f then shadowed below' else shadowed (f' :: below')))
    {th : Thread (Instruction O L) L C (Value R)}
    (hafter : (source jvm program).after { f with locals := locals' } below effect = some th) (hwell : th.InCode) :
    ∃ th', (instrumented jvm program).after { f' with locals := locals' } below' (effect.relabel .own) = some th' ∧
      Settled jvm program (th, ()) (th', sh) := by
  cases effect with
  | next stack =>
    have hstays := counts_stay hf hi hexec (by simp) hcounts
    cases hafter
    refine ⟨_, rfl, ?_⟩
    cases hf with
    | unchanged => exact match_unchanged hbelow (counts_unchanged hstays)
    | @placed mm hreach hpc hshown =>
      rw [placedFrame, shadowed_transformed] at hstays
      exact settle_next (f := { f with locals := locals', stack := stack }) (hreach.next hi hexec stack) hi hwell
        hbelow hstays
  | jump target stack =>
    have hstays := counts_stay hf hi hexec (by simp) hcounts
    obtain ⟨_, h⟩ | ⟨hwrites, rfl⟩ := exec_cases hexec
    · cases h
    obtain ⟨pc, hpc, rfl⟩ := Option.map_eq_some_iff.mp hafter
    cases hf with
    | unchanged =>
      refine ⟨.running (unchangedFrame { f with pc := pc, stack := stack }) below', ?_,
        match_unchanged hbelow (counts_unchanged hstays)⟩
      simp only [Effect.relabel, Language.after, unchangedFrame, find_unchanged]
      rw [hpc]
      rfl
    | @placed mm hreach hlt hshown =>
      rw [placedFrame, shadowed_transformed] at hstays
      refine ⟨.running (startFrame mm { f with pc := pc, stack := stack }) below', ?_,
        match_label hreach hlt (find_label hpc) hbelow hstays⟩
      simp only [Effect.relabel, Language.after, placedFrame, find_own]
      rw [hpc]
      rfl
  | throws x =>
    obtain ⟨_, h⟩ | ⟨hwrites, rfl⟩ := exec_cases hexec
    · cases h
    cases hafter
    refine ⟨_, rfl, ?_⟩
    have hsame : { f' with locals := f.locals } = f' := by cases hf <;> rfl
    rw [hsame]
    exact settle_unwinding hf hbelow (counts_stay hf hi hexec (by simp) hcounts)
  | call m args stack =>
    obtain ⟨_, h⟩ | ⟨hwrites, rfl⟩ := exec_cases hexec
    · cases h
    obtain ⟨callee, hcallee, rfl⟩ := Option.map_eq_some_iff.mp hafter
    obtain ⟨callee', hcallee', hsettled⟩ := settle_callee hcallee hwell
    have hstays := counts_stay hf hi hexec (by simp) hcounts
    refine ⟨_, ?_, hsettled sh (.cons (hf.withStack stack) ⟨i, hi, hwrites⟩ hbelow) hstays⟩
    simp only [Effect.relabel, Language.after, hcallee']
    rfl
  | returns v =>
    cases hafter
    refine ⟨_, rfl, ?_⟩
    have hreturned := counts_returned hf hi hexec hcounts
    cases hbelow with
    | nil => exact .of_match (.returned v)
    | cons hg hsuspended hbelow => exact settle_resume hg hsuspended hwell hbelow hreturned v

theorem after_none {d : ℕ} (hf : Alike jvm program sh d f f')
    (hafter : (source jvm program).after { f with locals := locals' } below effect = none) :
    (instrumented jvm program).after { f' with locals := locals' } below' (effect.relabel .own) = none := by
  cases effect with
  | next | throws | returns => cases hafter
  | jump target stack =>
    have hnone := Option.map_eq_none_iff.mp hafter
    apply Option.map_eq_none_iff.mpr
    cases hf with
    | unchanged => exact (find_unchanged target).trans hnone
    | placed hreach hpc hshown =>
      refine (find_own target).trans ?_
      rw [hnone]
      rfl
  | call m args stack => exact Option.map_eq_none_iff.mpr (enterFrame_none (Option.map_eq_none_iff.mp hafter))

theorem settle_handler (hf : Alike jvm program sh (shadowed below') f f')
    (hcaught : (source jvm program).handlerOf f.code f.pc x = some pc) (hbelow : Below jvm program sh below below')
    (hcounts : Counts jvm program sh (shadowed (f' :: below'))) :
    Settled jvm program ((source jvm program).unwind x f below, ())
      ((instrumented jvm program).unwind x f' below', sh) := by
  have hsource : (source jvm program).unwind x f below = .running { f with pc := pc, stack := [x] } below := by
    rw [Language.unwind, hcaught]
  cases hf with
  | unchanged =>
    rw [shadowed_unchanged] at hcounts
    rw [hsource, Language.unwind, unchangedFrame, handlerOf_unchanged, hcaught]
    exact match_unchanged hbelow hcounts
  | placed hreach hlt hshown =>
    rw [placedFrame, shadowed_transformed] at hcounts
    rw [hsource, Language.unwind, placedFrame, handlerOf_place (List.getElem?_eq_getElem hlt), hcaught]
    obtain ⟨h, -, hfind⟩ := List.exists_of_findSome?_eq_some hcaught
    split at hfind
    · exact match_label hreach hlt (find_label hfind) hbelow hcounts
    · cases hfind

theorem running_refuses {d : ℕ} (hf : Alike jvm program sh d f f')
    (hnone : (source jvm program).advance (.running f below, ()) w = none) :
    (instrumented jvm program).advance (.running f' below', sh) w = none := by
  cases hi : f.code.body[f.pc]? with
  | none =>
    cases hf with
    | unchanged => simp [Language.advance, unchangedFrame, unchanged, hi]
    | placed hreach hpc hshown =>
      rw [List.getElem?_eq_getElem hpc] at hi
      cases hi
  | some i =>
    obtain ⟨hi', hexec'⟩ := alike_exec (w := w) hf hi
    rw [Language.advance_at hi] at hnone
    rw [Language.advance_at hi', hexec']
    change ((jvm.exec f.locals f.stack w i).map _).bind _ = none at hnone
    cases hexec : jvm.exec f.locals f.stack w i with
    | none => rfl
    | some r =>
      rw [hexec] at hnone
      exact Option.map_eq_none_iff.mpr (after_none hf (Option.map_eq_none_iff.mp hnone))

theorem running_steps {r : Thread (Instruction O L) L C (Value R) × Unit}
    (hf : Alike jvm program sh (shadowed below') f f') (hbelow : Below jvm program sh below below')
    (hcounts : Counts jvm program sh (if popped f then shadowed below' else shadowed (f' :: below')))
    (hstep : (source jvm program).advance (.running f below, ()) w = some (r, w')) (hwell : r.1.InCode) :
    ∃ b', (instrumented jvm program).advance (.running f' below', sh) w = some (b', w') ∧
      Settled jvm program r b' := by
  obtain ⟨i, effect, locals', s', w'', thread, hi, hexec, hafter, hr⟩ := Language.advance_eq_some hstep
  cases hr
  obtain ⟨r, hjvm, hr⟩ := Option.map_eq_some_iff.mp hexec
  cases hr
  obtain ⟨hi', hexec'⟩ := alike_exec (w := w) hf hi
  rw [hjvm] at hexec'
  obtain ⟨thread', hafter', hsettled⟩ := settle_after hf hi hjvm hbelow hcounts hafter hwell
  refine ⟨(thread', sh), ?_, hsettled⟩
  rw [Language.advance_running hi' hexec', hafter']
  rfl

theorem follows :
    Follows (source jvm program).advance (instrumented jvm program).advance ended Between (Match jvm program) ended
      (fun a => a.1.InCode) where
  same := by
    rintro ⟨a, _⟩ ⟨b, sh⟩ h
    cases h <;> rfl
  refuses := by
    rintro ⟨a, _⟩ ⟨b, sh⟩ w h hnone
    cases h with
    | running hf hbelow hcounts => exact running_refuses hf hnone
    | unwinding | caught | passing => cases hnone
    | returned | uncaught => rfl
  steps := by
    rintro ⟨a, _⟩ ⟨b, sh⟩ w ⟨a', _⟩ w' h hstep hwell
    cases h with
    | running hf hbelow hcounts => exact running_steps hf hbelow hcounts hstep hwell
    | @unwinding x f below below' hbelow hcounts =>
      cases hstep
      refine ⟨_, rfl, ?_⟩
      cases hcaught : (source jvm program).handlerOf f.code f.pc x with
      | some pc =>
        apply settle_handler .unchanged hcaught hbelow
        rw [shadowed_unchanged]
        exact hcounts
      | none =>
        rw [Language.unwind, Language.unwind, unchangedFrame, handlerOf_unchanged, hcaught]
        exact settle_leave hbelow hcounts
    | caught hf hcaught hbelow hcounts =>
      cases hstep
      exact ⟨_, rfl, settle_handler hf hcaught hbelow hcounts⟩
    | passing huncaught hbelow hcounts =>
      cases hstep
      refine ⟨_, rfl, ?_⟩
      rw [Language.unwind, Language.unwind, caughtFrame, handlerOf_end, huncaught]
      exact settle_leave hbelow hcounts
    | returned | uncaught => cases hstep

theorem settle_launch {entry : Option (M × List (Value R))} (hwell : ((source jvm program).launch entry).InCode) :
    Settled jvm program ((source jvm program).launch entry, ())
      ((instrumented jvm program).launch entry, JvmtiShadow.initial) := by
  cases entry with
  | none => exact .of_match (.returned none)
  | some entry =>
    obtain ⟨m, args⟩ := entry
    cases henter : (source jvm program).enterFrame m args with
    | none =>
      simp only [Language.launch, Option.bind_some, henter, enterFrame_none henter]
      exact .of_match (.returned none)
    | some f =>
      simp only [Language.launch, Option.bind_some, henter] at hwell ⊢
      obtain ⟨f', hf', hsettled⟩ := settle_callee henter hwell
      rw [hf']
      exact hsettled JvmtiShadow.initial .nil fun _ => rfl

end Steps

variable {T : Type} [DecidableEq T] [DecidableEq L]

def launched {I L S : Type} [DecidableEq L] (lang : Language I L C (Value R) M S W) (store : S)
    (entries : T → Option (M × List (Value R))) (w : W) : State T (Thread I L C (Value R) × S) W :=
  ⟨fun t => (lang.launch (entries t), store), w⟩

theorem related_launched {jvm : Jvm O L C M R W} {program : M → Option (MethodModel O L C)}
    {entries : T → Option (M × List (Value R))} {w : W}
    (hverified : AlwaysWell (source jvm program).advance (fun a => a.1.InCode)
      (launched (source jvm program) () entries w)) :
    Related (instrumented jvm program).advance ended Between (Match jvm program)
      (launched (source jvm program) () entries w)
      (launched (instrumented jvm program) JvmtiShadow.initial entries w) :=
  ⟨rfl, fun t => settle_launch (hverified.self t)⟩

/-- Transformed, the methods of a program do to the world what they did before and end as they did, on
any number of threads in any order: as long as control does not run past the end of a code, which
the verifier sees to. -/
theorem instrumented_runs (jvm : Jvm O L C M R W) (program : M → Option (MethodModel O L C))
    (entries : T → Option (M × List (Value R))) (w : W)
    (hverified : AlwaysWell (source jvm program).advance (fun a => a.1.InCode)
      (launched (source jvm program) () entries w)) :
    (∀ ts' s', Runs.run (step (instrumented jvm program).advance)
        (launched (instrumented jvm program) JvmtiShadow.initial entries w) ts' = some s' →
      ∃ ts s, ts.Sublist ts' ∧
        Runs.run (step (source jvm program).advance) (launched (source jvm program) () entries w) ts = some s ∧
        s'.world = s.world ∧ (∀ t, ended (s'.threads t) = ended (s.threads t)) ∧
        ∀ t, (step (source jvm program).advance s t).isSome → (step (instrumented jvm program).advance s' t).isSome) ∧
      ∀ ts s, Runs.run (step (source jvm program).advance) (launched (source jvm program) () entries w) ts = some s →
        ∃ ts' s', ts.Sublist ts' ∧
          Runs.run (step (instrumented jvm program).advance)
            (launched (instrumented jvm program) JvmtiShadow.initial entries w) ts' = some s' ∧
          s'.world = s.world ∧ ∀ t, ended (s'.threads t) = ended (s.threads t) := by
  have hstart := related_launched hverified
  constructor
  · intro ts' s' hrun
    obtain ⟨ts, s, hsub, hts, hrelated⟩ := hstart.back follows hverified hrun
    refine ⟨ts, s, hsub, hts, hrelated.1, fun t => (hrelated.2 t).observed follows.same, fun t ht => ?_⟩
    obtain ⟨s₁, hs₁⟩ := Option.isSome_iff_exists.mp ht
    refine hrelated.goes_on follows hs₁ (hverified (ts ++ [t]) s₁ ?_ t)
    exact Runs.run_append.mpr ⟨s, hts, Runs.run_cons.mpr ⟨s₁, hs₁, rfl⟩⟩
  · intro ts s hrun
    obtain ⟨ts', s', hsub, hts', hrelated⟩ := hstart.forth follows hverified hrun
    exact ⟨ts', s', hsub, hts', hrelated.1, fun t => (hrelated.2 t).observed follows.same⟩

def throwing : MethodModel ℕ ℕ Unit :=
  ⟨⟨"run", false, false, false, false, true⟩, true, [.INT], ⟨[.invoke 0, .returnInstruction 1], []⟩⟩

def catching : MethodModel ℕ ℕ Unit :=
  ⟨⟨"main", false, false, false, false, true⟩, true, [],
    ⟨[.labelTarget 0, .invoke 3, .labelTarget 1, .labelTarget 2, .other 2, .returnInstruction 1], [⟨0, 1, 2, none⟩]⟩⟩

def catchingJvm : Jvm ℕ ℕ Unit Bool Unit ℕ where
  operate o _ _ w :=
    match o with
    | 0 => some (.throws (.reference (some ())), w + 1)
    | 1 => some (.returns none, w)
    | 2 => some (.next [], w + 10)
    | _ => some (.call false [.int 7] [], w)
  catches _ _ := false

def twoMethods (m : Bool) : Option (MethodModel ℕ ℕ Unit) := some (if m then catching else throwing)

theorem twoMethods_end (m : Bool) (args : List (Value Unit)) (r : Code (Instruction ℕ ℕ) ℕ Unit × Locals Unit)
    (henter : (source catchingJvm twoMethods).enter m args = some r) : (source catchingJvm twoMethods).Ends r.1 := by
  obtain ⟨locals, -, hr⟩ := Option.bind_eq_some_iff.mp henter
  cases hr
  cases m with
  | false | true =>
    refine ⟨List.cons_ne_nil _ _, fun last hlast locals stack s w r hexec => ?_⟩
    cases hlast
    cases hexec
    rfl

theorem twoMethods_verified {T : Type} [DecidableEq T] (entries : T → Option (Bool × List (Value Unit))) (w : ℕ) :
    AlwaysWell (source catchingJvm twoMethods).advance (fun a => a.1.InCode)
      (launched (source catchingJvm twoMethods) () entries w) := by
  refine AlwaysWell.of_kept (I := fun a => a.1.Ending (source catchingJvm twoMethods)) ?_ ?_ ?_
  · exact fun a w r ha h => advance_ending twoMethods_end ha h
  · exact fun a ha => ha.inCode
  · exact fun t => launch_ending twoMethods_end (entries t)

theorem instrumented_runs_caught :
    ∃ ts' s', Runs.run (step (instrumented catchingJvm twoMethods).advance)
        (launched (instrumented catchingJvm twoMethods) JvmtiShadow.initial (fun _ : Bool => some (true, [])) 0)
          ts' = some s' ∧
      s'.world = 22 ∧ ∀ t, ended (s'.threads t) = some (.ok none) := by
  have hsource : ∃ s, Runs.run (step (source catchingJvm twoMethods).advance)
        (launched (source catchingJvm twoMethods) () (fun _ : Bool => some (true, [])) 0)
          ([true, true, false, true, false, true] ++ List.replicate 6 false ++ List.replicate 4 true) = some s ∧
      s.world = 22 ∧ ∀ t, ended (s.threads t) = some (.ok none) := by
    refine ⟨_, rfl, rfl, fun t => ?_⟩
    cases t <;> rfl
  obtain ⟨s, hrun, hworld, hended⟩ := hsource
  obtain ⟨ts', s', -, hrun', hworld', hended'⟩ := (instrumented_runs catchingJvm twoMethods
    (fun _ : Bool => some (true, [])) 0 (twoMethods_verified _ 0)).2 _ s hrun
  exact ⟨ts', s', hrun', hworld'.trans hworld, fun t => (hended' t).trans (hended t)⟩

/-! ### What the agent reads -/

/-- Where an instruction is about to be done, the row of each transformed method on the stack has,
for the slots known at its own instruction, the values that they hold now. -/
theorem rows_show_locals (jvm : Jvm O L C M R W) (program : M → Option (MethodModel O L C))
    (entries : T → Option (M × List (Value R))) (w : W) (horderly : Orderly jvm program)
    (hverified : AlwaysWell (source jvm program).advance (fun a => a.1.InCode)
      (launched (source jvm program) () entries w)) {ts' : List T}
    {s' : State T (Thread (Rewritten O L) (BoundLabel L) C (Value R) × JvmtiShadow (Value R)) W}
    (hrun : Runs.run (step (instrumented jvm program).advance)
      (launched (instrumented jvm program) JvmtiShadow.initial entries w) ts' = some s') {t : T}
    {f' : Frame (Rewritten O L) (BoundLabel L) C (Value R)}
    {below' : List (Frame (Rewritten O L) (BoundLabel L) C (Value R))} {sh : JvmtiShadow (Value R)}
    (hthread : s'.threads t = (.running f' below', sh)) {i : Instruction O L}
    (hi : f'.code.body[f'.pc]? = some (.original i)) (hreturn : i.element ≠ .returnInstruction) {n : ℕ}
    {g' : Frame (Rewritten O L) (BoundLabel L) C (Value R)} (hg : (f' :: below')[n]? = some g')
    (htransformed : isTransformed g' = true) {j : Instruction O L} (hj : g'.code.body[g'.pc]? = some (.original j))
    (hcapable : isThrowCapable j.element = true) (hdepth : shadowed ((f' :: below').drop (n + 1)) < maxDepth) :
    ∃ m mm pc row, program m = some mm ∧ g'.code = loadedCode mm ∧ mm.code.body[pc]? = some j ∧
      g'.pc = place mm.params mm.code.body pc ∧
      sh.getFrame (shadowed ((f' :: below').take n)) = some row ∧
      ∀ en ∈ knownAt mm.params (elements mm.code.body) pc, en.1 < maxSlots →
        row en.1 = (g'.locals en.1).bind Value.boxed := by
  obtain ⟨ts, s, -, -, hrelated⟩ := (related_launched hverified).back follows hverified hrun
  have hsettled := hrelated.2 t
  rw [hthread] at hsettled
  have hmatch := hsettled.matches fun hbetween => hbetween i hi
  generalize s.threads t = a at hmatch
  obtain ⟨a, _⟩ := a
  cases hmatch with
  | @running f _ below _ hf hbelow hcounts =>
    have hpopped : popped f = false := by
      rw [popped, alike_element hf hi, Option.any_some]
      exact decide_eq_false hreturn
    have hcount := hcounts horderly
    rw [hpopped, if_neg Bool.false_ne_true] at hcount
    have hframe : ∃ g, Alike jvm program sh (shadowed ((f' :: below').drop (n + 1))) g g' := by
      cases n with
      | zero =>
        cases hg
        exact ⟨f, hf⟩
      | succ n => exact hbelow.get hg
    obtain ⟨g, hgg⟩ := hframe
    cases hgg with
    | unchanged =>
      rw [isTransformed_unchanged] at htransformed
      cases htransformed
    | @placed mm hreach hpc hshown =>
      have hjg := alike_element (.placed hreach hpc hshown) hj
      obtain ⟨m, hm⟩ := hreach.loaded
      have hshadowed := shadowed_split hg rfl
      have hrow := hshown horderly hdepth j hjg hcapable
      refine ⟨m, mm, g.pc, sh.frames (shadowed ((f' :: below').drop (n + 1))), hm, ?_, ?_, ?_, ?_, ?_⟩
      · rw [loadedCode, if_pos hreach.transformed, ← hreach.code]
        rfl
      · rw [← hreach.code]
        exact hjg
      · rw [← hreach.code]
        rfl
      · have hat : sh.depth - (shadowed ((f' :: below').take n) : ℕ) =
            (shadowed ((f' :: below').drop (n + 1)) : ℕ) := by
          push_cast [hshadowed] at hcount
          omega
        rw [getFrame, hat, Int.toNat_natCast]
        exact if_pos ⟨Int.natCast_nonneg _, by exact_mod_cast hdepth⟩
      · rw [← hreach.code]
        exact hrow

theorem twoMethods_orderly : Orderly catchingJvm twoMethods := by
  intro m mm hmm i hi locals stack w effect locals' w' hexec
  cases hmm
  cases m with
  | false =>
    simp only [Bool.false_eq_true, if_false, throwing, List.mem_cons, List.not_mem_nil, or_false] at hi
    rcases hi with rfl | rfl <;> cases hexec <;> simp [Instruction.element]
  | true =>
    simp only [if_true, catching, List.mem_cons, List.not_mem_nil, or_false] at hi
    rcases hi with rfl | rfl | rfl | rfl | rfl | rfl <;> cases hexec <;> simp [Instruction.element]

theorem rows_show_locals_thrown :
    ∃ s' f' sh row, Runs.run (step (instrumented catchingJvm twoMethods).advance)
        (launched (instrumented catchingJvm twoMethods) JvmtiShadow.initial
          (fun _ : Unit => some (false, [.int 7])) 0) (List.replicate 8 ()) = some s' ∧
      s'.threads () = (.running f' [], sh) ∧ sh.getFrame 0 = some row ∧ row 0 = some (.int 7) := by
  have hreached : ∃ s' f' sh, Runs.run (step (instrumented catchingJvm twoMethods).advance)
        (launched (instrumented catchingJvm twoMethods) JvmtiShadow.initial
          (fun _ : Unit => some (false, [.int 7])) 0) (List.replicate 8 ()) = some s' ∧
      s'.threads () = (.running f' [], sh) ∧ f'.code.body[f'.pc]? = some (.original (.invoke 0)) ∧
      isTransformed f' = true ∧ f'.locals 0 = some (.int 7) :=
    ⟨_, _, _, rfl, rfl, rfl, rfl, rfl⟩
  obtain ⟨s', f', sh, hrun, hthread, hi, htransformed, hargument⟩ := hreached
  obtain ⟨m, mm, pc, row, hmm, -, hj, -, hrow, hvalues⟩ := rows_show_locals catchingJvm twoMethods
    (fun _ : Unit => some (false, [.int 7])) 0 twoMethods_orderly (twoMethods_verified _ 0) hrun hthread hi (by decide) (n := 0) rfl
    htransformed hi rfl (Nat.zero_lt_succ 63)
  cases hmm
  have hm : m = false := by
    cases m with
    | false => rfl
    | true =>
      have hinvoke := List.mem_of_getElem? hj
      simp [catching] at hinvoke
  subst hm
  have hpc : pc = 0 := by
    rcases pc with _ | _ | pc
    · rfl
    · cases hj
    · cases hj
  subst hpc
  refine ⟨s', f', sh, row, hrun, hthread, hrow, ?_⟩
  rw [hvalues (0, .INT) (by decide) (by decide), hargument]
  rfl

end JvmScout.Agent.InstrumentedCode
