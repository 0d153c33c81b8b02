import JvmScout.Agent.InstrumentedPlaces
import JvmScout.Agent.ShadowBalance

namespace JvmScout.Agent.InstrumentedCode

open CallMachine JvmtiShadow ShadowCodeTransform Stutter

variable {O L C M R W : Type} {locals locals' : Locals R} {ws : List Write}

structure Holds (locals : Locals R) (ws : List Write) : Prop where
  values : ∀ slot type, Assigned ws slot type → ∃ v, locals slot = some v ∧ v.type = type
  bounded : ∀ w ∈ ws, w.slot < maxLocals

theorem Holds.assign (h : Holds locals ws) {slot : ℕ} (hslot : slot < maxLocals) (v : Value R) :
    Holds (assign locals slot v) (ws ++ [⟨slot, v.type⟩]) := by
  constructor
  · intro n type hassigned
    rw [Assigned, lastTouch_concat, lastTouch_concat] at hassigned
    obtain ⟨hself, hnext⟩ := hassigned
    by_cases htouch : Write.touches ⟨slot, v.type⟩ n = true
    · rw [if_pos htouch, Option.some.injEq, Write.mk.injEq] at hself
      obtain ⟨rfl, rfl⟩ := hself
      exact ⟨v, by rw [InstrumentedCode.assign, if_pos rfl], rfl⟩
    · rw [if_neg htouch] at hself
      have hwide (hw : type.wide = true) : lastTouch ws (n + 1) = some ⟨n, type⟩ ∧ n + 1 ≠ slot := by
        have hlast := hnext hw
        by_cases htouch' : Write.touches ⟨slot, v.type⟩ (n + 1) = true
        · rw [if_pos htouch', Option.some.injEq, Write.mk.injEq] at hlast
          obtain ⟨rfl, rfl⟩ := hlast
          exact absurd (by simp [Write.touches]) htouch
        · rw [if_neg htouch'] at hlast
          refine ⟨hlast, fun heq => htouch' ?_⟩
          simp [Write.touches, heq]
      obtain ⟨u, hu, rfl⟩ := h.values n type ⟨hself, fun hw => (hwide hw).1⟩
      simp only [Write.touches, Bool.or_eq_true, Bool.and_eq_true, decide_eq_true_eq, not_or, not_and] at htouch
      refine ⟨u, ?_, rfl⟩
      rw [InstrumentedCode.assign, if_neg (Ne.symm htouch.1), if_neg, if_neg, hu]
      · simp only [hu, Option.any_some, Bool.and_eq_true, decide_eq_true_eq, not_and]
        exact fun heq hw => (hwide hw).2 heq
      · simp only [Bool.and_eq_true, decide_eq_true_eq, not_and]
        exact htouch.2
  · intro w hw
    rcases List.mem_append.mp hw with hw | hw
    · exact h.bounded w hw
    · rw [List.mem_singleton.mp hw]
      exact hslot

theorem holds_none : Holds (fun _ => none : Locals R) [] := ⟨fun _ _ h => (nomatch h.1), fun _ h => (nomatch h)⟩

theorem Holds.parameters {vs : List (Value R)} {params : List Write} (h : Holds locals ws)
    (hparams : parameters locals params vs = some locals') : Holds locals' (ws ++ params) := by
  induction params generalizing locals ws vs with
  | nil =>
    cases vs with
    | nil =>
      cases hparams
      rw [List.append_nil]
      exact h
    | cons v vs => cases hparams
  | cons w params ih =>
    cases vs with
    | nil => cases hparams
    | cons v vs =>
      rw [InstrumentedCode.parameters] at hparams
      split at hparams
      · rename_i hfits
        have hone := h.assign hfits.1 v
        rw [hfits.2] at hone
        have hrest := ih hone hparams
        rw [List.append_assoc] at hrest
        exact hrest
      · cases hparams

theorem Holds.bounded_of_assigned (h : Holds locals ws) {slot : ℕ} {type : LocalType}
    (hassigned : Assigned ws slot type) : slot < maxLocals :=
  h.bounded _ (List.mem_reverse.mp (List.mem_of_find?_eq_some hassigned.1))

variable {jvm : Jvm O L C M R W} {i : Instruction O L} {stack : List (Value R)} {w w' : W}
  {effect : Effect L (Value R) M}

theorem exec_cases (hexec : jvm.exec locals stack w i = some (effect, locals', w')) :
    (∃ stack', effect = .next stack') ∨ (i.element.writes = [] ∧ locals' = locals) := by
  cases i with
  | labelTarget l =>
    cases hexec
    exact .inl ⟨stack, rfl⟩
  | store slot type =>
    cases stack with
    | nil => cases hexec
    | cons v stack =>
      simp only [Jvm.exec] at hexec
      split at hexec
      · cases hexec
        exact .inl ⟨stack, rfl⟩
      · cases hexec
  | increment slot constant =>
    simp only [Jvm.exec] at hexec
    split at hexec
    · split at hexec
      · cases hexec
        exact .inl ⟨stack, rfl⟩
      · cases hexec
    · cases hexec
  | returnInstruction o | invoke o | field o | arrayLoad o | arrayStore o | other o =>
    simp only [Jvm.exec] at hexec
    obtain ⟨⟨effect', w''⟩, -, hr⟩ := Option.map_eq_some_iff.mp hexec
    cases hr
    exact .inr ⟨rfl, rfl⟩

theorem Holds.exec (h : Holds locals ws) (hexec : jvm.exec locals stack w i = some (effect, locals', w')) :
    Holds locals' (ws ++ i.element.writes) := by
  have hsame {e : CodeElement} (hwrites : e.writes = []) : Holds locals (ws ++ e.writes) := by
    rw [hwrites, List.append_nil]
    exact h
  cases i with
  | labelTarget l =>
    cases hexec
    exact hsame rfl
  | store slot type =>
    cases stack with
    | nil => cases hexec
    | cons v stack =>
      simp only [Jvm.exec] at hexec
      split at hexec
      · rename_i hfits
        cases hexec
        rw [← hfits.2]
        exact h.assign hfits.1 v
      · cases hexec
  | increment slot constant =>
    simp only [Jvm.exec] at hexec
    split at hexec
    · split at hexec
      · rename_i hslot
        cases hexec
        exact h.assign hslot _
      · cases hexec
    · cases hexec
  | returnInstruction o | invoke o | field o | arrayLoad o | arrayStore o | other o =>
    simp only [Jvm.exec] at hexec
    obtain ⟨⟨effect', w''⟩, -, hr⟩ := Option.map_eq_some_iff.mp hexec
    cases hr
    exact hsame rfl

def injectedRun (locals : Locals R) (sh : JvmtiShadow (Value R)) : Emitted → JvmtiShadow (Value R)
  | .enterMethod => sh.enterMethod
  | .exitMethod => sh.exitMethod
  | .capture slot _ => sh.write (BitVec.ofNat 32 slot).toNat ((locals slot).bind Value.boxed)
  | .element _ => sh

theorem captures_frame (locals : Locals R) {es : List Emitted} (hes : ∀ e ∈ es, ∃ slot load, e = .capture slot load)
    (sh : JvmtiShadow (Value R)) :
    (es.foldl (injectedRun locals) sh).depth = sh.depth ∧
      ∀ n : ℕ, (n : ℤ) ≠ sh.depth → (es.foldl (injectedRun locals) sh).frames n = sh.frames n := by
  induction es generalizing sh with
  | nil => exact ⟨rfl, fun _ _ => rfl⟩
  | cons e es ih =>
    obtain ⟨slot, load, rfl⟩ := hes e List.mem_cons_self
    obtain ⟨hdepth, hframes⟩ :=
      ih (fun e he => hes e (List.mem_cons_of_mem _ he)) (injectedRun locals sh (.capture slot load))
    have hone : (injectedRun locals sh (.capture slot load)).depth = sh.depth := write_depth _ _ sh
    rw [List.foldl_cons]
    refine ⟨hdepth.trans hone, fun n hn => ?_⟩
    rw [hframes n (by rw [hone]; exact hn)]
    exact write_other hn

theorem capture_emitCapture (en : ℕ × TypeKind) : ∃ slot load, emitCapture en.1 en.2 = .capture slot load := by
  obtain ⟨slot, kind⟩ := en
  cases kind <;> exact ⟨slot, _, rfl⟩

theorem injectedRun_emitCapture (sh : JvmtiShadow (Value R)) (en : ℕ × TypeKind) :
    injectedRun locals sh (emitCapture en.1 en.2) =
      sh.write (BitVec.ofNat 32 en.1).toNat ((locals en.1).bind Value.boxed) := by
  obtain ⟨slot, kind⟩ := en
  cases kind <;> rfl

theorem toNat_slot {slot : ℕ} (h : slot < maxLocals) : (BitVec.ofNat 32 slot).toNat = slot := by
  rw [BitVec.toNat_ofNat]
  apply Nat.mod_eq_of_lt
  unfold maxLocals at h
  omega

theorem captures_row {known : Known} (hkeyed : (Assoc.keys known).Nodup) (hbounded : ∀ en ∈ known, en.1 < maxLocals)
    {d : ℕ} (hd : d < maxDepth) {sh : JvmtiShadow (Value R)} (hdepth : sh.depth = d) {slot : ℕ} :
    ((known.map fun en => emitCapture en.1 en.2).foldl (injectedRun locals) sh).frames d slot =
      if slot ∈ Assoc.keys known ∧ slot < maxSlots then (locals slot).bind Value.boxed else sh.frames d slot := by
  induction known generalizing sh with
  | nil => simp
  | cons en known ih =>
    rw [Assoc.keys_cons, List.nodup_cons] at hkeyed
    have hslot := toNat_slot (hbounded en List.mem_cons_self)
    have hone : (injectedRun locals sh (emitCapture en.1 en.2)).depth = d := by
      rw [injectedRun_emitCapture, write_depth, hdepth]
    rw [List.map_cons, List.foldl_cons, ih hkeyed.2 (fun e he => hbounded e (List.mem_cons_of_mem _ he)) hone,
      injectedRun_emitCapture, hslot]
    by_cases hlow : en.1 < maxSlots
    · rw [write_self hdepth hd hlow]
      by_cases heq : slot = en.1
      · subst heq
        rw [if_neg (fun h => hkeyed.1 h.1), Function.update_self, if_pos ⟨List.mem_cons_self, hlow⟩]
      · rw [Function.update_of_ne heq]
        congr 1
        simp [Assoc.keys_cons, heq]
    · rw [write_past (by omega)]
      by_cases heq : slot = en.1
      · subst heq
        rw [if_neg (fun h => hlow h.2), if_neg (fun h => hlow h.2)]
      · congr 1
        simp [Assoc.keys_cons, heq]

theorem accept_shadow {known : Known} (hkeyed : (Assoc.keys known).Nodup) (hbounded : ∀ en ∈ known, en.1 < maxLocals)
    (e : CodeElement) {d : ℕ} {sh sh' : JvmtiShadow (Value R)} (hdepth : sh.depth = d)
    (hsh' : sh' = (accept known e).2.foldl (injectedRun locals) sh) :
    (∀ n < d, sh'.frames n = sh.frames n) ∧
      sh'.depth = (if e = .returnInstruction then (d : ℤ) - 1 else d) ∧
      (isThrowCapable e = true → d < maxDepth → ∀ en ∈ known, en.1 < maxSlots →
        sh'.frames d en.1 = (locals en.1).bind Value.boxed) := by
  subst hsh'
  cases e with
  | labelTarget | store | increment | other =>
    exact ⟨fun _ _ => rfl, hdepth, fun h => by cases h⟩
  | returnInstruction =>
    refine ⟨fun n hn => ?_, ?_, fun h => by cases h⟩
    · apply ShadowBalance.exitMethod_frames
      omega
    · change sh.exitMethod.depth = _
      rw [ShadowBalance.exitMethod_depth, hdepth, if_pos (Int.natCast_nonneg d), if_pos rfl]
  | invoke | field | arrayLoad | arrayStore =>
    have hes : ∀ e ∈ known.map fun en => emitCapture en.1 en.2, ∃ slot load, e = .capture slot load := by
      intro e he
      obtain ⟨en, -, rfl⟩ := List.mem_map.mp he
      exact capture_emitCapture en
    obtain ⟨hsame, hframes⟩ := captures_frame locals hes sh
    simp only [accept, isThrowCapable, if_true, List.foldl_append, List.foldl_cons, List.foldl_nil]
    refine ⟨fun n hn => hframes n (by omega), hsame.trans hdepth, fun _ hd en hen hlow => ?_⟩
    refine (captures_row hkeyed hbounded hd hdepth).trans (if_pos ⟨?_, hlow⟩)
    exact List.mem_map.mpr ⟨en, hen, rfl⟩

section Injected

variable [DecidableEq L] {program : M → Option (MethodModel O L C)} {code : Code (Rewritten O L) (BoundLabel L) C}
  {below : List (Frame (Rewritten O L) (BoundLabel L) C (Value R))} {sh sh' : JvmtiShadow (Value R)}

def ended {I L S : Type} (a : Thread I L C (Value R) × S) : Option (Except (Value R) (Option (Value R))) := a.1.result

def Between {S : Type} (b : Thread (Rewritten O L) (BoundLabel L) C (Value R) × S) : Prop :=
  match b.1 with
  | .running f _ => ∀ i, f.code.body[f.pc]? ≠ some (.original i)
  | _ => True

abbrev Quiet (jvm : Jvm O L C M R W) (program : M → Option (MethodModel O L C)) :=
  Silent (instrumented jvm program).advance ended Between

theorem quiet_step {r : Rewritten O L} {pc : ℕ} {stack' : List (Value R)} (hr : code.body[pc]? = some r)
    (hinjected : ∀ i, r ≠ .original i)
    (hexec : ∀ w, (instrumented jvm program).exec r locals stack sh w = some (.next stack', locals, sh', w)) :
    Quiet jvm program (.running ⟨code, pc, locals, stack⟩ below, sh)
      (.running ⟨code, pc + 1, locals, stack'⟩ below, sh') := by
  refine ⟨fun i hi => ?_, rfl, fun w => ?_⟩
  · rw [hr] at hi
    exact hinjected i (Option.some.inj hi)
  · rw [Language.advance_running hr (hexec w)]
    rfl

theorem capture_path {slot : ℕ} {load : LocalType} {pre post : List (Rewritten O L)} {v : Value R}
    (hbody : code.body = pre ++ (emit [] (.capture slot load) ++ post)) (hv : locals slot = some v)
    (htype : v.type = load) :
    Relation.ReflTransGen (Quiet jvm program) (.running ⟨code, pre.length, locals, stack⟩ below, sh)
      (.running ⟨code, pre.length + 3, locals, stack⟩ below, injectedRun locals sh (.capture slot load)) := by
  have hget (k : ℕ) : code.body[pre.length + k]? = (emit [] (.capture slot load) ++ post)[k]? := by
    rw [hbody, List.getElem?_append_right (Nat.le_add_right _ _), Nat.add_sub_cancel_left]
  have hconstant : Quiet jvm program (.running ⟨code, pre.length, locals, stack⟩ below, sh)
      (.running ⟨code, pre.length + 1, locals, .int (BitVec.ofNat 32 slot) :: stack⟩ below, sh) :=
    quiet_step (hget 0) (by simp) fun w => rfl
  have hload : Quiet jvm program
      (.running ⟨code, pre.length + 1, locals, .int (BitVec.ofNat 32 slot) :: stack⟩ below, sh)
      (.running ⟨code, pre.length + 2, locals, v :: .int (BitVec.ofNat 32 slot) :: stack⟩ below, sh) := by
    apply quiet_step (hget 1) (by simp)
    intro w
    simp only [instrumented, hv, htype, if_true]
  have hcall : Quiet jvm program
      (.running ⟨code, pre.length + 2, locals, v :: .int (BitVec.ofNat 32 slot) :: stack⟩ below, sh)
      (.running ⟨code, pre.length + 3, locals, stack⟩ below, injectedRun locals sh (.capture slot load)) := by
    apply quiet_step (hget 2) (by simp)
    intro w
    simp only [instrumented, htype, if_true, injectedRun, hv, Option.bind_some]
  exact .head hconstant (.head hload (.single hcall))

theorem injected_path {es : List Emitted} {pre injected post : List (Rewritten O L)}
    (hinjected : injected = es.flatMap (emit [])) (hbody : code.body = pre ++ (injected ++ post))
    (hloads : ∀ slot load, .capture slot load ∈ es → ∃ v, locals slot = some v ∧ v.type = load)
    (sh : JvmtiShadow (Value R)) :
    Relation.ReflTransGen (Quiet jvm program) (.running ⟨code, pre.length, locals, stack⟩ below, sh)
      (.running ⟨code, pre.length + injected.length, locals, stack⟩ below, es.foldl (injectedRun locals) sh) := by
  subst hinjected
  induction es generalizing pre sh with
  | nil => exact .refl
  | cons e es ih =>
    have hfirst : code.body = pre ++ (emit [] e ++ (es.flatMap (emit []) ++ post)) := by
      rw [hbody, List.flatMap_cons, List.append_assoc]
    have hrest : code.body = (pre ++ emit [] e) ++ (es.flatMap (emit []) ++ post) := by
      rw [hfirst, List.append_assoc]
    have hpath := fun sh => ih (fun slot load h => hloads slot load (List.mem_cons_of_mem e h)) sh hrest
    simp only [List.length_append] at hpath
    rw [List.flatMap_cons, List.length_append, ← Nat.add_assoc]
    have hhead : code.body[pre.length]? = (emit [] e ++ (es.flatMap (emit []) ++ post))[0]? := by
      rw [hfirst, List.getElem?_append_right le_rfl, Nat.sub_self]
    cases e with
    | enterMethod => exact .head (quiet_step hhead (by simp) fun w => rfl) (hpath sh.enterMethod)
    | exitMethod => exact .head (quiet_step hhead (by simp) fun w => rfl) (hpath sh.exitMethod)
    | capture slot load =>
      obtain ⟨v, hv, htype⟩ := hloads slot load List.mem_cons_self
      exact (capture_path hfirst hv htype).trans (hpath _)
    | element e => exact hpath sh

end Injected

end JvmScout.Agent.InstrumentedCode
