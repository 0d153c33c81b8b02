import JvmScout.Agent.InstrumentedCode
import Mathlib.Order.Monotone.Basic

namespace JvmScout.Agent.InstrumentedCode

open CallMachine ShadowCodeTransform

variable {O L C M R W : Type} {jvm : Jvm O L C M R W} {i : Instruction O L}

def before (known : Known) (i : Instruction O L) : List (Rewritten O L) :=
  (accept known i.element).2.flatMap (emit [])

theorem emit_emitCapture (own : List (Rewritten O L)) (slot : ℕ) (kind : TypeKind) :
    emit own (emitCapture slot kind) = emit [] (emitCapture slot kind) := by
  cases kind <;> rfl

theorem rewrite_eq (known : Known) (i : Instruction O L) : rewrite known i = before known i ++ [.original i] := by
  have hcaptures (own : List (Rewritten O L)) (known : Known) :
      (known.map fun en => emitCapture en.1 en.2).flatMap (emit own) =
        (known.map fun en => emitCapture en.1 en.2).flatMap (emit []) := by
    rw [List.flatMap_map, List.flatMap_map]
    apply List.flatMap_congr
    intro en _
    exact emit_emitCapture own en.1 en.2
  cases i with
  | labelTarget l | store slot type | increment slot constant | returnInstruction o | other o => rfl
  | invoke o | field o | arrayLoad o | arrayStore o =>
    simp only [rewrite, before, accept, isThrowCapable, Instruction.element, if_true, List.flatMap_append]
    rw [hcaptures [_]]
    simp [emit]

section Places

variable (params : List (ℕ × TypeKind)) (body : List (Instruction O L))

def startOf (pc : ℕ) : ℕ := (enterParams params ++ rewriteFrom (initialKnown params) (body.take pc)).length

def elements (body : List (Instruction O L)) : List CodeElement := body.map Instruction.element

def injectedAt (pc : ℕ) : List (Rewritten O L) :=
  (body[pc]?).elim [] fun i => before (knownAt params (elements body) pc) i

def place (pc : ℕ) : ℕ := startOf params body pc + (injectedAt params body pc).length

end Places

variable {params : List (ℕ × TypeKind)} {body : List (Instruction O L)} {pc : ℕ}

theorem rewriteFrom_append (known : Known) (pre post : List (Instruction O L)) :
    rewriteFrom known (pre ++ post) =
      rewriteFrom known pre ++
        rewriteFrom ((elements pre).foldl (fun known e => (accept known e).1) known) post := by
  induction pre generalizing known with
  | nil => rfl
  | cons i pre ih =>
    simp only [List.cons_append, rewriteFrom, ih, List.append_assoc]
    rfl

theorem rewriteFrom_split (hi : body[pc]? = some i) :
    rewriteFrom (initialKnown params) body =
      rewriteFrom (initialKnown params) (body.take pc) ++ (injectedAt params body pc ++ .original i ::
        rewriteFrom (knownAt params (elements body) (pc + 1)) (body.drop (pc + 1))) := by
  obtain ⟨hlt, rfl⟩ := List.getElem?_eq_some_iff.mp hi
  have hsplit : body = body.take pc ++ body[pc] :: body.drop (pc + 1) := by
    rw [← List.drop_eq_getElem_cons hlt, List.take_append_drop]
  have hknown : (elements (body.take pc)).foldl (fun known e => (accept known e).1) (initialKnown params) =
      knownAt params (elements body) pc := by
    rw [knownAt, elements, elements, List.map_take]
  have hnext : knownAt params (elements body) (pc + 1) =
      (accept (knownAt params (elements body) pc) body[pc].element).1 :=
    knownAt_succ params (by simp [elements, hi])
  conv_lhs => rw [hsplit]
  rw [rewriteFrom_append, hknown, rewriteFrom, rewrite_eq, ← hnext, injectedAt, hi]
  simp

theorem transformCode_body {code : Code (Instruction O L) L C} (hi : code.body[pc]? = some i) :
    (transformCode params code).body =
      (enterParams params ++ rewriteFrom (initialKnown params) (code.body.take pc)) ++
        (injectedAt params code.body pc ++
          (.original i ::
            rewriteFrom (knownAt params (elements code.body) (pc + 1)) (code.body.drop (pc + 1)) ++ atEnd)) := by
  rw [transformCode, rewriteFrom_split hi]
  simp only [List.append_assoc]

theorem getElem?_place {code : Code (Instruction O L) L C} (hi : code.body[pc]? = some i) :
    (transformCode params code).body[place params code.body pc]? = some (.original i) := by
  rw [transformCode_body hi, place, startOf, List.getElem?_append_right (Nat.le_add_right _ _),
    Nat.add_sub_cancel_left, List.getElem?_append_right le_rfl, Nat.sub_self]
  rfl

theorem startOf_succ (hi : body[pc]? = some i) : startOf params body (pc + 1) = place params body pc + 1 := by
  have hlt := (List.getElem?_eq_some_iff.mp hi).1
  have htake : (body.take (pc + 1))[pc]? = some i := by rw [List.getElem?_take_of_lt (by omega), hi]
  have hprefix : injectedAt params (body.take (pc + 1)) pc = injectedAt params body pc := by
    have hlow : (elements body).take pc = (elements (body.take (pc + 1))).take pc := by
      rw [elements, elements, List.map_take, List.take_take, Nat.min_eq_left (by omega)]
    rw [injectedAt, injectedAt, htake, hi, knownAt, knownAt, hlow]
  rw [startOf, rewriteFrom_split htake, hprefix, place, startOf, List.take_take, Nat.min_eq_left (by omega),
    List.drop_eq_nil_of_le (by rw [List.length_take]; omega)]
  simp only [rewriteFrom, List.length_append, List.length_cons, List.length_nil]
  omega

theorem startOf_mono : Monotone (startOf params body) := by
  apply monotone_nat_of_le_succ
  intro pc
  cases hi : body[pc]? with
  | none =>
    have hlen := List.getElem?_eq_none_iff.mp hi
    rw [startOf, startOf, List.take_of_length_le hlen, List.take_of_length_le (by omega)]
  | some i =>
    rw [startOf_succ hi, place]
    omega

theorem startOf_le_place (hi : body[pc]? = some i) {n : ℕ} : startOf params body n ≤ place params body pc ↔ n ≤ pc := by
  constructor
  · intro h
    by_contra hlt
    have hmono : startOf params body (pc + 1) ≤ startOf params body n := startOf_mono (by omega)
    rw [startOf_succ hi] at hmono
    omega
  · intro h
    exact (startOf_mono h).trans (Nat.le_add_right _ _)

theorem place_lt_end (hi : body[pc]? = some i) : place params body pc < startOf params body body.length := by
  have hlt := (List.getElem?_eq_some_iff.mp hi).1
  by_contra hle
  have hpc := (startOf_le_place hi).mp (Nat.le_of_not_lt hle)
  omega

theorem injectedAt_label {l : L} (hi : body[pc]? = some (.labelTarget l)) : injectedAt params body pc = [] := by
  rw [injectedAt, hi]
  rfl

theorem place_label {l : L} (hi : body[pc]? = some (.labelTarget l)) :
    place params body pc = startOf params body pc := by
  rw [place, injectedAt_label hi]
  rfl

theorem label_injected {es : List Emitted} {r : Rewritten O L} (hr : r ∈ es.flatMap (emit [])) : r.label = none := by
  obtain ⟨e, -, hr⟩ := List.mem_flatMap.mp hr
  cases e with
  | enterMethod | exitMethod =>
    rw [List.mem_singleton.mp hr]
    rfl
  | capture slot load =>
    simp only [emit, List.mem_cons, List.not_mem_nil, or_false] at hr
    rcases hr with rfl | rfl | rfl <;> rfl
  | element e => cases hr

theorem label_before {known : Known} {r : Rewritten O L} (hr : r ∈ before known i) : r.label = none := label_injected hr

theorem label_enterParams {r : Rewritten O L} (hr : r ∈ enterParams params) :
    r.label = none ∨ r.label = some .tryStart := by
  rcases List.mem_cons.mp hr with rfl | hr
  · exact .inr rfl
  · exact .inl (label_injected hr)

theorem label_rewriteFrom {known : Known} {r : Rewritten O L} (hr : r ∈ rewriteFrom known body) :
    r.label = none ∨ ∃ l, r.label = some (.own l) := by
  induction body generalizing known with
  | nil => cases hr
  | cons i body ih =>
    rw [rewriteFrom, rewrite_eq] at hr
    rcases List.mem_append.mp hr with hr | hr
    · rcases List.mem_append.mp hr with hr | hr
      · exact .inl (label_before hr)
      · rw [List.mem_singleton.mp hr]
        cases hi : i.label with
        | none => exact .inl (by simp [Rewritten.label, hi])
        | some l => exact .inr ⟨l, by simp [Rewritten.label, hi]⟩
    · exact ih hr

theorem startOf_end : startOf params body body.length =
    (enterParams params ++ rewriteFrom (initialKnown params) body).length := by
  rw [startOf, List.take_length]

variable [DecidableEq L]

theorem findIdx?_none {rs : List (Rewritten O L)} {l : BoundLabel L} (h : ∀ r ∈ rs, r.label ≠ some l) :
    rs.findIdx? (fun r : Rewritten O L => r.label = some l) = none := by
  rw [List.findIdx?_eq_none_iff]
  intro r hr
  simpa using h r hr

theorem findIdx?_rewrite (known : Known) (i : Instruction O L) (l : L) :
    (rewrite known i).findIdx? (fun r : Rewritten O L => r.label = some (.own l)) =
      if i.label = some l then some 0 else none := by
  have hown : (Rewritten.original i).label = some (.own l) ↔ i.label = some l := by simp [Rewritten.label]
  rw [rewrite_eq, List.findIdx?_append, findIdx?_none fun r hr => by rw [label_before hr]; simp]
  by_cases hi : i.label = some l
  · cases i with
    | labelTarget l' => simp [hown, hi, before, accept, Instruction.element, emit]
    | _ => cases hi
  · simp [hown, hi]

theorem findIdx?_rewriteFrom (known : Known) (body : List (Instruction O L)) (l : L) :
    (rewriteFrom known body).findIdx? (fun r : Rewritten O L => r.label = some (.own l)) =
      (body.findIdx? fun i : Instruction O L => i.label = some l).map fun pc =>
        (rewriteFrom known (body.take pc)).length := by
  induction body generalizing known with
  | nil => rfl
  | cons i body ih =>
    rw [rewriteFrom, List.findIdx?_append, findIdx?_rewrite, ih, List.findIdx?_cons]
    by_cases hi : i.label = some l
    · simp [hi, rewriteFrom]
    · simp only [hi, if_false, decide_false, Option.none_or, Option.map_map, Bool.false_eq_true]
      congr 1
      funext pc
      simp only [Function.comp_apply, List.take_succ_cons, rewriteFrom, List.length_append]
      omega

variable {program : M → Option (MethodModel O L C)} {code : Code (Instruction O L) L C} {x : Value R}

theorem find_own (l : L) :
    (instrumented jvm program).find (transformCode params code).body (.own l) =
      ((source jvm program).find code.body l).map (startOf params code.body) := by
  change (enterParams params ++ rewriteFrom (initialKnown params) code.body ++ atEnd).findIdx? _ = _
  have hlow : (enterParams params).findIdx? (fun r : Rewritten O L => r.label = some (.own l)) = none := by
    apply findIdx?_none
    intro r hr
    rcases label_enterParams hr with h | h <;> simp [h]
  have hhigh : (atEnd : List (Rewritten O L)).findIdx? (fun r : Rewritten O L => r.label = some (.own l)) = none := by
    simp [atEnd, Rewritten.label, List.findIdx?_cons]
  change List.findIdx? (fun r : Rewritten O L => r.label = some (.own l)) _ = _
  rw [List.findIdx?_append, List.findIdx?_append, hlow, hhigh, findIdx?_rewriteFrom]
  simp only [Option.none_or, Option.map_map, Option.map_none, Option.or_none]
  change _ = (code.body.findIdx? fun i : Instruction O L => i.label = some l).map _
  congr 1
  funext pc
  simp only [Function.comp_apply, startOf, List.length_append]
  omega

theorem find_tryStart : (instrumented jvm program).find (transformCode params code).body .tryStart = some 0 := rfl

theorem findIdx?_body {l : BoundLabel L} (hstart : l ≠ .tryStart) (hown : ∀ l', l ≠ .own l') :
    (enterParams params ++ rewriteFrom (initialKnown params) body).findIdx?
      (fun r : Rewritten O L => r.label = some l) = none := by
  apply findIdx?_none
  intro r hr
  rcases List.mem_append.mp hr with hr | hr
  · rcases label_enterParams hr with h | h
    · simp [h]
    · simpa [h] using hstart.symm
  · rcases label_rewriteFrom hr with h | ⟨l', h⟩
    · simp [h]
    · simpa [h] using (hown l').symm

theorem find_tryEnd :
    (instrumented jvm program).find (transformCode params code).body .tryEnd =
      some (startOf params code.body code.body.length) := by
  rw [startOf_end]
  change List.findIdx? (fun r : Rewritten O L => r.label = some .tryEnd) (_ ++ atEnd) = _
  rw [List.findIdx?_append, findIdx?_body (by simp) (by simp)]
  simp [atEnd, Rewritten.label, List.findIdx?_cons]

theorem find_handler :
    (instrumented jvm program).find (transformCode params code).body .handler =
      some (startOf params code.body code.body.length + 1) := by
  rw [startOf_end]
  change List.findIdx? (fun r : Rewritten O L => r.label = some .handler) (_ ++ atEnd) = _
  rw [List.findIdx?_append, findIdx?_body (by simp) (by simp)]
  simp [atEnd, Rewritten.label, List.findIdx?_cons]
  omega

theorem covers_own (h : Handler L C) (hi : code.body[pc]? = some i) :
    (instrumented jvm program).covers (transformCode params code).body (ownHandler h) (place params code.body pc) =
      (source jvm program).covers code.body h pc := by
  unfold Language.covers ownHandler
  dsimp only
  rw [find_own, find_own]
  cases (source jvm program).find code.body h.start with
  | none => rfl
  | some start =>
    cases (source jvm program).find code.body h.stop with
    | none => rfl
    | some stop =>
      have hlow : startOf params code.body start ≤ place params code.body pc ↔ start ≤ pc := startOf_le_place hi
      have hhigh : startOf params code.body stop ≤ place params code.body pc ↔ stop ≤ pc := startOf_le_place hi
      simp only [Option.map_some]
      rw [Bool.eq_iff_iff]
      simp only [Bool.and_eq_true, decide_eq_true_eq]
      omega

theorem handlerOf_place (hi : code.body[pc]? = some i) :
    (instrumented jvm program).handlerOf (transformCode params code) (place params code.body pc) x =
      some (((source jvm program).handlerOf code pc x).elim (startOf params code.body code.body.length + 1)
        (startOf params code.body)) := by
  have hown : ((code.handlers.map ownHandler).findSome? fun h =>
      if (instrumented jvm program).covers (transformCode params code).body h (place params code.body pc) &&
          h.catchType.all ((instrumented jvm program).catches · x) then
        (instrumented jvm program).find (transformCode params code).body h.target else none) =
      ((source jvm program).handlerOf code pc x).map (startOf params code.body) := by
    rw [List.findSome?_map, Language.handlerOf, List.map_findSome?]
    congr 1
    funext h
    simp only [Function.comp_apply]
    rw [covers_own h hi, apply_ite (Option.map (startOf params code.body)), ← find_own]
    rfl
  have hcatchAll : (instrumented jvm program).covers (transformCode params code).body catchAll
      (place params code.body pc) = true := by
    simp only [Language.covers, catchAll, find_tryStart, find_tryEnd]
    simpa using place_lt_end hi
  rw [Language.handlerOf]
  change List.findSome? _ (code.handlers.map ownHandler ++ [catchAll]) = _
  rw [List.findSome?_append, hown, List.findSome?_singleton, hcatchAll]
  change (Option.map _ _).or ((instrumented jvm program).find (transformCode params code).body .handler) = _
  rw [find_handler]
  cases (source jvm program).handlerOf code pc x <;> rfl

theorem handlerOf_end :
    (instrumented jvm program).handlerOf (transformCode params code)
      (startOf params code.body code.body.length + 3) x = none := by
  rw [Language.handlerOf, List.findSome?_eq_none_iff]
  intro h hh
  apply if_neg
  have hpast : (instrumented jvm program).covers (transformCode params code).body h
      (startOf params code.body code.body.length + 3) = false := by
    rcases List.mem_append.mp hh with hh | hh
    · obtain ⟨h, -, rfl⟩ := List.mem_map.mp hh
      unfold Language.covers ownHandler
      dsimp only
      rw [find_own, find_own]
      cases (source jvm program).find code.body h.start with
      | none => rfl
      | some start =>
        cases hstop : (source jvm program).find code.body h.stop with
        | none => rfl
        | some stop =>
          have hlt := (List.findIdx?_eq_some_iff_findIdx_eq.mp hstop).1
          have hle : startOf params code.body stop ≤ startOf params code.body code.body.length :=
            startOf_mono hlt.le
          simp only [Option.map_some, Bool.and_eq_false_imp, decide_eq_true_eq, decide_eq_false_iff_not]
          omega
    · rw [List.mem_singleton.mp hh]
      simp only [Language.covers, catchAll, find_tryStart, find_tryEnd]
      simp
  rw [hpast]
  simp

theorem find_unchanged (l : L) :
    (instrumented jvm program).find (unchanged code).body (.own l) = (source jvm program).find code.body l := by
  change (code.body.map Rewritten.original).findIdx? (fun r : Rewritten O L => r.label = some (.own l)) =
    code.body.findIdx? fun i : Instruction O L => i.label = some l
  rw [List.findIdx?_map]
  congr 1
  funext i
  simp [Rewritten.label]

theorem handlerOf_unchanged :
    (instrumented jvm program).handlerOf (unchanged code) pc x = (source jvm program).handlerOf code pc x := by
  rw [Language.handlerOf, Language.handlerOf]
  change List.findSome? _ (code.handlers.map ownHandler) = _
  rw [List.findSome?_map]
  congr 1
  funext h
  simp only [Function.comp_apply, Language.covers, ownHandler, find_unchanged]
  rfl

end JvmScout.Agent.InstrumentedCode
