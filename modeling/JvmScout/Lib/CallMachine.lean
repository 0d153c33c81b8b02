import Mathlib.Data.List.Basic

namespace CallMachine

structure Handler (L C : Type) where
  start : L
  stop : L
  target : L
  catchType : Option C

structure Code (I L C : Type) where
  body : List I
  handlers : List (Handler L C)

structure Frame (I L C V : Type) where
  code : Code I L C
  pc : ℕ
  locals : ℕ → Option V
  stack : List V

inductive Thread (I L C V : Type) where
  | running (top : Frame I L C V) (below : List (Frame I L C V))
  | unwinding (x : V) (top : Frame I L C V) (below : List (Frame I L C V))
  | returned (v : Option V)
  | uncaught (x : V)

inductive Effect (L V M : Type) where
  | next (stack : List V)
  | jump (target : L) (stack : List V)
  | throws (x : V)
  | call (m : M) (args stack : List V)
  | returns (v : Option V)

def Effect.relabel {L L' V M : Type} (f : L → L') : Effect L V M → Effect L' V M
  | .next stack => .next stack
  | .jump target stack => .jump (f target) stack
  | .throws x => .throws x
  | .call m args stack => .call m args stack
  | .returns v => .returns v

/-- What the instructions do, on the store `S` of the thread and the world `W`, or that they cannot. -/
structure Language (I L C V M S W : Type) where
  label : I → Option L
  exec : I → (ℕ → Option V) → List V → S → W → Option (Effect L V M × (ℕ → Option V) × S × W)
  catches : C → V → Bool
  enter : M → List V → Option (Code I L C × (ℕ → Option V))

namespace Language

variable {I L C V M S W : Type} [DecidableEq L] (lang : Language I L C V M S W)

def find (body : List I) (l : L) : Option ℕ := body.findIdx? fun i => lang.label i = some l

def covers (body : List I) (h : Handler L C) (pc : ℕ) : Bool :=
  match lang.find body h.start, lang.find body h.stop with
  | some start, some stop => start ≤ pc && pc < stop
  | _, _ => false

def handlerOf (code : Code I L C) (pc : ℕ) (x : V) : Option ℕ :=
  code.handlers.findSome? fun h =>
    if lang.covers code.body h pc && h.catchType.all (lang.catches · x) then lang.find code.body h.target else none

def enterFrame (m : M) (args : List V) : Option (Frame I L C V) :=
  (lang.enter m args).map fun (code, locals) => ⟨code, 0, locals, []⟩

def resume (v : Option V) : List (Frame I L C V) → Thread I L C V
  | [] => .returned v
  | f :: below => .running { f with pc := f.pc + 1, stack := v.toList ++ f.stack } below

def after (f : Frame I L C V) (below : List (Frame I L C V)) : Effect L V M → Option (Thread I L C V)
  | .next stack => some (.running { f with pc := f.pc + 1, stack := stack } below)
  | .jump target stack =>
    (lang.find f.code.body target).map fun pc => .running { f with pc := pc, stack := stack } below
  | .throws x => some (.unwinding x f below)
  | .call m args stack =>
    (lang.enterFrame m args).map fun callee => .running callee ({ f with stack := stack } :: below)
  | .returns v => some (resume v below)

def leave (x : V) : List (Frame I L C V) → Thread I L C V
  | [] => .uncaught x
  | f :: below => .unwinding x f below

def unwind (x : V) (f : Frame I L C V) (below : List (Frame I L C V)) : Thread I L C V :=
  match lang.handlerOf f.code f.pc x with
  | some pc => .running { f with pc := pc, stack := [x] } below
  | none => leave x below

def advance : Thread I L C V × S → W → Option ((Thread I L C V × S) × W)
  | (.running f below, s), w => do
    let i ← f.code.body[f.pc]?
    let (effect, locals, s, w) ← lang.exec i f.locals f.stack s w
    let thread ← lang.after { f with locals := locals } below effect
    return ((thread, s), w)
  | (.unwinding x f below, s), w => some ((lang.unwind x f below, s), w)
  | (.returned _, _), _ | (.uncaught _, _), _ => none

def launch (entry : Option (M × List V)) : Thread I L C V :=
  (entry.bind fun (m, args) => lang.enterFrame m args).elim (.returned none) fun f => .running f []

end Language

def Thread.result {I L C V : Type} : Thread I L C V → Option (Except V (Option V))
  | .running _ _ | .unwinding _ _ _ => none
  | .returned v => some (.ok v)
  | .uncaught x => some (.error x)

def Thread.InCode {I L C V : Type} : Thread I L C V → Prop
  | .running f _ => f.pc < f.code.body.length
  | _ => True

variable {I L C V M S W : Type} {lang : Language I L C V M S W}

def Effect.goesOn : Effect L V M → Bool
  | .next _ | .call _ _ _ => true
  | .jump _ _ | .throws _ | .returns _ => false

def Language.Ends (lang : Language I L C V M S W) (code : Code I L C) : Prop :=
  code.body ≠ [] ∧ ∀ last, code.body.getLast? = some last → ∀ locals stack s w r,
    lang.exec last locals stack s w = some r → r.1.goesOn = false

def Waiting (lang : Language I L C V M S W) (f : Frame I L C V) : Prop :=
  lang.Ends f.code ∧ f.pc + 1 < f.code.body.length

def Thread.Ending (lang : Language I L C V M S W) : Thread I L C V → Prop
  | .running f below => lang.Ends f.code ∧ f.pc < f.code.body.length ∧ ∀ g ∈ below, Waiting lang g
  | .unwinding _ f below => lang.Ends f.code ∧ ∀ g ∈ below, Waiting lang g
  | .returned _ | .uncaught _ => True

theorem Thread.Ending.inCode {a : Thread I L C V} (h : a.Ending lang) : a.InCode := by
  cases a with
  | running f below => exact h.2.1
  | unwinding | returned | uncaught => trivial

theorem Language.Ends.next_lt {code : Code I L C} (hends : lang.Ends code) {pc : ℕ} {i : I}
    (hi : code.body[pc]? = some i) {locals : ℕ → Option V} {stack : List V} {s : S} {w : W}
    {r : Effect L V M × (ℕ → Option V) × S × W} (hexec : lang.exec i locals stack s w = some r)
    (hgoes : r.1.goesOn = true) : pc + 1 < code.body.length := by
  obtain ⟨hlt, hget⟩ := List.getElem?_eq_some_iff.mp hi
  by_contra hend
  have hlast : code.body.getLast? = some i := by
    rw [List.getLast?_eq_getElem?, ← hi]
    congr 1
    omega
  rw [hends.2 i hlast locals stack s w r hexec] at hgoes
  cases hgoes

theorem resume_ending (v : Option V) {below : List (Frame I L C V)} (hbelow : ∀ g ∈ below, Waiting lang g) :
    (Language.resume v below).Ending lang := by
  cases below with
  | nil => trivial
  | cons g below =>
    obtain ⟨hends, hlt⟩ := hbelow g List.mem_cons_self
    exact ⟨hends, hlt, fun g' hg' => hbelow g' (List.mem_cons_of_mem g hg')⟩

theorem leave_ending (x : V) {below : List (Frame I L C V)} (hbelow : ∀ g ∈ below, Waiting lang g) :
    (Language.leave x below).Ending lang := by
  cases below with
  | nil => trivial
  | cons g below => exact ⟨(hbelow g List.mem_cons_self).1, fun g' hg' => hbelow g' (List.mem_cons_of_mem g hg')⟩

theorem enterFrame_ends (hprogram : ∀ m args r, lang.enter m args = some r → lang.Ends r.1) {m : M} {args : List V} {f : Frame I L C V} (h : lang.enterFrame m args = some f) :
    lang.Ends f.code ∧ f.pc < f.code.body.length := by
  obtain ⟨r, hr, rfl⟩ := Option.map_eq_some_iff.mp h
  have hends := hprogram m args r hr
  exact ⟨hends, List.length_pos_iff.mpr hends.1⟩

theorem launch_ending (hprogram : ∀ m args r, lang.enter m args = some r → lang.Ends r.1)
    (entry : Option (M × List V)) : (lang.launch entry).Ending lang := by
  rw [Language.launch]
  cases hentry : entry.bind fun x => lang.enterFrame x.1 x.2 with
  | none => trivial
  | some f =>
    obtain ⟨⟨m, args⟩, -, henter⟩ := Option.bind_eq_some_iff.mp hentry
    obtain ⟨hends, hlt⟩ := enterFrame_ends hprogram henter
    exact ⟨hends, hlt, fun g hg => absurd hg List.not_mem_nil⟩

variable [DecidableEq L]

theorem Language.advance_at {f : Frame I L C V} {below : List (Frame I L C V)} {s : S} {w : W} {i : I}
    (hi : f.code.body[f.pc]? = some i) :
    lang.advance (.running f below, s) w =
      (lang.exec i f.locals f.stack s w).bind fun (effect, locals, s, w) =>
        (lang.after { f with locals := locals } below effect).map fun thread => ((thread, s), w) := by
  simp only [advance, hi, Option.bind_eq_bind, Option.bind_some, Option.map_eq_bind]
  rfl

theorem Language.advance_running {f : Frame I L C V} {below : List (Frame I L C V)} {s s' : S} {w w' : W} {i : I}
    {effect : Effect L V M} {locals : ℕ → Option V} (hi : f.code.body[f.pc]? = some i)
    (hexec : lang.exec i f.locals f.stack s w = some (effect, locals, s', w')) :
    lang.advance (.running f below, s) w =
      (lang.after { f with locals := locals } below effect).map fun thread => ((thread, s'), w') := by
  rw [advance_at hi, hexec]
  rfl

theorem Language.advance_eq_some {f : Frame I L C V} {below : List (Frame I L C V)} {s : S} {w : W}
    {r : (Thread I L C V × S) × W} (h : lang.advance (.running f below, s) w = some r) :
    ∃ i effect locals s' w' thread, f.code.body[f.pc]? = some i ∧
      lang.exec i f.locals f.stack s w = some (effect, locals, s', w') ∧
      lang.after { f with locals := locals } below effect = some thread ∧ r = ((thread, s'), w') := by
  simp only [advance, Option.bind_eq_bind, Option.bind_eq_some_iff] at h
  obtain ⟨i, hi, ⟨effect, locals, s', w'⟩, hexec, thread, hafter, hr⟩ := h
  exact ⟨i, effect, locals, s', w', thread, hi, hexec, hafter, (Option.some.inj hr).symm⟩

theorem Language.find_lt {body : List I} {l : L} {pc : ℕ} (h : lang.find body l = some pc) : pc < body.length :=
  (List.findIdx?_eq_some_iff_findIdx_eq.mp h).1

theorem Language.handlerOf_lt {code : Code I L C} {pc target : ℕ} {x : V} (h : lang.handlerOf code pc x = some target) :
    target < code.body.length := by
  obtain ⟨handler, -, hfound⟩ := List.exists_of_findSome?_eq_some h
  split at hfound
  · exact find_lt hfound
  · cases hfound

theorem advance_ending (hprogram : ∀ m args r, lang.enter m args = some r → lang.Ends r.1)
    {a : Thread I L C V × S} {w : W} {r : (Thread I L C V × S) × W} (ha : a.1.Ending lang) (h : lang.advance a w = some r) : r.1.1.Ending lang := by
  obtain ⟨a, s⟩ := a
  cases a with
  | running f below =>
    obtain ⟨hends, hlt, hbelow⟩ := ha
    obtain ⟨i, effect, locals, s', w', thread, hi, hexec, hafter, rfl⟩ := Language.advance_eq_some h
    cases effect with
    | next stack =>
      cases hafter
      exact ⟨hends, hends.next_lt hi hexec rfl, hbelow⟩
    | jump target stack =>
      obtain ⟨pc, hpc, rfl⟩ := Option.map_eq_some_iff.mp hafter
      exact ⟨hends, Language.find_lt hpc, hbelow⟩
    | throws x =>
      cases hafter
      exact ⟨hends, hbelow⟩
    | call m args stack =>
      obtain ⟨callee, hcallee, rfl⟩ := Option.map_eq_some_iff.mp hafter
      obtain ⟨hcode, hstart⟩ := enterFrame_ends hprogram hcallee
      refine ⟨hcode, hstart, fun g hg => ?_⟩
      rcases List.mem_cons.mp hg with rfl | hg
      · exact ⟨hends, hends.next_lt hi hexec rfl⟩
      · exact hbelow g hg
    | returns v =>
      cases hafter
      exact resume_ending v hbelow
  | unwinding x f below =>
    obtain ⟨hends, hbelow⟩ := ha
    cases h
    rw [Language.unwind]
    split
    · rename_i pc hcaught
      exact ⟨hends, Language.handlerOf_lt hcaught, hbelow⟩
    · exact leave_ending x hbelow
  | returned | uncaught => cases h

end CallMachine
