import JvmScout.Collector.SourceTenancy
import JvmScout.Lib.Nesting

namespace JvmScout.Snippets

open Nesting

structure Re where
  word : Char → Bool
  space : Char → Bool

def linesOf (source : String) : List (List Char) := source.toList.splitOn '\n'

def opensParen (re : Re) : List Char → Bool
  | [] => false
  | c :: rest => c == '(' || (re.space c && opensParen re rest)

def boundary (re : Re) (previous : Option Char) : Bool := previous.all fun c => c != '.' && !re.word c

def matchesAt (re : Re) (name : List Char) (previous : Option Char) (rest : List Char) : Bool :=
  boundary re previous && decide (name <+: rest) && opensParen re (rest.drop name.length)

def searchFrom (re : Re) (name : List Char) (previous : Option Char) : List Char → Bool
  | [] => matchesAt re name previous []
  | c :: rest => matchesAt re name previous (c :: rest) || searchFrom re name (some c) rest

def declarationLine (re : Re) (methodName : String) (ln : List Char) : Bool :=
  searchFrom re methodName.toList none ln && !(ln.takeWhile (· != '(')).contains '=' && !ln.contains ';'

def closingLine (j : ℕ) (depth : ℤ) (seen : Bool) : List (List Char) → Option ℕ
  | [] => none
  | ln :: lines =>
    let depth := depth + ((ln.count '{' : ℤ) - ln.count '}')
    let seen := seen || ln.contains '{'
    if seen && decide (depth ≤ 0) then some j else closingLine (j + 1) depth seen lines

def extractMethod (re : Re) (source methodName : String) : Option (ℕ × ℕ) :=
  let lines := linesOf source
  if methodName = "<init>" ∨ methodName = "<clinit>" then none
  else (lines.findIdx? (declarationLine re methodName)).map fun start =>
    (start, (closingLine start 0 false (lines.drop start)).getD (min (start + 40) (lines.length - 1)))

def note : String := "// decompiled from bytecode — names/layout may differ from source"

def numbered (n : ℕ) (ln : List Char) : String := "  " ++ toString n ++ ": " ++ String.ofList ln

def buildSnippet (re : Re) (source methodName : String) (_line : ℤ) : String :=
  let lines := linesOf source
  let span := (extractMethod re source methodName).elim (0, lines.length) fun s => (s.1, s.2 + 1)
  "\n".intercalate (numbered 0 note.toList ::
    (List.range' span.1 (span.2 - span.1)).map fun idx => numbered (idx + 1) (lines.getD idx []))

def snippetOf (re : Re) (source : String) (method : Json) (line : ℤ) : Except PyError String :=
  match method with
  | .str name => .ok (buildSnippet re source name line)
  | method => if method.truthy then .error .typeError else .ok (buildSnippet re source "" line)

def decompilerOf (re : Re) (available : Bool) (decompileClass : String → String → Option String) :
    Routes.Decompiler := ⟨available, decompileClass, snippetOf re⟩

def braces (c : Char) : ℤ := if c = '{' then 1 else if c = '}' then -1 else 0

structure Declaration (re : Re) (source name : String) where
  before : List Char
  gap : List Char
  header : List Char
  inner : List Char
  after : List Char
  text : source.toList =
    before ++ (name.toList ++ gap ++ '(' :: header) ++ '{' :: (inner ++ '}' :: after)
  named : name ≠ "<init>" ∧ name ≠ "<clinit>"
  apart : boundary re before.getLast? = true
  oneLine : '\n' ∉ name.toList ++ gap ++ '(' :: header
  body : Balanced braces inner
  plain : ∀ c ∈ lastLine '\n' before ++ (name.toList ++ gap ++ '(' :: header) ++
    '{' :: firstLine '\n' (inner ++ '}' :: after), c ≠ ';' ∧ c ≠ '='

namespace Declaration

variable {re : Re} {source name : String} (d : Declaration re source name)

def opening : List Char := lastLine '\n' d.before ++ (name.toList ++ d.gap ++ '(' :: d.header)

def line : List Char := d.opening ++ '{' :: firstLine '\n' (d.inner ++ '}' :: d.after)

def closing : List Char := firstLine '\n' d.after

def first : ℕ := d.before.count '\n'

def last : ℕ := d.first + d.inner.count '\n'

def Once : Prop := ∀ other : Declaration re source name, other.before = d.before

/-- With the braces before and after the body on its two outer lines counted in, no line ends
at depth zero before the closing one, and that one does. -/
def Settled : Prop :=
  (∀ x y, d.inner = x ++ '\n' :: y → 0 < depth braces d.opening + 1 + depth braces x) ∧
    depth braces d.opening + depth braces d.closing ≤ 0

end Declaration

/-! ### The brace scan -/

theorem count_sub_count (ln : List Char) : (ln.count '{' : ℤ) - ln.count '}' = depth braces ln := by
  induction ln with
  | nil => rfl
  | cons c ln ih =>
    rw [depth_cons, ← ih, List.count_cons, List.count_cons, braces]
    by_cases hopen : c = '{'
    · rw [if_pos hopen, hopen]
      simp
      ring
    · rw [if_neg hopen]
      by_cases hclose : c = '}'
      · rw [if_pos hclose, hclose]
        simp
        ring
      · simp [hopen, hclose]

def total (lines : List (List Char)) (n : ℕ) : ℤ := ((lines.take n).map (depth braces)).sum

theorem total_cons (ln : List Char) (lines : List (List Char)) (n : ℕ) :
    total (ln :: lines) (n + 1) = depth braces ln + total lines n := by
  rw [total, List.take_succ_cons, List.map_cons, List.sum_cons, total]

def ClosesAt (d : ℤ) (lines : List (List Char)) (k : ℕ) : Prop :=
  k < lines.length ∧ (∀ i < k, 0 < d + total lines (i + 1)) ∧ d + total lines (k + 1) ≤ 0

theorem closesAt_zero {d : ℤ} {ln : List Char} {lines : List (List Char)} :
    ClosesAt d (ln :: lines) 0 ↔ d + depth braces ln ≤ 0 := by
  rw [ClosesAt, total_cons, total, List.take_zero, List.map_nil, List.sum_nil, add_zero]
  constructor
  · exact fun h => h.2.2
  · exact fun h => ⟨Nat.zero_lt_succ _, fun i hi => absurd hi (Nat.not_lt_zero i), h⟩

theorem closesAt_succ {d : ℤ} {ln : List Char} {lines : List (List Char)} {k : ℕ} :
    ClosesAt d (ln :: lines) (k + 1) ↔ 0 < d + depth braces ln ∧ ClosesAt (d + depth braces ln) lines k := by
  have htotal (n : ℕ) : d + total (ln :: lines) (n + 1) = d + depth braces ln + total lines n := by
    rw [total_cons, add_assoc]
  have hfirst : total lines 0 = 0 := rfl
  rw [ClosesAt, ClosesAt, List.length_cons, Nat.succ_lt_succ_iff, htotal]
  constructor
  · rintro ⟨hk, hbefore, hend⟩
    refine ⟨?_, hk, fun i hi => ?_, hend⟩
    · have hpos := hbefore 0 (Nat.zero_lt_succ k)
      rw [htotal, hfirst, add_zero] at hpos
      exact hpos
    · rw [← htotal]
      exact hbefore (i + 1) (Nat.succ_lt_succ hi)
  · rintro ⟨hpos, hk, hbefore, hend⟩
    refine ⟨hk, fun i hi => ?_, hend⟩
    rw [htotal]
    cases i with
    | zero =>
      rw [hfirst, add_zero]
      exact hpos
    | succ i => exact hbefore i (Nat.lt_of_succ_lt_succ hi)

theorem closingLine_seen {j e : ℕ} {d : ℤ} {lines : List (List Char)} :
    closingLine j d true lines = some e ↔ ∃ k, e = j + k ∧ ClosesAt d lines k := by
  induction lines generalizing j d with
  | nil =>
    constructor
    · intro h
      cases h
    · rintro ⟨k, -, hk, -⟩
      exact absurd hk (Nat.not_lt_zero k)
  | cons ln lines ih =>
    rw [closingLine, count_sub_count, Bool.true_or, Bool.true_and]
    by_cases hclosed : d + depth braces ln ≤ 0
    · rw [if_pos (decide_eq_true hclosed)]
      constructor
      · intro h
        cases h
        exact ⟨0, rfl, closesAt_zero.mpr hclosed⟩
      · rintro ⟨k, rfl, hk⟩
        cases k with
        | zero => rfl
        | succ k => exact absurd (closesAt_succ.mp hk).1 (not_lt.mpr hclosed)
    · rw [if_neg (by simpa using hclosed), ih]
      constructor
      · rintro ⟨k, rfl, hk⟩
        exact ⟨k + 1, by omega, closesAt_succ.mpr ⟨not_le.mp hclosed, hk⟩⟩
      · rintro ⟨k, rfl, hk⟩
        cases k with
        | zero => exact absurd (closesAt_zero.mp hk) hclosed
        | succ k => exact ⟨k, by omega, (closesAt_succ.mp hk).2⟩

theorem closingLine_opens {j : ℕ} {d : ℤ} {ln : List Char} (lines : List (List Char)) (h : '{' ∈ ln) :
    closingLine j d false (ln :: lines) = closingLine j d true (ln :: lines) := by
  rw [closingLine, closingLine, List.contains_iff_mem.mpr h]
  rfl

theorem total_of_endsLine {text part : List Char} (h : EndsLine '\n' text part) :
    total (text.splitOn '\n') (part.count '\n' + 1) = depth braces part := by
  have hnewline : braces '\n' = 0 := rfl
  rw [total, h.take_splitOn, sum_depth_splitOn hnewline]

theorem closingLine_isSome {j k : ℕ} {d : ℤ} {lines : List (List Char)} (hk : k < lines.length)
    (hclosed : d + total lines (k + 1) ≤ 0) : (closingLine j d true lines).isSome := by
  have hexists : ∃ n, d + total lines (n + 1) ≤ 0 := ⟨k, hclosed⟩
  have hfirst : closingLine j d true lines = some (j + Nat.find hexists) := by
    apply closingLine_seen.mpr
    refine ⟨Nat.find hexists, rfl, (Nat.find_min' hexists hclosed).trans_lt hk, fun i hi => ?_, Nat.find_spec hexists⟩
    exact not_le.mp (Nat.find_min hexists hi)
  rw [hfirst]
  rfl

/-! ### The lines of a declaration -/

namespace Declaration

variable {re : Re} {source name : String} (d : Declaration re source name)

def rest : List Char := d.opening ++ '{' :: (d.inner ++ '}' :: d.after)

theorem newline_not_mem_opening : '\n' ∉ d.opening := by
  rw [opening, List.mem_append, not_or]
  exact ⟨sep_not_mem_lastLine _, d.oneLine⟩

theorem drop_lines : (linesOf source).drop d.first = d.rest.splitOn '\n' := by
  have hrest : lastLine '\n' d.before ++ ((name.toList ++ d.gap ++ '(' :: d.header) ++ '{' :: (d.inner ++ '}' :: d.after)) =
      d.rest := by
    rw [rest, opening]
    exact (List.append_assoc _ _ _).symm
  rw [linesOf, d.text, List.append_assoc, first, drop_splitOn, hrest]

theorem drop_lines_cons : ∃ lines, (linesOf source).drop d.first = d.line :: lines := by
  obtain ⟨lines, hlines⟩ := splitOn_eq_cons '\n' d.rest
  refine ⟨lines, ?_⟩
  rw [d.drop_lines, hlines, rest, firstLine_append d.newline_not_mem_opening, line, firstLine,
    List.takeWhile_cons_of_pos (by decide)]
  rfl

theorem first_lt : d.first < (linesOf source).length := by
  obtain ⟨lines, hlines⟩ := d.drop_lines_cons
  have hlength := congrArg List.length hlines
  rw [List.length_drop, List.length_cons] at hlength
  omega

theorem drop_before : name.toList <+: source.toList.drop d.before.length ∧
    '{' ∈ firstLine '\n' (source.toList.drop d.before.length) := by
  rw [d.text, List.append_assoc, List.drop_left]
  constructor
  · rw [List.append_assoc, List.append_assoc]
    exact List.prefix_append _ _
  · rw [firstLine_append d.oneLine, firstLine, List.takeWhile_cons_of_pos (by decide)]
    simp

theorem findIdx_iff (p : List Char → Bool) :
    (linesOf source).findIdx? p = some d.first ↔
      (∀ ln ∈ (linesOf source).take d.first, p ln = false) ∧ p d.line = true := by
  obtain ⟨lines, hlines⟩ := d.drop_lines_cons
  have hlt := d.first_lt
  have hget : (linesOf source)[d.first] = d.line := by
    have hdrop := List.drop_eq_getElem_cons hlt
    rw [hlines] at hdrop
    exact (List.cons.inj hdrop).1.symm
  rw [List.findIdx?_eq_some_iff_getElem]
  constructor
  · rintro ⟨_, hline, hbefore⟩
    refine ⟨fun ln hln => ?_, hget ▸ hline⟩
    obtain ⟨i, hi, rfl⟩ := List.mem_take_iff_getElem.mp hln
    simpa using hbefore i (by omega)
  · rintro ⟨hbefore, hline⟩
    refine ⟨hlt, hget ▸ hline, fun i hi => ?_⟩
    rw [hbefore _ (List.mem_take_iff_getElem.mpr ⟨i, by omega, rfl⟩)]
    exact Bool.false_ne_true

theorem total_inner {x y : List Char} (h : d.inner = x ++ '\n' :: y) :
    total (d.rest.splitOn '\n') (x.count '\n' + 1) = depth braces d.opening + 1 + depth braces x := by
  have hends : EndsLine '\n' d.rest (d.opening ++ '{' :: x) := by
    refine .inr ⟨y ++ '}' :: d.after, ?_⟩
    rw [rest, h]
    simp
  have hcount : (d.opening ++ '{' :: x).count '\n' = x.count '\n' := by
    rw [List.count_append, List.count_eq_zero_of_not_mem d.newline_not_mem_opening, zero_add,
      List.count_cons_of_ne (by decide)]
  have hopen : braces '{' = 1 := rfl
  rw [← hcount, total_of_endsLine hends, depth_append, depth_cons, hopen, add_assoc]

theorem total_last :
    total (d.rest.splitOn '\n') (d.inner.count '\n' + 1) = depth braces d.opening + depth braces d.closing := by
  have hends : EndsLine '\n' _ _ := endsLine_firstLine (d.opening ++ '{' :: d.inner ++ ['}']) d.after
  have hrest : d.opening ++ '{' :: d.inner ++ ['}'] ++ d.after = d.rest := by
    rw [rest]
    simp
  have hcount : (d.opening ++ '{' :: d.inner ++ ['}'] ++ d.closing).count '\n' = d.inner.count '\n' := by
    have hclosing : d.closing.count '\n' = 0 := List.count_eq_zero_of_not_mem (sep_not_mem_firstLine d.after)
    have hopening : d.opening.count '\n' = 0 := List.count_eq_zero_of_not_mem d.newline_not_mem_opening
    simp [List.count_append, hclosing, hopening]
  have hopen : braces '{' = 1 := rfl
  have hclose : braces '}' = -1 := rfl
  rw [hrest, ← closing] at hends
  rw [← hcount, total_of_endsLine hends, depth_append, depth_append, depth_append, depth_cons, depth_cons,
    depth_nil, hopen, hclose, d.body.closed]
  ring

theorem inner_count_lt : d.inner.count '\n' < (d.rest.splitOn '\n').length := by
  rw [length_splitOn, rest, List.count_append, List.count_cons_of_ne (by decide), List.count_append]
  omega

theorem total_rest (hbalanced : Balanced braces source.toList) :
    total (d.rest.splitOn '\n') (d.rest.count '\n' + 1) ≤ 0 := by
  rw [total_of_endsLine (.inl rfl)]
  obtain ⟨earlier, hbefore⟩ := exists_append_lastLine '\n' d.before
  have htext : source.toList = earlier ++ d.rest := by
    rw [d.text, rest, opening]
    conv_lhs => rw [hbefore]
    simp
  rw [htext] at hbalanced
  exact hbalanced.depth_le

theorem closingLine_iff (hbalanced : Balanced braces source.toList) (fallback : ℕ) :
    (closingLine d.first 0 false ((linesOf source).drop d.first)).getD fallback = d.last ↔ d.Settled := by
  obtain ⟨lines, hlines⟩ := d.drop_lines_cons
  have hopens : '{' ∈ d.line := by
    rw [line]
    simp
  have hseen : closingLine d.first 0 false ((linesOf source).drop d.first) =
      closingLine d.first 0 true (d.rest.splitOn '\n') := by
    rw [← d.drop_lines, hlines, closingLine_opens _ hopens]
  have hcloses : 0 + total (d.rest.splitOn '\n') (d.rest.count '\n' + 1) ≤ 0 := by
    rw [zero_add]
    exact d.total_rest hbalanced
  have hlength : d.rest.count '\n' < (d.rest.splitOn '\n').length := by
    rw [length_splitOn]
    exact Nat.lt_succ_self _
  obtain ⟨e, he⟩ := Option.isSome_iff_exists.mp (closingLine_isSome (j := d.first) hlength hcloses)
  have hlast : (closingLine d.first 0 false ((linesOf source).drop d.first)).getD fallback = d.last ↔
      closingLine d.first 0 true (d.rest.splitOn '\n') = some d.last := by
    rw [hseen, he, Option.getD_some, Option.some_inj]
  rw [hlast, closingLine_seen]
  constructor
  · rintro ⟨k, hk, -, hbefore, hend⟩
    have hcount : d.inner.count '\n' = k := Nat.add_left_cancel hk
    subst hcount
    rw [zero_add, d.total_last] at hend
    refine ⟨fun x y hinner => ?_, hend⟩
    have hx : x.count '\n' < d.inner.count '\n' := by
      rw [hinner, List.count_append, List.count_cons_self]
      omega
    have hpos := hbefore _ hx
    rw [zero_add, d.total_inner hinner] at hpos
    exact hpos
  · rintro ⟨hinside, hend⟩
    refine ⟨d.inner.count '\n', rfl, d.inner_count_lt, fun i hi => ?_, ?_⟩
    · obtain ⟨x, y, hinner, rfl⟩ := exists_line_end hi
      rw [zero_add, d.total_inner hinner]
      exact hinside x y hinner
    · rw [zero_add, d.total_last]
      exact hend

end Declaration

/-! ### The line test -/

theorem opensParen_append {re : Re} {gap : List Char} (h : ∀ c ∈ gap, re.space c = true) (rest : List Char) :
    opensParen re (gap ++ '(' :: rest) = true := by
  induction gap with
  | nil => rfl
  | cons c gap ih =>
    have hc : re.space c = true := h c List.mem_cons_self
    rw [List.cons_append, opensParen, hc, ih fun x hx => h x (List.mem_cons_of_mem c hx), Bool.and_self, Bool.or_true]

theorem searchFrom_append {re : Re} {name u rest : List Char} {previous : Option Char}
    (h : matchesAt re name (u.getLast?.or previous) rest = true) :
    searchFrom re name previous (u ++ rest) = true := by
  induction u generalizing previous with
  | nil =>
    cases rest with
    | nil => exact h
    | cons c rest =>
      rw [List.nil_append, searchFrom, Bool.or_eq_true]
      exact .inl h
  | cons c u ih =>
    rw [List.cons_append, searchFrom, Bool.or_eq_true]
    refine .inr (ih ?_)
    rw [List.getLast?_cons, Option.some_or] at h
    cases hlast : u.getLast? with
    | none =>
      rw [hlast] at h
      exact h
    | some l =>
      rw [hlast] at h
      exact h

namespace Declaration

variable {re : Re} {source name : String} (d : Declaration re source name)

theorem apart_line : boundary re (lastLine '\n' d.before).getLast? = true := by
  obtain ⟨earlier, hbefore⟩ := exists_append_lastLine '\n' d.before
  have hlast := d.apart
  rw [hbefore, List.getLast?_append] at hlast
  cases hline : (lastLine '\n' d.before).getLast? with
  | none => rfl
  | some c =>
    rw [hline] at hlast
    exact hlast

theorem declarationLine_line (h : ∀ c ∈ d.gap, re.space c = true) : declarationLine re name d.line = true := by
  have hsearch : searchFrom re name.toList none d.line = true := by
    have hline : d.line = lastLine '\n' d.before ++ (name.toList ++ (d.gap ++ '(' ::
        (d.header ++ '{' :: firstLine '\n' (d.inner ++ '}' :: d.after)))) := by
      rw [line, opening]
      simp
    rw [hline]
    apply searchFrom_append
    rw [matchesAt, Option.or_none, d.apart_line, List.drop_left, opensParen_append h,
      decide_eq_true (List.prefix_append _ _)]
    rfl
  have hequals : ((d.line.takeWhile (· != '(')).contains '=') = false := by
    rw [← Bool.not_eq_true, List.contains_iff_mem]
    intro hmem
    exact (d.plain '=' (List.takeWhile_subset _ hmem)).2 rfl
  have hsemicolon : d.line.contains ';' = false := by
    rw [← Bool.not_eq_true, List.contains_iff_mem]
    intro hmem
    exact (d.plain ';' hmem).1 rfl
  rw [declarationLine, hsearch, hequals, hsemicolon]
  rfl

theorem extractMethod_iff (hbalanced : Balanced braces source.toList) :
    extractMethod re source name = some (d.first, d.last) ↔
      (∀ ln ∈ (linesOf source).take d.first, declarationLine re name ln = false) ∧
        declarationLine re name d.line = true ∧ d.Settled := by
  have hname : ¬ (name = "<init>" ∨ name = "<clinit>") := not_or.mpr d.named
  rw [extractMethod, if_neg hname, Option.map_eq_some_iff, ← and_assoc, ← d.findIdx_iff]
  constructor
  · rintro ⟨start, hstart, hspan⟩
    obtain ⟨hfirst, hlast⟩ := Prod.mk.inj hspan
    subst hfirst
    exact ⟨hstart, (d.closingLine_iff hbalanced _).mp hlast⟩
  · rintro ⟨hstart, hsettled⟩
    refine ⟨d.first, hstart, ?_⟩
    rw [(d.closingLine_iff hbalanced _).mpr hsettled]

theorem settled_of_opening (hopening : 0 ≤ depth braces d.opening)
    (hclosing : depth braces d.opening + depth braces d.closing ≤ 0) : d.Settled := by
  refine ⟨fun x y hinner => ?_, hclosing⟩
  have hinside : 0 ≤ depth braces x := by
    apply d.body.nonneg
    rw [hinner]
    exact List.prefix_append _ _
  linarith

theorem last_lt : d.last < (linesOf source).length := by
  have hlength := congrArg List.length d.drop_lines
  have hlt := d.inner_count_lt
  rw [List.length_drop] at hlength
  rw [last]
  omega

end Declaration

/-! ### The snippet -/

def shown (source : String) (first last : ℕ) : String :=
  "\n".intercalate (numbered 0 note.toList ::
    ((((linesOf source).zipIdx 1).drop first).take (last + 1 - first)).map fun ln => numbered ln.2 ln.1)

theorem buildSnippet_span {re : Re} {source name : String} {first last : ℕ} (line : ℤ)
    (h : extractMethod re source name = some (first, last)) (hlast : last < (linesOf source).length) :
    buildSnippet re source name line = shown source first last := by
  have hlines : (List.range' first (last + 1 - first)).map
        (fun idx => numbered (idx + 1) ((linesOf source).getD idx [])) =
      ((((linesOf source).zipIdx 1).drop first).take (last + 1 - first)).map fun ln => numbered ln.2 ln.1 := by
    apply List.ext_getElem
    · simp
      omega
    · intro i hi hi'
      rw [List.length_map, List.length_range'] at hi
      have hbound : first + i < (linesOf source).length := by omega
      simp [List.getElem?_eq_getElem hbound, Nat.add_comm 1]
  rw [buildSnippet, h]
  exact congrArg (fun lines => "\n".intercalate (numbered 0 note.toList :: lines)) hlines

theorem frame_shows_method {py : Python} {re : Re} {available : Bool} {decompileClass : String → String → Option String}
    {c b source name : String} {f : Dict} {frame' : Json}
    (hframe : Routes.Shown py (decompilerOf re available decompileClass) (some (c, b)) (.obj f) frame')
    (hsource : decompileClass c b = some source)
    (hname : Routes.firstOf f "methodName" "method_name" (.str "") = .str name) (d : Declaration re source name)
    (hbalanced : Balanced braces source.toList)
    (hbefore : ∀ ln ∈ (linesOf source).take d.first, declarationLine re name ln = false)
    (hline : declarationLine re name d.line = true) (hsettled : d.Settled) :
    frame' = .obj (Dict.set f "sourceSnippet" (.str (shown source d.first d.last))) := by
  have hextract := (d.extractMethod_iff hbalanced).mpr ⟨hbefore, hline, hsettled⟩
  cases hframe with
  | attached _ _ _ src snippet line hdecompiled _ hsnippet =>
    cases hsource.symm.trans hdecompiled
    rw [hname] at hsnippet
    cases hsnippet
    rw [buildSnippet_span line hextract d.last_lt]

/-- The snippet of a declared method is its lines exactly when no line before its declaration
passes the test for one, its own does, and the braces beside its body do not upset the scan. -/
theorem snippet_of_method_iff {re : Re} {source name : String} (d : Declaration re source name)
    (hbalanced : Balanced braces source.toList) (line : ℤ) :
    ((∀ c ∈ d.gap, re.space c = true) → declarationLine re name d.line = true) ∧
      ((extractMethod re source name = some (d.first, d.last) ∧
          buildSnippet re source name line = shown source d.first d.last) ↔
        (∀ ln ∈ (linesOf source).take d.first, declarationLine re name ln = false) ∧
          declarationLine re name d.line = true ∧ d.Settled) := by
  refine ⟨d.declarationLine_line, ?_⟩
  rw [← d.extractMethod_iff hbalanced]
  constructor
  · exact fun h => h.1
  · exact fun h => ⟨h, buildSnippet_span line h d.last_lt⟩

def fits (re : Re) (source name : String) (before gap header inner after : List Char) : Bool :=
  let opening := name.toList ++ gap ++ '(' :: header
  decide (source.toList = before ++ opening ++ '{' :: (inner ++ '}' :: after)) &&
    (name != "<init>" && name != "<clinit>") && boundary re before.getLast? && !opening.contains '\n' &&
    balances braces 0 inner &&
    (lastLine '\n' before ++ opening ++ '{' :: firstLine '\n' (inner ++ '}' :: after)).all fun c =>
      c != ';' && c != '='

section Fits

variable {re : Re} {source name : String} {before gap header inner after : List Char}

theorem fits_iff : fits re source name before gap header inner after = true ↔
    source.toList = before ++ (name.toList ++ gap ++ '(' :: header) ++ '{' :: (inner ++ '}' :: after) ∧
      (name ≠ "<init>" ∧ name ≠ "<clinit>") ∧ boundary re before.getLast? = true ∧
      '\n' ∉ name.toList ++ gap ++ '(' :: header ∧ Balanced braces inner ∧
      ∀ c ∈ lastLine '\n' before ++ (name.toList ++ gap ++ '(' :: header) ++
        '{' :: firstLine '\n' (inner ++ '}' :: after), c ≠ ';' ∧ c ≠ '=' := by
  simp only [fits, Bool.and_eq_true, decide_eq_true_eq, bne_iff_ne, Bool.not_eq_true', ← Bool.not_eq_true,
    List.contains_iff_mem, ← balanced_iff, List.all_eq_true, and_assoc]

def Declaration.ofFits (before gap header inner after : List Char)
    (h : fits re source name before gap header inner after = true) : Declaration re source name where
  before := before
  gap := gap
  header := header
  inner := inner
  after := after
  text := (fits_iff.mp h).1
  named := (fits_iff.mp h).2.1
  apart := (fits_iff.mp h).2.2.1
  oneLine := (fits_iff.mp h).2.2.2.1
  body := (fits_iff.mp h).2.2.2.2.1
  plain := (fits_iff.mp h).2.2.2.2.2

end Fits

def asciiRe : Re := ⟨fun c => c.isAlphanum || c == '_', Char.isWhitespace⟩

def demo : String :=
  "class Demo \x7b\n    int add(int a, int b) \x7b\n        return a + b;\n    \x7d\n" ++
    "    int sub(int a, int b) \x7b\n        return a - b;\n    \x7d\n\x7d\n"

def demoAdd : Declaration asciiRe demo "add" :=
  .ofFits "class Demo \x7b\n    int ".toList [] "int a, int b) ".toList "\n        return a + b;\n    ".toList
    "\n    int sub(int a, int b) \x7b\n        return a - b;\n    \x7d\n\x7d\n".toList (by decide +kernel)

theorem snippet_of_method_iff_demo :
    extractMethod asciiRe demo "add" = some (1, 3) ∧ buildSnippet asciiRe demo "add" 2 = shown demo 1 3 := by
  have hplace : balances braces 0 demo.toList = true ∧ (demoAdd.first = 1 ∧ demoAdd.last = 3) ∧
      (∀ ln ∈ (linesOf demo).take demoAdd.first, declarationLine asciiRe "add" ln = false) ∧
      0 ≤ depth braces demoAdd.opening ∧ depth braces demoAdd.opening + depth braces demoAdd.closing ≤ 0 := by
    decide +kernel
  obtain ⟨hbalances, ⟨hfirst, hlast⟩, hbefore, hopening, hclosing⟩ := hplace
  have hgap : ∀ c ∈ demoAdd.gap, asciiRe.space c = true := fun c hc => absurd hc List.not_mem_nil
  obtain ⟨hline, hiff⟩ := snippet_of_method_iff demoAdd ((balanced_iff braces).mpr hbalances) 2
  have hsnippet := hiff.mpr ⟨hbefore, hline hgap, demoAdd.settled_of_opening hopening hclosing⟩
  rw [hfirst, hlast] at hsnippet
  exact hsnippet

def guarded : String :=
  "class A \x7b\nint n() \x7b\nif (m())\nreturn 1;\nreturn 2;\n\x7d\nboolean m() \x7b\nreturn true;\n\x7d\n\x7d\n"

def guardedMethod : Declaration asciiRe guarded "m" :=
  .ofFits "class A \x7b\nint n() \x7b\nif (m())\nreturn 1;\nreturn 2;\n\x7d\nboolean ".toList [] ") ".toList
    "\nreturn true;\n".toList "\n\x7d\n".toList (by decide +kernel)

theorem guardedMethod_once : guardedMethod.Once := by
  intro other
  have hplace := other.drop_before
  have hlength : other.before.length < guarded.toList.length + 1 := by
    rw [other.text, List.length_append, List.length_append]
    omega
  have honly : ∀ n < guarded.toList.length + 1, "m".toList <+: guarded.toList.drop n ∧
      '{' ∈ firstLine '\n' (guarded.toList.drop n) → n = guardedMethod.before.length := by
    decide +kernel
  have heq := honly _ hlength hplace
  have htext := other.text.symm.trans guardedMethod.text
  rw [List.append_assoc, List.append_assoc guardedMethod.before] at htext
  exact (List.append_inj htext heq).1

theorem snippet_of_method_missed :
    ¬ ∀ (re : Re) (source name : String) (d : Declaration re source name) (line : ℤ),
      Balanced braces source.toList → d.Once →
        extractMethod re source name = some (d.first, d.last) ∧
          buildSnippet re source name line = shown source d.first d.last := by
  intro h
  have hcall : balances braces 0 guarded.toList = true ∧ extractMethod asciiRe guarded "m" = some (2, 6) ∧
      guardedMethod.first = 6 := by
    decide +kernel
  obtain ⟨hbalances, hfound, hfirst⟩ := hcall
  have hspan := (h asciiRe guarded "m" guardedMethod 7 ((balanced_iff braces).mpr hbalances) guardedMethod_once).1
  rw [hfound, hfirst] at hspan
  simp at hspan

end JvmScout.Snippets
