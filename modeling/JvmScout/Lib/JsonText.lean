import JvmScout.Lib.Json
import JvmScout.Lib.Utf16
import Mathlib.Data.List.TakeDrop
import Mathlib.Data.Rat.Lemmas

namespace JsonText

open Json

def isWs (c : Char) : Bool := c = ' ' || c = '\t' || c = '\n' || c = '\r'

def hexVal (c : Char) : Option ℕ :=
  if '0' ≤ c ∧ c ≤ '9' then some (c.toNat - 48)
  else if 'a' ≤ c ∧ c ≤ 'f' then some (c.toNat - 87)
  else if 'A' ≤ c ∧ c ≤ 'F' then some (c.toNat - 55)
  else none

def shortEscape (c : Char) : Option ℕ :=
  if c = '"' ∨ c = '\\' ∨ c = '/' then some c.toNat
  else if c = 'b' then some 8
  else if c = 'f' then some 12
  else if c = 'n' then some 10
  else if c = 'r' then some 13
  else if c = 't' then some 9
  else none

def units : List Char → Option (List ℕ × List Char)
  | [] => none
  | c :: rest =>
    if c = '"' then some ([], rest)
    else if c = '\\' then
      match rest with
      | [] => none
      | e :: rest =>
        if e = 'u' then
          match rest with
          | h₁ :: h₂ :: h₃ :: h₄ :: rest => do
            let a ← hexVal h₁
            let b ← hexVal h₂
            let c ← hexVal h₃
            let d ← hexVal h₄
            let (us, rest) ← units rest
            return ((a * 0x1000 + b * 0x100 + c * 0x10 + d) :: us, rest)
          | _ => none
        else do
          let u ← shortEscape e
          let (us, rest) ← units rest
          return (u :: us, rest)
    else if c.toNat < 0x20 then none
    else do
      let (us, rest) ← units rest
      return (Utf16.ofChar c ++ us, rest)

def text (s : List Char) : Option (String × List Char) := do
  let (us, rest) ← units s
  let cs ← Utf16.decode us
  return (String.ofList cs, rest)

def intPart (s : List Char) : Option (List Char × List Char) :=
  match s with
  | '0' :: rest => some (['0'], rest)
  | _ =>
    match s.span Char.isDigit with
    | ([], _) => none
    | (ds, rest) => some (ds, rest)

def fracPart (s : List Char) : List Char × List Char :=
  match s with
  | '.' :: rest =>
    match rest.span Char.isDigit with
    | ([], _) => ([], s)
    | (ds, rest) => (ds, rest)
  | _ => ([], s)

def signed (s : List Char) : Bool × List Char :=
  match s with
  | '-' :: rest => (true, rest)
  | '+' :: rest => (false, rest)
  | _ => (false, s)

def expPart (s : List Char) : Option ℤ × List Char :=
  match s with
  | e :: rest =>
    if e = 'e' ∨ e = 'E' then
      match (signed rest).2.span Char.isDigit with
      | ([], _) => (none, s)
      | (ds, rest') =>
        let n : ℤ := Nat.ofDigitChars 10 ds 0
        (some (if (signed rest).1 then -n else n), rest')
    else (none, s)
  | [] => (none, s)

def magnitude (s : List Char) (sign : ℤ) : Option (Json × List Char) := do
  let (ds, rest) ← intPart s
  let (frac, rest) := fracPart rest
  let (exp, rest) := expPart rest
  match frac, exp with
  | [], none => return (.int (sign * Nat.ofDigitChars 10 ds 0), rest)
  | _, _ =>
    let mantissa : ℤ := sign * Nat.ofDigitChars 10 (ds ++ frac) 0
    return (.float ((mantissa : ℚ) * (10 : ℚ) ^ (exp.getD 0 - (frac.length : ℤ))), rest)

def number (s : List Char) : Option (Json × List Char) :=
  match s with
  | '-' :: rest => magnitude rest (-1)
  | _ => magnitude s 1

def literals : List (List Char × Json) :=
  [("null".toList, .null), ("true".toList, .bool true), ("false".toList, .bool false)]

def literal (s : List Char) : Option (Json × List Char) :=
  (literals.find? fun l => l.1.isPrefixOf s).map fun l => (l.2, s.drop l.1.length)

mutual

def value : ℕ → List Char → Option (Json × List Char)
  | 0, _ => none
  | n + 1, s =>
    match s.dropWhile isWs with
    | [] => none
    | c :: rest =>
      if c = '"' then do
        let (t, rest) ← text rest
        return (.str t, rest)
      else if c = '[' then
        match rest.dropWhile isWs with
        | ']' :: rest => some (.arr [], rest)
        | _ => do
          let (vs, rest) ← elements n rest
          return (.arr vs, rest)
      else if c = '{' then
        match rest.dropWhile isWs with
        | '}' :: rest => some (.obj [], rest)
        | _ => do
          let (d, rest) ← members n rest []
          return (.obj d, rest)
      else if c = '-' ∨ c.isDigit then number (c :: rest)
      else literal (c :: rest)

def elements : ℕ → List Char → Option (List Json × List Char)
  | 0, _ => none
  | n + 1, s => do
    let (v, rest) ← value n s
    match rest.dropWhile isWs with
    | ',' :: rest => do
      let (vs, rest) ← elements n rest
      return (v :: vs, rest)
    | ']' :: rest => return ([v], rest)
    | _ => none

def members : ℕ → List Char → Dict → Option (Dict × List Char)
  | 0, _, _ => none
  | n + 1, s, d =>
    match s.dropWhile isWs with
    | '"' :: rest => do
      let (k, rest) ← text rest
      match rest.dropWhile isWs with
      | ':' :: rest => do
        let (v, rest) ← value n rest
        match rest.dropWhile isWs with
        | ',' :: rest => members n rest (Dict.set d k v)
        | '}' :: rest => return (Dict.set d k v, rest)
        | _ => none
      | _ => none
    | _ => none

end

def parse (s : String) : Option Json :=
  match value (s.toList.length + 1) s.toList with
  | some (v, rest) => if rest.all isWs then some v else none
  | none => none

def Delimited (rest : List Char) : Prop := ∀ c ∈ rest.head?, c = ',' ∨ c = ']' ∨ c = '}'

/-- The text is read as the value, whatever follows it; nothing in front of it can be skipped. -/
structure Reads (s : String) (v : Json) : Prop where
  read : ∀ n rest, s.toList.length ≤ n → Delimited rest → value n (s.toList ++ rest) = some (v, rest)
  start : ∃ c t, s.toList = c :: t ∧ isWs c = false ∧ c ≠ ']'

def ReadsText (s : String) (t : String) : Prop :=
  ∀ rest, text (s.toList ++ '"' :: rest) = some (t, rest)

def separated (comma : Bool) : List String → String
  | [] => ""
  | s :: ss => (if comma then "," else "") ++ s ++ separated true ss

theorem Reads.ne_nil {s : String} {v : Json} (h : Reads s v) : 0 < s.toList.length := by
  obtain ⟨c, t, hs, -⟩ := h.start
  rw [hs]
  exact Nat.succ_pos _

theorem dropWhile_start {c : Char} (hc : isWs c = false) (t : List Char) :
    (c :: t).dropWhile isWs = c :: t := by
  simp [hc]

theorem parse_of_reads {s : String} {v : Json} (h : Reads s v) : parse s = some v := by
  have hread := h.read (s.toList.length + 1) [] (Nat.le_succ _) (fun c hc => by cases hc)
  rw [List.append_nil] at hread
  rw [parse, hread]
  rfl

theorem reads_null : Reads "null" .null := by
  refine ⟨fun n rest hn _ => ?_, 'n', _, rfl, rfl, by decide⟩
  cases n with
  | zero => cases hn
  | succ n => rfl

theorem reads_bool (b : Bool) : Reads (if b then "true" else "false") (.bool b) := by
  cases b with
  | true =>
    refine ⟨fun n rest hn _ => ?_, 't', _, rfl, rfl, by decide⟩
    cases n with
    | zero => cases hn
    | succ n => rfl
  | false =>
    refine ⟨fun n rest hn _ => ?_, 'f', _, rfl, rfl, by decide⟩
    cases n with
    | zero => cases hn
    | succ n => rfl

theorem toList_quoted (s : String) : ("\"" ++ s ++ "\"").toList = '"' :: (s.toList ++ ['"']) := by
  simp

theorem reads_text {s t : String} (h : ReadsText s t) : Reads ("\"" ++ s ++ "\"") (.str t) := by
  refine ⟨fun n rest hn _ => ?_, '"', _, toList_quoted s, rfl, by decide⟩
  rw [toList_quoted] at hn ⊢
  cases n with
  | zero => cases hn
  | succ n =>
    have hread := h rest
    rw [List.cons_append, List.append_assoc, value, dropWhile_start rfl]
    simp [hread]

theorem units_quote (rest : List Char) : units ('"' :: rest) = some ([], rest) := by
  rw [units.eq_def]
  rfl

theorem hexVal_digitChar : ∀ n < 0x10, hexVal (Nat.digitChar n) = some n := by decide

theorem units_hex {u : ℕ} (hu : u < 0x10000) (rest : List Char) :
    units ('\\' :: 'u' :: Nat.digitChar (u / 0x1000 % 0x10) :: Nat.digitChar (u / 0x100 % 0x10) ::
      Nat.digitChar (u / 0x10 % 0x10) :: Nat.digitChar (u % 0x10) :: rest) =
        (units rest).map fun p => (u :: p.1, p.2) := by
  have hvalue : u / 0x1000 % 0x10 * 0x1000 + u / 0x100 % 0x10 * 0x100 + u / 0x10 % 0x10 * 0x10 + u % 0x10 = u := by
    omega
  rw [units]
  simp only [Char.reduceEq, if_false, if_true, hexVal_digitChar _ (Nat.mod_lt _ (by decide : 0 < 0x10)), bind,
    Option.bind_some, hvalue]
  cases units rest <;> rfl

theorem units_plain {c : Char} (hc : 0x20 ≤ c.toNat ∧ c.toNat < 0x10000) (hquote : c ≠ '"') (hslash : c ≠ '\\')
    (rest : List Char) :
    units (c :: rest) = (units rest).map fun p => (c.toNat :: p.1, p.2) := by
  rw [units.eq_def]
  simp only [hquote, hslash, if_false, Nat.not_lt.mpr hc.1, Utf16.ofChar, hc.2, if_true, bind]
  cases units rest <;> rfl

theorem units_short {e : Char} {u : ℕ} (he : e ≠ 'u') (hu : shortEscape e = some u) (rest : List Char) :
    units ('\\' :: e :: rest) = (units rest).map fun p => (u :: p.1, p.2) := by
  rw [units.eq_def]
  simp only [Char.reduceEq, if_false, if_true, he, hu, bind, Option.bind_some]
  cases units rest <;> rfl

theorem span_digits {ds rest : List Char} (hds : ∀ c ∈ ds, c.isDigit = true)
    (hrest : ∀ c ∈ rest.head?, c.isDigit = false) : (ds ++ rest).span Char.isDigit = (ds, rest) := by
  rw [List.span_eq_takeWhile_dropWhile, List.takeWhile_append_of_pos hds, List.dropWhile_append_of_pos hds]
  cases rest with
  | nil => simp
  | cons c rest =>
    have hc : c.isDigit = false := hrest c rfl
    simp [hc]

theorem head_toDigits (n : ℕ) : 0 < n → ∀ c ∈ (Nat.toDigits 10 n).head?, c ≠ '0' := by
  induction n using Nat.strongRecOn with
  | ind n ih =>
    intro hn c hc
    rw [Nat.toDigits_eq_if (by decide)] at hc
    split at hc
    · have hdigit : ∀ m < 10, 0 < m → Nat.digitChar m ≠ '0' := by decide
      cases hc
      exact hdigit n (by assumption) hn
    · rw [List.head?_append_of_ne_nil _ Nat.toDigits_ne_nil] at hc
      exact ih (n / 10) (by omega) (by omega) c hc

theorem Delimited.not_digit {rest : List Char} (h : Delimited rest) : ∀ c ∈ rest.head?, c.isDigit = false := by
  intro c hc
  rcases h c hc with rfl | rfl | rfl <;> rfl

theorem intPart_toDigits (n : ℕ) {rest : List Char} (h : Delimited rest) :
    intPart (Nat.toDigits 10 n ++ rest) = some (Nat.toDigits 10 n, rest) := by
  have hspan : (Nat.toDigits 10 n ++ rest).span Char.isDigit = (Nat.toDigits 10 n, rest) :=
    span_digits (fun c hc => Nat.isDigit_of_mem_toDigits (by decide) (by decide) hc) h.not_digit
  cases n with
  | zero => rfl
  | succ n =>
    obtain ⟨c, ds, hds⟩ := List.exists_cons_of_ne_nil (Nat.toDigits_ne_nil (n := n + 1) (b := 10))
    have hc : c ≠ '0' := head_toDigits (n + 1) (Nat.succ_pos n) c (by rw [hds]; rfl)
    rw [hds] at hspan ⊢
    unfold intPart
    split
    · rename_i hcons
      cases hcons
      exact absurd rfl hc
    · rw [hspan]

theorem Delimited.fracPart {rest : List Char} (h : Delimited rest) : fracPart rest = ([], rest) := by
  unfold JsonText.fracPart
  split
  · rcases h '.' rfl with hc | hc | hc <;> cases hc
  · rfl

theorem Delimited.expPart {rest : List Char} (h : Delimited rest) : expPart rest = (none, rest) := by
  cases rest with
  | nil => rfl
  | cons c rest =>
    rcases h c rfl with rfl | rfl | rfl <;> rfl

theorem magnitude_toDigits (n : ℕ) (sign : ℤ) {rest : List Char} (h : Delimited rest) :
    magnitude (Nat.toDigits 10 n ++ rest) sign = some (.int (sign * n), rest) := by
  simp [magnitude, intPart_toDigits n h, h.fracPart, h.expPart, Nat.ofDigitChars_ten_toDigits]

theorem reads_number {s : String} {v : Json} {c : Char} {t : List Char} (hs : s.toList = c :: t)
    (hc : c = '-' ∨ c.isDigit = true)
    (hnumber : ∀ rest, Delimited rest → number (s.toList ++ rest) = some (v, rest)) : Reads s v := by
  have hother : isWs c = false ∧ c ≠ ']' ∧ c ≠ '"' ∧ c ≠ '[' ∧ c ≠ '{' := by
    rcases hc with rfl | hc
    · decide
    · refine ⟨?_, ?_, ?_, ?_, ?_⟩
      · by_contra hws
        simp only [isWs, Bool.not_eq_false, Bool.or_eq_true, decide_eq_true_eq] at hws
        rcases hws with ((rfl | rfl) | rfl) | rfl <;> cases hc
      all_goals
        rintro rfl
        cases hc
  obtain ⟨hws, hclose, hquote, hbracket, hbrace⟩ := hother
  refine ⟨fun n rest hn hd => ?_, c, t, hs, hws, hclose⟩
  have hread := hnumber rest hd
  cases n with
  | zero =>
    rw [hs] at hn
    cases hn
  | succ n =>
    rw [hs, List.cons_append] at hread ⊢
    rw [value, dropWhile_start hws]
    simp [hquote, hbracket, hbrace, hc, hread]

theorem reads_nat (n : ℕ) : Reads n.repr (.int n) := by
  obtain ⟨c, ds, hds⟩ := List.exists_cons_of_ne_nil (Nat.toDigits_ne_nil (n := n) (b := 10))
  have hdigit : c.isDigit = true :=
    Nat.isDigit_of_mem_toDigits (n := n) (b := 10) (by decide) (by decide) (by rw [hds]; exact List.mem_cons_self)
  have hlist : n.repr.toList = c :: ds := by rw [Nat.toList_repr, hds]
  refine reads_number hlist (.inr hdigit) fun rest hd => ?_
  have hmagnitude := magnitude_toDigits n 1 hd
  rw [one_mul, hds, List.cons_append] at hmagnitude
  rw [hlist, List.cons_append]
  unfold number
  split
  · rename_i hcons
    cases hcons
    cases hdigit
  · exact hmagnitude

theorem reads_int (n : ℤ) : Reads (toString n) (.int n) := by
  rw [Int.toString_eq_repr, Int.repr_eq_if]
  split
  · have hnat := reads_nat n.toNat
    rwa [Int.toNat_of_nonneg (by assumption)] at hnat
  · have hlist : ("-" ++ (-n).toNat.repr).toList = '-' :: Nat.toDigits 10 (-n).toNat := by
      simp
    refine reads_number hlist (.inl rfl) fun rest hd => ?_
    have hmagnitude := magnitude_toDigits (-n).toNat (-1) hd
    have hneg : -1 * ((-n).toNat : ℤ) = n := by omega
    rw [hlist, List.cons_append]
    rw [hneg] at hmagnitude
    exact hmagnitude

theorem toList_separated (comma : Bool) (s : String) (ss : List String) :
    (separated comma (s :: ss)).toList =
      (if comma then [','] else []) ++ s.toList ++ (separated true ss).toList := by
  cases comma <;> simp [separated]

theorem toList_separated_true (s : String) (ss : List String) :
    (separated true (s :: ss)).toList = ',' :: (separated false (s :: ss)).toList := by
  simp [toList_separated]

theorem delimited_cons {c : Char} (hc : c = ',' ∨ c = ']' ∨ c = '}') (rest : List Char) :
    Delimited (c :: rest) := by
  rintro _ ⟨⟩
  exact hc

theorem elements_separated {ss : List String} {vs : List Json} (h : List.Forall₂ Reads ss vs) (hne : ss ≠ [])
    {n : ℕ} (hn : (separated false ss).toList.length < n) (rest : List Char) :
    elements n ((separated false ss).toList ++ ']' :: rest) = some (vs, rest) := by
  induction h generalizing n with
  | nil => exact absurd rfl hne
  | @cons s v ss vs hs hss ih =>
    cases n with
    | zero => cases hn
    | succ n =>
      rw [toList_separated, List.length_append] at hn
      have hlen : s.toList.length ≤ n := by
        simp only [Bool.false_eq_true, if_false, List.nil_append] at hn
        omega
      cases ss with
      | nil =>
        cases hss
        have hread := hs.read n (']' :: rest) hlen (delimited_cons (.inr (.inl rfl)) rest)
        rw [elements, toList_separated]
        simp [separated, hread, isWs]
      | cons s' ss =>
        have hrest : (separated false (s' :: ss)).toList.length < n := by
          rw [toList_separated_true] at hn
          simp only [Bool.false_eq_true, if_false, List.nil_append, List.length_cons] at hn
          have hpos := hs.ne_nil
          omega
        have hread := hs.read n (',' :: ((separated false (s' :: ss)).toList ++ ']' :: rest)) hlen
          (delimited_cons (.inl rfl) _)
        have hmore := ih (by simp) hrest
        rw [elements, toList_separated, toList_separated_true]
        simp [hread, hmore, isWs]

theorem value_elements {n : ℕ} {c : Char} {t rest : List Char} {vs : List Json} (hws : isWs c = false) (hc : c ≠ ']')
    (h : elements n (c :: t) = some (vs, rest)) : value (n + 1) ('[' :: c :: t) = some (.arr vs, rest) := by
  rw [value, dropWhile_start rfl]
  simp only [Char.reduceEq, if_false, if_true, dropWhile_start hws, h]
  split
  · rename_i heq
    cases heq
    exact absurd rfl hc
  · rfl

theorem reads_arr {ss : List String} {vs : List Json} (h : List.Forall₂ Reads ss vs) :
    Reads ("[" ++ separated false ss ++ "]") (.arr vs) := by
  have hlist : ("[" ++ separated false ss ++ "]").toList = '[' :: ((separated false ss).toList ++ [']']) := by simp
  refine ⟨fun n rest hn _ => ?_, '[', _, hlist, rfl, by decide⟩
  rw [hlist] at hn ⊢
  cases n with
  | zero => cases hn
  | succ n =>
    rw [List.cons_append, List.append_assoc]
    cases h with
    | nil =>
      rw [value, dropWhile_start rfl]
      simp [separated, isWs]
    | @cons s v ss vs hs hss =>
      have hlen : (separated false (s :: ss)).toList.length < n := by
        simp only [List.length_cons, List.length_append, List.length_nil] at hn
        omega
      have hread := elements_separated (.cons hs hss) (by simp) hlen rest
      obtain ⟨c, t, hstart, hws, hc⟩ := hs.start
      have hcons : (separated false (s :: ss)).toList ++ ']' :: rest =
          c :: (t ++ (separated true ss).toList ++ ']' :: rest) := by
        rw [toList_separated, hstart]
        simp
      rw [List.singleton_append, hcons]
      rw [hcons] at hread
      exact value_elements hws hc hread

structure ReadsMember (s : String) (k : String) (v : Json) : Prop where
  split : ∃ ks vs, s = "\"" ++ ks ++ "\":" ++ vs ∧ ReadsText ks k ∧ Reads vs v

theorem readsMember {ks vs k : String} {v : Json} (hk : ReadsText ks k) (hv : Reads vs v) :
    ReadsMember ("\"" ++ ks ++ "\":" ++ vs) k v := ⟨ks, vs, rfl, hk, hv⟩

theorem members_separated {ss : List String} {kvs : List (String × Json)}
    (h : List.Forall₂ (fun s kv => ReadsMember s kv.1 kv.2) ss kvs) (hne : ss ≠ [])
    {n : ℕ} (hn : (separated false ss).toList.length < n) (d : Dict) (rest : List Char) :
    members n ((separated false ss).toList ++ '}' :: rest) d =
      some (kvs.foldl (fun d kv => Dict.set d kv.1 kv.2) d, rest) := by
  induction h generalizing n d with
  | nil => exact absurd rfl hne
  | @cons s kv ss kvs hs hss ih =>
    cases n with
    | zero => cases hn
    | succ n =>
      obtain ⟨ks, vs, rfl, hk, hv⟩ := hs
      rw [toList_separated, List.length_append] at hn
      have hlen : vs.toList.length ≤ n := by
        simp at hn
        omega
      cases ss with
      | nil =>
        cases hss
        have hkey := hk (':' :: (vs.toList ++ '}' :: rest))
        have hread := hv.read n ('}' :: rest) hlen (delimited_cons (.inr (.inr rfl)) rest)
        rw [members, toList_separated]
        simp [separated, hkey, hread, isWs]
      | cons s' ss =>
        have hrest : (separated false (s' :: ss)).toList.length < n := by
          rw [toList_separated_true] at hn
          simp at hn
          omega
        have hkey := hk (':' :: (vs.toList ++ ',' :: ((separated false (s' :: ss)).toList ++ '}' :: rest)))
        have hread := hv.read n (',' :: ((separated false (s' :: ss)).toList ++ '}' :: rest)) hlen
          (delimited_cons (.inl rfl) _)
        have hmore := ih (by simp) hrest (Dict.set d kv.1 kv.2)
        rw [members, toList_separated, toList_separated_true]
        simp [hkey, hread, hmore, isWs]

theorem reads_obj {ss : List String} {kvs : List (String × Json)}
    (h : List.Forall₂ (fun s kv => ReadsMember s kv.1 kv.2) ss kvs) :
    Reads ("\x7b" ++ separated false ss ++ "\x7d") (.obj (kvs.foldl (fun d kv => Dict.set d kv.1 kv.2) [])) := by
  have hlist : ("\x7b" ++ separated false ss ++ "\x7d").toList = '{' :: ((separated false ss).toList ++ ['}']) := by
    simp
  refine ⟨fun n rest hn _ => ?_, '{', _, hlist, rfl, by decide⟩
  rw [hlist] at hn ⊢
  cases n with
  | zero => cases hn
  | succ n =>
    rw [List.cons_append, List.append_assoc, value, dropWhile_start rfl]
    cases h with
    | nil => simp [separated, isWs]
    | @cons s kv ss kvs hs hss =>
      have hlen : (separated false (s :: ss)).toList.length < n := by
        simp only [List.length_cons, List.length_append, List.length_nil] at hn
        omega
      have hread := members_separated (.cons hs hss) (by simp) hlen [] rest
      obtain ⟨ks, vs, rfl, -, -⟩ := hs
      rw [toList_separated] at hread ⊢
      simp at hread
      simp [isWs, hread]

theorem foldl_set_of_nodup {d : Dict} {kvs : List (String × Json)} (h : ((d ++ kvs).map Prod.fst).Nodup) :
    kvs.foldl (fun d kv => Dict.set d kv.1 kv.2) d = d ++ kvs := by
  induction kvs generalizing d with
  | nil => rw [List.foldl_nil, List.append_nil]
  | cons kv kvs ih =>
    have hnew : Assoc.get? d kv.1 = none := by
      rw [Assoc.get?, Option.map_eq_none_iff, List.find?_eq_none]
      intro e he heq
      rw [List.map_append, List.map_cons] at h
      exact (List.nodup_append.mp h).2.2 _ (List.mem_map_of_mem he) _ List.mem_cons_self (beq_iff_eq.mp heq)
    rw [List.foldl_cons, Dict.set, Assoc.set_new hnew]
    rw [List.append_cons] at h
    rw [ih h, ← List.append_cons]

theorem reads_obj_of_nodup {ss : List String} {kvs : List (String × Json)}
    (h : List.Forall₂ (fun s kv => ReadsMember s kv.1 kv.2) ss kvs) (hkeys : (kvs.map Prod.fst).Nodup) :
    Reads ("\x7b" ++ separated false ss ++ "\x7d") (.obj kvs) := by
  have hread := reads_obj h
  rwa [foldl_set_of_nodup (d := []) hkeys, List.nil_append] at hread

end JsonText
