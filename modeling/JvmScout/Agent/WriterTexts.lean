import JvmScout.Agent.JsonWriter
import JvmScout.Lib.Peel

namespace JvmScout.Agent.JsonWriter

open Peel

structure IsText (f : JsonWriter → JsonWriter) (s : String) : Prop where
  write : ∀ w, f w = ⟨w.out ++ w.separator ++ s, true, false⟩
  start : ∃ c t, s.toList = c :: t ∧ c ≠ ']'

structure Tells (f g : JsonWriter → JsonWriter) (P : Prop) : Prop where
  texts : ∃ s t, IsText f s ∧ IsText g t ∧ Peels s.toList t.toList P

structure TellsParts (f g : JsonWriter → JsonWriter) (P : Prop) : Prop where
  texts : ∀ comma, ∃ s t comma', (∀ out, f ⟨out, comma, false⟩ = ⟨out ++ s, comma', false⟩) ∧
    (∀ out, g ⟨out, comma, false⟩ = ⟨out ++ t, comma', false⟩) ∧ Peels s.toList t.toList P

variable {f g f' g' : JsonWriter → JsonWriter} {s t : String} {P Q : Prop}

theorem IsText.tells (h : IsText f s) : Tells f f True := ⟨s, s, h, h, Peels.self _⟩

theorem IsText.eq (h : IsText f s) : s = (f empty).out := by
  rw [h.write]
  simp [empty, separator]

theorem Tells.out_eq (h : Tells f g P) : (f empty).out = (g empty).out ↔ P := by
  obtain ⟨s, t, hs, ht, hpeel⟩ := h.texts
  rw [← hs.eq, ← ht.eq, ← hpeel.eq_iff, String.toList_inj]

theorem Tells.congr (h : Tells f g P) (hPQ : P ↔ Q) : Tells f g Q := by
  obtain ⟨s, t, hs, ht, hpeel⟩ := h.texts
  exact ⟨s, t, hs, ht, hpeel.congr hPQ⟩

theorem TellsParts.congr (h : TellsParts f g P) (hPQ : P ↔ Q) : TellsParts f g Q := by
  constructor
  intro comma
  obtain ⟨s, t, comma', hs, ht, hpeel⟩ := h.texts comma
  exact ⟨s, t, comma', hs, ht, hpeel.congr hPQ⟩

theorem masked_shift_lt (b : UInt8) {mask shift : ℕ} (h : mask * 2 ^ shift < 2 ^ 16) :
    (b.toNat &&& mask) <<< shift < 2 ^ 16 := by
  rw [Nat.shiftLeft_eq]
  exact (Nat.mul_le_mul_right _ Nat.and_le_right).trans_lt h

theorem twoByteUnit_lt (b0 b1 : UInt8) : twoByteUnit b0 b1 < 0x10000 := by
  apply Nat.or_lt_two_pow (n := 16)
  · exact masked_shift_lt b0 (by decide)
  · exact Nat.and_le_right.trans_lt (by decide)

theorem threeByteUnit_lt (b0 b1 b2 : UInt8) : threeByteUnit b0 b1 b2 < 0x10000 := by
  apply Nat.or_lt_two_pow (n := 16)
  · apply Nat.or_lt_two_pow
    · exact masked_shift_lt b0 (by decide)
    · exact masked_shift_lt b1 (by decide)
  · exact Nat.and_le_right.trans_lt (by decide)

theorem codeUnits_lt (s : Bytes) : ∀ u ∈ codeUnits s, u < 0x10000 := by
  have hbyte (b : UInt8) : b.toNat < 0x10000 := b.toNat_lt.trans (by decide)
  fun_induction codeUnits s with
  | case1 | case3 => simp
  | case5 | case8 => simp_all [twoByteUnit_lt]
  | case9 => simp_all [threeByteUnit_lt]
  | case2 | case4 | case6 | case7 | case10 => simp_all

theorem isText_string (v : Bytes) : IsText (valueString v) ("\"" ++ escape v ++ "\"") := by
  refine ⟨fun w => ?_, '"', _, JsonText.toList_quoted _, by decide⟩
  rw [valueString, prefixed_eq]
  simp only [String.append_assoc]

theorem tells_string (v v' : Bytes) :
    Tells (valueString v) (valueString v') (codeUnits v = codeUnits v') := by
  refine ⟨_, _, isText_string v, isText_string v', fun r r' => ?_⟩
  have hread (v : Bytes) := units_escape (codeUnits_lt v)
  rw [JsonText.toList_quoted, JsonText.toList_quoted]
  simp only [List.cons_append, List.append_assoc, List.cons.injEq, true_and, List.nil_append]
  constructor
  · intro heq
    have hunits := hread v r
    rw [heq, hread v' r', Option.some_inj, Prod.mk.injEq] at hunits
    exact ⟨hunits.1.symm, hunits.2.symm⟩
  · rintro ⟨hunits, rfl⟩
    rw [escape, escape, hunits]

theorem isText_int (n : ℤ) : IsText (valueInt n) (toString n) := by
  obtain ⟨c, t, hstart, -, hc⟩ := (JsonText.reads_int n).start
  refine ⟨fun w => ?_, c, t, hstart, hc⟩
  rw [valueInt, prefixed_eq]

theorem isText_bool (b : Bool) : IsText (valueBool b) (if b then "true" else "false") := by
  obtain ⟨c, t, hstart, -, hc⟩ := (JsonText.reads_bool b).start
  refine ⟨fun w => ?_, c, t, hstart, hc⟩
  rw [valueBool, prefixed_eq]

theorem isText_null : IsText valueNull "null" := by
  refine ⟨fun w => ?_, 'n', _, rfl, by decide⟩
  rw [valueNull, prefixed_eq]

def keyBytes (k : Bytes) (w : JsonWriter) : JsonWriter :=
  { w.prefixed with out := w.prefixed.out ++ "\"" ++ escape k ++ "\":", afterKey := true }

theorem Tells.field (h : Tells f g P) (k : Bytes) :
    TellsParts (fun w => f (w.keyBytes k)) (fun w => g (w.keyBytes k)) P := by
  obtain ⟨s, t, hs, ht, hpeel⟩ := h.texts
  have hkey (f : JsonWriter → JsonWriter) {s : String} (hs : IsText f s) (out : String) (comma : Bool) :
      f (keyBytes k ⟨out, comma, false⟩) =
        ⟨out ++ ((if comma then "," else "") ++ "\"" ++ escape k ++ "\":" ++ s), true, false⟩ := by
    rw [hs.write, keyBytes, prefixed_eq]
    simp [separator, String.append_assoc]
  constructor
  intro comma
  refine ⟨_, _, true, fun out => hkey f hs out comma, fun out => hkey g ht out comma, ?_⟩
  simp only [String.toList_append]
  exact hpeel.before _

theorem Tells.item (h : Tells f g P) : TellsParts f g P := by
  obtain ⟨s, t, hs, ht, hpeel⟩ := h.texts
  constructor
  intro comma
  refine ⟨(if comma then "," else "") ++ s, (if comma then "," else "") ++ t, true,
    fun out => ?_, fun out => ?_, ?_⟩
  · rw [hs.write, String.append_assoc]
    rfl
  · rw [ht.write, String.append_assoc]
    rfl
  · rw [String.toList_append, String.toList_append]
    exact hpeel.before _

theorem TellsParts.append (h : TellsParts f g P) (h' : TellsParts f' g' Q) :
    TellsParts (fun w => f' (f w)) (fun w => g' (g w)) (P ∧ Q) := by
  constructor
  intro comma
  obtain ⟨s, t, comma', hs, ht, hpeel⟩ := h.texts comma
  obtain ⟨s', t', comma'', hs', ht', hpeel'⟩ := h'.texts comma'
  refine ⟨s ++ s', t ++ t', comma'', fun out => ?_, fun out => ?_, ?_⟩
  · rw [hs, hs', String.append_assoc]
  · rw [ht, ht', String.append_assoc]
  · rw [String.toList_append, String.toList_append]
    exact hpeel.append hpeel'

theorem tellsParts_nil : TellsParts id id True := by
  constructor
  intro comma
  exact ⟨"", "", comma, fun out => by simp, fun out => by simp, Peels.self _⟩

theorem TellsParts.object (h : TellsParts f g P) :
    Tells (fun w => (f w.beginObject).endObject) (fun w => (g w.beginObject).endObject) P := by
  obtain ⟨s, t, comma', hs, ht, hpeel⟩ := h.texts false
  have hwrite (f : JsonWriter → JsonWriter) {s : String}
      (hs : ∀ out, f ⟨out, false, false⟩ = ⟨out ++ s, comma', false⟩) :
      IsText (fun w => (f w.beginObject).endObject) ("\x7b" ++ s ++ "\x7d") := by
    refine ⟨fun w => ?_, '{', s.toList ++ ['}'], by simp, by decide⟩
    dsimp only [beginObject]
    rw [prefixed_eq, hs, endObject]
    simp only [String.append_assoc]
  refine ⟨_, _, hwrite f hs, hwrite g ht, ?_⟩
  simp only [String.toList_append]
  exact (hpeel.before _).after _

theorem TellsParts.array (h : TellsParts f g P) :
    Tells (fun w => (f w.beginArray).endArray) (fun w => (g w.beginArray).endArray) P := by
  obtain ⟨s, t, comma', hs, ht, hpeel⟩ := h.texts false
  have hwrite (f : JsonWriter → JsonWriter) {s : String}
      (hs : ∀ out, f ⟨out, false, false⟩ = ⟨out ++ s, comma', false⟩) :
      IsText (fun w => (f w.beginArray).endArray) ("[" ++ s ++ "]") := by
    refine ⟨fun w => ?_, '[', s.toList ++ [']'], by simp, by decide⟩
    dsimp only [beginArray]
    rw [prefixed_eq, hs, endArray]
    simp only [String.append_assoc]
  refine ⟨_, _, hwrite f hs, hwrite g ht, ?_⟩
  simp only [String.toList_append]
  exact (hpeel.before _).after _

section Lists

variable {β : Type} {write : β → JsonWriter → JsonWriter} {R : β → β → Prop}

theorem TellsParts.each {Q : β → β → Prop} (h : ∀ x y, Q x y → TellsParts (write x) (write y) (R x y))
    {xs ys : List β} (hxy : List.Forall₂ Q xs ys) :
    TellsParts (fun w => xs.foldl (fun w x => write x w) w) (fun w => ys.foldl (fun w x => write x w) w)
      (List.Forall₂ R xs ys) := by
  induction hxy with
  | nil => exact tellsParts_nil.congr (iff_of_true trivial .nil)
  | cons hx _ ih =>
    rw [List.forall₂_cons]
    exact (h _ _ hx).append ih

def texts (text : β → String) : Bool → List β → List Char :=
  parts fun comma x => (if comma then [','] else []) ++ (text x).toList

theorem foldl_texts {text : β → String} (h : ∀ x, IsText (write x) (text x)) (xs : List β) (out : String)
    (comma : Bool) :
    xs.foldl (fun w x => write x w) ⟨out, comma, false⟩ =
      ⟨out ++ String.ofList (texts text comma xs), comma || !xs.isEmpty, false⟩ := by
  induction xs generalizing out comma with
  | nil => simp [texts, parts]
  | cons x xs ih =>
    rw [List.foldl_cons, (h x).write, ih]
    cases comma <;> simp [texts, parts, separator, String.append_assoc]

theorem tells_array (h : ∀ x y, Tells (write x) (write y) (R x y)) (xs ys : List β) :
    Tells (fun w => (xs.foldl (fun w x => write x w) w.beginArray).endArray)
      (fun w => (ys.foldl (fun w x => write x w) w.beginArray).endArray) (List.Forall₂ R xs ys) := by
  let text (x : β) : String := (write x empty).out
  have htext (x : β) : IsText (write x) (text x) := by
    obtain ⟨s, -, hs, -, -⟩ := (h x x).texts
    have heq : text x = s := hs.eq.symm
    rwa [heq]
  have hpeel (x y : β) : Peels (text x).toList (text y).toList (R x y) := by
    obtain ⟨s, t, hs, ht, hpeel⟩ := (h x y).texts
    rwa [hs.eq, ht.eq] at hpeel
  have hwrite (xs : List β) : IsText (fun w => (xs.foldl (fun w x => write x w) w.beginArray).endArray)
      ("[" ++ String.ofList (texts text false xs) ++ "]") := by
    refine ⟨fun w => ?_, '[', texts text false xs ++ [']'], by simp, by decide⟩
    dsimp only [beginArray]
    rw [prefixed_eq, foldl_texts htext, endArray]
    simp only [String.append_assoc]
  have hmark (comma : Bool) (x : β) (r r' : List Char) :
      (if comma then [','] else []) ++ (text x).toList ++ r ≠ [']'] ++ r' := by
    obtain ⟨c, t, hstart, hc⟩ := (htext x).start
    rw [hstart]
    cases comma <;> simp [hc]
  refine ⟨_, _, hwrite xs, hwrite ys, ?_⟩
  have hlist := Peels.marked (fun comma x y => (hpeel x y).before (if comma then [','] else [])) hmark hmark
    false xs ys
  simpa [texts] using hlist.before ['[']

end Lists

end JvmScout.Agent.JsonWriter
