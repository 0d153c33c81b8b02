import JvmScout.Lib.JsonText
import Mathlib.Data.List.Forall2

namespace JvmScout.Agent

abbrev Bytes := List UInt8

def ascii (cs : List Char) : Bytes := cs.map fun c => UInt8.ofNat c.toNat

def jsonUnit (u : ℕ) : String :=
  if u = 0x22 then "\\\""
  else if u = 0x5C then "\\\\"
  else if u = 0x08 then "\\b"
  else if u = 0x0C then "\\f"
  else if u = 0x0A then "\\n"
  else if u = 0x0D then "\\r"
  else if u = 0x09 then "\\t"
  else if 0x20 ≤ u ∧ u < 0x7F then String.singleton (Char.ofNat u)
  else
    "\\u" ++ String.ofList
      [Nat.digitChar (u / 0x1000 % 0x10), Nat.digitChar (u / 0x100 % 0x10), Nat.digitChar (u / 0x10 % 0x10),
        Nat.digitChar (u % 0x10)]

def appendUnit (out : String) (u : ℕ) : String := out ++ jsonUnit u

def isTwoByte (b0 b1 : UInt8) : Bool := b0 &&& 0xE0 == 0xC0 && b1 &&& 0xC0 == 0x80

def isThreeByte (b0 b1 b2 : UInt8) : Bool := b0 &&& 0xF0 == 0xE0 && b1 &&& 0xC0 == 0x80 && b2 &&& 0xC0 == 0x80

def twoByteUnit (b0 b1 : UInt8) : ℕ := (b0.toNat &&& 0x1F) <<< 6 ||| (b1.toNat &&& 0x3F)

def threeByteUnit (b0 b1 b2 : UInt8) : ℕ :=
  (b0.toNat &&& 0x0F) <<< 12 ||| (b1.toNat &&& 0x3F) <<< 6 ||| (b2.toNat &&& 0x3F)

/-- The loop of `escape`. A byte that starts no form within the bounds is one unit of its own. -/
def codeUnits : Bytes → List ℕ
  | [] => []
  | [b0] => if b0 < 0x80 then [b0.toNat] else [0xFFFD]
  | [b0, b1] =>
    if b0 < 0x80 then b0.toNat :: codeUnits [b1]
    else if isTwoByte b0 b1 then [twoByteUnit b0 b1]
    else 0xFFFD :: codeUnits [b1]
  | b0 :: b1 :: b2 :: rest =>
    if b0 < 0x80 then b0.toNat :: codeUnits (b1 :: b2 :: rest)
    else if isTwoByte b0 b1 then twoByteUnit b0 b1 :: codeUnits (b2 :: rest)
    else if isThreeByte b0 b1 b2 then threeByteUnit b0 b1 b2 :: codeUnits rest
    else 0xFFFD :: codeUnits (b1 :: b2 :: rest)

structure JsonWriter where
  out : String
  needComma : Bool
  afterKey : Bool

namespace JsonWriter

def escape (s : Bytes) : String := (codeUnits s).foldl appendUnit ""

def empty : JsonWriter := ⟨"", false, false⟩

def prefixed (w : JsonWriter) : JsonWriter :=
  if w.afterKey then { w with afterKey := false }
  else if w.needComma then { w with out := w.out ++ "," }
  else w

def beginObject (w : JsonWriter) : JsonWriter :=
  { w.prefixed with out := w.prefixed.out ++ "\x7b", needComma := false }

def endObject (w : JsonWriter) : JsonWriter := { w with out := w.out ++ "\x7d", needComma := true }

def beginArray (w : JsonWriter) : JsonWriter :=
  { w.prefixed with out := w.prefixed.out ++ "[", needComma := false }

def endArray (w : JsonWriter) : JsonWriter := { w with out := w.out ++ "]", needComma := true }

def key (k : String) (w : JsonWriter) : JsonWriter :=
  { w.prefixed with
    out := w.prefixed.out ++ "\"" ++ escape (Utf16.modifiedUtf8 k) ++ "\":"
    afterKey := true }

def valueString (v : Bytes) (w : JsonWriter) : JsonWriter :=
  { w.prefixed with out := w.prefixed.out ++ "\"" ++ escape v ++ "\"", needComma := true }

def valueInt (v : ℤ) (w : JsonWriter) : JsonWriter :=
  { w.prefixed with out := w.prefixed.out ++ toString v, needComma := true }

def valueUint (v : ℕ) (w : JsonWriter) : JsonWriter :=
  { w.prefixed with out := w.prefixed.out ++ toString v, needComma := true }

def valueBool (v : Bool) (w : JsonWriter) : JsonWriter :=
  { w.prefixed with out := w.prefixed.out ++ (if v then "true" else "false"), needComma := true }

def valueNull (w : JsonWriter) : JsonWriter :=
  { w.prefixed with out := w.prefixed.out ++ "null", needComma := true }

def fieldString (k : String) (v : Bytes) (w : JsonWriter) : JsonWriter := (w.key k).valueString v

def fieldText (k v : String) (w : JsonWriter) : JsonWriter := (w.key k).valueString (Utf16.modifiedUtf8 v)

def fieldInt (k : String) (v : ℤ) (w : JsonWriter) : JsonWriter := (w.key k).valueInt v

def fieldUint (k : String) (v : ℕ) (w : JsonWriter) : JsonWriter := (w.key k).valueUint v

def fieldBool (k : String) (v : Bool) (w : JsonWriter) : JsonWriter := (w.key k).valueBool v

def fieldNull (k : String) (w : JsonWriter) : JsonWriter := (w.key k).valueNull

end JsonWriter

theorem codeUnits_ascii {b0 : UInt8} (h : b0 < 0x80) (rest : Bytes) :
    codeUnits (b0 :: rest) = b0.toNat :: codeUnits rest := by
  match rest with
  | [] => simp [codeUnits, h]
  | [b1] => simp [codeUnits, h]
  | b1 :: b2 :: rest => simp [codeUnits, h]

theorem codeUnits_of_isTwoByte {b0 b1 : UInt8} (hhigh : ¬ b0 < 0x80) (hform : isTwoByte b0 b1 = true)
    (rest : Bytes) : codeUnits (b0 :: b1 :: rest) = twoByteUnit b0 b1 :: codeUnits rest := by
  match rest with
  | [] => simp [codeUnits, hhigh, hform]
  | b2 :: rest => simp [codeUnits, hhigh, hform]

theorem twoByte_lead : ∀ a < 0x20, (0xC0 + a).toUInt8 &&& 0xE0 = 0xC0 ∧ ¬ (0xC0 + a).toUInt8 < 0x80 ∧
    (0xC0 + a).toUInt8.toNat &&& 0x1F = a := by decide

theorem threeByte_lead : ∀ a < 0x10, (0xE0 + a).toUInt8 &&& 0xF0 = 0xE0 ∧ (0xE0 + a).toUInt8 &&& 0xE0 ≠ 0xC0 ∧
    ¬ (0xE0 + a).toUInt8 < 0x80 ∧ (0xE0 + a).toUInt8.toNat &&& 0x0F = a := by decide

theorem continuation : ∀ a < 0x40, (0x80 + a).toUInt8 &&& 0xC0 = 0x80 ∧
    (0x80 + a).toUInt8.toNat &&& 0x3F = a := by decide

theorem codeUnits_twoByte {a b : ℕ} (ha : a < 0x20) (hb : b < 0x40) (rest : Bytes) :
    codeUnits ((0xC0 + a).toUInt8 :: (0x80 + b).toUInt8 :: rest) = (a * 0x40 + b) :: codeUnits rest := by
  obtain ⟨hlead, hhigh, ha'⟩ := twoByte_lead a ha
  obtain ⟨hcont, hb'⟩ := continuation b hb
  have hform : isTwoByte (0xC0 + a).toUInt8 (0x80 + b).toUInt8 = true := by
    rw [isTwoByte, hlead, hcont]
    rfl
  have hunit : twoByteUnit (0xC0 + a).toUInt8 (0x80 + b).toUInt8 = a * 0x40 + b := by
    rw [twoByteUnit, ha', hb', ← Nat.shiftLeft_add_eq_or_of_lt hb, Nat.shiftLeft_eq]
  rw [codeUnits_of_isTwoByte hhigh hform, hunit]

theorem codeUnits_threeByte {a b c : ℕ} (ha : a < 0x10) (hb : b < 0x40) (hc : c < 0x40) (rest : Bytes) :
    codeUnits ((0xE0 + a).toUInt8 :: (0x80 + b).toUInt8 :: (0x80 + c).toUInt8 :: rest) =
      (a * 0x1000 + b * 0x40 + c) :: codeUnits rest := by
  obtain ⟨hlead, hother, hhigh, ha'⟩ := threeByte_lead a ha
  obtain ⟨hcontb, hb'⟩ := continuation b hb
  obtain ⟨hcontc, hc'⟩ := continuation c hc
  have htwo : ¬ isTwoByte (0xE0 + a).toUInt8 (0x80 + b).toUInt8 = true := by
    rw [isTwoByte, Bool.and_eq_true, beq_iff_eq]
    exact fun h => hother h.1
  have hform : isThreeByte (0xE0 + a).toUInt8 (0x80 + b).toUInt8 (0x80 + c).toUInt8 = true := by
    rw [isThreeByte, hlead, hcontb, hcontc]
    rfl
  have hunit : threeByteUnit (0xE0 + a).toUInt8 (0x80 + b).toUInt8 (0x80 + c).toUInt8 =
      a * 0x1000 + b * 0x40 + c := by
    have hhead : a <<< 12 ||| b <<< 6 = (a * 0x40 + b) <<< 6 := by
      have hlt : b <<< 6 < 2 ^ 12 := by
        rw [Nat.shiftLeft_eq]
        omega
      rw [← Nat.shiftLeft_add_eq_or_of_lt hlt, Nat.shiftLeft_eq, Nat.shiftLeft_eq, Nat.shiftLeft_eq]
      omega
    rw [threeByteUnit, ha', hb', hc', hhead, ← Nat.shiftLeft_add_eq_or_of_lt hc, Nat.shiftLeft_eq]
    omega
  rw [codeUnits, if_neg hhigh, if_neg htwo, if_pos hform, hunit]

theorem codeUnits_modifiedUtf8Unit {u : ℕ} (hu : u < 0x10000) (rest : Bytes) :
    codeUnits (Utf16.modifiedUtf8Unit u ++ rest) = u :: codeUnits rest := by
  unfold Utf16.modifiedUtf8Unit
  split
  · rename_i hzero
    rw [hzero]
    exact codeUnits_twoByte (a := 0) (b := 0) (by decide) (by decide) rest
  · split
    · rename_i hascii
      have hsmall : u.toUInt8.toNat = u := by
        simp
        omega
      have hlt : u.toUInt8 < 0x80 := by
        rw [UInt8.lt_iff_toNat_lt, hsmall]
        exact hascii
      rw [List.singleton_append, codeUnits_ascii hlt, hsmall]
    · split
      · have hunit := codeUnits_twoByte (a := u / 0x40) (b := u % 0x40) (by omega) (by omega) rest
        have hu' : u / 0x40 * 0x40 + u % 0x40 = u := by omega
        rwa [hu'] at hunit
      · have hunit := codeUnits_threeByte (a := u / 0x1000) (b := u / 0x40 % 0x40) (c := u % 0x40) (by omega)
          (by omega) (by omega) rest
        have hu' : u / 0x1000 * 0x1000 + u / 0x40 % 0x40 * 0x40 + u % 0x40 = u := by omega
        rwa [hu'] at hunit

theorem codeUnits_flatMap {us : List ℕ} (hus : ∀ u ∈ us, u < 0x10000) :
    codeUnits (us.flatMap Utf16.modifiedUtf8Unit) = us := by
  induction us with
  | nil => rfl
  | cons u us ih =>
    rw [List.flatMap_cons, codeUnits_modifiedUtf8Unit (hus u List.mem_cons_self), ih]
    exact fun v hv => hus v (List.mem_cons_of_mem u hv)

theorem codeUnits_modifiedUtf8 (s : String) : codeUnits (Utf16.modifiedUtf8 s) = Utf16.encode s.toList :=
  codeUnits_flatMap fun _ hu => Utf16.encode_lt hu

theorem toNat_ofNat : ∀ u < 0x7F, (Char.ofNat u).toNat = u := by decide

theorem units_jsonUnit {u : ℕ} (hu : u < 0x10000) (rest : List Char) :
    JsonText.units ((jsonUnit u).toList ++ rest) = (JsonText.units rest).map fun p => (u :: p.1, p.2) := by
  unfold jsonUnit
  by_cases hshort : u = 0x22 ∨ u = 0x5C ∨ u = 0x08 ∨ u = 0x0C ∨ u = 0x0A ∨ u = 0x0D ∨ u = 0x09
  · rcases hshort with rfl | rfl | rfl | rfl | rfl | rfl | rfl <;>
      exact JsonText.units_short (by decide) rfl rest
  simp only [not_or] at hshort
  obtain ⟨hquote, hslash, hb, hf, hn, hr, ht⟩ := hshort
  rw [if_neg hquote, if_neg hslash, if_neg hb, if_neg hf, if_neg hn, if_neg hr, if_neg ht]
  split
  · rename_i hprintable
    have hvalid : (Char.ofNat u).toNat = u := toNat_ofNat u hprintable.2
    have hplain (c : Char) (hc : c.toNat ≠ u) : Char.ofNat u ≠ c := by
      rintro rfl
      exact hc hvalid
    have hread := JsonText.units_plain (c := Char.ofNat u) (by omega) (hplain '"' (Ne.symm hquote))
      (hplain '\\' (Ne.symm hslash)) rest
    rw [hvalid] at hread
    simpa using hread
  · have hread := JsonText.units_hex hu rest
    simpa using hread

theorem toList_escape (s : Bytes) :
    (JsonWriter.escape s).toList = (codeUnits s).flatMap fun u => (jsonUnit u).toList := by
  have hloop (us : List ℕ) (out : String) : (us.foldl appendUnit out).toList =
      out.toList ++ us.flatMap fun u => (jsonUnit u).toList := by
    induction us generalizing out with
    | nil => simp
    | cons u us ih =>
      rw [List.foldl_cons, ih, appendUnit, String.toList_append, List.flatMap_cons, List.append_assoc]
  rw [JsonWriter.escape, hloop]
  rfl

theorem units_escape {s : Bytes} (hs : ∀ u ∈ codeUnits s, u < 0x10000) (rest : List Char) :
    JsonText.units ((JsonWriter.escape s).toList ++ '"' :: rest) = some (codeUnits s, rest) := by
  have hread (us : List ℕ) (hus : ∀ u ∈ us, u < 0x10000) :
      JsonText.units ((us.flatMap fun u => (jsonUnit u).toList) ++ '"' :: rest) = some (us, rest) := by
    induction us with
    | nil => exact JsonText.units_quote rest
    | cons u us ih =>
      rw [List.flatMap_cons, List.append_assoc, units_jsonUnit (hus u List.mem_cons_self),
        ih fun v hv => hus v (List.mem_cons_of_mem u hv)]
      rfl
  rw [toList_escape]
  exact hread _ hs

theorem readsText_escape (s : String) : JsonText.ReadsText (JsonWriter.escape (Utf16.modifiedUtf8 s)) s := by
  intro rest
  have hs : ∀ u ∈ codeUnits (Utf16.modifiedUtf8 s), u < 0x10000 := by
    rw [codeUnits_modifiedUtf8]
    exact fun u hu => Utf16.encode_lt hu
  rw [JsonText.text, units_escape hs, codeUnits_modifiedUtf8]
  simp [Utf16.decode_encode]

namespace JsonWriter

def separator (w : JsonWriter) : String := if w.afterKey then "" else if w.needComma then "," else ""

def Writes (f : JsonWriter → JsonWriter) (v : Json) : Prop :=
  ∃ s, JsonText.Reads s v ∧ ∀ w, f w = ⟨w.out ++ w.separator ++ s, true, false⟩

def WritesParts {α : Type} (R : String → α → Prop) (f : JsonWriter → JsonWriter) (xs : List α) : Prop :=
  ∃ ss, List.Forall₂ R ss xs ∧ ∀ out comma,
    f ⟨out, comma, false⟩ = ⟨out ++ JsonText.separated comma ss, comma || !ss.isEmpty, false⟩

abbrev WritesItems : (JsonWriter → JsonWriter) → List Json → Prop := WritesParts JsonText.Reads

abbrev WritesFields : (JsonWriter → JsonWriter) → List (String × Json) → Prop :=
  WritesParts fun s kv => JsonText.ReadsMember s kv.1 kv.2

theorem prefixed_eq (w : JsonWriter) : w.prefixed = ⟨w.out ++ w.separator, w.needComma, false⟩ := by
  obtain ⟨out, needComma, afterKey⟩ := w
  cases afterKey <;> cases needComma <;> simp [prefixed, separator]

theorem writes_string (s : String) : Writes (valueString (Utf16.modifiedUtf8 s)) (.str s) := by
  refine ⟨_, JsonText.reads_text (readsText_escape s), fun w => ?_⟩
  rw [valueString, prefixed_eq]
  simp only [String.append_assoc]

theorem writes_int (n : ℤ) : Writes (valueInt n) (.int n) := by
  refine ⟨_, JsonText.reads_int n, fun w => ?_⟩
  rw [valueInt, prefixed_eq]

theorem writes_uint (n : ℕ) : Writes (valueUint n) (.int n) := by
  refine ⟨_, JsonText.reads_nat n, fun w => ?_⟩
  rw [valueUint, prefixed_eq]
  rfl

theorem writes_bool (b : Bool) : Writes (valueBool b) (.bool b) := by
  refine ⟨_, JsonText.reads_bool b, fun w => ?_⟩
  rw [valueBool, prefixed_eq]

theorem writes_null : Writes valueNull .null := by
  refine ⟨_, JsonText.reads_null, fun w => ?_⟩
  rw [valueNull, prefixed_eq]

section Parts

variable {α β : Type} {R : String → α → Prop} {f g : JsonWriter → JsonWriter}

theorem separated_append (comma : Bool) (ss ts : List String) :
    JsonText.separated comma (ss ++ ts) =
      JsonText.separated comma ss ++ JsonText.separated (comma || !ss.isEmpty) ts := by
  induction ss generalizing comma with
  | nil => simp [JsonText.separated]
  | cons s ss ih => simp [JsonText.separated, ih, String.append_assoc]

theorem WritesParts.congr {xs : List α} (hf : WritesParts R f xs) (h : ∀ w, g w = f w) : WritesParts R g xs := by
  have hfun : g = f := funext h
  rwa [hfun]

theorem writesParts_nil : WritesParts R id [] :=
  ⟨[], .nil, fun out comma => by simp [JsonText.separated]⟩

theorem writesParts_one {s : String} {x : α} (hx : R s x)
    (hf : ∀ out comma, f ⟨out, comma, false⟩ = ⟨out ++ (if comma then "," else "") ++ s, true, false⟩) :
    WritesParts R f [x] := by
  refine ⟨[s], .cons hx .nil, fun out comma => ?_⟩
  rw [hf]
  simp [JsonText.separated, String.append_assoc]

theorem WritesParts.append {xs ys : List α} (hf : WritesParts R f xs) (hg : WritesParts R g ys) :
    WritesParts R (fun w => g (f w)) (xs ++ ys) := by
  obtain ⟨ss, hss, hwrite⟩ := hf
  obtain ⟨ts, hts, hwrite'⟩ := hg
  refine ⟨ss ++ ts, List.rel_append hss hts, fun out comma => ?_⟩
  dsimp only
  rw [hwrite, hwrite', separated_append, String.append_assoc]
  cases ss <;> simp

theorem WritesParts.each {write : β → JsonWriter → JsonWriter} {part : β → α}
    (h : ∀ b, WritesParts R (write b) [part b]) (bs : List β) :
    WritesParts R (fun w => bs.foldl (fun w b => write b w) w) (bs.map part) := by
  induction bs with
  | nil => exact writesParts_nil
  | cons b bs ih => exact (h b).append ih

end Parts

variable {f : JsonWriter → JsonWriter} {v : Json}

theorem Writes.item (h : Writes f v) : WritesItems f [v] := by
  obtain ⟨s, hread, hwrite⟩ := h
  refine writesParts_one hread fun out comma => ?_
  rw [hwrite]
  rfl

theorem Writes.field (h : Writes f v) (k : String) : WritesFields (fun w => f (w.key k)) [(k, v)] := by
  obtain ⟨s, hread, hwrite⟩ := h
  refine writesParts_one (JsonText.readsMember (readsText_escape k) hread) fun out comma => ?_
  rw [hwrite, key, prefixed_eq]
  simp [separator, String.append_assoc]

theorem WritesParts.array {vs : List Json} (h : WritesItems f vs) :
    Writes (fun w => (f w.beginArray).endArray) (.arr vs) := by
  obtain ⟨ss, hread, hwrite⟩ := h
  refine ⟨_, JsonText.reads_arr hread, fun w => ?_⟩
  dsimp only [beginArray]
  rw [prefixed_eq, hwrite, endArray]
  simp only [String.append_assoc]

theorem WritesParts.object {kvs : List (String × Json)} (h : WritesFields f kvs)
    (hkeys : (kvs.map Prod.fst).Nodup) : Writes (fun w => (f w.beginObject).endObject) (.obj kvs) := by
  obtain ⟨ss, hread, hwrite⟩ := h
  refine ⟨_, JsonText.reads_obj_of_nodup hread hkeys, fun w => ?_⟩
  dsimp only [beginObject]
  rw [prefixed_eq, hwrite, endObject]
  simp only [String.append_assoc]

theorem WritesParts.objectOf {kvs : List (String × Json)} (h : WritesFields f kvs) :
    Writes (fun w => (f w.beginObject).endObject) (.obj (kvs.foldl (fun d kv => Dict.set d kv.1 kv.2) [])) := by
  obtain ⟨ss, hread, hwrite⟩ := h
  refine ⟨_, JsonText.reads_obj hread, fun w => ?_⟩
  dsimp only [beginObject]
  rw [prefixed_eq, hwrite, endObject]
  simp only [String.append_assoc]

theorem Writes.reads (h : Writes f v) : JsonText.Reads (f empty).out v := by
  obtain ⟨s, hread, hwrite⟩ := h
  rw [hwrite]
  simpa [empty, separator] using hread

end JsonWriter

end JvmScout.Agent
