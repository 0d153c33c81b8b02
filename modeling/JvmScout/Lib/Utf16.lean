import Mathlib.Data.List.Basic
import Mathlib.Tactic.Basic

namespace Utf16

def IsHigh (u : ℕ) : Prop := 0xD800 ≤ u ∧ u < 0xDC00

def IsLow (u : ℕ) : Prop := 0xDC00 ≤ u ∧ u < 0xE000

instance (u : ℕ) : Decidable (IsHigh u) := inferInstanceAs (Decidable (_ ∧ _))

instance (u : ℕ) : Decidable (IsLow u) := inferInstanceAs (Decidable (_ ∧ _))

def ofChar (c : Char) : List ℕ :=
  if c.toNat < 0x10000 then [c.toNat]
  else [0xD800 + (c.toNat - 0x10000) / 0x400, 0xDC00 + (c.toNat - 0x10000) % 0x400]

def encode (s : List Char) : List ℕ := s.flatMap ofChar

def decode : List ℕ → Option (List Char)
  | [] => some []
  | u :: rest =>
    if IsHigh u then
      match rest with
      | [] => none
      | low :: rest =>
        if IsLow low then
          (decode rest).map fun s => Char.ofNat (0x10000 + (u - 0xD800) * 0x400 + (low - 0xDC00)) :: s
        else none
    else if IsLow u then none
    else (decode rest).map fun s => Char.ofNat u :: s

@[simp] theorem encode_nil : encode [] = [] := rfl

@[simp] theorem encode_cons (c : Char) (s : List Char) : encode (c :: s) = ofChar c ++ encode s :=
  List.flatMap_cons

theorem decode_unit {u : ℕ} (hhigh : ¬ IsHigh u) (hlow : ¬ IsLow u) (us : List ℕ) :
    decode (u :: us) = (decode us).map fun s => Char.ofNat u :: s := by
  cases us <;> simp [decode, hhigh, hlow]

theorem decode_pair {u low : ℕ} (hhigh : IsHigh u) (hlow : IsLow low) (us : List ℕ) :
    decode (u :: low :: us) =
      (decode us).map fun s => Char.ofNat (0x10000 + (u - 0xD800) * 0x400 + (low - 0xDC00)) :: s := by
  simp [decode, hhigh, hlow]

theorem toNat_lt (c : Char) : c.toNat < 0xD800 ∨ (0xDFFF < c.toNat ∧ c.toNat < 0x110000) := c.valid

theorem ofChar_lt {c : Char} {u : ℕ} (hu : u ∈ ofChar c) : u < 0x10000 := by
  unfold ofChar at hu
  split at hu
  · simp only [List.mem_singleton] at hu
    omega
  · have hc := toNat_lt c
    simp only [List.mem_cons, List.not_mem_nil, or_false] at hu
    omega

theorem encode_lt {s : List Char} {u : ℕ} (hu : u ∈ encode s) : u < 0x10000 := by
  obtain ⟨c, _, hc⟩ := List.mem_flatMap.mp hu
  exact ofChar_lt hc

theorem decode_ofChar (c : Char) (us : List ℕ) :
    decode (ofChar c ++ us) = (decode us).map fun s => c :: s := by
  have hc := toNat_lt c
  unfold ofChar
  split
  · have hhigh : ¬ IsHigh c.toNat := by
      unfold IsHigh
      omega
    have hlow : ¬ IsLow c.toNat := by
      unfold IsLow
      omega
    rw [List.singleton_append, decode_unit hhigh hlow, Char.ofNat_toNat]
  · have hhigh : IsHigh (0xD800 + (c.toNat - 0x10000) / 0x400) := by
      unfold IsHigh
      omega
    have hlow : IsLow (0xDC00 + (c.toNat - 0x10000) % 0x400) := by
      unfold IsLow
      omega
    have hpair : 0x10000 + (0xD800 + (c.toNat - 0x10000) / 0x400 - 0xD800) * 0x400 +
        (0xDC00 + (c.toNat - 0x10000) % 0x400 - 0xDC00) = c.toNat := by omega
    rw [List.cons_append, List.singleton_append, decode_pair hhigh hlow, hpair, Char.ofNat_toNat]

theorem decode_encode (s : List Char) : decode (encode s) = some s := by
  induction s with
  | nil => rfl
  | cons c s ih => rw [encode_cons, decode_ofChar, ih, Option.map_some]

def modifiedUtf8Unit (u : ℕ) : List UInt8 :=
  if u = 0 then [0xC0, 0x80]
  else if u < 0x80 then [u.toUInt8]
  else if u < 0x800 then [(0xC0 + u / 0x40).toUInt8, (0x80 + u % 0x40).toUInt8]
  else [(0xE0 + u / 0x1000).toUInt8, (0x80 + u / 0x40 % 0x40).toUInt8, (0x80 + u % 0x40).toUInt8]

def modifiedUtf8 (s : String) : List UInt8 := (encode s.toList).flatMap modifiedUtf8Unit

theorem modifiedUtf8_eq_nil {s : String} (h : modifiedUtf8 s = []) : s = "" := by
  have hchars (c : Char) : ofChar c ≠ [] := by
    unfold ofChar
    split <;> simp
  have hbytes (u : ℕ) : modifiedUtf8Unit u ≠ [] := by
    unfold modifiedUtf8Unit
    split
    · simp
    · split
      · simp
      · split <;> simp
  rw [← String.toList_eq_nil_iff]
  cases hs : s.toList with
  | nil => rfl
  | cons c cs =>
    obtain ⟨u, us, hu⟩ := List.exists_cons_of_ne_nil (hchars c)
    rw [modifiedUtf8, hs, encode_cons, hu, List.cons_append, List.flatMap_cons] at h
    exact absurd (List.append_eq_nil_iff.mp h).1 (hbytes u)

def Ascii (c : Char) : Prop := 0 < c.toNat ∧ c.toNat < 0x80

instance (c : Char) : Decidable (Ascii c) := inferInstanceAs (Decidable (_ ∧ _))

def charBytes (c : Char) : List UInt8 := (ofChar c).flatMap modifiedUtf8Unit

theorem modifiedUtf8_eq (s : String) : modifiedUtf8 s = s.toList.flatMap charBytes := List.flatMap_assoc

theorem toNat_byte {n : ℕ} (h : n < 0x100) : (UInt8.ofNat n).toNat = n := UInt8.toNat_ofNat_of_lt' h

theorem charBytes_ascii {c : Char} (h : Ascii c) : charBytes c = [UInt8.ofNat c.toNat] := by
  obtain ⟨hpos, hlt⟩ := h
  rw [charBytes, ofChar, if_pos (by omega), List.flatMap_singleton, modifiedUtf8Unit, if_neg (by omega), if_pos hlt]

theorem modifiedUtf8Unit_high {u : ℕ} (hu : u = 0 ∨ 0x80 ≤ u) (hlt : u < 0x10000) :
    ∀ b ∈ modifiedUtf8Unit u, 0x80 ≤ b.toNat := by
  intro b hb
  have hbyte {n : ℕ} (hn : 0x80 ≤ n ∧ n < 0x100) : 0x80 ≤ n.toUInt8.toNat := by
    rw [Nat.toUInt8, toNat_byte hn.2]
    exact hn.1
  unfold modifiedUtf8Unit at hb
  split at hb
  · rcases List.mem_pair.mp hb with rfl | rfl <;> decide
  · split at hb
    · omega
    · split at hb
      · rcases List.mem_pair.mp hb with rfl | rfl
        · exact hbyte (by omega)
        · exact hbyte (by omega)
      · rcases List.mem_cons.mp hb with rfl | hb
        · exact hbyte (by omega)
        · rcases List.mem_pair.mp hb with rfl | rfl
          · exact hbyte (by omega)
          · exact hbyte (by omega)

theorem charBytes_high {c : Char} (h : ¬ Ascii c) : ∀ b ∈ charBytes c, 0x80 ≤ b.toNat := by
  intro b hb
  obtain ⟨u, hu, hb⟩ := List.mem_flatMap.mp hb
  apply modifiedUtf8Unit_high _ (ofChar_lt hu) b hb
  have hc : c.toNat = 0 ∨ 0x80 ≤ c.toNat := by
    unfold Ascii at h
    omega
  unfold ofChar at hu
  split at hu
  · rw [List.mem_singleton.mp hu]
    exact hc
  · rcases List.mem_pair.mp hu with hu | hu
    · exact .inr (by omega)
    · exact .inr (by omega)

theorem modifiedUtf8_ascii {s : String} (h : ∀ c ∈ s.toList, Ascii c) :
    modifiedUtf8 s = s.toList.map fun c => UInt8.ofNat c.toNat := by
  rw [modifiedUtf8_eq, List.map_eq_flatMap, List.flatMap_def, List.flatMap_def]
  congr 1
  apply List.map_congr_left
  intro c hc
  exact charBytes_ascii (h c hc)

theorem modifiedUtf8_replace {a b : Char} (ha : Ascii a) (hb : Ascii b) (s : String) :
    modifiedUtf8 (String.ofList (s.toList.map fun c => if c = a then b else c)) =
      (modifiedUtf8 s).map fun x => if x = UInt8.ofNat a.toNat then UInt8.ofNat b.toNat else x := by
  have hchar (c : Char) : charBytes (if c = a then b else c) =
      (charBytes c).map fun x => if x = UInt8.ofNat a.toNat then UInt8.ofNat b.toNat else x := by
    by_cases hc : c = a
    · rw [if_pos hc, hc, charBytes_ascii ha, charBytes_ascii hb, List.map_singleton, if_pos rfl]
    · rw [if_neg hc]
      conv => lhs; rw [← List.map_id (charBytes c)]
      apply List.map_congr_left
      intro x hx
      rw [id_eq, if_neg]
      rintro rfl
      by_cases hascii : Ascii c
      · rw [charBytes_ascii hascii, List.mem_singleton] at hx
        apply hc
        have hsame := congrArg UInt8.toNat hx
        unfold Ascii at ha hascii
        rw [toNat_byte (by omega), toNat_byte (by omega)] at hsame
        exact Char.toNat_inj.mp hsame.symm
      · have hhigh := charBytes_high hascii _ hx
        unfold Ascii at ha
        rw [toNat_byte (by omega)] at hhigh
        omega
  rw [modifiedUtf8_eq, modifiedUtf8_eq, String.toList_ofList, List.flatMap_map, List.map_flatMap]
  simp only [hchar]

end Utf16
