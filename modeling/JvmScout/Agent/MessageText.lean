import JvmScout.Agent.WriterTexts

namespace JvmScout.Agent

open JsonWriter

theorem jsonUnit_printable {u : ℕ} : ∀ c ∈ (jsonUnit u).toList, 0x20 ≤ c.toNat ∧ c.toNat ≤ 0x7E := by
  have hdigit : ∀ n < 0x10, 0x20 ≤ (Nat.digitChar n).toNat ∧ (Nat.digitChar n).toNat ≤ 0x7E := by decide
  have hall (t : String) (h : (t.toList.all fun c => decide (0x20 ≤ c.toNat ∧ c.toNat ≤ 0x7E)) = true) :
      ∀ c ∈ t.toList, 0x20 ≤ c.toNat ∧ c.toNat ≤ 0x7E :=
    fun c hc => of_decide_eq_true (List.all_eq_true.mp h c hc)
  unfold jsonUnit
  by_cases hshort : u = 0x22 ∨ u = 0x5C ∨ u = 0x08 ∨ u = 0x0C ∨ u = 0x0A ∨ u = 0x0D ∨ u = 0x09
  · rcases hshort with rfl | rfl | rfl | rfl | rfl | rfl | rfl <;> exact hall _ (by decide)
  simp only [not_or] at hshort
  obtain ⟨hquote, hslash, hb, hf, hn, hr, ht⟩ := hshort
  rw [if_neg hquote, if_neg hslash, if_neg hb, if_neg hf, if_neg hn, if_neg hr, if_neg ht]
  split
  · rename_i hprintable
    intro c hc
    rw [String.toList_singleton, List.mem_singleton] at hc
    rw [hc, toNat_ofNat u hprintable.2]
    omega
  · intro c hc
    rw [String.toList_append, List.mem_append] at hc
    rcases hc with hc | hc
    · exact hall _ (by decide) c hc
    · rw [String.toList_ofList] at hc
      simp only [List.mem_cons, List.not_mem_nil, or_false] at hc
      rcases hc with rfl | rfl | rfl | rfl <;> exact hdigit _ (Nat.mod_lt _ (by decide))

/-- Any bytes become a printable string body, and the modified UTF-8 of any code units is read back as them. -/
theorem escape_total_and_exact (s : Bytes) :
    (∀ c ∈ (escape s).toList, 0x20 ≤ c.toNat ∧ c.toNat ≤ 0x7E) ∧
      (∃ us, ∀ rest, JsonText.units ((escape s).toList ++ '"' :: rest) = some (us, rest)) ∧
      ∀ us : List UInt16, s = (us.map UInt16.toNat).flatMap Utf16.modifiedUtf8Unit →
        ∀ rest, JsonText.units ((escape s).toList ++ '"' :: rest) = some (us.map UInt16.toNat, rest) := by
  have hread := units_escape (codeUnits_lt s)
  refine ⟨fun c hc => ?_, ⟨codeUnits s, hread⟩, fun us hus rest => ?_⟩
  · rw [toList_escape] at hc
    obtain ⟨u, -, hc⟩ := List.mem_flatMap.mp hc
    exact jsonUnit_printable c hc
  · have hunits : codeUnits s = us.map UInt16.toNat := by
      rw [hus]
      apply codeUnits_flatMap
      intro u hu
      obtain ⟨v, -, rfl⟩ := List.mem_map.mp hu
      exact v.toNat_lt
    rw [hread, hunits]

def kMaxMessageLen : ℕ := 4096

def truncated : Bytes := Utf16.modifiedUtf8 "...(truncated)"

def truncateInPlace (s : Bytes) (maxLen : ℕ) : Bytes :=
  if maxLen < s.length then s.take maxLen ++ truncated else s

def messageText (m : String) : Bytes := truncateInPlace (Utf16.modifiedUtf8 m) kMaxMessageLen

def encoded (cs : List Char) : Bytes := (Utf16.encode cs).flatMap Utf16.modifiedUtf8Unit

def CutInPair (m : String) : Prop :=
  ∃ before c after, m.toList = before ++ c :: after ∧ 0x10000 ≤ c.toNat ∧
    (encoded before).length + 3 ≤ kMaxMessageLen ∧ kMaxMessageLen < (encoded before).length + 6

theorem encoded_cons (c : Char) (cs : List Char) :
    encoded (c :: cs) = (Utf16.ofChar c).flatMap Utf16.modifiedUtf8Unit ++ encoded cs := by
  rw [encoded, Utf16.encode_cons, List.flatMap_append]
  rfl

theorem encoded_append (as bs : List Char) : encoded (as ++ bs) = encoded as ++ encoded bs := by
  induction as with
  | nil => rfl
  | cons c as ih => rw [List.cons_append, encoded_cons, encoded_cons, ih, List.append_assoc]

theorem codeUnits_flatMap_append {us : List ℕ} (hus : ∀ u ∈ us, u < 0x10000) (rest : Bytes) :
    codeUnits (us.flatMap Utf16.modifiedUtf8Unit ++ rest) = us ++ codeUnits rest := by
  induction us with
  | nil => rfl
  | cons u us ih =>
    rw [List.flatMap_cons, List.append_assoc, codeUnits_modifiedUtf8Unit (hus u List.mem_cons_self), ih]
    · rfl
    · exact fun v hv => hus v (List.mem_cons_of_mem u hv)

theorem decode_encode_append (cs : List Char) (us : List ℕ) :
    Utf16.decode (Utf16.encode cs ++ us) = (Utf16.decode us).map fun ds => cs ++ ds := by
  induction cs with
  | nil => simp
  | cons c cs ih =>
    rw [Utf16.encode_cons, List.append_assoc, Utf16.decode_ofChar, ih, Option.map_map]
    rfl

theorem length_threeByte {u : ℕ} (hu : 0x800 ≤ u) : (Utf16.modifiedUtf8Unit u).length = 3 := by
  unfold Utf16.modifiedUtf8Unit
  rw [if_neg (by omega), if_neg (by omega), if_neg (by omega)]
  rfl

theorem period_continues_none : ((0x2E : UInt8) &&& 0xC0 == 0x80) = false := by decide

theorem codeUnits_period {b : UInt8} (hb : ¬ b < 0x80) (rest : Bytes) :
    codeUnits (b :: 0x2E :: rest) = 0xFFFD :: codeUnits (0x2E :: rest) := by
  have htwo : isTwoByte b 0x2E = false := by rw [isTwoByte, period_continues_none, Bool.and_false]
  cases rest with
  | nil => simp [codeUnits, hb, htwo]
  | cons b2 rest =>
    have hthree : isThreeByte b 0x2E b2 = false := by
      rw [isThreeByte, period_continues_none, Bool.and_false, Bool.false_and]
    rw [codeUnits, if_neg hb, htwo, hthree]
    rfl

theorem codeUnits_lead_period {a b : ℕ} (ha : a < 0x10) (hb : b < 0x40) (rest : Bytes) :
    codeUnits ((0xE0 + a).toUInt8 :: (0x80 + b).toUInt8 :: 0x2E :: rest) = 0xFFFD :: 0xFFFD :: codeUnits (0x2E :: rest) := by
  obtain ⟨-, hother, hhigh, -⟩ := threeByte_lead a ha
  have htwo : ¬ isTwoByte (0xE0 + a).toUInt8 (0x80 + b).toUInt8 = true := by
    rw [isTwoByte, Bool.and_eq_true, beq_iff_eq]
    exact fun h => hother h.1
  have hthree : isThreeByte (0xE0 + a).toUInt8 (0x80 + b).toUInt8 0x2E = false := by
    rw [isThreeByte, period_continues_none, Bool.and_false]
  have hcont : ∀ b < 0x40, ¬ (0x80 + b).toUInt8 < 0x80 := by decide
  rw [codeUnits, if_neg hhigh, if_neg htwo, hthree, codeUnits_period (hcont b hb)]
  rfl

theorem codeUnits_cut (u k : ℕ) (hu : u < 0x10000) (hk : k < (Utf16.modifiedUtf8Unit u).length) (rest : Bytes) :
    codeUnits ((Utf16.modifiedUtf8Unit u).take k ++ 0x2E :: rest) = List.replicate k 0xFFFD ++ codeUnits (0x2E :: rest) := by
  have htwo : ∀ a < 0x20, ¬ (0xC0 + a).toUInt8 < 0x80 := by decide
  have hthree : ∀ a < 0x10, ¬ (0xE0 + a).toUInt8 < 0x80 := by decide
  unfold Utf16.modifiedUtf8Unit at hk ⊢
  match k with
  | 0 => simp
  | 1 =>
    split at hk
    · rename_i hzero
      rw [if_pos hzero]
      exact codeUnits_period (by decide) rest
    · rename_i hpos
      rw [if_neg hpos]
      split at hk
      · cases Nat.lt_irrefl _ hk
      · rename_i hhigh
        rw [if_neg hhigh]
        split at hk
        · rename_i hshort
          rw [if_pos hshort]
          exact codeUnits_period (htwo _ (by omega)) rest
        · rename_i hlong
          rw [if_neg hlong]
          exact codeUnits_period (hthree _ (by omega)) rest
  | k + 2 =>
    split at hk
    · cases Nat.not_lt_of_le (Nat.le_add_left 2 k) hk
    · rename_i hpos
      rw [if_neg hpos]
      split at hk
      · cases Nat.not_lt_of_le (Nat.le_add_left 1 (k + 1)) hk
      · rename_i hhigh
        rw [if_neg hhigh]
        split at hk
        · cases Nat.not_lt_of_le (Nat.le_add_left 2 k) hk
        · rename_i hlong
          rw [if_neg hlong]
          have hzero : k = 0 := by
            simp only [List.length_cons, List.length_nil] at hk
            omega
          rw [hzero]
          exact codeUnits_lead_period (by omega) (by omega) rest

theorem truncated_period : ∃ rest, truncated = 0x2E :: rest := ⟨_, rfl⟩

theorem decode_codeUnits_truncated : (Utf16.decode (codeUnits truncated)).isSome = true := by
  rw [truncated, codeUnits_modifiedUtf8, Utf16.decode_encode]
  rfl

theorem decode_replicate (k : ℕ) (us : List ℕ) :
    (Utf16.decode (List.replicate k 0xFFFD ++ us)).isSome = (Utf16.decode us).isSome := by
  induction k with
  | zero => rfl
  | succ k ih =>
    rw [List.replicate_succ, List.cons_append, Utf16.decode_unit (by decide) (by decide), Option.isSome_map, ih]

theorem decode_cut_unit {u k : ℕ} (hu : u < 0x10000) (hk : k < (Utf16.modifiedUtf8Unit u).length) :
    (Utf16.decode (codeUnits ((Utf16.modifiedUtf8Unit u).take k ++ truncated))).isSome = true := by
  obtain ⟨rest, hrest⟩ := truncated_period
  rw [hrest, codeUnits_cut u k hu hk, decode_replicate, ← hrest]
  exact decode_codeUnits_truncated

theorem decode_cut_pair {hi lo k : ℕ} (hhi : Utf16.IsHigh hi) (hlo : lo < 0x10000)
    (hk : k < (Utf16.modifiedUtf8Unit lo).length) :
    Utf16.decode (codeUnits (Utf16.modifiedUtf8Unit hi ++ ((Utf16.modifiedUtf8Unit lo).take k ++ truncated))) = none := by
  obtain ⟨rest, hrest⟩ := truncated_period
  have hlt : hi < 0x10000 := hhi.2.trans (by decide)
  rw [codeUnits_modifiedUtf8Unit hlt, hrest, codeUnits_cut lo k hlo hk, codeUnits_ascii (by decide)]
  cases k with
  | zero => simp [Utf16.decode, hhi, Utf16.IsLow]
  | succ k => simp [List.replicate_succ, Utf16.decode, hhi, Utf16.IsLow]

theorem exists_cut {cs : List Char} {n : ℕ} (hn : n < (encoded cs).length) :
    ∃ before c after, cs = before ++ c :: after ∧ (encoded before).length ≤ n ∧
      n < (encoded before).length + ((Utf16.ofChar c).flatMap Utf16.modifiedUtf8Unit).length := by
  induction cs generalizing n with
  | nil => cases hn
  | cons c cs ih =>
    rw [encoded_cons, List.length_append] at hn
    by_cases hc : n < ((Utf16.ofChar c).flatMap Utf16.modifiedUtf8Unit).length
    · exact ⟨[], c, cs, rfl, Nat.zero_le n, by rwa [encoded, Utf16.encode_nil, List.flatMap_nil, List.length_nil, Nat.zero_add]⟩
    · obtain ⟨before, d, after, rfl, hle, hlt⟩ := ih (n := n - ((Utf16.ofChar c).flatMap Utf16.modifiedUtf8Unit).length)
        (by omega)
      refine ⟨c :: before, d, after, rfl, ?_, ?_⟩
      all_goals
        rw [encoded_cons, List.length_append]
        omega

theorem take_encoded {before : List Char} (after : List Char) {c : Char} {n : ℕ} (hle : (encoded before).length ≤ n)
    (hlt : n < (encoded before).length + ((Utf16.ofChar c).flatMap Utf16.modifiedUtf8Unit).length) :
    (encoded (before ++ c :: after)).take n =
      encoded before ++ ((Utf16.ofChar c).flatMap Utf16.modifiedUtf8Unit).take (n - (encoded before).length) := by
  rw [encoded_append, encoded_cons, List.take_append, List.take_of_length_le hle,
    List.take_append_of_le_length (by omega)]

theorem ofChar_supplementary {c : Char} (hc : 0x10000 ≤ c.toNat) :
    ∃ hi lo, Utf16.ofChar c = [hi, lo] ∧ Utf16.IsHigh hi ∧ lo < 0x10000 ∧
      (Utf16.modifiedUtf8Unit hi).length = 3 ∧ (Utf16.modifiedUtf8Unit lo).length = 3 := by
  have hvalid := Utf16.toNat_lt c
  refine ⟨_, _, if_neg (by omega), ?_, by omega, length_threeByte (by omega), length_threeByte (by omega)⟩
  unfold Utf16.IsHigh
  omega

theorem decode_cut_char (c : Char) (k : ℕ) (hk : k < ((Utf16.ofChar c).flatMap Utf16.modifiedUtf8Unit).length) :
    (Utf16.decode (codeUnits (((Utf16.ofChar c).flatMap Utf16.modifiedUtf8Unit).take k ++ truncated))).isSome = true ↔
      ¬ (0x10000 ≤ c.toNat ∧ 3 ≤ k) := by
  by_cases hc : 0x10000 ≤ c.toNat
  · obtain ⟨hi, lo, hpair, hhi, hlo, hhi3, hlo3⟩ := ofChar_supplementary hc
    have hbytes : (Utf16.ofChar c).flatMap Utf16.modifiedUtf8Unit = Utf16.modifiedUtf8Unit hi ++ Utf16.modifiedUtf8Unit lo := by
      rw [hpair]
      simp
    rw [hbytes, List.length_append] at hk
    rw [hbytes]
    by_cases h3 : 3 ≤ k
    · rw [List.take_append, List.take_of_length_le (by omega), hhi3, List.append_assoc,
        decode_cut_pair hhi hlo (by omega)]
      simp [hc, h3]
    · rw [List.take_append_of_le_length (by omega)]
      apply iff_of_true
      · exact decode_cut_unit (hhi.2.trans (by decide)) (by omega)
      · exact fun h => h3 h.2
  · have hone : Utf16.ofChar c = [c.toNat] := if_pos (by omega)
    rw [hone, List.flatMap_singleton] at hk ⊢
    apply iff_of_true
    · exact decode_cut_unit (by omega) hk
    · exact fun h => hc h.1

theorem codeUnits_encoded_append (cs : List Char) (rest : Bytes) :
    codeUnits (encoded cs ++ rest) = Utf16.encode cs ++ codeUnits rest :=
  codeUnits_flatMap_append (fun _ hu => Utf16.encode_lt hu) rest

theorem decode_messageText_cut {m : String} {before after : List Char} {c : Char} (hm : m.toList = before ++ c :: after)
    (hle : (encoded before).length ≤ kMaxMessageLen)
    (hlt : kMaxMessageLen < (encoded before).length + ((Utf16.ofChar c).flatMap Utf16.modifiedUtf8Unit).length) :
    (Utf16.decode (codeUnits (messageText m))).isSome = true ↔
      ¬ (0x10000 ≤ c.toNat ∧ (encoded before).length + 3 ≤ kMaxMessageLen) := by
  have hlong : kMaxMessageLen < (Utf16.modifiedUtf8 m).length := by
    change kMaxMessageLen < (encoded m.toList).length
    rw [hm, encoded_append, encoded_cons, List.length_append, List.length_append]
    omega
  have htext : messageText m = encoded before ++
      (((Utf16.ofChar c).flatMap Utf16.modifiedUtf8Unit).take (kMaxMessageLen - (encoded before).length) ++ truncated) := by
    rw [messageText, truncateInPlace, if_pos hlong, ← List.append_assoc, ← take_encoded after hle hlt, ← hm]
    rfl
  rw [htext, codeUnits_encoded_append, decode_encode_append, Option.isSome_map, decode_cut_char c _ (by omega)]
  have hthree : 3 ≤ kMaxMessageLen - (encoded before).length ↔ (encoded before).length + 3 ≤ kMaxMessageLen := by omega
  rw [hthree]

theorem decode_short {m : String} (h : (Utf16.modifiedUtf8 m).length ≤ kMaxMessageLen) :
    (Utf16.decode (codeUnits (messageText m))).isSome = true := by
  rw [messageText, truncateInPlace, if_neg (by omega), codeUnits_modifiedUtf8, Utf16.decode_encode]
  rfl

theorem text_escape (s : Bytes) (rest : List Char) :
    (JsonText.text ((escape s).toList ++ '"' :: rest)).isSome = (Utf16.decode (codeUnits s)).isSome := by
  rw [JsonText.text, units_escape (codeUnits_lt s)]
  cases h : Utf16.decode (codeUnits s) <;> simp [h]

theorem length_pair {c : Char} (hc : 0x10000 ≤ c.toNat) :
    ((Utf16.ofChar c).flatMap Utf16.modifiedUtf8Unit).length = 6 := by
  obtain ⟨hi, lo, hpair, -, -, hhi3, hlo3⟩ := ofChar_supplementary hc
  rw [hpair, List.flatMap_cons, List.flatMap_singleton, List.length_append, hhi3, hlo3]

/-- The escaped message is a string that a JSON reader accepts unless the cut parts a surrogate pair. -/
theorem message_well_formed_iff (m : String) (rest : List Char) :
    (JsonText.text ((escape (messageText m)).toList ++ '"' :: rest)).isSome = true ↔ ¬ CutInPair m := by
  rw [text_escape]
  constructor
  · rintro hsome ⟨before, c, after, hm, hc, h3, h6⟩
    rw [decode_messageText_cut hm (by omega) (by rw [length_pair hc]; omega)] at hsome
    exact hsome ⟨hc, h3⟩
  · intro hcut
    by_cases hlong : kMaxMessageLen < (Utf16.modifiedUtf8 m).length
    · have hencoded : kMaxMessageLen < (encoded m.toList).length := hlong
      obtain ⟨before, c, after, hm, hle, hlt⟩ := exists_cut hencoded
      rw [decode_messageText_cut hm hle hlt]
      rintro ⟨hc, h3⟩
      rw [length_pair hc] at hlt
      exact hcut ⟨before, c, after, hm, hc, h3, hlt⟩
    · exact decode_short (by omega)

theorem message_cut_in_pair :
    ¬ (JsonText.text ((escape (messageText (String.ofList (List.replicate 4093 'a' ++ ['😀'])))).toList ++
      ['"'])).isSome = true := by
  have hlen (n : ℕ) : (encoded (List.replicate n 'a')).length = n := by
    induction n with
    | zero => rfl
    | succ n ih =>
      rw [List.replicate_succ, encoded_cons, List.length_append, ih]
      exact Nat.add_comm 1 n
  have hpair : ((Utf16.ofChar '😀').flatMap Utf16.modifiedUtf8Unit).length = 6 := length_pair (by decide)
  rw [text_escape, decode_messageText_cut (String.toList_ofList) (by rw [hlen]; decide) (by rw [hlen, hpair]; decide),
    hlen]
  exact fun h => h ⟨by decide, by decide⟩

end JvmScout.Agent
