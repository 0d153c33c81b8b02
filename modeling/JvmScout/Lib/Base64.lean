import JvmScout.Lib.BitStream
import JvmScout.Lib.Traverse

namespace Base64

open BitStream

structure Alphabet (α : Type) where
  symbol : ℕ → α
  pad : α
  index : α → Option ℕ
  index_symbol : ∀ n < 64, index (symbol n) = some n
  symbol_index : ∀ a n, index a = some n → n < 64 ∧ symbol n = a
  index_pad : index pad = none

variable {α : Type} (A : Alphabet α)

def octetBits (x : List UInt8) : List Bool := x.flatMap fun b => bits 8 b.toNat

def sextetCount (octets : ℕ) : ℕ := (8 * octets + 5) / 6

def quantumCount (octets : ℕ) : ℕ := (octets + 2) / 3

def sextets (x : List UInt8) : List (List Bool) :=
  chunks 6 (sextetCount x.length) (octetBits x ++ List.replicate (6 * sextetCount x.length - 8 * x.length) false)

def encode (x : List UInt8) : List α :=
  (sextets x).map (fun g => A.symbol (ofBits g)) ++
    List.replicate (4 * quantumCount x.length - sextetCount x.length) A.pad

section Decode

variable [DecidableEq α]

def octets (stream : List Bool) : List UInt8 :=
  (chunks 8 (stream.length / 8) stream).map fun g => UInt8.ofNat (ofBits g)

def decodeBody (body : List α) : Option (List UInt8) :=
  (body.mapM A.index).bind fun ns =>
    let stream := ns.flatMap (bits 6)
    if (stream.drop (8 * (stream.length / 8))).all (! ·) then some (octets stream) else none

def decode (text : List α) : Option (List UInt8) :=
  let body := text.takeWhile (· ≠ A.pad)
  let pads := text.drop body.length
  if text.length % 4 = 0 ∧ pads.length ≤ 2 ∧ pads = List.replicate pads.length A.pad then decodeBody A body else none

end Decode

theorem length_octetBits (x : List UInt8) : (octetBits x).length = 8 * x.length := by
  induction x with
  | nil => rfl
  | cons b x ih =>
    rw [octetBits, List.flatMap_cons, List.length_append, length_bits, ← octetBits, ih, List.length_cons]
    omega

theorem octetBits_append (x y : List UInt8) : octetBits (x ++ y) = octetBits x ++ octetBits y :=
  List.flatMap_append

theorem length_filled (x : List UInt8) :
    (octetBits x ++ List.replicate (6 * sextetCount x.length - 8 * x.length) false).length =
      6 * sextetCount x.length := by
  rw [List.length_append, List.length_replicate, length_octetBits, sextetCount]
  omega

theorem flatten_sextets (x : List UInt8) :
    (sextets x).flatten = octetBits x ++ List.replicate (6 * sextetCount x.length - 8 * x.length) false := by
  have hlength := length_filled x
  rw [sextets, flatten_chunks (by omega), List.take_of_length_le (by omega)]

theorem length_of_mem_sextets (x : List UInt8) : ∀ g ∈ sextets x, g.length = 6 := by
  apply length_of_mem_chunks
  exact Nat.le_of_eq (length_filled x).symm

theorem ofBits_lt_of_mem (x : List UInt8) : ∀ g ∈ sextets x, ofBits g < 64 := by
  intro g hg
  have hlt := ofBits_lt g
  rwa [length_of_mem_sextets x g hg] at hlt

theorem length_encode (x : List UInt8) : (encode A x).length = 4 * quantumCount x.length := by
  rw [encode, List.length_append, List.length_map, sextets, length_chunks, List.length_replicate, sextetCount,
    quantumCount]
  omega

theorem sextets_eq {x : List UInt8} {gs : List (List Bool)} {k : ℕ} (hgs : ∀ g ∈ gs, g.length = 6) (hk : k < 6)
    (hflat : gs.flatten = octetBits x ++ List.replicate k false) : sextets x = gs := by
  have hlength : 6 * gs.length = 8 * x.length + k := by
    have hsum := congrArg List.length hflat
    rwa [List.length_append, length_octetBits, List.length_replicate, length_flatten hgs] at hsum
  have hcount : sextetCount x.length = gs.length := by
    rw [sextetCount]
    omega
  have hfill : 6 * sextetCount x.length - 8 * x.length = k := by omega
  have hcut := chunks_flatten hgs []
  rwa [List.append_nil, hflat, ← hfill, ← hcount] at hcut

def quantum (b0 b1 b2 : ℕ) : ℕ := b0 * 2 ^ 16 + b1 * 2 ^ 8 + b2

theorem octetBits_one (b0 : UInt8) : octetBits [b0] = bits 8 b0.toNat := List.append_nil _

theorem octetBits_two (b0 b1 : UInt8) : octetBits [b0, b1] = bits 16 (b0.toNat * 2 ^ 8 + b1.toNat) := by
  rw [bits_mul_add b1.toNat_lt 8, ← octetBits_one, ← octetBits_one, ← octetBits_append]
  rfl

theorem octetBits_three (b0 b1 b2 : UInt8) :
    octetBits [b0, b1, b2] = bits 24 (quantum b0.toNat b1.toNat b2.toNat) := by
  have hsum : quantum b0.toNat b1.toNat b2.toNat = (b0.toNat * 2 ^ 8 + b1.toNat) * 2 ^ 8 + b2.toNat := by
    rw [quantum]
    omega
  rw [hsum, bits_mul_add b2.toNat_lt 16, ← octetBits_two, ← octetBits_one, ← octetBits_append]
  rfl

theorem bits_four (n : ℕ) :
    bits 24 n = bits 6 (n / 2 ^ 18) ++ (bits 6 (n / 2 ^ 12) ++ (bits 6 (n / 2 ^ 6) ++ bits 6 n)) := by
  rw [bits_append 6 18, bits_append 6 12, bits_append 6 6]

theorem sextets_cons (b0 b1 b2 : UInt8) (rest : List UInt8) :
    sextets (b0 :: b1 :: b2 :: rest) =
      bits 6 (quantum b0.toNat b1.toNat b2.toNat / 2 ^ 18) :: bits 6 (quantum b0.toNat b1.toNat b2.toNat / 2 ^ 12) ::
        bits 6 (quantum b0.toNat b1.toNat b2.toNat / 2 ^ 6) :: bits 6 (quantum b0.toNat b1.toNat b2.toNat) ::
          sextets rest := by
  apply sextets_eq (k := 6 * sextetCount rest.length - 8 * rest.length)
  · simp only [List.forall_mem_cons, length_bits, true_and]
    exact length_of_mem_sextets rest
  · rw [sextetCount]
    omega
  · have hsplit : octetBits (b0 :: b1 :: b2 :: rest) = octetBits [b0, b1, b2] ++ octetBits rest :=
      octetBits_append [b0, b1, b2] rest
    rw [hsplit, octetBits_three, bits_four, List.append_assoc, ← flatten_sextets]
    simp only [List.flatten_cons, List.append_assoc]

theorem sextets_two (b0 b1 : UInt8) :
    sextets [b0, b1] =
      [bits 6 (quantum b0.toNat b1.toNat 0 / 2 ^ 18), bits 6 (quantum b0.toNat b1.toNat 0 / 2 ^ 12),
        bits 6 (quantum b0.toNat b1.toNat 0 / 2 ^ 6)] := by
  apply sextets_eq (k := 2)
  · simp
  · omega
  · have hzeros := bits_mul_add (Nat.two_pow_pos 2) 16 (b0.toNat * 2 ^ 8 + b1.toNat)
    have hvalue : (b0.toNat * 2 ^ 8 + b1.toNat) * 2 ^ 2 + 0 = quantum b0.toNat b1.toNat 0 / 2 ^ 6 := by
      rw [quantum]
      omega
    rw [octetBits_two, ← bits_zero, ← hzeros, hvalue, bits_append 6 12, bits_append 6 6, Nat.div_div_eq_div_mul,
      Nat.div_div_eq_div_mul]
    rfl

theorem sextets_one (b0 : UInt8) :
    sextets [b0] = [bits 6 (quantum b0.toNat 0 0 / 2 ^ 18), bits 6 (quantum b0.toNat 0 0 / 2 ^ 12)] := by
  apply sextets_eq (k := 4)
  · simp
  · omega
  · have hzeros := bits_mul_add (Nat.two_pow_pos 4) 8 b0.toNat
    have hvalue : b0.toNat * 2 ^ 4 + 0 = quantum b0.toNat 0 0 / 2 ^ 12 := by
      rw [quantum]
      omega
    rw [octetBits_one, ← bits_zero, ← hzeros, hvalue, bits_append 6 6, Nat.div_div_eq_div_mul]
    rfl

theorem encode_nil : encode A [] = [] := rfl

theorem encode_one (b0 : UInt8) :
    encode A [b0] =
      [A.symbol (quantum b0.toNat 0 0 / 2 ^ 18 % 64), A.symbol (quantum b0.toNat 0 0 / 2 ^ 12 % 64), A.pad, A.pad] := by
  have hpads : 4 * quantumCount [b0].length - sextetCount [b0].length = 2 := by
    simp [quantumCount, sextetCount]
  rw [encode, sextets_one, hpads]
  simp only [List.map_cons, List.map_nil, ofBits_bits]
  rfl

theorem encode_two (b0 b1 : UInt8) :
    encode A [b0, b1] =
      [A.symbol (quantum b0.toNat b1.toNat 0 / 2 ^ 18 % 64), A.symbol (quantum b0.toNat b1.toNat 0 / 2 ^ 12 % 64),
        A.symbol (quantum b0.toNat b1.toNat 0 / 2 ^ 6 % 64), A.pad] := by
  have hpads : 4 * quantumCount [b0, b1].length - sextetCount [b0, b1].length = 1 := by
    simp [quantumCount, sextetCount]
  rw [encode, sextets_two, hpads]
  simp only [List.map_cons, List.map_nil, ofBits_bits]
  rfl

theorem encode_cons (b0 b1 b2 : UInt8) (rest : List UInt8) :
    encode A (b0 :: b1 :: b2 :: rest) =
      A.symbol (quantum b0.toNat b1.toNat b2.toNat / 2 ^ 18 % 64) ::
        A.symbol (quantum b0.toNat b1.toNat b2.toNat / 2 ^ 12 % 64) ::
          A.symbol (quantum b0.toNat b1.toNat b2.toNat / 2 ^ 6 % 64) ::
            A.symbol (quantum b0.toNat b1.toNat b2.toNat % 64) :: encode A rest := by
  have hpads : 4 * quantumCount (rest.length + 1 + 1 + 1) - sextetCount (rest.length + 1 + 1 + 1) =
      4 * quantumCount rest.length - sextetCount rest.length := by
    rw [quantumCount, quantumCount, sextetCount, sextetCount]
    omega
  rw [encode, sextets_cons]
  simp only [List.map_cons, ofBits_bits, List.length_cons, hpads, List.cons_append]
  rfl

theorem symbol_ne_pad {n : ℕ} (h : n < 64) : A.symbol n ≠ A.pad := by
  intro heq
  have hindex := A.index_symbol n h
  rw [heq, A.index_pad] at hindex
  cases hindex

theorem symbols_indexed {ns : List ℕ} (h : ∀ n ∈ ns, n < 64) : (ns.map A.symbol).mapM A.index = some ns := by
  rw [Traverse.option_mapM, List.forall₂_map_left_iff, List.forall₂_same]
  exact fun n hn => A.index_symbol n (h n hn)

theorem indexed_symbols {body : List α} {ns : List ℕ} (h : body.mapM A.index = some ns) :
    (∀ n ∈ ns, n < 64) ∧ body = ns.map A.symbol := by
  rw [Traverse.option_mapM] at h
  induction h with
  | nil => exact ⟨fun n hn => absurd hn List.not_mem_nil, rfl⟩
  | cons hhead htail ih =>
    obtain ⟨hlt, hsymbol⟩ := A.symbol_index _ _ hhead
    refine ⟨List.forall_mem_cons.mpr ⟨hlt, ih.1⟩, ?_⟩
    rw [List.map_cons, hsymbol, ih.2]

theorem octets_octetBits (x : List UInt8) {k : ℕ} (hk : k < 8) :
    octets (octetBits x ++ List.replicate k false) = x := by
  have hcount : (octetBits x ++ List.replicate k false).length / 8 = (x.map fun b => bits 8 b.toNat).length := by
    rw [List.length_append, length_octetBits, List.length_replicate, List.length_map]
    omega
  have hgroups : octetBits x = (x.map fun b => bits 8 b.toNat).flatten := List.flatMap_def
  have hwidth : ∀ g ∈ x.map fun b => bits 8 b.toNat, g.length = 8 := by
    intro g hg
    obtain ⟨b, -, rfl⟩ := List.mem_map.mp hg
    exact length_bits 8 _
  rw [octets, hcount, hgroups, chunks_flatten hwidth, List.map_map]
  conv => rhs; rw [← List.map_id x]
  apply List.map_congr_left
  intro b _
  rw [Function.comp_apply, ofBits_bits, Nat.mod_eq_of_lt b.toNat_lt, UInt8.ofNat_toNat, id_eq]

theorem octetBits_octets (stream : List Bool) :
    octetBits (octets stream) = stream.take (8 * (stream.length / 8)) := by
  have hle : 8 * (stream.length / 8) ≤ stream.length := Nat.mul_div_le _ _
  rw [← flatten_chunks hle, octetBits, octets, List.flatMap_map, List.flatMap_def]
  congr 1
  conv => rhs; rw [← List.map_id (chunks 8 (stream.length / 8) stream)]
  apply List.map_congr_left
  intro g hg
  have hwidth := length_of_mem_chunks hle g hg
  have hlt := ofBits_lt g
  rw [hwidth] at hlt
  have hback := bits_ofBits g
  rw [hwidth] at hback
  rw [UInt8.toNat_ofNat_of_lt' hlt, hback, id_eq]

theorem decodeBody_filled {ns : List ℕ} (h : ∀ n ∈ ns, n < 64) {x : List UInt8} {k : ℕ} (hk : k < 8)
    (hstream : ns.flatMap (bits 6) = octetBits x ++ List.replicate k false) :
    decodeBody A (ns.map A.symbol) = some x := by
  have hcount : 8 * ((octetBits x ++ List.replicate k false).length / 8) = (octetBits x).length := by
    rw [List.length_append, length_octetBits, List.length_replicate]
    omega
  rw [decodeBody, symbols_indexed A h, Option.bind_some, hstream]
  dsimp only
  rw [hcount, List.drop_left, octets_octetBits x hk]
  simp

theorem filled_of_decodeBody {ns : List ℕ} {x : List UInt8} (hlt : ∀ n ∈ ns, n < 64)
    (h : decodeBody A (ns.map A.symbol) = some x) :
    x.length = 6 * ns.length / 8 ∧
      ns.flatMap (bits 6) = octetBits x ++ List.replicate (6 * ns.length - 8 * x.length) false := by
  have hlength : (ns.flatMap (bits 6)).length = 6 * ns.length := by
    have hgroups : ∀ g ∈ ns.map (bits 6), g.length = 6 := by simp
    rw [List.flatMap_def, length_flatten hgroups, List.length_map]
  rw [decodeBody, symbols_indexed A hlt, Option.bind_some] at h
  dsimp only at h
  split at h
  · rename_i hzeros
    rw [← Option.some.inj h]
    have hx : (octets (ns.flatMap (bits 6))).length = 6 * ns.length / 8 := by
      rw [octets, List.length_map, length_chunks, hlength]
    refine ⟨hx, ?_⟩
    rw [octetBits_octets, hx, hlength]
    rw [hlength] at hzeros
    conv => lhs; rw [← List.take_append_drop (8 * (6 * ns.length / 8)) (ns.flatMap (bits 6))]
    congr 1
    rw [List.eq_replicate_iff]
    constructor
    · rw [List.length_drop, hlength]
    · simpa using hzeros
  · cases h

variable [DecidableEq α]

theorem takeWhile_symbols {ns : List ℕ} (h : ∀ n ∈ ns, n < 64) (p : ℕ) :
    (ns.map A.symbol ++ List.replicate p A.pad).takeWhile (· ≠ A.pad) = ns.map A.symbol := by
  have hall : ∀ a ∈ ns.map A.symbol, decide (a ≠ A.pad) = true := by
    intro a ha
    obtain ⟨n, hn, rfl⟩ := List.mem_map.mp ha
    exact decide_eq_true (symbol_ne_pad A (h n hn))
  rw [List.takeWhile_append_of_pos hall]
  cases p with
  | zero => exact List.append_nil _
  | succ p => rw [List.replicate_succ, List.takeWhile_cons_of_neg (by simp), List.append_nil]

theorem decode_padded {ns : List ℕ} (h : ∀ n ∈ ns, n < 64) (p : ℕ) :
    decode A (ns.map A.symbol ++ List.replicate p A.pad) =
      if (ns.length + p) % 4 = 0 ∧ p ≤ 2 then decodeBody A (ns.map A.symbol) else none := by
  rw [decode, takeWhile_symbols A h, List.drop_left, List.length_append, List.length_map, List.length_replicate]
  simp

theorem decode_encode (x : List UInt8) : decode A (encode A x) = some x := by
  have hvalues : ∀ n ∈ (sextets x).map ofBits, n < 64 := List.forall_mem_map.mpr (ofBits_lt_of_mem x)
  have hback : ((sextets x).map ofBits).flatMap (bits 6) = (sextets x).flatten := by
    rw [List.flatMap_map, List.flatMap_def]
    congr 1
    conv => rhs; rw [← List.map_id (sextets x)]
    apply List.map_congr_left
    intro g hg
    rw [id_eq, ← length_of_mem_sextets x g hg, bits_ofBits]
  have hsymbols : (sextets x).map (fun g => A.symbol (ofBits g)) = ((sextets x).map ofBits).map A.symbol := by
    rw [List.map_map]
    rfl
  have hlength : ((sextets x).map ofBits).length = sextetCount x.length := by
    rw [List.length_map, sextets, length_chunks]
  rw [encode, hsymbols, decode_padded A hvalues, hlength, if_pos]
  · apply decodeBody_filled A hvalues _ (hback.trans (flatten_sextets x))
    rw [sextetCount]
    omega
  · rw [sextetCount, quantumCount]
    omega

theorem encode_of_decode {text : List α} {x : List UInt8} (h : decode A text = some x) : text = encode A x := by
  rw [decode] at h
  split at h
  · rename_i hpads
    obtain ⟨hfour, htwo, hpads⟩ := hpads
    obtain ⟨ns, hns, -⟩ := Option.bind_eq_some_iff.mp h
    obtain ⟨hlt, hbody⟩ := indexed_symbols A hns
    have htext := List.prefix_iff_eq_append.mp (List.takeWhile_prefix (· ≠ A.pad) (l := text))
    rw [hpads, hbody, List.length_drop] at htext
    rw [hbody] at h
    rw [hbody, List.length_drop] at htwo
    rw [List.length_map] at htext htwo
    obtain ⟨hx, hstream⟩ := filled_of_decodeBody A hlt h
    have hle : ns.length ≤ text.length := by
      rw [← htext, List.length_append, List.length_map]
      omega
    have hrest : ns.length % 4 = 0 ∨ ns.length % 4 = 2 ∨ ns.length % 4 = 3 := by omega
    have hfew : 6 * ns.length - 8 * x.length < 6 := by rcases hrest with hr | hr | hr <;> omega
    have hgroups : sextets x = ns.map (bits 6) := by
      apply sextets_eq _ hfew
      · rw [← List.flatMap_def, hstream]
      · simp
    have hvalues : (ns.map (bits 6)).map (fun g => A.symbol (ofBits g)) = ns.map A.symbol := by
      rw [List.map_map]
      apply List.map_congr_left
      intro n hn
      have hsix : n < 2 ^ 6 := hlt n hn
      rw [Function.comp_apply, ofBits_bits, Nat.mod_eq_of_lt hsix]
    have hpads : 4 * quantumCount x.length - sextetCount x.length = text.length - ns.length := by
      rw [quantumCount, sextetCount]
      rcases hrest with hr | hr | hr <;> omega
    rw [encode, hgroups, hvalues, hpads, htext]
  · cases h

def standardSymbol (n : ℕ) : UInt8 :=
  if n < 26 then UInt8.ofNat (0x41 + n)
  else if n < 52 then UInt8.ofNat (0x61 + (n - 26))
  else if n < 62 then UInt8.ofNat (0x30 + (n - 52))
  else if n = 62 then 0x2B
  else 0x2F

def standardIndex (c : UInt8) : Option ℕ :=
  if 0x41 ≤ c ∧ c ≤ 0x5A then some (c.toNat - 0x41)
  else if 0x61 ≤ c ∧ c ≤ 0x7A then some (c.toNat - 0x61 + 26)
  else if 0x30 ≤ c ∧ c ≤ 0x39 then some (c.toNat - 0x30 + 52)
  else if c = 0x2B then some 62
  else if c = 0x2F then some 63
  else none

theorem symbol_of_standardIndex {c : UInt8} {n : ℕ} (h : standardIndex c = some n) :
    n < 64 ∧ standardSymbol n = c := by
  have hrange {lo b : ℕ} (hlo : lo ≤ c.toNat) : UInt8.ofNat (lo + (c.toNat - lo + b - b)) = c := by
    rw [Nat.add_sub_cancel, Nat.add_sub_cancel' hlo, UInt8.ofNat_toNat]
  simp only [standardIndex, UInt8.le_iff_toNat_le, UInt8.reduceToNat] at h
  split at h
  · cases h
    rw [standardSymbol, if_pos (by omega)]
    exact ⟨by omega, hrange (b := 0) (by omega)⟩
  split at h
  · cases h
    rw [standardSymbol, if_neg (by omega), if_pos (by omega)]
    exact ⟨by omega, hrange (by omega)⟩
  split at h
  · cases h
    rw [standardSymbol, if_neg (by omega), if_neg (by omega), if_pos (by omega)]
    exact ⟨by omega, hrange (by omega)⟩
  split at h
  · rename_i hplus
    cases h
    exact ⟨by omega, hplus.symm⟩
  split at h
  · rename_i hslash
    cases h
    exact ⟨by omega, hslash.symm⟩
  cases h

def standard : Alphabet UInt8 where
  symbol := standardSymbol
  pad := 0x3D
  index := standardIndex
  index_symbol := by decide
  symbol_index _ _ h := symbol_of_standardIndex h
  index_pad := rfl

end Base64
