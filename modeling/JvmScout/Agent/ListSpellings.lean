import JvmScout.Agent.Settings
import Mathlib.Data.List.Nodup

namespace JvmScout.Agent

/-! ### Blanks around a text -/

def Tight (s : Bytes) : Prop := (∀ b ∈ s.head?, isBlank b = false) ∧ ∀ b ∈ s.getLast?, isBlank b = false

instance (s : Bytes) : Decidable (Tight s) :=
  decidable_of_iff (s.head?.all (fun b => !isBlank b) = true ∧ s.getLast?.all (fun b => !isBlank b) = true)
    (by simp [Tight, Option.all_eq_true])

theorem trim_tight {s : Bytes} (h : Tight s) : trim s = s := by
  have hhead : s.dropWhile isBlank = s := by
    cases s with
    | nil => rfl
    | cons b s => rw [List.dropWhile_cons_of_neg (by simp [h.1 b rfl])]
  rw [trim, hhead, List.rdropWhile_eq_self_iff]
  intro hne
  have hlast := h.2 (s.getLast hne) (List.getLast?_eq_getLast_of_ne_nil hne)
  simp [hlast]

theorem trim_append_left {a : Bytes} (ha : ∀ b ∈ a, isBlank b = true) (s : Bytes) : trim (a ++ s) = trim s := by
  rw [trim, List.dropWhile_append_of_pos ha, ← trim]

theorem rdropWhile_append_right {a : Bytes} (ha : ∀ b ∈ a, isBlank b = true) (s : Bytes) :
    (s ++ a).rdropWhile isBlank = s.rdropWhile isBlank := by
  rw [List.rdropWhile, List.reverse_append, List.dropWhile_append_of_pos, ← List.rdropWhile]
  exact fun b hb => ha b (List.mem_reverse.mp hb)

theorem trim_append_right {a : Bytes} (ha : ∀ b ∈ a, isBlank b = true) (s : Bytes) : trim (s ++ a) = trim s := by
  rw [trim, List.dropWhile_append]
  split
  · rename_i hblank
    have hnil : a.dropWhile isBlank = [] := List.dropWhile_eq_nil_iff.mpr ha
    rw [hnil, trim, List.isEmpty_iff.mp hblank]
  · rw [rdropWhile_append_right ha, ← trim]

/-! ### Items and layouts -/

def reserved : Bytes := [0x2C, 0x3B, 0x23, 0x22, 0x27, 0x5B, 0x5D, 0x0A]

structure ListItem where
  text : Bytes
  nonempty : text ≠ []
  tight : Tight text
  clean : ∀ b ∈ text, b ∉ reserved

structure Blanks where
  text : Bytes
  blank : ∀ b ∈ text, b = 0x20 ∨ b = 0x09

structure Trailer where
  blanks : Blanks
  comment : Option Bytes
  oneLine : ∀ c ∈ comment, '\n'.toUInt8 ∉ c

def Trailer.text (t : Trailer) : Bytes :=
  t.blanks.text ++
    match t.comment with
    | none => []
    | some c => '#'.toUInt8 :: c

structure BlockItem where
  fillers : List Trailer
  indent : Blanks
  gap : Blanks
  item : ListItem
  trailer : Trailer

def BlockItem.lines (x : BlockItem) : List Bytes :=
  x.fillers.map Trailer.text ++
    [x.indent.text ++ ([0x2D, 0x20] ++ x.gap.text ++ x.item.text) ++ x.trailer.text]

structure BlockLayout where
  fillers : List Trailer
  indent : Blanks
  keyGap : Blanks
  trailer : Trailer
  items : List BlockItem
  after : List Trailer

def BlockLayout.lines (l : BlockLayout) (k : Key) : List Bytes :=
  l.fillers.map Trailer.text ++
    [l.indent.text ++ (k.name ++ l.keyGap.text ++ [':'.toUInt8]) ++ l.trailer.text] ++
    l.items.flatMap BlockItem.lines ++ l.after.map Trailer.text

structure FlowItem where
  before : Blanks
  item : ListItem
  after : Blanks

def FlowItem.text (x : FlowItem) : Bytes := x.before.text ++ x.item.text ++ x.after.text

structure FlowLayout where
  fillers : List Trailer
  indent : Blanks
  keyGap : Blanks
  gap : Blanks
  items : List FlowItem
  trailer : Trailer
  after : List Trailer

def FlowLayout.sequence (l : FlowLayout) : Bytes :=
  ['['.toUInt8] ++ [','.toUInt8].intercalate (l.items.map FlowItem.text) ++ [']'.toUInt8]

def FlowLayout.lines (l : FlowLayout) (k : Key) : List Bytes :=
  l.fillers.map Trailer.text ++
    [l.indent.text ++ (k.name ++ l.keyGap.text ++ [':'.toUInt8] ++ l.gap.text ++ l.sequence) ++ l.trailer.text] ++
    l.after.map Trailer.text

def unlines (lines : List Bytes) : Bytes := ['\n'.toUInt8].intercalate lines

def joined (items : List ListItem) : Bytes := [';'.toUInt8].intercalate (items.map ListItem.text)

/-! ### Lines -/

theorem Blanks.all_blank (x : Blanks) : ∀ b ∈ x.text, isBlank b = true := by
  intro b hb
  rcases x.blank b hb with rfl | rfl <;> rfl

theorem Blanks.not_mem (x : Blanks) {b : UInt8} (hb : b ≠ 0x20 ∧ b ≠ 0x09) : b ∉ x.text := fun hmem =>
  not_or.mpr hb (x.blank b hmem)

theorem significant_line (indent : Blanks) {content : Bytes} (htight : Tight content) (hhash : '#'.toUInt8 ∉ content)
    (t : Trailer) : significant (indent.text ++ content ++ t.text) = content := by
  have hbody : ∀ b ∈ indent.text ++ content ++ t.blanks.text, decide (b ≠ '#'.toUInt8) = true := by
    intro b hb
    apply decide_eq_true
    rintro rfl
    rcases List.mem_append.mp hb with hb | hb
    · rcases List.mem_append.mp hb with hb | hb
      · exact indent.not_mem (by decide) hb
      · exact hhash hb
    · exact t.blanks.not_mem (by decide) hb
  have hcut : (indent.text ++ content ++ t.text).takeWhile (· ≠ '#'.toUInt8) =
      indent.text ++ content ++ t.blanks.text := by
    rw [Trailer.text, ← List.append_assoc, List.takeWhile_append_of_pos hbody]
    cases t.comment with
    | none => rw [List.takeWhile_nil, List.append_nil]
    | some c => rw [List.takeWhile_cons_of_neg (by simp), List.append_nil]
  rw [significant, hcut, trim_append_right t.blanks.all_blank, trim_append_left indent.all_blank, trim_tight htight]

theorem significant_filler (t : Trailer) : significant t.text = [] := by
  have htight : Tight [] := ⟨by simp, by simp⟩
  exact significant_line ⟨[], by simp⟩ htight List.not_mem_nil t

theorem ListItem.not_mem (x : ListItem) {b : UInt8} (hb : b ∈ reserved) : b ∉ x.text := fun hmem => x.clean b hmem hb

theorem tight_append {a b : Bytes} (ha : ∀ x ∈ a.head?, isBlank x = false) (hane : a ≠ [])
    (hb : ∀ x ∈ b.getLast?, isBlank x = false) (hbne : b ≠ []) : Tight (a ++ b) := by
  constructor
  · rwa [List.head?_append_of_ne_nil a hane]
  · rwa [List.getLast?_append_of_ne_nil a hbne]

theorem unquote_item (x : ListItem) : unquote x.text = x.text := by
  rw [unquote, if_neg]
  rintro ⟨-, hquote, -⟩
  rcases hquote with hhead | hhead
  · exact x.not_mem (by decide) (List.mem_of_mem_head? hhead)
  · exact x.not_mem (by decide) (List.mem_of_mem_head? hhead)

def BlockItem.content (x : BlockItem) : Bytes := [0x2D, 0x20] ++ x.gap.text ++ x.item.text

theorem BlockItem.not_mem_content (x : BlockItem) {b : UInt8} (hdash : b ≠ 0x2D) (hblank : b ≠ 0x20 ∧ b ≠ 0x09)
    (hitem : b ∈ reserved) : b ∉ x.content := by
  rw [content, List.mem_append, List.mem_append, not_or, not_or]
  refine ⟨⟨?_, x.gap.not_mem hblank⟩, x.item.not_mem hitem⟩
  simp [hdash, hblank.1]

theorem BlockItem.significant_content (x : BlockItem) :
    significant (x.indent.text ++ x.content ++ x.trailer.text) = x.content := by
  apply significant_line
  · apply tight_append
    · intro b hb
      cases hb
      rfl
    · simp
    · exact x.item.tight.2
    · exact x.item.nonempty
  · exact x.not_mem_content (by decide) (by decide) (by decide)

theorem BlockItem.isItem_content (x : BlockItem) : isItem x.content = true := by
  have hdash : [0x2D, 0x20] <+: x.content := ⟨x.gap.text ++ x.item.text, by rw [content, List.append_assoc]⟩
  rw [isItem, decide_eq_true hdash, Bool.true_or]

theorem BlockItem.itemText_content (x : BlockItem) : itemText x.content = x.item.text := by
  have hblank : ∀ b ∈ [0x20] ++ x.gap.text, isBlank b = true := by
    intro b hb
    rcases List.mem_append.mp hb with hb | hb
    · rw [List.mem_singleton.mp hb]
      rfl
    · exact x.gap.all_blank b hb
  have hdrop : x.content.drop 1 = [0x20] ++ x.gap.text ++ x.item.text := rfl
  rw [itemText, hdrop, trim_append_left hblank, trim_tight x.item.tight, unquote_item]

/-! ### The lines of a layout -/

def contents (lines : List Bytes) : List Bytes := (lines.map significant).filter (· ≠ [])

theorem contents_append (a b : List Bytes) : contents (a ++ b) = contents a ++ contents b := by
  rw [contents, List.map_append, List.filter_append, ← contents, ← contents]

theorem contents_fillers (ts : List Trailer) : contents (ts.map Trailer.text) = [] := by
  rw [contents, List.map_map, List.filter_eq_nil_iff]
  intro t ht
  obtain ⟨t, -, rfl⟩ := List.mem_map.mp ht
  simp [significant_filler]

theorem contents_line {line content : Bytes} (h : significant line = content) (hne : content ≠ []) :
    contents [line] = [content] := by
  simp [contents, h, hne]

theorem yamlPairs_unlines {lines : List Bytes} (hne : lines ≠ []) (hlines : ∀ line ∈ lines, '\n'.toUInt8 ∉ line) :
    yamlPairs (unlines lines) = mentionsOf (contents lines) := by
  rw [yamlPairs, unlines, List.splitOn_intercalate _ hlines hne, contents]

theorem Trailer.noNewline (t : Trailer) : '\n'.toUInt8 ∉ t.text := by
  rw [text, List.mem_append, not_or]
  refine ⟨t.blanks.not_mem (by decide), ?_⟩
  cases hcomment : t.comment with
  | none => exact List.not_mem_nil
  | some c =>
    rw [List.mem_cons, not_or]
    exact ⟨by decide, t.oneLine c hcomment⟩

theorem noNewline_line (indent : Blanks) {content : Bytes} (hcontent : '\n'.toUInt8 ∉ content) (t : Trailer) :
    '\n'.toUInt8 ∉ indent.text ++ content ++ t.text := by
  rw [List.mem_append, List.mem_append, not_or, not_or]
  exact ⟨⟨indent.not_mem (by decide), hcontent⟩, t.noNewline⟩

theorem noNewline_fillers (ts : List Trailer) : ∀ line ∈ ts.map Trailer.text, '\n'.toUInt8 ∉ line :=
  List.forall_mem_map.mpr fun t _ => t.noNewline

theorem BlockItem.noNewline (x : BlockItem) : ∀ line ∈ x.lines, '\n'.toUInt8 ∉ line := by
  rw [lines, List.forall_mem_append, List.forall_mem_singleton]
  exact ⟨noNewline_fillers x.fillers,
    noNewline_line x.indent (x.not_mem_content (by decide) (by decide) (by decide)) x.trailer⟩

theorem BlockItem.contents_lines (x : BlockItem) : contents x.lines = [x.content] := by
  have hne : x.content ≠ [] := List.cons_ne_nil _ _
  rw [lines, contents_append, contents_fillers, List.nil_append, ← content, contents_line x.significant_content hne]

theorem contents_items (items : List BlockItem) :
    contents (items.flatMap BlockItem.lines) = items.map BlockItem.content := by
  induction items with
  | nil => rfl
  | cons x items ih => rw [List.flatMap_cons, contents_append, x.contents_lines, ih, List.map_cons, List.singleton_append]

theorem blockItems_contents (items : List BlockItem) :
    blockItems (items.map BlockItem.content) = (items.map BlockItem.item).map ListItem.text := by
  induction items with
  | nil => rfl
  | cons x items ih =>
    rw [List.map_cons, blockItems_cons_item x.isItem_content, ih, x.itemText_content, if_pos x.item.nonempty]
    rfl

theorem mentionsOf_contents (items : List BlockItem) : mentionsOf (items.map BlockItem.content) = [] := by
  induction items with
  | nil => rfl
  | cons x items ih =>
    rw [List.map_cons, mentionsOf, lineMention_item x.isItem_content, ih]
    rfl

theorem joinSemicolons_from {acc : Bytes} (hacc : acc ≠ []) (items : List ListItem) :
    (items.map ListItem.text).foldl
        (fun joined it => (if joined ≠ [] then joined ++ [';'.toUInt8] else joined) ++ it) acc =
      [';'.toUInt8].intercalate (acc :: items.map ListItem.text) := by
  induction items generalizing acc with
  | nil => simp
  | cons x items ih =>
    rw [List.map_cons, List.foldl_cons, if_pos hacc, ih (by simp), List.intercalate_cons_cons]
    cases items <;> simp

theorem joinSemicolons_eq (items : List ListItem) : joinSemicolons (items.map ListItem.text) = joined items := by
  cases items with
  | nil => rfl
  | cons x items =>
    have hfirst := joinSemicolons_from x.nonempty items
    rwa [joinSemicolons, List.map_cons, List.foldl_cons, if_neg (by simp), List.nil_append]

theorem isItem_key {k : Key} (rest : Bytes) : isItem (k.name ++ rest) = false := by
  cases k <;> rfl

theorem name_tight (k : Key) : Tight k.name := by
  cases k <;> decide

theorem name_noColon (k : Key) : ':'.toUInt8 ∉ k.name := by
  cases k <;> decide

theorem name_noHash (k : Key) : '#'.toUInt8 ∉ k.name := by
  cases k <;> decide

theorem name_ne_nil (k : Key) : k.name ≠ [] := by
  cases k <;> decide

theorem splitFirst_key (k : Key) (keyGap : Blanks) (rest : Bytes) :
    splitFirst ':'.toUInt8 (k.name ++ keyGap.text ++ [':'.toUInt8] ++ rest) = some (k.name ++ keyGap.text, rest) := by
  have hkey : ∀ b ∈ k.name ++ keyGap.text, decide (b ≠ ':'.toUInt8) = true := by
    intro b hb
    apply decide_eq_true
    rintro rfl
    rcases List.mem_append.mp hb with hb | hb
    · exact name_noColon k hb
    · exact keyGap.not_mem (by decide) hb
  rw [splitFirst, if_pos, List.append_assoc, List.takeWhile_append_of_pos hkey, List.dropWhile_append_of_pos hkey]
  · simp
  · simp

theorem trim_key (k : Key) (keyGap : Blanks) : trim (k.name ++ keyGap.text) = k.name := by
  rw [trim_append_right keyGap.all_blank, trim_tight (name_tight k)]

theorem lineMention_block (k : Key) (keyGap : Blanks) (below : List Bytes) :
    lineMention (k.name ++ keyGap.text ++ [':'.toUInt8]) below = some (k.name, joinSemicolons (blockItems below)) := by
  have hsplit := splitFirst_key k keyGap []
  have hitem : isItem (k.name ++ keyGap.text ++ [':'.toUInt8]) = false := by
    rw [List.append_assoc]
    exact isItem_key _
  have hempty : trim [] = [] := rfl
  rw [List.append_nil] at hsplit
  rw [lineMention, if_neg (ne_true_of_eq_false hitem), hsplit]
  dsimp only
  rw [trim_key, if_pos hempty, if_neg (name_ne_nil k)]

theorem FlowItem.trim_text (x : FlowItem) : trim x.text = x.item.text := by
  rw [text, trim_append_right x.after.all_blank, trim_append_left x.before.all_blank, trim_tight x.item.tight]

theorem FlowItem.text_ne_nil (x : FlowItem) : x.text ≠ [] := by
  intro hnil
  have htrim := x.trim_text
  rw [hnil] at htrim
  exact x.item.nonempty htrim.symm

theorem FlowItem.noComma (x : FlowItem) : ','.toUInt8 ∉ x.text := by
  intro hmem
  rcases List.mem_append.mp hmem with hmem | hmem
  · rcases List.mem_append.mp hmem with hmem | hmem
    · exact x.before.not_mem (by decide) hmem
    · exact x.item.not_mem (by decide) hmem
  · exact x.after.not_mem (by decide) hmem

theorem split_intercalate {delim : UInt8} {items : List Bytes} (hne : ∀ x ∈ items, x ≠ [])
    (hdelim : ∀ x ∈ items, delim ∉ x) : split ([delim].intercalate items) delim = items := by
  cases items with
  | nil => rfl
  | cons x items =>
    rw [split, List.splitOn_intercalate delim hdelim (List.cons_ne_nil x items), List.filter_eq_self]
    exact fun y hy => decide_eq_true (hne y hy)

theorem flowSeqToSemicolons_eq (items : List FlowItem) :
    flowSeqToSemicolons ([','.toUInt8].intercalate (items.map FlowItem.text)) = joined (items.map FlowItem.item) := by
  have hne : ∀ t ∈ items.map FlowItem.text, t ≠ [] := List.forall_mem_map.mpr fun x _ => x.text_ne_nil
  have hcomma : ∀ t ∈ items.map FlowItem.text, ','.toUInt8 ∉ t := List.forall_mem_map.mpr fun x _ => x.noComma
  have hitems : (items.map FlowItem.text).map (fun item => unquote (trim item)) =
      (items.map FlowItem.item).map ListItem.text := by
    rw [List.map_map, List.map_map]
    apply List.map_congr_left
    intro x _
    rw [Function.comp_apply, Function.comp_apply, x.trim_text, unquote_item]
  rw [flowSeqToSemicolons, split_intercalate hne hcomma, hitems, List.filter_eq_self.mpr, joinSemicolons_eq]
  intro t ht
  obtain ⟨x, -, rfl⟩ := List.mem_map.mp ht
  exact decide_eq_true x.nonempty

theorem isFlow_sequence (l : FlowLayout) : isFlow l.sequence = true := by
  have hlast : l.sequence.getLast? = some ']'.toUInt8 := List.getLast?_concat
  have hhead : l.sequence.head? = some '['.toUInt8 := rfl
  rw [isFlow, hhead, hlast]
  rfl

theorem sequence_inner (l : FlowLayout) :
    (l.sequence.drop 1).dropLast = [','.toUInt8].intercalate (l.items.map FlowItem.text) := by
  have hdrop : l.sequence.drop 1 = [','.toUInt8].intercalate (l.items.map FlowItem.text) ++ [']'.toUInt8] := rfl
  rw [hdrop, List.dropLast_concat]

theorem sequence_tight (l : FlowLayout) : Tight l.sequence := by
  constructor
  · intro b hb
    cases hb
    rfl
  · intro b hb
    have hlast : l.sequence.getLast? = some ']'.toUInt8 := List.getLast?_concat
    rw [hlast] at hb
    cases hb
    rfl

def FlowLayout.content (l : FlowLayout) (k : Key) : Bytes :=
  k.name ++ l.keyGap.text ++ [':'.toUInt8] ++ l.gap.text ++ l.sequence

theorem lineMention_flow (l : FlowLayout) (k : Key) (below : List Bytes) :
    lineMention (l.content k) below = some (k.name, joined (l.items.map FlowItem.item)) := by
  have hsplit := splitFirst_key k l.keyGap (l.gap.text ++ l.sequence)
  have hitem : isItem (l.content k) = false := by
    rw [FlowLayout.content, List.append_assoc, List.append_assoc, List.append_assoc]
    exact isItem_key _
  have hval : trim (l.gap.text ++ l.sequence) = l.sequence := by
    rw [trim_append_left l.gap.all_blank, trim_tight (sequence_tight l)]
  have hne : l.sequence ≠ [] := List.cons_ne_nil _ _
  rw [← List.append_assoc] at hsplit
  rw [lineMention, if_neg (ne_true_of_eq_false hitem), FlowLayout.content, hsplit]
  dsimp only
  rw [hval, trim_key, if_neg hne, if_pos (isFlow_sequence l), sequence_inner, flowSeqToSemicolons_eq]

/-! ### The spellings -/

def optionSpelling (k : Key) (items : List ListItem) : Bytes := k.name ++ ['='.toUInt8] ++ joined items

def envSpelling (k : Key) (items : List ListItem) : Bytes → Option Bytes := fun name =>
  if name = envName k then some (joined items) else none

def BlockLayout.text (l : BlockLayout) (k : Key) : Bytes := unlines (l.lines k)

def FlowLayout.text (l : FlowLayout) (k : Key) : Bytes := unlines (l.lines k)

theorem name_noNewline (k : Key) : '\n'.toUInt8 ∉ k.name := by
  cases k <;> decide

theorem keyLine_not_mem {k : Key} {b : UInt8} (hname : b ∉ k.name) (hblank : b ≠ 0x20 ∧ b ≠ 0x09)
    (hcolon : b ≠ ':'.toUInt8) (keyGap : Blanks) : b ∉ k.name ++ keyGap.text ++ [':'.toUInt8] := by
  rw [List.mem_append, List.mem_append, not_or, not_or, List.mem_singleton]
  exact ⟨⟨hname, keyGap.not_mem hblank⟩, hcolon⟩

theorem keyLine_tight (k : Key) (keyGap : Blanks) : Tight (k.name ++ keyGap.text ++ [':'.toUInt8]) := by
  rw [List.append_assoc]
  apply tight_append (name_tight k).1 (name_ne_nil k)
  · intro b hb
    rw [List.getLast?_concat] at hb
    cases hb
    rfl
  · simp

theorem yamlPairs_block (l : BlockLayout) (k : Key) :
    yamlPairs (l.text k) = [(k.name, joined (l.items.map BlockItem.item))] := by
  have hkey : contents [l.indent.text ++ (k.name ++ l.keyGap.text ++ [':'.toUInt8]) ++ l.trailer.text] =
      [k.name ++ l.keyGap.text ++ [':'.toUInt8]] := by
    apply contents_line
    · apply significant_line _ (keyLine_tight k l.keyGap)
      exact keyLine_not_mem (name_noHash k) (by decide) (by decide) l.keyGap
    · simp
  rw [BlockLayout.text, yamlPairs_unlines]
  · rw [BlockLayout.lines, contents_append, contents_append, contents_append, contents_fillers, contents_fillers, hkey,
      contents_items, List.nil_append, List.append_nil, List.singleton_append, mentionsOf, lineMention_block,
      blockItems_contents, joinSemicolons_eq, mentionsOf_contents]
    rfl
  · simp [BlockLayout.lines]
  · rw [BlockLayout.lines, List.forall_mem_append, List.forall_mem_append, List.forall_mem_append,
      List.forall_mem_singleton]
    refine ⟨⟨⟨noNewline_fillers _, ?_⟩, ?_⟩, noNewline_fillers _⟩
    · exact noNewline_line _ (keyLine_not_mem (name_noNewline k) (by decide) (by decide) l.keyGap) _
    · intro line hline
      obtain ⟨x, -, hx⟩ := List.mem_flatMap.mp hline
      exact x.noNewline line hx

theorem not_mem_intercalate {sep b : UInt8} (hsep : b ≠ sep) {ts : List Bytes} (hts : ∀ t ∈ ts, b ∉ t) :
    b ∉ [sep].intercalate ts := by
  induction ts with
  | nil => exact List.not_mem_nil
  | cons t ts ih =>
    rw [List.forall_mem_cons] at hts
    cases ts with
    | nil =>
      rw [List.intercalate_singleton]
      exact hts.1
    | cons u ts =>
      rw [List.intercalate_cons_cons, List.mem_append, List.mem_append, not_or, not_or, List.mem_singleton]
      exact ⟨⟨hts.1, hsep⟩, ih hts.2⟩

theorem sequence_not_mem (l : FlowLayout) {b : UInt8} (hitem : b ∈ reserved) (hblank : b ≠ 0x20 ∧ b ≠ 0x09)
    (hsep : b ≠ ','.toUInt8) (hopen : b ≠ '['.toUInt8) (hclose : b ≠ ']'.toUInt8) : b ∉ l.sequence := by
  rw [FlowLayout.sequence, List.mem_append, List.mem_append, not_or, not_or, List.mem_singleton, List.mem_singleton]
  refine ⟨⟨hopen, not_mem_intercalate hsep ?_⟩, hclose⟩
  rw [List.forall_mem_map]
  intro x _
  rw [FlowItem.text, List.mem_append, List.mem_append, not_or, not_or]
  exact ⟨⟨x.before.not_mem hblank, x.item.not_mem hitem⟩, x.after.not_mem hblank⟩

theorem yamlPairs_flow (l : FlowLayout) (k : Key) :
    yamlPairs (l.text k) = [(k.name, joined (l.items.map FlowItem.item))] := by
  have hnone {b : UInt8} (hname : b ∉ k.name) (hblank : b ≠ 0x20 ∧ b ≠ 0x09) (hcolon : b ≠ ':'.toUInt8)
      (hsequence : b ∉ l.sequence) : b ∉ l.content k := by
    rw [FlowLayout.content, List.mem_append, List.mem_append, not_or, not_or]
    exact ⟨⟨keyLine_not_mem hname hblank hcolon l.keyGap, l.gap.not_mem hblank⟩, hsequence⟩
  have htight : Tight (l.content k) := by
    rw [FlowLayout.content]
    apply tight_append
    · rw [List.append_assoc, List.append_assoc, List.head?_append_of_ne_nil _ (name_ne_nil k)]
      exact (name_tight k).1
    · simp
    · exact (sequence_tight l).2
    · exact List.cons_ne_nil _ _
  have hline : contents [l.indent.text ++ l.content k ++ l.trailer.text] = [l.content k] := by
    apply contents_line
    · apply significant_line _ htight
      apply hnone (name_noHash k) (by decide) (by decide)
      exact sequence_not_mem l (by decide) (by decide) (by decide) (by decide) (by decide)
    · rw [FlowLayout.content]
      simp [FlowLayout.sequence]
  rw [FlowLayout.text, yamlPairs_unlines]
  · rw [FlowLayout.lines, ← FlowLayout.content, contents_append, contents_append, contents_fillers, contents_fillers,
      hline, List.nil_append, List.append_nil, mentionsOf, lineMention_flow]
    rfl
  · simp [FlowLayout.lines]
  · rw [FlowLayout.lines, ← FlowLayout.content, List.forall_mem_append, List.forall_mem_append, List.forall_mem_singleton]
    refine ⟨⟨noNewline_fillers _, noNewline_line _ ?_ _⟩, noNewline_fillers _⟩
    apply hnone (name_noNewline k) (by decide) (by decide)
    exact sequence_not_mem l (by decide) (by decide) (by decide) (by decide) (by decide)

theorem joined_not_mem {b : UInt8} (hitem : b ∈ reserved) (hsep : b ≠ ';'.toUInt8) (items : List ListItem) :
    b ∉ joined items := by
  apply not_mem_intercalate hsep
  rw [List.forall_mem_map]
  exact fun x _ => x.not_mem hitem

theorem joined_ne_nil {items : List ListItem} (hitems : items ≠ []) : joined items ≠ [] := by
  cases items with
  | nil => exact absurd rfl hitems
  | cons x items =>
    cases items with
    | nil =>
      rw [joined, List.map_singleton, List.intercalate_singleton]
      exact x.nonempty
    | cons y items =>
      rw [joined, List.map_cons, List.map_cons, List.intercalate_cons_cons]
      simp

theorem name_noComma (k : Key) : ','.toUInt8 ∉ k.name := by
  cases k <;> decide

theorem name_noEquals (k : Key) : '='.toUInt8 ∉ k.name := by
  cases k <;> decide

theorem optionPairs_spelling (k : Key) (items : List ListItem) :
    optionPairs (optionSpelling k items) = [(k.name, joined items)] := by
  have hcomma : ','.toUInt8 ∉ optionSpelling k items := by
    rw [optionSpelling, List.mem_append, List.mem_append, not_or, not_or]
    exact ⟨⟨name_noComma k, by decide⟩, joined_not_mem (by decide) (by decide) items⟩
  have hne : optionSpelling k items ≠ [] := by simp [optionSpelling]
  have hname : ∀ b ∈ k.name, decide (b ≠ '='.toUInt8) = true := by
    intro b hb
    apply decide_eq_true
    rintro rfl
    exact name_noEquals k hb
  have hsplit : splitFirst '='.toUInt8 (optionSpelling k items) = some (k.name, joined items) := by
    rw [splitFirst, if_pos, optionSpelling, List.append_assoc, List.takeWhile_append_of_pos hname,
      List.dropWhile_append_of_pos hname]
    · simp
    · simp [optionSpelling]
  rw [optionPairs, split, List.splitOn_eq_singleton hcomma, List.filter_cons_of_pos (by simp [hne]), List.filter_nil,
    List.filterMap_cons_some hsplit, List.filterMap_nil]

theorem envName_injective {j k : Key} (h : envName j = envName k) : j = k := by
  have hnodup : (knownKeys.map envName).Nodup := by decide
  have hall : ∀ i : Key, i ∈ knownKeys := by
    intro i
    cases i <;> decide
  exact List.inj_on_of_nodup_map hnodup (hall j) (hall k) h

theorem envPairs_spelling (k : Key) {items : List ListItem} (hitems : items ≠ []) :
    envPairs (envSpelling k items) = [(k.name, joined items)] := by
  have hpair (j : Key) : ((envSpelling k items (envName j)).filter (· ≠ [])).map (fun v => (j.name, v)) =
      if j = k then some (k.name, joined items) else none := by
    by_cases hj : j = k
    · rw [hj, envSpelling, if_pos rfl, if_pos rfl]
      simp [Option.filter, joined_ne_nil hitems]
    · rw [envSpelling, if_neg fun h => hj (envName_injective h), if_neg hj]
      rfl
  rw [envPairs]
  simp only [hpair]
  cases k <;> rfl

/-- In any layout, and through any of the layers' parsers, a list makes the same configuration. -/
theorem list_spellings (files : Bytes → Option Bytes) (k : Key) (items : List ListItem) (hitems : items ≠ [])
    (block : BlockLayout) (hblock : block.items.map BlockItem.item = items)
    (flow : FlowLayout) (hflow : flow.items.map FlowItem.item = items) (cfg : AgentSettings) :
    parseYamlConfig files (block.text k) cfg = applyOptions files (optionSpelling k items) cfg ∧
      parseYamlConfig files (flow.text k) cfg = applyOptions files (optionSpelling k items) cfg ∧
      applyEnvOverrides files (envSpelling k items) cfg = applyOptions files (optionSpelling k items) cfg := by
  rw [applyOptions_eq, optionPairs_spelling]
  refine ⟨?_, ?_, ?_⟩
  · rw [parseYamlConfig_eq, yamlPairs_block, hblock]
  · rw [parseYamlConfig_eq, yamlPairs_flow, hflow]
  · rw [applyEnvOverrides_eq, envPairs_spelling k hitems]

def noBlanks : Blanks := ⟨[], by simp⟩

def twoBlanks : Blanks := ⟨[0x20, 0x20], by simp⟩

def noTrailer : Trailer := ⟨noBlanks, none, by decide⟩

def someTrailer : Trailer := ⟨twoBlanks, some [0x78], by decide⟩

def itemX : ListItem := ⟨[0x63, 0x6F, 0x6D, 0x2E, 0x78], by decide, by decide, by simp [reserved]⟩

def itemY : ListItem := ⟨[0x63, 0x6F, 0x6D, 0x2E, 0x79], by decide, by decide, by simp [reserved]⟩

def sampleBlock : BlockLayout where
  fillers := [someTrailer]
  indent := noBlanks
  keyGap := noBlanks
  trailer := someTrailer
  items := [⟨[], twoBlanks, noBlanks, itemX, noTrailer⟩, ⟨[someTrailer, noTrailer], twoBlanks, twoBlanks, itemY, someTrailer⟩]
  after := [noTrailer]

def sampleFlow : FlowLayout where
  fillers := []
  indent := noBlanks
  keyGap := twoBlanks
  gap := twoBlanks
  items := [⟨noBlanks, itemX, twoBlanks⟩, ⟨twoBlanks, itemY, noBlanks⟩]
  trailer := someTrailer
  after := [noTrailer]

theorem list_spellings_sample :
    (applyOptions (fun _ => none) (optionSpelling .bciPackages [itemX, itemY]) defaultSettings).bciPackages =
        [itemX.text, itemY.text] ∧
      (parseYamlConfig (fun _ => none) (sampleBlock.text .bciPackages) defaultSettings).bciPackages =
        [itemX.text, itemY.text] ∧
      (parseYamlConfig (fun _ => none) (sampleFlow.text .bciPackages) defaultSettings).bciPackages =
        [itemX.text, itemY.text] ∧
      (applyEnvOverrides (fun _ => none) (envSpelling .bciPackages [itemX, itemY]) defaultSettings).bciPackages =
        [itemX.text, itemY.text] := by
  obtain ⟨hblock, hflow, henv⟩ := list_spellings (fun _ => none) .bciPackages [itemX, itemY] (by simp) sampleBlock rfl
    sampleFlow rfl defaultSettings
  have hoption : (applyOptions (fun _ => none) (optionSpelling .bciPackages [itemX, itemY])
      defaultSettings).bciPackages = [itemX.text, itemY.text] := by decide +kernel
  rw [hblock, hflow, henv]
  exact ⟨hoption, hoption, hoption, hoption⟩

end JvmScout.Agent
