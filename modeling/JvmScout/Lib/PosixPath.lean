import Mathlib.Data.List.Basic
import Mathlib.Data.List.Infix
import Mathlib.Tactic.Basic

namespace PosixPath

abbrev Path := List Char

def IsAbsolute (p : Path) : Prop := p.head? = some '/'

def join (a b : Path) : Path :=
  if b.head? = some '/' then b else if a = [] ∨ a.getLast? = some '/' then a ++ b else a ++ '/' :: b

def initialSlashes : Path → ℕ
  | '/' :: '/' :: '/' :: _ => 1
  | '/' :: '/' :: _ => 2
  | '/' :: _ => 1
  | _ => 0

def parent : Path := ['.', '.']

def pushComponent (rooted : Bool) (stack : List Path) (comp : Path) : List Path :=
  if comp = [] ∨ comp = ['.'] then stack
  else if comp ≠ parent ∨ (rooted = false ∧ stack = []) ∨ stack.head? = some parent then comp :: stack
  else stack.tail

def normpath (p : Path) : Path :=
  if p = [] then ['.']
  else
    let comps := ((p.splitOn '/').foldl (pushComponent (initialSlashes p != 0)) []).reverse
    let out := List.replicate (initialSlashes p) '/' ++ ['/'].intercalate comps
    if out = [] then ['.'] else out

def components (p : Path) : List Path := (p.splitOn '/').filter fun c => c ≠ []

def Inside (dir p : Path) : Prop := components dir <+: components p ∧ components dir ≠ components p

theorem components_slash (p q : Path) : components (p ++ '/' :: q) = components p ++ components q := by
  rw [components, List.splitOn_append_cons_self, List.filter_append]
  rfl

@[simp] theorem components_cons_slash (p : Path) : components ('/' :: p) = components p :=
  components_slash [] p

@[simp] theorem components_slashes (n : ℕ) (p : Path) : components (List.replicate n '/' ++ p) = components p := by
  induction n with
  | zero => rfl
  | succ n ih => rw [List.replicate_succ, List.cons_append, components_cons_slash, ih]

def Proper (comps : List Path) : Prop := ∀ c ∈ comps, c ≠ [] ∧ '/' ∉ c

theorem components_intercalate {comps : List Path} (h : Proper comps) :
    components (['/'].intercalate comps) = comps := by
  cases comps with
  | nil => rfl
  | cons c comps =>
    rw [components, List.splitOn_intercalate '/' (fun l hl => (h l hl).2) (List.cons_ne_nil c comps)]
    apply List.filter_eq_self.mpr
    intro l hl
    simpa using (h l hl).1

theorem slash_of_components_eq_nil {p : Path} (h : components p = []) : ∀ c ∈ p, c = '/' := by
  induction p with
  | nil => exact fun _ hc => nomatch hc
  | cons c p ih =>
    by_cases hc : c = '/'
    · subst hc
      rw [components_cons_slash] at h
      exact List.forall_mem_cons.mpr ⟨rfl, ih h⟩
    · obtain ⟨first, rest, hsplit⟩ := List.exists_cons_of_ne_nil (List.splitOn_ne_nil '/' p)
      have hhead : (c :: p).splitOn '/' = (c :: first) :: rest := by
        rw [List.splitOn_cons_eq_if_modifyHead, if_neg (by simpa using hc), hsplit]
        rfl
      rw [components, hhead] at h
      simp at h

theorem split_at_slash (q : Path) :
    ∃ more after, q = more ++ after ∧ '/' ∉ more ∧ (after = [] ∨ ∃ r, after = '/' :: r) := by
  induction q with
  | nil => exact ⟨[], [], rfl, List.not_mem_nil, .inl rfl⟩
  | cons c q ih =>
    by_cases hc : c = '/'
    · exact ⟨[], c :: q, rfl, List.not_mem_nil, .inr ⟨q, by rw [hc]⟩⟩
    · obtain ⟨more, after, rfl, hmore, hafter⟩ := ih
      refine ⟨c :: more, after, rfl, ?_, hafter⟩
      rw [List.mem_cons, not_or]
      exact ⟨Ne.symm hc, hmore⟩

theorem components_append (p : Path) {after : Path} (h : after = [] ∨ ∃ r, after = '/' :: r) :
    ∃ comps, components (p ++ after) = components p ++ comps := by
  rcases h with rfl | ⟨r, rfl⟩
  · exact ⟨[], by rw [List.append_nil, List.append_nil]⟩
  · exact ⟨components r, components_slash p r⟩

theorem slash_not_mem_splitOn (p : Path) : ∀ c ∈ p.splitOn '/', '/' ∉ c := by
  induction p with
  | nil => simp
  | cons c p ih =>
    obtain ⟨first, rest, hsplit⟩ := List.exists_cons_of_ne_nil (List.splitOn_ne_nil '/' p)
    rw [hsplit] at ih
    rw [List.splitOn_cons_eq_if_modifyHead, hsplit]
    split
    · intro d hd
      rcases List.mem_cons.mp hd with rfl | hd
      · exact List.not_mem_nil
      · exact ih d hd
    · rename_i hc
      have hslash : '/' ≠ c := fun h => hc (beq_iff_eq.mpr h.symm)
      intro d hd
      rcases List.mem_cons.mp hd with rfl | hd
      · rw [List.mem_cons, not_or]
        exact ⟨hslash, ih first List.mem_cons_self⟩
      · exact ih d (List.mem_cons_of_mem first hd)

theorem intercalate_concat (init : List Path) :
    ∃ before, ∀ c, ['/'].intercalate (init ++ [c]) = before ++ c := by
  induction init with
  | nil => exact ⟨[], fun c => List.intercalate_singleton⟩
  | cons d init ih =>
    obtain ⟨before, hbefore⟩ := ih
    refine ⟨d ++ '/' :: before, fun c => ?_⟩
    rw [List.cons_append, List.intercalate_cons_of_ne_nil (by simp), hbefore]
    simp

def Normal (p : Path) : Prop :=
  ∃ n comps, (n = 1 ∨ n = 2) ∧ Proper comps ∧ p = List.replicate n '/' ++ ['/'].intercalate comps

theorem proper_pushComponent {rooted : Bool} {stack : List Path} {comp : Path} (hs : Proper stack)
    (hc : '/' ∉ comp) : Proper (pushComponent rooted stack comp) := by
  unfold pushComponent
  split
  · exact hs
  · rename_i hempty
    split
    · exact List.forall_mem_cons.mpr ⟨⟨fun h => hempty (.inl h), hc⟩, hs⟩
    · exact fun d hd => hs d (List.mem_of_mem_tail hd)

theorem proper_foldl {rooted : Bool} (comps : List Path) (hc : ∀ c ∈ comps, '/' ∉ c) {stack : List Path}
    (hs : Proper stack) : Proper (comps.foldl (pushComponent rooted) stack) := by
  induction comps generalizing stack with
  | nil => exact hs
  | cons c comps ih =>
    rw [List.foldl_cons]
    apply ih (fun d hd => hc d (List.mem_cons_of_mem c hd))
    exact proper_pushComponent hs (hc c List.mem_cons_self)

theorem initialSlashes_of_absolute {p : Path} (h : IsAbsolute p) : initialSlashes p = 1 ∨ initialSlashes p = 2 := by
  unfold initialSlashes
  split
  · exact .inl rfl
  · exact .inr rfl
  · exact .inl rfl
  · rename_i hslash
    obtain ⟨rest, hp⟩ := List.head?_eq_some_iff.mp h
    exact absurd hp (hslash rest)

theorem normal_normpath {p : Path} (h : IsAbsolute p) : Normal (normpath p) := by
  have hne : p ≠ [] := by
    rintro rfl
    cases h
  have hslashes := initialSlashes_of_absolute h
  have hout (q : Path) : List.replicate (initialSlashes p) '/' ++ q ≠ [] := by
    rcases hslashes with hn | hn
    · simp [hn]
    · simp [hn]
  refine ⟨initialSlashes p, ((p.splitOn '/').foldl (pushComponent (initialSlashes p != 0)) []).reverse, hslashes,
    ?_, ?_⟩
  · intro c hc
    exact proper_foldl _ (slash_not_mem_splitOn p) (List.forall_mem_nil _) c (List.mem_reverse.mp hc)
  · rw [normpath, if_neg hne]
    exact if_neg (hout _)

theorem isAbsolute_join {a : Path} (h : IsAbsolute a) (b : Path) : IsAbsolute (join a b) := by
  obtain ⟨rest, rfl⟩ := List.head?_eq_some_iff.mp h
  unfold join
  split
  · rename_i hb
    exact hb
  · split
    · rfl
    · rfl

namespace Normal

variable {dir p : Path}

theorem components_eq {n : ℕ} {comps : List Path} (h : Proper comps) :
    components (List.replicate n '/' ++ ['/'].intercalate comps) = comps := by
  rw [components_slashes, components_intercalate h]

theorem getLast?_ne (h : Normal p) (hc : components p ≠ []) : p.getLast? ≠ some '/' := by
  obtain ⟨n, comps, -, hproper, rfl⟩ := h
  rw [components_eq hproper] at hc
  obtain ⟨init, last, rfl⟩ := (List.eq_nil_or_concat' comps).resolve_left hc
  obtain ⟨before, hbefore⟩ := intercalate_concat init
  obtain ⟨hlast, hslash⟩ := hproper last (by simp)
  rw [hbefore, ← List.append_assoc, List.getLast?_append_of_ne_nil _ hlast]
  intro h
  exact hslash (List.mem_of_getLast? h)

theorem getLast?_eq (h : Normal p) (hc : components p = []) : p.getLast? = some '/' := by
  obtain ⟨n, comps, hn, hproper, rfl⟩ := h
  rw [components_eq hproper] at hc
  subst hc
  rcases hn with rfl | rfl
  · rfl
  · rfl

theorem not_prefix_append (hd : Normal dir) (hc : components dir ≠ []) {c : Char} (hslash : c ≠ '/') (rest : Path) :
    ¬ components dir <+: components (dir ++ c :: rest) := by
  obtain ⟨n, comps, -, hproper, rfl⟩ := hd
  rw [components_eq hproper] at hc ⊢
  obtain ⟨init, last, rfl⟩ := (List.eq_nil_or_concat' comps).resolve_left hc
  obtain ⟨before, hbefore⟩ := intercalate_concat init
  obtain ⟨more, after, rfl, hmore, hafter⟩ := split_at_slash rest
  have hgrown : Proper (init ++ [last ++ c :: more]) := by
    intro d hmem
    rcases List.mem_append.mp hmem with hmem | hmem
    · exact hproper d (List.mem_append_left _ hmem)
    · rw [List.mem_singleton.mp hmem]
      refine ⟨by simp, ?_⟩
      rw [List.mem_append, List.mem_cons, not_or, not_or]
      exact ⟨(hproper last (by simp)).2, Ne.symm hslash, hmore⟩
  have hpath : List.replicate n '/' ++ ['/'].intercalate (init ++ [last]) ++ c :: (more ++ after) =
      List.replicate n '/' ++ ['/'].intercalate (init ++ [last ++ c :: more]) ++ after := by
    simp [hbefore]
  obtain ⟨comps, hcomps⟩ := components_append (List.replicate n '/' ++ ['/'].intercalate (init ++ [last ++ c :: more])) hafter
  rw [hpath, hcomps, components_eq hgrown, List.append_assoc, List.prefix_append_right_inj, List.singleton_append,
    List.cons_prefix_cons]
  rintro ⟨hlast, -⟩
  simp at hlast

theorem not_inside_iff (hd : Normal dir) (hp : Normal p) (hroot : components p ≠ []) (hpre : dir <+: p) (hne : p ≠ dir) :
    ¬ Inside dir p ↔ dir.getLast? ≠ some '/' ∧ ∃ c rest, c ≠ '/' ∧ p = dir ++ c :: rest := by
  obtain ⟨w, rfl⟩ := hpre
  obtain ⟨c, rest, rfl⟩ : ∃ c rest, w = c :: rest := by
    apply List.exists_cons_of_ne_nil
    rintro rfl
    exact hne (List.append_nil dir)
  by_cases hdir : components dir = []
  · have hinside : Inside dir (dir ++ c :: rest) := by
      rw [Inside, hdir]
      exact ⟨List.nil_prefix, hroot.symm⟩
    exact iff_of_false (not_not_intro hinside) fun h => h.1 (hd.getLast?_eq hdir)
  · have hlast := hd.getLast?_ne hdir
    by_cases hc : c = '/'
    · subst hc
      have hinside : Inside dir (dir ++ '/' :: rest) := by
        rw [Inside, components_slash]
        refine ⟨List.prefix_append _ _, fun heq => ?_⟩
        have hrest : components rest = [] := List.append_right_eq_self.mp heq.symm
        apply hp.getLast?_ne hroot
        rw [List.getLast?_append_of_ne_nil _ (List.cons_ne_nil '/' rest), List.getLast?_eq_some_getLast (by simp)]
        rcases List.mem_cons.mp (List.getLast_mem (List.cons_ne_nil '/' rest)) with hend | hend
        · rw [hend]
        · rw [slash_of_components_eq_nil hrest _ hend]
      refine iff_of_false (not_not_intro hinside) ?_
      rintro ⟨-, c, rest', hc, heq⟩
      exact hc (List.cons.inj (List.append_cancel_left heq)).1.symm
    · refine iff_of_true (fun h => hd.not_prefix_append hdir hc rest h.1) ⟨hlast, c, rest, hc, rfl⟩

end Normal

end PosixPath
