import JvmScout.Agent.SystemInfo
import Mathlib.Data.List.Forall2
import Mathlib.Data.List.Infix

namespace JvmScout.Agent.SystemInfo

abbrev star : UInt8 := '*'.toUInt8

abbrev anyOne : UInt8 := '?'.toUInt8

/-- The texts that a pattern stands for; `ok` says which text a star may be replaced with
in front of which rest. -/
inductive Fills (ok : Bytes → Bytes → Prop) : Bytes → Bytes → Prop
  | done : Fills ok [] []
  | one {c : UInt8} {p v : Bytes} : Fills ok p v → Fills ok (anyOne :: p) (c :: v)
  | char {c : UInt8} {p v : Bytes} : c ≠ star → Fills ok p v → Fills ok (c :: p) (c :: v)
  | star {p w v : Bytes} : ok w v → Fills ok p v → Fills ok (star :: p) (w ++ v)

def Glob : Bytes → Bytes → Prop := Fills fun _ _ => True

def PlainGlob : Bytes → Bytes → Prop := Fills fun w v => (w ++ v).head? = some star → w = [star]

variable {p v : Bytes} {c : UInt8}

theorem Fills.mono {ok ok' : Bytes → Bytes → Prop} (h : ∀ w v, ok w v → ok' w v) (hp : Fills ok p v) : Fills ok' p v := by
  induction hp with
  | done => exact .done
  | one _ ih => exact .one ih
  | char hc _ ih => exact .char hc ih
  | star hok _ ih => exact .star (h _ _ hok) ih

theorem PlainGlob.glob (h : PlainGlob p v) : Glob p v := Fills.mono (fun _ _ _ => trivial) h

theorem PlainGlob.drop {d : UInt8} (h : PlainGlob (d :: p) v) : ∃ w, w <:+ v ∧ PlainGlob p w := by
  cases h with
  | one h => exact ⟨_, List.suffix_cons _ _, h⟩
  | char _ h => exact ⟨_, List.suffix_cons _ _, h⟩
  | star _ h => exact ⟨_, List.suffix_append _ _, h⟩

theorem plainGlob_char {d : UInt8} (hd : d = anyOne ∨ d = c) : PlainGlob (d :: p) (c :: v) ↔ PlainGlob p v := by
  constructor
  · intro h
    generalize ht : c :: v = t at h
    cases h with
    | one h =>
      cases ht
      exact h
    | char _ h =>
      cases ht
      exact h
    | star hok h =>
      rw [← ht] at hok
      have hc : star = c := by
        rcases hd with hd | hd
        · cases hd
        · exact hd
      have hw := hok (by rw [← hc]; rfl)
      rw [hw] at ht
      cases ht
      exact h
  · intro h
    rcases hd with rfl | rfl
    · exact .one h
    · by_cases hd : d = star
      · subst hd
        exact .star (w := [star]) (fun _ => rfl) h
      · exact .char hd h

theorem plainGlob_star (hv : v.head? ≠ some star) : PlainGlob (star :: p) v ↔ ∃ w, w <:+ v ∧ PlainGlob p w := by
  constructor
  · exact PlainGlob.drop
  · rintro ⟨w, ⟨t, rfl⟩, h⟩
    exact .star (fun hstar => absurd hstar hv) h

theorem not_plainGlob_cons (hone : p.head? ≠ some anyOne) (hchar : p.head? ≠ some c) (hstar : p.head? ≠ some star) :
    ¬ PlainGlob p (c :: v) := by
  intro h
  generalize ht : c :: v = t at h
  cases h with
  | done => cases ht
  | one => exact hone rfl
  | char =>
    cases ht
    exact hchar rfl
  | star => exact hstar rfl

theorem isEmpty_dropWhile_iff (p : Bytes) : (p.dropWhile fun c => c = star).isEmpty = true ↔ PlainGlob p [] := by
  induction p with
  | nil => exact iff_of_true rfl .done
  | cons d p ih =>
    by_cases hd : d = star
    · subst hd
      rw [List.dropWhile_cons_of_pos (by simp), ih, plainGlob_star (by simp)]
      constructor
      · exact fun h => ⟨[], List.suffix_rfl, h⟩
      · rintro ⟨w, hw, h⟩
        rwa [List.suffix_nil.mp hw] at h
    · rw [List.dropWhile_cons_of_neg (by simpa using hd)]
      apply iff_of_false
      · simp
      · intro h
        generalize ht : ([] : Bytes) = t at h
        cases h with
        | one => cases ht
        | char => cases ht
        | star => exact hd rfl

def Consumed : Bytes → Bytes → Prop := List.Forall₂ fun d c => d = anyOne ∨ d = c

theorem Consumed.later {q u w : Bytes} (h : Consumed q u) (hw : w <:+ u ++ v) (hp : PlainGlob (q ++ p) w) :
    ∃ w', w' <:+ v ∧ PlainGlob p w' := by
  induction h generalizing w with
  | nil => exact ⟨w, hw, hp⟩
  | cons hd _ ih =>
    rcases List.suffix_cons_iff.mp hw with rfl | hw
    · exact ih List.suffix_rfl ((plainGlob_char hd).mp hp)
    · obtain ⟨w', hw', hp'⟩ := PlainGlob.drop hp
      exact ih (hw'.trans hw) hp'

def Elsewhere (back : Option (Bytes × Bytes)) : Prop :=
  ∃ pat mark w, back = some (pat, mark) ∧ mark ≠ [] ∧ w <:+ mark.tail ∧ PlainGlob pat w

def SinceStar (p v : Bytes) (back : Option (Bytes × Bytes)) : Prop :=
  ∀ pat mark, back = some (pat, mark) → ∃ q u, pat = q ++ p ∧ mark = u ++ v ∧ Consumed q u

theorem SinceStar.later {back : Option (Bytes × Bytes)} (h : SinceStar p v back) (helse : Elsewhere back) :
    ∃ w, w <:+ v ∧ PlainGlob p w := by
  obtain ⟨pat, mark, w, hback, -, hw, hp⟩ := helse
  obtain ⟨q, u, rfl, rfl, hread⟩ := h pat mark hback
  exact hread.later (hw.trans (List.tail_suffix _)) hp

theorem SinceStar.next {d : UInt8} {back : Option (Bytes × Bytes)} (h : SinceStar (d :: p) (c :: v) back)
    (hd : d = anyOne ∨ d = c) : SinceStar p v back := by
  intro pat mark hback
  obtain ⟨q, u, rfl, rfl, hread⟩ := h pat mark hback
  refine ⟨q ++ [d], u ++ [c], by simp, by simp, ?_⟩
  exact List.rel_append hread (.cons hd .nil)

theorem sinceStar_start (p v : Bytes) : SinceStar p v (some (p, v)) := by
  intro pat mark hback
  cases hback
  exact ⟨[], [], rfl, rfl, .nil⟩

theorem elsewhere_some {pat mark : Bytes} :
    Elsewhere (some (pat, mark)) ↔ mark ≠ [] ∧ ∃ w, w <:+ mark.tail ∧ PlainGlob pat w := by
  constructor
  · rintro ⟨_, _, w, hback, hne, hw⟩
    cases hback
    exact ⟨hne, w, hw⟩
  · rintro ⟨hne, w, hw⟩
    exact ⟨pat, mark, w, rfl, hne, hw⟩

theorem plainGlob_or_elsewhere (pat mark : Bytes) :
    PlainGlob pat mark ∨ Elsewhere (some (pat, mark)) ↔ ∃ w, w <:+ mark ∧ PlainGlob pat w := by
  rw [elsewhere_some]
  constructor
  · rintro (h | ⟨-, w, hw, h⟩)
    · exact ⟨mark, List.suffix_rfl, h⟩
    · exact ⟨w, hw.trans (List.tail_suffix _), h⟩
  · rintro ⟨w, hw, h⟩
    cases mark with
    | nil =>
      rw [List.suffix_nil.mp hw] at h
      exact .inl h
    | cons c mark =>
      rcases List.suffix_cons_iff.mp hw with rfl | hw
      · exact .inl h
      · exact .inr ⟨List.cons_ne_nil c mark, w, hw, h⟩

theorem globLoop_iff (p v : Bytes) (back : Option (Bytes × Bytes)) (h : SinceStar p v back) :
    globLoop p v back = true ↔ PlainGlob p v ∨ Elsewhere back := by
  fun_induction globLoop p v back with
  | case1 p back =>
    rw [isEmpty_dropWhile_iff]
    constructor
    · exact .inl
    · rintro (hp | helse)
      · exact hp
      · obtain ⟨w, hw, hp⟩ := h.later helse
        rwa [List.suffix_nil.mp hw] at hp
  | case2 p back c rest hhead ih =>
    cases p with
    | nil => simp at hhead
    | cons d p =>
      have hd : d = anyOne ∨ d = c := by simpa using hhead
      rw [plainGlob_char hd]
      exact ih (h.next hd)
  | case3 p back c rest hhead hstar ih =>
    cases p with
    | nil => simp at hstar
    | cons d p =>
      have hd : d = star := by simpa using hstar
      subst hd
      have hc : (c :: rest).head? ≠ some star := by
        intro hc
        simp only [List.head?_cons, Option.some.injEq] at hc
        exact hhead (.inr (by rw [hc]; rfl))
      rw [List.tail_cons] at ih ⊢
      rw [ih (sinceStar_start p (c :: rest)), plainGlob_or_elsewhere, plainGlob_star hc]
      constructor
      · exact .inl
      · rintro (hp | helse)
        · exact hp
        · obtain ⟨w, hw, hp⟩ := h.later helse
          obtain ⟨w', hw', hp'⟩ := PlainGlob.drop hp
          exact ⟨w', hw'.trans hw, hp'⟩
  | case4 p c rest hhead hstar pat mark ih =>
    have hone := fun h => hhead (.inl h)
    have hchar := fun h => hhead (.inr h)
    have hmark : mark ≠ [] := by
      obtain ⟨q, u, -, rfl, -⟩ := h pat mark rfl
      simp
    rw [ih (sinceStar_start pat mark.tail), plainGlob_or_elsewhere, elsewhere_some]
    constructor
    · exact fun hw => .inr ⟨hmark, hw⟩
    · rintro (hp | ⟨-, hw⟩)
      · exact absurd hp (not_plainGlob_cons hone hchar hstar)
      · exact hw
  | case5 p c rest hhead hstar =>
    have hone := fun h => hhead (.inl h)
    have hchar := fun h => hhead (.inr h)
    apply iff_of_false
    · exact Bool.false_ne_true
    · rintro (hp | ⟨_, _, _, hback, -⟩)
      · exact not_plainGlob_cons hone hchar hstar hp
      · cases hback

theorem globMatch_iff_plain (pat s : Bytes) : globMatch pat s = true ↔ PlainGlob (lower pat) (lower s) := by
  have hstart : SinceStar (lower pat) (lower s) none := fun _ _ hback => nomatch hback
  rw [globMatch, globLoop_iff _ _ _ hstart]
  constructor
  · rintro (h | ⟨_, _, _, hback, -⟩)
    · exact h
    · cases hback
  · exact .inl

theorem Glob.plain_of_no_star (h : Glob p v) (hv : star ∉ v) : PlainGlob p v := by
  induction h with
  | done => exact .done
  | one _ ih => exact .one (ih fun hmem => hv (List.mem_cons_of_mem _ hmem))
  | char hc _ ih => exact .char hc (ih fun hmem => hv (List.mem_cons_of_mem _ hmem))
  | star _ _ ih =>
    refine .star (fun hstar => ?_) (ih fun hmem => hv (List.mem_append_right _ hmem))
    exact absurd (List.mem_of_mem_head? hstar) hv

theorem globMatch_of_no_star (pat : Bytes) {s : Bytes} (hs : star ∉ lower s) :
    globMatch pat s = true ↔ Glob (lower pat) (lower s) :=
  (globMatch_iff_plain pat s).trans ⟨PlainGlob.glob, fun h => h.plain_of_no_star hs⟩

/-- `glob_match` is right exactly where a match is found that takes no star of the text
for the beginning of what a star stands for. -/
theorem globMatch_right_iff (pat s : Bytes) :
    (globMatch pat s = true ↔ Glob (lower pat) (lower s)) ↔
      (Glob (lower pat) (lower s) → PlainGlob (lower pat) (lower s)) := by
  rw [globMatch_iff_plain]
  constructor
  · exact fun h => h.mpr
  · exact fun h => ⟨PlainGlob.glob, h⟩

theorem globMatch_star_in_text : ¬ (globMatch [star] [star, star] = true ↔ Glob (lower [star]) (lower [star, star])) := by
  have hmatch : Glob [star] ([star, star] ++ []) := .star trivial .done
  have hloop : globMatch [star] [star, star] = false := by
    simp [globMatch, globLoop, lower, tolower]
  rw [hloop]
  intro h
  cases h.mpr hmatch

end JvmScout.Agent.SystemInfo
