import JvmScout.Agent.Fingerprint
import JvmScout.Lib.BoundedWalk

namespace JvmScout.Agent.ObjectInspector

open BoundedWalk

/-- An object as JNI shows it. `string` is there for a `String`, with the characters unless they
cannot be had; `value` for a number, a boolean or a character, with what `toString` returns unless
it throws; an element is missing where its read throws. -/
structure JavaObject (Ref : Type) where
  string : Option (Option Bytes)
  value : Option (Option Bytes)
  className : Option Bytes
  arrayLength : Option ℕ
  elements : List (Option (Option Ref))
  identityHash : UInt32

def kMaxStringLen : ℕ := 256

def kMaxArrayElems : ℕ := 16

variable {Ref : Type}

def quoted (s : Bytes) : Bytes :=
  ascii ['"'] ++ (if kMaxStringLen < s.length then s.take kMaxStringLen ++ ascii "...".toList else s) ++ ascii ['"']

def primitiveArrayKind (comp : UInt8) : Bytes :=
  ascii <|
    match Char.ofNat comp.toNat with
    | 'Z' => "boolean".toList
    | 'B' => "byte".toList
    | 'C' => "char".toList
    | 'S' => "short".toList
    | 'I' => "int".toList
    | 'J' => "long".toList
    | 'F' => "float".toList
    | 'D' => "double".toList
    | _ => "?".toList

def isByte (b : UInt8) (c : Char) : Bool := b.toNat == c.toNat

def component (clsName : Bytes) : UInt8 := clsName.getD 1 0

def isObjectArray (clsName : Bytes) : Bool := isByte (component clsName) 'L' || isByte (component clsName) '['

def readable : List (Option (Option Ref)) → List (Option Ref)
  | some el :: rest => el :: readable rest
  | _ => []

def shown (o : JavaObject Ref) (len : ℕ) : List (Option Ref) := readable (o.elements.take (min len kMaxArrayElems))

def renderArray (render : Option (Option Ref → Bytes)) (o : JavaObject Ref) (clsName : Bytes) : Bytes :=
  match o.arrayLength with
  | none => clsName
  | some len =>
    if isObjectArray clsName then
      match render with
      | none => ascii ['['] ++ decimal len ++ ascii " elems]".toList
      | some render =>
        ascii ['['] ++ (ascii ", ".toList).intercalate ((shown o len).map render) ++
          (if kMaxArrayElems < len then ascii ", ...".toList else []) ++ ascii [']']
    else primitiveArrayKind (component clsName) ++ ascii ['['] ++ decimal len ++ ascii [']']

def hex (h : UInt32) : Bytes := ascii (Nat.toDigits 16 h.toNat)

def clsName (o : JavaObject Ref) : Bytes := o.className.getD (ascii ['?'])

def isArrayName (cls : Bytes) : Bool := 2 ≤ cls.length && isByte (cls.getD 0 0) '['

def renderObject (o : JavaObject Ref) (render : Option (Option Ref → Bytes)) : Bytes :=
  match o.string, o.value with
  | some utf, _ => quoted (utf.getD [])
  | none, some (some text) => text
  | none, _ =>
    if isArrayName (clsName o) then renderArray render o (clsName o)
    else clsName o ++ ascii ['@'] ++ hex o.identityHash

def renderRec (heap : Ref → JavaObject Ref) (obj : Option Ref) (render : Option (Option Ref → Bytes)) : Bytes :=
  match obj with
  | none => ascii "null".toList
  | some r => renderObject (heap r) render

def render (heap : Ref → JavaObject Ref) (maxDepth : ℤ) (obj : Option Ref) : Bytes :=
  expand (renderRec heap) maxDepth.toNat obj

def expanded (o : JavaObject Ref) : List (Option Ref) :=
  match o.string, o.value, o.arrayLength with
  | none, none, some len | none, some none, some len =>
    if isArrayName (clsName o) && isObjectArray (clsName o) then shown o len else []
  | _, _, _ => []

def children (heap : Ref → JavaObject Ref) (obj : Option Ref) : List (Option Ref) :=
  obj.elim [] fun r => expanded (heap r)

def visits (heap : Ref → JavaObject Ref) (maxDepth : ℤ) (obj : Option Ref) : List (Option Ref) :=
  walk (children heap) maxDepth.toNat obj

structure Alike (o o' : JavaObject Ref) : Prop where
  string : (o.string.map fun utf => quoted (utf.getD [])) = o'.string.map fun utf => quoted (utf.getD [])
  value : o.value = o'.value
  className : o.className = o'.className
  arrayLength : o.arrayLength = o'.arrayLength
  elements : o.elements.take kMaxArrayElems = o'.elements.take kMaxArrayElems
  identityHash : o.identityHash = o'.identityHash

variable {heap heap' : Ref → JavaObject Ref} {o o' : JavaObject Ref}

theorem length_readable_le (l : List (Option (Option Ref))) : (readable l).length ≤ l.length := by
  induction l with
  | nil => exact Nat.le_refl 0
  | cons e l ih =>
    cases e with
    | none => exact Nat.zero_le _
    | some el =>
      rw [readable, List.length_cons, List.length_cons]
      omega

theorem length_shown_le (o : JavaObject Ref) (len : ℕ) : (shown o len).length ≤ kMaxArrayElems := by
  have hread := length_readable_le (o.elements.take (min len kMaxArrayElems))
  rw [List.length_take] at hread
  rw [shown]
  omega

theorem shown_congr (h : Alike o o') (len : ℕ) : shown o len = shown o' len := by
  have htake (l : List (Option (Option Ref))) :
      l.take (min len kMaxArrayElems) = (l.take kMaxArrayElems).take (min len kMaxArrayElems) := by
    rw [List.take_take, Nat.min_assoc, Nat.min_self]
  rw [shown, shown, htake o.elements, htake o'.elements, h.elements]

inductive Look (o : JavaObject Ref) : Prop where
  | text (t : Bytes) (hrender : ∀ render, renderObject o render = t) (hexpanded : expanded o = [])
  | array (len : ℕ) (hlength : o.arrayLength = some len) (hexpanded : expanded o = shown o len)
      (hrender : ∀ render, renderObject o render = renderArray render o (clsName o))
      (hcomponent : isObjectArray (clsName o) = true)

theorem other_cases (hstring : o.string = none) (hvalue : o.value.bind id = none) :
    (∀ render, renderObject o render =
      if isArrayName (clsName o) then renderArray render o (clsName o)
      else clsName o ++ ascii ['@'] ++ hex o.identityHash) ∧
    expanded o = o.arrayLength.elim [] fun len =>
      if isArrayName (clsName o) && isObjectArray (clsName o) then shown o len else [] := by
  have hother : o.value = none ∨ o.value = some none := by
    cases hv : o.value with
    | none => exact .inl rfl
    | some v =>
      rw [hv] at hvalue
      exact .inr (congrArg some hvalue)
  constructor
  · intro render
    rcases hother with hv | hv <;> simp [renderObject, hstring, hv]
  · cases hlen : o.arrayLength <;> rcases hother with hv | hv <;> simp [expanded, hstring, hv, hlen]

theorem look (o : JavaObject Ref) : Look o := by
  cases hstring : o.string with
  | some utf =>
    exact .text (quoted (utf.getD [])) (fun _ => by simp [renderObject, hstring]) (by simp [expanded, hstring])
  | none =>
    cases hvalue : o.value.bind id with
    | some text =>
      obtain ⟨v, hvalue, rfl⟩ := Option.bind_eq_some_iff.mp hvalue
      exact .text text (fun _ => by simp [renderObject, hstring, hvalue]) (by simp [expanded, hstring, hvalue])
    | none =>
      obtain ⟨hrender, hexpanded⟩ := other_cases hstring hvalue
      cases hlen : o.arrayLength with
      | none =>
        rw [hlen] at hexpanded
        refine .text (renderObject o none) (fun render => ?_) hexpanded
        rw [hrender, hrender, renderArray, renderArray, hlen]
      | some len =>
        rw [hlen, Option.elim_some] at hexpanded
        cases harray : isArrayName (clsName o) with
        | false =>
          rw [harray, Bool.false_and, if_neg (by simp)] at hexpanded
          refine .text (clsName o ++ ascii ['@'] ++ hex o.identityHash) (fun render => ?_) hexpanded
          rw [hrender render, harray, if_neg (by simp)]
        | true =>
          cases hobject : isObjectArray (clsName o) with
          | false =>
            rw [hobject, Bool.and_false, if_neg (by simp)] at hexpanded
            refine .text (renderObject o none) (fun render => ?_) hexpanded
            rw [hrender, hrender, renderArray, renderArray, hlen, hobject]
            rfl
          | true =>
            rw [harray, hobject, Bool.and_true, if_pos rfl] at hexpanded
            refine .array len hlen hexpanded (fun render => ?_) hobject
            rw [hrender, harray, if_pos rfl]

theorem length_expanded_le (o : JavaObject Ref) : (expanded o).length ≤ kMaxArrayElems := by
  cases look o with
  | text t hrender hexpanded =>
    rw [hexpanded]
    exact Nat.zero_le _
  | array len hlength hexpanded =>
    rw [hexpanded]
    exact length_shown_le o len

theorem length_intercalate_le (sep : Bytes) (l : List Bytes) :
    (sep.intercalate l).length ≤ (l.map List.length).sum + sep.length * l.length := by
  induction l with
  | nil => exact Nat.zero_le _
  | cons x l ih =>
    cases l with
    | nil => simp [List.intercalate]
    | cons y l =>
      have hcons : sep.intercalate (x :: y :: l) = x ++ sep ++ sep.intercalate (y :: l) := by
        simp [List.intercalate]
      have hlength : (x :: y :: l).length = (y :: l).length + 1 := rfl
      rw [hcons, List.length_append, List.length_append, List.map_cons, List.sum_cons, hlength, Nat.mul_succ]
      omega

theorem renderRec_size (obj : Option Ref) (f : Option Ref → Bytes) :
    (renderRec heap obj (some f)).length ≤
      (renderRec heap obj none).length + 39 + ((children heap obj).map fun b => (f b).length).sum := by
  cases obj with
  | none =>
    rw [renderRec, renderRec]
    omega
  | some r =>
    cases look (heap r) with
    | text t hrender hexpanded =>
      rw [renderRec, renderRec, hrender, hrender]
      omega
    | array len hlength hexpanded hrender hcomponent =>
      have hsome : renderRec heap (some r) (some f) =
          ascii ['['] ++ (ascii ", ".toList).intercalate ((shown (heap r) len).map f) ++
            (if kMaxArrayElems < len then ascii ", ...".toList else []) ++ ascii [']'] := by
        rw [renderRec, hrender, renderArray, hlength]
        simp only [hcomponent, if_true]
      have hchildren : children heap (some r) = shown (heap r) len := hexpanded
      have hshown := length_shown_le (heap r) len
      have htexts := length_intercalate_le (ascii ", ".toList) ((shown (heap r) len).map f)
      have hdots : (if kMaxArrayElems < len then ascii ", ...".toList else []).length ≤ 5 := by
        split
        · exact Nat.le_refl 5
        · exact Nat.zero_le 5
      have hopen : (ascii ['[']).length = 1 := rfl
      have hclose : (ascii [']']).length = 1 := rfl
      have hcomma : (ascii ", ".toList).length = 2 := rfl
      have hmax : kMaxArrayElems = 16 := rfl
      rw [List.length_map, List.map_map, hcomma] at htexts
      rw [hsome, hchildren, List.length_append, List.length_append, List.length_append, hopen, hclose]
      have hsum : ((shown (heap r) len).map (List.length ∘ f)).sum =
          ((shown (heap r) len).map fun b => (f b).length).sum := rfl
      omega

theorem renderArray_congr (h : Alike o o') (cls : Bytes) {f g : Option Ref → Bytes}
    (hsame : ∀ len, o.arrayLength = some len → isObjectArray cls = true → ∀ b ∈ shown o len, f b = g b) :
    renderArray none o cls = renderArray none o' cls ∧ renderArray (some f) o cls = renderArray (some g) o' cls := by
  rw [renderArray, renderArray, renderArray, renderArray, ← h.arrayLength]
  cases hlen : o.arrayLength with
  | none => exact ⟨rfl, rfl⟩
  | some len =>
    refine ⟨rfl, ?_⟩
    dsimp only
    split
    · rename_i hobject
      rw [← shown_congr h len, List.map_congr_left (hsame len hlen hobject)]
    · rfl

theorem renderObject_congr (h : Alike o o') {f g : Option Ref → Bytes} (hsame : ∀ b ∈ expanded o, f b = g b) :
    renderObject o none = renderObject o' none ∧ renderObject o (some f) = renderObject o' (some g) := by
  have hcls : clsName o = clsName o' := congrArg (Option.getD · _) h.className
  have hstring := h.string
  cases hs : o.string with
  | some utf =>
    rw [hs, Option.map_some] at hstring
    obtain ⟨utf', hs', hquoted⟩ := Option.map_eq_some_iff.mp hstring.symm
    simp only [renderObject, hs, hs', hquoted, and_self]
  | none =>
    have hs' : o'.string = none := by
      rw [hs, Option.map_none] at hstring
      exact Option.map_eq_none_iff.mp hstring.symm
    cases hv : o.value.bind id with
    | some text =>
      obtain ⟨v, hvalue, rfl⟩ := Option.bind_eq_some_iff.mp hv
      have hvalue' : o'.value = some (some text) := h.value ▸ hvalue
      simp only [renderObject, hs, hs', hvalue, hvalue', and_self]
    | none =>
      have hv' : o'.value.bind id = none := h.value ▸ hv
      obtain ⟨hrender, hexpanded⟩ := other_cases hs hv
      obtain ⟨hrender', -⟩ := other_cases hs' hv'
      rw [hrender, hrender, hrender', hrender', ← hcls, h.identityHash]
      split
      · rename_i harray
        apply renderArray_congr h
        intro len hlen hobject b hb
        apply hsame
        rw [hexpanded, hlen, Option.elim_some, harray, hobject]
        exact hb
      · exact ⟨rfl, rfl⟩

/-- A rendering looks at no more objects than the depth and sixteen elements an array allow, is
made of what these are on their own, and says nothing of any other object. -/
theorem render_bounded (heap : Ref → JavaObject Ref) (maxDepth : ℤ) (obj : Option Ref) :
    (visits heap maxDepth obj).length ≤ ∑ i ∈ Finset.range (maxDepth.toNat + 1), kMaxArrayElems ^ i ∧
      (render heap maxDepth obj).length ≤
        ((visits heap maxDepth obj).map fun x => (renderRec heap x none).length + 39).sum ∧
      ∀ heap' : Ref → JavaObject Ref, (∀ r, some r ∈ visits heap maxDepth obj → Alike (heap r) (heap' r)) →
        render heap maxDepth obj = render heap' maxDepth obj := by
  refine ⟨?_, ?_, fun heap' halike => ?_⟩
  · apply length_walk_le
    intro x
    cases x with
    | none => exact Nat.zero_le _
    | some r => exact length_expanded_le (heap r)
  · apply expand_size_le
    · exact fun x => Nat.le_add_right _ _
    · exact fun x f => renderRec_size x f
  · apply @expand_congr _ _ (children heap)
    · intro x hx
      cases x with
      | none => rfl
      | some r => exact (renderObject_congr (f := fun _ => []) (g := fun _ => []) (halike r hx) fun _ _ => rfl).1
    · intro x hx f g hsame
      cases x with
      | none => rfl
      | some r => exact (renderObject_congr (halike r hx) hsame).2

def looped (text : String) : Bool → JavaObject Bool
  | true => ⟨none, none, some (ascii "[Ljava.lang.Object;".toList), some 1, [some (some true)], 7⟩
  | false => ⟨some (some (ascii text.toList)), none, none, none, [], 9⟩

example : render (looped "key") 2 (some true) = ascii "[[[1 elems]]]".toList := by decide

theorem render_bounded_looped : render (looped "key") 2 (some true) = render (looped "other") 2 (some true) := by
  apply (render_bounded (looped "key") 2 (some true)).2.2
  intro r hr
  have hvisits : visits (looped "key") 2 (some true) = [some true, some true, some true] := by decide
  rw [hvisits] at hr
  have htrue : r = true := by simpa using hr
  subst htrue
  exact ⟨rfl, rfl, rfl, rfl, rfl, rfl⟩

end JvmScout.Agent.ObjectInspector
