import Mathlib.Data.List.Basic

/-!
# Amgen — the text of a Go type

Go types as the generator writes them, and the text of each.  A word, which is an identifier or the
digits of a length, has none of the punctuation, so the text of a type determines the type.

A place in a type is a path to one of its parts.

* `text_inj`: no two types have the same text.
* `matched_part`: two trees that are related from each node to its children are related at every
  place.
-/

namespace AdaptiveMsg.Amgen

/-! ### Places -/

section part

variable {δ τ σ : Type} {child : δ → τ → Option τ} {child' : δ → σ → Option σ} {R : τ → σ → Prop}
variable {t : τ} {s : σ}

/-- The part of a tree at a place, if it has one. -/
def part (child : δ → τ → Option τ) : List δ → τ → Option τ
  | [], t => some t
  | d :: place, t => (child d t).bind (part child place)

/-- Two trees have related parts at a place, or none, or the second has a leaf. -/
inductive Matched (child' : δ → σ → Option σ) (R : τ → σ → Prop) : Option τ → Option σ → Prop where
  | neither : Matched child' R none none
  | both {t : τ} {s : σ} (h : R t s) : Matched child' R (some t) (some s)
  | leaf {s : σ} (h : ∀ d, child' d s = none) : Matched child' R none (some s)

@[simp] theorem matched_none : Matched child' R none none := .neither

@[simp] theorem matched_some : Matched child' R (some t) (some s) ↔ R t s := by
  refine ⟨?_, .both⟩
  rintro ⟨⟩
  assumption

@[simp] theorem matched_leaf : Matched child' R none (some s) ↔ ∀ d, child' d s = none := by
  refine ⟨?_, .leaf⟩
  rintro ⟨⟩
  assumption

theorem matched_part (hR : ∀ t s, R t s → ∀ d, Matched child' R (child d t) (child' d s))
    (h : R t s) (place : List δ) : Matched child' R (part child place t) (part child' place s) := by
  induction place generalizing t s with
  | nil => exact .both h
  | cons d place ih =>
      have hd := hR t s h d
      simp only [part]
      generalize child d t = x at hd ⊢
      generalize child' d s = y at hd ⊢
      cases hd with
      | neither => exact .neither
      | both h => exact ih h
      | leaf h =>
          cases place with
          | nil => exact .leaf h
          | cons d' place => simp [part, h]

/-- The second tree has a part where the first one has. -/
theorem Matched.of_left {x : Option τ} {y : Option σ} (h : Matched child' R x y)
    (hx : x = some t) : ∃ s, y = some s ∧ R t s := by
  subst hx
  cases h with
  | both h => exact ⟨_, rfl, h⟩

/-- The first tree has a part where the second one has more than a leaf. -/
theorem Matched.of_right {x : Option τ} {y : Option σ} (h : Matched child' R x y)
    (hy : y = some s) {d : δ} (hd : child' d s ≠ none) : ∃ t, x = some t ∧ R t s := by
  subst hy
  cases h with
  | both h => exact ⟨_, rfl, h⟩
  | leaf h => exact absurd (h d) hd

end part

/-! ### Words -/

/-- A character that is no punctuation of types. -/
def isPlain (c : Char) : Bool := c ≠ '[' && c ≠ ']' && c ≠ '*'

/-- An identifier, or the digits of a number. -/
structure Word where
  text : String
  ne_nil : text.toList ≠ [] := by decide
  all_plain : text.toList.all isPlain = true := by decide
  deriving DecidableEq

theorem Word.plain (w : Word) : ∀ c ∈ w.text.toList, isPlain c = true :=
  List.all_eq_true.mp w.all_plain

/-- What comes after a type: nothing, or the bracket behind the key of a map. -/
def Ended (rest : List Char) : Prop := ∀ c ∈ rest.head?, c = ']'

theorem ended_nil : Ended [] := by simp [Ended]

theorem ended_bracket (rest : List Char) : Ended (']' :: rest) := by simp [Ended]

theorem not_ended_open (rest : List Char) : ¬Ended ('[' :: rest) := by simp [Ended]

/-- Two lists of plain characters that are followed by none agree. -/
theorem plain_append_inj {l l' rest rest' : List Char} (hl : ∀ c ∈ l, isPlain c = true)
    (hl' : ∀ c ∈ l', isPlain c = true) (hr : ∀ c ∈ rest.head?, isPlain c = false)
    (hr' : ∀ c ∈ rest'.head?, isPlain c = false) (h : l ++ rest = l' ++ rest') :
    l = l' ∧ rest = rest' := by
  have htake : ∀ {l rest : List Char}, (∀ c ∈ l, isPlain c = true) →
      (∀ c ∈ rest.head?, isPlain c = false) → (l ++ rest).takeWhile isPlain = l := by
    intro l rest hl hr
    rw [List.takeWhile_append_of_pos hl]
    cases rest with
    | nil => simp
    | cons c rest => simp [hr c rfl]
  have hll : l = l' := by rw [← htake hl hr, h, htake hl' hr']
  subst hll
  exact ⟨rfl, List.append_cancel_left h⟩

theorem Word.append_inj {w w' : Word} {rest rest' : List Char}
    (hr : ∀ c ∈ rest.head?, isPlain c = false) (hr' : ∀ c ∈ rest'.head?, isPlain c = false)
    (h : w.text.toList ++ rest = w'.text.toList ++ rest') : w = w' ∧ rest = rest' := by
  obtain ⟨hw, hrest⟩ := plain_append_inj w.plain w'.plain hr hr' h
  refine ⟨?_, hrest⟩
  cases w
  cases w'
  simpa using String.toList_inj.mp hw

theorem Ended.not_plain {rest : List Char} (h : Ended rest) :
    ∀ c ∈ rest.head?, isPlain c = false := by
  intro c hc
  rw [h c hc]
  decide

/-- A word does not begin with punctuation. -/
theorem Word.ne_punct {w : Word} {p : Char} {rest l : List Char} (hp : isPlain p = false)
    (h : w.text.toList ++ rest = p :: l) : False := by
  obtain ⟨c, cs, hw⟩ := List.exists_cons_of_ne_nil w.ne_nil
  have hc := w.plain c (hw ▸ List.mem_cons_self ..)
  rw [hw] at h
  obtain ⟨rfl, -⟩ := List.cons.inj h
  exact Bool.false_ne_true (hp.symm.trans hc)

/-! ### Types -/

inductive GoType where
  | named (name : Word)
  | pointer (elem : GoType)
  | slice (elem : GoType)
  | array (len : Word) (elem : GoType)
  | map (key value : GoType)
  deriving DecidableEq

namespace GoType

def text : GoType → String
  | named name => name.text
  | pointer elem => "*" ++ elem.text
  | slice elem => "[]" ++ elem.text
  | array len elem => "[" ++ len.text ++ "]" ++ elem.text
  | map key value => "map[" ++ key.text ++ "]" ++ value.text

/-- A step from a type to one of its parts. -/
inductive Step where
  | elem
  | key
  | value
  deriving DecidableEq, Repr

def child : Step → GoType → Option GoType
  | .elem, pointer elem | .elem, slice elem | .elem, array _ elem => some elem
  | .key, map key _ => some key
  | .value, map _ value => some value
  | _, _ => none

def isByte : GoType → Bool
  | named name => name.text = "byte" ∨ name.text = "uint8"
  | _ => false

/-- `[]byte` or `[]uint8`. -/
def isByteSlice : GoType → Bool
  | slice elem => elem.isByte
  | _ => false

theorem toList_pointer (elem : GoType) : (pointer elem).text.toList = '*' :: elem.text.toList := by
  simp [text]

theorem toList_slice (elem : GoType) :
    (slice elem).text.toList = '[' :: ']' :: elem.text.toList := by
  simp [text]

theorem toList_array (len : Word) (elem : GoType) :
    (array len elem).text.toList = '[' :: (len.text.toList ++ ']' :: elem.text.toList) := by
  simp [text]

def mapWord : Word := { text := "map" }

theorem toList_map (key value : GoType) : (map key value).text.toList =
    mapWord.text.toList ++ '[' :: (key.text.toList ++ ']' :: value.text.toList) := by
  simp [text, mapWord]

theorem open_not_plain (l : List Char) : ∀ c ∈ ('[' :: l).head?, isPlain c = false := by
  rintro c hc
  cases hc
  decide

section shape

variable {g : GoType} {rest l : List Char}

theorem of_star (h : g.text.toList ++ rest = '*' :: l) :
    ∃ elem, g = pointer elem ∧ elem.text.toList ++ rest = l := by
  cases g with
  | pointer elem =>
      rw [toList_pointer] at h
      exact ⟨elem, rfl, (List.cons.inj h).2⟩
  | named name => exact (Word.ne_punct (by decide) h).elim
  | slice elem => simp [toList_slice] at h
  | array len elem => simp [toList_array] at h
  | map key value => simp [toList_map, mapWord] at h

theorem of_open (h : g.text.toList ++ rest = '[' :: l) :
    (∃ elem, g = slice elem ∧ l = ']' :: (elem.text.toList ++ rest)) ∨
      ∃ len elem, g = array len elem ∧
        l = len.text.toList ++ ']' :: (elem.text.toList ++ rest) := by
  cases g with
  | slice elem =>
      rw [toList_slice] at h
      exact .inl ⟨elem, rfl, (List.cons.inj h).2.symm⟩
  | array len elem =>
      simp only [toList_array, List.cons_append, List.append_assoc] at h
      exact .inr ⟨len, elem, rfl, (List.cons.inj h).2.symm⟩
  | named name => exact (Word.ne_punct (by decide) h).elim
  | pointer elem => simp [toList_pointer] at h
  | map key value => simp [toList_map, mapWord] at h

/-- After a word, a type is over, or it is a map. -/
theorem of_word {w : Word} (hr : Ended rest) (hl : ∀ c ∈ l.head?, isPlain c = false)
    (h : g.text.toList ++ rest = w.text.toList ++ l) : (g = named w ∧ rest = l) ∨
      ∃ key value, g = map key value ∧
        l = '[' :: (key.text.toList ++ ']' :: (value.text.toList ++ rest)) := by
  cases g with
  | named name =>
      obtain ⟨rfl, hrest⟩ := Word.append_inj hr.not_plain hl h
      exact .inl ⟨rfl, hrest⟩
  | map key value =>
      simp only [toList_map, List.cons_append, List.append_assoc] at h
      obtain ⟨rfl, hrest⟩ := Word.append_inj (open_not_plain _) hl h
      exact .inr ⟨key, value, rfl, hrest.symm⟩
  | pointer elem =>
      rw [toList_pointer] at h
      exact (Word.ne_punct (by decide) h.symm).elim
  | slice elem =>
      rw [toList_slice] at h
      exact (Word.ne_punct (by decide) h.symm).elim
  | array len elem =>
      rw [toList_array] at h
      exact (Word.ne_punct (by decide) h.symm).elim

end shape

/-- The text of a type tells where it ends. -/
theorem text_append_inj {g g' : GoType} {rest rest' : List Char} (hr : Ended rest)
    (hr' : Ended rest') (h : g.text.toList ++ rest = g'.text.toList ++ rest') :
    g = g' ∧ rest = rest' := by
  induction g generalizing g' rest rest' with
  | named name =>
      rcases of_word hr' hr.not_plain h.symm with ⟨rfl, hrest⟩ | ⟨key', value', rfl, rfl⟩
      · exact ⟨rfl, hrest.symm⟩
      · exact absurd hr (not_ended_open _)
  | pointer elem ih =>
      rw [toList_pointer] at h
      obtain ⟨elem', rfl, helem⟩ := of_star h.symm
      obtain ⟨rfl, hrest⟩ := ih hr hr' helem.symm
      exact ⟨rfl, hrest⟩
  | slice elem ih =>
      rw [toList_slice] at h
      rcases of_open h.symm with ⟨elem', rfl, helem⟩ | ⟨len', elem', rfl, hlen⟩
      · obtain ⟨rfl, hrest⟩ := ih hr hr' (List.cons.inj helem).2
        exact ⟨rfl, hrest⟩
      · exact (Word.ne_punct (by decide) hlen.symm).elim
  | array len elem ih =>
      simp only [toList_array, List.cons_append, List.append_assoc] at h
      rcases of_open h.symm with ⟨elem', rfl, helem⟩ | ⟨len', elem', rfl, hlen⟩
      · exact (Word.ne_punct (by decide) helem).elim
      · obtain ⟨rfl, helem⟩ := Word.append_inj (ended_bracket _).not_plain
          (ended_bracket _).not_plain hlen
        obtain ⟨rfl, hrest⟩ := ih hr hr' (List.cons.inj helem).2
        exact ⟨rfl, hrest⟩
  | map key value ihk ihv =>
      simp only [toList_map, List.cons_append, List.append_assoc] at h
      rcases of_word hr' (open_not_plain _) h.symm with ⟨-, rfl⟩ | ⟨key', value', rfl, hkey⟩
      · exact absurd hr' (not_ended_open _)
      · obtain ⟨rfl, hvalue⟩ := ihk (ended_bracket _) (ended_bracket _) (List.cons.inj hkey).2
        obtain ⟨rfl, hrest⟩ := ihv hr hr' (List.cons.inj hvalue).2
        exact ⟨rfl, hrest⟩

theorem text_inj {g g' : GoType} (h : g.text = g'.text) : g = g' := by
  refine (text_append_inj ended_nil ended_nil ?_).1
  rw [h]

end GoType

end AdaptiveMsg.Amgen
