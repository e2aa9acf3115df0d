import Mathlib.Data.List.Basic
import QueryFilter.Sql.Piece

/-!
# Texts that show where their parts end

A text can be read from left to right if each of its parts is told apart from every other part that
may stand in its place, whatever follows them. `listGlyphs_apart` says so of the parts of a list
that a parenthesis closes.
-/

namespace QueryFilter

/-! ### Texts with their values -/

/-- What a reader of a query and its bindings sees, with values in the places of placeholders. -/
inductive Glyph where
  | identifier (name : String)
  | value (literal : Literal)
  | char (c : Char)

def chars (text : List Char) : List Glyph := text.map .char

def Piece.glyphs : Piece → List Glyph
  | .text string => chars string.toList
  | .identifier name => [.identifier name]
  | .value literal => [.value literal]

def glyphsOf (pieces : List Piece) : List Glyph := pieces.flatMap Piece.glyphs

theorem glyphsOf_append (front back : List Piece) :
    glyphsOf (front ++ back) = glyphsOf front ++ glyphsOf back := List.flatMap_append

/-! ### Parts that end by themselves -/

/-- Two parts that cannot be taken for each other: if two texts that begin with them are the same,
then the parts have the same key and what follows them is the same. -/
def Apart {α β : Type} (write : α → List Glyph) (key : α → β) (a b : α) : Prop :=
  ∀ {rest more : List Glyph}, write a ++ rest = write b ++ more → key a = key b ∧ rest = more

/-- The text is not empty and does not begin with a closing parenthesis. -/
def Starts (text : List Glyph) : Prop := ∃ first rest, text = first :: rest ∧ first ≠ .char ')'

theorem Starts.append {text : List Glyph} (starts : Starts text) (more : List Glyph) :
    Starts (text ++ more) := by
  obtain ⟨first, rest, written, noClose⟩ := starts
  exact ⟨first, rest ++ more, by rw [written, List.cons_append], noClose⟩

theorem Starts.ne_close {text : List Glyph} (starts : Starts text) {rest : List Glyph} :
    text ≠ .char ')' :: rest := by
  obtain ⟨first, last, written, noClose⟩ := starts
  rw [written]
  intro same
  exact noClose (List.cons.inj same).1

theorem words_apart {α : Type} {word : α → List Char}
    (prefixFree : ∀ a b, word a <+: word b → a = b) (a b : α) :
    Apart (fun a => chars (word a)) id a b := by
  have begins {front back : List Char} {between : List Glyph}
      (same : chars back = chars front ++ between) : front <+: back := by
    obtain ⟨start, last, whole, sameStart, -⟩ := List.map_eq_append_iff.mp same
    have isFront : start = front :=
      List.map_injective_iff.mpr (fun _ _ => Glyph.char.inj) sameStart
    exact ⟨last, by rw [whole, isFront]⟩
  intro rest more same
  have equal : a = b := by
    rcases List.append_eq_append_iff.mp same with ⟨between, longer, -⟩ | ⟨between, longer, -⟩
    · exact prefixFree a b (begins longer)
    · exact (prefixFree b a (begins longer)).symm
  subst equal
  exact ⟨rfl, List.append_cancel_left same⟩

/-- Items that can be told apart wherever one of them may stand. -/
structure Distinct {α β : Type} (write : α → List Glyph) (key : α → β) (items others : List α) :
    Prop where
  starts : ∀ item, item ∈ items ∨ item ∈ others → Starts (write item)
  apart : ∀ item ∈ items, ∀ other ∈ others, Apart write key item other

namespace Distinct

variable {α β : Type} {write : α → List Glyph} {key : α → β} {items others : List α}

theorem tail {item other : α} (distinct : Distinct write key (item :: items) (other :: others)) :
    Distinct write key items others where
  starts a member :=
    distinct.starts a (member.imp (List.mem_cons_of_mem _) (List.mem_cons_of_mem _))
  apart a member b otherMember :=
    distinct.apart a (List.mem_cons_of_mem _ member) b (List.mem_cons_of_mem _ otherMember)

theorem flatMap (distinct : Distinct write key items others) {rest more : List Glyph}
    (same : items.flatMap write ++ .char ')' :: rest = others.flatMap write ++ .char ')' :: more) :
    items.map key = others.map key ∧ rest = more := by
  induction items generalizing others with
  | nil =>
    cases others with
    | nil => exact ⟨rfl, (List.cons.inj same).2⟩
    | cons other others =>
      have starts := distinct.starts other (.inr List.mem_cons_self)
      rw [List.flatMap_cons, List.append_assoc] at same
      exact absurd same.symm (starts.append _).ne_close
  | cons item items ih =>
    cases others with
    | nil =>
      have starts := distinct.starts item (.inl List.mem_cons_self)
      rw [List.flatMap_cons, List.append_assoc] at same
      exact absurd same (starts.append _).ne_close
    | cons other others =>
      rw [List.flatMap_cons, List.flatMap_cons, List.append_assoc, List.append_assoc] at same
      obtain ⟨sameKey, same⟩ :=
        distinct.apart item List.mem_cons_self other List.mem_cons_self same
      obtain ⟨sameKeys, sameRest⟩ := ih distinct.tail same
      exact ⟨by rw [List.map_cons, List.map_cons, sameKey, sameKeys], sameRest⟩

theorem map (distinct : Distinct write key items others) {γ : Type} (f : β → γ) :
    Distinct write (fun a => f (key a)) items others where
  starts := distinct.starts
  apart := by
    intro a member b otherMember rest more same
    obtain ⟨sameKey, sameRest⟩ := distinct.apart a member b otherMember same
    exact ⟨congrArg f sameKey, sameRest⟩

theorem behind {γ : Type} {word : α → List Glyph} {tag : α → γ}
    (startsWord : ∀ a, Starts (word a)) (apartWord : ∀ a b, Apart word tag a b)
    (distinct : Distinct write key items others) :
    Distinct (fun a => word a ++ write a) (fun a => (tag a, key a)) items others where
  starts item _ := (startsWord item).append (write item)
  apart := by
    intro a member b otherMember rest more same
    rw [List.append_assoc, List.append_assoc] at same
    obtain ⟨sameTag, same⟩ := apartWord a b same
    obtain ⟨sameKey, sameRest⟩ := distinct.apart a member b otherMember same
    exact ⟨Prod.ext sameTag sameKey, sameRest⟩

theorem separated (distinct : Distinct write key items others) {separator : List Glyph}
    (starts : Starts separator) : Distinct (fun a => separator ++ write a) key items others := by
  have same : ∀ a b : α, Apart (fun _ => separator) (fun _ => ()) a b :=
    fun _ _ _ _ same => ⟨rfl, List.append_cancel_left same⟩
  exact (distinct.behind (fun _ => starts) same).map Prod.snd

end Distinct

/-- The first item is written in one way and those behind it in another. -/
def listGlyphs {α : Type} (first next : α → List Glyph) : List α → List Glyph
  | [] => []
  | item :: items => first item ++ items.flatMap next

def keyed {α β : Type} (first next : α → β) : List α → List β
  | [] => []
  | item :: items => first item :: items.map next

theorem keyed_self {α β : Type} (key : α → β) (items : List α) :
    keyed key key items = items.map key := by
  cases items <;> rfl

theorem listGlyphs_apart {α β : Type} {first next : α → List Glyph} {firstKey nextKey : α → β}
    {items others : List α} (distinctFirst : Distinct first firstKey items others)
    (distinctNext : Distinct next nextKey items others) {rest more : List Glyph}
    (same : listGlyphs first next items ++ .char ')' :: rest =
      listGlyphs first next others ++ .char ')' :: more) :
    keyed firstKey nextKey items = keyed firstKey nextKey others ∧ rest = more := by
  cases items with
  | nil =>
    cases others with
    | nil => exact ⟨rfl, (List.cons.inj same).2⟩
    | cons other others =>
      have starts := distinctFirst.starts other (.inr List.mem_cons_self)
      rw [listGlyphs, listGlyphs, List.append_assoc] at same
      exact absurd same.symm (starts.append _).ne_close
  | cons item items =>
    cases others with
    | nil =>
      have starts := distinctFirst.starts item (.inl List.mem_cons_self)
      rw [listGlyphs, listGlyphs, List.append_assoc] at same
      exact absurd same (starts.append _).ne_close
    | cons other others =>
      rw [listGlyphs, listGlyphs, List.append_assoc, List.append_assoc] at same
      obtain ⟨sameKey, same⟩ :=
        distinctFirst.apart item List.mem_cons_self other List.mem_cons_self same
      obtain ⟨sameKeys, sameRest⟩ := distinctNext.tail.flatMap same
      exact ⟨congrArg₂ List.cons sameKey sameKeys, sameRest⟩

theorem separated_apart {α β : Type} {write : α → List Glyph} {key : α → β} {items others : List α}
    (distinct : Distinct write key items others) {separator : List Glyph}
    (starts : Starts separator) {rest more : List Glyph}
    (same : listGlyphs write (fun a => separator ++ write a) items ++ .char ')' :: rest =
      listGlyphs write (fun a => separator ++ write a) others ++ .char ')' :: more) :
    items.map key = others.map key ∧ rest = more := by
  obtain ⟨sameKeys, sameRest⟩ := listGlyphs_apart distinct (distinct.separated starts) same
  rw [keyed_self, keyed_self] at sameKeys
  exact ⟨sameKeys, sameRest⟩

theorem glyphsOf_intercalate {α : Type} (separator : String) (pieces : α → List Piece)
    (items : List α) : glyphsOf ([.text separator].intercalate (items.map pieces)) =
      listGlyphs (fun item => glyphsOf (pieces item))
        (fun item => chars separator.toList ++ glyphsOf (pieces item)) items := by
  cases items with
  | nil => rfl
  | cons item items =>
    rw [listGlyphs]
    induction items generalizing item with
    | nil => simp
    | cons next items ih =>
      have rest := ih next
      rw [List.map_cons] at rest
      rw [List.map_cons, List.map_cons, List.intercalate_cons_cons, glyphsOf_append,
        glyphsOf_append, rest, List.flatMap_cons]
      simp [glyphsOf, Piece.glyphs]

end QueryFilter
