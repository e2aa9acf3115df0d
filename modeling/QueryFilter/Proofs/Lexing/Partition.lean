import QueryFilter.Proofs.Lexing.Rereading

/-!
# Lexemes as parts of a text

The lexemes of a text stand in it one behind another, with blanks between them and nothing else, and
each is a lexeme by itself: `tokenize_partition`. Positions are offsets into the UTF-8 bytes of the
text.
-/

namespace QueryFilter

/-! ### Widths -/

theorem utf8Width_toList (text : String) : utf8Width text.toList = text.utf8ByteSize := by
  have ofList (cs : List Char) : utf8Width cs = (String.ofList cs).utf8ByteSize := by
    induction cs with
    | nil => rfl
    | cons c cs ih =>
      rw [utf8Width, ih, ← List.singleton_append, String.ofList_append, String.utf8ByteSize_append,
        ← String.singleton_eq_ofList, String.utf8ByteSize_singleton]
  rw [ofList, String.ofList_toList]

/-! ### Tilings -/

/-- From `position` on the text is made of the lexemes in order, with blanks before, between and
behind them. -/
inductive Tiled : Nat → List Char → List Lexeme → Prop where
  | blanks {position : Nat} {cs : List Char} (blank : ∀ c ∈ cs, Text.isBlank c) :
    Tiled position cs []
  | lexeme {position : Nat} {blanks rest : List Char} {l : Lexeme} {ls : List Lexeme}
    (blank : ∀ c ∈ blanks, Text.isBlank c) (nonempty : l.text ≠ "")
    (position_eq : l.position = position + utf8Width blanks)
    (more : Tiled (l.position + utf8Width l.text.toList) rest ls) :
    Tiled position (blanks ++ (l.text.toList ++ rest)) (l :: ls)

theorem lexemes_tiled {l : Lexer} {ls : List Lexeme} (read : l.lexemes = .ok ls) :
    Tiled l.position l.rest ls := by
  fun_induction Lexer.lexemes l generalizing ls with
  | case1 => cases read
  | case2 l after ended =>
    cases read
    exact .blanks (Lexer.next_none ended)
  | case3 l lexeme after next ih =>
    obtain ⟨more, readMore, rfl⟩ := map_ok read
    obtain ⟨nonempty, ⟨blanks, blank, rest_eq, position_eq⟩, behind, -⟩ := Lexer.next_ok next
    rw [rest_eq]
    exact .lexeme blank nonempty position_eq (behind ▸ ih readMore)

namespace Tiled

variable {position : Nat} {cs : List Char} {ls : List Lexeme}

theorem placed (tiled : Tiled position cs ls) : ∀ l ∈ ls, ∃ before after,
    cs = before ++ (l.text.toList ++ after) ∧ l.position = position + utf8Width before := by
  induction tiled with
  | blanks => simp
  | @lexeme position blanks rest l ls blank nonempty position_eq _ ih =>
    intro other member
    rcases List.mem_cons.mp member with rfl | member
    · exact ⟨blanks, rest, rfl, position_eq⟩
    · obtain ⟨before, after, rfl, placed⟩ := ih other member
      refine ⟨blanks ++ (l.text.toList ++ before), after, by simp, ?_⟩
      simp only [utf8Width_append, placed, position_eq]
      omega

theorem nonempty (tiled : Tiled position cs ls) : ∀ l ∈ ls, l.text ≠ "" := by
  induction tiled with
  | blanks => simp
  | lexeme _ nonempty _ _ ih => exact List.forall_mem_cons.mpr ⟨nonempty, ih⟩

theorem disjoint (tiled : Tiled position cs ls) :
    ls.Pairwise fun l next => l.position + utf8Width l.text.toList ≤ next.position := by
  induction tiled with
  | blanks => exact .nil
  | lexeme _ _ _ more ih =>
    refine .cons ?_ ih
    intro other member
    obtain ⟨before, after, -, placed⟩ := more.placed other member
    omega

/-- A character that belongs to no lexeme is a blank. -/
theorem blank_outside (tiled : Tiled position cs ls) {before after : List Char} {c : Char}
    (here : cs = before ++ c :: after)
    (outside : ∀ l ∈ ls, position + utf8Width before < l.position ∨
      l.position + utf8Width l.text.toList ≤ position + utf8Width before) :
    Text.isBlank c := by
  induction tiled generalizing before with
  | blanks blank => exact blank c (by simp [here])
  | @lexeme position blanks rest l ls blank _ position_eq _ ih =>
    -- The character is one of the blanks, or in the lexeme, or behind it.
    have apart := outside l List.mem_cons_self
    rcases append_eq_append_cons here with ⟨inside, rfl, -⟩ | ⟨behind, rfl, tail⟩
    · exact blank c (by simp)
    rcases append_eq_append_cons tail with ⟨inside, text_eq, -⟩ | ⟨later, rfl, rest_eq⟩
    · have := c.utf8Size_pos
      simp only [text_eq, utf8Width_append, utf8Width] at apart
      omega
    · refine ih rest_eq ?_
      intro other member
      have apartOther := outside other (List.mem_cons_of_mem _ member)
      simp only [utf8Width_append] at apartOther
      omega

/-- The blanks in front of each lexeme and those at the end make up the text with the lexemes. -/
theorem joined (tiled : Tiled position cs ls) : ∃ (gaps : List (List Char)) (last : List Char),
    gaps.length = ls.length ∧ (∀ gap ∈ last :: gaps, ∀ c ∈ gap, Text.isBlank c) ∧
    cs = (List.zipWith (fun gap l => gap ++ l.text.toList) gaps ls).flatten ++ last := by
  induction tiled with
  | @blanks _ cs blank => exact ⟨[], cs, rfl, List.forall_mem_singleton.mpr blank, rfl⟩
  | @lexeme _ blanks _ _ _ blank _ _ _ ih =>
    obtain ⟨gaps, last, same, areBlank, rfl⟩ := ih
    obtain ⟨lastBlank, gapsBlank⟩ := List.forall_mem_cons.mp areBlank
    refine ⟨blanks :: gaps, last, congrArg (· + 1) same, ?_, by simp⟩
    exact List.forall_mem_cons.mpr ⟨lastBlank, List.forall_mem_cons.mpr ⟨blank, gapsBlank⟩⟩

end Tiled

/-! ### Partitions -/

/-- The lexemes are parts of the text in order, each with its place, and what is left between them
is blank. -/
structure Partition (text : String) (lexemes : List Lexeme) : Prop where
  nonempty : ∀ l ∈ lexemes, l.text ≠ ""
  /-- Every lexeme starts between two characters, and its text stands there. -/
  placed : ∀ l ∈ lexemes, ∃ before after : String,
    text = before ++ l.text ++ after ∧ before.utf8ByteSize = l.position
  increasing : lexemes.Pairwise fun l next => l.position < next.position
  disjoint : lexemes.Pairwise fun l next => l.position + l.text.utf8ByteSize ≤ next.position
  blank_outside : ∀ (before after : String) (c : Char),
    text = before ++ String.singleton c ++ after →
    (∀ l ∈ lexemes, before.utf8ByteSize < l.position ∨
      l.position + l.text.utf8ByteSize ≤ before.utf8ByteSize) → Text.isBlank c
  joined : ∃ (gaps : List String) (last : String), gaps.length = lexemes.length ∧
    (∀ gap ∈ last :: gaps, ∀ c ∈ gap.toList, Text.isBlank c) ∧
    text = String.join (List.zipWith (fun gap l => gap ++ l.text) gaps lexemes) ++ last

theorem partition_of_tiled {text : String} {lexemes : List Lexeme}
    (tiled : Tiled 0 text.toList lexemes) : Partition text lexemes where
  nonempty := tiled.nonempty
  placed := by
    intro l member
    obtain ⟨before, after, split, placed⟩ := tiled.placed l member
    refine ⟨String.ofList before, String.ofList after, ?_, ?_⟩
    · apply String.toList_inj.mp
      simp [split]
    · rw [placed, ← utf8Width_toList, String.toList_ofList, Nat.zero_add]
  increasing := by
    refine tiled.disjoint.imp_of_mem ?_
    intro l next member _ apart
    have := Nat.pos_of_ne_zero fun none =>
      tiled.nonempty l member (String.utf8ByteSize_eq_zero_iff.mp none)
    rw [utf8Width_toList] at apart
    omega
  disjoint := by simpa only [utf8Width_toList] using tiled.disjoint
  blank_outside := by
    intro before after c split outside
    have here : text.toList = before.toList ++ c :: after.toList := by simp [split]
    refine tiled.blank_outside here ?_
    simpa only [utf8Width_toList, Nat.zero_add] using outside
  joined := by
    obtain ⟨gaps, last, same, blank, split⟩ := tiled.joined
    refine ⟨gaps.map String.ofList, String.ofList last, by simpa using same, ?_, ?_⟩
    · rw [← List.map_cons, List.forall_mem_map]
      simpa only [String.toList_ofList] using blank
    · apply String.toList_inj.mp
      rw [String.toList_append, String.toList_ofList, split, String.toList_join, List.flatMap_def,
        List.map_zipWith, List.zipWith_map_left]
      simp only [String.toList_append, String.toList_ofList]

/-- A text is partitioned by its lexemes, and the text of each is that one lexeme. -/
theorem tokenize_partition {text : String} {lexemes : List Lexeme}
    (tokenized : tokenize text = .ok lexemes) :
    Partition text lexemes ∧
      ∀ l ∈ lexemes, tokenize l.text = .ok [⟨l.token, l.text, 0⟩] := by
  refine ⟨partition_of_tiled (lexemes_tiled tokenized), ?_⟩
  intro l member
  obtain ⟨before, after, read⟩ := Lexer.next_of_mem tokenized l member
  have again := (Lexer.next_ok read).again 0 [] boundary_nil
  have ended (position : Nat) : (⟨position, []⟩ : Lexer).lexemes = .ok [] := Lexer.lexemes_end rfl
  rw [List.append_nil] at again
  rw [tokenize, Lexer.ofText, Lexer.lexemes_more again, ended]
  rfl

/-- A no-break space is a blank between two lexemes and a part of the string that holds one. Either
way it takes two bytes. -/
theorem tokenize_partition_two_byte_characters : ∃ lexemes,
    tokenize "\tname\u00a0eq'é\u00a0'or x>-2 " = .ok lexemes ∧
      Partition "\tname\u00a0eq'é\u00a0'or x>-2 " lexemes ∧
      lexemes.map Lexeme.position = [1, 7, 9, 15, 18, 19, 20] ∧
      tokenize "'é\u00a0'" = .ok [⟨.literal (.string "é\u00a0"), "'é\u00a0'", 0⟩] := by
  have tokenized : tokenize "\tname\u00a0eq'é\u00a0'or x>-2 " = .ok [⟨.name "name", "name", 1⟩,
      ⟨.comparison .equal, "eq", 7⟩, ⟨.literal (.string "é\u00a0"), "'é\u00a0'", 9⟩,
      ⟨.or, "or", 15⟩, ⟨.name "x", "x", 18⟩, ⟨.comparison .greater, ">", 19⟩,
      ⟨.literal (.integer (-2)), "-2", 20⟩] := by decide +kernel
  obtain ⟨partition, alone⟩ := tokenize_partition tokenized
  exact ⟨_, tokenized, partition, rfl,
    alone ⟨.literal (.string "é\u00a0"), "'é\u00a0'", 9⟩ (by simp)⟩

end QueryFilter
