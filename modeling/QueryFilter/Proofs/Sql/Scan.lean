import QueryFilter.Sql.Query

/-!
# Reading SQL back

A reader that knows only how identifiers are quoted finds them again in a text made of pieces, with
everything between them unchanged: `scan_spell`.
-/

namespace QueryFilter

/-! ### Scanning -/

/-- What a reader sees: quoted identifiers, and the characters outside of them. -/
inductive Fragment where
  | identifier (name : String)
  | char (c : Char)
deriving DecidableEq

/-- Where a reader stands. Behind a mark that closes an identifier another mark would reopen it. -/
inductive Place where
  | outside
  | inside (name : List Char)
  | closing (name : List Char)

def scanFrom (mark : Char) : Place → List Char → List Fragment
  | .outside, [] => []
  | .outside, c :: cs =>
    if c = mark then scanFrom mark (.inside []) cs else .char c :: scanFrom mark .outside cs
  -- An identifier that is not closed is none.
  | .inside _, [] => []
  | .inside name, c :: cs =>
    if c = mark then scanFrom mark (.closing name) cs
    else scanFrom mark (.inside (name ++ [c])) cs
  | .closing name, [] => [.identifier (String.ofList name)]
  | .closing name, c :: cs =>
    if c = mark then scanFrom mark (.inside (name ++ [c])) cs
    else .identifier (String.ofList name) :: .char c :: scanFrom mark .outside cs

/-- The identifiers between marks in a text, with every doubled mark inside them read as one, and
the characters outside of them. -/
def scan (mark : Char) (text : List Char) : List Fragment := scanFrom mark .outside text

/-- The columns that are written with their tables. -/
def qualified : List Fragment → List (String × String)
  | [] => []
  | .identifier table :: .char '.' :: .identifier name :: rest => (table, name) :: qualified rest
  | _ :: rest => qualified rest

theorem scan_unmarked {mark : Char} {front : List Char} (unmarked : mark ∉ front)
    (rest : List Char) : scan mark (front ++ rest) = front.map .char ++ scan mark rest := by
  induction front with
  | nil => rfl
  | cons c front ih =>
    obtain ⟨different, unmarked⟩ := List.ne_and_not_mem_of_not_mem_cons unmarked
    rw [List.cons_append, scan, scanFrom, if_neg different.symm]
    exact congrArg (Fragment.char c :: ·) (ih unmarked)

theorem scanFrom_inside (mark : Char) (seen name rest : List Char) :
    scanFrom mark (.inside seen)
        (name.flatMap (fun c => if c = mark then [c, c] else [c]) ++ mark :: rest) =
      scanFrom mark (.closing (seen ++ name)) rest := by
  induction name generalizing seen with
  | nil => simp [scanFrom]
  | cons c name ih =>
    rw [List.flatMap_cons]
    by_cases isMark : c = mark
    · rw [if_pos isMark, isMark, List.append_assoc, List.cons_append, List.singleton_append,
        scanFrom, if_pos rfl, scanFrom, if_pos rfl, ih]
      simp
    · rw [if_neg isMark, List.append_assoc, List.singleton_append, scanFrom, if_neg isMark, ih]
      simp

theorem scan_quote (dialect : Dialect) (name : String) {rest : List Char}
    (boundary : rest.head? ≠ some dialect.mark) :
    scan dialect.mark (dialect.quote name ++ rest) = .identifier name :: scan dialect.mark rest := by
  rw [Dialect.quote, List.cons_append, List.cons_append, List.append_assoc, List.singleton_append,
    scan, scanFrom, if_pos rfl, scanFrom_inside, List.nil_append]
  cases rest with
  | nil => simp [scanFrom, scan]
  | cons c rest =>
    have different : c ≠ dialect.mark := by simpa using boundary
    simp [scanFrom, scan, different]

example : scan '"' (Dialect.postgres.quote "a\"" ++ ['.', '?']) =
    [.identifier "a\"", .char '.', .char '?'] := by decide

/-! ### Pieces -/

/-- What the text of pieces is read as. -/
def Dialect.fragments (dialect : Dialect) (bound : Nat) : List Piece → List Fragment
  | [] => []
  | .text text :: pieces => text.toList.map .char ++ dialect.fragments bound pieces
  | .identifier name :: pieces => .identifier name :: dialect.fragments bound pieces
  | .value _ :: pieces =>
    (dialect.placeholder (bound + 1)).map .char ++ dialect.fragments (bound + 1) pieces

/-- The text is not empty and holds no mark of any dialect. -/
def Plain (text : String) : Prop := text ≠ "" ∧ '"' ∉ text.toList ∧ '\x60' ∉ text.toList

instance (text : String) : Decidable (Plain text) := inferInstanceAs (Decidable (_ ∧ _))

theorem Plain.unmarked {text : String} (plain : Plain text) (dialect : Dialect) :
    dialect.mark ∉ text.toList := by
  obtain ⟨-, noQuote, noBacktick⟩ := plain
  cases dialect with
  | mysql => exact noBacktick
  | postgres => exact noQuote
  | sqlite => exact noQuote

def Piece.isIdentifier : Piece → Bool
  | .identifier _ => true
  | _ => false

/-- Pieces that a reader can tell apart: every text is plain, and two identifiers are never next to
each other. -/
inductive Readable : List Piece → Prop where
  | nil : Readable []
  | text {text : String} {pieces : List Piece} (plain : Plain text) (rest : Readable pieces) :
    Readable (.text text :: pieces)
  | identifier {name : String} {pieces : List Piece}
    (apart : ∀ piece ∈ pieces.head?, piece.isIdentifier = false) (rest : Readable pieces) :
    Readable (.identifier name :: pieces)
  | value {literal : Literal} {pieces : List Piece} (rest : Readable pieces) :
    Readable (.value literal :: pieces)

theorem Readable.append {front back : List Piece} (readable : Readable front)
    (apart : ∀ piece ∈ back.head?, piece.isIdentifier = false) (more : Readable back) :
    Readable (front ++ back) := by
  induction readable with
  | nil => exact more
  | text plain _ ih => exact .text plain ih
  | @identifier name pieces apartFront _ ih =>
    refine .identifier ?_ ih
    cases pieces with
    | nil => exact apart
    | cons piece pieces => exact apartFront
  | value _ ih => exact .value ih

theorem mark_not_mem_placeholder (dialect : Dialect) (number : Nat) :
    dialect.mark ∉ dialect.placeholder number := by
  cases dialect with
  | mysql => simp [Dialect.mark, Dialect.placeholder]
  | sqlite => simp [Dialect.mark, Dialect.placeholder]
  | postgres =>
    intro member
    rcases List.mem_cons.mp member with isDollar | isDigit
    · revert isDollar
      decide
    · have digit : Dialect.postgres.mark.isDigit :=
        Nat.isDigit_of_mem_toDigits (by decide) (by decide) isDigit
      revert digit
      decide

theorem head_spell_ne_mark {dialect : Dialect} {bound : Nat} {pieces : List Piece}
    (readable : Readable pieces)
    (apart : ∀ piece ∈ pieces.head?, piece.isIdentifier = false) :
    (dialect.spell bound pieces).head? ≠ some dialect.mark := by
  cases readable with
  | nil => simp [Dialect.spell]
  | @text text pieces plain _ =>
    obtain ⟨c, cs, chars⟩ : ∃ c cs, text.toList = c :: cs :=
      List.exists_cons_of_ne_nil (by simpa using plain.1)
    have unmarked : dialect.mark ∉ text.toList := plain.unmarked dialect
    rw [chars] at unmarked
    rw [Dialect.spell, chars, List.cons_append, List.head?_cons]
    intro isMark
    exact unmarked (by simp [Option.some.inj isMark])
  | identifier =>
    have impossible := apart _ rfl
    cases impossible
  | value =>
    intro isMark
    apply mark_not_mem_placeholder dialect (bound + 1)
    cases dialect with
    | mysql => cases isMark
    | sqlite => cases isMark
    | postgres => cases isMark

/-- A reader finds the identifiers of a text and everything between them. -/
theorem scan_spell {pieces : List Piece} (readable : Readable pieces) (dialect : Dialect)
    (bound : Nat) :
    scan dialect.mark (dialect.spell bound pieces) = dialect.fragments bound pieces := by
  induction readable generalizing bound with
  | nil => rfl
  | text plain _ ih =>
    rw [Dialect.spell, scan_unmarked (plain.unmarked dialect), ih, Dialect.fragments]
  | identifier apart rest ih =>
    rw [Dialect.spell, scan_quote dialect _ (head_spell_ne_mark rest apart), ih, Dialect.fragments]
  | value _ ih =>
    rw [Dialect.spell, scan_unmarked (mark_not_mem_placeholder dialect _), ih, Dialect.fragments]

/-- What is written piece by piece, and depends on the number of values before, is written of two
parts one behind the other. -/
theorem numbered_append {α : Type} {write : Nat → List Piece → List α}
    (nil : ∀ bound, write bound [] = [])
    (cons : ∀ bound piece pieces, write bound (piece :: pieces) =
      write bound [piece] ++ write (bound + piece.value?.toList.length) pieces)
    (bound : Nat) (front back : List Piece) :
    write bound (front ++ back) =
      write bound front ++ write (bound + (front.filterMap Piece.value?).length) back := by
  induction front generalizing bound with
  | nil => simp [nil]
  | cons piece front ih =>
    have counted : ((piece :: front).filterMap Piece.value?).length =
        piece.value?.toList.length + (front.filterMap Piece.value?).length := by
      cases piece <;> simp [List.filterMap_cons, Piece.value?, Nat.add_comm]
    rw [List.cons_append, cons, ih, cons bound piece front, counted, List.append_assoc,
      Nat.add_assoc]

theorem fragments_append (dialect : Dialect) (bound : Nat) (front back : List Piece) :
    dialect.fragments bound (front ++ back) = dialect.fragments bound front ++
      dialect.fragments (bound + (front.filterMap Piece.value?).length) back := by
  refine numbered_append (fun _ => rfl) (fun bound piece pieces => ?_) bound front back
  cases piece <;> simp [Dialect.fragments, Piece.value?]

/-! ### Columns -/

theorem qualified_chars (chars : List Char) (rest : List Fragment) :
    qualified (chars.map .char ++ rest) = qualified rest := by
  induction chars with
  | nil => rfl
  | cons c chars ih => exact ih

end QueryFilter
