import QueryFilter.Expr
import QueryFilter.Token

/-!
# The grammar of filter expressions

`Spells tokens expr` says that a list of tokens spells an expression, with no regard to precedence.
`Expr.Canonical` picks the trees that precedence and association from the left allow, and
`Expr.nesting` and `Expr.predicates` are what the limits bound.
-/

namespace QueryFilter

/-! ### Lists with commas -/

/-- Items with a comma between any two. -/
def separated (items : List (List Token)) : List Token := [.comma].intercalate items

/-- Items with a comma behind each. -/
def terminated (items : List (List Token)) : List Token := items.flatMap (· ++ [.comma])

@[simp] theorem separated_nil : separated [] = [] := rfl

@[simp] theorem separated_singleton (item : List Token) : separated [item] = item :=
  List.intercalate_singleton

theorem separated_cons {items : List (List Token)} (item : List Token) (more : items ≠ []) :
    separated (item :: items) = item ++ .comma :: separated items := by
  rw [separated, List.intercalate_cons_of_ne_nil more, List.append_assoc]
  rfl

/-- What holds of the items and the comma and is kept by appending holds of the whole list. -/
theorem separated_induction {motive : List Token → Prop} (nil : motive [])
    (comma : motive [.comma])
    (append : ∀ {front back : List Token}, motive front → motive back → motive (front ++ back))
    {items : List (List Token)} (each : ∀ item ∈ items, motive item) :
    motive (separated items) := by
  induction items with
  | nil => exact nil
  | cons item items ih =>
    have first : motive item := each item List.mem_cons_self
    have rest : motive (separated items) :=
      ih fun other member => each other (List.mem_cons_of_mem _ member)
    by_cases last : items = []
    · rw [last, separated_singleton]
      exact first
    · rw [separated_cons item last]
      exact append first (append comma rest)

theorem filterMap_separated {α : Type} {f : Token → Option α} (noComma : f .comma = none)
    (items : List (List Token)) :
    (separated items).filterMap f = items.flatMap (List.filterMap f) := by
  induction items with
  | nil => rfl
  | cons item items ih =>
    by_cases last : items = []
    · subst last
      simp
    · rw [separated_cons item last, List.filterMap_append, List.filterMap_cons_none noComma, ih,
        List.flatMap_cons]

@[simp] theorem terminated_nil : terminated [] = [] := rfl

theorem terminated_append (items more : List (List Token)) :
    terminated (items ++ more) = terminated items ++ terminated more :=
  List.flatMap_append

/-- Reading a list from the left: an item stands behind the commas of those before it. -/
theorem separated_append_singleton (items : List (List Token)) (item : List Token) :
    separated (items ++ [item]) = terminated items ++ item := by
  induction items with
  | nil => simp
  | cons first rest ih =>
    rw [List.cons_append, separated_cons first (by simp), ih]
    simp [terminated]

theorem separated_append_comma {items : List (List Token)} (nonempty : items ≠ []) :
    separated items ++ [.comma] = terminated items := by
  obtain ⟨rest, item, rfl⟩ : ∃ rest item, items = rest ++ [item] :=
    ⟨_, _, (List.dropLast_concat_getLast nonempty).symm⟩
  rw [separated_append_singleton, terminated_append]
  simp [terminated]

/-! ### Operands -/

@[elab_as_elim]
theorem Operand.induction {motive : Operand → Prop} (field : ∀ name, motive (.field name))
    (literal : ∀ value, motive (.literal value))
    (call : ∀ name args, (∀ arg ∈ args, motive arg) → motive (.call name args)) :
    ∀ operand, motive operand := by
  intro operand
  refine @Operand.rec motive (fun args => ∀ arg ∈ args, motive arg) field literal call ?_ ?_ operand
  · simp
  · intro arg args first rest other member
    rcases List.mem_cons.mp member with rfl | member
    · exact first
    · exact rest other member

/-! ### Spelling -/

mutual

def Operand.tokens : Operand → List Token
  | .field name => [.name name]
  | .literal value => [.literal value]
  | .call name args =>
    .name name :: .openParen :: separated (Operand.argTokens args) ++ [.closeParen]

def Operand.argTokens : List Operand → List (List Token)
  | [] => []
  | arg :: args => arg.tokens :: Operand.argTokens args

end

theorem Operand.argTokens_eq_map (args : List Operand) : argTokens args = args.map tokens := by
  induction args with
  | nil => rfl
  | cons arg args ih => rw [argTokens, ih, List.map_cons]

theorem Operand.tokens_call (name : String) (args : List Operand) :
    (Operand.call name args).tokens =
      .name name :: .openParen :: separated (args.map tokens) ++ [.closeParen] := by
  rw [tokens, argTokens_eq_map]

def listTokens (values : List Literal) : List Token :=
  .openParen :: separated (values.map fun value => [.literal value]) ++ [.closeParen]

/-- The words of a test for membership. A negated one has two spellings. -/
inductive MembershipWords : Bool → List Token → Prop where
  | plain : MembershipWords false [.isIn]
  | words : MembershipWords true [.not, .isIn]
  | symbol : MembershipWords true [.notIn]

def nullWords (negated : Bool) : List Token :=
  if negated then [.is, .not, .null] else [.is, .null]

/-- The grammar, one constructor for each alternative. -/
inductive Spells : List Token → Expr → Prop where
  | comparison (left : Operand) (op : Comparison) (right : Operand) :
    Spells (left.tokens ++ .comparison op :: right.tokens) (.comparison left op right)
  | inList {negated : Bool} {words : List Token} (field : String)
    (membership : MembershipWords negated words) (values : List Literal) :
    Spells (.name field :: words ++ listTokens values) (.inList field negated values)
  | isNull (field : String) (negated : Bool) :
    Spells (.name field :: nullWords negated) (.isNull field negated)
  | and {first second : List Token} {left right : Expr}
    (spellsLeft : Spells first left) (spellsRight : Spells second right) :
    Spells (first ++ .and :: second) (.and left right)
  | or {first second : List Token} {left right : Expr}
    (spellsLeft : Spells first left) (spellsRight : Spells second right) :
    Spells (first ++ .or :: second) (.or left right)
  | group {tokens : List Token} {inner : Expr} (spellsInner : Spells tokens inner) :
    Spells (.openParen :: tokens ++ [.closeParen]) (.group inner)

/-! ### Shape -/

namespace Expr

def isOr : Expr → Bool
  | .or .. => true
  | _ => false

/-- A predicate or a group, which stands on either side of `and`. -/
def isTerm : Expr → Bool
  | .and .. | .or .. => false
  | _ => true

theorem not_isOr_of_isTerm {expr : Expr} (term : expr.isTerm) : expr.isOr = false := by
  cases expr <;> simp_all [isTerm, isOr]

/-- The shape of a tree in which `and` binds tighter than `or`, both associate from the left, and
lists of values are not empty. -/
def Canonical : Expr → Prop
  | .comparison .. => True
  | .inList _ _ values => values ≠ []
  | .isNull .. => True
  | .and left right => left.isOr = false ∧ right.isTerm ∧ left.Canonical ∧ right.Canonical
  | .or left right => right.isOr = false ∧ left.Canonical ∧ right.Canonical
  | .group inner => inner.Canonical

end Expr

/-! ### Size -/

mutual

/-- The greatest number of calls around a part of an operand, itself included. -/
def Operand.nesting : Operand → Nat
  | .field _ => 0
  | .literal _ => 0
  | .call _ args => Operand.argNesting args + 1

def Operand.argNesting : List Operand → Nat
  | [] => 0
  | arg :: args => max arg.nesting (Operand.argNesting args)

end

theorem Operand.argNesting_append (args more : List Operand) :
    argNesting (args ++ more) = max (argNesting args) (argNesting more) := by
  induction args with
  | nil => simp [argNesting]
  | cons arg args ih => simp only [List.cons_append, argNesting, ih, Nat.max_assoc]

namespace Expr

/-- The greatest number of groups and calls on a path from the root. -/
def nesting : Expr → Nat
  | .comparison left _ right => max left.nesting right.nesting
  | .inList .. => 0
  | .isNull .. => 0
  | .and left right => max left.nesting right.nesting
  | .or left right => max left.nesting right.nesting
  | .group inner => inner.nesting + 1

def predicates : Expr → Nat
  | .comparison .. => 1
  | .inList .. => 1
  | .isNull .. => 1
  | .and left right => left.predicates + right.predicates
  | .or left right => left.predicates + right.predicates
  | .group inner => inner.predicates

end Expr

end QueryFilter
