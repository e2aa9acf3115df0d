import QueryFilter.Proofs.Compilation
import QueryFilter.Proofs.Grammar

/-!
# The first call that cannot be compiled

An expression has a clause exactly if each of its calls names a function and has as many arguments
as that takes. Otherwise the error is that of the first call that does not, where the calls in the
arguments of a call come before it: `toClause_calls`.
-/

namespace QueryFilter

/-! ### Calls -/

/-- A call, as far as it can be wrong: the name as it is written and the number of arguments. -/
structure Call where
  name : String
  count : Nat
deriving DecidableEq, Repr

namespace Call

/-- The name is that of a function, in any mix of cases, which takes that many arguments. -/
def Fits (call : Call) : Prop :=
  ∃ f : Builtin, Builtin.sameName f.name call.name ∧ f.takes call.count

/-- What is wrong with a call. The name is looked at first. -/
inductive Fault (call : Call) : FilterError → Prop where
  | unknown (unregistered : ∀ f : Builtin, ¬ Builtin.sameName f.name call.name) :
    Fault call (.unknownFunction call.name (suggestion call.name (Builtin.all.map Builtin.name)))
  | arity {f : Builtin} (registered : Builtin.sameName f.name call.name)
    (misfit : ¬ f.takes call.count) : Fault call (.wrongArity f.name f.arity call.count)

def check (call : Call) : Except FilterError Unit :=
  match Builtin.named? call.name with
  | some f => if f.takes call.count then .ok () else .error (.wrongArity f.name f.arity call.count)
  | none =>
    .error (.unknownFunction call.name (suggestion call.name (Builtin.all.map Builtin.name)))

end Call

theorem Builtin.named_iff {name : String} {f : Builtin} :
    Builtin.named? name = some f ↔ Builtin.sameName f.name name := by
  constructor
  · exact fun found => List.find?_some (p := fun g : Builtin => sameName g.name name) found
  · intro same
    have apart : ∀ g : Builtin, sameName g.name name → g = f := by
      intro g other
      simp only [sameName, beq_iff_eq] at same other
      have lower := other.trans same.symm
      cases g <;> cases f <;> first | rfl | exact absurd lower (by decide)
    cases found : named? name with
    | none =>
      have member : f ∈ all := by cases f <;> decide
      exact absurd same (List.find?_eq_none.mp found f member)
    | some g =>
      have other := List.find?_some (p := fun g : Builtin => sameName g.name name) found
      rw [apart g other]

namespace Call

variable {call : Call} {e : FilterError}

theorem check_ok_iff : call.check = .ok () ↔ call.Fits := by
  unfold check Fits
  cases found : Builtin.named? call.name with
  | none =>
    have unregistered : ∀ f : Builtin, ¬ Builtin.sameName f.name call.name := by
      intro f same
      rw [Builtin.named_iff.mpr same] at found
      cases found
    simp [unregistered]
  | some f =>
    have registered := Builtin.named_iff.mp found
    constructor
    · intro passed
      dsimp only at passed
      split at passed
      · exact ⟨f, registered, ‹_›⟩
      · cases passed
    · rintro ⟨g, same, takes⟩
      obtain rfl : f = g := Option.some.inj (found.symm.trans (Builtin.named_iff.mpr same))
      simp [takes]

theorem check_error_iff : call.check = .error e ↔ call.Fault e := by
  unfold check
  constructor
  · intro failed
    split at failed
    · rename_i f found
      split at failed
      · cases failed
      · cases failed
        exact .arity (Builtin.named_iff.mp found) ‹_›
    · rename_i absent
      cases failed
      refine .unknown fun f same => ?_
      rw [Builtin.named_iff.mpr same] at absent
      cases absent
  · intro fault
    cases fault with
    | unknown unregistered =>
      have absent : Builtin.named? call.name = none := by
        apply Option.eq_none_iff_forall_ne_some.mpr
        exact fun f found => unregistered f (Builtin.named_iff.mp found)
      rw [absent]
    | arity registered misfit =>
      rw [Builtin.named_iff.mpr registered]
      exact if_neg misfit

end Call

/-! ### The calls of an expression -/

mutual

/-- The calls of an operand from left to right, each behind those in its arguments. -/
def Operand.calls : Operand → List Call
  | .field _ => []
  | .literal _ => []
  | .call name args => Operand.callsOfArgs args ++ [⟨name, args.length⟩]

def Operand.callsOfArgs : List Operand → List Call
  | [] => []
  | arg :: args => arg.calls ++ Operand.callsOfArgs args

end

def Expr.calls : Expr → List Call
  | .comparison left _ right => left.calls ++ right.calls
  | .inList .. => []
  | .isNull .. => []
  | .and left right => left.calls ++ right.calls
  | .or left right => left.calls ++ right.calls
  | .group inner => inner.calls

/-! ### Verdicts -/

/-- Whether a computation succeeds, and the error if not. -/
def verdict {ε α : Type} (x : Except ε α) : Except ε Unit := x.map fun _ => ()

section

variable {ε α β : Type} {x : Except ε α}

theorem verdict_ok_iff : verdict x = .ok () ↔ ∃ a, x = .ok a := by
  cases x <;> simp [verdict, Except.map]

theorem verdict_error_iff {e : ε} : verdict x = .error e ↔ x = .error e := by
  cases x <;> simp [verdict, Except.map]

theorem verdict_map (f : α → β) : verdict (x.map f) = verdict x := by
  cases x <;> rfl

/-- A second computation may use the value of the first, as long as its verdict does not. -/
theorem verdict_bind {f : α → Except ε β} {next : Except ε Unit}
    (same : ∀ a, x = .ok a → verdict (f a) = next) :
    verdict (x >>= f) = (do verdict x; next) := by
  cases x with
  | error e => rfl
  | ok a => exact same a rfl

theorem verdict_bind_ok {f : α → β} : verdict (x >>= fun a => .ok (f a)) = verdict x := by
  cases x <;> rfl

end

variable {table : String}

theorem verdict_ofCall (name : String) (args : List Scalar) :
    verdict (Scalar.ofCall name args) = Call.check ⟨name, args.length⟩ := by
  unfold Scalar.ofCall Call.check Builtin.apply
  cases Builtin.named? name with
  | none => rfl
  | some f =>
    dsimp only
    split <;> rfl

theorem verdict_toScalar (operand : Operand) :
    verdict (operand.toScalar table) = forM operand.calls Call.check := by
  induction operand using Operand.induction with
  | field name => rfl
  | literal value => rfl
  | call name args ih =>
    have inside : verdict (Operand.toScalars table args) =
        forM (Operand.callsOfArgs args) Call.check := by
      induction args with
      | nil => rfl
      | cons arg args ihArgs =>
        obtain ⟨first, others⟩ := List.forall_mem_cons.mp ih
        rw [Operand.toScalars, Operand.callsOfArgs, List.forM_append, ← first, ← ihArgs others]
        exact verdict_bind fun scalar _ => verdict_bind_ok
    have called (scalars : List Scalar) (compiled : Operand.toScalars table args = .ok scalars) :
        verdict (Scalar.ofCall name scalars) = Call.check ⟨name, args.length⟩ := by
      rw [verdict_ofCall, (toScalars_ok compiled).length_eq]
    rw [Operand.toScalar, Operand.calls, List.forM_append, ← inside, verdict_bind called]
    simp

theorem verdict_toRightSide (op : Comparison) (operand : Operand) :
    verdict (operand.toRightSide table op) = forM operand.calls Call.check := by
  unfold Operand.toRightSide
  cases op.relation.2 with
  | none => exact verdict_toScalar operand
  | some pattern =>
    rw [← @verdict_toScalar table]
    cases operand with
    | literal value => rfl
    | field name => exact verdict_bind_ok
    | call name args => exact verdict_bind_ok

theorem verdict_comparisonClause (left : Operand) (op : Comparison) (right : Operand) :
    verdict (comparisonClause table left op right) =
      forM (left.calls ++ right.calls) Call.check := by
  rw [comparisonClause_eq, List.forM_append, ← @verdict_toScalar table,
    ← @verdict_toRightSide table op]
  exact verdict_bind fun first _ => verdict_bind_ok

theorem verdict_toConditions (expr : Expr) (connector : Connector) :
    verdict (expr.toConditions table connector) = forM expr.calls Call.check := by
  induction expr generalizing connector with
  | comparison left op right =>
    exact verdict_bind_ok.trans (verdict_comparisonClause left op right)
  | inList field negated values => rfl
  | isNull field negated => rfl
  | and left right ihLeft ihRight | or left right ihLeft ihRight =>
    rw [Expr.toConditions, Expr.calls, List.forM_append, ← ihLeft connector, ← ihRight]
    exact verdict_bind fun first _ => verdict_bind_ok
  | group inner ih => exact verdict_bind_ok.trans (ih .and)

theorem verdict_toClause (expr : Expr) :
    verdict (expr.toClause table) = forM expr.calls Call.check := by
  rw [toClause_eq, verdict_map, verdict_toConditions]

/-! ### The first bad call -/

/-- An expression has a clause if and only if all of its calls fit, and then that clause is added to
a sink. Otherwise the error is what is wrong with the first call that does not fit, and the sink is
left as it is. -/
theorem toClause_calls (expr : Expr) (table : String) :
    ((∃ clause, expr.toClause table = .ok clause) ↔ ∀ call ∈ expr.calls, call.Fits) ∧
    (∀ e, expr.toClause table = .error e ↔ ∃ before call after,
      expr.calls = before ++ call :: after ∧ (∀ other ∈ before, other.Fits) ∧ call.Fault e) ∧
    ∀ (σ : Type) [ClauseSink σ] (sink : σ),
      ((∀ call ∈ expr.calls, call.Fits) → ∃ clause, expr.toClause table = .ok clause ∧
        expr.addTo table sink = (.ok (), ClauseSink.push sink clause)) ∧
      ((∃ call ∈ expr.calls, ¬ call.Fits) → ∃ e, expr.toClause table = .error e ∧
        expr.addTo table sink = (.error e, sink)) := by
  have compiles : (∃ clause, expr.toClause table = .ok clause) ↔
      ∀ call ∈ expr.calls, call.Fits := by
    rw [← verdict_ok_iff, verdict_toClause, forM_ok_iff]
    simp only [Call.check_ok_iff]
  refine ⟨compiles, ?_, ?_⟩
  · intro e
    rw [← verdict_error_iff, verdict_toClause, forM_error_iff]
    simp only [Call.check_ok_iff, Call.check_error_iff]
  · intro σ _ sink
    constructor
    · intro fit
      obtain ⟨clause, compiled⟩ := compiles.mpr fit
      exact ⟨clause, compiled, by rw [Expr.addTo, compiled]⟩
    · rintro ⟨call, member, misfit⟩
      cases compiled : expr.toClause table with
      | ok clause => exact absurd (compiles.mp ⟨clause, compiled⟩ call member) misfit
      | error e => exact ⟨e, rfl, by rw [Expr.addTo, compiled]⟩

/-- In a call of an unknown function, behind a call that fits, an argument has too few arguments and
comes first. -/
theorem toClause_calls_inside_out :
    let expr : Expr := .or (.isNull "a" false) (.group (.comparison (.call "CONCAT"
      [.field "a", .literal (.integer 1)]) .contains (.call "upper" [.call "Sum" [.field "b"]])))
    expr.calls = [⟨"CONCAT", 2⟩, ⟨"Sum", 1⟩, ⟨"upper", 1⟩] ∧ (⟨"CONCAT", 2⟩ : Call).Fits ∧
      ¬ (⟨"Sum", 1⟩ : Call).Fits ∧ expr.toClause "t" = .error (.wrongArity "sum" 2 1) ∧
      expr.addTo "t" [Clause.isNull (.column "t" "c") true] =
        (.error (.wrongArity "sum" 2 1), [Clause.isNull (.column "t" "c") true]) := by
  intro expr
  have calls : expr.calls = [⟨"CONCAT", 2⟩, ⟨"Sum", 1⟩, ⟨"upper", 1⟩] := rfl
  have fits : (⟨"CONCAT", 2⟩ : Call).Fits := ⟨.concat, by decide, by decide⟩
  have misfit : ¬ (⟨"Sum", 1⟩ : Call).Fits := by
    rintro ⟨f, -, takes⟩
    cases f <;> cases takes
  obtain ⟨-, rejects, added⟩ := toClause_calls expr "t"
  have first : expr.toClause "t" = .error (.wrongArity "sum" 2 1) :=
    (rejects _).mpr ⟨[⟨"CONCAT", 2⟩], ⟨"Sum", 1⟩, [⟨"upper", 1⟩], calls,
      List.forall_mem_singleton.mpr fits, @Call.Fault.arity _ Builtin.sum (by decide) (by decide)⟩
  obtain ⟨e, rejected, unchanged⟩ := (added _ [Clause.isNull (.column "t" "c") true]).2
    ⟨⟨"Sum", 1⟩, by simp [calls], misfit⟩
  obtain rfl := Except.error.inj (first.symm.trans rejected)
  exact ⟨calls, fits, misfit, first, unchanged⟩

end QueryFilter
