import Mathlib.Algebra.Group.Nat.Even
import Mathlib.Tactic.SplitIfs
import QueryFilter.Token.Lexer

/-!
# Where a string ends

Behind an opening quote a string goes on to the first matching quote that is not escaped, that is,
before which stands an even number of backslashes. Read from the left, each backslash makes a pair
with the character behind it. `stringBody_of_endsBehind` says that this is the same.
-/

namespace QueryFilter

/-! ### Escapes -/

/-- The number of backslashes at the end of a text. -/
def backslashes (before : List Char) : Nat := (before.reverse.takeWhile (· = '\\')).length

/-- What stands behind the text is not escaped by a backslash at its end. -/
def Unescaped (before : List Char) : Prop := Even (backslashes before)

/-- The value of what stands between two quotes. -/
def resolved : List Char → List Char
  | '\\' :: c :: cs => unescaped c :: resolved cs
  | c :: cs => c :: resolved cs
  | [] => []

/-- Behind an opening quote the body stands before the first matching quote that is not escaped. -/
structure EndsBehind (quote : Char) (cs body rest : List Char) : Prop where
  parts : cs = body ++ quote :: rest
  unescaped : Unescaped body
  first : ∀ shorter tail, cs = shorter ++ quote :: tail → Unescaped shorter →
    body.length ≤ shorter.length

/-- No matching quote in the text is one that is not escaped. -/
def Unclosed (quote : Char) (cs : List Char) : Prop :=
  ∀ before after, cs = before ++ quote :: after → ¬ Unescaped before

variable {quote c : Char} {cs body rest value : List Char}

theorem backslash_not_quote (isQuote : quote = '"' ∨ quote = '\x27') : quote ≠ '\\' := by
  rcases isQuote with rfl | rfl <;> decide

theorem backslashes_le (before : List Char) : backslashes before ≤ before.length := by
  have shorter := (List.takeWhile_sublist (fun c => decide (c = '\\'))
    (l := before.reverse)).length_le
  rwa [List.length_reverse] at shorter

/-- A character in front counts if there are only backslashes behind it. -/
theorem backslashes_cons (c : Char) (before : List Char) : backslashes (c :: before) =
    if backslashes before = before.length then before.length + (if c = '\\' then 1 else 0)
    else backslashes before := by
  unfold backslashes
  rw [List.reverse_cons, List.takeWhile_append, List.length_reverse]
  split
  · rw [List.length_append, List.length_reverse]
    split <;> simp_all
  · rfl

theorem unescaped_nil : Unescaped [] := by simp [Unescaped, backslashes]

theorem unescaped_plain (noEscape : c ≠ '\\') (before : List Char) :
    Unescaped (c :: before) ↔ Unescaped before := by
  unfold Unescaped
  rw [backslashes_cons, if_neg noEscape]
  split <;> simp_all

theorem unescaped_pair (c : Char) (before : List Char) :
    Unescaped ('\\' :: c :: before) ↔ Unescaped before := by
  have bound := backslashes_le before
  simp only [Unescaped, backslashes_cons, List.length_cons, Nat.even_iff]
  split_ifs <;> omega

theorem unclosed_nil : Unclosed quote [] := by
  intro before after inside
  simp at inside

theorem unclosed_plain (plain : c ≠ '\\') (noQuote : c ≠ quote) (more : Unclosed quote cs) :
    Unclosed quote (c :: cs) := by
  intro before after inside
  cases before with
  | nil => exact absurd (List.cons.inj inside).1 noQuote
  | cons d before =>
    obtain ⟨rfl, tail⟩ := List.cons.inj inside
    rw [unescaped_plain plain]
    exact more before after tail

theorem unclosed_backslash (noEscape : quote ≠ '\\') : Unclosed quote ['\\'] := by
  intro before after inside
  cases before with
  | nil => exact absurd (List.cons.inj inside).1.symm noEscape
  | cons d before => simp at inside

/-- The character behind a backslash closes nothing, as one backslash is an odd number. -/
theorem unclosed_pair (noEscape : quote ≠ '\\') (c : Char) (more : Unclosed quote cs) :
    Unclosed quote ('\\' :: c :: cs) := by
  intro before after inside
  match before with
  | [] => exact absurd (List.cons.inj inside).1.symm noEscape
  | [d] =>
    obtain rfl := (List.cons.inj inside).1
    simp [Unescaped, backslashes]
  | d :: e :: before =>
    simp only [List.cons_append, List.cons.injEq] at inside
    obtain ⟨rfl, rfl, tail⟩ := inside
    rw [unescaped_pair]
    exact more before after tail

/-- A member of two lists in a row is in the first or in the second. -/
theorem append_eq_append_cons {α : Type} {front back before after : List α} {c : α}
    (same : front ++ back = before ++ c :: after) :
    (∃ inside, front = before ++ c :: inside ∧ after = inside ++ back) ∨
      ∃ behind, before = front ++ behind ∧ back = behind ++ c :: after := by
  rcases List.append_eq_append_iff.mp same with ⟨behind, longer, rest⟩ | ⟨inside, longer, rest⟩
  · exact .inr ⟨behind, longer, rest⟩
  · cases inside with
    | nil => exact .inr ⟨[], by simpa using longer.symm, rest.symm⟩
    | cons d inside =>
      obtain ⟨rfl, rfl⟩ := List.cons.inj rest
      exact .inl ⟨inside, longer, rfl⟩

/-! ### Pairs -/

/-- A body in which every backslash makes a pair with the character behind it, and no quote is left
over, with its value. -/
inductive Paired (quote : Char) : List Char → List Char → Prop where
  | nil : Paired quote [] []
  | plain {c : Char} {body value : List Char} (noEscape : c ≠ '\\') (noQuote : c ≠ quote)
    (more : Paired quote body value) : Paired quote (c :: body) (c :: value)
  | pair {body value : List Char} (c : Char) (more : Paired quote body value) :
    Paired quote ('\\' :: c :: body) (unescaped c :: value)

namespace Paired

theorem unescaped (paired : Paired quote body value) : Unescaped body := by
  induction paired with
  | nil => exact unescaped_nil
  | plain noEscape _ _ ih => exact (unescaped_plain noEscape _).mpr ih
  | pair c _ ih => exact (unescaped_pair c _).mpr ih

theorem resolved_eq (paired : Paired quote body value) : resolved body = value := by
  induction paired with
  | nil => rfl
  | plain noEscape _ _ ih =>
    rw [resolved, ih]
    exact fun d more same _ => noEscape same
  | pair c _ ih => rw [resolved, ih]

theorem unclosed (noEscape : quote ≠ '\\') (paired : Paired quote body value) :
    Unclosed quote body := by
  induction paired with
  | nil => exact unclosed_nil
  | plain plainChar noQuote _ ih => exact unclosed_plain plainChar noQuote ih
  | pair c _ ih => exact unclosed_pair noEscape c ih

theorem endsBehind (noEscape : quote ≠ '\\') (paired : Paired quote body value)
    (rest : List Char) : EndsBehind quote (body ++ quote :: rest) body rest where
  parts := rfl
  unescaped := paired.unescaped
  first := by
    intro shorter tail same early
    rcases append_eq_append_cons same with ⟨inside, body_eq, -⟩ | ⟨behind, rfl, -⟩
    · exact absurd early (paired.unclosed noEscape shorter inside body_eq)
    · simp

end Paired

/-! ### Strings that are read -/

/-- A string that is read is made of pairs and plain characters up to the quote. -/
theorem paired_of_stringBody {text : List Char}
    (read : stringBody? quote cs = some (value, text, rest)) :
    ∃ body, text = body ++ [quote] ∧ cs = body ++ quote :: rest ∧ Paired quote body value := by
  fun_induction stringBody? quote cs generalizing value text rest with
  | case1 => cases read
  | case2 c cs ih =>
    obtain ⟨⟨v, t, r⟩, readRest, same⟩ := Option.map_eq_some_iff.mp read
    obtain ⟨rfl, rfl, rfl⟩ := by simpa using same
    obtain ⟨body, rfl, rfl, paired⟩ := ih readRest
    exact ⟨'\\' :: c :: body, rfl, rfl, .pair c paired⟩
  | case3 cs =>
    obtain ⟨rfl, rfl, rfl⟩ := by simpa using read
    exact ⟨[], rfl, rfl, .nil⟩
  | case4 c cs plain different ih =>
    obtain ⟨⟨v, t, r⟩, readRest, same⟩ := Option.map_eq_some_iff.mp read
    obtain ⟨rfl, rfl, rfl⟩ := by simpa using same
    obtain ⟨body, rfl, rfl, paired⟩ := ih readRest
    -- A backslash would have made a pair, at least with the quote.
    have plainChar : c ≠ '\\' := by
      intro escape
      cases body with
      | nil => exact plain _ _ escape rfl
      | cons d body => exact plain _ _ escape rfl
    exact ⟨c :: body, rfl, rfl, .plain plainChar different paired⟩

theorem unclosed_of_stringBody (noEscape : quote ≠ '\\') (unread : stringBody? quote cs = none) :
    Unclosed quote cs := by
  fun_induction stringBody? quote cs with
  | case1 => exact unclosed_nil
  | case2 c cs ih => exact unclosed_pair noEscape c (ih (Option.map_eq_none_iff.mp unread))
  | case3 => cases unread
  | case4 c cs plain different ih =>
    by_cases escape : c = '\\'
    · subst escape
      cases cs with
      | nil => exact unclosed_backslash noEscape
      | cons d cs => exact (plain d cs rfl rfl).elim
    · exact unclosed_plain escape different (ih (Option.map_eq_none_iff.mp unread))

theorem stringBody_of_endsBehind (noEscape : quote ≠ '\\') (ends : EndsBehind quote cs body rest) :
    stringBody? quote cs = some (resolved body, body ++ [quote], rest) := by
  cases read : stringBody? quote cs with
  | none => exact absurd ends.unescaped (unclosed_of_stringBody noEscape read _ _ ends.parts)
  | some result =>
    obtain ⟨value, text, tail⟩ := result
    obtain ⟨other, rfl, parts, paired⟩ := paired_of_stringBody read
    have same : other ++ quote :: tail = body ++ quote :: rest := parts.symm.trans ends.parts
    have bodyFirst := ends.first other tail parts paired.unescaped
    have otherFirst := (paired.endsBehind noEscape tail).first body rest same ends.unescaped
    obtain ⟨rfl, tail_eq⟩ := List.append_inj same (Nat.le_antisymm otherFirst bodyFirst)
    obtain rfl := (List.cons.inj tail_eq).2
    rw [paired.resolved_eq]

/-- A text has a first quote that is not escaped, unless it has none at all. -/
theorem endsBehind_or_unclosed (noEscape : quote ≠ '\\') (cs : List Char) :
    (∃ body rest, EndsBehind quote cs body rest) ∨
      Unclosed quote cs ∧ stringBody? quote cs = none := by
  cases read : stringBody? quote cs with
  | none => exact .inr ⟨unclosed_of_stringBody noEscape read, rfl⟩
  | some result =>
    obtain ⟨value, text, rest⟩ := result
    obtain ⟨body, -, rfl, paired⟩ := paired_of_stringBody read
    exact .inl ⟨body, rest, paired.endsBehind noEscape rest⟩

/-- A string is made of its text, and is read wherever that stands. -/
theorem stringBody_ok (noEscape : quote ≠ '\\') {text : List Char}
    (read : stringBody? quote cs = some (value, text, rest)) :
    cs = text ++ rest ∧
      ∀ other, stringBody? quote (text ++ other) = some (value, text, other) := by
  obtain ⟨body, rfl, rfl, paired⟩ := paired_of_stringBody read
  refine ⟨by simp, ?_⟩
  intro other
  rw [List.append_assoc, List.singleton_append,
    stringBody_of_endsBehind noEscape (paired.endsBehind noEscape other), paired.resolved_eq]

end QueryFilter
