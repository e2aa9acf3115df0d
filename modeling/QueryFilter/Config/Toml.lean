import QueryFilter.Config
import QueryFilter.Text.Integer
import QueryFilter.Toml.Reader

/-!
# Configurations in TOML

A configuration is read from a table whose unknown keys mean nothing, and is written with one
header for each scope. The version is always the current one after reading.
-/

namespace QueryFilter

open Toml (Value)

/-! ### Reading -/

namespace Config

def currentVersion : UInt32 := 1

/-- A whole number from zero on. -/
def natural? : Value → Option Nat
  | .integer n => if 0 ≤ n then some n.toNat else none
  | _ => none

def version? (value : Value) : Option UInt32 :=
  (natural? value).bind fun n => if n < UInt32.size then some (UInt32.ofNat n) else none

def string? : Value → Option String
  | .string s => some s
  | _ => none

def strings? : Value → Option (List String)
  | .array items => items.mapM string?
  | _ => none

/-- A setting that may be absent. An item that is there has to fit. -/
def setting? {α : Type} (read : Value → Option α) : Option Value → Option (Option α)
  | none => some none
  | some value => (read value).map some

def scopeOf? (keys depth terms : Option Value) : Option Scope := do
  let keys ← setting? strings? keys
  let depth ← setting? natural? depth
  let terms ← setting? natural? terms
  return ⟨keys.getD [], depth, terms⟩

/-- A scope is a table, or an array of its settings in order. A date or time is taken for a table
without settings. -/
def scope? : Value → Option Scope
  | .table entries =>
    scopeOf? (entries.lookup "allowed_keys") (entries.lookup "max_depth")
      (entries.lookup "max_terms")
  | .array items => scopeOf? items[0]? items[1]? items[2]?
  | .dateTime _ => some {}
  | _ => none

def scopes? : Value → Option (NameMap Scope)
  | .table entries =>
    (entries.mapM fun entry => (scope? entry.2).map (entry.1, ·)).map NameMap.ofList
  | _ => none

def ofEntries? (entries : List (String × Value)) : Option Config := do
  let _ ← setting? version? (entries.lookup "version")
  let depth ← setting? natural? (entries.lookup "max_depth")
  let terms ← setting? natural? (entries.lookup "max_terms")
  let scopes ← setting? scopes? (entries.lookup "scopes")
  let standard : Limits := {}
  return ⟨currentVersion, ⟨depth.getD standard.depth, terms.getD standard.terms⟩,
    scopes.getD .empty⟩

def ofToml (text : String) : Except ConfigError Config :=
  match (Toml.read? text).bind ofEntries? with
  | some config => .ok config
  | none => .error .malformed

/-! ### Files -/

/-- What stands at the place of a configuration. -/
inductive File where
  | missing
  | unreadable
  | bytes (content : ByteArray)

/-- Reads a configuration from a file. A missing file stands for the standard configuration. -/
def load : File → Except ConfigError Config
  | .missing => .ok {}
  | .unreadable => .error .unreadable
  | .bytes content =>
    match String.fromUTF8? content with
    | some text => ofToml text
    | none => .error .unreadable

/-! ### Writing -/

def maxLimit : Nat := Int64.maxValue.toInt.toNat

/-- A part of a key: bare where it can be, otherwise quoted on one line, between single quotes only
where that saves escapes. -/
def keyText (name : String) : List Char :=
  let cs := name.toList
  let plain := !cs.any fun c => Toml.isControl c && c != '\t'
  if cs ≠ [] ∧ cs.all Toml.isBareKeyChar then cs
  else if plain && (cs.contains '"' || cs.contains '\\') && !cs.contains '\x27' then
    Toml.onOneLine '\x27' cs
  else Toml.onOneLine '"' (cs.flatMap Toml.escapedChar)

/-- An array of strings, with a line for each if there are several. -/
def arrayText (items : List String) : List Char :=
  match items with
  | [] => ['[', ']']
  | [item] => ['['] ++ Toml.quotedText item.toList ++ [']']
  | items =>
    ['[', '\n'] ++
      items.flatMap (fun item => "    ".toList ++ Toml.quotedText item.toList ++ [',', '\n']) ++
      [']']

def line (key : String) (value : List Char) : List Char :=
  key.toList ++ " = ".toList ++ value ++ ['\n']

def numberLine (key : String) (n : Nat) : List Char := line key (Nat.toDigits 10 n)

/-- The section of a scope, behind an empty line. -/
def scopeText (name : String) (scope : Scope) : List Char :=
  "\n[scopes.".toList ++ keyText name ++ "]\n".toList ++
    line "allowed_keys" (arrayText scope.keys) ++
    (scope.depth.map (numberLine "max_depth")).getD [] ++
    (scope.terms.map (numberLine "max_terms")).getD []

def allLimits (config : Config) : List Nat :=
  [config.limits.depth, config.limits.terms] ++
    config.scopes.entries.flatMap fun (_, scope) => scope.depth.toList ++ scope.terms.toList

/-- The text of a configuration, if its limits can be written. -/
def toToml? (config : Config) : Option String :=
  if config.allLimits.all (· ≤ maxLimit) then
    some (String.ofList (
      numberLine "version" config.version.toNat ++
      numberLine "max_depth" config.limits.depth ++
      numberLine "max_terms" config.limits.terms ++
      match config.scopes.entries with
      | [] => "\n[scopes]\n".toList
      | scopes => scopes.flatMap fun (name, scope) => scopeText name scope))
  else none

end Config

end QueryFilter
