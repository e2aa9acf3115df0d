import QueryFilter.Filter

/-!
# Configurations

A configuration lists the tables that may be filtered, with the keys that are allowed for each, and
the limits of expressions, which a table may override.
-/

namespace QueryFilter

/-- The settings of one table. Limits that are absent are those of the configuration. -/
structure Scope where
  keys : List String := []
  depth : Option Nat := none
  terms : Option Nat := none
deriving DecidableEq

structure Config where
  version : UInt32 := 1
  limits : Limits := {}
  scopes : NameMap Scope := .empty
deriving DecidableEq

inductive ConfigError where
  /-- The file is there but is no readable text. -/
  | unreadable
  /-- The text is not a configuration. -/
  | malformed
  | unknownScope (name : String)
deriving DecidableEq, Repr

def ConfigError.message : ConfigError → String
  | .unreadable => "failed to read config"
  | .malformed => "failed to parse config"
  | .unknownScope name => s!"unknown filter scope: {name}"

def Config.filter (config : Config) (name : String) : Except ConfigError Filter :=
  match config.scopes.find? name with
  | none => .error (.unknownScope name)
  | some scope =>
    .ok {
      scope := name
      keys := KeySet.ofList scope.keys
      limits := ⟨scope.depth.getD config.limits.depth, scope.terms.getD config.limits.terms⟩ }

end QueryFilter
