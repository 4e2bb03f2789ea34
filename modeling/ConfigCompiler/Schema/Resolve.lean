import ConfigCompiler.Failure
import ConfigCompiler.Schema.Basic

/-!
# Resolving options against a schema

A bag of options is completed with defaults, checked, and normalized.

**Order.**  Fixed defaults come first; computed defaults see the options given and
the fixed defaults, never each other.  Then come the checks: options nobody
defines, required options, types, values.  Normalizers come last, and each sees
the completed options as they were before any of them ran.  Every step reports the
least option that fails it.
-/

namespace ConfigCompiler

namespace Schema

/-- The options given, with the fixed defaults of absent ones. -/
def withFixedDefaults (s : Schema) (raw : Options) : Options :=
  SortedMap.combine (fun _ v r => v.or (r.bind OptionRule.fixedDefault?)) raw s.rules

/-- The options with all defaults. -/
def complete (s : Schema) (raw : Options) : Options :=
  let known := s.withFixedDefaults raw
  SortedMap.combine (fun _ v r => v.or (r.bind (fun r => r.computedDefault? known)))
    known s.rules

/-- The least option that nobody defines. -/
def undefinedKey? (s : Schema) (raw : Options) : Option String :=
  if s.allowsUndefined then none
  else raw.keys.find? (fun key => !s.defines key)

/-- The least required option that is absent. -/
def missingKey? (s : Schema) (options : Options) : Option String :=
  s.rules.findSome? (fun key r => if r.required && !options.contains key then some key else none)

/-- The first violation of a check of each value against its rule. -/
def firstViolation? (s : Schema) (options : Options)
    (check : String → OptionRule → Value → Option Violation) : Option Violation :=
  s.rules.findSome? (fun key r => (options.get? key).bind (check key r))

/-- A value of a type that is not allowed. -/
def typeViolation? (key : String) (r : OptionRule) (v : Value) : Option Violation :=
  if r.acceptsType v then none
  else some (.invalidType key ((r.types?.getD []).map ValueType.name) (ValueType.ofValue v).name)

/-- A value that is not allowed. -/
def valueViolation? (key : String) (r : OptionRule) (v : Value) : Option Violation :=
  if r.acceptsValue v then none
  else some (.invalidValue key v.text ((r.allowed?.getD []).map AllowedValue.describe))

/-- The normal form of one option among the completed ones. -/
def normalizeOption (s : Schema) (options : Options) (key : String) (v : Value) :
    Except Violation Value :=
  match s.rules.get? key with
  | none => .ok v
  | some r => (r.normalizeValue options v).mapError (Violation.normalization key)

/-- Complete, check and normalize a bag of options. -/
def resolve (s : Schema) (raw : Options) : Except Violation Options :=
  match s.undefinedKey? raw with
  | some key => .error (.undefined key s.definedKeys)
  | none =>
      let options := s.complete raw
      match s.missingKey? options with
      | some key => .error (.missingRequired key)
      | none =>
          match s.firstViolation? options typeViolation? with
          | some v => .error v
          | none =>
              match s.firstViolation? options valueViolation? with
              | some v => .error v
              | none => options.mapM (s.normalizeOption options)

end Schema

end ConfigCompiler
