import ConfigCompiler.Number.Word
import ConfigCompiler.Schema.Rule

/-!
# Schema steps as data

Contributions to a schema carry functions.  A `SchemaStep` describes one by data
only, so that extensions and types can be read from a file:
`SchemaStep.contribution` is the contribution described, given the entry that a
step may take a default from.
-/

namespace ConfigCompiler

namespace Plugin

/-- A description of a computed default. -/
inductive LazyRule where
  /-- The value of another option. -/
  | copy (key : String)
  /-- Whether another option is present. -/
  | has (key : String)
  /-- The names of the options seen. -/
  | keys
  /-- One value. -/
  | const (v : Value)
  /-- No value. -/
  | absent

/-- A description of a class of values. -/
inductive TestRule where
  /-- Strings that start with a text. -/
  | startsWith (start : String)
  /-- Integers of 64 bits with sign, from a bound on. -/
  | atLeast (bound : Int)
  | never

/-- A description of a normalizer. -/
inductive NormalizerRule where
  /-- Append a text to strings. -/
  | append (ending : String)
  /-- Put the string of another option in front of strings. -/
  | prependOption (key : String)
  /-- Refuse one value. -/
  | failIf (v : Value) (reason : String)
  /-- Put the value into a list. -/
  | wrap
  /-- Replace the value by the names of the options seen. -/
  | keys
  /-- Leave every value as it is. -/
  | unchanged

/-- A description of a contribution. -/
inductive SchemaStep where
  | define (key : String)
  | require (key : String)
  | default (key : String) (v : Value)
  /-- A fixed default: what the entry holds under a name, or null. -/
  | defaultFrom (key field : String)
  | defaultWith (key : String) (rule : LazyRule)
  | types (key : String) (types : List ValueType)
  | addTypes (key : String) (types : List ValueType)
  | values (key : String) (values : List Value)
  | allowMatching (key description : String) (rule : TestRule)
  | normalize (key : String) (rule : NormalizerRule)
  | allowUndefined (allow : Bool)

/-- The value described. -/
def LazyRule.compute (rule : LazyRule) (options : Options) : Option Value :=
  match rule with
  | copy key => options.get? key
  | has key => some (.bool (options.contains key))
  | keys => some (.strings options.keys)
  | const v => some v
  | absent => none

/-- Whether a value is in the class described. -/
def TestRule.accepts (rule : TestRule) (v : Value) : Bool :=
  match rule with
  | startsWith start => v.str?.any (fun s => start.toList.isPrefixOf s.toList)
  | atLeast bound => v.int?.any (fun n => Word.isSigned n && decide (bound ≤ n))
  | never => false

/-- The normalizer described. -/
def NormalizerRule.normalizer (rule : NormalizerRule) : Normalizer := fun options v =>
  match rule with
  | append ending =>
      match v.str? with
      | some s => .ok (.string (s ++ ending))
      | none => .ok v
  | prependOption key =>
      match options.str? key, v.str? with
      | some front, some s => .ok (.string (front ++ s))
      | _, _ => .ok v
  | failIf refused reason => if v.same refused then .error reason else .ok v
  | wrap => .ok (.array [v])
  | keys => .ok (.strings options.keys)
  | unchanged => .ok v

/-- The contribution described, for an entry. -/
def SchemaStep.contribution (entry : Options) : SchemaStep → Contribution
  | .define key => .define key
  | .require key => .require key
  | .default key v => .default key v
  | .defaultFrom key field => .default key ((entry.get? field).getD .null)
  | .defaultWith key rule => .defaultWith key rule.compute
  | .types key ts => .types key ts
  | .addTypes key ts => .addTypes key ts
  | .values key vs => .values key vs
  | .allowMatching key description rule => .allowMatching key description rule.accepts
  | .normalize key rule => .normalize key rule.normalizer
  | .allowUndefined allow => .allowUndefined allow

/-- The contributions described by steps, for an entry. -/
def contributions (steps : List SchemaStep) (entry : Options) : List Contribution :=
  steps.map (SchemaStep.contribution entry)

end Plugin

end ConfigCompiler
