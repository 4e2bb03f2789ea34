import ConfigCompiler.Entity.Kind
import ConfigCompiler.Schema.Basic

/-!
# Schema extensions

An extension contributes to the schemas of the five kinds, to the defaults laid
under every entry of a kind, and to the schemas of attached actions and behaviors.
Extensions are applied in a fixed order, later ones counting.
-/

namespace ConfigCompiler

/-- What an extension contributes to one kind. -/
structure KindContribution where
  /-- Contributions to the schema of the kind. -/
  schema : List Contribution := []
  /-- Bags merged into the defaults of the kind, in order. -/
  defaults : List Options := []

/-- A named source of schema rules and defaults. -/
structure Extension where
  name : String
  /-- Contributions to the entries of a kind. -/
  ofKind : EntityKind → KindContribution := fun _ => {}
  /-- Contributions to the options of an attached action, given the action's entry. -/
  actionOptions : Options → List Contribution := fun _ => []
  /-- Contributions to the options of an attached behavior, given the behavior's entry. -/
  behaviorOptions : Options → List Contribution := fun _ => []

/-- The schema of a kind and the defaults laid under its entries. -/
structure KindSchema where
  schema : Schema
  defaults : Options

namespace KindSchema

/-- A kind about which nothing is known. -/
def empty : KindSchema := ⟨Schema.empty, ∅⟩

/-- Add what an extension contributes to the kind. -/
def extend (k : KindSchema) (c : KindContribution) : KindSchema :=
  ⟨k.schema.extend c.schema, c.defaults.foldl Options.merge k.defaults⟩

/-- What a list of extensions makes of a kind. -/
def ofExtensions (extensions : List Extension) (kind : EntityKind) : KindSchema :=
  extensions.foldl (fun k e => k.extend (e.ofKind kind)) empty

end KindSchema

end ConfigCompiler
