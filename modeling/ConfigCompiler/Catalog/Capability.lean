import ConfigCompiler.Catalog.Basic

/-!
# Capabilities

What a type implements: the interfaces declared for it, what those interfaces are
declared to implement, and so on.

**Algorithm.**  Starting from the interfaces declared for the type itself, one
round adds everything declared for what was found so far.  As many rounds are made
as there are declarations, which is enough: a shortest chain passes through each
declared name at most once.

**Relation.**  `Catalog.Implements` is the chain itself.
-/

namespace ConfigCompiler

namespace Catalog

/-- The interfaces declared for one name. -/
def declaredFor (c : Catalog) (type : String) : NameSet :=
  (c.declared.get? type).getD ∅

/-- Add what is declared for the names found. -/
def capabilityRound (c : Catalog) (found : NameSet) : NameSet :=
  found.keys.foldl (fun all name => all.union (c.declaredFor name)) found

/-- The capabilities found after a number of rounds. -/
def capabilityRounds (c : Catalog) (type : String) : Nat → NameSet
  | 0 => c.declaredFor type
  | n + 1 => c.capabilityRound (c.capabilityRounds type n)

/-- Every interface a type implements, directly or through interfaces. -/
def capabilitiesOf (c : Catalog) (type : String) : NameSet :=
  c.capabilityRounds type c.declared.size

/-- Whether a type implements an interface. -/
def hasCapability (c : Catalog) (type interface : String) : Bool :=
  (c.capabilitiesOf type).contains interface

/-- A type implements what is declared for it, and what that implements. -/
inductive Implements (c : Catalog) : String → String → Prop
  | direct {type interface : String} :
      (c.declaredFor type).contains interface = true → Implements c type interface
  | through {type via interface : String} :
      (c.declaredFor type).contains via = true → Implements c via interface →
      Implements c type interface

end Catalog

end ConfigCompiler
