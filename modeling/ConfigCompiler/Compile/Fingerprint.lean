import ConfigCompiler.Digest.Sha256
import ConfigCompiler.Entry.Store
import ConfigCompiler.Resolution.Basic

/-!
# Fingerprints

A fingerprint is the digest of everything that determines a compilation: the format
of its result, the raw entries, the extensions by name, and the registrations of
the catalog.
-/

namespace ConfigCompiler

/-- The version of the persisted form. -/
def formatVersion : Nat := 1

/-- The text that is digested. -/
def fingerprintPayload (entries : EntryTable) (r : Resolver) : String :=
  "format=" ++ toString formatVersion ++
    "\nentries=" ++ entries.toValue.text ++
    "\nextensions=" ++ ",".intercalate r.extensionNames ++
    "\ncatalog=" ++ "\n".intercalate r.catalog.signature

/-- The digest of what determines a compilation. -/
def fingerprint (entries : EntryTable) (r : Resolver) : String :=
  sha256Hex (fingerprintPayload entries r)

end ConfigCompiler
