import ConfigCompiler.Proofs.KeptSchemas

/-!
# The schemas of kinds

The schema of a kind is kept after its first use, beside those of attachments.  What is
kept of a kind never changes, so a question about an entry is answered by the same
schema whenever it is asked.

**Input.**  `kindInForce` is the schema that answers a question about a kind, and
`entryAnswer` what is answered about an entry.

**Relation.**  `SameKinds r t t'`: the tables `t` and `t'` answer questions about kinds
alike.

**Results.**
* `ask_kindSchemaM`, `ask_resolveEntry`: a question about a kind returns the schema in
  force, and one about an entry resolves it by that schema.
* `sameKinds_tablesAfterKind`, `sameKinds_tablesAfter`: no question changes the schema in
  force of any kind.
-/

namespace ConfigCompiler
namespace Resolver

open Resolution

variable {r : Resolver} {t t' t'' : SchemaTables}

/-- The schema that answers a question about a kind: the one kept, or else the one that
the extensions make. -/
def kindInForce (r : Resolver) (t : SchemaTables) (kind : EntityKind) : KindSchema :=
  (t.kinds.get kind).getD (r.kindSchema kind)

/-- A fresh resolver answers by the schemas that the extensions make. -/
@[simp] theorem kindInForce_empty (r : Resolver) (kind : EntityKind) :
    r.kindInForce .empty kind = r.kindSchema kind := by
  simp [kindInForce, SchemaTables.empty]

/-- The tables after a question about a kind. -/
def tablesAfterKind (r : Resolver) (t : SchemaTables) (kind : EntityKind) : SchemaTables :=
  match t.kinds.get kind with
  | some _ => t
  | none => t.keepKind kind (r.kindSchema kind)

/-- A name is added to a raw entry, and nothing else. -/
theorem get?_withName {kind : EntityKind} {entry key : String} {raw : Options}
    (hname : key ≠ "name") : (withName kind entry raw).get? key = raw.get? key := by
  unfold withName
  split
  · rfl
  · rw [SortedMap.get?_insert, if_neg (Ne.symm hname)]

/-- What the resolver answers when asked to resolve an entry. -/
def entryAnswer (r : Resolver) (t : SchemaTables) (kind : EntityKind) (key : String)
    (raw : Options) : Except Failure Options :=
  ((r.resolveEntry kind key raw).ask t).1

theorem ask_kindSchemaM (r : Resolver) (kind : EntityKind) (t : SchemaTables) :
    (r.kindSchemaM kind).ask t = (.ok (r.kindInForce t kind), r.tablesAfterKind t kind) := by
  unfold kindSchemaM kindInForce tablesAfterKind
  rw [ask_bind]
  show ask (match t.kinds.get kind with | _ => _) t = _
  cases t.kinds.get kind <;> rfl

theorem ask_resolveEntry (r : Resolver) (kind : EntityKind) (key : String) (raw : Options)
    (t : SchemaTables) :
    (r.resolveEntry kind key raw).ask t =
      (((r.kindInForce t kind).schema.resolve (withName kind key raw)).mapError
          (Failure.invalid kind key),
        r.tablesAfterKind t kind) := by
  unfold resolveEntry
  rw [ask_bind, ask_kindSchemaM]
  cases h : (r.kindInForce t kind).schema.resolve (withName kind key raw) <;>
    simp only [h] <;> rfl

/-- An answer about an entry is a resolution by the schema in force. -/
theorem entryAnswer_eq (r : Resolver) (t : SchemaTables) (kind : EntityKind) (key : String)
    (raw : Options) :
    r.entryAnswer t kind key raw =
      ((r.kindInForce t kind).schema.resolve (withName kind key raw)).mapError
        (Failure.invalid kind key) := by
  rw [entryAnswer, ask_resolveEntry]

theorem entryAnswer_eq_ok {kind : EntityKind} {key : String} {raw resolved : Options} :
    r.entryAnswer t kind key raw = .ok resolved ↔
      (r.kindInForce t kind).schema.resolve (withName kind key raw) = .ok resolved := by
  rw [entryAnswer_eq]
  cases (r.kindInForce t kind).schema.resolve (withName kind key raw) with
  | ok options =>
      show (Except.ok options : Except Failure Options) = .ok resolved ↔ _
      simp
  | error e => exact ⟨nofun, nofun⟩

theorem returns_resolveEntry {kind : EntityKind} {key : String} {raw resolved : Options} :
    (r.resolveEntry kind key raw).Returns t resolved t' ↔
      r.entryAnswer t kind key raw = .ok resolved ∧ t' = r.tablesAfterKind t kind := by
  unfold Returns
  rw [entryAnswer_eq, ask_resolveEntry, Prod.mk.injEq, eq_comm (a := t')]

/-- The tables answer questions about kinds alike. -/
def SameKinds (r : Resolver) (t t' : SchemaTables) : Prop :=
  ∀ kind, r.kindInForce t' kind = r.kindInForce t kind

theorem SameKinds.refl (r : Resolver) (t : SchemaTables) : r.SameKinds t t :=
  fun _ => rfl

theorem SameKinds.trans (h : r.SameKinds t t') (h' : r.SameKinds t' t'') :
    r.SameKinds t t'' :=
  fun kind => (h' kind).trans (h kind)

/-- A question about a kind changes no schema in force. -/
theorem sameKinds_tablesAfterKind (r : Resolver) (t : SchemaTables) (kind : EntityKind) :
    r.SameKinds t (r.tablesAfterKind t kind) := by
  intro other
  unfold tablesAfterKind kindInForce
  cases hkind : t.kinds.get kind with
  | some known => rfl
  | none =>
      simp only [SchemaTables.keepKind, PerKind.get_set]
      split
      · next heq =>
          subst heq
          simp [hkind]
      · rfl

@[simp] theorem kinds_tablesAfter (r : Resolver) (t : SchemaTables) (kind : AttachmentKind)
    (name : String) (entry : Options) :
    (r.tablesAfter t kind name entry).kinds = t.kinds := by
  unfold tablesAfter
  cases r.policy with
  | rebuild => rfl
  | keep =>
      cases (t.attachments kind).get? name with
      | some _ => rfl
      | none => cases kind <;> rfl

/-- A question about an attachment changes no schema of a kind. -/
theorem sameKinds_tablesAfter (r : Resolver) (t : SchemaTables) (kind : AttachmentKind)
    (name : String) (entry : Options) :
    r.SameKinds t (r.tablesAfter t kind name entry) := by
  intro other
  simp [kindInForce]

@[simp] theorem attachments_tablesAfterKind (r : Resolver) (t : SchemaTables)
    (kind : EntityKind) (other : AttachmentKind) :
    (r.tablesAfterKind t kind).attachments other = t.attachments other := by
  unfold tablesAfterKind
  cases t.kinds.get kind with
  | some _ => rfl
  | none => cases other <;> rfl

theorem SameKinds.entryAnswer_eq (h : r.SameKinds t t') (kind : EntityKind) (key : String)
    (raw : Options) : r.entryAnswer t' kind key raw = r.entryAnswer t kind key raw := by
  rw [Resolver.entryAnswer_eq, Resolver.entryAnswer_eq, h kind]

end Resolver
end ConfigCompiler
