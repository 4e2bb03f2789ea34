import ConfigCompiler.Proofs.Questions

/-!
# The schemas kept between questions

The tables keep one schema for each kind and one for each name of an attachment.
Once the schema of a name is kept, every later question about the name is answered
with it, whatever entry the question brings.

**Input.**  `schemaInForce` is the schema that answers a question about an
attachment, and `attachmentAnswer` the answer.

**Invariant.**  `KeptFor r entries t₀ t` says what the tables may gain while
attachments are only asked about under names whose entries are stored: a schema
that `t` keeps and `t₀` did not is the schema of the entry stored under its name.

**Results.**
* `attachmentAnswer_eq`: an answer is a resolution by the schema in force.
* `kindSchemaM_returns`: the schema of a kind is always there.
* `KeptFor.resolveAttachment`, `KeptFor.resolveEntry`: questions keep the invariant.
* `KeptFor.attachmentAnswer_eq`: under the invariant a stored entry is answered for
  as it was at the start.
-/

namespace ConfigCompiler
namespace Resolver

open Resolution

/-- The schema that answers a question about an attachment: the one kept under the
name, or else the one of the entry. -/
def schemaInForce (r : Resolver) (t : SchemaTables) (kind : AttachmentKind)
    (name : String) (entry : Options) : Schema :=
  match r.policy with
  | .rebuild => r.attachmentSchema kind entry
  | .keep => ((t.attachments kind).get? name).getD (r.attachmentSchema kind entry)

/-- As long as nothing is kept under the name, the schema of the entry answers. -/
theorem schemaInForce_of_get?_eq_none {r : Resolver} {t : SchemaTables}
    {kind : AttachmentKind} {name : String} (entry : Options)
    (h : (t.attachments kind).get? name = none) :
    r.schemaInForce t kind name entry = r.attachmentSchema kind entry := by
  unfold schemaInForce
  cases r.policy with
  | rebuild => rfl
  | keep => rw [h, Option.getD_none]

/-- What the resolver answers when asked to resolve the options of an attachment. -/
def attachmentAnswer (r : Resolver) (t : SchemaTables) (kind : AttachmentKind)
    (resource name : String) (entry raw : Options) : Except Failure Options :=
  ((r.resolveAttachment kind resource name entry raw).ask t).1

/-- The tables after a question about an attachment. -/
def tablesAfter (r : Resolver) (t : SchemaTables) (kind : AttachmentKind)
    (name : String) (entry : Options) : SchemaTables :=
  match r.policy with
  | .rebuild => t
  | .keep =>
      match (t.attachments kind).get? name with
      | some _ => t
      | none => t.keepAttachment kind name (r.attachmentSchema kind entry)

theorem ask_attachmentSchemaM
    (r : Resolver) (kind : AttachmentKind) (name : String) (entry : Options)
    (t : SchemaTables) :
    (r.attachmentSchemaM kind name entry).ask t =
      (.ok (r.schemaInForce t kind name entry), r.tablesAfter t kind name entry) := by
  unfold attachmentSchemaM schemaInForce tablesAfter
  cases r.policy with
  | rebuild => rfl
  | keep =>
      rw [ask_bind]
      show ask (match (t.attachments kind).get? name with | _ => _) t = _
      cases (t.attachments kind).get? name <;> rfl

theorem ask_resolveAttachment
    (r : Resolver) (kind : AttachmentKind) (resource name : String)
    (entry raw : Options) (t : SchemaTables) :
    (r.resolveAttachment kind resource name entry raw).ask t =
      (((r.schemaInForce t kind name entry).resolve raw).mapError
          (Failure.attachmentInvalid resource kind.kind name),
        r.tablesAfter t kind name entry) := by
  unfold resolveAttachment
  rw [ask_bind, ask_attachmentSchemaM]
  cases h : (r.schemaInForce t kind name entry).resolve raw <;>
    simp only [h] <;> rfl

/-- An answer is a resolution by the schema in force. -/
theorem attachmentAnswer_eq
    (r : Resolver) (t : SchemaTables) (kind : AttachmentKind)
    (resource name : String) (entry raw : Options) :
    r.attachmentAnswer t kind resource name entry raw =
      ((r.schemaInForce t kind name entry).resolve raw).mapError
        (Failure.attachmentInvalid resource kind.kind name) := by
  rw [attachmentAnswer, ask_resolveAttachment]

/-- The bag answered is the one that the schema in force resolves. -/
theorem attachmentAnswer_eq_ok {r : Resolver} {t : SchemaTables} {kind : AttachmentKind}
    {resource name : String} {entry raw options : Options} :
    r.attachmentAnswer t kind resource name entry raw = .ok options ↔
      (r.schemaInForce t kind name entry).resolve raw = .ok options := by
  rw [attachmentAnswer_eq]
  cases (r.schemaInForce t kind name entry).resolve raw with
  | ok resolved =>
      show (Except.ok resolved : Except Failure Options) = .ok options ↔ _
      simp
  | error violation => exact ⟨nofun, nofun⟩

theorem returns_resolveAttachment
    {r : Resolver} {kind : AttachmentKind} {resource name : String}
    {entry raw options : Options} {t t' : SchemaTables} :
    (r.resolveAttachment kind resource name entry raw).Returns t options t' ↔
      r.attachmentAnswer t kind resource name entry raw = .ok options ∧
        t' = r.tablesAfter t kind name entry := by
  unfold Returns
  rw [attachmentAnswer_eq, ask_resolveAttachment, Prod.mk.injEq, eq_comm (a := t')]

theorem fails_resolveAttachment
    {r : Resolver} {kind : AttachmentKind} {resource name : String}
    {entry raw : Options} {f : Failure} {t t' : SchemaTables} :
    (r.resolveAttachment kind resource name entry raw).Fails t f t' ↔
      r.attachmentAnswer t kind resource name entry raw = .error f ∧
        t' = r.tablesAfter t kind name entry := by
  unfold Fails
  rw [attachmentAnswer_eq, ask_resolveAttachment, Prod.mk.injEq, eq_comm (a := t')]

theorem attachments_keepAttachment
    (t : SchemaTables) (kind other : AttachmentKind) (name : String) (s : Schema) :
    (t.keepAttachment kind name s).attachments other =
      if kind = other then (t.attachments kind).insert name s else t.attachments other := by
  cases kind <;> cases other <;> rfl

/-- Between the tables `t₀` and `t` only schemas of stored entries were kept. -/
def KeptFor (r : Resolver) (entries : AttachmentKind → SortedMap Options)
    (t₀ t : SchemaTables) : Prop :=
  ∀ kind name,
    (t.attachments kind).get? name = (t₀.attachments kind).get? name ∨
      ∃ entry, (entries kind).get? name = some entry ∧
        (t₀.attachments kind).get? name = none ∧
        (t.attachments kind).get? name = some (r.attachmentSchema kind entry)

section KeptFor

variable {r : Resolver} {entries more : AttachmentKind → SortedMap Options}
variable {t₀ t t' : SchemaTables}

theorem KeptFor.refl (r : Resolver) (entries : AttachmentKind → SortedMap Options)
    (t : SchemaTables) : KeptFor r entries t t :=
  fun _ _ => Or.inl rfl

/-- Entries that are stored later do no harm. -/
theorem KeptFor.mono
    (h : KeptFor r entries t₀ t)
    (hmore : ∀ kind name entry, (entries kind).get? name = some entry →
      (more kind).get? name = some entry) :
    KeptFor r more t₀ t := by
  intro kind name
  rcases h kind name with heq | ⟨entry, hentry, hnone, hsome⟩
  · exact Or.inl heq
  · exact Or.inr ⟨entry, hmore kind name entry hentry, hnone, hsome⟩

theorem KeptFor.trans
    (h : KeptFor r entries t₀ t) (h' : KeptFor r entries t t') :
    KeptFor r entries t₀ t' := by
  intro kind name
  rcases h' kind name with heq' | ⟨entry, hentry, hnone', hsome'⟩
  · rcases h kind name with heq | ⟨entry, hentry, hnone, hsome⟩
    · exact Or.inl (heq'.trans heq)
    · exact Or.inr ⟨entry, hentry, hnone, heq'.trans hsome⟩
  · rcases h kind name with heq | ⟨_, _, _, hsome⟩
    · exact Or.inr ⟨entry, hentry, heq ▸ hnone', hsome'⟩
    · rw [hsome] at hnone'
      cases hnone'

/-- A question about the stored entry of a name keeps at most its schema. -/
theorem KeptFor.tablesAfter {kind : AttachmentKind} {name : String} {entry : Options}
    (hentry : (entries kind).get? name = some entry) :
    KeptFor r entries t (r.tablesAfter t kind name entry) := by
  unfold Resolver.tablesAfter
  cases r.policy with
  | rebuild => exact KeptFor.refl r entries t
  | keep =>
      cases hkept : (t.attachments kind).get? name with
      | some s => exact KeptFor.refl r entries t
      | none =>
          intro other n
          simp only [attachments_keepAttachment]
          by_cases hkind : kind = other
          · subst hkind
            by_cases hname : name = n
            · subst hname
              exact Or.inr ⟨entry, hentry, hkept, by simp⟩
            · exact Or.inl (by simp [SortedMap.get?_insert, hname])
          · exact Or.inl (by simp [hkind])

theorem KeptFor.resolveAttachment {kind : AttachmentKind} {resource name : String}
    {entry raw options : Options}
    (hentry : (entries kind).get? name = some entry)
    (h : (r.resolveAttachment kind resource name entry raw).Returns t options t') :
    KeptFor r entries t t' := by
  rw [(returns_resolveAttachment.1 h).2]
  exact KeptFor.tablesAfter hentry

/-- The schema of a kind is always there, and stands apart from those of attachments. -/
theorem kindSchemaM_returns (r : Resolver) (kind : EntityKind) (t : SchemaTables) :
    ∃ s t', (r.kindSchemaM kind).Returns t s t' ∧
      ∀ other, t'.attachments other = t.attachments other := by
  unfold kindSchemaM
  cases hkind : t.kinds.get kind with
  | some known =>
      refine ⟨known, t, returns_bind.2 ⟨t, t, rfl, ?_⟩, fun _ => rfl⟩
      rw [hkind]
      exact returns_pure.2 ⟨rfl, rfl⟩
  | none =>
      refine ⟨r.kindSchema kind, t.keepKind kind (r.kindSchema kind),
        returns_bind.2 ⟨t, t, rfl, ?_⟩, fun other => by cases other <;> rfl⟩
      rw [hkind]
      exact returns_bind.2 ⟨(), _, rfl, returns_pure.2 ⟨rfl, rfl⟩⟩

theorem returns_resolveEntry_attachments {kind : EntityKind} {key : String}
    {raw options : Options}
    (h : (r.resolveEntry kind key raw).Returns t options t') (other : AttachmentKind) :
    t'.attachments other = t.attachments other := by
  obtain ⟨s, t₁, hschema, hsame⟩ := r.kindSchemaM_returns kind t
  unfold resolveEntry at h
  obtain ⟨s', t₂, hschema', hrest⟩ := returns_bind.1 h
  obtain ⟨rfl, rfl⟩ := hschema.unique hschema'
  split at hrest
  · rw [(returns_pure.1 hrest).2, hsame]
  · exact (returns_throw.1 hrest).elim

theorem KeptFor.resolveEntry {kind : EntityKind} {key : String} {raw options : Options}
    (h : (r.resolveEntry kind key raw).Returns t options t') :
    KeptFor r entries t t' := by
  intro other name
  exact Or.inl (by rw [returns_resolveEntry_attachments h])

/-- The schema in force for a stored entry is the one at the start. -/
theorem KeptFor.schemaInForce_eq
    (h : KeptFor r entries t₀ t) {kind : AttachmentKind} {name : String} {entry : Options}
    (hentry : (entries kind).get? name = some entry) :
    r.schemaInForce t kind name entry = r.schemaInForce t₀ kind name entry := by
  unfold schemaInForce
  cases r.policy with
  | rebuild => rfl
  | keep =>
      rcases h kind name with heq | ⟨entry', hentry', hnone, hsome⟩
      · simp only [heq]
      · rw [hentry] at hentry'
        cases hentry'
        simp only [hnone, hsome, Option.getD_some, Option.getD_none]

/-- A stored entry is answered for as it was at the start. -/
theorem KeptFor.attachmentAnswer_eq
    (h : KeptFor r entries t₀ t) {kind : AttachmentKind} {name : String} {entry : Options}
    (hentry : (entries kind).get? name = some entry) (resource : String) (raw : Options) :
    r.attachmentAnswer t kind resource name entry raw =
      r.attachmentAnswer t₀ kind resource name entry raw := by
  rw [Resolver.attachmentAnswer_eq, Resolver.attachmentAnswer_eq, h.schemaInForce_eq hentry]

end KeptFor

end Resolver
end ConfigCompiler
