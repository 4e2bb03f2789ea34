import ConfigCompiler.Proofs.AgreeingPhases

/-!
# What a shared resolver remembers

A resolver that is used again keeps its tables.  The schema of an attachment is kept under
the name of the attachment only, although it is made from the entry that a question
brings: a later question with another entry under the same name is answered by the schema
of the first.  Everything else that is kept is determined by what it is kept under.

**Input.**  A `Use` of a resolver is a question about an entry, a resource or an
attachment, or a whole compilation.  `Use.Brings` says which entries a use may bring under
which names.

**Invariants.**  `KeptFrom r P t`: what the tables keep was made from entries of `P`.
`Fits r P t`: what the tables keep is the schema of every entry of `P` of its name.

**Results.**
* `keptFrom_tablesAfterUses`: a history keeps only what its uses brought.
* `shared_resolver`: a use is answered as by a fresh resolver, unless an earlier use
  brought an entry of another schema under a name that it brings an entry under; and a
  question about an attachment is answered for the first entry that was asked about under
  its name.
-/

namespace ConfigCompiler

open Resolution

/-- A use of a resolver. -/
inductive Use where
  | entry (kind : EntityKind) (key : String) (raw : Options)
  | resource (key : String) (raw : Options) (namespaces permissions : SortedMap Options)
  | attachment (kind : AttachmentKind) (resource name : String) (entry raw : Options)
  | compile (time : Timestamp) (store : EntryStore)

/-- What a use is answered with. -/
inductive Answer where
  | options (resolved : Options)
  | configuration (compiled : Compiled) (collisions : List AliasCollision)

namespace Use

/-- The question that a use asks. -/
def question (r : Resolver) : Use → Resolution Answer
  | .entry kind key raw => do
      return .options (← r.resolveEntry kind key raw)
  | .resource key raw namespaces permissions => do
      return .options (← r.resolveResource key raw namespaces permissions)
  | .attachment kind holder name attached raw => do
      return .options (← r.resolveAttachment kind holder name attached raw)
  | .compile time store => do
      let result ← ConfigCompiler.compile r time store
      return .configuration result.1 result.2

/-- The answer to a use, with the tables as they stand. -/
def answer (r : Resolver) (t : SchemaTables) (use : Use) : Except Failure Answer :=
  ((use.question r).ask t).1

/-- The entries that a use may bring to a question about an attachment. -/
def Brings (r : Resolver) (use : Use) (kind : AttachmentKind) (name : String)
    (brought : Options) : Prop :=
  match use with
  | .entry _ _ _ => False
  | .resource _ _ _ _ => False
  | .attachment asked _ called attached _ => asked = kind ∧ called = name ∧ attached = brought
  | .compile _ store => Gives r store kind name brought

end Use

/-- The tables of a resolver after its first uses. -/
def tablesAfterUses (r : Resolver) (uses : List Use) : SchemaTables :=
  uses.foldl (fun t use => ((use.question r).ask t).2) .empty

/-- What the tables keep was made from the entries of `P`. -/
structure KeptFrom (r : Resolver) (P : AttachmentKind → String → Options → Prop)
    (t : SchemaTables) : Prop where
  kinds : ∀ kind, r.kindInForce t kind = r.kindSchema kind
  attachments : ∀ kind name s, (t.attachments kind).get? name = some s →
    ∃ entry, P kind name entry ∧ s = r.attachmentSchema kind entry

/-- What the tables keep under a name is the schema of every entry of `P` of that name. -/
structure Fits (r : Resolver) (P : AttachmentKind → String → Options → Prop)
    (t : SchemaTables) : Prop where
  kinds : ∀ kind, r.kindInForce t kind = r.kindSchema kind
  attachments : r.policy = .keep → ∀ kind name s entry,
    (t.attachments kind).get? name = some s → P kind name entry →
    s = r.attachmentSchema kind entry

section Invariants

variable {r : Resolver} {P : AttachmentKind → String → Options → Prop} {t : SchemaTables}
variable {kind : AttachmentKind} {name : String} {entry : Options}

theorem keptFrom_empty (r : Resolver) (P : AttachmentKind → String → Options → Prop) :
    KeptFrom r P .empty where
  kinds := r.kindInForce_empty
  attachments := fun kind name s h => by
    cases kind <;> simp [SchemaTables.attachments, SchemaTables.empty] at h

/-- A question about an attachment keeps the schema of its entry, or what was kept. -/
theorem attachments_tablesAfter {other : AttachmentKind} {n : String} {s : Schema}
    (h : ((r.tablesAfter t kind name entry).attachments other).get? n = some s) :
    (t.attachments other).get? n = some s ∨
      (r.policy = .keep ∧ kind = other ∧ name = n ∧ s = r.attachmentSchema kind entry) := by
  unfold Resolver.tablesAfter at h
  cases hpolicy : r.policy with
  | rebuild =>
      rw [hpolicy] at h
      exact Or.inl h
  | keep =>
      simp only [hpolicy] at h
      split at h
      · exact Or.inl h
      · rw [Resolver.attachments_keepAttachment] at h
        split at h
        · next hkind =>
            subst hkind
            rw [SortedMap.get?_insert] at h
            split at h
            · next hname =>
                cases h
                exact Or.inr ⟨rfl, rfl, hname, rfl⟩
            · exact Or.inl h
        · exact Or.inl h

theorem KeptFrom.tablesAfterKind (h : KeptFrom r P t) (kind : EntityKind) :
    KeptFrom r P (r.tablesAfterKind t kind) where
  kinds := fun other => (r.sameKinds_tablesAfterKind t kind other).trans (h.kinds other)
  attachments := fun other name s hs =>
    h.attachments other name s (by rwa [Resolver.attachments_tablesAfterKind] at hs)

theorem KeptFrom.tablesAfter (h : KeptFrom r P t) (hentry : P kind name entry) :
    KeptFrom r P (r.tablesAfter t kind name entry) where
  kinds := fun other => (r.sameKinds_tablesAfter t kind name entry other).trans (h.kinds other)
  attachments := fun other n s hs => by
    rcases attachments_tablesAfter hs with hold | ⟨-, rfl, rfl, rfl⟩
    · exact h.attachments other n s hold
    · exact ⟨entry, hentry, rfl⟩

/-- One run of a use keeps what it was made from. -/
theorem alike_keptFrom (r : Resolver) (P : AttachmentKind → String → Options → Prop) :
    Alike r P (fun t u => t = u ∧ KeptFrom r P t) where
  kind := by
    rintro t _ ⟨rfl, h⟩ kind
    exact ⟨h.kinds kind, h.kinds kind⟩
  afterKind := by
    rintro t _ ⟨rfl, h⟩ kind
    exact ⟨rfl, h.tablesAfterKind kind⟩
  attachment := by
    rintro t _ ⟨rfl, -⟩ kind name entry -
    rfl
  afterAttachment := by
    rintro t _ ⟨rfl, h⟩ kind name entry hentry
    exact ⟨rfl, h.tablesAfter hentry⟩

/-- Tables that keep nothing but what fits answer alike, if entries of one name have one
schema. -/
theorem alike_fits (hone : r.policy = .keep → ∀ kind name entry other, P kind name entry →
      P kind name other → r.attachmentSchema kind other = r.attachmentSchema kind entry) :
    Alike r P (fun t u => Fits r P t ∧ Fits r P u) := by
  have hkind : ∀ t, Fits r P t → ∀ kind, Fits r P (r.tablesAfterKind t kind) := by
    intro t h kind
    refine ⟨fun other => (r.sameKinds_tablesAfterKind t kind other).trans (h.kinds other),
      fun hkeep other name s entry hs hentry => h.attachments hkeep other name s entry ?_ hentry⟩
    rwa [Resolver.attachments_tablesAfterKind] at hs
  have hafter : ∀ t, Fits r P t → ∀ kind name entry, P kind name entry →
      Fits r P (r.tablesAfter t kind name entry) := by
    intro t h kind name entry hentry
    refine ⟨fun other =>
      (r.sameKinds_tablesAfter t kind name entry other).trans (h.kinds other),
      fun hkeep other n s e hs he => ?_⟩
    rcases attachments_tablesAfter hs with hold | ⟨-, rfl, rfl, rfl⟩
    · exact h.attachments hkeep other n s e hold he
    · exact hone hkeep kind name e entry he hentry
  have hschema : ∀ t, Fits r P t → ∀ kind name entry, P kind name entry →
      r.schemaInForce t kind name entry = r.attachmentSchema kind entry := by
    intro t h kind name entry hentry
    unfold Resolver.schemaInForce
    cases hpolicy : r.policy with
    | rebuild => rfl
    | keep =>
        cases hkept : (t.attachments kind).get? name with
        | none => rfl
        | some s => exact h.attachments hpolicy kind name s entry hkept hentry
  refine ⟨fun t u h kind => ⟨h.1.kinds kind, h.2.kinds kind⟩,
    fun t u h kind => ⟨hkind t h.1 kind, hkind u h.2 kind⟩,
    fun t u h kind name entry hentry => ?_,
    fun t u h kind name entry hentry =>
      ⟨hafter t h.1 kind name entry hentry, hafter u h.2 kind name entry hentry⟩⟩
  rw [hschema t h.1 kind name entry hentry, hschema u h.2 kind name entry hentry]

end Invariants

variable {r : Resolver} {P : AttachmentKind → String → Options → Prop}

/-- A use agrees if the entries that it brings are answered for alike. -/
theorem Use.agrees {R : SchemaTables → SchemaTables → Prop} (hR : Alike r P R) (use : Use)
    (hP : ∀ kind name entry, use.Brings r kind name entry → P kind name entry) :
    Agrees R (fun _ => True) (use.question r) := by
  cases use with
  | entry kind key raw =>
      exact (hR.resolveEntry kind key raw).bind (fun _ _ _ _ _ => Agrees.pure trivial)
  | resource key raw namespaces permissions =>
      refine Agrees.bind (Q := fun _ => True) ?_ (fun _ _ _ _ _ => Agrees.pure trivial)
      exact Draft.agrees_resolveResource hR key raw namespaces permissions
  | attachment kind resource name entry raw =>
      exact (hR.resolveAttachment (hP kind name entry ⟨rfl, rfl, rfl⟩) resource raw).bind
        (fun _ _ _ _ _ => Agrees.pure trivial)
  | compile time store =>
      exact (agrees_compile hR hP time).bind (fun _ _ _ _ _ => Agrees.pure trivial)

/-- A history keeps only what its uses brought. -/
theorem keptFrom_tablesAfterUses {uses : List Use}
    (h : ∀ use ∈ uses, ∀ kind name entry, use.Brings r kind name entry → P kind name entry) :
    KeptFrom r P (tablesAfterUses r uses) := by
  have hfold : ∀ (uses : List Use) (t : SchemaTables),
      (∀ use ∈ uses, ∀ kind name entry, use.Brings r kind name entry → P kind name entry) →
      KeptFrom r P t →
      KeptFrom r P (uses.foldl (fun t use => ((use.question r).ask t).2) t) := by
    intro uses
    induction uses with
    | nil => exact fun t _ ht => ht
    | cons use rest ih =>
        intro t hbrings ht
        have hstep := Use.agrees (alike_keptFrom r P) use
          (hbrings use List.mem_cons_self) t t ⟨rfl, ht⟩
        exact ih _ (fun other hother => hbrings other (List.mem_cons_of_mem _ hother))
          hstep.2.1.2
  exact hfold uses .empty h (keptFrom_empty r P)

/-- A use is answered as by a fresh resolver, unless a use of the history brought an entry
of another schema under a name that it brings an entry under. -/
theorem answer_tablesAfterUses {past : List Use} {next : Use}
    (h : r.policy = .keep → ∀ use ∈ next :: past, ∀ kind name entry other,
      next.Brings r kind name entry → use.Brings r kind name other →
      r.attachmentSchema kind other = r.attachmentSchema kind entry) :
    next.answer r (tablesAfterUses r past) = next.answer r .empty := by
  have hone := fun hkeep kind name entry other =>
    h hkeep next List.mem_cons_self kind name entry other
  have hpast : Fits r (next.Brings r) (tablesAfterUses r past) := by
    have hkept : KeptFrom r (fun kind name entry => ∃ use ∈ past, use.Brings r kind name entry)
        (tablesAfterUses r past) :=
      keptFrom_tablesAfterUses (fun use huse kind name entry hbrings => ⟨use, huse, hbrings⟩)
    refine ⟨hkept.kinds, fun hkeep kind name s entry hs hentry => ?_⟩
    obtain ⟨other, ⟨use, huse, hbrings⟩, rfl⟩ := hkept.attachments kind name s hs
    exact h hkeep use (List.mem_cons_of_mem _ huse) kind name entry other hentry hbrings
  have hfresh : Fits r (next.Brings r) .empty := by
    refine ⟨r.kindInForce_empty, fun _ kind name s entry hs _ => ?_⟩
    obtain ⟨_, hnone, -⟩ := (keptFrom_empty r (fun _ _ _ => False)).attachments kind name s hs
    exact hnone.elim
  exact (Use.agrees (alike_fits hone) next (fun _ _ _ hbrings => hbrings)
    _ _ ⟨hpast, hfresh⟩).1

namespace Use

/-- The entry of a question about an attachment of a name. -/
def asked? (kind : AttachmentKind) (name : String) : Use → Option Options
  | .attachment asked _ called attached _ =>
      if asked = kind ∧ called = name then some attached else none
  | _ => none

/-- A use that is a single question. -/
def isQuestion : Use → Bool
  | .compile _ _ => false
  | _ => true

end Use

/-- The entry of the first question about an attachment of a name. -/
def firstAsked? (kind : AttachmentKind) (name : String) (uses : List Use) : Option Options :=
  uses.findSome? (Use.asked? kind name)

theorem firstAsked?_cons (kind : AttachmentKind) (name : String) (use : Use)
    (rest : List Use) :
    firstAsked? kind name (use :: rest) =
      (use.asked? kind name).or (firstAsked? kind name rest) := by
  unfold firstAsked?
  rw [List.findSome?_cons]
  cases use.asked? kind name <;> rfl

/-- A question about a resource asks the schema of resources only. -/
theorem ask_resolveResource_tables (r : Resolver) (t : SchemaTables) (key : String)
    (raw : Options) (namespaces permissions : SortedMap Options) :
    ((r.resolveResource key raw namespaces permissions).ask t).2 =
      r.tablesAfterKind t .resource := by
  unfold Resolver.resolveResource
  rw [ask_bind, Resolver.ask_resolveEntry]
  cases (r.kindInForce t .resource).schema.resolve
      (Resolver.withName .resource key raw) with
  | error violation => rfl
  | ok resolved =>
      show (ask (liftM (Resolver.checkNamespace resolved _ namespaces) >>= _) _).2 = _
      rw [ask_bind]
      cases Resolver.checkNamespace resolved (Resolver.entryName resolved key) namespaces with
      | error f => rfl
      | ok _ =>
          show (ask (liftM (Resolver.checkPermissions resolved _ permissions) >>= _) _).2 = _
          rw [ask_bind]
          cases Resolver.checkPermissions resolved (Resolver.entryName resolved key)
            permissions <;> rfl

theorem ask_question_tables (r : Resolver) (t : SchemaTables) {use : Use}
    (huse : use.isQuestion = true) :
    ((use.question r).ask t).2 =
      match use with
      | .entry kind _ _ => r.tablesAfterKind t kind
      | .resource _ _ _ _ => r.tablesAfterKind t .resource
      | .attachment kind _ name attached _ => r.tablesAfter t kind name attached
      | .compile _ _ => t := by
  have hpure : ∀ (x : Resolution Options),
      (ask (x >>= fun resolved => pure (Answer.options resolved)) t).2 = (x.ask t).2 := by
    intro x
    rw [ask_bind]
    rcases x.ask t with ⟨_ | _, _⟩ <;> rfl
  cases use with
  | entry kind key raw => exact (hpure _).trans (by rw [Resolver.ask_resolveEntry])
  | resource key raw namespaces permissions =>
      exact (hpure _).trans (ask_resolveResource_tables r t key raw namespaces permissions)
  | attachment kind resource name attached raw =>
      exact (hpure _).trans (by rw [Resolver.ask_resolveAttachment])
  | compile time store => cases huse

/-- A question about an attachment keeps the schema of its entry if none is kept. -/
theorem get?_attachments_tablesAfter (hkeep : r.policy = .keep) (t : SchemaTables)
    (asked kind : AttachmentKind) (called name : String) (attached : Options) :
    ((r.tablesAfter t asked called attached).attachments kind).get? name =
      ((t.attachments kind).get? name).or
        (if asked = kind ∧ called = name then some (r.attachmentSchema kind attached)
          else none) := by
  unfold Resolver.tablesAfter
  simp only [hkeep]
  by_cases heq : asked = kind ∧ called = name
  · obtain ⟨rfl, rfl⟩ := heq
    cases hkept : (t.attachments asked).get? called with
    | some s => simp [hkept]
    | none => simp [Resolver.attachments_keepAttachment]
  · rw [if_neg heq, Option.or_none]
    cases (t.attachments asked).get? called with
    | some s => rfl
    | none =>
        simp only [Resolver.attachments_keepAttachment]
        split
        · next hkind =>
            subst hkind
            rw [SortedMap.get?_insert, if_neg (fun hname => heq ⟨rfl, hname⟩)]
        · rfl

/-- After questions only, the schema of the first entry asked about is kept. -/
theorem get?_attachments_tablesAfterUses (hkeep : r.policy = .keep) {uses : List Use}
    (huses : ∀ use ∈ uses, use.isQuestion = true) (kind : AttachmentKind) (name : String) :
    ((tablesAfterUses r uses).attachments kind).get? name =
      (firstAsked? kind name uses).map (r.attachmentSchema kind) := by
  have hfold : ∀ (uses : List Use) (t : SchemaTables),
      (∀ use ∈ uses, use.isQuestion = true) →
      ((uses.foldl (fun t use => ((use.question r).ask t).2) t).attachments kind).get? name =
        ((t.attachments kind).get? name).or
          ((firstAsked? kind name uses).map (r.attachmentSchema kind)) := by
    intro uses
    induction uses with
    | nil => intro t _; simp [firstAsked?]
    | cons use rest ih =>
        intro t huses
        rw [List.foldl_cons, ih _ (fun other hother => huses other (List.mem_cons_of_mem _ hother)),
          ask_question_tables r t (huses use List.mem_cons_self), firstAsked?_cons]
        cases use with
        | attachment asked resource called attached raw =>
            simp only [get?_attachments_tablesAfter hkeep, Option.or_assoc, Use.asked?]
            by_cases heq : asked = kind ∧ called = name <;> simp [heq]
        | entry asked key raw => simp [Use.asked?]
        | resource key raw namespaces permissions => simp [Use.asked?]
        | compile time store => exact absurd (huses _ List.mem_cons_self) nofun
  have hempty : (SchemaTables.empty.attachments kind).get? name = none := by
    cases kind <;> rfl
  rw [tablesAfterUses, hfold uses .empty huses, hempty, Option.none_or]

/-- After questions only, a question about an attachment is answered for the first entry
that was asked about under its name. -/
theorem attachment_answer_tablesAfterUses (hkeep : r.policy = .keep) {past : List Use}
    (hpast : ∀ use ∈ past, use.isQuestion = true) (kind : AttachmentKind)
    (resource name : String) (entry raw : Options) :
    (Use.attachment kind resource name entry raw).answer r (tablesAfterUses r past) =
      (Use.attachment kind resource name ((firstAsked? kind name past).getD entry) raw).answer
        r .empty := by
  have hanswer : ∀ t e, (Use.attachment kind resource name e raw).answer r t =
      (r.attachmentAnswer t kind resource name e raw).map Answer.options := by
    intro t e
    unfold Use.answer Resolver.attachmentAnswer
    show (ask (r.resolveAttachment kind resource name e raw >>= _) t).1 = _
    rw [ask_bind]
    rcases (r.resolveAttachment kind resource name e raw).ask t with ⟨_ | _, _⟩ <;> rfl
  have hempty : (SchemaTables.empty.attachments kind).get? name = none := by
    cases kind <;> rfl
  rw [hanswer, hanswer, Resolver.attachmentAnswer_eq, Resolver.attachmentAnswer_eq]
  have hschema : r.schemaInForce (tablesAfterUses r past) kind name entry =
      r.schemaInForce .empty kind name ((firstAsked? kind name past).getD entry) := by
    unfold Resolver.schemaInForce
    simp only [hkeep, get?_attachments_tablesAfterUses hkeep hpast, hempty]
    cases firstAsked? kind name past <;> rfl
  rw [hschema]

/-- What a shared resolver remembers: a use is answered as by a fresh resolver, unless an
entry of another schema was brought before under a name that it brings an entry under;
and after questions only, the first entry asked about under a name is the one that counts. -/
theorem shared_resolver (r : Resolver) :
    (∀ (past : List Use) (next : Use),
      (r.policy = .keep → ∀ use ∈ next :: past, ∀ kind name entry other,
        next.Brings r kind name entry → use.Brings r kind name other →
        r.attachmentSchema kind other = r.attachmentSchema kind entry) →
      next.answer r (tablesAfterUses r past) = next.answer r .empty) ∧
    ∀ past : List Use, r.policy = .keep → (∀ use ∈ past, use.isQuestion = true) →
      ∀ kind resource name entry raw,
        (Use.attachment kind resource name entry raw).answer r (tablesAfterUses r past) =
          (Use.attachment kind resource name
            ((firstAsked? kind name past).getD entry) raw).answer r .empty :=
  ⟨fun _ _ h => answer_tablesAfterUses h,
    fun _ hkeep hpast kind resource name entry raw =>
      attachment_answer_tablesAfterUses hkeep hpast kind resource name entry raw⟩

namespace Blog

def resolver : Resolver :=
  Resolver.ofCatalog (Catalog.empty.registerAction { name := "blog::View" })

/-- An entry called `view` that declares a layout. -/
def view (layout : String) : Options :=
  SortedMap.ofList [("class", .string "blog::View"), ("name", .string "view"),
    ("options", .object (SortedMap.singleton "layout" (.string layout)))]

/-- A resource attaches the entry without options. -/
def attach (resource layout : String) : Use :=
  .attachment .action resource "view" (view layout) ∅

/-- The layout in an answer. -/
def layout? (answer : Except Failure Answer) : Option String :=
  match answer with
  | .ok (.options resolved) => resolved.str? "layout"
  | _ => none

end Blog

/-- A resolver that was asked about one entry does not answer for another of its name. -/
theorem second_layout_ignored :
    (Blog.attach "post" "narrow").answer Blog.resolver
        (tablesAfterUses Blog.resolver [Blog.attach "post" "wide"]) ≠
      (Blog.attach "post" "narrow").answer Blog.resolver .empty := by
  intro h
  have hkept : Blog.layout? ((Blog.attach "post" "narrow").answer Blog.resolver
      (tablesAfterUses Blog.resolver [Blog.attach "post" "wide"])) = some "wide" := by
    decide +kernel
  have hfresh : Blog.layout? ((Blog.attach "post" "narrow").answer Blog.resolver .empty) =
      some "narrow" := by
    decide +kernel
  rw [h, hfresh] at hkept
  exact absurd hkept (by decide)

theorem shared_resolver_blog :
    (Blog.attach "page" "wide").answer Blog.resolver
        (tablesAfterUses Blog.resolver [Blog.attach "post" "wide"]) =
      (Blog.attach "page" "wide").answer Blog.resolver .empty ∧
    (Blog.attach "post" "narrow").answer Blog.resolver
        (tablesAfterUses Blog.resolver [Blog.attach "post" "wide"]) =
      (Blog.attach "post" "wide").answer Blog.resolver .empty := by
  constructor
  · refine (shared_resolver Blog.resolver).1 _ _ (fun _ use huse kind name entry other h h' => ?_)
    obtain ⟨-, -, rfl⟩ := h
    rcases List.mem_cons.1 huse with rfl | huse
    · obtain ⟨-, -, rfl⟩ := h'
      rfl
    · cases List.mem_singleton.1 huse
      obtain ⟨-, -, rfl⟩ := h'
      rfl
  · refine (shared_resolver Blog.resolver).2 [Blog.attach "post" "wide"] rfl
      (fun use huse => ?_) .action "post" "view" (Blog.view "narrow") ∅
    cases List.mem_singleton.1 huse
    rfl

end ConfigCompiler
