import ConfigCompiler.Proofs.RequiredPermissions
import ConfigCompiler.Proofs.StoredKinds

/-!
# References to permissions

A resource lists permissions, and the actions that it attaches require some.  The first phase
looks at what is listed, and the second at what is required.  Both look into one set, but
only the second follows aliases.

**Input.**  A set of permissions and a list of references, which one resource lists and the
actions of another require.

**Property.**  `Compared`: how either phase ends, and what it records.

**Results.**
* `answer_resolveResource`, `propagatePermissions_eq`: the two checks, each in closed form.
* `permission_references`: what may be listed may be required, and is recorded alike.
* `read_required_not_listed`: the converse fails for an alias.
-/

namespace ConfigCompiler
namespace Draft

open Resolution

variable {r : Resolver} {t : SchemaTables} {d : Draft} {permissions : EntrySet}
variable {references : List String} {key resource p : String} {raw resolved : Options}

/-- A permission that is no name. -/
def isNoName (permissions : EntrySet) (permission : String) : Bool :=
  !permissions.configs.contains permission

/-- The names are the texts that lead to themselves. -/
theorem canonical?_self_iff :
    permissions.canonical? p = some p ↔ permissions.configs.contains p = true :=
  ⟨EntrySet.contains_of_canonical?, EntrySet.canonical?_of_contains⟩

/-- A resource that is resolved and has a namespace passes the first phase unless it lists what
is no name. -/
theorem answer_resolveResource (permissions : EntrySet) {namespaces : SortedMap Options}
    (hresolved : r.entryAnswer t .resource key raw = .ok resolved)
    (hnamespace :
      Resolver.checkNamespace resolved (Resolver.entryName resolved key) namespaces = .ok ()) :
    ((r.resolveResource key raw namespaces permissions.configs).ask t).1 =
      match (resolved.strings "permissions").find? (isNoName permissions) with
      | some p => .error (.unknownPermission (Resolver.entryName resolved key) p)
      | none => .ok resolved := by
  have hreturns := Resolver.returns_resolveEntry.2 ⟨hresolved, rfl⟩
  unfold Resolver.resolveResource
  rw [ask_bind_of_returns hreturns]
  show (ask (liftM (Resolver.checkNamespace resolved (Resolver.entryName resolved key)
    namespaces) >>= _) _).1 = _
  rw [hnamespace]
  show (ask (liftM (Resolver.checkPermissions resolved (Resolver.entryName resolved key)
    permissions.configs) >>= _) _).1 = _
  unfold Resolver.checkPermissions isNoName
  cases (resolved.strings "permissions").find? fun p => !permissions.configs.contains p <;> rfl

/-- A resource passes the second phase unless its actions require what leads nowhere. -/
theorem propagatePermissions_eq (d : Draft) (resource : String) :
    d.propagatePermissions resource =
      match (d.wantedPermissions resource).find? (isUnknown d.sets.permissions) with
      | some p => .error (.unknownPermission resource p)
      | none => .ok (d.putResource resource ((d.resource resource).insert "permissions"
          (.strings (withRequired d.sets.permissions
            ((d.resource resource).strings "permissions") (d.wantedPermissions resource))))) := by
  show ((d.wantedPermissions resource).foldlM (requirePermission d.sets.permissions resource)
    ((d.resource resource).strings "permissions") >>= fun required => .ok (d.putResource resource
      ((d.resource resource).insert "permissions" (.strings required)))) = _
  rw [requirePermissions_eq]
  cases (d.wantedPermissions resource).find? (isUnknown d.sets.permissions) <;> rfl

/-- A resource called `lister` lists the references, and the actions of `resource` require
them.  `listing` is how the first phase ends for the one, `requiring` how the second ends for
the other. -/
structure Compared (permissions : EntrySet) (references : List String) (lister : String)
    (resolved : Options) (listing : Except Failure Options) (resource : String) (d : Draft)
    (requiring : Except Failure Draft) : Prop where
  /-- Names may be listed, and are recorded as they are. -/
  listed : listing = .ok resolved ↔
    ∀ p ∈ references, permissions.canonical? p = some p
  /-- Of other references the first is reported, even if it is an alias. -/
  refused : ∀ f, listing = .error f ↔
    ∃ p, references.find? (isNoName permissions) = some p ∧ f = .unknownPermission lister p
  /-- What leads to a name may be required. -/
  required : (∃ d', requiring = .ok d') ↔
    ∀ p ∈ references, ∃ name, permissions.canonical? p = some name
  /-- Of other references the first is reported. -/
  unknown : ∀ f, requiring = .error f ↔
    ∃ p, references.find? (isUnknown permissions) = some p ∧ f = .unknownPermission resource p
  /-- What is required is recorded under the names that it leads to. -/
  recorded : ∀ d', requiring = .ok d' → ∀ name,
    name ∈ (d'.resource resource).strings "permissions" ↔
      name ∈ (d.resource resource).strings "permissions" ∨
        ∃ p ∈ references, permissions.canonical? p = some name
  /-- What may be listed may be required, and is recorded as it is. -/
  agree : listing = .ok resolved → ∃ d', requiring = .ok d' ∧
    ∀ p ∈ references, p ∈ (d'.resource resource).strings "permissions"
  /-- What may be required may be listed exactly if it is what is recorded. -/
  differ : (∃ d', requiring = .ok d') →
    (listing = .ok resolved ↔
      ∀ p ∈ references, ∀ name, permissions.canonical? p = some name → name = p)

/-- How a search among the references ends. -/
theorem find?_isNoName_eq_none :
    references.find? (isNoName permissions) = none ↔
      ∀ p ∈ references, permissions.canonical? p = some p := by
  simp [List.find?_eq_none, isNoName, canonical?_self_iff]

theorem find?_isUnknown_eq_none :
    references.find? (isUnknown permissions) = none ↔
      ∀ p ∈ references, ∃ name, permissions.canonical? p = some name := by
  simp [List.find?_eq_none, isUnknown, Option.ne_none_iff_exists']

theorem compared {namespaces : SortedMap Options}
    (hresolved : r.entryAnswer t .resource key raw = .ok resolved)
    (hnamespace :
      Resolver.checkNamespace resolved (Resolver.entryName resolved key) namespaces = .ok ())
    (hlists : resolved.strings "permissions" = references)
    (hset : d.sets.permissions = permissions)
    (hwants : d.wantedPermissions resource = references) :
    Compared permissions references (Resolver.entryName resolved key) resolved
      ((r.resolveResource key raw namespaces permissions.configs).ask t).1 resource d
      (d.propagatePermissions resource) := by
  have hlisting := answer_resolveResource permissions hresolved hnamespace
  have hrequiring := propagatePermissions_eq d resource
  rw [hlists] at hlisting
  rw [hset, hwants] at hrequiring
  have hlisted : ((r.resolveResource key raw namespaces permissions.configs).ask t).1 =
      .ok resolved ↔ ∀ p ∈ references, permissions.canonical? p = some p := by
    rw [hlisting, ← find?_isNoName_eq_none]
    cases references.find? (isNoName permissions) <;> simp
  have hrequired : (∃ d', d.propagatePermissions resource = .ok d') ↔
      ∀ p ∈ references, ∃ name, permissions.canonical? p = some name := by
    rw [hrequiring, ← find?_isUnknown_eq_none]
    cases references.find? (isUnknown permissions) <;> simp
  have hrecorded : ∀ d', d.propagatePermissions resource = .ok d' → ∀ name,
      name ∈ (d'.resource resource).strings "permissions" ↔
        name ∈ (d.resource resource).strings "permissions" ∨
          ∃ p ∈ references, permissions.canonical? p = some name := by
    intro d' hd' name
    rw [hrequiring] at hd'
    split at hd'
    · cases hd'
    · obtain rfl := Except.ok.inj hd'
      rw [resource_putResource, if_pos rfl,
        Options.strings_of_get? (SortedMap.get?_insert_self _ _ _), mem_withRequired]
  refine ⟨hlisted, fun f => ?_, hrequired, fun f => ?_, hrecorded, fun hlists => ?_,
    fun hrequires => ?_⟩
  · rw [hlisting]
    cases references.find? (isNoName permissions) <;> simp [eq_comm]
  · rw [hrequiring]
    cases references.find? (isUnknown permissions) <;> simp [eq_comm]
  · obtain ⟨d', hd'⟩ := hrequired.2 (fun p hp => ⟨p, hlisted.1 hlists p hp⟩)
    exact ⟨d', hd', fun p hp => (hrecorded d' hd' p).2 (Or.inr ⟨p, hp, hlisted.1 hlists p hp⟩)⟩
  · rw [hlisted]
    refine forall₂_congr (fun p hp => ⟨fun hself name hname => ?_, fun hsame => ?_⟩)
    · exact Option.some.inj (hname.symm.trans hself)
    · obtain ⟨name, hname⟩ := hrequired.1 hrequires p hp
      rw [hname, hsame name hname]

/-- What an action requires in a compiled configuration is recorded under the name that it
leads to.  If a resource lists it too, then that is what is listed, and both record it. -/
theorem recorded_of_finalize {store : EntryStore} {time : Timestamp} {d' : Draft}
    {t₁ t₂ : SchemaTables} {compiled : Compiled} {config : Options}
    (hbuild : (build r store).Returns t d t₁)
    (hfinal : (d.finalize r time).Returns t₁ (compiled, d') t₂)
    (hconfig : compiled.sets.resources.configs.get? resource = some config)
    (hrequires : p ∈ actionPermissions (attachmentsOf config .action)) :
    ∃ name, compiled.sets.permissions.canonical? p = some name ∧
      name ∈ config.strings "permissions" ∧
      ∀ lister before, d.sets.resources.configs.get? lister = some before →
        p ∈ before.strings "permissions" →
        name = p ∧ ∃ after, compiled.sets.resources.configs.get? lister = some after ∧
          p ∈ after.strings "permissions" := by
  obtain ⟨hknown, hget⟩ := permissions_of_finalize hfinal hconfig
  obtain ⟨name, hname⟩ := Option.ne_none_iff_exists'.1 (hknown p hrequires)
  refine ⟨name, hname, ?_, fun lister before hbefore hlists => ?_⟩
  · rw [Options.strings_of_get? hget, mem_withRequired]
    exact Or.inr ⟨p, hrequires, hname⟩
  · obtain ⟨hsets, t₃, hresources⟩ := finalize_returns hfinal
    obtain ⟨hchanges, -⟩ := finalizeResources_settles hresources
    have hstored : compiled.sets.permissions.configs.contains p = true := by
      rw [hsets, hchanges.permissions_eq]
      exact (coherent_build hbuild).1.permissions lister before p hbefore hlists
    refine ⟨Option.some.inj (hname.symm.trans (EntrySet.canonical?_of_contains hstored)), ?_⟩
    have hthere : compiled.sets.resources.configs.contains lister = true := by
      rw [hsets, hchanges.stored_eq]
      exact SortedMap.contains_of_get? hbefore
    obtain ⟨after, hafter⟩ := SortedMap.exists_of_contains hthere
    refine ⟨after, hafter, ?_⟩
    rw [Options.strings_of_get? (permissions_of_finalize hfinal hafter).2, mem_withRequired,
      resource_of_get? hbefore]
    exact Or.inl hlists

/-- References that a resource lists, and those that actions require, are looked up in one set
of permissions.  What may be listed may be required, and the same name is recorded.  The
converse holds for names only: an alias may be required, but not listed. -/
theorem permission_references (r : Resolver) :
    (∀ (permissions : EntrySet) (references : List String) (t : SchemaTables) (key : String)
        (raw resolved : Options) (namespaces : SortedMap Options) (d : Draft)
        (resource : String),
      r.entryAnswer t .resource key raw = .ok resolved →
      Resolver.checkNamespace resolved (Resolver.entryName resolved key) namespaces = .ok () →
      resolved.strings "permissions" = references →
      d.sets.permissions = permissions →
      d.wantedPermissions resource = references →
      Compared permissions references (Resolver.entryName resolved key) resolved
        ((r.resolveResource key raw namespaces permissions.configs).ask t).1 resource d
        (d.propagatePermissions resource)) ∧
    ∀ store time t d t₁ compiled d' t₂, (build r store).Returns t d t₁ →
      (d.finalize r time).Returns t₁ (compiled, d') t₂ →
      ∀ requirer config p, compiled.sets.resources.configs.get? requirer = some config →
        p ∈ actionPermissions (attachmentsOf config .action) →
        ∃ name, compiled.sets.permissions.canonical? p = some name ∧
          name ∈ config.strings "permissions" ∧
          ∀ lister before, d.sets.resources.configs.get? lister = some before →
            p ∈ before.strings "permissions" →
            name = p ∧ ∃ after, compiled.sets.resources.configs.get? lister = some after ∧
              p ∈ after.strings "permissions" :=
  ⟨fun _ _ _ _ _ _ _ _ _ => compared,
    fun _ _ _ _ _ _ _ _ hbuild hfinal _ _ _ => recorded_of_finalize hbuild hfinal⟩

namespace ReadingRoom

def resolver : Resolver :=
  Resolver.ofCatalog (Catalog.empty.registerAction { name := "room::Lend" })

def person (more : String × Value) : Options :=
  SortedMap.ofList [("entity", .string "Person"), ("namespace", .string "room"), more]

/-- An attachment that requires the permission. -/
def lends : String × Value :=
  ("actions", .object (SortedMap.singleton "lend"
    (.object (SortedMap.singleton "permissions" (.strings ["read"])))))

/-- A list that names the permission. -/
def lists (reference : String) : String × Value := ("permissions", .strings [reference])

/-- The permission `view` was declared as `read`. -/
def store (resources : List (String × Options)) : EntryStore where
  catalog := resolver.catalog
  entries :=
    { permissions := SortedMap.singleton "read" (SortedMap.singleton "name" (.string "view"))
      actions := SortedMap.singleton "lend" (SortedMap.singleton "class" (.string "room::Lend"))
      behaviors := ∅
      namespaces := SortedMap.singleton "room" ∅
      resources := SortedMap.ofList resources }

/-- The clerk lends, and the visitor lists the name of the permission. -/
def opened : EntryStore := store [("clerk", person lends), ("visitor", person (lists "view"))]

/-- The visitor who would list the alias. -/
def visitor : Options := person (lists "read")

/-- What is resolved of that visitor. -/
def resolves (resolved : Options) : Bool :=
  resolved.strings "permissions" == ["read"] && resolved.str? "namespace" == some "room" &&
    Resolver.entryName resolved "visitor" == "visitor"

/-- The clerk requires the alias, before and after the second phase. -/
def requires (d : Draft) (compiled : Compiled) : Bool :=
  d.wantedPermissions "clerk" == ["read"] && d.sets.namespaces.configs.contains "room" &&
    (compiled.sets.resources.configs.get? "clerk").any (fun config =>
      (actionPermissions (attachmentsOf config .action)).contains "read")

/-- The visitor is resolved and has a namespace. -/
theorem resolved_visitor :
    ∃ resolved, resolver.entryAnswer .empty .resource "visitor" visitor = .ok resolved ∧
      resolves resolved = true :=
  check_of_any (by decide +kernel)

theorem checkNamespace_room {resolved : Options} {namespaces : SortedMap Options} (name : String)
    (hroom : resolved.str? "namespace" = some "room")
    (hstored : namespaces.contains "room" = true) :
    Resolver.checkNamespace resolved name namespaces = .ok () := by
  simp [Resolver.checkNamespace, hroom, hstored]

end ReadingRoom

theorem permission_references_room :
    ∃ d t₁ compiled d' t₂ config resolved,
      (build ReadingRoom.resolver ReadingRoom.opened).Returns .empty d t₁ ∧
      (d.finalize ReadingRoom.resolver ⟨0, 0, 0⟩).Returns t₁ (compiled, d') t₂ ∧
      compiled.sets.resources.configs.get? "clerk" = some config ∧
      (∃ name, compiled.sets.permissions.canonical? "read" = some name ∧
        name ∈ config.strings "permissions") ∧
      Compared d.sets.permissions ["read"] "visitor" resolved
        ((ReadingRoom.resolver.resolveResource "visitor" ReadingRoom.visitor
          d.sets.namespaces.configs d.sets.permissions.configs).ask .empty).1 "clerk" d
        (d.propagatePermissions "clerk") := by
  obtain ⟨hcompared, hcompiled⟩ := permission_references ReadingRoom.resolver
  obtain ⟨resolved, hresolved, htest⟩ := ReadingRoom.resolved_visitor
  simp only [ReadingRoom.resolves, Bool.and_eq_true, beq_iff_eq] at htest
  obtain ⟨⟨hlists, hroom⟩, hname⟩ := htest
  obtain ⟨d, t₁, compiled, d', t₂, hbuild, hfinal, hrequires⟩ :=
    bothPhases_returns ReadingRoom.resolver ⟨0, 0, 0⟩ ReadingRoom.opened .empty
      (fun result => ReadingRoom.requires result.1 result.2.1) (by decide +kernel)
  simp only [ReadingRoom.requires, Bool.and_eq_true, beq_iff_eq] at hrequires
  obtain ⟨⟨hwants, hstored⟩, hclerk⟩ := hrequires
  obtain ⟨config, hconfig, hread⟩ := (Option.any_eq_true _ _).1 hclerk
  obtain ⟨name, hleads, hrecorded, -⟩ := hcompiled _ _ _ d t₁ compiled d' t₂ hbuild hfinal
    "clerk" config "read" hconfig (List.contains_iff_mem.1 hread)
  have hcomparison := hcompared d.sets.permissions ["read"] .empty "visitor" ReadingRoom.visitor
    resolved d.sets.namespaces.configs d "clerk" hresolved
    (ReadingRoom.checkNamespace_room _ hroom hstored) hlists rfl hwants
  rw [hname] at hcomparison
  exact ⟨d, t₁, compiled, d', t₂, config, resolved, hbuild, hfinal, hconfig,
    ⟨name, hleads, hrecorded⟩, hcomparison⟩

/-- A permission that was declared as `read` and is called `view` may be required as `read` in
the second phase, but not listed so in the first. -/
theorem read_required_not_listed :
    ¬ ∀ (r : Resolver) (store : EntryStore) (d : Draft) (t' : SchemaTables) (p key : String)
        (raw resolved : Options) (resource : String),
      (build r store).Returns .empty d t' →
      isValidName p = true → normalizeName p = p →
      r.entryAnswer .empty .resource key raw = .ok resolved →
      Resolver.checkNamespace resolved (Resolver.entryName resolved key)
        d.sets.namespaces.configs = .ok () →
      resolved.strings "permissions" = [p] → d.wantedPermissions resource = [p] →
      (((r.resolveResource key raw d.sets.namespaces.configs d.sets.permissions.configs).ask
          .empty).1 = .ok resolved ↔ ∃ d', d.propagatePermissions resource = .ok d') := by
  intro halways
  obtain ⟨resolved, hresolved, htest⟩ := ReadingRoom.resolved_visitor
  simp only [ReadingRoom.resolves, Bool.and_eq_true, beq_iff_eq] at htest
  obtain ⟨⟨hlists, hroom⟩, -⟩ := htest
  obtain ⟨d, t', hbuild, hd⟩ := returns_of_any
    (x := build ReadingRoom.resolver ReadingRoom.opened) (t := .empty)
    (p := fun d => d.wantedPermissions "clerk" == ["read"] &&
      d.sets.namespaces.configs.contains "room" &&
      d.sets.permissions.canonical? "read" == some "view")
    (by decide +kernel)
  simp only [Bool.and_eq_true, beq_iff_eq] at hd
  obtain ⟨⟨hwants, hstored⟩, hleads⟩ := hd
  have hnamespace := ReadingRoom.checkNamespace_room (Resolver.entryName resolved "visitor") hroom
    hstored
  have hiff := halways ReadingRoom.resolver ReadingRoom.opened d t' "read" "visitor"
    ReadingRoom.visitor resolved "clerk" hbuild (by decide +kernel) (by decide +kernel) hresolved
    hnamespace hlists hwants
  have hcompared := compared hresolved hnamespace hlists rfl hwants
  have hself := hcompared.listed.1
    (hiff.2 (hcompared.required.2 (by simpa using ⟨"view", hleads⟩))) "read" (by simp)
  rw [hleads] at hself
  revert hself
  decide

end Draft
end ConfigCompiler
