import ConfigCompiler.Proofs.AliasOwnership
import ConfigCompiler.Proofs.Registrations
import ConfigCompiler.Proofs.SchemaLaws

/-!
# Discovered types

A key that leads nowhere but denotes a registered type is discovered, which is to say that
the type is declared at last.  The catalog takes any text for the name of a type, and the
store looks at the text again: only a type identifier starts from the defaults of its type.

**Input.**  `typeEntry` is the bag that a type starts from, and `optionsOf` what a bag is
resolved to when it is declared in the first phase.

**Property.**  `Declares … bag d t`: looking the key up in the draft `d` ends as declaring
`bag` does.

**Results.**
* `EntryStore.firstEntry_of_identifier`, `EntryStore.firstEntry_of_other`: what is stored
  first.
* `Ledger.get?_eq_none`: a key that leads nowhere is not in the store.
* `ask_canonicalName_of_lost`: a discovery in closed form.
* `Lost.declares`: a discovery ends as a declaration.
* `discovered_types`: type identifiers are declared with the defaults and the class of their
  type, and other names with nothing.
* `varnish_not_discovered`: a type with a short name is not discovered.
-/

namespace ConfigCompiler

open Resolution

namespace EntryStore

variable {s : EntryStore} {kind : EntityKind} {key : String}

/-- What the entry of a registered type starts from: the defaults of the type, and the type
as its class. -/
def typeEntry (catalog : Catalog) (kind : EntityKind) (type : String) : Options :=
  ((catalog.defaultsOf? kind type).getD ∅).insert "class" (.string type)

/-- A type identifier that is registered starts from its type. -/
theorem firstEntry_of_identifier {catalog : Catalog} (hkind : isTyped kind = true)
    (hidentifier : isTypeIdentifier key = true) (htype : catalog.hasType kind key = true) :
    firstEntry catalog kind key ∅ = .ok (typeEntry catalog kind key) := by
  rw [← Catalog.isSome_defaultsOf?] at htype
  obtain ⟨defaults, hdefaults⟩ := Option.isSome_iff_exists.1 htype
  simp [firstEntry, typeEntry, hkind, hidentifier, hdefaults, SortedMap.contains]

/-- Any other key starts from nothing, whether a type is registered under it or not. -/
theorem firstEntry_of_other {catalog : Catalog} (hother : isTypeIdentifier key = false) :
    firstEntry catalog kind key ∅ =
      if isValidName (deriveName kind key) then .ok ∅
      else .error (.invalidIdentifier kind key) := by
  simp [firstEntry, hother]

/-- A key is added for the first time. -/
theorem add_of_new (hnew : s.get? kind key = none) :
    s.add kind key ∅ =
      (firstEntry s.catalog kind key ∅).map fun bag => (bag, s.put kind key bag) := by
  unfold add nextEntry
  rw [hnew]
  cases firstEntry s.catalog kind key ∅ <;> rfl

end EntryStore

section Entered

variable {kind : EntityKind} {entries : List ResolvedEntry} {s : EntrySet} {e : ResolvedEntry}
variable {x : String}

/-- A text that leads nowhere is no name, and no entry claims it. -/
theorem Entered.lost (h : Entered kind entries s) (hempty : x ≠ "")
    (hlost : s.canonical? x = none) :
    x ∉ entries.map ResolvedEntry.name ∧ ∀ e ∈ entries, ¬ e.Claims kind x := by
  rw [h.canonical?_eq, if_neg hempty] at hlost
  split at hlost
  · cases hlost
  · next hname =>
      refine ⟨hname, fun e he hclaims => ?_⟩
      exact List.find?_eq_none.1 (Option.map_eq_none_iff.1 hlost) e he
        (ResolvedEntry.contains_claims.2 hclaims)

/-- A text that led nowhere leads to the next entry that claims it. -/
theorem Entered.canonical?_enter (h : Entered kind entries s) (hempty : x ≠ "")
    (hlost : s.canonical? x = none) (hfree : s.configs.contains e.name = false)
    (hclaims : e.Claims kind x) :
    EntrySet.canonical?
      (({ s with configs := s.configs.insert e.name e.options } : EntrySet).addAliases
        kind e.name (e.claims kind)).1 x = some e.name := by
  obtain ⟨hname, hnone⟩ := h.lost hempty hlost
  have hbefore : entries.find? (fun e => (e.claims kind).contains x) = none :=
    List.find?_eq_none.2 (fun e he hclaimed =>
      hnone e he (ResolvedEntry.contains_claims.1 hclaimed))
  have hnext : (entries ++ [e]).find? (fun e => (e.claims kind).contains x) = some e := by
    rw [List.find?_append, hbefore, Option.none_or, List.find?_singleton,
      if_pos (ResolvedEntry.contains_claims.2 hclaims)]
  rw [(h.enter hfree).canonical?_eq, hnext]
  -- a text that is the name of the entry leads to it as a name, and else as an alias
  by_cases heq : x = e.name
  · simp [heq]
  · simp [hname, heq, hempty]

end Entered

namespace Draft

variable {r : Resolver} {d d' : Draft} {t t₀ t' : SchemaTables} {store : EntryStore}
variable {kind : AttachmentKind} {resource key name : String} {bag resolved : Options}
variable {entries : PerKind (List ResolvedEntry)} {stored : EntrySet}

/-- A key in the store leads to the entry that claims it. -/
theorem Ledger.get?_eq_none (h : Ledger r t stored entries d) (hempty : key ≠ "")
    (hlost : (d.attachable kind).canonical? key = none) :
    d.store.get? kind.kind key = none := by
  cases hget : d.store.get? kind.kind key with
  | none => rfl
  | some raw =>
      obtain ⟨e, he, rfl, -⟩ := h.accounted.exists_of_get? hget
      obtain ⟨-, hnone⟩ := (h.entered kind).lost hempty hlost
      exact absurd (Or.inl rfl) (hnone e he)

/-- The catalog of the store is never replaced. -/
theorem lasting_catalog (r : Resolver) (catalog : Catalog) :
    Lasting r (fun d _ => d.store.catalog = catalog) where
  discover := by
    intro kind key d t name d' t' h _ _ hdiscover
    obtain ⟨raw, added, resolved, hadd, -, hregister⟩ := discover_returns hdiscover
    obtain ⟨rfl, -⟩ := EntryStore.add_empty_eq_ok hadd
    obtain ⟨set, collisions, rfl, -⟩ := register_eq_ok hregister
    exact h
  ask := fun _ _ _ _ _ h => h

/-- What is known where a key leads nowhere in the second phase: neither store holds it, the
catalog is that of the first phase, and entries are resolved as they were there. -/
structure Lost (r : Resolver) (t₀ : SchemaTables) (store : EntryStore) (kind : AttachmentKind)
    (key : String) (d : Draft) (t : SchemaTables) : Prop where
  nonempty : key ≠ ""
  nowhere : (d.attachable kind).canonical? key = none
  undeclared : store.get? kind.kind key = none
  unstored : d.store.get? kind.kind key = none
  catalog : d.store.catalog = store.catalog
  sameKinds : r.SameKinds t₀ t
  entered : ∃ entries, Entered kind.kind entries (d.attachable kind)

theorem KeyAsked.lost (hbuild : (build r store).Returns t₀ d t)
    (hasked : KeyAsked r d t kind resource key d' t') (hempty : key ≠ "")
    (hlost : (d'.attachable kind).canonical? key = none) : Lost r t₀ store kind key d' t' := by
  obtain ⟨entries, stored, -, hledger, rfl, hsame, -⟩ := ledger_build hbuild
  obtain ⟨hsame', entries', -, hledger'⟩ := hasked.lasting
    (lasting_grownFrom r t₀ stored entries) (lastingPut_grownFrom r t₀ stored entries)
    ⟨hsame, entries, Gains.refl r entries, hledger⟩
  have hbefore : (d.attachable kind).canonical? key = none := by
    cases hkey : (d.attachable kind).canonical? key with
    | none => rfl
    | some name =>
        rw [(hasked.extends kind).canonical?_eq hkey] at hlost
        cases hlost
  exact {
    nonempty := hempty
    nowhere := hlost
    undeclared := hledger.get?_eq_none hempty hbefore
    unstored := hledger'.get?_eq_none hempty hlost
    catalog := hasked.lasting (lasting_catalog r d.store.catalog) (fun _ _ _ _ h => h) rfl
    sameKinds := hsame'
    entered := ⟨_, hledger'.entered kind⟩ }

/-- What a bag is resolved to that is declared under a key. -/
def optionsOf (r : Resolver) (t : SchemaTables) (kind : AttachmentKind) (key : String)
    (bag : Options) : Except Violation Options :=
  (r.kindInForce t kind.kind).schema.resolve (Resolver.withName kind.kind key bag)

/-- A registered type is looked up under a key that leads nowhere. -/
theorem ask_canonicalName_of_lost (resource : String) (t : SchemaTables) {added : EntryStore}
    (hlost : (d.attachable kind).canonical? key = none)
    (htype : r.catalog.hasType kind.kind key = true)
    (hadd : d.store.add kind.kind key ∅ = .ok (bag, added)) :
    (d.canonicalName r kind resource key).ask t =
      ((optionsOf r t kind key bag).mapError (Failure.invalid kind.kind key) >>= fun resolved =>
          ({ d with store := added }).register kind.kind key resolved [],
        r.tablesAfterKind t kind.kind) := by
  unfold canonicalName discover optionsOf
  rw [hlost]
  show ask (if r.catalog.hasType kind.kind key = true then _ else _) t = _
  rw [if_pos htype]
  show ask (liftM (d.store.add kind.kind key ∅) >>= _) t = _
  rw [hadd]
  show ask (r.resolveEntry kind.kind key bag >>= _) t = _
  rw [ask_bind, Resolver.ask_resolveEntry]
  cases (r.kindInForce t kind.kind).schema.resolve (Resolver.withName kind.kind key bag) <;> rfl

/-- A registered type is looked up under a key that the store refuses. -/
theorem fails_canonicalName_of_lost {f : Failure}
    (hlost : (d.attachable kind).canonical? key = none)
    (htype : r.catalog.hasType kind.kind key = true)
    (hadd : d.store.add kind.kind key ∅ = .error f) :
    (d.canonicalName r kind resource key).Fails t f t := by
  unfold canonicalName discover
  rw [hlost]
  show Fails (if r.catalog.hasType kind.kind key = true then _ else _) t f t
  rw [if_pos htype]
  exact fails_bind.2 (Or.inl (fails_lift.2 ⟨hadd, rfl⟩))

/-- A type is its own class, unless the schema writes classes differently. -/
theorem class_of_optionsOf {catalog : Catalog}
    (hnormal : (r.kindInForce t kind.kind).schema.normalizers "class" = [])
    (h : optionsOf r t kind key (EntryStore.typeEntry catalog kind.kind key) = .ok resolved) :
    resolved.str? "class" = some key := by
  have hget : resolved.get? "class" = some (.string key) := by
    rw [Schema.get?_of_resolve h hnormal, Schema.get?_complete,
      Resolver.get?_withName (by decide), EntryStore.typeEntry, SortedMap.get?_insert_self]
    rfl
  rw [Options.str?, hget, Option.bind_some, Value.str?_string]

/-- What is declared with nothing violates a schema that requires a class. -/
theorem optionsOf_empty (hrequired : (r.kindInForce t kind.kind).schema.requires "class" = true)
    (hdefault : (r.kindInForce t kind.kind).schema.default? "class" = none) :
    ∃ violation, optionsOf r t kind key ∅ = .error violation := by
  cases h : optionsOf r t kind key ∅ with
  | error violation => exact ⟨violation, rfl⟩
  | ok resolved =>
      obtain ⟨rule, hrule, hclass⟩ := (Option.any_eq_true _ _).1 hrequired
      have hsome := Schema.isSome_of_required h hrule hclass
      rw [Schema.isSome_of_resolve h, (Schema.get?_of_no_default _ hdefault).2,
        Resolver.get?_withName (by decide)] at hsome
      cases hsome

/-- The draft gained the entry, and nothing else but aliases of it. -/
structure GainsEntry (kind : AttachmentKind) (key name : String) (resolved : Options)
    (d d' : Draft) : Prop where
  changes : Changes [kind] [] [] d d'
  configs : (d'.attachable kind).configs = (d.attachable kind).configs.insert name resolved
  byName : (d'.attachable kind).canonical? name = some name
  byKey : (d'.attachable kind).canonical? key = some name

/-- Looking the key up in the draft `d` ends as declaring `bag` under the key does. -/
structure Declares (r : Resolver) (t₀ : SchemaTables) (store : EntryStore)
    (kind : AttachmentKind) (resource key : String) (bag : Options) (d : Draft)
    (t : SchemaTables) : Prop where
  /-- Had the key been added before the first phase, the bag would have been stored. -/
  declared : store.add kind.kind key ∅ = .ok (bag, store.put kind.kind key bag)
  /-- If the bag is resolved as in the first phase and its name is free, the entry is stored,
  and the resource attaches it. -/
  found : ∀ resolved, optionsOf r t₀ kind key bag = .ok resolved →
    (d.attachable kind).configs.contains (Resolver.entryName resolved key) = false →
    ∃ d' t', GainsEntry kind key (Resolver.entryName resolved key) resolved d d' ∧
      (d.canonicalName r kind resource key).Returns t (Resolver.entryName resolved key, d') t' ∧
      ∀ attached options, EntriesSatisfy (fun _ => True) d kind attached →
        (takeAttachment r kind resource (attached, d) (key, options)).Returns t
          (attached.insert (Resolver.entryName resolved key) options, d') t'
  /-- Otherwise the violation of the schema is reported, or the name that is taken. -/
  fails : ∀ f, (∃ t', (d.canonicalName r kind resource key).Fails t f t') ↔
    (∃ violation, optionsOf r t₀ kind key bag = .error violation ∧
        f = .invalid kind.kind key violation) ∨
      ∃ resolved, optionsOf r t₀ kind key bag = .ok resolved ∧
        (d.attachable kind).configs.contains (Resolver.entryName resolved key) = true ∧
        f = .duplicateName kind.kind (Resolver.entryName resolved key) key

/-- An entry is stored under a free name, and its key leads to it if it led nowhere. -/
theorem register_of_lost {e : ResolvedEntry} {entries : List ResolvedEntry}
    (hentered : Entered kind.kind entries (d.attachable kind)) (hempty : e.key ≠ "")
    (hlost : (d.attachable kind).canonical? e.key = none)
    (hfree : (d.attachable kind).configs.contains e.name = false) :
    ∃ d', d.register kind.kind e.key e.options [] = .ok (e.name, d') ∧
      (d'.attachable kind).configs = (d.attachable kind).configs.insert e.name e.options ∧
      (d'.attachable kind).canonical? e.key = some e.name := by
  have hregister := register_of_free hfree
  rw [e.interfaces_eq_nil kind] at hregister
  refine ⟨_, hregister, ?_, ?_⟩
  · show ((d.sets.set kind.kind _).get kind.kind).configs = _
    rw [PerKind.get_set_self, EntrySet.addAliases_configs]
    rfl
  · show ((d.sets.set kind.kind _).get kind.kind).canonical? e.key = _
    rw [PerKind.get_set_self]
    exact hentered.canonical?_enter hempty hlost hfree (Or.inl rfl)

/-- An entry is refused exactly if its name is taken. -/
theorem register_eq_error (kind : AttachmentKind) (d : Draft) (e : ResolvedEntry) {f : Failure} :
    d.register kind.kind e.key e.options [] = .error f ↔
      (d.attachable kind).configs.contains e.name = true ∧
        f = .duplicateName kind.kind e.name e.key := by
  rw [← e.interfaces_eq_nil kind]
  cases hstored : (d.attachable kind).configs.contains e.name with
  | true =>
      rw [register_of_taken hstored]
      simp [eq_comm]
  | false =>
      rw [register_of_free hstored]
      simp

/-- How a declaration fails: by the violation of the schema, or because of the name. -/
theorem declare_eq_error {f : Failure} :
    ((optionsOf r t kind key bag).mapError (Failure.invalid kind.kind key) >>= fun resolved =>
        d.register kind.kind key resolved []) = .error f ↔
      (∃ violation, optionsOf r t kind key bag = .error violation ∧
          f = .invalid kind.kind key violation) ∨
        ∃ resolved, optionsOf r t kind key bag = .ok resolved ∧
          (d.attachable kind).configs.contains (Resolver.entryName resolved key) = true ∧
          f = .duplicateName kind.kind (Resolver.entryName resolved key) key := by
  rw [check_bind_error]
  cases optionsOf r t kind key bag with
  | error violation =>
      constructor
      · rintro (h | ⟨resolved, h, -⟩)
        · cases h
          exact Or.inl ⟨violation, rfl, rfl⟩
        · cases h
      · rintro (⟨_, h, rfl⟩ | ⟨resolved, h, -⟩)
        · cases h
          exact Or.inl rfl
        · cases h
  | ok resolved =>
      have hregister := register_eq_error kind d ⟨key, bag, resolved⟩ (f := f)
      constructor
      · rintro (h | ⟨_, h, hrefused⟩)
        · cases h
        · cases h
          exact Or.inr ⟨resolved, rfl, hregister.1 hrefused⟩
      · rintro (⟨violation, h, -⟩ | ⟨_, h, htaken⟩)
        · cases h
        · cases h
          exact Or.inr ⟨resolved, rfl, hregister.2 htaken⟩

/-- A lost key that denotes a type is looked up as a declaration is resolved and stored. -/
theorem Lost.declares (h : Lost r t₀ store kind key d t)
    (htype : r.catalog.hasType kind.kind key = true)
    (hfirst : EntryStore.firstEntry store.catalog kind.kind key ∅ = .ok bag) :
    Declares r t₀ store kind resource key bag d t := by
  have hadd : d.store.add kind.kind key ∅ = .ok (bag, d.store.put kind.kind key bag) := by
    rw [EntryStore.add_of_new h.unstored, h.catalog, hfirst]
    rfl
  -- no question since the first phase has changed the schema of a kind
  have hsame : optionsOf r t kind key bag = optionsOf r t₀ kind key bag := by
    rw [optionsOf, optionsOf, h.sameKinds]
  have hask := ask_canonicalName_of_lost resource t h.nowhere htype hadd
  rw [hsame] at hask
  refine ⟨?_, fun resolved hresolved hfree => ?_, fun f => ?_⟩
  · rw [EntryStore.add_of_new h.undeclared, hfirst]
    rfl
  · obtain ⟨entries, hentered⟩ := h.entered
    obtain ⟨d', hregister, hconfigs, hkey⟩ := register_of_lost
      (d := { d with store := d.store.put kind.kind key bag }) (e := ⟨key, bag, resolved⟩)
      hentered h.nonempty h.nowhere hfree
    have hreturns : (d.canonicalName r kind resource key).Returns t
        (Resolver.entryName resolved key, d') (r.tablesAfterKind t kind.kind) := by
      rw [hresolved] at hask
      exact hask.trans (congrArg (·, r.tablesAfterKind t kind.kind) hregister)
    obtain ⟨hadvance, hstored⟩ := Advance.canonicalName hreturns
    refine ⟨d', _, ⟨hadvance.changes, hconfigs, EntrySet.canonical?_of_contains hstored, hkey⟩,
      hreturns, fun attached options hattached => ?_⟩
    -- what is attached already stands under stored names, and this name is free
    have hnew : attached.get? (Resolver.entryName resolved key) = none := by
      cases hget : attached.get? (Resolver.entryName resolved key) with
      | none => rfl
      | some options =>
          obtain ⟨entry, hentry, -⟩ := hattached _ (SortedMap.contains_of_get? hget)
          rw [SortedMap.contains_of_get? hentry] at hfree
          cases hfree
    refine returns_bind.2 ⟨_, _, hreturns, ?_⟩
    simp [hnew]
  · refine Iff.trans ?_ (declare_eq_error (d := { d with
      store := d.store.put kind.kind key bag }))
    unfold Fails
    simp only [hask, Prod.mk.injEq, exists_and_left, exists_eq', and_true]

/-- Where a key is looked up that leads nowhere but denotes a registered type, the type is
discovered.  A type identifier is declared with the defaults of its type, and is its own
class.  Any other valid name is declared with nothing, which a schema that requires a class
refuses; and what is no name either is refused at once. -/
theorem discovered_types (hcatalog : store.catalog = r.catalog)
    (hbuild : (build r store).Returns t₀ d t) (hasked : KeyAsked r d t kind resource key d' t')
    (hlost : (d'.attachable kind).canonical? key = none)
    (htype : r.catalog.hasType kind.kind key = true) :
    (isTypeIdentifier key = true →
      Declares r t₀ store kind resource key (EntryStore.typeEntry r.catalog kind.kind key)
          d' t' ∧
        ∀ resolved, (r.kindInForce t₀ kind.kind).schema.normalizers "class" = [] →
          optionsOf r t₀ kind key (EntryStore.typeEntry r.catalog kind.kind key) =
            .ok resolved → resolved.str? "class" = some key) ∧
    (isTypeIdentifier key = false → isValidName (deriveName kind.kind key) = true →
      Declares r t₀ store kind resource key ∅ d' t' ∧
        ((r.kindInForce t₀ kind.kind).schema.requires "class" = true →
          (r.kindInForce t₀ kind.kind).schema.default? "class" = none →
          ∃ violation t'', (d'.canonicalName r kind resource key).Fails t'
            (.invalid kind.kind key violation) t'')) ∧
    (isTypeIdentifier key = false → isValidName (deriveName kind.kind key) = false →
      key ≠ "" → ∃ t'', (d'.canonicalName r kind resource key).Fails t'
        (.invalidIdentifier kind.kind key) t'') := by
  refine ⟨fun hidentifier => ?_, fun hother hvalid => ?_, fun hother hinvalid hempty => ?_⟩
  · have hempty : key ≠ "" := by
      rintro rfl
      revert hidentifier
      decide
    have hfirst : EntryStore.firstEntry store.catalog kind.kind key ∅ =
        .ok (EntryStore.typeEntry r.catalog kind.kind key) := by
      rw [hcatalog]
      exact EntryStore.firstEntry_of_identifier (by cases kind <;> rfl) hidentifier htype
    exact ⟨(hasked.lost hbuild hempty hlost).declares htype hfirst,
      fun resolved hnormal hresolved => class_of_optionsOf hnormal hresolved⟩
  · have hempty : key ≠ "" := by
      rintro rfl
      revert hvalid
      cases kind <;> decide
    have hfirst : EntryStore.firstEntry store.catalog kind.kind key ∅ = .ok ∅ := by
      rw [EntryStore.firstEntry_of_other hother, if_pos hvalid]
    have hdeclares : Declares r t₀ store kind resource key ∅ d' t' :=
      (hasked.lost hbuild hempty hlost).declares htype hfirst
    refine ⟨hdeclares, fun hrequired hdefault => ?_⟩
    obtain ⟨violation, hviolation⟩ := optionsOf_empty hrequired hdefault
    exact ⟨violation, (hdeclares.fails _).2 (Or.inl ⟨violation, hviolation, rfl⟩)⟩
  · have hunstored := (hasked.lost hbuild hempty hlost).unstored
    have hadd : d'.store.add kind.kind key ∅ = .error (.invalidIdentifier kind.kind key) := by
      rw [EntryStore.add_of_new hunstored, EntryStore.firstEntry_of_other hother, hinvalid]
      rfl
    exact ⟨t', fails_canonicalName_of_lost hlost htype hadd⟩

namespace Workshop

/-- Two action types are registered, one under a path and one under a short name. -/
def resolver : Resolver :=
  Resolver.ofCatalog ((Catalog.empty.registerAction { name := "shop::PaintAction" }).registerAction
    { name := "Varnish" })

/-- The chair attaches the type. -/
def stock (type : String) : EntryStore where
  catalog := resolver.catalog
  entries :=
    { permissions := ∅
      actions := ∅
      behaviors := ∅
      namespaces := SortedMap.singleton "shop" ∅
      resources := SortedMap.singleton "chair" (SortedMap.ofList [
        ("entity", .string "Chair"), ("namespace", .string "shop"),
        ("actions", .object (SortedMap.singleton type (.object ∅)))]) }

/-- The first phase and what comes before the actions of the chair. -/
def run (type : String) : Resolution (Draft × Draft) := do
  let d ← build resolver (stock type)
  let d' ← d.settleBehaviors resolver
  return (d, d')

/-- The type is the first action that is looked up, and no action is stored before. -/
def looksUp (type : String) (d d' : Draft) : Bool :=
  d.sets.resources.names == ["chair"] &&
    (attachmentsOf (d'.resource "chair") .action).keys == [type] &&
    (d'.attachable .action).canonical? type == none && (d'.attachable .action).names == []

theorem asked (type : String)
    (h : ((run type).ask .empty).1.toOption.any (fun result => looksUp type result.1 result.2) =
      true) :
    ∃ d t d' t', (build resolver (stock type)).Returns .empty d t ∧
      KeyAsked resolver d t .action "chair" type d' t' ∧
      (d'.attachable .action).canonical? type = none ∧
      ∀ name, (d'.attachable .action).configs.contains name = false := by
  obtain ⟨⟨d, d'⟩, t₂, hrun, htest⟩ := returns_of_any h
  obtain ⟨d₁, t, hbuild, hrest⟩ := returns_bind.1 hrun
  obtain ⟨d₂, t', hsettle, hlast⟩ := returns_bind.1 hrest
  obtain ⟨heq, rfl⟩ := returns_pure.1 hlast
  obtain ⟨rfl, rfl⟩ := Prod.mk.inj heq
  simp only [looksUp, Bool.and_eq_true, beq_iff_eq] at htest
  obtain ⟨⟨⟨hnames, hkeys⟩, hlost⟩, hnone⟩ := htest
  have hbegun : ActionsBegun resolver d t "chair" d' t₂ := by
    refine ⟨d', t₂, hsettle, ?_⟩
    rw [hnames]
    exact Visits.head _ _ _ _ _
  have hmet : KeyMet resolver .action d' t₂ "chair" type d' t₂ := by
    obtain ⟨⟨key, bag⟩, hentries, rfl⟩ := List.map_eq_singleton_iff.1 hkeys
    refine ⟨bag, ∅, ?_⟩
    rw [hentries]
    exact Visits.head _ _ _ _ _
  refine ⟨d, t, d', t₂, hbuild, .attachedAction hbegun hmet, hlost, fun name => ?_⟩
  refine Bool.eq_false_iff.2 (fun hstored => ?_)
  have hname : name ∈ (d'.attachable .action).names := (SortedMap.mem_keys_iff _ _).2 hstored
  rw [hnone] at hname
  cases hname

/-- A bag is resolved, and gives the entry its name. -/
theorem resolved_as (type name : String) (bag : Options)
    (h : (optionsOf resolver .empty .action type bag).toOption.any
      (fun resolved => Resolver.entryName resolved type == name) = true) :
    ∃ resolved, optionsOf resolver .empty .action type bag = .ok resolved ∧
      Resolver.entryName resolved type = name := by
  obtain ⟨resolved, hresolved, hname⟩ := check_of_any h
  exact ⟨resolved, hresolved, beq_iff_eq.1 hname⟩

end Workshop

/-- The type with a path is discovered. -/
theorem discovered_types_paint :
    ∃ d t d' t' d'' t'' resolved,
      (build Workshop.resolver (Workshop.stock "shop::PaintAction")).Returns .empty d t ∧
      KeyAsked Workshop.resolver d t .action "chair" "shop::PaintAction" d' t' ∧
      (d'.canonicalName Workshop.resolver .action "chair" "shop::PaintAction").Returns t'
        ("paint", d'') t'' ∧
      GainsEntry .action "shop::PaintAction" "paint" resolved d' d'' ∧
      resolved.str? "class" = some "shop::PaintAction" := by
  obtain ⟨d, t, d', t', hbuild, hasked, hlost, hfree⟩ :=
    Workshop.asked "shop::PaintAction" (by decide +kernel)
  obtain ⟨resolved, hresolved, hname⟩ := Workshop.resolved_as "shop::PaintAction" "paint"
    (EntryStore.typeEntry Workshop.resolver.catalog .action "shop::PaintAction")
    (by decide +kernel)
  obtain ⟨hdeclares, hclass⟩ :=
    (discovered_types rfl hbuild hasked hlost (by decide)).1 (by decide +kernel)
  obtain ⟨d'', t'', hgains, hreturns, -⟩ := hdeclares.found resolved hresolved (hfree _)
  rw [hname] at hgains hreturns
  exact ⟨d, t, d', t', d'', t'', resolved, hbuild, hasked, hreturns, hgains,
    hclass resolved rfl hresolved⟩

/-- The type with a short name would be resolved with the defaults and the class of its type,
and its name is free; but it is not discovered. -/
theorem varnish_not_discovered :
    ¬ ∀ (r : Resolver) (store : EntryStore) (d : Draft) (t : SchemaTables)
        (kind : AttachmentKind) (resource key : String) (d' : Draft) (t' : SchemaTables)
        (resolved : Options),
      store.catalog = r.catalog → (build r store).Returns .empty d t →
      KeyAsked r d t kind resource key d' t' → (d'.attachable kind).canonical? key = none →
      r.catalog.hasType kind.kind key = true →
      optionsOf r .empty kind key (EntryStore.typeEntry r.catalog kind.kind key) =
        .ok resolved →
      (d'.attachable kind).configs.contains (Resolver.entryName resolved key) = false →
      ∃ d'' t'', (d'.canonicalName r kind resource key).Returns t'
        (Resolver.entryName resolved key, d'') t'' := by
  intro halways
  obtain ⟨d, t, d', t', hbuild, hasked, hlost, hfree⟩ :=
    Workshop.asked "Varnish" (by decide +kernel)
  obtain ⟨resolved, hresolved, -⟩ := Workshop.resolved_as "Varnish" "varnish"
    (EntryStore.typeEntry Workshop.resolver.catalog .action "Varnish") (by decide +kernel)
  obtain ⟨d'', t'', hreturns⟩ := halways Workshop.resolver (Workshop.stock "Varnish") d t .action
    "chair" "Varnish" d' t' resolved rfl hbuild hasked hlost (by decide) hresolved (hfree _)
  have hdeclares : Declares Workshop.resolver .empty (Workshop.stock "Varnish") .action "chair"
      "Varnish" ∅ d' t' :=
    (hasked.lost hbuild (by decide) hlost).declares (by decide)
      ((EntryStore.firstEntry_of_other (by decide)).trans (if_pos (by decide +kernel)))
  obtain ⟨violation, hviolation⟩ :
      ∃ violation, optionsOf Workshop.resolver .empty .action "Varnish" ∅ = .error violation :=
    optionsOf_empty rfl rfl
  obtain ⟨t₃, hfails⟩ := (hdeclares.fails _).2 (Or.inl ⟨violation, hviolation, rfl⟩)
  exact hreturns.not_fails hfails

end Draft
end ConfigCompiler
