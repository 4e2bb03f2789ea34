import ConfigCompiler.Proofs.FirstPhase
import ConfigCompiler.Proofs.KindSchemas

/-!
# Storing the entries of a kind

The first phase stores the entries of a kind one after the other, and the aliases of an
entry are claimed while later names are not known yet.  What a text leads to in the end
can nevertheless be said without the order of these steps: a name leads to itself, and
any other text to the first entry that claims it.

**Input.**  A `ResolvedEntry` is a raw entry with the options it is resolved to, and
`resolvedEntries` lists those of a kind.  `Claims` says which texts an entry claims.

**Invariant.**  `Entered kind entries s`: the set `s` came from storing `entries`.  Its
aliases are described for texts that are no names only, since a name hides its alias.

**Results.**
* `Entered.enter`, `Entered.canonical?_eq`: storing one more entry keeps the invariant,
  which says what every text leads to.
* `resolveEntry_registers`, `resolveEntry_of_free`, `resolveEntry_of_taken`: an entry that
  is resolved is stored exactly if its name is free.
* `resolveEntries_fails`: when entries of a kind share a name, the first of them whose name
  is taken is refused.
-/

namespace ConfigCompiler

/-- A raw entry with the options it is resolved to. -/
structure ResolvedEntry where
  key : String
  raw : Options
  options : Options

namespace ResolvedEntry

variable {kind : EntityKind} {e : ResolvedEntry} {x : String}

/-- The name that the entry is stored under. -/
def name (e : ResolvedEntry) : String := Resolver.entryName e.options e.key

/-- The interfaces that the entry lists itself, which only resources do. -/
def interfaces (kind : EntityKind) (e : ResolvedEntry) : List String :=
  match kind with
  | .resource => e.raw.strings "interfaces"
  | _ => []

/-- Actions and behaviors list no interfaces. -/
theorem interfaces_eq_nil (e : ResolvedEntry) (kind : AttachmentKind) :
    e.interfaces kind.kind = [] := by
  cases kind <;> rfl

/-- The aliases that the entry claims, in order. -/
def claims (kind : EntityKind) (e : ResolvedEntry) : List String :=
  Draft.claims kind e.key e.options (e.interfaces kind)

/-- A text is claimed as an alias: it is the key, the class of an action or behavior, or
one of the types that a resource names or lists. -/
def Claims (kind : EntityKind) (e : ResolvedEntry) (x : String) : Prop :=
  x = e.key ∨
    ((kind = .action ∨ kind = .behavior) ∧ e.options.str? "class" = some x) ∨
    (kind = .resource ∧
      (e.options.str? "entity" = some x ∨ e.options.str? "interface" = some x ∨
        e.options.str? "translation" = some x ∨ x ∈ e.raw.strings "interfaces"))

theorem contains_claims : (e.claims kind).contains x = true ↔ e.Claims kind x := by
  rw [List.contains_iff_mem]
  cases kind <;>
    simp [claims, Draft.claims, interfaces, Claims, Draft.resourceAliasOptions, or_assoc]

end ResolvedEntry

/-- The set came from storing the entries listed, in order. -/
structure Entered (kind : EntityKind) (entries : List ResolvedEntry) (s : EntrySet) :
    Prop where
  distinct : (entries.map ResolvedEntry.name).Nodup
  contains : ∀ x, s.configs.contains x = true ↔ x ∈ entries.map ResolvedEntry.name
  configs : ∀ e ∈ entries, s.configs.get? e.name = some e.options
  aliases : ∀ x, x ∉ entries.map ResolvedEntry.name →
    s.aliases.get? x =
      if x = "" then none
      else (entries.find? (fun e => (e.claims kind).contains x)).map ResolvedEntry.name

namespace Entered

variable {kind : EntityKind} {entries : List ResolvedEntry} {s : EntrySet}
variable {e : ResolvedEntry} {x : String}

theorem empty (kind : EntityKind) : Entered kind [] EntrySet.empty where
  distinct := List.nodup_nil
  contains := fun x => by simp [EntrySet.empty, SortedMap.contains]
  configs := fun e he => nomatch he
  aliases := fun x _ => by simp [EntrySet.empty]

theorem contains_eq_false (h : Entered kind entries s)
    (hx : x ∉ entries.map ResolvedEntry.name) : s.configs.contains x = false := by
  rw [← Bool.not_eq_true, h.contains]
  exact hx

/-- One more entry is stored under a free name, with its claims. -/
theorem enter (h : Entered kind entries s) (hfree : s.configs.contains e.name = false) :
    Entered kind (entries ++ [e])
      (({ s with configs := s.configs.insert e.name e.options } : EntrySet).addAliases
        kind e.name (e.claims kind)).1 := by
  have hnew : e.name ∉ entries.map ResolvedEntry.name := by
    rw [← h.contains, hfree]
    exact Bool.false_ne_true
  constructor
  · rw [List.map_append, List.nodup_append]
    refine ⟨h.distinct, List.pairwise_singleton _ _, fun a ha b hb => ?_⟩
    rw [List.mem_singleton.1 hb]
    rintro rfl
    exact hnew ha
  · intro x
    simp [h.contains x, or_comm, eq_comm (a := x)]
  · intro other hother
    rw [EntrySet.addAliases_configs]
    rcases List.mem_append.1 hother with hother | hother
    · have hne : e.name ≠ other.name := by
        intro heq
        exact hnew (heq ▸ List.mem_map_of_mem hother)
      rw [SortedMap.get?_insert, if_neg hne, h.configs other hother]
    · rw [List.mem_singleton.1 hother, SortedMap.get?_insert_self]
  · intro x hx
    simp only [List.map_append, List.mem_append, not_or, List.map_cons, List.map_nil,
      List.mem_singleton] at hx
    have hfreeAlias : (s.configs.insert e.name e.options).contains x = false := by
      simp [h.contains_eq_false hx.1, Ne.symm hx.2]
    rw [EntrySet.get?_addAliases_of_free hfreeAlias (by simp), List.find?_append]
    simp only [h.aliases x hx.1]
    by_cases hempty : x = ""
    · simp [hempty]
    · cases hfirst : entries.find? (fun e => (e.claims kind).contains x) with
      | some first => simp [hempty]
      | none => simp [hempty]

/-- The names stored are those of the entries, each once. -/
theorem perm_names (h : Entered kind entries s) :
    s.names.Perm (entries.map ResolvedEntry.name) := by
  refine (List.perm_ext_iff_of_nodup (SortedMap.nodup_keys _) h.distinct).2 (fun x => ?_)
  rw [SortedMap.mem_keys_iff, ← h.contains]
  rfl

/-- What a text leads to: itself, or the first entry that claims it. -/
theorem canonical?_eq (h : Entered kind entries s) (x : String) :
    s.canonical? x =
      if x ∈ entries.map ResolvedEntry.name then some x
      else if x = "" then none
      else (entries.find? (fun e => (e.claims kind).contains x)).map ResolvedEntry.name := by
  by_cases hx : x ∈ entries.map ResolvedEntry.name
  · rw [if_pos hx, EntrySet.canonical?_of_contains ((h.contains x).2 hx)]
  · rw [if_neg hx, EntrySet.canonical?, h.contains_eq_false hx, h.aliases x hx]
    by_cases hempty : x = ""
    · simp [hempty]
    · cases hfirst : entries.find? (fun e => (e.claims kind).contains x) with
      | none => simp
      | some first =>
          have hstored : s.configs.contains first.name = true :=
            (h.contains _).2 (List.mem_map_of_mem (List.mem_of_find?_eq_some hfirst))
          simp [hempty, hstored]

end Entered

namespace Draft

/-- What is resolved of a raw entry: the interfaces that a resource lists are taken out. -/
def toResolve (kind : EntityKind) (key : String) (raw : Options) : Except Failure Options :=
  match kind with
  | .resource => (takeInterfaces key raw).map Prod.snd
  | _ => .ok raw

/-- A resolved resource refers to a namespace and to permissions of the draft. -/
def checkReferences (d : Draft) (kind : EntityKind) (e : ResolvedEntry) : Except Failure Unit :=
  match kind with
  | .resource => do
      Resolver.checkNamespace e.options e.name d.sets.namespaces.configs
      Resolver.checkPermissions e.options e.name d.sets.permissions.configs
  | _ => .ok ()

end Draft

namespace Resolver

open Resolution

/-- What the resolver answers about a raw entry. -/
def resolvedEntry (r : Resolver) (t : SchemaTables) (kind : EntityKind)
    (e : String × Options) : Except Failure ResolvedEntry := do
  let rest ← Draft.toResolve kind e.1 e.2
  let options ← r.entryAnswer t kind e.1 rest
  return ⟨e.1, e.2, options⟩

/-- What the resolver answers about all raw entries of a kind, in the order of their
keys. -/
def resolvedEntries (r : Resolver) (t : SchemaTables) (store : EntryStore)
    (kind : EntityKind) : Except Failure (List ResolvedEntry) :=
  (store.entries.get kind).entries.mapM (r.resolvedEntry t kind)

variable {r : Resolver} {t t' : SchemaTables} {kind : EntityKind}

theorem SameKinds.resolvedEntry_eq (h : r.SameKinds t t') (kind : EntityKind) :
    r.resolvedEntry t' kind = r.resolvedEntry t kind := by
  funext e
  unfold resolvedEntry
  simp only [h.entryAnswer_eq]

theorem resolvedEntry_eq_ok {item : String × Options} {e : ResolvedEntry} :
    r.resolvedEntry t kind item = .ok e ↔
      e.key = item.1 ∧ e.raw = item.2 ∧ ∃ rest, Draft.toResolve kind item.1 item.2 = .ok rest ∧
        r.entryAnswer t kind item.1 rest = .ok e.options := by
  unfold resolvedEntry
  rw [check_bind]
  constructor
  · rintro ⟨rest, hrest, h⟩
    obtain ⟨options, hoptions, hlast⟩ := check_bind.1 h
    cases check_pure.1 hlast
    exact ⟨rfl, rfl, rest, hrest, hoptions⟩
  · rintro ⟨hkey, hraw, rest, hrest, hoptions⟩
    refine ⟨rest, hrest, check_bind.2 ⟨e.options, hoptions, check_pure.2 ?_⟩⟩
    cases e
    simp_all

theorem keys_of_resolvedEntries {items : List (String × Options)}
    {entries : List ResolvedEntry} (h : items.mapM (r.resolvedEntry t kind) = .ok entries) :
    entries.map ResolvedEntry.key = items.map Prod.fst := by
  induction items generalizing entries with
  | nil =>
      cases check_pure.1 h
      rfl
  | cons item rest ih =>
      obtain ⟨e, more, he, hmore, rfl⟩ := check_list_mapM_cons.1 h
      rw [List.map_cons, List.map_cons, ih hmore, (resolvedEntry_eq_ok.1 he).1]

end Resolver

namespace Draft

open Resolution

variable {r : Resolver} {t t₀ t' : SchemaTables} {kind : EntityKind}
variable {d d₀ d' : Draft} {e : ResolvedEntry} {entries : List ResolvedEntry}

theorem takeInterfaces_eq_ok {key : String} {raw rest : Options} {interfaces : List String}
    (h : takeInterfaces key raw = .ok (interfaces, rest)) :
    interfaces = raw.strings "interfaces" := by
  unfold takeInterfaces at h
  split at h
  · next hnone =>
      cases h
      simp [Options.strings, hnone]
  · split at h
    · cases h
      rfl
    · cases h

/-- Storing an entry under a free name. -/
theorem register_of_free (hfree : (d.sets.get kind).configs.contains e.name = false) :
    d.register kind e.key e.options (e.interfaces kind) = .ok (e.name,
      { d with
        sets := d.sets.set kind
          (({ (d.sets.get kind) with
              configs := (d.sets.get kind).configs.insert e.name e.options } :
            EntrySet).addAliases kind e.name (e.claims kind)).1
        collisions := d.collisions ++
          (({ (d.sets.get kind) with
              configs := (d.sets.get kind).configs.insert e.name e.options } :
            EntrySet).addAliases kind e.name (e.claims kind)).2 }) :=
  check_bind.2 ⟨_, EntrySet.insert_eq_ok.2 ⟨hfree, rfl⟩, rfl⟩

/-- A name is stored once. -/
theorem register_of_taken (htaken : (d.sets.get kind).configs.contains e.name = true) :
    d.register kind e.key e.options (e.interfaces kind) =
      .error (.duplicateName kind e.name e.key) := by
  refine check_bind_error.2 (Or.inl ?_)
  exact if_pos htaken

/-- The draft after an entry is stored, whatever was declared or collided. -/
structure Stores (kind : EntityKind) (e : ResolvedEntry) (d d' : Draft) : Prop where
  free : (d.sets.get kind).configs.contains e.name = false
  sets : d'.sets = d.sets.set kind
    (({ (d.sets.get kind) with
        configs := (d.sets.get kind).configs.insert e.name e.options } :
      EntrySet).addAliases kind e.name (e.claims kind)).1
  store : d'.store = d.store

/-- The draft after an entry is stored and its collisions are reported, whatever was
declared. -/
structure Registers (kind : EntityKind) (e : ResolvedEntry) (d d' : Draft) : Prop
    extends Stores kind e d d' where
  collisions : d'.collisions = d.collisions ++
    (({ (d.sets.get kind) with
        configs := (d.sets.get kind).configs.insert e.name e.options } :
      EntrySet).addAliases kind e.name (e.claims kind)).2

theorem registers_of_register
    (h : d.register kind e.key e.options (e.interfaces kind) = .ok (name, d')) :
    name = e.name ∧ Registers kind e d d' := by
  cases hstored : (d.sets.get kind).configs.contains e.name with
  | true =>
      rw [register_of_taken hstored] at h
      cases h
  | false =>
      rw [register_of_free hstored] at h
      cases h
      exact ⟨rfl, ⟨hstored, rfl, rfl⟩, rfl⟩

/-- A resource is resolved as any entry, and then refers to what is there. -/
theorem returns_resolveResource {key : String} {raw resolved : Options}
    {namespaces permissions : SortedMap Options} :
    (r.resolveResource key raw namespaces permissions).Returns t resolved t' ↔
      r.entryAnswer t .resource key raw = .ok resolved ∧
        (do
          Resolver.checkNamespace resolved (Resolver.entryName resolved key) namespaces
          Resolver.checkPermissions resolved (Resolver.entryName resolved key) permissions) =
          .ok () ∧
        t' = r.tablesAfterKind t .resource := by
  unfold Resolver.resolveResource
  simp only [returns_bind, returns_lift, returns_pure, Resolver.returns_resolveEntry,
    check_bind]
  constructor
  · rintro ⟨resolved', t₁, ⟨hanswer, rfl⟩, _, t₂, ⟨hns, rfl⟩, _, t₃, ⟨hps, rfl⟩, rfl, rfl⟩
    exact ⟨hanswer, ⟨_, hns, hps⟩, rfl⟩
  · rintro ⟨hanswer, ⟨_, hns, hps⟩, rfl⟩
    exact ⟨resolved, _, ⟨hanswer, rfl⟩, _, _, ⟨hns, rfl⟩, _, _, ⟨hps, rfl⟩, rfl, rfl⟩

/-- An entry that was stored had been resolved before. -/
theorem resolveEntry_registers {item : String × Options}
    (h : (d.resolveEntry r kind item.1 item.2).Returns t d' t') :
    ∃ e, r.resolvedEntry t kind item = .ok e ∧ Registers kind e d d' ∧
      t' = r.tablesAfterKind t kind := by
  cases kind with
  | resource =>
      obtain ⟨⟨interfaces, rest⟩, t₁, h₁, hrest⟩ := returns_bind.1 h
      obtain ⟨htake, rfl⟩ := returns_lift.1 h₁
      obtain ⟨resolved, t₂, hresolve, hrest'⟩ := returns_bind.1 hrest
      obtain ⟨⟨name, d₁⟩, t₃, h₃, hlast⟩ := returns_bind.1 hrest'
      obtain ⟨hregister, rfl⟩ := returns_lift.1 h₃
      obtain ⟨hanswer, -, rfl⟩ := returns_resolveResource.1 hresolve
      obtain rfl := takeInterfaces_eq_ok htake
      obtain ⟨-, hstores⟩ := registers_of_register (e := ⟨item.1, item.2, resolved⟩) hregister
      refine ⟨⟨item.1, item.2, resolved⟩,
        Resolver.resolvedEntry_eq_ok.2 ⟨rfl, rfl, rest, ?_, hanswer⟩, ?_⟩
      · show (takeInterfaces item.1 item.2).map Prod.snd = .ok rest
        rw [htake]
        rfl
      · simp only at hlast
        split at hlast
        · obtain ⟨rfl, rfl⟩ := returns_pure.1 hlast
          exact ⟨hstores, rfl⟩
        · obtain ⟨rfl, rfl⟩ := returns_pure.1 hlast
          exact ⟨⟨⟨hstores.free, hstores.sets, hstores.store⟩, hstores.collisions⟩, rfl⟩
  | _ =>
      obtain ⟨resolved, t₁, hresolve, hrest⟩ := returns_bind.1 h
      obtain ⟨⟨name, d₁⟩, t₂, h₂, hlast⟩ := returns_bind.1 hrest
      obtain ⟨hregister, rfl⟩ := returns_lift.1 h₂
      obtain ⟨rfl, rfl⟩ := returns_pure.1 hlast
      obtain ⟨hanswer, rfl⟩ := Resolver.returns_resolveEntry.1 hresolve
      exact ⟨⟨item.1, item.2, resolved⟩,
        Resolver.resolvedEntry_eq_ok.2 ⟨rfl, rfl, item.2, rfl, hanswer⟩,
        (registers_of_register (e := ⟨item.1, item.2, resolved⟩) hregister).2, rfl⟩

theorem resolveEntry_returns {item : String × Options}
    (h : (d.resolveEntry r kind item.1 item.2).Returns t d' t') :
    ∃ e, r.resolvedEntry t kind item = .ok e ∧ Stores kind e d d' ∧ r.SameKinds t t' := by
  obtain ⟨e, he, hregisters, rfl⟩ := resolveEntry_registers h
  exact ⟨e, he, hregisters.toStores, r.sameKinds_tablesAfterKind t kind⟩

/-- An entry that is resolved and refers to what is there is registered, and that decides
its end. -/
theorem ask_resolveEntry {item : String × Options}
    (he : r.resolvedEntry t kind item = .ok e) (hchecks : d.checkReferences kind e = .ok ()) :
    ∃ finish : String × Draft → Draft,
      (d.resolveEntry r kind item.1 item.2).ask t =
        ((d.register kind e.key e.options (e.interfaces kind)).map finish,
          r.tablesAfterKind t kind) := by
  obtain ⟨hkey, hraw, rest, hrest, hanswer⟩ := Resolver.resolvedEntry_eq_ok.1 he
  rw [← hkey, ← hraw] at *
  cases kind with
  | resource =>
      cases htake : takeInterfaces e.key e.raw with
      | error f => simp [toResolve, htake, Except.map] at hrest
      | ok taken =>
          obtain ⟨interfaces, rest'⟩ := taken
          simp only [toResolve, htake, Except.map, Except.ok.injEq] at hrest
          subst hrest
          have hinterfaces : e.interfaces .resource = interfaces :=
            (takeInterfaces_eq_ok htake).symm
          have hresolve : (r.resolveResource e.key rest' d.sets.namespaces.configs
              d.sets.permissions.configs).Returns t e.options
                (r.tablesAfterKind t .resource) :=
            returns_resolveResource.2 ⟨hanswer, hchecks, rfl⟩
          refine ⟨fun named =>
            if interfaces.isEmpty then named.2
            else { named.2 with
              declaredInterfaces := named.2.declaredInterfaces.insert named.1 interfaces }, ?_⟩
          show ask (liftM (takeInterfaces e.key e.raw) >>= _) t = _
          rw [ask_bind, htake]
          show ask (r.resolveResource e.key rest' _ _ >>= _) t = _
          rw [ask_bind, hresolve, hinterfaces]
          show ask (liftM (d.register .resource e.key e.options interfaces) >>= _) _ = _
          rw [ask_bind]
          cases d.register .resource e.key e.options interfaces with
          | error f => rfl
          | ok named =>
              cases interfaces.isEmpty <;> rfl
  | _ =>
      cases hrest
      have hresolve := Resolver.returns_resolveEntry.2
        ⟨hanswer, (rfl : r.tablesAfterKind t _ = _)⟩
      refine ⟨Prod.snd, ?_⟩
      show ask (r.resolveEntry _ e.key e.raw >>= _) t = _
      rw [ask_bind, hresolve]
      show ask (liftM (d.register _ e.key e.options []) >>= _) _ = _
      rw [ask_bind]
      show _ = ((d.register _ e.key e.options []).map Prod.snd, _)
      cases d.register _ e.key e.options [] <;> rfl

theorem resolveEntry_of_free {item : String × Options}
    (he : r.resolvedEntry t kind item = .ok e) (hchecks : d.checkReferences kind e = .ok ())
    (hfree : (d.sets.get kind).configs.contains e.name = false) :
    ∃ d' t', (d.resolveEntry r kind item.1 item.2).Returns t d' t' ∧ Stores kind e d d' ∧
      r.SameKinds t t' := by
  obtain ⟨finish, hask⟩ := ask_resolveEntry he hchecks
  rw [register_of_free hfree] at hask
  have hreturns : (d.resolveEntry r kind item.1 item.2).Returns t _ _ := hask
  obtain ⟨e', he', hstores, hsame⟩ := resolveEntry_returns hreturns
  rw [he] at he'
  cases he'
  exact ⟨_, _, hreturns, hstores, hsame⟩

theorem resolveEntry_of_taken {item : String × Options}
    (he : r.resolvedEntry t kind item = .ok e) (hchecks : d.checkReferences kind e = .ok ())
    (htaken : (d.sets.get kind).configs.contains e.name = true) :
    ∃ t', (d.resolveEntry r kind item.1 item.2).Fails t
      (.duplicateName kind e.name e.key) t' := by
  obtain ⟨finish, hask⟩ := ask_resolveEntry he hchecks
  rw [register_of_taken htaken] at hask
  exact ⟨_, hask⟩

/-- Between two drafts only entries of one kind were stored. -/
structure OnlyKind (r : Resolver) (kind : EntityKind) (d : Draft) (t : SchemaTables)
    (d' : Draft) (t' : SchemaTables) : Prop where
  others : ∀ other, other ≠ kind → d'.sets.get other = d.sets.get other
  store : d'.store = d.store
  sameKinds : r.SameKinds t t'

theorem OnlyKind.refl (r : Resolver) (kind : EntityKind) (d : Draft) (t : SchemaTables) :
    OnlyKind r kind d t d t :=
  ⟨fun _ _ => rfl, rfl, Resolver.SameKinds.refl r t⟩

theorem OnlyKind.step (h : OnlyKind r kind d₀ t₀ d t) (hstores : Stores kind e d d')
    (hsame : r.SameKinds t t') : OnlyKind r kind d₀ t₀ d' t' where
  others := fun other hother => by
    rw [hstores.sets, PerKind.get_set_of_ne _ (Ne.symm hother), h.others other hother]
  store := hstores.store.trans h.store
  sameKinds := h.sameKinds.trans hsame

/-- Storing entries of a kind does not change what others may refer to. -/
theorem OnlyKind.checkReferences_eq (h : OnlyKind r kind d₀ t₀ d t) (e : ResolvedEntry) :
    d.checkReferences kind e = d₀.checkReferences kind e := by
  cases kind with
  | resource =>
      have hns : d.sets.namespaces = d₀.sets.namespaces := h.others .nameSpace nofun
      have hps : d.sets.permissions = d₀.sets.permissions := h.others .permission nofun
      simp only [checkReferences, hns, hps]
  | _ => rfl

theorem Stores.entered (hstores : Stores kind e d d')
    (h : Entered kind entries (d.sets.get kind)) :
    Entered kind (entries ++ [e]) (d'.sets.get kind) := by
  rw [hstores.sets, PerKind.get_set_self]
  exact h.enter hstores.free

/-- When entries of a kind are resolved and refer to what is there but two of them share a name, the
first of them whose name is taken is refused. -/
theorem resolveEntries_fails {items : List (String × Options)} {more : List ResolvedEntry}
    (hbefore : OnlyKind r kind d₀ t₀ d t) (hentered : Entered kind entries (d.sets.get kind))
    (hmore : items.mapM (r.resolvedEntry t₀ kind) = .ok more)
    (hchecks : ∀ e ∈ more, d₀.checkReferences kind e = .ok ())
    (hshared : ¬ ((entries ++ more).map ResolvedEntry.name).Nodup) :
    ∃ before e after, more = before ++ e :: after ∧
      ((entries ++ before).map ResolvedEntry.name).Nodup ∧
      e.name ∈ (entries ++ before).map ResolvedEntry.name ∧
      ∃ t', Fails (items.foldlM (fun d e => d.resolveEntry r kind e.1 e.2) d) t
        (.duplicateName kind e.name e.key) t' := by
  induction items generalizing entries more d t with
  | nil =>
      cases check_pure.1 hmore
      exact absurd hentered.distinct (by simpa using hshared)
  | cons item rest ih =>
      obtain ⟨e, more, he, hrest, rfl⟩ := check_list_mapM_cons.1 hmore
      rw [← hbefore.sameKinds.resolvedEntry_eq] at he
      have hchecked : d.checkReferences kind e = .ok () := by
        rw [hbefore.checkReferences_eq, hchecks e List.mem_cons_self]
      cases hstored : (d.sets.get kind).configs.contains e.name with
      | true =>
          obtain ⟨t', hfails⟩ := resolveEntry_of_taken he hchecked hstored
          refine ⟨[], e, more, rfl, by simpa using hentered.distinct,
            by simpa using (hentered.contains e.name).1 hstored, t', ?_⟩
          rw [List.foldlM_cons]
          exact fails_bind.2 (Or.inl hfails)
      | false =>
          obtain ⟨d₁, t₁, hfirst, hstores, hsame⟩ := resolveEntry_of_free he hchecked hstored
          obtain ⟨before, e', after, rfl, hnodup, htaken, t', hfails⟩ :=
            ih (hbefore.step hstores hsame) (hstores.entered hentered) hrest
              (fun e he => hchecks e (List.mem_cons_of_mem _ he)) (by simpa using hshared)
          refine ⟨e :: before, e', after, rfl, by simpa using hnodup, by simpa using htaken,
            t', ?_⟩
          rw [List.foldlM_cons]
          exact fails_bind.2 (Or.inr ⟨d₁, t₁, hfirst, hfails⟩)

end Draft

end ConfigCompiler
