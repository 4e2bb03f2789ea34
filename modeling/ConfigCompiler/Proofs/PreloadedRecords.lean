import ConfigCompiler.Proofs.HandedOut
import ConfigCompiler.Proofs.RecordFields

/-!
# Records that were put into the cache

A registry of resources may start with records in its cache: those that it would have
built itself.  It then answers as if it had started with none, except for one thing.  A
record gets its link to the registry when it is built, and what was in the cache is never
built: such a record has no children.

**Relation.**  `AlikeThrough p x y`: two answers that the projection `p` does not tell apart.  The
projection of records is `ResourceRecord.unlinked`, which drops the link.

**Results.**
* `Registry.alike_answer`: registries of the same entries, whose records are alike, answer
  every call alike.
* `ResourceRegistry.alike_answer`: the same for registries of resources.
* `ResourceRegistry.preloaded_records`: registries with and without records in the cache.
-/

namespace ConfigCompiler

section AlikeThrough

variable {α β γ δ : Type} {x y : Except Failure α} {p : α → γ}

/-- The projection does not tell the answers apart. -/
def AlikeThrough (p : α → γ) (x y : Except Failure α) : Prop := x.map p = y.map p

theorem AlikeThrough.refl (p : α → γ) (x : Except Failure α) : AlikeThrough p x x := rfl

/-- What a projection does not tell apart is the same as far as the projection shows it. -/
theorem AlikeThrough.bind {q : β → δ} {f g : α → Except Failure β} (h : AlikeThrough p x y)
    (hnext : ∀ a b, p a = p b → AlikeThrough q (f a) (g b)) :
    AlikeThrough q (x >>= f) (y >>= g) := by
  cases x with
  | error e =>
      cases y with
      | error e' =>
          obtain rfl : e = e' := Except.error.inj h
          exact AlikeThrough.refl q _
      | ok b => cases h
  | ok a =>
      cases y with
      | error e' => cases h
      | ok b => exact hnext a b (Except.ok.inj h)

theorem AlikeThrough.pure {a b : α} (h : p a = p b) :
    AlikeThrough p (pure a : Except Failure α) (pure b) :=
  congrArg Except.ok h

theorem AlikeThrough.mapM {f g : β → Except Failure α} {items : List β}
    (h : ∀ item ∈ items, AlikeThrough p (f item) (g item)) :
    AlikeThrough (List.map p) (items.mapM f) (items.mapM g) := by
  induction items with
  | nil => exact AlikeThrough.refl _ _
  | cons item rest ih =>
      rw [List.mapM_cons, List.mapM_cons]
      refine (h item List.mem_cons_self).bind (fun a b hab => ?_)
      refine (ih (fun other hother => h other (List.mem_cons_of_mem _ hother))).bind
        (fun more others hmore => AlikeThrough.pure ?_)
      rw [List.map_cons, List.map_cons, hab, hmore]

theorem AlikeThrough.foldlM {f g : α → β → Except Failure α} {items : List β}
    (h : ∀ a b, p a = p b → ∀ item ∈ items, AlikeThrough p (f a item) (g b item)) {a b : α}
    (hstart : p a = p b) : AlikeThrough p (items.foldlM f a) (items.foldlM g b) := by
  induction items generalizing a b with
  | nil => exact AlikeThrough.pure hstart
  | cons item rest ih =>
      rw [List.foldlM_cons, List.foldlM_cons]
      refine (h a b hstart item List.mem_cons_self).bind (fun a' b' hnext => ?_)
      exact ih (fun a b hab other hother => h a b hab other (List.mem_cons_of_mem _ hother)) hnext

end AlikeThrough

namespace Registry

variable {ρ γ : Type} [EntityRecord ρ] {g h : Registry ρ} {p : ρ → ρ}

/-- A reply as a projection of records shows it. -/
def Reply.map (p : ρ → ρ) : Reply ρ → Reply ρ
  | .has known => .has known
  | .record found => .record (found.1, p found.2)
  | .optional found? => .optional (found?.map (fun found => (found.1, p found.2)))
  | .records results => .records (results.map (Except.map p))
  | .count built => .count built

/-- The entries are the same, and the projection does not tell their records apart. -/
structure SameBy (p : ρ → ρ) (g h : Registry ρ) : Prop where
  set : h.set = g.set
  records : ∀ key stored, g.set.configs.get? key = some stored →
    AlikeThrough p (g.recordOf key stored) (h.recordOf key stored)

theorem SameBy.names_eq (hsame : SameBy p g h) : h.names = g.names := by
  rw [names, names, hsame.set]

theorem SameBy.canonical_eq (hsame : SameBy p g h) (name : String) :
    h.canonical name = g.canonical name := by
  rw [canonical, canonical, hsame.set]

theorem alike_optionalAnswer (hsame : SameBy p g h) (name : String) :
    AlikeThrough (Option.map (fun found => (found.1, p found.2))) (g.optionalAnswer name)
      (h.optionalAnswer name) := by
  unfold optionalAnswer
  rw [hsame.canonical_eq, hsame.set]
  cases hstored : g.set.configs.get? (g.canonical name) with
  | none => exact AlikeThrough.refl _ _
  | some stored =>
      refine (hsame.records _ stored hstored).bind (fun a b hab => AlikeThrough.pure ?_)
      rw [Option.map_some, Option.map_some, hab]

theorem alike_findAnswer (hsame : SameBy p g h) (name : String) :
    AlikeThrough (fun found => (found.1, p found.2)) (g.findAnswer name) (h.findAnswer name) := by
  refine (alike_optionalAnswer hsame name).bind (fun a b hab => ?_)
  cases a with
  | none =>
      cases b with
      | none => exact AlikeThrough.refl _ _
      | some found => cases hab
  | some found =>
      cases b with
      | none => cases hab
      | some other => exact AlikeThrough.pure (Option.some.inj hab)

theorem alike_recordAnswer (hsame : SameBy p g h) (name : String) :
    AlikeThrough p (g.recordAnswer name) (h.recordAnswer name) :=
  (alike_findAnswer hsame name).bind (fun _ _ hfound => AlikeThrough.pure (Prod.mk.inj hfound).2)

theorem alike_allAnswer (hsame : SameBy p g h) :
    AlikeThrough (List.map p) g.allAnswer h.allAnswer := by
  rw [allAnswer, allAnswer, hsame.names_eq]
  exact AlikeThrough.mapM (fun name _ => alike_recordAnswer hsame name)

/-- Every call is answered alike. -/
theorem alike_answer (hsame : SameBy p g h) (call : Call) :
    AlikeThrough (Reply.map p) (call.answer g) (call.answer h) := by
  cases call with
  | has name =>
      refine AlikeThrough.pure ?_
      rw [Registry.has, Registry.has, hsame.canonical_eq, hsame.set]
  | find name =>
      exact (alike_findAnswer hsame name).bind
        (fun _ _ hfound => AlikeThrough.pure (congrArg Reply.record hfound))
  | findOptional name =>
      exact (alike_optionalAnswer hsame name).bind
        (fun _ _ hfound => AlikeThrough.pure (congrArg Reply.optional hfound))
  | pass length =>
      refine AlikeThrough.pure (congrArg Reply.records ?_)
      rw [hsame.names_eq, List.map_map, List.map_map]
      exact List.map_congr_left (fun name _ => alike_recordAnswer hsame name)
  | warmUp =>
      have hcount : AlikeThrough id g.warmUpAnswer h.warmUpAnswer := by
        refine (alike_allAnswer hsame).bind (fun a b hab => AlikeThrough.pure ?_)
        simpa using congrArg List.length hab
      exact hcount.bind (fun _ _ hcount => AlikeThrough.pure (congrArg Reply.count hcount))

/-- The record that a text leads to is that of the entry. -/
theorem recordAnswer_of_stored {name : String} {stored : Options}
    (hstored : g.set.configs.get? (g.canonical name) = some stored) :
    g.recordAnswer name = g.recordOf (g.canonical name) stored := by
  unfold recordAnswer findAnswer optionalAnswer
  simp only [hstored]
  cases g.recordOf (g.canonical name) stored with
  | error e => rfl
  | ok record => rfl

/-- A text that leads nowhere. -/
theorem recordAnswer_of_missing {name : String}
    (hmissing : g.set.configs.get? (g.canonical name) = none) :
    g.recordAnswer name = .error (.notFound (EntityRecord.kind ρ) name) := by
  unfold recordAnswer findAnswer optionalAnswer
  rw [hmissing]
  rfl

end Registry

/-- The record without its link. -/
def ResourceRecord.unlinked (r : ResourceRecord) : ResourceRecord := { r with linked := false }

namespace ResourceRegistry

open Registry (SameBy)

variable {g h : ResourceRegistry} {r r' : ResourceRecord}

/-- A reply whose records are without their links. -/
def Reply.unlinked : Reply → Reply
  | .lookUp reply => .lookUp (reply.map ResourceRecord.unlinked)
  | .children m => .children (m.map ResourceRecord.unlinked)
  | reply => reply

/-- The derived maps do not show the links. -/
theorem namedParents_map (records : List ResourceRecord) :
    namedParents (records.map ResourceRecord.unlinked) = namedParents records := by
  rw [namedParents, List.foldl_map]
  rfl

theorem namedPriorities_map (records : List ResourceRecord) :
    namedPriorities (records.map ResourceRecord.unlinked) = namedPriorities records := by
  rw [namedPriorities, List.foldl_map]
  rfl

theorem alike_parentsAnswer (hsame : SameBy ResourceRecord.unlinked g.registry h.registry) :
    AlikeThrough id g.parentsAnswer h.parentsAnswer := by
  refine (Registry.alike_allAnswer hsame).bind (fun a b hab => ?_)
  have hparents : namedParents a = namedParents b := by
    rw [← namedParents_map a, ← namedParents_map b, hab]
  rw [hparents]
  exact AlikeThrough.refl _ _

theorem alike_depthsAnswer (hsame : SameBy ResourceRecord.unlinked g.registry h.registry) :
    AlikeThrough id g.depthsAnswer h.depthsAnswer := by
  refine (alike_parentsAnswer hsame).bind (fun a b hab => ?_)
  obtain rfl : a = b := hab
  rw [hsame.names_eq]
  exact AlikeThrough.refl _ _

theorem alike_prioritiesAnswer (hsame : SameBy ResourceRecord.unlinked g.registry h.registry) :
    AlikeThrough id g.prioritiesAnswer h.prioritiesAnswer := by
  refine (Registry.alike_allAnswer hsame).bind (fun a b hab => AlikeThrough.pure ?_)
  show namedPriorities a = namedPriorities b
  rw [← namedPriorities_map a, ← namedPriorities_map b, hab]

/-- Whether a record is taken among the children does not depend on its link. -/
theorem alike_withChild (parent : ResourceRecord) {m m' : SortedMap ResourceRecord}
    (hm : m.map ResourceRecord.unlinked = m'.map ResourceRecord.unlinked)
    (hr : r.unlinked = r'.unlinked) :
    AlikeThrough (SortedMap.map ResourceRecord.unlinked) (withChild parent m r)
      (withChild parent m' r') := by
  have hname : r.name = r'.name := (congrArg ResourceRecord.name hr :)
  have hparent : r.parent = r'.parent := (congrArg ResourceRecord.parent hr :)
  have hspace : r.nameSpace = r'.nameSpace := (congrArg ResourceRecord.nameSpace hr :)
  unfold withChild
  rw [hname, hparent, hspace]
  split
  · exact AlikeThrough.pure hm
  · split
    · exact AlikeThrough.refl _ _
    · refine AlikeThrough.pure (SortedMap.ext_get? (fun k => ?_))
      have hk := congrArg (fun m : SortedMap ResourceRecord => m.get? k) hm
      simp only [SortedMap.get?_map] at hk
      rw [SortedMap.get?_map, SortedMap.get?_map, SortedMap.get?_insert, SortedMap.get?_insert]
      split
      · exact congrArg some hr
      · exact hk

theorem alike_childrenAnswer (hsame : SameBy ResourceRecord.unlinked g.registry h.registry)
    (parent : ResourceRecord) :
    AlikeThrough (SortedMap.map ResourceRecord.unlinked) (g.childrenAnswer parent)
      (h.childrenAnswer parent) := by
  unfold childrenAnswer
  rw [hsame.names_eq]
  split
  · refine AlikeThrough.foldlM (fun m m' hm name _ => ?_) rfl
    exact (Registry.alike_recordAnswer hsame name).bind (fun _ _ hr => alike_withChild parent hm hr)
  · exact AlikeThrough.refl _ _

/-- Every call is answered alike. -/
theorem alike_answer (hsame : SameBy ResourceRecord.unlinked g.registry h.registry)
    (call : Call) : AlikeThrough Reply.unlinked (call.answer g) (call.answer h) := by
  cases call with
  | lookUp call =>
      exact (Registry.alike_answer hsame call).bind
        (fun _ _ hreply => AlikeThrough.pure (congrArg Reply.lookUp hreply))
  | parentMap =>
      exact (alike_parentsAnswer hsame).bind
        (fun _ _ hm => AlikeThrough.pure (congrArg Reply.parents hm))
  | depthMap =>
      exact (alike_depthsAnswer hsame).bind
        (fun _ _ hm => AlikeThrough.pure (congrArg Reply.depths hm))
  | eventPriorityMap =>
      exact (alike_prioritiesAnswer hsame).bind
        (fun _ _ hm => AlikeThrough.pure (congrArg Reply.eventPriorities hm))
  | children parent =>
      exact (alike_childrenAnswer hsame parent).bind
        (fun _ _ hm => AlikeThrough.pure (congrArg Reply.children hm))
  | invalidate => exact AlikeThrough.refl _ _

section Cache

variable {set : EntrySet} {defaults options : Options} {cache : SortedMap ResourceRecord}
variable {key name : String} {record : ResourceRecord}

/-- Every record in the cache is the one that its entry makes. -/
def Preloaded (set : EntrySet) (defaults : Options) (cache : SortedMap ResourceRecord) : Prop :=
  ∀ key record, cache.get? key = some record → ∃ stored, set.configs.get? key = some stored ∧
    EntityRecord.construct key (Options.merge defaults stored) = .ok record

theorem preloaded_empty {set : EntrySet} {defaults : Options} : Preloaded set defaults ∅ := by
  intro key record hrecord
  rw [SortedMap.get?_emptyCollection] at hrecord
  cases hrecord

/-- A record that is made says what its options say. -/
theorem readFrom_of_construct (h : EntityRecord.construct key options = .ok record) :
    record.ReadFrom options :=
  ResourceRecord.readFrom_of_decode (EntityRecord.construct_eq_ok_iff.1 h)

/-- A record is made without a link. -/
theorem linked_of_construct (h : EntityRecord.construct key options = .ok record) :
    record.linked = false :=
  (readFrom_of_construct h).linked

/-- What is in the cache is the record. -/
theorem recordOf_ofSet_of_kept {stored : Options} {kept : ResourceRecord}
    (hkept : cache.get? key = some kept) :
    (ofSet set defaults cache).registry.recordOf key stored = .ok kept := by
  simp only [Registry.recordOf, ofSet, hkept]

/-- What is not in the cache is made from its entry, as without any cache. -/
theorem recordOf_ofSet_of_missing {stored : Options} (hmissing : cache.get? key = none) :
    (ofSet set defaults cache).registry.recordOf key stored =
      (ofSet set defaults ∅).registry.recordOf key stored := by
  simp only [Registry.recordOf, ofSet, hmissing]
  rfl

/-- Without a cache the record is made from its entry and linked. -/
theorem recordOf_ofSet {stored : Options} :
    (ofSet set defaults ∅).registry.recordOf key stored =
      (EntityRecord.construct key (Options.merge defaults stored) :
        Except Failure ResourceRecord).map (fun r => { r with linked := true }) := rfl

/-- What a registry finds under a key: what was in its cache, or what the entry makes, with
a link. -/
theorem recordAt_ofSet (hpre : Preloaded set defaults cache)
    (h : (ofSet set defaults cache).registry.RecordAt key record) :
    ∃ stored, ∃ made : ResourceRecord, set.configs.get? key = some stored ∧
      EntityRecord.construct key (Options.merge defaults stored) = .ok made ∧
      record = { made with linked := !cache.contains key } := by
  obtain ⟨stored, hstored, hrecord⟩ := h
  cases hcache : cache.get? key with
  | some kept =>
      obtain ⟨stored', hstored', hmade⟩ := hpre key kept hcache
      obtain rfl := Except.ok.inj ((recordOf_ofSet_of_kept hcache).symm.trans hrecord)
      refine ⟨stored', kept, hstored', hmade, ?_⟩
      rw [SortedMap.contains_of_get? hcache, Bool.not_true, ← linked_of_construct hmade]
  | none =>
      rw [recordOf_ofSet_of_missing hcache, recordOf_ofSet] at hrecord
      cases hmade : (EntityRecord.construct key (Options.merge defaults stored) :
          Except Failure ResourceRecord) with
      | error e =>
          rw [hmade] at hrecord
          cases hrecord
      | ok made =>
          rw [hmade] at hrecord
          obtain rfl := Except.ok.inj hrecord
          refine ⟨stored, made, hstored, hmade, ?_⟩
          rw [SortedMap.contains_eq_isSome, hcache]
          rfl

/-- The records in the cache differ from those that are built by their links only. -/
theorem sameBy_of_preloaded (hpre : Preloaded set defaults cache) :
    SameBy ResourceRecord.unlinked (ofSet set defaults ∅).registry
      (ofSet set defaults cache).registry where
  set := rfl
  records := by
    intro key stored hstored
    cases hcache : cache.get? key with
    | none =>
        rw [recordOf_ofSet_of_missing hcache]
        exact AlikeThrough.refl _ _
    | some kept =>
        obtain ⟨stored', hstored', hmade⟩ := hpre key kept hcache
        obtain rfl := Option.some.inj (hstored'.symm.trans hstored)
        rw [recordOf_ofSet_of_kept hcache, recordOf_ofSet, hmade]
        exact AlikeThrough.pure rfl

/-- The children of the resource that a text leads to. -/
def childrenOf (name : String) : Asking ResourceRegistry (SortedMap ResourceRecord) := do
  children (← ResourceRegistry.find name)

theorem steady_childrenOf (g : ResourceRegistry) (name : String) :
    Asking.Steady (Derived g) (childrenOf name)
      (g.registry.recordAnswer name >>= g.childrenAnswer) :=
  (steady_find g name).bind (fun parent _ => steady_children g parent)

/-- A record that was in the cache has no children. -/
theorem children_of_preloaded (hpre : Preloaded set defaults cache)
    (hcache : cache.contains ((ofSet set defaults cache).registry.canonical name) = true) :
    ((ofSet set defaults cache).registry.recordAnswer name >>=
      (ofSet set defaults cache).childrenAnswer) = .ok ∅ := by
  obtain ⟨kept, hkept⟩ := SortedMap.exists_of_contains hcache
  obtain ⟨stored, hstored, hmade⟩ := hpre _ kept hkept
  rw [Registry.recordAnswer_of_stored hstored, recordOf_ofSet_of_kept hkept]
  show (ofSet set defaults cache).childrenAnswer kept = .ok ∅
  rw [childrenAnswer, linked_of_construct hmade]
  rfl

/-- What a text leads to is the same as without any cache, unless it is in the cache. -/
theorem recordAnswer_of_missing
    (hmissing : cache.get? ((ofSet set defaults cache).registry.canonical name) = none) :
    (ofSet set defaults cache).registry.recordAnswer name =
      (ofSet set defaults ∅).registry.recordAnswer name := by
  let built := (ofSet set defaults ∅).registry
  cases hstored : set.configs.get? ((ofSet set defaults cache).registry.canonical name) with
  | none =>
      have hbuilt : built.set.configs.get? (built.canonical name) = none := hstored
      rw [Registry.recordAnswer_of_missing hstored, Registry.recordAnswer_of_missing hbuilt]
  | some stored =>
      have hbuilt : built.set.configs.get? (built.canonical name) = some stored := hstored
      rw [Registry.recordAnswer_of_stored hstored, Registry.recordAnswer_of_stored hbuilt,
        recordOf_ofSet_of_missing hmissing]
      rfl

/-- A record that was not in the cache has the children that it has without any cache. -/
theorem children_of_missing (hpre : Preloaded set defaults cache)
    (hmissing : cache.get? ((ofSet set defaults cache).registry.canonical name) = none) :
    AlikeThrough (SortedMap.map ResourceRecord.unlinked)
      ((ofSet set defaults ∅).registry.recordAnswer name >>=
        (ofSet set defaults ∅).childrenAnswer)
      ((ofSet set defaults cache).registry.recordAnswer name >>=
        (ofSet set defaults cache).childrenAnswer) := by
  rw [recordAnswer_of_missing hmissing]
  refine AlikeThrough.bind (AlikeThrough.refl id _) (fun parent parent' hparent => ?_)
  obtain rfl : parent = parent' := hparent
  exact alike_childrenAnswer (sameBy_of_preloaded hpre) parent

/-- A registry that starts with records of its own making answers every call as one that
starts with none, but for the links of records.  A record that was built is linked; one that
was in the cache is not, and has no children; the others have the same children as ever. -/
theorem preloaded_records (set : EntrySet) (defaults : Options)
    (cache : SortedMap ResourceRecord) (hpre : Preloaded set defaults cache) :
    let built := ofSet set defaults ∅
    let preloaded := ofSet set defaults cache
    (∀ calls, (preloaded.answersTo calls).map (Except.map Reply.unlinked) =
      (built.answersTo calls).map (Except.map Reply.unlinked)) ∧
    (∀ record, built.HandedOut record → record.linked = true) ∧
    (∀ record, preloaded.HandedOut record → ∃ key stored, ∃ made : ResourceRecord,
      set.configs.get? key = some stored ∧
      EntityRecord.construct key (Options.merge defaults stored) = .ok made ∧
      record = { made with linked := !cache.contains key }) ∧
    ∀ calls name,
      (cache.contains (preloaded.registry.canonical name) = true →
        ((childrenOf name).ask (preloaded.after calls)).1 = .ok ∅) ∧
      (cache.contains (preloaded.registry.canonical name) = false →
        AlikeThrough (SortedMap.map ResourceRecord.unlinked)
          ((childrenOf name).ask (built.after calls)).1
          ((childrenOf name).ask (preloaded.after calls)).1) := by
  intro built preloaded
  have hbuilt : Derived built built := derived_ofSet set defaults ∅
  have hpreloaded : Derived preloaded preloaded := derived_ofSet set defaults cache
  refine ⟨fun calls => ?_, fun record hrecord => ?_, fun record hrecord => ?_,
    fun calls name => ?_⟩
  · rw [answersTo_eq hbuilt, answersTo_eq hpreloaded, List.map_map, List.map_map]
    exact List.map_congr_left (fun call _ => (alike_answer (sameBy_of_preloaded hpre) call).symm)
  · obtain ⟨key, hat⟩ := recordAt_of_handedOut hbuilt hrecord
    obtain ⟨_, _, -, -, rfl⟩ := recordAt_ofSet preloaded_empty hat
    rfl
  · obtain ⟨key, hat⟩ := recordAt_of_handedOut hpreloaded hrecord
    exact ⟨key, recordAt_ofSet hpre hat⟩
  · rw [(steady_childrenOf built name _ (derived_after hbuilt calls)).1,
      (steady_childrenOf preloaded name _ (derived_after hpreloaded calls)).1]
    refine ⟨children_of_preloaded hpre, fun hmissing => children_of_missing hpre ?_⟩
    rwa [SortedMap.contains_eq_isSome, Option.isSome_eq_false_iff, Option.isNone_iff_eq_none]
      at hmissing

end Cache

namespace Blog

def blog : Options :=
  SortedMap.ofList [("name", .string "blog"), ("driver", .string "orm"),
    ("namespace", .string "press"), ("entity", .string "Blog")]

def post : Options :=
  SortedMap.ofList [("name", .string "post"), ("driver", .string "orm"),
    ("namespace", .string "press"), ("entity", .string "Post"), ("parent", .string "blog")]

/-- The post belongs to the blog. -/
def set : EntrySet := ⟨SortedMap.ofList [("blog", blog), ("post", post)], ∅⟩

/-- The record of the blog. -/
def record : ResourceRecord where
  name := "blog"
  driver := "orm"
  nameSpace := "press"
  entity := "Blog"
  interface := none
  parent := none
  translationType := none
  translatableFields := []
  label := none
  translationDomain := none
  actions := ∅
  behaviors := ∅
  permissions := []
  eventClass := none
  eventPriority := 0
  options := ∅
  extra := ∅

/-- The record of the blog is in the cache. -/
def cache : SortedMap ResourceRecord := SortedMap.singleton "blog" record

theorem construct_blog :
    EntityRecord.construct "blog" (Options.merge ∅ blog) = .ok record := by
  rfl

theorem preloaded : Preloaded set ∅ cache := by
  intro key kept hkept
  have hmem : (key, kept) ∈ [("blog", record)] := (SortedMap.mem_entries_iff _ _ _).2 hkept
  obtain ⟨rfl, rfl⟩ := Prod.mk.inj (List.mem_singleton.1 hmem)
  exact ⟨blog, rfl, construct_blog⟩

def calls : List Call := [.lookUp (.find "post"), .parentMap, .children record, .invalidate]

end Blog

theorem preloaded_records_blog :
    ((ofSet Blog.set ∅ Blog.cache).answersTo Blog.calls).map (Except.map Reply.unlinked) =
        ((ofSet Blog.set ∅ ∅).answersTo Blog.calls).map (Except.map Reply.unlinked) ∧
      ((childrenOf "blog").ask ((ofSet Blog.set ∅ Blog.cache).after Blog.calls)).1 = .ok ∅ ∧
      AlikeThrough (SortedMap.map ResourceRecord.unlinked)
        ((childrenOf "post").ask ((ofSet Blog.set ∅ ∅).after Blog.calls)).1
        ((childrenOf "post").ask ((ofSet Blog.set ∅ Blog.cache).after Blog.calls)).1 := by
  obtain ⟨hcalls, -, -, hchildren⟩ := preloaded_records Blog.set ∅ Blog.cache Blog.preloaded
  exact ⟨hcalls Blog.calls, (hchildren Blog.calls "blog").1 (by decide +kernel),
    (hchildren Blog.calls "post").2 (by decide +kernel)⟩

/-- The blog has a post, but not if its record was in the cache. -/
theorem cached_blog_childless :
    ¬ ∀ set defaults cache, Preloaded set defaults cache → ∀ name,
      ((childrenOf name).ask (ofSet set defaults cache)).1.map SortedMap.keys =
        ((childrenOf name).ask (ofSet set defaults ∅)).1.map SortedMap.keys := by
  intro h
  have hsame := congrArg Except.toOption (h Blog.set ∅ Blog.cache Blog.preloaded "blog")
  revert hsame
  decide +kernel

end ResourceRegistry

end ConfigCompiler
