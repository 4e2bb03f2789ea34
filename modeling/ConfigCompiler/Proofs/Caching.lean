import ConfigCompiler.Proofs.Files
import ConfigCompiler.Proofs.Fingerprints
import ConfigCompiler.Proofs.Persistence
import ConfigCompiler.Startup

/-!
# The cache is transparent

With the cache enabled, a startup answers from what is persisted if that is current, and
otherwise as it would without the cache, leaving what it compiled for the next one.

**Relations.**  `IsCurrentAt`: a configuration that is current for a fingerprint stands at a
path.  `Writes`: what is saved at a path is on the disk afterwards.

**Results.**
* `load_save`: a compiled configuration that was saved is loaded, but for its raw entries.
* `obtainCached_of_current`, `obtainCached_of_not_current`: the hit and the miss.
* `startWith_cached`: startup with the cache, for every disk, and the one that follows it.
-/

namespace ConfigCompiler
namespace Startup

open Resolution

variable {disk : Disk} {path current root : String} {settings : Settings} {r : Resolver}
variable {tables t' : SchemaTables} {time : Timestamp} {store : EntryStore}
variable {c : Compiled} {collisions : List AliasCollision}

/-- A configuration that is current for a fingerprint stands at a path. -/
def IsCurrentAt (disk : Disk) (path current : String) : Prop :=
  ∃ c, load disk path = .ok c ∧ c.isCurrent current = true

/-- What is saved at a path is written, and not into a sink. -/
def Writes (disk : Disk) (path : String) (c : Compiled) : Prop :=
  (save disk path c).2 = true ∧ (save disk path c).1.lookup? path ≠ some .sink

/-- Where every file that is saved stands on the disk, what is saved is written. -/
theorem Writes.of_saveFile (c : Compiled)
    (h : ∀ bytes, (disk.saveFile path bytes).2 = true ∧
      (disk.saveFile path bytes).1.lookup? path = some (.file bytes)) : Writes disk path c := by
  obtain ⟨hsaved, hfile⟩ := h c.persisted.toUTF8.toList
  refine ⟨hsaved, fun hsink => ?_⟩
  rw [save, hfile] at hsink
  cases hsink

/-- A compiled configuration that was saved is loaded, but for its raw entries. -/
theorem load_save (hwrites : Writes disk path c) (hpersistable : c.IsPersistable) :
    load (save disk path c).1 path = .ok { c with source? := none } := by
  obtain ⟨hsaved, hsink⟩ := hwrites
  have hfile : (save disk path c).1.lookup? path =
      some (.file c.persisted.toUTF8.toList) :=
    (Disk.lookup?_saveFile hsaved).resolve_right hsink
  unfold load
  rw [Disk.readText?_of_file hfile]
  simp only [Compiled.ofPersisted?_persisted hpersistable]

/-- What loads stands somewhere. -/
theorem pathExists_of_load (h : load disk path = .ok c) : disk.pathExists path = true := by
  rw [Disk.pathExists]
  cases hlookup : disk.lookup? path with
  | some n => rfl
  | none => simp [load, Disk.readText?, hlookup] at h

/-- The state is current where a current configuration loads. -/
theorem persistedState_eq_current :
    persistedState disk path current = .current c ↔
      load disk path = .ok c ∧ c.isCurrent current = true := by
  constructor
  · intro h
    unfold persistedState at h
    split at h
    · split at h
      · next c' hload =>
          split at h
          · next hcurrent =>
              cases h
              exact ⟨hload, hcurrent⟩
          · cases h
      · cases h
    · cases h
  · rintro ⟨hload, hcurrent⟩
    rw [persistedState, if_pos (pathExists_of_load hload), hload]
    exact if_pos hcurrent

/-- What is current is taken, and the disk is left as it is. -/
theorem obtainCached_of_current (hload : load disk path = .ok c)
    (hcurrent : c.isCurrent (fingerprint store.entries r) = true) :
    obtainCached r tables time store disk path = ⟨.ok c, disk, [.reused]⟩ := by
  have hstate := persistedState_eq_current.2 ⟨hload, hcurrent⟩
  unfold obtainCached
  rw [hstate]
  rfl

/-- Where nothing is current, the entries are compiled. -/
theorem obtainCached_of_not_current (tables : SchemaTables) (time : Timestamp)
    (h : ¬IsCurrentAt disk path (fingerprint store.entries r)) :
    ∃ events, obtainCached r tables time store disk path =
      compileAndSave r tables time store disk path events := by
  unfold obtainCached
  cases hstate : persistedState disk path (fingerprint store.entries r) with
  | current c => exact absurd ⟨c, persistedState_eq_current.1 hstate⟩ h
  | _ => exact ⟨_, rfl⟩

/-- A compilation that fails leaves the disk as it is. -/
theorem compileAndSave_of_fails {f : Failure} {events : List Event}
    (h : (compile r time store).Fails tables f t') :
    compileAndSave r tables time store disk path events = ⟨.error f, disk, events⟩ := by
  unfold compileAndSave
  rw [h]

/-- What is compiled is the result, and it is saved. -/
theorem compileAndSave_of_returns (events : List Event)
    (h : (compile r time store).Returns tables (c, collisions) t') (hwrites : Writes disk path c) :
    compileAndSave r tables time store disk path events =
      ⟨.ok c, (save disk path c).1, events⟩ := by
  unfold compileAndSave
  rw [h]
  obtain ⟨saved, written, hsave⟩ : ∃ saved written, save disk path c = (saved, written) :=
    ⟨_, _, rfl⟩
  obtain rfl : written = true := by
    rw [← hwrites.1, hsave]
  simp only [hsave]

/-- What is compiled and saved loads, and it is current for what it was compiled from. -/
theorem load_of_compiled (htime : time.IsWritable)
    (hcompile : (compile r time store).Returns tables (c, collisions) t')
    (hlegible : c.toValue.tree.isLegible Json.Document.maxDepth = true)
    (hwrites : Writes disk path c) :
    load (save disk path c).1 path = .ok { c with source? := none } ∧
      c.isCurrent (fingerprint store.entries r) = true := by
  obtain ⟨hversion, hfingerprint, hstamp⟩ := compile_stamp hcompile
  refine ⟨load_save hwrites ⟨hlegible, hversion ▸ by decide, hstamp ▸ htime⟩, ?_⟩
  simp [Compiled.isCurrent, hversion, hfingerprint]

/-- The result of a miss is what the compilation answers. -/
theorem result_compileAndSave (events : List Event) :
    (compileAndSave r tables time store disk path events).result =
      (((compile r time store).ask tables).1).map Prod.fst := by
  unfold compileAndSave
  split
  · next f hf =>
      rw [hf]
      rfl
  · next c collisions hc =>
      rw [hc]
      split <;> rfl

/-- Startup from what was obtained. -/
def startFrom (settings : Settings) (obtained : Obtained) : Outcome :=
  match obtained.result with
  | .error f => ⟨.error (.compilation f), obtained.disk, obtained.events⟩
  | .ok c => ⟨registriesOf settings c, obtained.disk, obtained.events⟩

theorem disk_startFrom (settings : Settings) (obtained : Obtained) :
    (startFrom settings obtained).disk = obtained.disk := by
  unfold startFrom
  split <;> rfl

theorem startWith_enabled (henabled : settings.cacheEnabled = true) :
    startWith settings root r tables time store disk =
      startFrom settings
        (obtainCached r tables time store disk (settings.cacheLocation root)) := by
  unfold startWith obtain
  rw [if_pos henabled]
  rfl

/-- Startup takes what is current and leaves the disk as it is. -/
theorem startWith_of_current (henabled : settings.cacheEnabled = true)
    (hload : load disk (settings.cacheLocation root) = .ok c)
    (hcurrent : c.isCurrent (fingerprint store.entries r) = true) :
    startWith settings root r tables time store disk =
      ⟨registriesOf settings c, disk, [.reused]⟩ := by
  rw [startWith_enabled henabled, obtainCached_of_current hload hcurrent]
  rfl

/-- Without the cache startup ends as the compilation does. -/
theorem result_startWith_disabled :
    (startWith { settings with cacheEnabled := false } root r tables time store disk).result =
      (startFrom settings
        ⟨((compile r time store).ask tables).1.map Prod.fst, disk, []⟩).result := by
  unfold startWith obtain
  rw [if_neg (by simp)]
  cases ((compile r time store).ask tables).1.map Prod.fst <;> rfl

/-- How startup ends depends on what was obtained, not on where the disk stands. -/
theorem result_startFrom_congr {a b : Obtained} (h : a.result = b.result) :
    (startFrom settings a).result = (startFrom settings b).result := by
  unfold startFrom
  rw [h]
  split <;> rfl

/-- What was compiled ends in no failure to compile. -/
theorem registriesOf_ne_compilation (settings : Settings) (c : Compiled) (f : Failure) :
    registriesOf settings c ≠ .error (.compilation f) := by
  unfold registriesOf
  dsimp only
  split
  · split <;> nofun
  · nofun

end Startup

open Startup Resolution

/-- Startup with the cache enabled, whatever stands at the path of the cache.  If nothing there
is current, startup ends as it does without the cache, and what was compiled loads from the path.
A startup that follows, unless the compilation failed, takes what is there, leaves the disk as it
is and ends in the same way, whatever the time and whatever its resolver was used for.  If the
compilation fails the disk is left as it was. -/
theorem startWith_cached (settings : Settings) (root : String) (r : Resolver)
    (tables : SchemaTables) (time : Timestamp) (store : EntryStore) (disk : Disk)
    (henabled : settings.cacheEnabled = true) (htime : time.IsWritable)
    (hlegible : ∀ c collisions t', (compile r time store).Returns tables (c, collisions) t' →
      c.toValue.tree.isLegible Json.Document.maxDepth = true)
    (hwrites : ∀ c collisions t', (compile r time store).Returns tables (c, collisions) t' →
      Writes disk (settings.cacheLocation root) c) :
    let path := settings.cacheLocation root
    let first := startWith settings root r tables time store disk
    (¬IsCurrentAt disk path (fingerprint store.entries r) →
      first.result =
          (startWith { settings with cacheEnabled := false } root r tables time store disk).result ∧
        ∀ c collisions t', (compile r time store).Returns tables (c, collisions) t' →
          load first.disk path = .ok { c with source? := none }) ∧
    ((∀ f, first.result ≠ .error (.compilation f)) → ∀ tables' time',
      let second := startWith settings root r tables' time' store first.disk
      second.events = [.reused] ∧ second.disk = first.disk ∧ second.result = first.result) ∧
    ∀ f t', (compile r time store).Fails tables f t' → first.disk = disk := by
  intro path first
  have hfirst : first = startFrom settings (obtainCached r tables time store disk path) :=
    startWith_enabled henabled
  -- once something current loads, the startup that follows takes it
  have hreuse : ∀ c, load first.disk path = .ok c →
      c.isCurrent (fingerprint store.entries r) = true →
      first.result = registriesOf settings c → ∀ tables' time',
      let second := startWith settings root r tables' time' store first.disk
      second.events = [.reused] ∧ second.disk = first.disk ∧ second.result = first.result := by
    intro c hload hcurrent hresult tables' time' second
    have hsecond : second = ⟨registriesOf settings c, first.disk, [.reused]⟩ :=
      startWith_of_current henabled hload hcurrent
    rw [hsecond, hresult]
    exact ⟨rfl, rfl, rfl⟩
  by_cases hhit : IsCurrentAt disk path (fingerprint store.entries r)
  · obtain ⟨c, hload, hcurrent⟩ := hhit
    have htaken : first = ⟨registriesOf settings c, disk, [.reused]⟩ :=
      startWith_of_current henabled hload hcurrent
    have hdisk : first.disk = disk := by rw [htaken]
    refine ⟨fun hmiss => absurd ⟨c, hload, hcurrent⟩ hmiss, fun _ => ?_, fun _ _ _ => hdisk⟩
    exact hreuse c (hdisk ▸ hload) hcurrent (by rw [htaken])
  · obtain ⟨events, hmiss⟩ := obtainCached_of_not_current tables time hhit
    rw [hmiss] at hfirst
    have hresult : first.result = (startWith { settings with cacheEnabled := false } root r tables
        time store disk).result := by
      rw [hfirst, result_startWith_disabled]
      exact result_startFrom_congr (result_compileAndSave events)
    obtain ⟨⟨c, collisions⟩, t', hcompile⟩ | ⟨f, t', hfailed⟩ :=
      returns_or_fails (compile r time store) tables
    · have hwritten := hwrites c collisions t' hcompile
      rw [compileAndSave_of_returns events hcompile hwritten] at hfirst
      obtain ⟨hsaved, hcurrent⟩ :=
        load_of_compiled htime hcompile (hlegible c collisions t' hcompile) hwritten
      have hload : load first.disk path = .ok { c with source? := none } := by
        rw [hfirst, disk_startFrom]
        exact hsaved
      refine ⟨fun _ => ⟨hresult, fun c' collisions' t'' hcompile' => ?_⟩,
        fun _ => hreuse _ hload hcurrent ?_, fun f t'' hfails => absurd hfails hcompile.not_fails⟩
      · obtain ⟨heq, -⟩ := hcompile.unique hcompile'
        rw [← (Prod.mk.inj heq).1]
        exact hload
      · rw [hfirst]
        rfl
    · rw [compileAndSave_of_fails hfailed] at hfirst
      have hnone : first.result = .error (.compilation f) := by
        rw [hfirst]
        rfl
      refine ⟨fun _ => ⟨hresult, fun c collisions t'' hreturns => ?_⟩,
        fun hok => absurd hnone (hok f), fun _ _ _ => ?_⟩
      · exact absurd hfailed hreturns.not_fails
      · rw [hfirst, disk_startFrom]

namespace Bakery

def resolver : Resolver :=
  Resolver.ofCatalog (Catalog.empty.registerAction { name := "bakery::Bake" })

/-- Bread is baked by a type that has no entry of its own. -/
def store : EntryStore where
  catalog := resolver.catalog
  entries := { EntryTable.empty with
    namespaces := SortedMap.singleton "bakery" ∅
    resources := SortedMap.singleton "bread" (SortedMap.ofList [
      ("actions", .object (SortedMap.singleton "bakery::Bake" (.object ∅))),
      ("entity", .string "Bread"), ("namespace", .string "bakery")]) }

def settings : Settings := { cacheEnabled := true }

def path : String := settings.cacheLocation "/bakery"

/-- A disk with a file that is no configuration where the cache should be. -/
def disk : Disk :=
  ((Disk.empty.put ["bakery"] .directory).put ["bakery", ".resconf"] .directory).put
    ["bakery", ".resconf", "compiled.json"] (.file [])

/-- Whatever is saved is written over the file that is there. -/
theorem writes (c : Compiled) : Writes disk path c :=
  Writes.of_saveFile c (fun _ => ⟨rfl, rfl⟩)

end Bakery

/-- The first startup compiles and discovers the type; the second one takes what it left. -/
theorem startWith_cached_bakery :
    ∃ first second,
      first = startWith Bakery.settings "/bakery" Bakery.resolver .empty .epoch Bakery.store
        Bakery.disk ∧
      second = startWith Bakery.settings "/bakery" Bakery.resolver .empty .epoch Bakery.store
        first.disk ∧
      (∃ c, load first.disk Bakery.path = .ok c ∧
        c.sets.actions.configs.contains "bake" = true) ∧
      second.events = [.reused] ∧ second.disk = first.disk ∧ second.result = first.result := by
  obtain ⟨⟨c, collisions⟩, t', hcompile, htest⟩ := returns_of_any
    (x := compile Bakery.resolver .epoch Bakery.store) (t := .empty)
    (p := fun answer => answer.1.toValue.tree.isLegible Json.Document.maxDepth &&
      answer.1.sets.actions.configs.contains "bake")
    (by decide +kernel)
  obtain ⟨hlegible, hbake⟩ := Bool.and_eq_true_iff.1 htest
  obtain ⟨hmiss, hagain, -⟩ := startWith_cached Bakery.settings "/bakery" Bakery.resolver .empty
    .epoch Bakery.store Bakery.disk rfl (by decide)
    (fun c' collisions' t'' h => (Prod.mk.inj (hcompile.unique h).1).1 ▸ hlegible)
    (fun c' _ _ _ => Bakery.writes c')
  have hunreadable : ¬IsCurrentAt Bakery.disk Bakery.path
      (fingerprint Bakery.store.entries Bakery.resolver) := by
    rintro ⟨c', hload, -⟩
    have hnone : (load Bakery.disk Bakery.path).toOption.isSome = false := by decide +kernel
    rw [hload] at hnone
    cases hnone
  obtain ⟨hresult, hkept⟩ := hmiss hunreadable
  have hstarted : ∀ f, (startWith Bakery.settings "/bakery" Bakery.resolver .empty .epoch
      Bakery.store Bakery.disk).result ≠ .error (.compilation f) := by
    intro f
    rw [hresult, result_startWith_disabled, hcompile]
    exact registriesOf_ne_compilation Bakery.settings c f
  exact ⟨_, _, rfl, rfl, ⟨_, hkept c collisions t' hcompile, hbake⟩, hagain hstarted .empty .epoch⟩

end ConfigCompiler
