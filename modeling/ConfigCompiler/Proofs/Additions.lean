import ConfigCompiler.Proofs.FailureSources

/-!
# Additions to the store

Options are added under names, again and again and in any order, and some additions fail.
Here a whole run of additions is told name by name: what is stored in the end under a name
comes from what was stored there at first and from the options added under it, in order.

**Runs.**  `EntryStore.addInPlace` is one addition the way a store is changed in place: the
entry is taken out before it is known what replaces it.  `EntryStore.addAll` is a run of
additions, which goes on after failures.

**Input.**  `EntryStore.entryAfter` is what options make of an entry, and `Addition.optionsFor`
are the options that a run adds under one name.

**Results.**
* `EntryStore.addInPlace_eq`: taking the entry out first makes no difference.
* `EntryStore.outcome_addInPlace`: an addition stores what it answers, or changes nothing.
* `EntryStore.get?_addAll`: the entry under a name is a fold over the options added under it.
* `EntryStore.entryFrom_foldl`: the first options that make an entry count, and those after
  them are merged in.
* `EntryStore.addAll_congr`: runs that add the same under every name end in the same store.
* `EntryStore.additions_by_name`: all of this, and how a single addition ends.
-/

namespace ConfigCompiler

/-- Options to be added under a name. -/
structure Addition where
  kind : EntityKind
  name : String
  options : Options

/-- The options that a list of additions has for one name, in order. -/
def Addition.optionsFor (kind : EntityKind) (name : String) (adds : List Addition) :
    List Options :=
  (adds.filter (fun a => a.kind = kind ∧ a.name = name)).map Addition.options

namespace EntryStore

section Laws

variable {s : EntryStore} {a : Addition} {kind : EntityKind} {name : String}
variable {options entry : Options} {catalog : Catalog} {adds adds' : List Addition}

/-- The store without the entry of a name. -/
def take (s : EntryStore) (kind : EntityKind) (name : String) : EntryStore :=
  { s with entries := s.entries.set kind ((s.entries.get kind).erase name) }

/-- Add options.  The entry is taken out, and what replaces it is put back; if there was none
and none can be made, nothing is put back.  The answer comes with the store. -/
def addInPlace (s : EntryStore) (a : Addition) : Except Failure Options × EntryStore :=
  let rest := s.take a.kind a.name
  match s.get? a.kind a.name with
  | some existing =>
      let merged := Options.merge existing a.options
      (.ok merged, rest.put a.kind a.name merged)
  | none =>
      match firstEntry rest.catalog a.kind a.name a.options with
      | .ok first => (.ok first, rest.put a.kind a.name first)
      | .error f => (.error f, rest)

/-- Stores are equal if they have the same catalog and the same entries. -/
theorem ext_get? {s s' : EntryStore} (hcatalog : s.catalog = s'.catalog)
    (h : ∀ kind name, s.get? kind name = s'.get? kind name) : s = s' := by
  obtain ⟨catalog, entries⟩ := s
  obtain ⟨catalog', entries'⟩ := s'
  cases hcatalog
  have hentries : entries = entries' :=
    PerKind.ext_get (fun kind => SortedMap.ext_get? (fun name => h kind name))
  rw [hentries]

theorem get?_take (s : EntryStore) (kind : EntityKind) (name : String) (other : EntityKind)
    (key : String) :
    (s.take kind name).get? other key =
      if kind = other ∧ name = key then none else s.get? other key := by
  simp only [get?, take, PerKind.get_set]
  split
  · next hkind =>
      subst hkind
      simp [SortedMap.get?_erase]
  · next hkind => simp [hkind]

/-- What is put back replaces what was taken out. -/
theorem put_take (s : EntryStore) (kind : EntityKind) (name : String) (entry : Options) :
    (s.take kind name).put kind name entry = s.put kind name entry := by
  refine ext_get? rfl (fun other key => ?_)
  rw [get?_put, get?_put, get?_take]
  split <;> simp_all

/-- Where nothing is stored, nothing is taken out. -/
theorem take_eq_self (h : s.get? kind name = none) : s.take kind name = s := by
  refine ext_get? rfl (fun other key => ?_)
  rw [get?_take]
  split
  · next heq =>
      obtain ⟨rfl, rfl⟩ := heq
      exact h.symm
  · rfl

/-- Taking the entry out first makes no difference: an addition either answers what it stores,
or fails and leaves the store as it was. -/
theorem addInPlace_eq (s : EntryStore) (a : Addition) :
    s.addInPlace a =
      match s.add a.kind a.name a.options with
      | .ok (stored, s') => (.ok stored, s')
      | .error f => (.error f, s) := by
  unfold addInPlace add nextEntry
  cases hget : s.get? a.kind a.name with
  | some existing => simp only [put_take]
  | none =>
      simp only [take_eq_self hget]
      cases firstEntry s.catalog a.kind a.name a.options <;> rfl

/-- What options make of an entry: they are merged into it; and if there is none, they make a
first one, unless that fails. -/
def entryAfter (catalog : Catalog) (kind : EntityKind) (name : String) (held? : Option Options)
    (options : Options) : Option Options :=
  match held? with
  | some existing => some (Options.merge existing options)
  | none => (firstEntry catalog kind name options).toOption

/-- How an addition ends. -/
inductive Outcome (s : EntryStore) (a : Addition) : Except Failure Options → EntryStore → Prop
  /-- It stores what the options make of the entry. -/
  | stored {entry : Options} :
      entryAfter s.catalog a.kind a.name (s.get? a.kind a.name) a.options = some entry →
      Outcome s a (.ok entry) (s.put a.kind a.name entry)
  /-- There is no entry, and the options make none. -/
  | refused :
      s.get? a.kind a.name = none →
      firstEntry s.catalog a.kind a.name a.options = .error (.invalidIdentifier a.kind a.name) →
      Outcome s a (.error (.invalidIdentifier a.kind a.name)) s

theorem outcome_addInPlace (s : EntryStore) (a : Addition) :
    Outcome s a (s.addInPlace a).1 (s.addInPlace a).2 := by
  rw [addInPlace_eq]
  unfold add nextEntry
  cases hget : s.get? a.kind a.name with
  | some existing => exact .stored (by rw [hget]; rfl)
  | none =>
      simp only
      cases hfirst : firstEntry s.catalog a.kind a.name a.options with
      | ok first =>
          refine .stored ?_
          simp only [hget, entryAfter, hfirst]
          rfl
      | error f =>
          cases Draft.firstEntry_error hfirst
          exact .refused hget hfirst

theorem Outcome.catalog_eq {answer : Except Failure Options} {s' : EntryStore}
    (h : Outcome s a answer s') : s'.catalog = s.catalog := by
  cases h <;> rfl

/-- An addition changes what is stored under its own name, and nothing else. -/
theorem Outcome.get?_eq {answer : Except Failure Options} {s' : EntryStore}
    (h : Outcome s a answer s') (kind : EntityKind) (name : String) :
    s'.get? kind name =
      if a.kind = kind ∧ a.name = name then
        entryAfter s.catalog kind name (s.get? kind name) a.options
      else s.get? kind name := by
  cases h with
  | stored hentry =>
      rw [get?_put]
      split
      · next heq =>
          obtain ⟨rfl, rfl⟩ := heq
          exact hentry.symm
      · rfl
  | refused hnone hfirst =>
      split
      · next heq =>
          obtain ⟨rfl, rfl⟩ := heq
          rw [hnone, entryAfter, hfirst]
          rfl
      · rfl

/-- An addition that succeeds answers what is then stored. -/
theorem Outcome.get?_of_ok {s' : EntryStore} (h : Outcome s a (.ok entry) s') :
    s'.get? a.kind a.name = some entry := by
  cases h with
  | stored _ => rw [get?_put, if_pos ⟨rfl, rfl⟩]

/-- An addition that fails leaves the store as it was. -/
theorem Outcome.of_error {s' : EntryStore} {f : Failure} (h : Outcome s a (.error f) s') :
    f = .invalidIdentifier a.kind a.name ∧ s' = s := by
  cases h with
  | refused _ _ => exact ⟨rfl, rfl⟩

/-- An addition under a name that is stored succeeds. -/
theorem Outcome.succeeds {answer : Except Failure Options} {s' : EntryStore}
    (h : Outcome s a answer s') (hstored : s.contains a.kind a.name = true) :
    ∃ entry, answer = .ok entry := by
  cases h with
  | stored _ => exact ⟨_, rfl⟩
  | refused hnone _ =>
      have hsome : (s.get? a.kind a.name).isSome = true := hstored
      rw [hnone] at hsome
      cases hsome

/-- The store after a list of additions. -/
def addAll (s : EntryStore) (adds : List Addition) : EntryStore :=
  adds.foldl (fun s a => (s.addInPlace a).2) s

theorem catalog_addAll (s : EntryStore) (adds : List Addition) :
    (s.addAll adds).catalog = s.catalog := by
  induction adds generalizing s with
  | nil => rfl
  | cons a rest ih =>
      show ((s.addInPlace a).2.addAll rest).catalog = _
      rw [ih, (outcome_addInPlace s a).catalog_eq]

/-- What is stored under a name comes from what was stored there and from the options added
under it, in order. -/
theorem get?_addAll (s : EntryStore) (adds : List Addition) (kind : EntityKind)
    (name : String) :
    (s.addAll adds).get? kind name =
      (Addition.optionsFor kind name adds).foldl (entryAfter s.catalog kind name)
        (s.get? kind name) := by
  induction adds generalizing s with
  | nil => rfl
  | cons a rest ih =>
      have hstep := outcome_addInPlace s a
      show ((s.addInPlace a).2.addAll rest).get? kind name = _
      rw [ih, hstep.catalog_eq, hstep.get?_eq]
      by_cases hname : a.kind = kind ∧ a.name = name <;> simp [Addition.optionsFor, hname]

/-- Runs that add the same under every name, each in its order, end in the same store. -/
theorem addAll_congr (s : EntryStore)
    (h : ∀ kind name, Addition.optionsFor kind name adds = Addition.optionsFor kind name adds') :
    s.addAll adds = s.addAll adds' := by
  refine ext_get? ?_ (fun kind name => ?_)
  · rw [catalog_addAll, catalog_addAll]
  · rw [get?_addAll, get?_addAll, h kind name]

/-- What becomes of an entry to which bags are added. -/
inductive EntryFrom (catalog : Catalog) (kind : EntityKind) (name : String) :
    Option Options → List Options → Option Options → Prop
  /-- Every bag is merged into an entry that is there. -/
  | merged (entry : Options) (bags : List Options) :
      EntryFrom catalog kind name (some entry) bags (some (bags.foldl Options.merge entry))
  /-- No bag makes an entry. -/
  | refused {bags : List Options} :
      (∀ bag ∈ bags, ∃ f, firstEntry catalog kind name bag = .error f) →
      EntryFrom catalog kind name none bags none
  /-- The first bag that makes an entry is followed by the bags after it. -/
  | first (before : List Options) {after : List Options} {bag entry : Options} :
      (∀ bag ∈ before, ∃ f, firstEntry catalog kind name bag = .error f) →
      firstEntry catalog kind name bag = .ok entry →
      EntryFrom catalog kind name none (before ++ bag :: after)
        (some (after.foldl Options.merge entry))

theorem foldl_entryAfter_some (catalog : Catalog) (kind : EntityKind) (name : String)
    (entry : Options) (bags : List Options) :
    bags.foldl (entryAfter catalog kind name) (some entry) =
      some (bags.foldl Options.merge entry) := by
  induction bags generalizing entry with
  | nil => rfl
  | cons bag rest ih => exact ih (Options.merge entry bag)

theorem entryFrom_foldl_none (catalog : Catalog) (kind : EntityKind) (name : String)
    (bags : List Options) :
    EntryFrom catalog kind name none bags
      (bags.foldl (entryAfter catalog kind name) none) := by
  induction bags with
  | nil => exact .refused nofun
  | cons bag rest ih =>
      rw [List.foldl_cons]
      cases hfirst : firstEntry catalog kind name bag with
      | ok entry =>
          have hentry : entryAfter catalog kind name none bag = some entry := by
            rw [entryAfter, hfirst]
            rfl
          rw [hentry, foldl_entryAfter_some]
          exact .first [] nofun hfirst
      | error f =>
          have hentry : entryAfter catalog kind name none bag = none := by
            rw [entryAfter, hfirst]
            rfl
          rw [hentry]
          generalize rest.foldl (entryAfter catalog kind name) none = last at ih
          cases ih with
          | refused hrest => exact .refused (List.forall_mem_cons.2 ⟨⟨f, hfirst⟩, hrest⟩)
          | first before hbefore hentry =>
              exact .first (bag :: before)
                (List.forall_mem_cons.2 ⟨⟨f, hfirst⟩, hbefore⟩) hentry

/-- The fold over the bags of a name is what becomes of its entry. -/
theorem entryFrom_foldl (catalog : Catalog) (kind : EntityKind) (name : String)
    (held? : Option Options) (bags : List Options) :
    EntryFrom catalog kind name held? bags
      (bags.foldl (entryAfter catalog kind name) held?) := by
  cases held? with
  | none => exact entryFrom_foldl_none catalog kind name bags
  | some entry =>
      rw [foldl_entryAfter_some]
      exact .merged entry bags

/-- An action or behavior that is added without a class under the identifier of a registered
type starts from the defaults of the type, and has the type as its class. -/
theorem firstEntry_of_type {defaults : Options} (hkind : isTyped kind = true)
    (hidentifier : isTypeIdentifier name = true) (hclass : options.contains "class" = false)
    (hdefaults : catalog.defaultsOf? kind name = some defaults) :
    firstEntry catalog kind name options =
      .ok (Options.merge (defaults.insert "class" (.string name)) options) := by
  simp [firstEntry, hkind, hidentifier, hclass, hdefaults]

/-- Additions by name.  A single addition answers what is then stored, or fails because the
key is no identifier and leaves the store as it was; and it never fails under a name that is
stored.  After a run of additions, failed ones included, the entry under a name comes from the
entry that was there at first and the options added under the name, in order.  So two runs
that add the same under every name end in the same store, and compile alike. -/
theorem additions_by_name :
    (∀ (s : EntryStore) (a : Addition),
      (∀ entry, (s.addInPlace a).1 = .ok entry →
        (s.addInPlace a).2.get? a.kind a.name = some entry) ∧
      (∀ f, (s.addInPlace a).1 = .error f →
        f = .invalidIdentifier a.kind a.name ∧ (s.addInPlace a).2 = s) ∧
      (s.contains a.kind a.name = true → ∃ entry, (s.addInPlace a).1 = .ok entry) ∧
      s.addInPlace a =
        match s.add a.kind a.name a.options with
        | .ok (stored, s') => (.ok stored, s')
        | .error f => (.error f, s)) ∧
    (∀ (s : EntryStore) (adds : List Addition) (kind : EntityKind) (name : String),
      (s.addAll adds).get? kind name =
        (Addition.optionsFor kind name adds).foldl (entryAfter s.catalog kind name)
          (s.get? kind name) ∧
      EntryFrom s.catalog kind name (s.get? kind name) (Addition.optionsFor kind name adds)
        ((s.addAll adds).get? kind name)) ∧
    (∀ (catalog : Catalog) (kind : EntityKind) (name : String) (options defaults : Options),
      isTyped kind = true → isTypeIdentifier name = true → options.contains "class" = false →
      catalog.defaultsOf? kind name = some defaults →
        firstEntry catalog kind name options =
          .ok (Options.merge (defaults.insert "class" (.string name)) options)) ∧
    ∀ (s : EntryStore) (adds adds' : List Addition),
      (∀ kind name,
        Addition.optionsFor kind name adds = Addition.optionsFor kind name adds') →
      s.addAll adds = s.addAll adds' ∧ (s.addAll adds).lock = (s.addAll adds').lock ∧
      ∀ r time, compile r time (s.addAll adds) = compile r time (s.addAll adds') := by
  refine ⟨fun s a => ⟨fun entry hanswer => ?_, fun f hanswer => ?_,
      (outcome_addInPlace s a).succeeds, addInPlace_eq s a⟩, fun s adds kind name => ?_,
    fun catalog kind name options defaults => firstEntry_of_type, fun s adds adds' h => ?_⟩
  · have houtcome := outcome_addInPlace s a
    rw [hanswer] at houtcome
    exact houtcome.get?_of_ok
  · have houtcome := outcome_addInPlace s a
    rw [hanswer] at houtcome
    exact houtcome.of_error
  · rw [get?_addAll]
    exact ⟨rfl, entryFrom_foldl _ _ _ _ _⟩
  · rw [addAll_congr s h]
    exact ⟨rfl, rfl, fun _ _ => rfl⟩

end Laws

namespace PrintShop

def defaults : Options := SortedMap.ofList [("ink", .string "black"), ("sheets", .int 1)]

def catalog : Catalog :=
  Catalog.empty.registerAction { name := "print::Press", defaults := defaults }

def store : EntryStore := .ofCatalog catalog

/-- The press gets another ink. -/
def inked : Addition :=
  ⟨.action, "print::Press", SortedMap.singleton "ink" (.string "red")⟩

/-- The press gets more sheets. -/
def loaded : Addition :=
  ⟨.action, "print::Press", SortedMap.singleton "sheets" (.int 40)⟩

def nameless : Addition := ⟨.permission, "", ∅⟩

def visit : Addition := ⟨.permission, "visit", ∅⟩

/-- A press is set up twice, by its type.  A permission without a name is refused in between. -/
def morning : List Addition := [inked, nameless, loaded, visit]

/-- The same, with the permissions first. -/
def reordered : List Addition := [nameless, visit, inked, loaded]

theorem optionsFor_reordered (kind : EntityKind) (name : String) :
    Addition.optionsFor kind name morning = Addition.optionsFor kind name reordered := by
  cases kind <;>
    simp [Addition.optionsFor, morning, reordered, inked, nameless, loaded, visit,
      List.filter_cons]

/-- The press is of its type, with the ink and the sheets that were set up. -/
def isSetUp (press : Options) : Bool :=
  press.str? "class" == some "print::Press" && press.str? "ink" == some "red" &&
    (press.get? "sheets").any (fun sheets => sheets.same (.int 40))

end PrintShop

theorem additions_by_name_print_shop :
    PrintShop.store.addAll PrintShop.morning = PrintShop.store.addAll PrintShop.reordered ∧
    (∃ press,
      (PrintShop.store.addAll PrintShop.morning).get? .action "print::Press" = some press ∧
      PrintShop.isSetUp press = true ∧
      EntryFrom PrintShop.catalog .action "print::Press" none
        [PrintShop.inked.options, PrintShop.loaded.options] (some press)) ∧
    (PrintShop.store.addInPlace PrintShop.nameless).1 =
      .error (.invalidIdentifier .permission "") ∧
    (PrintShop.store.addInPlace PrintShop.nameless).2 = PrintShop.store ∧
    firstEntry PrintShop.catalog .action "print::Press" PrintShop.inked.options =
      .ok (Options.merge (PrintShop.defaults.insert "class" (.string "print::Press"))
        PrintShop.inked.options) := by
  obtain ⟨hsingle, hruns, htyped, hsame⟩ := additions_by_name
  have htest : ((PrintShop.store.addAll PrintShop.morning).get? .action
      "print::Press").any PrintShop.isSetUp = true := by decide +kernel
  obtain ⟨press, hpress, hsetup⟩ := (Option.any_eq_true _ _).1 htest
  obtain ⟨-, hfrom⟩ := hruns PrintShop.store PrintShop.morning .action "print::Press"
  rw [hpress] at hfrom
  have hfails : (PrintShop.store.addInPlace PrintShop.nameless).1 =
      .error (.invalidIdentifier .permission "") := rfl
  exact ⟨(hsame _ _ _ PrintShop.optionsFor_reordered).1, ⟨press, hpress, hsetup, hfrom⟩,
    hfails, ((hsingle PrintShop.store PrintShop.nameless).2.1 _ hfails).2,
    htyped _ _ _ _ _ (by decide) (by decide +kernel) (by decide) rfl⟩

end EntryStore
end ConfigCompiler
