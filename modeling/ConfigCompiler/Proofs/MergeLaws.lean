import ConfigCompiler.Proofs.Additions
import ConfigCompiler.Proofs.ValuePaths

/-!
# The laws of merging, and fragments of an entry

A bag merged into itself stays, and so does a bag into which the last fragment is merged once
more.  Merging is associative unless the middle bag puts something else in the place of an
object: what is laid on top after that finds nothing below it, where it would have found the
object if the middle bag had been merged with it first.

**Input.**  `stored` is what the first fragment of an entry leaves in the store: that fragment
itself, unless the store has an entry already or a registered type brings its defaults.

**Relations.**
* `Value.Divides lower middle upper`: at some path `middle` has no object, and both of the
  others have one.
* `EntryStore.Regrouped s kind name`: the fragments after the first one are merged beforehand.

**Results.**
* `Value.overlay_assoc_iff`: when merging is associative.
* `Options.foldl_merge`: fragments that are merged beforehand.
* `EntryStore.addAll_regrouped`, `EntryStore.repeated_additions`: runs of additions.
* `EntryStore.defaults_divide`: the defaults of a type count as part of the first fragment.
-/

namespace ConfigCompiler

namespace Value

variable {lower middle upper : Value} {path : List String}

/-- Induction through the objects of a value. -/
theorem induction_fields {motive : Value → Prop}
    (leaf : ∀ v, v.fields? = none → motive v)
    (object : ∀ fields : Options, (∀ key v, fields.get? key = some v → motive v) →
      motive (.object fields))
    (v : Value) : motive v := by
  induction v using Value.induction with
  | null => exact leaf _ rfl
  | bool b => exact leaf _ rfl
  | number n => exact leaf _ rfl
  | string s => exact leaf _ rfl
  | array items _ => exact leaf _ (by simp [fields?])
  | object fields ih => exact object fields ih

/-- A value laid over itself stays as it is. -/
theorem overlay_self (v : Value) : v.overlay v = v := by
  induction v using Value.induction_fields with
  | leaf v h => exact overlay_of_no_object v h
  | object fields ih =>
      rw [overlay_object_object]
      refine congrArg object (SortedMap.ext_get? (fun key => ?_))
      rw [Options.get?_merge]
      cases hget : fields.get? key with
      | none => rfl
      | some v => exact congrArg some (ih key v hget)

/-- At the path the middle value has no object, while there is one below and one above. -/
def DividesAt (lower middle upper : Value) (path : List String) (under top : Options) : Prop :=
  ∃ v, middle.at? path = some v ∧ v.fields? = none ∧
    lower.at? path = some (.object under) ∧ upper.at? path = some (.object top)

/-- The middle value divides the others at some path. -/
def Divides (lower middle upper : Value) : Prop :=
  ∃ path under top, DividesAt lower middle upper path under top

/-- Fields that are divided at a path divide the objects below their name. -/
theorem DividesAt.of_field {below mid above under top : Options} {key : String}
    (hbelow : below.get? key = some lower) (hmid : mid.get? key = some middle)
    (habove : above.get? key = some upper) (h : DividesAt lower middle upper path under top) :
    DividesAt (object below) (object mid) (object above) (key :: path) under top := by
  obtain ⟨v, hv, hleaf, hlower, hupper⟩ := h
  exact ⟨v, by rw [at?_object, hmid, Option.bind_some, hv], hleaf,
    by rw [at?_object, hbelow, Option.bind_some, hlower],
    by rw [at?_object, habove, Option.bind_some, hupper]⟩

/-- Where the middle value divides, the object on top either finds nothing below it or the
object that the middle value has replaced. -/
theorem merge_eq_of_overlay_assoc {under top : Options}
    (h : (lower.overlay middle).overlay upper = lower.overlay (middle.overlay upper))
    (hdivides : DividesAt lower middle upper path under top) :
    Options.merge under top = top := by
  obtain ⟨v, hv, hleaf, hlower, hupper⟩ := hdivides
  have hone : (lower.overlay middle).at? path = some v := by
    rw [at?_overlay_of_some hv, hlower]
    exact congrArg some (overlay_of_no_object _ hleaf)
  have htwo : (middle.overlay upper).at? path = some (object top) := by
    rw [at?_overlay_of_some hupper, hv]
    exact congrArg some (overlay_on_no_object hleaf _)
  have heq := congrArg (at? path) h
  rw [at?_overlay_of_some hupper, hone, at?_overlay_of_some htwo, hlower] at heq
  simp only [overlay_on_no_object hleaf, overlay_object_object, Option.some.injEq] at heq
  exact (object_inj heq).symm

/-- Bags may be merged in any grouping if the values under every name may be laid over one
another so. -/
theorem merge_assoc_of_values {below mid above : Options}
    (h : ∀ key l m u, below.get? key = some l → mid.get? key = some m →
      above.get? key = some u → (l.overlay m).overlay u = l.overlay (m.overlay u)) :
    Options.merge (Options.merge below mid) above =
      Options.merge below (Options.merge mid above) := by
  refine SortedMap.ext_get? (fun key => ?_)
  simp only [Options.get?_merge]
  cases hbelow : below.get? key with
  | none => cases mid.get? key <;> cases above.get? key <;> rfl
  | some l =>
      cases hmid : mid.get? key with
      | none => cases above.get? key <;> rfl
      | some m =>
          cases habove : above.get? key with
          | none => rfl
          | some u => exact congrArg some (h key l m u hbelow hmid habove)

/-- Values may be laid over one another in any grouping, unless the middle one divides the
others and there is something for it to hide. -/
theorem overlay_assoc_of (lower middle upper : Value)
    (h : ∀ path under top, DividesAt lower middle upper path under top →
      Options.merge under top = top) :
    (lower.overlay middle).overlay upper = lower.overlay (middle.overlay upper) := by
  induction upper using Value.induction_fields generalizing lower middle with
  | leaf upper hupper => simp only [overlay_of_no_object _ hupper]
  | object above ih =>
      cases hmiddle : middle.fields? with
      | none =>
          -- what stands in the middle is hidden by the object, and hides what stands below
          rw [overlay_of_no_object lower hmiddle, overlay_on_no_object hmiddle]
          cases hlower : lower.fields? with
          | none => rw [overlay_on_no_object hlower]
          | some below =>
              obtain rfl := eq_object_of_fields? hlower
              rw [overlay_object_object, h [] below above ⟨middle, rfl, hmiddle, rfl, rfl⟩]
      | some mid =>
          obtain rfl := eq_object_of_fields? hmiddle
          cases hlower : lower.fields? with
          | none => simp only [overlay_object_object, overlay_on_no_object hlower]
          | some below =>
              obtain rfl := eq_object_of_fields? hlower
              simp only [overlay_object_object]
              refine congrArg object (merge_assoc_of_values ?_)
              intro key l m u hbelow hmid habove
              exact ih key u habove l m (fun path under top hat =>
                h (key :: path) under top (hat.of_field hbelow hmid habove))

/-- When values may be laid over one another in any grouping. -/
theorem overlay_assoc_iff (lower middle upper : Value) :
    (lower.overlay middle).overlay upper = lower.overlay (middle.overlay upper) ↔
      ∀ path under top, DividesAt lower middle upper path under top →
        Options.merge under top = top :=
  ⟨fun h _ _ _ => merge_eq_of_overlay_assoc h, overlay_assoc_of lower middle upper⟩

/-- Nothing divides a value from itself. -/
theorem not_divides_self (lower upper : Value) : ¬ Divides lower upper upper := by
  rintro ⟨path, under, top, v, hv, hleaf, -, hupper⟩
  obtain rfl := Option.some.inj (hv.symm.trans hupper)
  simp at hleaf

/-- Two values that do not divide others do not divide them when they are merged. -/
theorem not_divides_overlay {other : Value} (h : ¬ Divides lower middle upper)
    (h' : ¬ Divides lower other upper) : ¬ Divides lower (middle.overlay other) upper := by
  rintro ⟨path, under, top, v, hv, hleaf, hends⟩
  rcases at?_overlay hv with ⟨w, hw, hsame⟩ | ⟨-, hmiddle⟩
  · exact h' ⟨path, under, top, v, (hsame hleaf) ▸ hw, hleaf, hends⟩
  · exact h ⟨path, under, top, v, hmiddle, hleaf, hends⟩

end Value

namespace Options

variable {a b c : Options}

/-- The middle bag has something else at a path where the others have objects. -/
def Divides (a b c : Options) : Prop := Value.Divides (.object a) (.object b) (.object c)

/-- A bag merged into itself stays as it is. -/
theorem merge_self (a : Options) : merge a a = a :=
  Value.object_inj (by rw [← Value.overlay_object_object, Value.overlay_self])

/-- Bags that are not divided may be merged in any grouping. -/
theorem merge_assoc (h : ¬ Divides a b c) : merge (merge a b) c = merge a (merge b c) := by
  refine Value.object_inj ?_
  simp only [← Value.overlay_object_object]
  exact Value.overlay_assoc_of _ _ _ (fun path under top hat => absurd ⟨path, under, top, hat⟩ h)

/-- What was merged last may be merged again. -/
theorem merge_merge_self (a b : Options) : merge (merge a b) b = merge a b := by
  rw [merge_assoc (Value.not_divides_self _ _), merge_self]

/-- Bags that are merged one after the other may be merged beforehand, if none of them divides
what stands there at first from a later one. -/
theorem foldl_merge (a b : Options) (rest : List Options)
    (h : (b :: rest).Pairwise (fun b c => ¬ Divides a b c)) :
    (b :: rest).foldl merge a = merge a (rest.foldl merge b) := by
  induction rest generalizing b with
  | nil => rfl
  | cons c rest ih =>
      obtain ⟨hb, hrest⟩ := List.pairwise_cons.1 h
      obtain ⟨hc, hlater⟩ := List.pairwise_cons.1 hrest
      have hmerged : ∀ d ∈ rest, ¬ Divides a (merge b c) d := by
        intro d hd
        rw [Divides, ← Value.overlay_object_object]
        exact Value.not_divides_overlay (hb d (List.mem_cons_of_mem _ hd)) (hc d hd)
      calc (b :: c :: rest).foldl merge a
          = rest.foldl merge (merge (merge a b) c) := rfl
        _ = rest.foldl merge (merge a (merge b c)) := by
            rw [merge_assoc (hb c List.mem_cons_self)]
        _ = merge a (rest.foldl merge (merge b c)) :=
            ih (merge b c) (List.pairwise_cons.2 ⟨hmerged, hlater⟩)

end Options

namespace EntryStore

open Options (Divides)

section Fragments

variable {s : EntryStore} {kind : EntityKind} {name : String} {catalog : Catalog}
variable {options stored : Options} {bags bags' : List Options} {adds adds' : List Addition}

/-- The first entry of a name is what is added, unless a registered type brings its
defaults. -/
theorem firstEntry_cases (h : firstEntry catalog kind name options = .ok stored) :
    stored = options ∨ ∃ defaults, isTyped kind = true ∧ isTypeIdentifier name = true ∧
      options.contains "class" = false ∧ catalog.defaultsOf? kind name = some defaults ∧
      stored = Options.merge (defaults.insert "class" (.string name)) options := by
  unfold firstEntry at h
  split at h
  · next htyped =>
      cases hdefaults : catalog.defaultsOf? kind name with
      | none =>
          rw [hdefaults] at h
          cases h
      | some defaults =>
          rw [hdefaults] at h
          cases h
          simp only [Bool.and_eq_true, Bool.not_eq_true'] at htyped
          exact Or.inr ⟨defaults, htyped.1.1, htyped.1.2, htyped.2, rfl, rfl⟩
  · split at h
    · cases h
      exact Or.inl rfl
    · cases h

/-- What a fragment leaves in the store: it is merged into the entry that is there, or it is
the first one. -/
theorem nextEntry_cases (h : s.nextEntry kind name options = .ok stored) :
    (∃ existing, s.get? kind name = some existing ∧ stored = Options.merge existing options) ∨
      s.get? kind name = none ∧ firstEntry s.catalog kind name options = .ok stored := by
  unfold nextEntry at h
  cases hget : s.get? kind name with
  | some existing =>
      rw [hget] at h
      cases h
      exact Or.inl ⟨existing, rfl, rfl⟩
  | none =>
      rw [hget] at h
      exact Or.inr ⟨rfl, h⟩

theorem entryAfter_of_nextEntry (h : s.nextEntry kind name options = .ok stored) :
    entryAfter s.catalog kind name (s.get? kind name) options = some stored := by
  rcases nextEntry_cases h with ⟨existing, hget, rfl⟩ | ⟨hget, hfirst⟩
  · rw [hget, entryAfter]
  · rw [hget, entryAfter, hfirst]
    rfl

/-- The fragments of a name are the same in both lists, or those after the first are merged
beforehand and none of them divides what the first one leaves in the store. -/
inductive Regrouped (s : EntryStore) (kind : EntityKind) (name : String) :
    List Options → List Options → Prop
  | same (bags : List Options) : Regrouped s kind name bags bags
  | merged {first stored b : Options} {rest : List Options} :
      s.nextEntry kind name first = .ok stored →
      (b :: rest).Pairwise (fun b c => ¬ Divides stored b c) →
      Regrouped s kind name (first :: b :: rest) [first, rest.foldl Options.merge b]

/-- Regrouped fragments make the same entry. -/
theorem Regrouped.foldl_eq (h : Regrouped s kind name bags bags') :
    bags.foldl (entryAfter s.catalog kind name) (s.get? kind name) =
      bags'.foldl (entryAfter s.catalog kind name) (s.get? kind name) := by
  cases h with
  | same => rfl
  | @merged first stored b rest hfirst hrest =>
      rw [List.foldl_cons, entryAfter_of_nextEntry hfirst, foldl_entryAfter_some,
        Options.foldl_merge stored b rest hrest, List.foldl_cons,
        entryAfter_of_nextEntry hfirst, foldl_entryAfter_some]
      rfl

/-- Runs whose fragments are regrouped under every name end in the same store. -/
theorem addAll_regrouped
    (h : ∀ kind name, Regrouped s kind name (Addition.optionsFor kind name adds)
      (Addition.optionsFor kind name adds')) :
    s.addAll adds = s.addAll adds' := by
  refine ext_get? ?_ (fun kind name => ?_)
  · rw [catalog_addAll, catalog_addAll]
  · rw [get?_addAll, get?_addAll, (h kind name).foldl_eq]

/-- The additions that make an entry of fragments. -/
def fragments (kind : EntityKind) (name : String) (bags : List Options) : List Addition :=
  bags.map (Addition.mk kind name)

/-- The fragments of one name are all that is added, and they are added under that name. -/
theorem optionsFor_fragments (kind : EntityKind) (name : String) (bags : List Options)
    (other : EntityKind) (key : String) :
    Addition.optionsFor other key (fragments kind name bags) =
      if kind = other ∧ name = key then bags else [] := by
  by_cases hname : kind = other ∧ name = key <;>
    simp [Addition.optionsFor, fragments, List.filter_map, Function.comp_def, hname]

/-- The fragments of one name, regrouped. -/
theorem addAll_fragments (h : Regrouped s kind name bags bags') :
    s.addAll (fragments kind name bags) = s.addAll (fragments kind name bags') := by
  refine addAll_regrouped (fun other key => ?_)
  rw [optionsFor_fragments, optionsFor_fragments]
  split
  · next heq =>
      obtain ⟨rfl, rfl⟩ := heq
      exact h
  · exact .same []

/-- Repeated registration.  Merging a bag into itself changes nothing, nor does merging the
last fragment once more, nor merging with no options on either side; and merging is associative
where the middle bag does not divide the others.  So an entry that is registered in fragments is
the one that is registered with the later fragments merged beforehand, if none of them divides
what the first one leaves in the store, also while other entries are registered in between.
What is left there is the first fragment itself, merged into what the store has already, or
else laid over the defaults of its type where those count. -/
theorem repeated_additions :
    (∀ a : Options, Options.merge a a = a ∧ Options.merge a ∅ = a ∧ Options.merge ∅ a = a) ∧
    (∀ a b : Options, Options.merge (Options.merge a b) b = Options.merge a b) ∧
    (∀ a b c : Options, ¬ Divides a b c →
      Options.merge (Options.merge a b) c = Options.merge a (Options.merge b c)) ∧
    (∀ (s : EntryStore) (kind : EntityKind) (name : String) (first stored b c : Options),
      s.nextEntry kind name first = .ok stored → ¬ Divides stored b c →
        s.addAll (fragments kind name [first, b, c]) =
          s.addAll (fragments kind name [first, Options.merge b c])) ∧
    (∀ (s : EntryStore) (adds adds' : List Addition),
      (∀ kind name, Regrouped s kind name (Addition.optionsFor kind name adds)
        (Addition.optionsFor kind name adds')) →
      s.addAll adds = s.addAll adds') ∧
    ∀ (s : EntryStore) (kind : EntityKind) (name : String) (first stored : Options),
      s.nextEntry kind name first = .ok stored →
        (∃ existing, s.get? kind name = some existing ∧
          stored = Options.merge existing first) ∨
        s.get? kind name = none ∧
          (stored = first ∨ ∃ defaults, isTyped kind = true ∧ isTypeIdentifier name = true ∧
            first.contains "class" = false ∧ s.catalog.defaultsOf? kind name = some defaults ∧
            stored = Options.merge (defaults.insert "class" (.string name)) first) := by
  refine ⟨fun a => ⟨Options.merge_self a, Options.merge_empty a, Options.empty_merge a⟩,
    Options.merge_merge_self, fun a b c => Options.merge_assoc,
    fun s kind name first stored b c hfirst hdivides => ?_,
    fun s adds adds' => addAll_regrouped, fun s kind name first stored hfirst => ?_⟩
  · exact addAll_fragments (.merged hfirst (by simpa using hdivides))
  · exact (nextEntry_cases hfirst).imp_right (And.imp_right firstEntry_cases)

end Fragments

namespace Lamp

def defaults : Options := SortedMap.singleton "light" (.object (.singleton "warm" (.int 1)))

/-- A type of lamps gives a warm light by default. -/
def catalog : Catalog :=
  Catalog.empty.registerAction { name := "lamp::Dim", defaults := defaults }

def store : EntryStore := .ofCatalog catalog

/-- No light. -/
def off : Options := SortedMap.singleton "light" .null

/-- Some cold light. -/
def cold : Options := SortedMap.singleton "light" (.object (.singleton "cold" (.int 2)))

/-- Some label. -/
def labelled : Options := SortedMap.singleton "label" (.string "Reading lamp")

/-- Where nothing stands below, nothing is divided. -/
theorem not_divides_empty (b c : Options) : ¬ Divides ∅ b c := by
  rintro ⟨path, under, top, v, hv, hleaf, hempty, -⟩
  cases path with
  | nil =>
      obtain rfl := Option.some.inj hv
      simp at hleaf
  | cons key path =>
      rw [Value.at?_object] at hempty
      cases hempty

/-- A label divides nothing from an object. -/
theorem not_divides_labelled (a : Options) : ¬ Divides a labelled cold := by
  rintro ⟨path, under, top, v, hv, hleaf, -, hcold⟩
  cases path with
  | nil =>
      obtain rfl := Option.some.inj hv
      simp at hleaf
  | cons key path =>
      rw [Value.at?_object] at hv hcold
      by_cases hkey : key = "label"
      · subst hkey
        cases hcold
      · have hnone : labelled.get? key = none := if_neg (Ne.symm hkey)
        rw [hnone] at hv
        cases hv

def lit : Addition := ⟨.action, "lamp::Dim", ∅⟩

def visit : Addition := ⟨.permission, "visit", ∅⟩

/-- The lamp is set up in three steps, and somebody visits in between. -/
def evening : List Addition :=
  [lit, ⟨.action, "lamp::Dim", labelled⟩, visit, ⟨.action, "lamp::Dim", cold⟩]

/-- The lamp is set up in two steps, after the visit. -/
def grouped : List Addition :=
  [visit, lit, ⟨.action, "lamp::Dim", Options.merge labelled cold⟩]

theorem regrouped (kind : EntityKind) (name : String) :
    Regrouped store kind name (Addition.optionsFor kind name evening)
      (Addition.optionsFor kind name grouped) := by
  by_cases hlamp : EntityKind.action = kind ∧ "lamp::Dim" = name
  · obtain ⟨rfl, rfl⟩ := hlamp
    show Regrouped store .action "lamp::Dim" [∅, labelled, cold]
      [∅, [cold].foldl Options.merge labelled]
    exact .merged rfl (by simpa using not_divides_labelled _)
  · -- only the visit is left
    have hsame : Addition.optionsFor kind name evening = Addition.optionsFor kind name grouped := by
      simp [Addition.optionsFor, evening, grouped, lit, List.filter_cons, hlamp]
    rw [hsame]
    exact .same _

/-- Whether the light of the lamp is warm. -/
def isWarm (store : EntryStore) : Bool :=
  (store.get? .action "lamp::Dim").any (fun lamp => (lamp.bag "light").contains "warm")

end Lamp

theorem repeated_additions_lamp :
    Lamp.store.addAll (fragments .action "lamp::Dim" [∅, Lamp.labelled, Lamp.cold]) =
        Lamp.store.addAll
          (fragments .action "lamp::Dim" [∅, Options.merge Lamp.labelled Lamp.cold]) ∧
      Options.merge (Options.merge ∅ Lamp.off) Lamp.cold =
        Options.merge ∅ (Options.merge Lamp.off Lamp.cold) ∧
      Lamp.store.addAll Lamp.evening = Lamp.store.addAll Lamp.grouped := by
  obtain ⟨-, -, hassoc, hfragments, hruns, -⟩ := repeated_additions
  exact ⟨hfragments _ _ _ _ _ _ _ rfl (Lamp.not_divides_labelled _),
    hassoc _ _ _ (Lamp.not_divides_empty _ _), hruns _ _ _ Lamp.regrouped⟩

/-- The defaults of a type count as part of the first fragment: although the second fragment
divides nothing of the first one from the third, it divides the defaults. -/
theorem defaults_divide :
    ¬ ∀ (catalog : Catalog) (kind : EntityKind) (name : String) (a b c : Options),
      ¬ Divides a b c →
        (ofCatalog catalog).addAll (fragments kind name [a, b, c]) =
          (ofCatalog catalog).addAll (fragments kind name [a, Options.merge b c]) := by
  intro hall
  have heq := hall Lamp.catalog .action "lamp::Dim" ∅ Lamp.off Lamp.cold
    (Lamp.not_divides_empty _ _)
  have hone : Lamp.isWarm (Lamp.store.addAll
      (fragments .action "lamp::Dim" [∅, Lamp.off, Lamp.cold])) = false := by decide +kernel
  have htwo : Lamp.isWarm (Lamp.store.addAll
      (fragments .action "lamp::Dim" [∅, Options.merge Lamp.off Lamp.cold])) = true := by
    decide +kernel
  rw [Lamp.store, heq, ← Lamp.store, htwo] at hone
  cases hone

end EntryStore

end ConfigCompiler
