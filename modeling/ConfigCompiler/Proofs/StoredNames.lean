import ConfigCompiler.Proofs.CompiledResources
import ConfigCompiler.Proofs.NormalNames

/-!
# The shape of stored names

A name is written from any text at all, character by character.  Whatever the text is, the
name holds no white space and no dash, its underscores stand alone, and none stands at an end.
A name that is valid besides is the name of itself: entries that are declared under it find
what is stored under it.

**Device.**  `separatorRanges` lists the code points of white space and of the dash.  They are
ranges without letter case, so no character that is written separates words.

**Results.**
* `Name.separates_of_mem_lowerChars`: no small form of a capital separates words.
* `Name.separates_of_mem_normalizeChars`: nothing in a normal form does.
* `isTypeIdentifier_of_valid`: no valid name is a type identifier.
* `storedName_of_compile`: the names of a compiled configuration are valid normal forms.
* `normalized_names`: the shape of normal forms, and names that are their own.
-/

namespace ConfigCompiler

namespace Name

/-- White space and the dash separate words, and are not kept. -/
def separates (c : Char) : Bool := c == '-' || isBlank c

/-- The first and the last code points of the ranges of separators. -/
def separatorRanges : List (Nat × Nat) :=
  [(0x9, 0xD), (0x20, 0x20), (0x2D, 0x2D), (0x85, 0x85), (0xA0, 0xA0), (0x1680, 0x1680),
    (0x2000, 0x200A), (0x2028, 0x2029), (0x202F, 0x202F), (0x205F, 0x205F), (0x3000, 0x3000)]

variable {cs written : List Char} {c x : Char} {prev next : Option Char}

theorem separates_eq_false : separates c = false ↔ c ≠ '-' ∧ isBlank c = false := by
  simp [separates]

theorem exists_range_of_separates (h : separates c = true) :
    ∃ range ∈ separatorRanges, range.1 ≤ c.toNat ∧ c.toNat ≤ range.2 := by
  have hcode : c.toNat = 0x2D ∨ isBlank c = true := by
    rcases Bool.or_eq_true_iff.1 h with hdash | hblank
    · exact Or.inl (congrArg Char.toNat (beq_iff_eq.1 hdash))
    · exact Or.inr hblank
  simp only [isBlank, Bool.or_eq_true, Bool.and_eq_true, decide_eq_true_eq, beq_iff_eq] at hcode
  simp only [separatorRanges, List.exists_mem_cons_iff]
  omega

theorem caseless_separators : ∀ range ∈ separatorRanges, Caseless range.1 range.2 := by
  decide +kernel

/-- No small form of a capital is a separator. -/
theorem separates_of_mem_lowerChars (hupper : isUppercase c = true) (hx : x ∈ lowerChars c) :
    separates x = false := by
  rw [Bool.eq_false_iff]
  intro hseparates
  obtain ⟨range, hrange, hfirst, hlast⟩ := exists_range_of_separates hseparates
  have hapart := (caseless_separators range hrange).of_mem_lowerChars hupper hx
  omega

/-- What a character adds to the text written so far does not separate words. -/
theorem separates_of_mem_writeChar (hwritten : ∀ x ∈ written, separates x = false)
    (hx : x ∈ writeChar prev c next written) : separates x = false := by
  have hunderscore : ∀ x ∈ '_' :: written, separates x = false :=
    List.forall_mem_cons.2 ⟨by decide, hwritten⟩
  unfold writeChar at hx
  split at hx
  · next hupper =>
      rcases List.mem_append.1 hx with hsmall | hbefore
      · exact separates_of_mem_lowerChars hupper (List.mem_reverse.1 hsmall)
      · split at hbefore
        · exact hunderscore x hbefore
        · exact hwritten x hbefore
  · split at hx
    · split at hx
      · exact hwritten x hx
      · exact hunderscore x hx
    · next hkept =>
        split at hx
        · split at hx
          · exact hwritten x hx
          · exact hunderscore x hx
        · rcases List.mem_cons.1 hx with rfl | hbefore
          · simpa [separates] using hkept
          · exact hwritten x hbefore

theorem separates_of_mem_writeChars (hwritten : ∀ x ∈ written, separates x = false)
    (hx : x ∈ writeChars prev cs written) : separates x = false := by
  induction cs generalizing prev written with
  | nil => exact hwritten x hx
  | cons c rest ih => exact ih (fun _ => separates_of_mem_writeChar hwritten) hx

/-- Nothing in a normal form separates words. -/
theorem separates_of_mem_normalizeChars (hx : x ∈ normalizeChars cs) : separates x = false := by
  have hmem := (infix_trimChars (· == '_') _).subset hx
  exact separates_of_mem_writeChars (by simp) (List.mem_reverse.1 hmem)

theorem Spaced.not_adjacent (h : Spaced cs) : ¬ ['_', '_'] <:+: cs := by
  rintro ⟨before, after, rfl⟩
  have hpair : Spaced ['_', '_'] := h.left_of_append.right_of_append
  exact (List.isChain_cons.1 hpair).1 '_' rfl ⟨rfl, rfl⟩

theorem length_pushFirst {parts : List (List Char)} (h : parts.length = 1) :
    (pushFirst c parts).length = 1 := by
  cases parts with
  | nil => cases h
  | cons part rest => exact h

/-- Without a colon there is one segment. -/
theorem length_splitPath (h : ':' ∉ cs) : (splitPath cs).length = 1 := by
  induction cs with
  | nil => rfl
  | cons c rest ih =>
      obtain ⟨hc, hrest⟩ := not_or.1 (fun hmem => h (List.mem_cons.2 hmem))
      rw [splitPath]
      · exact length_pushFirst (ih hrest)
      · rintro _ rfl
        exact absurd rfl hc

end Name

open Name Resolution

/-- No valid name is a type identifier. -/
theorem isTypeIdentifier_of_valid {text : String} (h : isValidName text = true) :
    isTypeIdentifier text = false := by
  have hcolon : ':' ∉ text.toList := by
    intro hmem
    rcases exists_mem_splitDots hmem with hdot | ⟨part, hpart, hx⟩
    · exact absurd hdot (by decide)
    · have hname := isNameChar_of_mem_group (List.all_eq_true.1 h part hpart) hx
      exact absurd hname (by decide)
  simp [isTypeIdentifier, length_splitPath hcolon]

/-- A key that is a valid normal form derives itself. -/
theorem deriveName_normalizeName {raw : String} (h : isValidName (normalizeName raw) = true)
    (kind : EntityKind) : deriveName kind (normalizeName raw) = normalizeName raw := by
  rw [deriveName, isTypeIdentifier_of_valid h, if_neg Bool.false_ne_true,
    normalizeName_normalizeName h]

/-- A normal form that is a valid name. -/
def IsStoredName (name : String) : Prop :=
  ∃ raw, name = normalizeName raw ∧ isValidName name = true

theorem IsStoredName.deriveName_eq {name : String} (h : IsStoredName name) (kind : EntityKind) :
    deriveName kind name = name := by
  obtain ⟨raw, rfl, hvalid⟩ := h
  exact deriveName_normalizeName hvalid kind

/-- The baseline lets an entry have a stored name only. -/
theorem name_yields (catalog : Catalog) (kind : EntityKind) :
    ∃ rule, ruleOf? (Baseline.schemaOf catalog kind) "name" = some rule ∧
      rule.Yields (fun w => ∃ name, w = .string name ∧ IsStoredName name) := by
  obtain ⟨rule, hrule, htypes, hnormalizers⟩ :
      ∃ rule, ruleOf? (Baseline.schemaOf catalog kind) "name" = some rule ∧
        rule.types? = some [.string] ∧
        rule.normalizers = [fun _ v => Baseline.normalizeNameValue v] := by
    cases kind <;> exact ⟨_, rfl, rfl, rfl⟩
  refine ⟨rule, hrule, fun options v w htype _ hnormal => ?_⟩
  obtain ⟨raw, hraw⟩ : ∃ raw, v.str? = some raw := by
    rw [← Option.isSome_iff_exists, ← ValueType.accepts_string]
    simpa [OptionRule.acceptsType, htypes] using htype
  simp only [OptionRule.normalizeValue, hnormalizers, List.foldlM_cons, List.foldlM_nil,
    bind_pure, Baseline.normalizeNameValue, hraw, Baseline.validName] at hnormal
  split at hnormal
  · next hvalid =>
      obtain rfl := Except.ok.inj hnormal
      exact ⟨normalizeName raw, rfl, raw, rfl, hvalid⟩
  · cases hnormal

theorem storedName_of_resolve {catalog : Catalog} {kind : EntityKind} {raw resolved : Options}
    (h : (Schema.empty.extend (Baseline.schemaOf catalog kind)).resolve raw = .ok resolved) :
    ∃ name, resolved.str? "name" = some name ∧ IsStoredName name := by
  obtain ⟨rule, hrule, hyields⟩ := name_yields catalog kind
  obtain ⟨w, hw⟩ :=
    Option.isSome_iff_exists.1 (required_isSome h (name_mem_requiredOptions kind))
  obtain ⟨name, rfl, hstored⟩ :=
    Schema.of_resolve h ((rule?_extend_empty _ _).trans hrule) hyields hw
  exact ⟨name, by rw [Options.str?, hw, Option.bind_some, Value.str?_string], hstored⟩

section Compiled

variable {r : Resolver} {t t' : SchemaTables} {store : EntryStore} {time : Timestamp}
variable {compiled : Compiled} {collisions : List AliasCollision} {kind : EntityKind}
variable {name : String}

/-- Without extensions every name of a compiled configuration is a stored name. -/
theorem storedName_of_compile (hextensions : r.extensions = [])
    (hkinds : ∀ kind, r.kindInForce t kind = r.kindSchema kind)
    (h : (compile r time store).Returns t (compiled, collisions) t')
    (hname : (compiled.sets.get kind).configs.contains name = true) : IsStoredName name := by
  obtain ⟨config, hconfig⟩ := SortedMap.exists_of_contains hname
  -- no option that is replaced after an entry is resolved is its name
  obtain ⟨raw, resolved, hresolve, hkept⟩ : ∃ raw resolved,
      (r.kindSchema kind).schema.resolve raw = .ok resolved ∧
        config.get? "name" = resolved.get? "name" := by
    by_cases hkind : kind = .resource
    · subst hkind
      obtain ⟨raw, resolved, hresolve, hsettled⟩ := compiled_settled hkinds h hconfig
      exact ⟨raw, resolved, hresolve, hsettled.kept "name" (by decide)⟩
    · obtain ⟨raw, hresolve⟩ := compiled_resolved hkinds h hkind hconfig
      exact ⟨raw, config, hresolve, rfl⟩
  rw [kindSchema_of_no_extensions hextensions] at hresolve
  obtain ⟨own, hown, hstored⟩ := storedName_of_resolve hresolve
  rw [Options.str?, ← hkept] at hown
  obtain rfl := (compiled_wellFormed hkinds h kind).names name config own hconfig hown
  exact hstored

end Compiled

/-- A normal form has no white space and no dash, no two underscores side by side and none at
its ends, whatever text it is the normal form of.  If it is a valid name, then it is its own
normal form, and a key of any kind derives itself; so what is stored is found again under the
name that its own name derives. -/
theorem normalized_names :
    (∀ raw : String,
      (∀ c ∈ (normalizeName raw).toList, isBlank c = false ∧ c ≠ '-') ∧
      ¬ ['_', '_'] <:+: (normalizeName raw).toList ∧
      (normalizeName raw).toList.head? ≠ some '_' ∧
      (normalizeName raw).toList.getLast? ≠ some '_') ∧
    (∀ raw : String, isValidName (normalizeName raw) = true →
      normalizeName (normalizeName raw) = normalizeName raw ∧
      ∀ kind, deriveName kind (normalizeName raw) = normalizeName raw) ∧
    ∀ (r : Resolver) (time : Timestamp) (store : EntryStore) (t : SchemaTables)
      (compiled : Compiled) (collisions : List AliasCollision) (t' : SchemaTables),
      r.extensions = [] → (∀ kind, r.kindInForce t kind = r.kindSchema kind) →
      (compile r time store).Returns t (compiled, collisions) t' →
      ∀ kind name, (compiled.sets.get kind).configs.contains name = true →
        deriveName kind name = name ∧
        (compiled.sets.get kind).canonical? (deriveName kind name) = some name := by
  refine ⟨fun raw => ?_, fun raw hvalid => ?_, fun r time store t compiled collisions t' => ?_⟩
  · have htext : (normalizeName raw).toList = normalizeChars raw.toList := String.toList_ofList
    rw [htext]
    refine ⟨fun c hc => ?_, (spaced_normalizeChars raw.toList).not_adjacent, fun hhead => ?_,
      fun hlast => ?_⟩
    · exact (separates_eq_false.1 (separates_of_mem_normalizeChars hc)).symm
    · exact absurd (head_trimChars _ _ '_' hhead) (by decide)
    · exact absurd (getLast_trimChars _ _ '_' hlast) (by decide)
  · exact ⟨normalizeName_normalizeName hvalid, deriveName_normalizeName hvalid⟩
  · intro hextensions hkinds h kind name hname
    have hderived :=
      (storedName_of_compile hextensions hkinds h hname).deriveName_eq kind
    refine ⟨hderived, ?_⟩
    rw [hderived, EntrySet.canonical?_of_contains hname]

namespace Harbour

def resolver : Resolver :=
  Resolver.ofCatalog (Catalog.empty.registerAction { name := "harbour::UnloadAction" })

/-- A permission is declared under a key that is no name, and an action under its type. -/
def store : EntryStore where
  catalog := resolver.catalog
  entries :=
    { permissions := SortedMap.singleton " LoadCargo-A " ∅
      actions := SortedMap.singleton "harbour::UnloadAction"
        (SortedMap.singleton "class" (.string "harbour::UnloadAction"))
      behaviors := ∅
      namespaces := ∅
      resources := ∅ }

end Harbour

theorem normalized_names_harbour :
    isValidName (normalizeName " LoadCargo-A ") = true ∧
      deriveName .permission (normalizeName " LoadCargo-A ") = "load_cargo_a" ∧
      ∃ compiled collisions t',
        (compile Harbour.resolver .epoch Harbour.store).Returns .empty
          (compiled, collisions) t' ∧
        (compiled.sets.get .action).configs.contains "unload" = true ∧
        (compiled.sets.get .action).canonical? (deriveName .action "unload") = some "unload" := by
  have hvalid : isValidName (normalizeName " LoadCargo-A ") = true := by decide +kernel
  have hname : normalizeName " LoadCargo-A " = "load_cargo_a" := by decide +kernel
  obtain ⟨-, hderives, hfound⟩ := normalized_names
  refine ⟨hvalid, ((hderives _ hvalid).2 .permission).trans hname, ?_⟩
  obtain ⟨⟨compiled, collisions⟩, t', h, hstored⟩ := returns_of_any
    (x := compile Harbour.resolver .epoch Harbour.store) (t := .empty)
    (p := fun result => (result.1.sets.get .action).configs.contains "unload")
    (by decide +kernel)
  exact ⟨compiled, collisions, t', h, hstored,
    (hfound Harbour.resolver .epoch Harbour.store .empty compiled collisions t' rfl
      (Resolver.kindInForce_empty _) h .action "unload" hstored).2⟩

end ConfigCompiler
