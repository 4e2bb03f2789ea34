import ConfigCompiler.Proofs.StableSchemas
import ConfigCompiler.Proofs.StoredNames

/-!
# Prefixes of namespaces

A prefix is a slash and then what was written, without the white space and then without the
slashes at its ends.  White space that stands within those slashes is left: it should be
trimmed as well, but each class is trimmed only once.  So a prefix need not be in normal form,
and the prefix of what was resolved can lose its end.

**Device.**  `CleanEnds p cs`: nothing of the class `p` stands at an end of the text.  A text
is what is left of it between two pieces of the class, and this determines what is left.

**Results.**
* `trimChars_of_parts`: the text between the pieces is what trimming leaves.
* `cleanEnds_iff_trimmed`: the two trims give a normal form just if they trim as one.
* `prefixChars_again`: a prefix is kept just if no white space stands at its end.
* `Baseline.resolve_namespace_again`: what a namespace is resolved to the second time.
* `namespace_prefixes`: the prefix, when it is in normal form, and when it is kept.
* `bazaar_prefix_changes`: a prefix that is neither.
-/

namespace ConfigCompiler

open Resolution

/-- Nothing of the class stands at an end of the text. -/
def CleanEnds (p : Char → Bool) (cs : List Char) : Prop :=
  (∀ c ∈ cs.head?, p c = false) ∧ ∀ c ∈ cs.getLast?, p c = false

section Trim

variable {p q : Char → Bool} {cs left middle right : List Char} {c : Char}

theorem cleanEnds_trimChars (p : Char → Bool) (cs : List Char) : CleanEnds p (trimChars p cs) :=
  ⟨head_trimChars p cs, getLast_trimChars p cs⟩

theorem cleanEnds_of_forall (h : ∀ c ∈ cs, p c = false) : CleanEnds p cs :=
  ⟨fun c hc => h c (List.mem_of_mem_head? hc), fun c hc => h c (List.mem_of_mem_getLast? hc)⟩

theorem CleanEnds.or (hp : CleanEnds p cs) (hq : CleanEnds q cs) :
    CleanEnds (fun c => p c || q c) cs :=
  ⟨fun c hc => Bool.or_eq_false_iff.2 ⟨hp.1 c hc, hq.1 c hc⟩,
    fun c hc => Bool.or_eq_false_iff.2 ⟨hp.2 c hc, hq.2 c hc⟩⟩

/-- A text is what trimming leaves of it, between two pieces of the class. -/
theorem exists_parts_trimChars (p : Char → Bool) (cs : List Char) :
    ∃ left right, cs = left ++ trimChars p cs ++ right ∧
      (∀ c ∈ left, p c = true) ∧ ∀ c ∈ right, p c = true := by
  refine ⟨cs.takeWhile p, (cs.dropWhile p).rtakeWhile p, ?_, ?_, ?_⟩
  · rw [trimChars_eq, List.append_assoc, List.rdropWhile_append_rtakeWhile,
      List.takeWhile_append_dropWhile]
  · exact fun c hc => List.mem_takeWhile_imp hc
  · exact fun c hc => List.mem_rtakeWhile_imp hc

theorem dropWhile_of_parts (hleft : ∀ c ∈ left, p c = true)
    (hhead : ∀ c ∈ middle.head?, p c = false) :
    (left ++ middle).dropWhile p = middle := by
  rw [List.dropWhile_append_of_pos hleft,
    List.dropWhile_eq_self_iff.2 (forall_mem_head?_iff.1 hhead)]

/-- Trimming leaves the text that stands between two pieces of the class. -/
theorem trimChars_of_parts (hleft : ∀ c ∈ left, p c = true) (hright : ∀ c ∈ right, p c = true)
    (hmiddle : CleanEnds p middle) : trimChars p (left ++ middle ++ right) = middle := by
  have hreversed : ∀ c ∈ right.reverse, p c = true := fun c hc => hright c (List.mem_reverse.1 hc)
  cases middle with
  | nil =>
      -- the two pieces are one, so the text is trimmed to nothing at its front already
      have hall : ∀ c ∈ left ++ [] ++ right, p c = true := by
        simpa using fun c hc => hc.elim (hleft c) (hright c)
      rw [trimChars, List.dropWhile_eq_nil_iff.2 hall]
      rfl
  | cons c rest =>
      rw [trimChars, List.append_assoc, dropWhile_of_parts hleft, List.reverse_append,
        dropWhile_of_parts hreversed, List.reverse_reverse]
      · rw [List.head?_reverse]
        exact hmiddle.2
      · exact hmiddle.1

/-- Trimming two classes one after the other leaves nothing of either at the ends just if it
leaves what trimming both at once does. -/
theorem cleanEnds_iff_trimmed :
    CleanEnds (fun c => p c || q c) (trimChars q (trimChars p cs)) ↔
      trimChars q (trimChars p cs) = trimChars (fun c => p c || q c) cs := by
  constructor
  · intro hclean
    obtain ⟨left, right, hcs, hleft, hright⟩ := exists_parts_trimChars p cs
    obtain ⟨left', right', hinner, hleft', hright'⟩ := exists_parts_trimChars q (trimChars p cs)
    have hparts : cs = (left ++ left') ++ trimChars q (trimChars p cs) ++ (right' ++ right) := by
      conv_lhs => rw [hcs, hinner]
      simp only [List.append_assoc]
    conv_rhs => rw [hparts]
    refine (trimChars_of_parts (fun c hc => ?_) (fun c hc => ?_) hclean).symm
    · rcases List.mem_append.1 hc with hc | hc
      · simp [hleft c hc]
      · simp [hleft' c hc]
    · rcases List.mem_append.1 hc with hc | hc
      · simp [hright' c hc]
      · simp [hright c hc]
  · intro heq
    rw [heq]
    exact cleanEnds_trimChars _ cs

theorem rdropWhile_cons (h : p c = false) :
    (c :: cs).rdropWhile p = c :: cs.rdropWhile p := by
  rw [List.rdropWhile, List.reverse_cons, List.dropWhile_append]
  split
  · next hempty =>
      rw [List.rdropWhile, List.isEmpty_iff.1 hempty, List.dropWhile_cons,
        if_neg (by simp [h])]
      rfl
  · rw [List.reverse_append]
    rfl

end Trim

theorem SortedMap.insert_eq_self_iff {α : Type} {m : SortedMap α} {key : String} {v : α} :
    m.insert key v = m ↔ m.get? key = some v := by
  constructor
  · intro h
    rw [← h, SortedMap.get?_insert_self]
  · intro h
    refine SortedMap.ext_get? (fun other => ?_)
    rw [SortedMap.get?_insert]
    split
    · next heq => rw [← heq, h]
    · rfl

/-- A map of which one value is changed. -/
theorem Resolution.check_mapM_insert {α ε : Type} {f : String → α → Except ε α} {m : SortedMap α}
    {key : String} {v w : α} (hv : m.get? key = some v) (hw : f key v = .ok w)
    (hothers : ∀ other a, other ≠ key → m.get? other = some a → f other a = .ok a) :
    m.mapM f = .ok (m.insert key w) := by
  obtain ⟨out, hout⟩ := check_mapM_succeeds (f := f) (m := m) (fun other a ha => by
    by_cases hother : other = key
    · subst hother
      rw [hv, Option.some.injEq] at ha
      exact ⟨w, ha ▸ hw⟩
    · exact ⟨a, hothers other a hother ha⟩)
  rw [hout, Except.ok.injEq]
  refine SortedMap.ext_get? (fun other => ?_)
  rw [SortedMap.get?_insert]
  rcases check_mapM_get? hout other with ⟨hnone, hout⟩ | ⟨a, b, ha, hb, hout⟩
  · have hother : key ≠ other := fun heq => by simp [← heq, hv] at hnone
    rw [if_neg hother, hout, hnone]
  · rw [hout]
    split
    · next hother =>
        subst hother
        rw [hv, Option.some.injEq] at ha
        rw [← ha, hw, Except.ok.injEq] at hb
        rw [hb]
    · next hother =>
        rw [hothers other a (Ne.symm hother) ha, Except.ok.injEq] at hb
        rw [ha, hb]

theorem Value.string_inj {a b : String} : Value.string a = Value.string b ↔ a = b := by
  constructor
  · intro h
    have htext := congrArg Value.str? h
    rwa [Value.str?_string, Value.str?_string, Option.some.injEq] at htext
  · exact congrArg Value.string

/-- White space or a slash: what should stand at neither end of a prefix, its first slash
apart. -/
def isMargin (c : Char) : Bool := isBlank c || c == '/'

/-- A slash, and then a text without white space and slashes at its ends. -/
def IsNormalPrefix (text : String) : Prop :=
  ∃ rest, text.toList = '/' :: rest ∧ CleanEnds isMargin rest

theorem isNormalPrefix_ofList {rest : List Char} :
    IsNormalPrefix (String.ofList ('/' :: rest)) ↔ CleanEnds isMargin rest := by
  constructor
  · rintro ⟨rest', htext, hclean⟩
    rw [String.toList_ofList, List.cons.injEq] at htext
    exact htext.2 ▸ hclean
  · exact fun hclean => ⟨rest, String.toList_ofList, hclean⟩

namespace Baseline

variable {rest : List Char}

/-- A prefix is kept just if no white space stands at its end. -/
theorem prefixChars_again (hrest : CleanEnds (· == '/') rest) :
    prefixChars ('/' :: rest) = '/' :: rest ↔ ∀ c ∈ rest.getLast?, isBlank c = false := by
  have hslash : isBlank '/' = false := by decide
  have hkept := List.rdropWhile_prefix isBlank rest
  have hhead : ∀ c ∈ (rest.rdropWhile isBlank).head?, (c == '/') = false := by
    intro c hc
    obtain ⟨dropped, hdropped⟩ := hkept
    refine hrest.1 c ?_
    rw [← hdropped, List.head?_append, Option.mem_def.1 hc]
    rfl
  have hchars : prefixChars ('/' :: rest) =
      '/' :: (rest.rdropWhile isBlank).rdropWhile (· == '/') := by
    have hblank : trimChars isBlank ('/' :: rest) = '/' :: rest.rdropWhile isBlank := by
      rw [trimChars_eq, List.dropWhile_cons, if_neg (by simp [hslash]), rdropWhile_cons hslash]
    rw [prefixChars, hblank, trimChars_eq, List.dropWhile_cons, if_pos (by decide),
      List.dropWhile_eq_self_iff.2 (forall_mem_head?_iff.1 hhead)]
  rw [hchars, List.cons.injEq, and_iff_right rfl, forall_mem_getLast?_iff,
    ← List.rdropWhile_eq_self_iff]
  constructor
  · intro h
    -- nothing is lost in the second trim, so nothing was lost in the first
    have hlength := (List.rdropWhile_prefix (· == '/') (rest.rdropWhile isBlank)).length_le
    rw [h] at hlength
    exact hkept.eq_of_length_le hlength
  · intro h
    rw [h]
    exact List.rdropWhile_eq_self_iff.2 (forall_mem_getLast?_iff.1 hrest.2)

theorem normalizePrefix_again (hrest : CleanEnds (· == '/') rest) :
    normalizePrefix (.string (String.ofList ('/' :: rest))) =
        .string (String.ofList ('/' :: rest)) ↔ ∀ c ∈ rest.getLast?, isBlank c = false := by
  simp only [← prefixChars_again hrest, normalizePrefix, Value.str?_string, Value.string_inj,
    String.toList_ofList, String.ofList_inj]

end Baseline

/-- The text that the prefix of a namespace is made of, given or by default. -/
def writtenPrefix? (key : String) (raw : Options) : Option Value :=
  let named := Resolver.withName .nameSpace key raw
  (named.get? "prefix").or (Baseline.namespacePrefix named)

/-- The rule of a prefix: a string, made of the name unless given, and normalized. -/
theorem prefix_rule (catalog : Catalog) :
    ∃ rule, ruleOf? (Baseline.schemaOf catalog .nameSpace) "prefix" = some rule ∧
      rule.types? = some [.string] ∧ rule.allowed? = none ∧
      rule.default? = some (.computed Baseline.namespacePrefix) ∧
      rule.normalizers = [fun _ v => .ok (Baseline.normalizePrefix v)] :=
  ⟨_, rfl, rfl, rfl, rfl, rfl⟩

open OptionRule in
/-- Every option of a namespace is settled, but for its prefix. -/
theorem namespace_settles (catalog : Catalog) :
    ∀ key ∈ Baseline.definedOptions .nameSpace, key ≠ "prefix" →
      Settles (Baseline.schemaOf catalog .nameSpace) key := by
  simp only [Baseline.definedOptions, List.forall_mem_cons]
  exact ⟨fun _ => settles_required rfl rfl (stable_of_name rfl rfl rfl),
    fun hkey => absurd rfl hkey,
    fun _ => settles_fixed rfl rfl (stable_of_plain rfl),
    fun _ => settles_fixed rfl rfl (stable_of_plain rfl), List.forall_mem_nil _⟩

namespace Baseline

variable {catalog : Catalog} {raw resolved : Options} {written : String} {w : Value}

theorem normalizeOption_of_prefix_rule (catalog : Catalog) (options : Options) (v : Value) :
    (Schema.empty.extend (schemaOf catalog .nameSpace)).normalizeOption options "prefix" v =
      .ok (normalizePrefix v) := by
  obtain ⟨rule, hrule, -, -, -, hnormalizers⟩ := prefix_rule catalog
  rw [← rule?_extend_empty] at hrule
  simp only [Schema.normalizeOption, hrule, OptionRule.normalizeValue, hnormalizers,
    List.foldlM_cons, List.foldlM_nil, bind_pure]
  rfl

/-- The prefix is the one given, or else the one by default, in its form. -/
theorem prefix_of_resolve
    (h : (Schema.empty.extend (schemaOf catalog .nameSpace)).resolve raw = .ok resolved) :
    ∃ written, (raw.get? "prefix").or (namespacePrefix raw) = some (.string written) ∧
      resolved.get? "prefix" = some (.string (String.ofList (prefixChars written.toList))) := by
  obtain ⟨rule, hrule, htypes, -, hdefault, -⟩ := prefix_rule catalog
  rw [← rule?_extend_empty] at hrule
  -- the name has no default, so the prefix is made of the name that is given
  obtain ⟨nameRule, hname, -, hnone⟩ := name_rule catalog .nameSpace
  rw [← rule?_extend_empty] at hname
  have hnone : (Schema.empty.extend (schemaOf catalog .nameSpace)).default? "name" = none := by
    rw [Schema.default?, hname]
    exact hnone
  have hcomplete : ((Schema.empty.extend (schemaOf catalog .nameSpace)).complete raw).get?
      "prefix" = (raw.get? "prefix").or (namespacePrefix raw) := by
    rw [Schema.get?_complete, Schema.default?, hrule, Option.bind_some, hdefault,
      Schema.valueOf, namespacePrefix, namespacePrefix, Options.str?, Options.str?,
      (Schema.get?_of_no_default raw hnone).1]
  rcases Schema.get?_normalized h "prefix" with ⟨-, hresolved⟩ | ⟨v, w, hv, hw, hresolved⟩
  · have hthere := prefix_of_namespace h
    rw [hresolved] at hthere
    cases hthere
  · have htype := (Schema.accepts_of_resolve h hrule hv).1
    simp only [OptionRule.acceptsType, htypes, List.any_cons, List.any_nil, Bool.or_false,
      ValueType.accepts_string] at htype
    obtain ⟨written, hwritten⟩ := Option.isSome_iff_exists.1 htype
    rw [normalizeOption_of_prefix_rule, Except.ok.injEq, normalizePrefix, hwritten] at hw
    refine ⟨written, ?_, hresolved.trans (congrArg some hw.symm)⟩
    rw [← hcomplete, hv, Value.eq_string_of_str? hwritten]

/-- A namespace that was resolved is resolved again, with the form of its prefix. -/
theorem resolve_namespace_again
    (h : (Schema.empty.extend (schemaOf catalog .nameSpace)).resolve raw = .ok resolved)
    (hw : resolved.get? "prefix" = some w) :
    (Schema.empty.extend (schemaOf catalog .nameSpace)).resolve resolved =
      .ok (resolved.insert "prefix" (normalizePrefix w)) := by
  have hsettled : ∀ key rule, key ≠ "prefix" →
      (Schema.empty.extend (schemaOf catalog .nameSpace)).rules.get? key = some rule →
        rule.Stable ∧ (resolved.get? key).isSome = true := by
    intro key rule hkey hrule
    have hdefined : key ∈ definedOptions .nameSpace :=
      List.contains_iff_mem.1 (List.all_eq_true.1 (keys_of_schemaOf catalog .nameSpace) key
        (mem_keys_of_ruleOf? ((rule?_extend_empty _ _).symm.trans hrule)))
    exact (namespace_settles catalog key hdefined hkey).of_resolve h hrule
  rw [Schema.resolve_again h]
  · exact check_mapM_insert hw (normalizeOption_of_prefix_rule _ _ _) (fun key a hkey ha =>
      Schema.normalizeOption_of_stable h (fun rule hrule => (hsettled key rule hkey hrule).1) ha)
  · intro key rule hrule
    by_cases hkey : key = "prefix"
    · rw [hkey]
      exact prefix_of_namespace h
    · exact (hsettled key rule hkey hrule).2
  · intro key rule v hrule hv
    by_cases hkey : key = "prefix"
    · subst hkey
      obtain ⟨rule', hrule', htypes, hallowed, -⟩ := prefix_rule catalog
      rw [rule?_extend_empty, hrule', Option.some.injEq] at hrule
      obtain ⟨written, -, hform⟩ := prefix_of_resolve h
      rw [hv, Option.some.injEq] at hform
      subst hrule hform
      simp [OptionRule.acceptsType, OptionRule.acceptsValue, htypes, hallowed,
        ValueType.accepts_string]
    · have hw := Schema.of_resolve h hrule (hsettled key rule hkey hrule).1 hv
      exact ⟨hw.1, hw.2.1⟩

end Baseline

/-- No derived name has white space. -/
theorem isBlank_of_mem_deriveName {kind : EntityKind} {key : String} {c : Char}
    (hc : c ∈ (deriveName kind key).toList) : isBlank c = false := by
  -- what is left of a type is written as a name is
  obtain ⟨cs, hcs⟩ : ∃ cs, (deriveName kind key).toList = Name.normalizeChars cs := by
    unfold deriveName nameOfType normalizeName
    split <;> exact ⟨_, String.toList_ofList⟩
  rw [hcs] at hc
  exact (Name.separates_eq_false.1 (Name.separates_of_mem_normalizeChars hc)).2

/-- Without white space within, a prefix is in normal form. -/
theorem cleanEnds_of_no_blank {cs : List Char} (h : ∀ c ∈ cs, isBlank c = false) :
    CleanEnds isMargin (trimChars (· == '/') (trimChars isBlank cs)) := by
  have hblank : CleanEnds isBlank (trimChars (· == '/') (trimChars isBlank cs)) :=
    cleanEnds_of_forall (fun c hc => h c
      (((infix_trimChars _ _).trans (infix_trimChars _ _)).subset hc))
  exact hblank.or (cleanEnds_trimChars _ _)

/-- What the default makes of a derived name has no white space. -/
theorem isBlank_of_mem_defaultPrefix {key : String} {raw : Options} {written : String}
    (hname : raw.get? "name" = none) (hgiven : raw.get? "prefix" = none)
    (hwritten : writtenPrefix? key raw = some (.string written)) :
    ∀ c ∈ written.toList, isBlank c = false := by
  have hnamed : Resolver.withName .nameSpace key raw =
      raw.insert "name" (.string (deriveName .nameSpace key)) := by
    rw [Resolver.withName, if_neg (by simp [SortedMap.contains_eq_isSome, hname])]
  have hchars : written.toList =
      '/' :: (deriveName .nameSpace key).toList.map (fun c => if c = '.' then '/' else c) := by
    have hdefault : some (Value.string (String.ofList ('/' ::
        (deriveName .nameSpace key).toList.map (fun c => if c = '.' then '/' else c)))) =
          some (.string written) := by
      rw [← hwritten, writtenPrefix?, hnamed]
      simp [hgiven, SortedMap.get?_insert, Baseline.namespacePrefix, Options.str?]
    rw [← Value.string_inj.1 (Option.some.inj hdefault), String.toList_ofList]
  rw [hchars, List.forall_mem_cons]
  refine ⟨by decide, fun c hc => ?_⟩
  obtain ⟨x, hx, rfl⟩ := List.mem_map.1 hc
  split
  · decide
  · exact isBlank_of_mem_deriveName hx

section Entries

variable {r : Resolver} {t t' : SchemaTables} {key : String} {raw resolved : Options}

/-- Without extensions, the prefix of a namespace is a slash, and then what was written
without white space and then without slashes at its ends; so no slash is at its ends.  It is
in normal form just if trimming both at once leaves the same, and so it is if it is made of a
derived name.  A namespace that is resolved again under the same key, whatever is asked in
between, is the same but for the form of its prefix, and this is the same just if no white
space stands at its end. -/
theorem namespace_prefixes (hextensions : r.extensions = [])
    (hkinds : ∀ kind, r.kindInForce t kind = r.kindSchema kind)
    (h : (r.resolveEntry .nameSpace key raw).Returns t resolved t') :
    ∃ written rest,
      writtenPrefix? key raw = some (.string written) ∧
      resolved.get? "prefix" = some (.string (String.ofList ('/' :: rest))) ∧
      rest = trimChars (· == '/') (trimChars isBlank written.toList) ∧
      CleanEnds (· == '/') rest ∧
      (IsNormalPrefix (String.ofList ('/' :: rest)) ↔
        rest = trimChars isMargin written.toList) ∧
      (raw.get? "name" = none → raw.get? "prefix" = none →
        IsNormalPrefix (String.ofList ('/' :: rest))) ∧
      ∀ u, r.SameKinds t' u → ∃ again u',
        (r.resolveEntry .nameSpace key resolved).Returns u again u' ∧
        again = resolved.insert "prefix"
          (Baseline.normalizePrefix (.string (String.ofList ('/' :: rest)))) ∧
        (again = resolved ↔ ∀ c ∈ rest.getLast?, isBlank c = false) := by
  obtain ⟨hanswer, rfl⟩ := Resolver.returns_resolveEntry.1 h
  have hschema : (r.kindInForce t .nameSpace).schema =
      Schema.empty.extend (Baseline.schemaOf r.catalog .nameSpace) := by
    rw [hkinds, kindSchema_of_no_extensions hextensions]
  have hresolve := Resolver.entryAnswer_eq_ok.1 hanswer
  rw [hschema] at hresolve
  obtain ⟨written, hwritten, hform⟩ := Baseline.prefix_of_resolve hresolve
  rw [Baseline.prefixChars] at hform
  obtain ⟨rest, hrest⟩ : ∃ rest,
    rest = trimChars (· == '/') (trimChars isBlank written.toList) := ⟨_, rfl⟩
  have hslashes : CleanEnds (· == '/') rest := hrest ▸ cleanEnds_trimChars _ _
  rw [← hrest] at hform
  refine ⟨written, rest, hwritten, hform, hrest, hslashes, ?_, fun hname hgiven => ?_,
    fun u hsame => ?_⟩
  · rw [isNormalPrefix_ofList, hrest]
    exact cleanEnds_iff_trimmed
  · rw [isNormalPrefix_ofList, hrest]
    exact cleanEnds_of_no_blank (isBlank_of_mem_defaultPrefix hname hgiven hwritten)
  · have hname := required_isSome hresolve (name_mem_requiredOptions .nameSpace)
    have hagain := Baseline.resolve_namespace_again hresolve hform
    have hsecond : r.entryAnswer u .nameSpace key resolved = .ok (resolved.insert "prefix"
        (Baseline.normalizePrefix (.string (String.ofList ('/' :: rest))))) := by
      rw [Resolver.entryAnswer_eq_ok, (r.sameKinds_tablesAfterKind t .nameSpace).trans hsame,
        hschema, Resolver.withName_of_isSome hname]
      exact hagain
    refine ⟨_, _, Resolver.returns_resolveEntry.2 ⟨hsecond, rfl⟩, rfl, ?_⟩
    rw [SortedMap.insert_eq_self_iff, hform, Option.some.injEq, eq_comm]
    exact Baseline.normalizePrefix_again hslashes

end Entries

namespace Bazaar

def resolver : Resolver := .ofCatalog .empty

/-- White space stands before the slash that ends the prefix. -/
def stall : Options := SortedMap.singleton "prefix" (.string "shop /")

/-- Resolve the namespace, and then what it is resolved to. -/
def twice : Resolution (Options × Options) := do
  let resolved ← resolver.resolveEntry .nameSpace "acme" stall
  let again ← resolver.resolveEntry .nameSpace "acme" resolved
  return (resolved, again)

theorem resolves_twice : ∃ resolved t' again u',
    (resolver.resolveEntry .nameSpace "acme" stall).Returns .empty resolved t' ∧
    resolved.str? "prefix" = some "/shop " ∧
    (resolver.resolveEntry .nameSpace "acme" resolved).Returns t' again u' ∧
    again.str? "prefix" = some "/shop" := by
  obtain ⟨⟨resolved, again⟩, u', h, htest⟩ := returns_of_any (x := twice) (t := .empty)
    (p := fun result => result.1.str? "prefix" == some "/shop " &&
      result.2.str? "prefix" == some "/shop") (by decide +kernel)
  obtain ⟨hfirst, hsecond⟩ := Bool.and_eq_true_iff.1 htest
  obtain ⟨resolved, t', h, hrest⟩ := returns_bind.1 h
  obtain ⟨again, u', hagain, hlast⟩ := returns_bind.1 hrest
  obtain ⟨heq, rfl⟩ := returns_pure.1 hlast
  cases heq
  exact ⟨resolved, t', again, _, h, beq_iff_eq.1 hfirst, hagain, beq_iff_eq.1 hsecond⟩

end Bazaar

theorem namespace_prefixes_bazaar :
    ∃ resolved t' again u',
      (Bazaar.resolver.resolveEntry .nameSpace "acme" Bazaar.stall).Returns .empty resolved t' ∧
      resolved.get? "prefix" = some (.string "/shop ") ∧
      (Bazaar.resolver.resolveEntry .nameSpace "acme" resolved).Returns t' again u' ∧
      again.get? "prefix" = some (.string "/shop") ∧ again ≠ resolved := by
  obtain ⟨resolved, t', -, -, h, htext, -, -⟩ := Bazaar.resolves_twice
  have htext := Options.get?_of_str? htext
  obtain ⟨written, rest, -, hform, -, -, -, -, hagain⟩ :=
    namespace_prefixes rfl (Resolver.kindInForce_empty Bazaar.resolver) h
  obtain ⟨again, u', hreturns, rfl, hkept⟩ := hagain t' (Resolver.SameKinds.refl _ _)
  rw [htext, Option.some.injEq] at hform
  rw [← hform] at hreturns hkept
  have hchars : "/shop ".toList = '/' :: rest :=
    (congrArg String.toList (Value.string_inj.1 hform)).trans String.toList_ofList
  have hsecond : Baseline.normalizePrefix (.string "/shop ") = .string "/shop" := by
    decide +kernel
  refine ⟨resolved, t', _, u', h, htext, hreturns, ?_, fun heq => ?_⟩
  · rw [SortedMap.get?_insert_self, hsecond]
  · have hlast := hkept.1 heq ' ' (by rw [← (List.cons.inj hchars).2]; decide)
    exact absurd hlast (by decide)

/-- Neither need the prefix of a namespace be in normal form, nor need a resolved namespace be
resolved to itself. -/
theorem bazaar_prefix_changes :
    (¬ ∀ (catalog : Catalog) (key : String) (raw resolved : Options) (t' : SchemaTables),
      ((Resolver.ofCatalog catalog).resolveEntry .nameSpace key raw).Returns .empty
        resolved t' → ∃ text, resolved.str? "prefix" = some text ∧ IsNormalPrefix text) ∧
    ¬ ∀ (catalog : Catalog) (key : String) (raw resolved : Options) (t' : SchemaTables),
      ((Resolver.ofCatalog catalog).resolveEntry .nameSpace key raw).Returns .empty
        resolved t' →
      ∃ u', ((Resolver.ofCatalog catalog).resolveEntry .nameSpace key resolved).Returns
        t' resolved u' := by
  obtain ⟨resolved, t', again, u', h, htext, hagain, hchanged⟩ := Bazaar.resolves_twice
  constructor
  · intro hclaim
    obtain ⟨text, hstr, rest, hchars, -, hlast⟩ := hclaim .empty "acme" Bazaar.stall resolved t' h
    rw [htext, Option.some.injEq] at hstr
    subst hstr
    have hblank := hlast ' ' (by rw [← (List.cons.inj hchars).2]; decide)
    exact absurd hblank (by decide)
  · intro hclaim
    obtain ⟨u'', hsame⟩ := hclaim .empty "acme" Bazaar.stall resolved t' h
    rw [(hagain.unique hsame).1, htext] at hchanged
    exact absurd hchanged (by decide)

end ConfigCompiler
