import ConfigCompiler.Proofs.DecidableValues

/-!
# What stands at a path

A path is a list of field names that is followed through objects only.  A deep merge is
told path by path: what is laid on top counts wherever it says something, and what lies
below shows everywhere else, unless the way there is cut off.

**Input.**  `Value.at?` is what stands in a value at a path, and `Options.bagAt` the bag that
stands there.

**Property.**  `Value.Cut v path`: before the end of the path stands something in `v` that is
no object.

**Relation.**  `Value.Keeps v w`: at every path of `v` something stands in `w`, and the
same unless it is an object.

**Results.**
* `Value.at?_overlay_of_some`, `Value.at?_overlay_of_cut`, `Value.at?_overlay_of_open`: what
  stands at a path of a value that is laid over another.
* `Value.keeps_overlay`: what is laid over a value is kept.
* `Options.merge_by_paths`: the same for bags of options.
-/

namespace ConfigCompiler

namespace Value

variable {base v x : Value} {path : List String}

/-- What stands in a value at a path of field names. -/
def at? : List String → Value → Option Value
  | [], v => some v
  | key :: path, v => (v.fields?.bind (fun fields => fields.get? key)).bind (at? path)

theorem at?_object (fields : Options) (key : String) (path : List String) :
    (object fields).at? (key :: path) = (fields.get? key).bind (at? path) := by
  simp [at?]

/-- What stands at a path below another. -/
theorem at?_append (v : Value) (path more : List String) :
    v.at? (path ++ more) = (v.at? path).bind (at? more) := by
  induction path generalizing v with
  | nil => rfl
  | cons key path ih =>
      rw [List.cons_append, at?, at?]
      cases v.fields?.bind (fun fields => fields.get? key) with
      | none => rfl
      | some field => exact ih field

/-- Nothing stands below what is no object. -/
theorem at?_of_no_object (h : v.fields? = none) (hpath : path ≠ []) : v.at? path = none := by
  cases path with
  | nil => exact absurd rfl hpath
  | cons key path => rw [at?, h, Option.bind_none, Option.bind_none]

/-- Before the end of the path stands something that is no object. -/
def Cut (v : Value) (path : List String) : Prop :=
  ∃ front back x, path = front ++ back ∧ back ≠ [] ∧ v.at? front = some x ∧ x.fields? = none

/-- Nothing stands at a path that is cut off. -/
theorem at?_of_cut (h : v.Cut path) : v.at? path = none := by
  obtain ⟨front, back, x, rfl, hback, hx, hfields⟩ := h
  rw [at?_append, hx, Option.bind_some, at?_of_no_object hfields hback]

/-- A path that is cut off in a field is cut off in the object. -/
theorem Cut.of_field {fields : Options} {key : String} (hget : fields.get? key = some v)
    (h : v.Cut path) : (object fields).Cut (key :: path) := by
  obtain ⟨front, back, x, rfl, hback, hx, hfields⟩ := h
  exact ⟨key :: front, back, x, rfl, hback, by rw [at?_object, hget, Option.bind_some, hx],
    hfields⟩

/-- What is no object replaces. -/
theorem overlay_of_no_object (base : Value) (h : v.fields? = none) : base.overlay v = v :=
  overlay_of_right base (fun fields heq => by rw [heq, fields?_object] at h; cases h)

/-- What is no object is replaced. -/
theorem overlay_on_no_object (h : base.fields? = none) (v : Value) : base.overlay v = v :=
  overlay_of_left (fun fields heq => by rw [heq, fields?_object] at h; cases h) v

/-- A field of an object that is laid over a value lies over the field of that name, if there
is one; the other fields show. -/
theorem field?_overlay_object (base : Value) (top : Options) (key : String) :
    (base.overlay (object top)).fields?.bind (fun fields => fields.get? key) =
      match base.fields?.bind (fun fields => fields.get? key), top.get? key with
      | some b, some t => some (b.overlay t)
      | some b, none => some b
      | none, t => t := by
  cases hbase : base.fields? with
  | none => rw [overlay_on_no_object hbase, fields?_object]; rfl
  | some under =>
      rw [eq_object_of_fields? hbase, overlay_object_object, fields?_object]
      exact Options.get?_merge under top key

/-- What stands on top lies over what stands below at the same path. -/
theorem at?_overlay_of_some (h : v.at? path = some x) :
    (base.overlay v).at? path = some
      (match base.at? path with
      | some b => b.overlay x
      | none => x) := by
  induction path generalizing base v with
  | nil =>
      obtain rfl := Option.some.inj h
      rfl
  | cons key path ih =>
      obtain ⟨t, ht, hx⟩ := Option.bind_eq_some_iff.1 h
      obtain ⟨top, htop, hget⟩ := Option.bind_eq_some_iff.1 ht
      rw [eq_object_of_fields? htop, at?, field?_overlay_object, hget, at?]
      -- the field lies over the one below it, if there is one
      cases base.fields?.bind (fun fields => fields.get? key) with
      | none => exact hx
      | some b => exact ih hx

/-- Where the way is cut off on top, nothing stands. -/
theorem at?_overlay_of_cut (base : Value) (h : v.Cut path) : (base.overlay v).at? path = none := by
  obtain ⟨front, back, x, rfl, hback, hx, hfields⟩ := h
  refine at?_of_cut ⟨front, back, x, rfl, hback, ?_, hfields⟩
  rw [at?_overlay_of_some hx]
  cases base.at? front with
  | none => rfl
  | some b => exact congrArg some (overlay_of_no_object b hfields)

/-- Where nothing stands on top, although the way is free, what lies below shows. -/
theorem at?_overlay_of_open (hnone : v.at? path = none) (hopen : ¬ v.Cut path) :
    (base.overlay v).at? path = base.at? path := by
  induction path generalizing base v with
  | nil => cases hnone
  | cons key path ih =>
      cases htop : v.fields? with
      | none => exact absurd ⟨[], key :: path, v, rfl, List.cons_ne_nil _ _, rfl, htop⟩ hopen
      | some top =>
          obtain rfl := eq_object_of_fields? htop
          rw [at?, field?_overlay_object, at?]
          cases hget : top.get? key with
          | none => cases base.fields?.bind (fun fields => fields.get? key) <;> rfl
          | some t =>
              rw [at?_object, hget] at hnone
              cases base.fields?.bind (fun fields => fields.get? key) with
              | none => exact hnone
              | some b => exact ih hnone (fun hcut => hopen (.of_field hget hcut))

/-- What is no object after it was laid over something was laid over it as it is. -/
theorem overlay_eq_of_no_object (h : base.overlay v = x) (hx : x.fields? = none) : v = x := by
  cases hv : v.fields? with
  | none => rw [← h, overlay_of_no_object base hv]
  | some top =>
      -- an object laid over anything is an object
      obtain rfl := eq_object_of_fields? hv
      cases hbase : base.fields? with
      | none => rw [← h, overlay_on_no_object hbase]
      | some under =>
          rw [← h, eq_object_of_fields? hbase, overlay_object_object, fields?_object] at hx
          cases hx

/-- What stands in a merged value stands in the upper value too, and is the same unless it
is an object; or else it stands in the lower value, and the upper one does not say what is
there. -/
theorem at?_overlay (h : (base.overlay v).at? path = some x) :
    (∃ y, v.at? path = some y ∧ (x.fields? = none → y = x)) ∨
      (v.at? path = none ∧ base.at? path = some x) := by
  cases hv : v.at? path with
  | some y =>
      rw [at?_overlay_of_some hv, Option.some.injEq] at h
      refine Or.inl ⟨y, rfl, fun hx => ?_⟩
      cases hbase : base.at? path with
      | none => rwa [hbase] at h
      | some b =>
          rw [hbase] at h
          exact overlay_eq_of_no_object h hx
  | none =>
      refine Or.inr ⟨rfl, ?_⟩
      rwa [at?_overlay_of_open hv (fun hcut => ?_)] at h
      rw [at?_overlay_of_cut base hcut] at h
      cases h

/-- At every path of `v` something stands in `w`, and the same unless it is an object. -/
def Keeps (v w : Value) : Prop :=
  ∀ path x, v.at? path = some x → ∃ y, w.at? path = some y ∧ (x.fields? = none → y = x)

theorem Keeps.refl (v : Value) : v.Keeps v :=
  fun _ x hx => ⟨x, hx, fun _ => rfl⟩

theorem Keeps.trans {u v w : Value} (h : u.Keeps v) (h' : v.Keeps w) : u.Keeps w := by
  intro path x hx
  obtain ⟨y, hy, hxy⟩ := h path x hx
  obtain ⟨z, hz, hyz⟩ := h' path y hy
  refine ⟨z, hz, fun hfields => ?_⟩
  obtain rfl := hxy hfields
  exact hyz hfields

/-- What is laid over a value is kept. -/
theorem keeps_overlay (base v : Value) : v.Keeps (base.overlay v) := by
  intro path x hx
  refine ⟨_, at?_overlay_of_some hx, fun hfields => ?_⟩
  cases base.at? path with
  | none => rfl
  | some b => exact overlay_of_no_object b hfields

/-- Bags that keep each other's options keep each other. -/
theorem keeps_object {bag bag' : Options}
    (h : ∀ key v, bag.get? key = some v → ∃ w, bag'.get? key = some w ∧ v.Keeps w) :
    (object bag).Keeps (object bag') := by
  intro path x hx
  cases path with
  | nil =>
      obtain rfl := Option.some.inj hx
      exact ⟨object bag', rfl, fun hfields => by simp at hfields⟩
  | cons key path =>
      rw [at?_object] at hx
      obtain ⟨v, hv, hpath⟩ := Option.bind_eq_some_iff.1 hx
      obtain ⟨w, hw, hkeeps⟩ := h key v hv
      obtain ⟨y, hy, hxy⟩ := hkeeps path x hpath
      exact ⟨y, by rw [at?_object, hw, Option.bind_some, hy], hxy⟩

end Value

namespace Options

/-- What fills the gaps of a bag keeps its options. -/
theorem get?_fillMissing {existing : Options} {key : String} {v : Value}
    (contributed : Options) (h : existing.get? key = some v) :
    ∃ w, (fillMissing existing contributed).get? key = some w ∧ v.Keeps w := by
  rw [fillMissing, get?_merge, h]
  cases contributed.get? key with
  | none => exact ⟨v, rfl, Value.Keeps.refl v⟩
  | some below => exact ⟨below.overlay v, rfl, Value.keeps_overlay below v⟩

/-- The bag that stands at a path, empty unless there is one. -/
def bagAt (options : Options) (path : List String) : Options :=
  (((Value.object options).at? path).bind Value.fields?).getD ∅

variable {base top : Options} {path : List String}

/-- A bag at a path lies over the bag that stands there below. -/
theorem at?_merge_of_object {fields : Options}
    (h : (Value.object top).at? path = some (.object fields)) :
    (Value.object (merge base top)).at? path =
      some (.object (merge (base.bagAt path) fields)) := by
  rw [← Value.overlay_object_object, Value.at?_overlay_of_some h, bagAt, Option.some.injEq]
  cases (Value.object base).at? path with
  | none => rw [Option.bind_none, Option.getD_none, empty_merge]
  | some b =>
      dsimp only [Option.bind_some]
      cases hb : b.fields? with
      | none => rw [Value.overlay_on_no_object hb, Option.getD_none, empty_merge]
      | some under =>
          rw [Value.eq_object_of_fields? hb, Value.overlay_object_object, Option.getD_some]

/-- The deep merge of two bags, path by path.  What the upper bag has at a path and is no
object stands there in the end; an object there becomes an object, merged with the one below
it.  Where the upper bag has nothing, what the lower bag has shows, unless something that is no
object cuts the way off.  An array is the array of one of the two bags.  Hence a bag whose gaps
are filled keeps all of its paths, and at each of them what is no object. -/
theorem merge_by_paths :
    (∀ (base top : Options) (path : List String),
      (∀ x, (Value.object top).at? path = some x → x.fields? = none →
        (Value.object (merge base top)).at? path = some x) ∧
      (∀ fields, (Value.object top).at? path = some (.object fields) →
        (Value.object (merge base top)).at? path =
          some (.object (merge (base.bagAt path) fields))) ∧
      ((Value.object top).Cut path →
        (Value.object top).at? path = none ∧
          (Value.object (merge base top)).at? path = none) ∧
      ((Value.object top).at? path = none → ¬ (Value.object top).Cut path →
        (Value.object (merge base top)).at? path = (Value.object base).at? path) ∧
      ∀ items, (Value.object (merge base top)).at? path = some (.array items) →
        (Value.object top).at? path = some (.array items) ∨
          (Value.object top).at? path = none ∧
            (Value.object base).at? path = some (.array items)) ∧
    ∀ existing contributed : Options,
      (Value.object existing).Keeps (.object (fillMissing existing contributed)) := by
  refine ⟨fun base top path => ⟨fun x hx hfields => ?_, fun fields => at?_merge_of_object,
    fun hcut => ⟨Value.at?_of_cut hcut, ?_⟩, fun hnone hopen => ?_, fun items hitems => ?_⟩,
    fun existing contributed => ?_⟩
  · obtain ⟨y, hy, hsame⟩ := Value.keeps_overlay (.object base) (.object top) path x hx
    rw [← Value.overlay_object_object, hy, hsame hfields]
  · rw [← Value.overlay_object_object, Value.at?_overlay_of_cut _ hcut]
  · rw [← Value.overlay_object_object, Value.at?_overlay_of_open hnone hopen]
  · rw [← Value.overlay_object_object] at hitems
    refine (Value.at?_overlay hitems).imp_left (fun ⟨y, hy, hsame⟩ => ?_)
    rw [hy, hsame (by simp [Value.fields?])]
  · exact Value.keeps_object (fun key v hget => get?_fillMissing contributed hget)

namespace Kitchen

/-- A hob, and an oven with its light and one tray. -/
def equipped : Options := SortedMap.ofList [
  ("hob", .object (.singleton "rings" (.int 4))),
  ("oven", .object (SortedMap.ofList [("light", .bool true), ("trays", .strings ["low"])]))]

/-- The hob is taken out, and the tray goes up. -/
def changed : Options := SortedMap.ofList [
  ("hob", .null),
  ("oven", .object (.singleton "trays" (.strings ["high"])))]

theorem hob_gone : (Value.object changed).Cut ["hob", "rings"] :=
  ⟨["hob"], ["rings"], .null, rfl, by decide, by decide, rfl⟩

theorem light_open : ¬ (Value.object changed).Cut ["oven", "light"] := by
  rintro ⟨front, back, x, hpath, hback, hx, hfields⟩
  rcases front with _ | ⟨first, _ | ⟨second, rest⟩⟩
  · -- the bag itself is an object
    obtain rfl := Option.some.inj hx
    cases hfields
  · -- and the oven is one
    obtain ⟨rfl, -⟩ := List.cons_eq_cons.1 hpath
    obtain rfl := Option.some.inj hx
    cases hfields
  · obtain rfl : back = [] := by simp_all
    exact hback rfl

end Kitchen

theorem merge_by_paths_kitchen :
    (Value.object (merge Kitchen.equipped Kitchen.changed)).at? ["oven", "trays"] =
        some (.strings ["high"]) ∧
      (Value.object (merge Kitchen.equipped Kitchen.changed)).at? ["oven"] =
        some (.object (merge (Kitchen.equipped.bagAt ["oven"])
          (.singleton "trays" (.strings ["high"])))) ∧
      (Value.object (merge Kitchen.equipped Kitchen.changed)).at? ["hob", "rings"] = none ∧
      (Value.object (merge Kitchen.equipped Kitchen.changed)).at? ["oven", "light"] =
        some (.bool true) ∧
      (Value.object Kitchen.changed).Keeps
        (.object (fillMissing Kitchen.changed Kitchen.equipped)) := by
  obtain ⟨hpaths, hkeeps⟩ := merge_by_paths
  have htrays := (hpaths Kitchen.equipped Kitchen.changed ["oven", "trays"]).1
  have hoven := (hpaths Kitchen.equipped Kitchen.changed ["oven"]).2.1
  have hrings := (hpaths Kitchen.equipped Kitchen.changed ["hob", "rings"]).2.2.1
  have hlight := (hpaths Kitchen.equipped Kitchen.changed ["oven", "light"]).2.2.2.1
  exact ⟨htrays _ (by decide) rfl, hoven _ (by decide), (hrings Kitchen.hob_gone).2,
    (hlight (by decide) Kitchen.light_open).trans (by decide), hkeeps _ _⟩

end Options

end ConfigCompiler
