import ConfigCompiler.Resolution.Basic

/-!
# How questions end

A question is asked with the schema tables as they stand and leaves them changed.
It either returns an answer or fails, and this module says how the end of a
question follows from the ends of its parts.

**Input.**  `Returns x t a t'` and `Fails x t f t'` are the two ends of a question
`x` that is asked with the tables `t`.  `Visits` says which states a fold passes
through: the state in which an item is met, after everything before it returned.

**Results.**
* `returns_bind`, `fails_bind`: one step of a question; `check_bind`: one step of a
  check that needs no tables.
* `Returns.foldlM_induction`, `Visits.induction`: what every step of a fold keeps,
  the fold keeps, at its end and wherever it passes.
* `Returns.foldlM_split`, `fails_foldlM_iff`: a fold that returned met each of its
  items; a fold that failed met the item that failed.
* `Visits.unique`: distinct items are met once.
* `Returns.foldlM_turn`: what comes to hold in a fold comes to hold in one step.
* `Returns.mapM_induction`, `check_mapM`, `check_mapM_get?`: the same for the values of a
  map.
-/

namespace ConfigCompiler
namespace Resolution

variable {α β σ ε : Type}

/-- The question is answered with `a` and leaves the tables `t'`. -/
def Returns (x : Resolution α) (t : SchemaTables) (a : α) (t' : SchemaTables) : Prop :=
  x.ask t = (.ok a, t')

/-- The question fails with `f` and leaves the tables `t'`. -/
def Fails (x : Resolution α) (t : SchemaTables) (f : Failure) (t' : SchemaTables) : Prop :=
  x.ask t = (.error f, t')

/-- A question that is answered returns the answer. -/
theorem returns_of_answer {x : Resolution α} {t : SchemaTables} {a : α}
    (h : (x.ask t).1 = .ok a) : ∃ t', x.Returns t a t' :=
  ⟨(x.ask t).2, Prod.ext h rfl⟩

/-- A check whose result passes a test has a result that does. -/
theorem check_of_any {ε : Type} {e : Except ε α} {p : α → Bool}
    (h : e.toOption.any p = true) : ∃ a, e = .ok a ∧ p a = true := by
  cases e with
  | ok a => exact ⟨a, rfl, h⟩
  | error f => cases h

/-- A question whose answer passes a test returns an answer that does. -/
theorem returns_of_any
    {x : Resolution α} {t : SchemaTables} {p : α → Bool}
    (h : (x.ask t).1.toOption.any p = true) :
    ∃ a t', x.Returns t a t' ∧ p a = true := by
  obtain ⟨a, hanswer, htest⟩ := check_of_any h
  obtain ⟨t', hreturns⟩ := returns_of_answer hanswer
  exact ⟨a, t', hreturns, htest⟩

/-- Every question ends in one of the two ways. -/
theorem returns_or_fails (x : Resolution α) (t : SchemaTables) :
    (∃ a t', x.Returns t a t') ∨ ∃ f t', x.Fails t f t' := by
  unfold Returns Fails
  cases hx : x.ask t with
  | mk answer t' =>
      cases answer with
      | ok a => exact Or.inl ⟨a, t', rfl⟩
      | error f => exact Or.inr ⟨f, t', rfl⟩

/-- A question has one end only. -/
theorem Returns.unique
    {x : Resolution α} {t t₁ t₂ : SchemaTables} {a b : α}
    (h₁ : x.Returns t a t₁) (h₂ : x.Returns t b t₂) :
    a = b ∧ t₁ = t₂ := by
  have h := h₁.symm.trans h₂
  simpa using h

/-- A question that returns does not fail. -/
theorem Returns.not_fails
    {x : Resolution α} {t t₁ t₂ : SchemaTables} {a : α} {f : Failure}
    (h₁ : x.Returns t a t₁) : ¬ x.Fails t f t₂ := by
  intro h₂
  have h := h₁.symm.trans h₂
  simp at h

theorem ask_bind (x : Resolution α) (f : α → Resolution β) (t : SchemaTables) :
    ask (x >>= f) t =
      match x.ask t with
      | (.ok a, t') => (f a).ask t'
      | (.error e, t') => (.error e, t') := by
  have h : ask (x >>= f) t =
      ask (ExceptT.mk (ExceptT.bindCont f (x.ask t).1)) (x.ask t).2 := rfl
  rw [h]
  cases x.ask t with
  | mk answer t' => cases answer <;> rfl

/-- A question goes on with what its first part returned. -/
theorem ask_bind_of_returns {x : Resolution α} {f : α → Resolution β} {t t' : SchemaTables}
    {a : α} (h : x.Returns t a t') : ask (x >>= f) t = (f a).ask t' := by
  rw [ask_bind, h]

@[simp] theorem returns_pure {a b : α} {t t' : SchemaTables} :
    Returns (pure a) t b t' ↔ b = a ∧ t' = t := by
  show ((Except.ok a, t) : Except Failure α × SchemaTables) = (.ok b, t') ↔ _
  simp [eq_comm]

@[simp] theorem fails_pure {a : α} {f : Failure} {t t' : SchemaTables} :
    Fails (pure a) t f t' ↔ False := by
  show ((Except.ok a, t) : Except Failure α × SchemaTables) = (.error f, t') ↔ _
  simp

@[simp] theorem returns_throw {b : α} {f : Failure} {t t' : SchemaTables} :
    Returns (throw f) t b t' ↔ False := by
  show ((Except.error f, t) : Except Failure α × SchemaTables) = (.ok b, t') ↔ _
  simp

@[simp] theorem fails_throw {f g : Failure} {t t' : SchemaTables} :
    Fails (throw f : Resolution α) t g t' ↔ g = f ∧ t' = t := by
  show ((Except.error f, t) : Except Failure α × SchemaTables) = (.error g, t') ↔ _
  simp [eq_comm]

/-- A check that does not need the tables leaves them as they are. -/
@[simp] theorem returns_lift {e : Except Failure α} {a : α} {t t' : SchemaTables} :
    Returns (liftM e) t a t' ↔ e = .ok a ∧ t' = t := by
  show ((e, t) : Except Failure α × SchemaTables) = (.ok a, t') ↔ _
  simp [eq_comm]

@[simp] theorem fails_lift {e : Except Failure α} {f : Failure} {t t' : SchemaTables} :
    Fails (liftM e : Resolution α) t f t' ↔ e = .error f ∧ t' = t := by
  show ((e, t) : Except Failure α × SchemaTables) = (.error f, t') ↔ _
  simp [eq_comm]

theorem returns_bind {x : Resolution α} {f : α → Resolution β}
    {t t'' : SchemaTables} {b : β} :
    Returns (x >>= f) t b t'' ↔ ∃ a t', x.Returns t a t' ∧ (f a).Returns t' b t'' := by
  unfold Returns
  rw [ask_bind]
  cases hx : x.ask t with
  | mk answer t' =>
      cases answer with
      | ok a =>
          constructor
          · intro h
            exact ⟨a, t', rfl, h⟩
          · rintro ⟨a', t₁, h₁, h₂⟩
            cases h₁
            exact h₂
      | error e => simp

theorem fails_bind {x : Resolution α} {f : α → Resolution β}
    {t t'' : SchemaTables} {e : Failure} :
    Fails (x >>= f) t e t'' ↔
      x.Fails t e t'' ∨ ∃ a t', x.Returns t a t' ∧ (f a).Fails t' e t'' := by
  unfold Returns Fails
  rw [ask_bind]
  cases hx : x.ask t with
  | mk answer t' =>
      cases answer with
      | ok a =>
          constructor
          · intro h
            exact Or.inr ⟨a, t', rfl, h⟩
          · rintro (h | ⟨a', t₁, h₁, h₂⟩)
            · simp at h
            · cases h₁
              exact h₂
      | error e' => simp

/-- Changing the failures of a question does not change its answers. -/
@[simp] theorem returns_adapt {x : Resolution α} {g : Failure → Failure}
    {a : α} {t t' : SchemaTables} :
    Returns (ExceptT.adapt g x) t a t' ↔ x.Returns t a t' := by
  have h : ask (ExceptT.adapt g x) t = ((x.ask t).1.mapError g, (x.ask t).2) := rfl
  unfold Returns
  rw [h]
  cases x.ask t with
  | mk answer t₁ =>
      cases answer with
      | ok b => exact Iff.rfl
      | error e =>
          show ((Except.error (g e), t₁) : Except Failure α × SchemaTables) = (.ok a, t') ↔ _
          simp

@[simp] theorem fails_adapt {x : Resolution α} {g : Failure → Failure}
    {f : Failure} {t t' : SchemaTables} :
    Fails (ExceptT.adapt g x) t f t' ↔ ∃ e, x.Fails t e t' ∧ f = g e := by
  have h : ask (ExceptT.adapt g x) t = ((x.ask t).1.mapError g, (x.ask t).2) := rfl
  unfold Fails
  rw [h]
  cases x.ask t with
  | mk answer t₁ =>
      cases answer with
      | ok b =>
          show ((Except.ok b, t₁) : Except Failure α × SchemaTables) = (.error f, t') ↔ _
          simp
      | error e =>
          show ((Except.error (g e), t₁) : Except Failure α × SchemaTables) = (.error f, t') ↔ _
          simp only [Prod.mk.injEq, Except.error.injEq]
          constructor
          · rintro ⟨rfl, rfl⟩
            exact ⟨e, ⟨rfl, rfl⟩, rfl⟩
          · rintro ⟨e', ⟨rfl, rfl⟩, rfl⟩
            exact ⟨rfl, rfl⟩

/-- A check that passed, passed in each of its parts. -/
theorem check_bind {e : Except ε α} {f : α → Except ε β} {b : β} :
    e >>= f = .ok b ↔ ∃ a, e = .ok a ∧ f a = .ok b := by
  cases e with
  | ok a =>
      constructor
      · intro h
        exact ⟨a, rfl, h⟩
      · rintro ⟨a', ha, h⟩
        cases ha
        exact h
  | error f =>
      constructor
      · intro h
        cases h
      · rintro ⟨a', ha, _⟩
        cases ha

theorem check_bind_error {e : Except ε α} {f : α → Except ε β} {g : ε} :
    e >>= f = .error g ↔ e = .error g ∨ ∃ a, e = .ok a ∧ f a = .error g := by
  cases e with
  | ok a =>
      constructor
      · intro h
        exact Or.inr ⟨a, rfl, h⟩
      · rintro (h | ⟨a', ha, h⟩)
        · cases h
        · cases ha
          exact h
  | error f' =>
      constructor
      · intro h
        cases h
        exact Or.inl rfl
      · rintro (h | ⟨a', ha, _⟩)
        · cases h
          rfl
        · cases ha

theorem check_pure {a b : α} : (pure a : Except ε α) = .ok b ↔ b = a := by
  constructor
  · intro h
    cases h
    rfl
  · rintro rfl
    rfl

/-- What every check keeps, a chain of checks keeps. -/
theorem check_foldlM_induction {f : σ → α → Except ε σ} {P : σ → Prop}
    {items : List α}
    (hstep : ∀ a ∈ items, ∀ s s', P s → f s a = .ok s' → P s')
    {s s' : σ} (h : items.foldlM f s = .ok s') (h₀ : P s) : P s' := by
  induction items generalizing s with
  | nil =>
      cases check_pure.1 h
      exact h₀
  | cons a rest ih =>
      rw [List.foldlM_cons] at h
      obtain ⟨s₁, hfirst, hrest⟩ := check_bind.1 h
      have h₁ : P s₁ := hstep a List.mem_cons_self s s₁ h₀ hfirst
      exact ih (fun b hb => hstep b (List.mem_cons_of_mem _ hb)) hrest h₁

/-- A list of checks passed in each of them. -/
theorem check_list_mapM_cons {f : α → Except ε β} {a : α} {items : List α}
    {out : List β} :
    (a :: items).mapM f = .ok out ↔
      ∃ b more, f a = .ok b ∧ items.mapM f = .ok more ∧ out = b :: more := by
  rw [List.mapM_cons, check_bind]
  constructor
  · rintro ⟨b, hb, h⟩
    obtain ⟨more, hmore, hlast⟩ := check_bind.1 h
    exact ⟨b, more, hb, hmore, check_pure.1 hlast⟩
  · rintro ⟨b, more, hb, hmore, rfl⟩
    exact ⟨b, hb, check_bind.2 ⟨more, hmore, check_pure.2 rfl⟩⟩

/-- What a list of checks made, one of the checks made. -/
theorem check_list_mapM_mem {f : α → Except ε β} {items : List α} {out : List β}
    (h : items.mapM f = .ok out) {b : β} (hb : b ∈ out) : ∃ a ∈ items, f a = .ok b := by
  induction items generalizing out with
  | nil =>
      cases check_pure.1 h
      cases hb
  | cons a rest ih =>
      obtain ⟨first, more, hfirst, hmore, rfl⟩ := check_list_mapM_cons.1 h
      rcases List.mem_cons.1 hb with rfl | hb
      · exact ⟨a, List.mem_cons_self, hfirst⟩
      · obtain ⟨a', ha', heq⟩ := ih hmore hb
        exact ⟨a', List.mem_cons_of_mem _ ha', heq⟩

/-- What a list of checks made of one of its items is among what it made. -/
theorem check_list_mapM_visits {f : α → Except ε β} {items : List α} {out : List β}
    (h : items.mapM f = .ok out) {a : α} (ha : a ∈ items) : ∃ b ∈ out, f a = .ok b := by
  induction items generalizing out with
  | nil => cases ha
  | cons first rest ih =>
      obtain ⟨b, more, hb, hmore, rfl⟩ := check_list_mapM_cons.1 h
      rcases List.mem_cons.1 ha with rfl | hrest
      · exact ⟨b, List.mem_cons_self, hb⟩
      · obtain ⟨c, hc, hvalue⟩ := ih hmore hrest
        exact ⟨c, List.mem_cons_of_mem b hc, hvalue⟩

/-- A check succeeds if its parts do. -/
theorem check_bind_succeeds {e : Except ε α} {f : α → Except ε β} (he : ∃ a, e = .ok a)
    (hf : ∀ a, ∃ b, f a = .ok b) : ∃ b, e >>= f = .ok b := by
  obtain ⟨a, rfl⟩ := he
  exact hf a

theorem check_list_mapM_succeeds {f : α → Except ε β} {items : List α} :
    (∃ out, items.mapM f = .ok out) ↔ ∀ a ∈ items, ∃ b, f a = .ok b := by
  induction items with
  | nil => exact ⟨fun _ _ ha => (List.not_mem_nil ha).elim, fun _ => ⟨[], rfl⟩⟩
  | cons a rest ih =>
      rw [List.forall_mem_cons, ← ih]
      constructor
      · rintro ⟨out, hout⟩
        obtain ⟨b, more, hb, hmore, -⟩ := check_list_mapM_cons.1 hout
        exact ⟨⟨b, hb⟩, more, hmore⟩
      · rintro ⟨⟨b, hb⟩, more, hmore⟩
        exact ⟨b :: more, check_list_mapM_cons.2 ⟨b, more, hb, hmore, rfl⟩⟩

/-- A list of tests is passed if each of them is. -/
theorem check_forM {f : α → Except ε Unit} {items : List α} :
    items.forM f = .ok () ↔ ∀ a ∈ items, f a = .ok () := by
  induction items with
  | nil => exact ⟨fun _ _ ha => (List.not_mem_nil ha).elim, fun _ => rfl⟩
  | cons a rest ih =>
      rw [List.forM_eq_forM, List.forM_cons, check_bind, List.forall_mem_cons, ← ih,
        List.forM_eq_forM]
      constructor
      · rintro ⟨_, ha, hrest⟩
        exact ⟨ha, hrest⟩
      · rintro ⟨ha, hrest⟩
        exact ⟨(), ha, hrest⟩

/-- If every test is passed or fails in one way, and one of them fails, so does the list. -/
theorem check_forM_error {f : α → Except ε Unit} {items : List α} {e : ε} {a : α}
    (hends : ∀ a ∈ items, f a = .ok () ∨ f a = .error e) (ha : a ∈ items)
    (hfails : f a = .error e) : items.forM f = .error e := by
  induction items with
  | nil => cases ha
  | cons b rest ih =>
      rw [List.forM_eq_forM, List.forM_cons, check_bind_error]
      rcases hends b List.mem_cons_self with hpasses | hfirst
      · refine Or.inr ⟨(), hpasses, ih (fun c hc => hends c (List.mem_cons_of_mem _ hc)) ?_⟩
        rcases List.mem_cons.1 ha with rfl | hrest
        · rw [hpasses] at hfails
          cases hfails
        · exact hrest
      · exact Or.inl hfirst

/-- A list of tests fails at the first item that does not pass. -/
theorem check_forM_fails {f : α → Except ε Unit} {items : List α} {e : ε}
    (h : items.forM f = .error e) :
    ∃ before a after, items = before ++ a :: after ∧ (∀ b ∈ before, f b = .ok ()) ∧
      f a = .error e := by
  induction items with
  | nil => cases h
  | cons first rest ih =>
      have hcons : (f first >>= fun _ => rest.forM f) = .error e := h
      rcases check_bind_error.1 hcons with hfirst | ⟨_, hfirst, hrest⟩
      · exact ⟨[], first, rest, rfl, nofun, hfirst⟩
      · obtain ⟨before, a, after, rfl, hbefore, ha⟩ := ih hrest
        exact ⟨first :: before, a, after, rfl, List.forall_mem_cons.2 ⟨hfirst, hbefore⟩, ha⟩

section Folds

variable {f : σ → α → Resolution σ}

@[simp] theorem returns_foldlM_nil {s s' : σ} {t t' : SchemaTables} :
    Returns (List.foldlM f s []) t s' t' ↔ s' = s ∧ t' = t :=
  returns_pure

@[simp] theorem returns_foldlM_cons {a : α} {items : List α} {s s' : σ}
    {t t' : SchemaTables} :
    Returns (List.foldlM f s (a :: items)) t s' t' ↔
      ∃ s₁ t₁, (f s a).Returns t s₁ t₁ ∧ Returns (List.foldlM f s₁ items) t₁ s' t' := by
  rw [List.foldlM_cons, returns_bind]

theorem returns_foldlM_append {items more : List α} {s s' : σ} {t t' : SchemaTables} :
    Returns (List.foldlM f s (items ++ more)) t s' t' ↔
      ∃ s₁ t₁, Returns (List.foldlM f s items) t s₁ t₁ ∧
        Returns (List.foldlM f s₁ more) t₁ s' t' := by
  rw [List.foldlM_append, returns_bind]

/-- What every step keeps, the fold keeps. -/
theorem Returns.foldlM_induction {P : σ → SchemaTables → Prop} {items : List α}
    (hstep : ∀ a ∈ items, ∀ s t s' t', P s t → (f s a).Returns t s' t' → P s' t')
    {s s' : σ} {t t' : SchemaTables}
    (h : Returns (List.foldlM f s items) t s' t') (h₀ : P s t) :
    P s' t' := by
  induction items generalizing s t with
  | nil =>
      obtain ⟨rfl, rfl⟩ := returns_foldlM_nil.1 h
      exact h₀
  | cons a rest ih =>
      obtain ⟨s₁, t₁, hfirst, hrest⟩ := returns_foldlM_cons.1 h
      have h₁ : P s₁ t₁ := hstep a List.mem_cons_self s t s₁ t₁ h₀ hfirst
      exact ih (fun b hb => hstep b (List.mem_cons_of_mem _ hb)) hrest h₁

/-- What every step keeps between two runs, the fold keeps. -/
theorem Returns.foldlM_both {S : σ → SchemaTables → σ → SchemaTables → Prop} {items : List α}
    (hstep : ∀ a ∈ items, ∀ s t s₁ u s' t' s₁' u', S s t s₁ u → (f s a).Returns t s' t' →
      (f s₁ a).Returns u s₁' u' → S s' t' s₁' u')
    {s s' s₁ s₁' : σ} {t t' u u' : SchemaTables} (h₀ : S s t s₁ u)
    (h : Returns (List.foldlM f s items) t s' t')
    (h₁ : Returns (List.foldlM f s₁ items) u s₁' u') : S s' t' s₁' u' := by
  induction items generalizing s t s₁ u with
  | nil =>
      obtain ⟨rfl, rfl⟩ := returns_foldlM_nil.1 h
      obtain ⟨rfl, rfl⟩ := returns_foldlM_nil.1 h₁
      exact h₀
  | cons a rest ih =>
      obtain ⟨s₂, t₂, hfirst, hrest⟩ := returns_foldlM_cons.1 h
      obtain ⟨s₃, u₃, hfirst₁, hrest₁⟩ := returns_foldlM_cons.1 h₁
      have h₂ : S s₂ t₂ s₃ u₃ :=
        hstep a List.mem_cons_self s t s₁ u s₂ t₂ s₃ u₃ h₀ hfirst hfirst₁
      exact ih (fun b hb => hstep b (List.mem_cons_of_mem _ hb)) h₂ hrest hrest₁

/-- A fold over `items` meets `a` in the state `s'` with the tables `t'`. -/
def Visits (f : σ → α → Resolution σ) (s : σ) (t : SchemaTables) (items : List α)
    (a : α) (s' : σ) (t' : SchemaTables) : Prop :=
  ∃ before after, items = before ++ a :: after ∧
    Returns (List.foldlM f s before) t s' t'

theorem Visits.mem {s s' : σ} {t t' : SchemaTables} {items : List α} {a : α}
    (h : Visits f s t items a s' t') : a ∈ items := by
  obtain ⟨before, after, rfl, _⟩ := h
  simp

theorem Visits.head (f : σ → α → Resolution σ) (s : σ) (t : SchemaTables) (a : α)
    (items : List α) : Visits f s t (a :: items) a s t :=
  ⟨[], items, rfl, returns_foldlM_nil.2 ⟨rfl, rfl⟩⟩

theorem Visits.tail {s s₁ s' : σ} {t t₁ t' : SchemaTables} {items : List α} {a b : α}
    (hfirst : (f s b).Returns t s₁ t₁) (h : Visits f s₁ t₁ items a s' t') :
    Visits f s t (b :: items) a s' t' := by
  obtain ⟨before, after, rfl, hbefore⟩ := h
  exact ⟨b :: before, after, rfl, returns_foldlM_cons.2 ⟨s₁, t₁, hfirst, hbefore⟩⟩

/-- Distinct items are met once. -/
theorem Visits.unique {s s₁ s₂ : σ} {t t₁ t₂ : SchemaTables} {items : List α} {a : α}
    (h₁ : Visits f s t items a s₁ t₁) (h₂ : Visits f s t items a s₂ t₂)
    (hnodup : items.Nodup) : s₁ = s₂ ∧ t₁ = t₂ := by
  obtain ⟨before, after, rfl, hbefore⟩ := h₁
  obtain ⟨before', after', heq, hbefore'⟩ := h₂
  have hout : a ∉ before ∧ a ∉ after := by
    obtain ⟨-, hrest, hdisjoint⟩ := List.nodup_append.1 hnodup
    exact ⟨fun hn => hdisjoint a hn a List.mem_cons_self rfl, (List.nodup_cons.1 hrest).1⟩
  have hsame : before = before' := by
    rcases List.append_eq_append_iff.1 heq with ⟨more, rfl, hmore⟩ | ⟨more, rfl, hmore⟩
    · cases more with
      | nil => simp
      | cons b more =>
          cases hmore
          exact absurd (by simp) hout.2
    · cases more with
      | nil => simp
      | cons b more =>
          cases hmore
          exact absurd (by simp) hout.1
  subst hsame
  exact hbefore.unique hbefore'

/-- What every step keeps holds wherever the fold passes. -/
theorem Visits.induction {P : σ → SchemaTables → Prop} {items : List α}
    (hstep : ∀ a ∈ items, ∀ s t s' t', P s t → (f s a).Returns t s' t' → P s' t')
    {s s' : σ} {t t' : SchemaTables} {a : α}
    (h : Visits f s t items a s' t') (h₀ : P s t) :
    P s' t' := by
  obtain ⟨before, after, rfl, hbefore⟩ := h
  exact hbefore.foldlM_induction
    (fun b hb => hstep b (List.mem_append_left _ hb)) h₀

/-- A fold that returned met each of its items. -/
theorem Returns.foldlM_split {items : List α} {s s' : σ} {t t' : SchemaTables}
    (h : Returns (List.foldlM f s items) t s' t') {a : α} (ha : a ∈ items) :
    ∃ before after s₁ t₁ s₂ t₂, items = before ++ a :: after ∧
      Returns (List.foldlM f s before) t s₁ t₁ ∧
      (f s₁ a).Returns t₁ s₂ t₂ ∧
      Returns (List.foldlM f s₂ after) t₂ s' t' := by
  obtain ⟨before, after, rfl⟩ := List.append_of_mem ha
  obtain ⟨s₁, t₁, hbefore, hrest⟩ := returns_foldlM_append.1 h
  obtain ⟨s₂, t₂, hstep, hafter⟩ := returns_foldlM_cons.1 hrest
  exact ⟨before, after, s₁, t₁, s₂, t₂, rfl, hbefore, hstep, hafter⟩

/-- Wherever a fold that returned was, it went on from there. -/
theorem Returns.foldlM_visit {items : List α} {s s₁ s' : σ} {t t₁ t' : SchemaTables} {a : α}
    (h : Returns (List.foldlM f s items) t s' t') (hvisit : Visits f s t items a s₁ t₁) :
    ∃ after s₂ t₂, (f s₁ a).Returns t₁ s₂ t₂ ∧ after ⊆ items ∧
      Returns (List.foldlM f s₂ after) t₂ s' t' := by
  obtain ⟨before, after, rfl, hbefore⟩ := hvisit
  obtain ⟨s₁', t₁', hbefore', hrest⟩ := returns_foldlM_append.1 h
  obtain ⟨rfl, rfl⟩ := hbefore.unique hbefore'
  obtain ⟨s₂, t₂, hstep, hafter⟩ := returns_foldlM_cons.1 hrest
  exact ⟨after, s₂, t₂, hstep, fun b hb => by simp [hb], hafter⟩

/-- What is met among the first items is met before the others. -/
theorem Visits.of_append {s s' : σ} {t t' : SchemaTables} {items more : List α} {a : α}
    (h : Visits f s t (items ++ more) a s' t') (hout : a ∉ more) :
    Visits f s t items a s' t' := by
  obtain ⟨before, after, heq, hbefore⟩ := h
  rcases List.append_eq_append_iff.1 heq with ⟨between, rfl, hmore⟩ | ⟨between, rfl, hmore⟩
  · exact absurd (by simp [hmore]) hout
  · cases between with
    | nil => exact absurd (by simp at hmore; simp [← hmore]) hout
    | cons b between =>
        cases hmore
        exact ⟨before, between, rfl, hbefore⟩

/-- What comes to hold in a fold comes to hold in one of its steps. -/
theorem Returns.foldlM_turn {P : σ → Prop} {items : List α} {s s' : σ}
    {t t' : SchemaTables} (h : Returns (List.foldlM f s items) t s' t')
    (hstart : ¬ P s) (hend : P s') :
    ∃ before a after s₁ t₁ s₂ t₂, items = before ++ a :: after ∧
      Returns (List.foldlM f s before) t s₁ t₁ ∧ ¬ P s₁ ∧
      (f s₁ a).Returns t₁ s₂ t₂ ∧ P s₂ ∧
      Returns (List.foldlM f s₂ after) t₂ s' t' := by
  induction items generalizing s t with
  | nil =>
      obtain ⟨rfl, -⟩ := returns_foldlM_nil.1 h
      exact absurd hend hstart
  | cons a rest ih =>
      obtain ⟨s₁, t₁, hfirst, hrest⟩ := returns_foldlM_cons.1 h
      by_cases hturn : P s₁
      · exact ⟨[], a, rest, s, t, s₁, t₁, rfl, returns_foldlM_nil.2 ⟨rfl, rfl⟩, hstart,
          hfirst, hturn, hrest⟩
      · obtain ⟨before, b, after, s₂, t₂, s₃, t₃, rfl, hbefore, hnot, hstep, hholds, hafter⟩ :=
          ih hrest hturn
        exact ⟨a :: before, b, after, s₂, t₂, s₃, t₃, rfl,
          returns_foldlM_cons.2 ⟨s₁, t₁, hfirst, hbefore⟩, hnot, hstep, hholds, hafter⟩

/-- A fold that changes nothing wherever it passes returns what it began with. -/
theorem Returns.foldlM_idle {items : List α} {s s' : σ} {t t' : SchemaTables}
    (h : Returns (List.foldlM f s items) t s' t')
    (hidle : ∀ a s₁ t₁ s₂ t₂, Visits f s t items a s₁ t₁ → (f s₁ a).Returns t₁ s₂ t₂ →
      s₂ = s₁ ∧ t₂ = t₁) : s' = s ∧ t' = t := by
  induction items generalizing s t with
  | nil => exact returns_foldlM_nil.1 h
  | cons a rest ih =>
      obtain ⟨s₁, t₁, hfirst, hrest⟩ := returns_foldlM_cons.1 h
      obtain ⟨rfl, rfl⟩ := hidle a s t s₁ t₁ (Visits.head f s t a rest) hfirst
      exact ih hrest (fun b s₂ t₂ s₃ t₃ hvisit => hidle b s₂ t₂ s₃ t₃ (hvisit.tail hfirst))

/-- A fold fails exactly where one of its items fails. -/
theorem fails_foldlM_iff {items : List α} {s : σ} {t t' : SchemaTables} {e : Failure} :
    Fails (List.foldlM f s items) t e t' ↔
      ∃ a s₁ t₁, Visits f s t items a s₁ t₁ ∧ (f s₁ a).Fails t₁ e t' := by
  induction items generalizing s t with
  | nil =>
      simp [Visits]
  | cons b rest ih =>
      rw [List.foldlM_cons, fails_bind]
      constructor
      · rintro (hfirst | ⟨s₁, t₁, hfirst, hrest⟩)
        · exact ⟨b, s, t, ⟨[], rest, rfl, by simp⟩, hfirst⟩
        · obtain ⟨a, s₂, t₂, ⟨before, after, rfl, hbefore⟩, ha⟩ := ih.1 hrest
          refine ⟨a, s₂, t₂, ⟨b :: before, after, rfl, ?_⟩, ha⟩
          exact returns_foldlM_cons.2 ⟨s₁, t₁, hfirst, hbefore⟩
      · rintro ⟨a, s₁, t₁, ⟨before, after, heq, hbefore⟩, ha⟩
        cases before with
        | nil =>
            obtain ⟨rfl, rfl⟩ := returns_foldlM_nil.1 hbefore
            cases heq
            exact Or.inl ha
        | cons c before =>
            cases heq
            obtain ⟨s₂, t₂, hfirst, hbefore⟩ := returns_foldlM_cons.1 hbefore
            exact Or.inr ⟨s₂, t₂, hfirst,
              ih.2 ⟨a, s₁, t₁, ⟨before, after, rfl, hbefore⟩, ha⟩⟩

end Folds

section Maps

variable {f : String → α → Resolution β}

theorem Returns.entries_mapM_induction {P : SchemaTables → Prop}
    {entries : List (String × α)}
    (hstep : ∀ e ∈ entries, ∀ t b t', P t → (f e.1 e.2).Returns t b t' → P t')
    {out} {t t' : SchemaTables}
    (h : Returns (Entries.mapM f entries) t out t') (h₀ : P t) :
    P t' ∧ ∀ e ∈ entries, ∃ b t₁ t₂, P t₁ ∧
      (f e.1 e.2).Returns t₁ b t₂ ∧ (e.1, b) ∈ out.1 := by
  induction entries generalizing t t' with
  | nil =>
      obtain ⟨_, rfl⟩ := returns_pure.1 h
      exact ⟨h₀, by simp⟩
  | cons e rest ih =>
      obtain ⟨b, t₁, hfirst, h⟩ := returns_bind.1 h
      obtain ⟨more, t₂, hrest, h⟩ := returns_bind.1 h
      obtain ⟨rfl, rfl⟩ := returns_pure.1 h
      have h₁ : P t₁ := hstep e List.mem_cons_self t b t₁ h₀ hfirst
      obtain ⟨h₂, hall⟩ := ih (fun e he => hstep e (List.mem_cons_of_mem _ he)) hrest h₁
      refine ⟨h₂, fun e' he' => ?_⟩
      rcases List.mem_cons.1 he' with rfl | he'
      · exact ⟨b, t, t₁, h₀, hfirst, List.mem_cons_self⟩
      · obtain ⟨b', t₃, t₄, h₃, hb', hmem⟩ := hall e' he'
        exact ⟨b', t₃, t₄, h₃, hb', List.mem_cons_of_mem _ hmem⟩

/-- The values of a map are visited in order.  What every visit keeps of the tables
holds at each of them, and each value is replaced by its answer. -/
theorem Returns.mapM_induction {P : SchemaTables → Prop} {m : SortedMap α}
    (hstep : ∀ key a, m.get? key = some a → ∀ t b t', P t →
      (f key a).Returns t b t' → P t')
    {out : SortedMap β} {t t' : SchemaTables}
    (h : Returns (m.mapM f) t out t') (h₀ : P t) :
    P t' ∧ out.keys = m.keys ∧
      ∀ key a, m.get? key = some a →
        ∃ b t₁ t₂, P t₁ ∧ (f key a).Returns t₁ b t₂ ∧ out.get? key = some b := by
  obtain ⟨entries, t₁, hentries, h⟩ := returns_bind.1 h
  obtain ⟨rfl, rfl⟩ := returns_pure.1 h
  obtain ⟨h₁, hall⟩ := hentries.entries_mapM_induction
    (fun e he => hstep e.1 e.2 ((m.mem_entries_iff e.1 e.2).1 he)) h₀
  refine ⟨h₁, entries.2, fun key a ha => ?_⟩
  obtain ⟨b, t₂, t₃, h₂, hb, hmem⟩ := hall (key, a) ((m.mem_entries_iff key a).2 ha)
  exact ⟨b, t₂, t₃, h₂, hb, (SortedMap.mem_entries_iff _ key b).1 hmem⟩

theorem check_entries_mapM {f : String → α → Except ε β}
    {entries : List (String × α)} {out}
    (h : Entries.mapM f entries = .ok out) :
    ∀ e ∈ entries, ∃ b, f e.1 e.2 = .ok b ∧ (e.1, b) ∈ out.1 := by
  induction entries with
  | nil => simp
  | cons e rest ih =>
      obtain ⟨b, hfirst, hrest⟩ := check_bind.1 h
      obtain ⟨more, hmore, hlast⟩ := check_bind.1 hrest
      cases check_pure.1 hlast
      intro e' he'
      rcases List.mem_cons.1 he' with rfl | he'
      · exact ⟨b, hfirst, List.mem_cons_self⟩
      · obtain ⟨b', hb', hmem⟩ := ih hmore e' he'
        exact ⟨b', hb', List.mem_cons_of_mem _ hmem⟩

/-- A map that passed its checks holds what the checks made of its values. -/
theorem check_mapM {f : String → α → Except ε β} {m : SortedMap α}
    {out : SortedMap β} (h : m.mapM f = .ok out) :
    out.keys = m.keys ∧
      ∀ key a, m.get? key = some a → ∃ b, f key a = .ok b ∧ out.get? key = some b := by
  obtain ⟨entries, hentries, hlast⟩ := check_bind.1 h
  cases check_pure.1 hlast
  refine ⟨entries.2, fun key a ha => ?_⟩
  obtain ⟨b, hb, hmem⟩ :=
    check_entries_mapM hentries (key, a) ((m.mem_entries_iff key a).2 ha)
  exact ⟨b, hb, (SortedMap.mem_entries_iff _ key b).1 hmem⟩

/-- Under each key stands what the check made of the value there, and nothing else. -/
theorem check_mapM_get? {f : String → α → Except ε β} {m : SortedMap α}
    {out : SortedMap β} (h : m.mapM f = .ok out) (key : String) :
    (m.get? key = none ∧ out.get? key = none) ∨
      ∃ a b, m.get? key = some a ∧ f key a = .ok b ∧ out.get? key = some b := by
  obtain ⟨hkeys, hall⟩ := check_mapM h
  cases hget : m.get? key with
  | none =>
      refine Or.inl ⟨rfl, ?_⟩
      rw [← Option.not_isSome_iff_eq_none, ← SortedMap.mem_keys_iff, hkeys,
        SortedMap.mem_keys_iff, hget]
      exact Bool.false_ne_true
  | some a =>
      obtain ⟨b, hb, hout⟩ := hall key a hget
      exact Or.inr ⟨a, b, rfl, hb, hout⟩

/-- A map passes its checks if each of its values does. -/
theorem check_mapM_succeeds {f : String → α → Except ε β} {m : SortedMap α}
    (h : ∀ key a, m.get? key = some a → ∃ b, f key a = .ok b) : ∃ out, m.mapM f = .ok out := by
  have hentries : ∀ entries : List (String × α), (∀ e ∈ entries, ∃ b, f e.1 e.2 = .ok b) →
      ∃ out, Entries.mapM f entries = .ok out := by
    intro entries hall
    induction entries with
    | nil => exact ⟨_, rfl⟩
    | cons e rest ih =>
        obtain ⟨hfirst, hrest⟩ := List.forall_mem_cons.1 hall
        exact check_bind_succeeds hfirst
          (fun _ => check_bind_succeeds (ih hrest) (fun _ => ⟨_, rfl⟩))
  exact check_bind_succeeds
    (hentries m.entries (fun e he => h e.1 e.2 ((m.mem_entries_iff e.1 e.2).1 he)))
    (fun _ => ⟨_, rfl⟩)

/-- A map whose values are left as they are is left as it is. -/
theorem check_mapM_self {f : String → α → Except ε α} {m : SortedMap α}
    (h : ∀ key a, m.get? key = some a → f key a = .ok a) : m.mapM f = .ok m := by
  obtain ⟨out, hout⟩ := check_mapM_succeeds (fun key a ha => ⟨a, h key a ha⟩)
  rw [hout, Except.ok.injEq]
  refine SortedMap.ext_get? (fun key => ?_)
  rcases check_mapM_get? hout key with ⟨hnone, hout⟩ | ⟨a, b, ha, hb, hout⟩
  · rw [hnone, hout]
  · rw [h key a ha] at hb
    cases hb
    rw [ha, hout]

end Maps

end Resolution
end ConfigCompiler
