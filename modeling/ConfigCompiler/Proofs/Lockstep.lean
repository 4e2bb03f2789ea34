import ConfigCompiler.Proofs.Questions

/-!
# Questions in lockstep

Two questions that are asked with different tables, or put to different resolvers, go in
lockstep as long as each part of the one is answered as the same part of the other.

**Input.**  `Lockstep E I J x y`: with tables related by `I` the questions `x` and `y` end
in the same way.  An answer `a` leaves tables related by `J a`, a failure tables related
by `E`.

**Results.**
* `Lockstep.bind`, `Lockstep.foldlM`, `Lockstep.mapM`: questions go in lockstep when their
  parts do.
* `Lockstep.of_returns`, `Lockstep.visits`: what the one returns, and whatever it meets on
  its way, the other returns and meets as well.
-/

namespace ConfigCompiler
namespace Resolution

variable {α β σ : Type} {E I : SchemaTables → SchemaTables → Prop}
variable {J : α → SchemaTables → SchemaTables → Prop}
variable {L : β → SchemaTables → SchemaTables → Prop}
variable {t t' u : SchemaTables} {x y : Resolution α}

/-- With tables related by `I` two questions end in the same way, and leave tables that
are related again. -/
def Lockstep (E I : SchemaTables → SchemaTables → Prop)
    (J : α → SchemaTables → SchemaTables → Prop) (x y : Resolution α) : Prop :=
  ∀ t u, I t u →
    (∃ a t' u', x.Returns t a t' ∧ y.Returns u a u' ∧ J a t' u') ∨
      ∃ f t' u', x.Fails t f t' ∧ y.Fails u f u' ∧ E t' u'

theorem Lockstep.answer_eq (h : Lockstep E I J x y) (hI : I t u) :
    (x.ask t).1 = (y.ask u).1 := by
  rcases h t u hI with ⟨a, t', u', hx, hy, -⟩ | ⟨f, t', u', hx, hy, -⟩
  · rw [hx, hy]
  · rw [hx, hy]

/-- What the one question returns, the other returns as well. -/
theorem Lockstep.of_returns {a : α} (h : Lockstep E I J x y) (hI : I t u)
    (hx : x.Returns t a t') : ∃ u', y.Returns u a u' ∧ J a t' u' := by
  rcases h t u hI with ⟨b, t₁, u', hx', hy, hJ⟩ | ⟨f, t₁, u', hfails, -, -⟩
  · obtain ⟨rfl, rfl⟩ := hx.unique hx'
    exact ⟨u', hy, hJ⟩
  · exact absurd hfails hx.not_fails

/-- However the questions end, the tables they leave are related by what failures and
answers leave. -/
theorem Lockstep.tables {R : SchemaTables → SchemaTables → Prop} (h : Lockstep E I J x y)
    (hI : I t u) (hE : ∀ t u, E t u → R t u) (hJ : ∀ a t u, J a t u → R t u) :
    R (x.ask t).2 (y.ask u).2 := by
  rcases h t u hI with ⟨a, t', u', hx, hy, hlast⟩ | ⟨f, t', u', hx, hy, hlast⟩
  · rw [hx, hy]
    exact hJ a t' u' hlast
  · rw [hx, hy]
    exact hE t' u' hlast

theorem Lockstep.pure {a : α} (h : ∀ t u, I t u → J a t u) :
    Lockstep E I J (Pure.pure a) (Pure.pure a) :=
  fun t u hI => Or.inl ⟨a, t, u, rfl, rfl, h t u hI⟩

theorem Lockstep.throw (f : Failure) (h : ∀ t u, I t u → E t u) :
    Lockstep E I J (throw f) (throw f) :=
  fun t u hI => Or.inr ⟨f, t, u, rfl, rfl, h t u hI⟩

/-- A check does not look at the tables. -/
theorem Lockstep.lift {e : Except Failure α} (hE : ∀ t u, I t u → E t u)
    (hJ : ∀ a, e = .ok a → ∀ t u, I t u → J a t u) :
    Lockstep E I J (liftM e) (liftM e) := by
  intro t u hI
  cases e with
  | ok a => exact Or.inl ⟨a, t, u, rfl, rfl, hJ a rfl t u hI⟩
  | error f => exact Or.inr ⟨f, t, u, rfl, rfl, hE t u hI⟩

/-- Questions that are answered alike wherever they are asked. -/
theorem Lockstep.of_ask
    (h : ∀ t u, I t u → ∃ e t' u', x.ask t = (e, t') ∧ y.ask u = (e, u') ∧
      E t' u' ∧ ∀ a, e = .ok a → J a t' u') : Lockstep E I J x y := by
  intro t u hI
  obtain ⟨e, t', u', hx, hy, hE, hJ⟩ := h t u hI
  cases e with
  | ok a => exact Or.inl ⟨a, t', u', hx, hy, hJ a rfl⟩
  | error f => exact Or.inr ⟨f, t', u', hx, hy, hE⟩

theorem Lockstep.bind {f g : α → Resolution β} (hxy : Lockstep E I J x y)
    (hfg : ∀ a t u t', I t u → x.Returns t a t' → Lockstep E (J a) L (f a) (g a)) :
    Lockstep E I L (x >>= f) (y >>= g) := by
  intro t u hI
  rcases hxy t u hI with ⟨a, t₁, u₁, hx, hy, hJ⟩ | ⟨e, t₁, u₁, hx, hy, hE⟩
  · rcases hfg a t u t₁ hI hx t₁ u₁ hJ with
      ⟨b, t₂, u₂, hf, hg, hL⟩ | ⟨e, t₂, u₂, hf, hg, hE⟩
    · exact Or.inl ⟨b, t₂, u₂, returns_bind.2 ⟨a, t₁, hx, hf⟩,
        returns_bind.2 ⟨a, u₁, hy, hg⟩, hL⟩
    · exact Or.inr ⟨e, t₂, u₂, fails_bind.2 (Or.inr ⟨a, t₁, hx, hf⟩),
        fails_bind.2 (Or.inr ⟨a, u₁, hy, hg⟩), hE⟩
  · exact Or.inr ⟨e, t₁, u₁, fails_bind.2 (Or.inl hx), fails_bind.2 (Or.inl hy), hE⟩

theorem Lockstep.adapt (h : Lockstep E I J x y) (g : Failure → Failure) :
    Lockstep E I J (ExceptT.adapt g x) (ExceptT.adapt g y) := by
  intro t u hI
  rcases h t u hI with ⟨a, t', u', hx, hy, hJ⟩ | ⟨f, t', u', hx, hy, hE⟩
  · exact Or.inl ⟨a, t', u', returns_adapt.2 hx, returns_adapt.2 hy, hJ⟩
  · exact Or.inr ⟨g f, t', u', fails_adapt.2 ⟨f, hx, rfl⟩, fails_adapt.2 ⟨f, hy, rfl⟩, hE⟩

section Folds

variable {f g : σ → α → Resolution σ} {H : σ → SchemaTables → SchemaTables → Prop}
variable {P : σ → Prop} {items : List α} {s : σ}

/-- Folds go in lockstep when their steps do.  The steps may rely on a property of the
states that each step keeps. -/
theorem Lockstep.foldlM
    (hstep : ∀ a ∈ items, ∀ s, P s → Lockstep E (H s) H (f s a) (g s a))
    (hkeep : ∀ a ∈ items, ∀ s t s' t', P s → (f s a).Returns t s' t' → P s') (hP : P s) :
    Lockstep E (H s) H (items.foldlM f s) (items.foldlM g s) := by
  induction items generalizing s with
  | nil => exact Lockstep.pure (fun _ _ hI => hI)
  | cons a rest ih =>
      rw [List.foldlM_cons, List.foldlM_cons]
      refine (hstep a List.mem_cons_self s hP).bind (fun s' t u t' _ hreturns => ?_)
      exact ih (fun b hb => hstep b (List.mem_cons_of_mem _ hb))
        (fun b hb => hkeep b (List.mem_cons_of_mem _ hb))
        (hkeep a List.mem_cons_self s t s' t' hP hreturns)

/-- Whatever the one fold meets on its way, the other meets in the same state. -/
theorem Lockstep.visits
    (hstep : ∀ a ∈ items, ∀ s, P s → Lockstep E (H s) H (f s a) (g s a))
    (hkeep : ∀ a ∈ items, ∀ s t s' t', P s → (f s a).Returns t s' t' → P s') (hP : P s)
    (hH : H s t u) {a : α} {s' : σ} (hvisit : Visits f s t items a s' t') :
    ∃ u', Visits g s u items a s' u' ∧ H s' t' u' ∧ P s' := by
  obtain ⟨before, after, rfl, hbefore⟩ := hvisit
  have hmem : ∀ b ∈ before, b ∈ before ++ a :: after := fun b hb => List.mem_append_left _ hb
  obtain ⟨u', hbefore', hH'⟩ := (Lockstep.foldlM (P := P)
    (fun b hb => hstep b (hmem b hb)) (fun b hb => hkeep b (hmem b hb)) hP).of_returns
    hH hbefore
  exact ⟨u', ⟨before, after, rfl, hbefore'⟩, hH', hbefore.foldlM_induction
    (P := fun s _ => P s) (fun b hb s t s' t' hs => hkeep b (hmem b hb) s t s' t' hs) hP⟩

end Folds

section Maps

variable {f g : String → α → Resolution β}

theorem Lockstep.entries_mapM {entries : List (String × α)}
    (h : ∀ e ∈ entries, Lockstep E I (fun _ => I) (f e.1 e.2) (g e.1 e.2)) :
    Lockstep E I (fun _ => I) (Entries.mapM f entries) (Entries.mapM g entries) := by
  induction entries with
  | nil => exact Lockstep.pure (fun _ _ hI => hI)
  | cons e rest ih =>
      exact (h e List.mem_cons_self).bind (fun _ _ _ _ _ _ =>
        (ih (fun e he => h e (List.mem_cons_of_mem _ he))).bind
          (fun _ _ _ _ _ _ => Lockstep.pure (fun _ _ hI => hI)))

theorem Lockstep.mapM {m : SortedMap α}
    (h : ∀ key a, m.get? key = some a → Lockstep E I (fun _ => I) (f key a) (g key a)) :
    Lockstep E I (fun _ => I) (m.mapM f) (m.mapM g) :=
  (Lockstep.entries_mapM (fun e he => h e.1 e.2 ((m.mem_entries_iff e.1 e.2).1 he))).bind
    (fun _ _ _ _ _ _ => Lockstep.pure (fun _ _ hI => hI))

end Maps

end Resolution
end ConfigCompiler
