import Mathlib.Data.List.Forall2

/-!
# Results of steps that may fail

A sequence of steps has a value exactly if all its steps have one, and it fails with the fault of
the first step that does.
-/

namespace LedgerWatch

variable {ε α β : Type}

theorem bind_eq_ok_iff {x : Except ε α} {f : α → Except ε β} {b : β} :
    x >>= f = .ok b ↔ ∃ a, x = .ok a ∧ f a = .ok b := by
  cases x with
  | error e => simp [bind, Except.bind]
  | ok a => simp [bind, Except.bind]

theorem bind_eq_error_iff {x : Except ε α} {f : α → Except ε β} {e : ε} :
    x >>= f = .error e ↔ x = .error e ∨ ∃ a, x = .ok a ∧ f a = .error e := by
  cases x with
  | error e => simp [bind, Except.bind]
  | ok a => simp [bind, Except.bind]

/-- A check that throws unless it holds lets through exactly what satisfies it. -/
theorem throw_bind_eq_ok_iff {c : Prop} [Decidable c] {e : ε} {x : α → Except ε β}
    {y : Except ε β} {b : β} :
    (if c then (throw e : Except ε α) >>= x else y) = .ok b ↔ ¬ c ∧ y = .ok b := by
  by_cases h : c
  · simp [h, throw, throwThe, MonadExceptOf.throw, bind, Except.bind]
  · simp [h]

theorem throw_bind_eq_error_iff {c : Prop} [Decidable c] {e e' : ε} {x : α → Except ε β}
    {y : Except ε β} :
    (if c then (throw e : Except ε α) >>= x else y) = .error e' ↔
      c ∧ e = e' ∨ ¬ c ∧ y = .error e' := by
  by_cases h : c
  · simp [h, throw, throwThe, MonadExceptOf.throw, bind, Except.bind]
  · simp [h]

theorem toOption_eq_some_iff {x : Except ε α} {a : α} : x.toOption = some a ↔ x = .ok a := by
  cases x <;> simp [Except.toOption]

theorem mapM_eq_ok_iff {f : α → Except ε β} {as : List α} {bs : List β} :
    as.mapM f = .ok bs ↔ List.Forall₂ (fun a b => f a = .ok b) as bs := by
  induction as generalizing bs with
  | nil =>
    rw [List.mapM_nil, List.forall₂_nil_left_iff]
    exact ⟨fun h => (Except.ok.inj h).symm, fun h => congrArg Except.ok h.symm⟩
  | cons a as ih =>
    simp only [List.mapM_cons, bind_eq_ok_iff, List.forall₂_cons_left_iff]
    constructor
    · rintro ⟨b, hb, rest, hrest, hbs⟩
      obtain rfl := Except.ok.inj hbs
      exact ⟨b, rest, hb, ih.mp hrest, rfl⟩
    · rintro ⟨b, rest, hb, hrest, rfl⟩
      exact ⟨b, hb, rest, ih.mpr hrest, rfl⟩

/-- The first element without a value decides the fault. -/
theorem mapM_eq_error_iff {f : α → Except ε β} {as : List α} {e : ε} :
    as.mapM f = .error e ↔ ∃ before a after, as = before ++ a :: after ∧
      (∀ a' ∈ before, ∃ b, f a' = .ok b) ∧ f a = .error e := by
  induction as with
  | nil => simp [pure, Except.pure]
  | cons first as ih =>
    have hrest : ∀ b bs, (pure (b :: bs) : Except ε (List β)) ≠ .error e := by
      intro b bs h
      cases h
    simp only [List.mapM_cons, bind_eq_error_iff, ih, hrest, and_false, exists_false, or_false]
    constructor
    · rintro (hfirst | ⟨b, hfirst, before, a, after, rfl, hbefore, ha⟩)
      · exact ⟨[], first, as, rfl, by simp, hfirst⟩
      · refine ⟨first :: before, a, after, rfl, ?_, ha⟩
        intro a' ha'
        rcases List.mem_cons.mp ha' with rfl | hmem
        · exact ⟨b, hfirst⟩
        · exact hbefore a' hmem
    · rintro ⟨before, a, after, hsplit, hbefore, ha⟩
      cases before with
      | nil =>
        obtain ⟨rfl, -⟩ := List.cons.inj hsplit
        exact .inl ha
      | cons a' before =>
        obtain ⟨rfl, rfl⟩ := List.cons.inj hsplit
        obtain ⟨b, hb⟩ := hbefore first List.mem_cons_self
        refine .inr ⟨b, hb, before, a, after, rfl, ?_, ha⟩
        intro a'' ha''
        exact hbefore a'' (List.mem_cons_of_mem first ha'')

end LedgerWatch
