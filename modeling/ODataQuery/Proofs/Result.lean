import Mathlib.Data.List.Forall2

/-!
# Computations that may fail

How the binds of `Except` come apart, alone and under a state.
-/

namespace ODataQuery

namespace Result

variable {σ ε α β : Type}

@[simp]
theorem ok_bind (x : α) (f : α → Except ε β) : (Except.ok x >>= f) = f x := rfl

@[simp]
theorem error_bind (err : ε) (f : α → Except ε β) :
    (Except.error err >>= f) = Except.error err := rfl

/-- A sequence of two steps succeeds exactly if both do. -/
theorem bind_eq_ok {x : Except ε α} {f : α → Except ε β} {y : β} :
    (x >>= f) = .ok y ↔ ∃ a, x = .ok a ∧ f a = .ok y := by
  cases x with
  | error err => simp
  | ok a => simp

theorem run_bind (x : StateT σ (Except ε) α) (f : α → StateT σ (Except ε) β) (s : σ) :
    (x >>= f) s = x s >>= fun r => f r.1 r.2 := rfl

@[simp]
theorem run_pure (x : α) (s : σ) : (pure x : StateT σ (Except ε) α) s = .ok (x, s) := rfl

@[simp]
theorem run_get (s : σ) : (get : StateT σ (Except ε) σ) s = .ok (s, s) := rfl

/-- The same with a state that is handed on. -/
theorem run_bind_eq_ok {x : StateT σ (Except ε) α} {f : α → StateT σ (Except ε) β} {s : σ}
    {r : β × σ} : (x >>= f) s = .ok r ↔ ∃ a s', x s = .ok (a, s') ∧ f a s' = .ok r := by
  rw [run_bind, bind_eq_ok]
  exact Prod.exists

/-- Steps for the elements of a list succeed exactly if each of them does. -/
theorem mapM_eq_ok {f : α → Except ε β} {as : List α} {bs : List β} :
    as.mapM f = .ok bs ↔ List.Forall₂ (fun a b => f a = .ok b) as bs := by
  induction as generalizing bs with
  | nil =>
    rw [List.forall₂_nil_left_iff, List.mapM_nil]
    exact ⟨fun h => (Except.ok.inj h).symm, fun h => h ▸ rfl⟩
  | cons a as ih =>
    rw [List.mapM_cons, bind_eq_ok, List.forall₂_cons_left_iff]
    constructor
    · rintro ⟨b, hb, h⟩
      obtain ⟨bs, hbs, h⟩ := bind_eq_ok.mp h
      cases h
      exact ⟨b, bs, hb, ih.mp hbs, rfl⟩
    · rintro ⟨b, bs, hb, hbs, rfl⟩
      exact ⟨b, hb, bind_eq_ok.mpr ⟨bs, ih.mpr hbs, rfl⟩⟩

/-- Steps under a state that succeed from every state succeed one after the other. -/
theorem exists_run_mapM {f : α → StateT σ (Except ε) β} {as : List α}
    (h : ∀ a ∈ as, ∀ s, ∃ r, f a s = .ok r) (s : σ) : ∃ r, as.mapM f s = .ok r := by
  induction as generalizing s with
  | nil => exact ⟨([], s), rfl⟩
  | cons a as ih =>
    obtain ⟨⟨b, s'⟩, hb⟩ := h a List.mem_cons_self s
    obtain ⟨⟨bs, s''⟩, hbs⟩ := ih (fun a' ha' => h a' (List.mem_cons_of_mem _ ha')) s'
    rw [List.mapM_cons]
    exact ⟨(b :: bs, s''), run_bind_eq_ok.mpr ⟨b, s', hb, run_bind_eq_ok.mpr ⟨bs, s'', hbs, rfl⟩⟩⟩

/-- What steps under a state establish holds at the end if later steps keep it: an invariant of the
state, its growth, and what each step says of its outcome. -/
theorem forall₂_of_run_mapM {f : α → StateT σ (Except ε) β} {I : σ → Prop} {R : σ → σ → Prop}
    {P : α → β → σ → Prop} (hrefl : ∀ s, R s s)
    (htrans : ∀ {s s' s''}, R s s' → R s' s'' → R s s'')
    (hkeep : ∀ {a b s s'}, R s s' → P a b s → P a b s')
    {as : List α} (hstep : ∀ a ∈ as, ∀ {b s s'}, I s → f a s = .ok (b, s') →
      I s' ∧ R s s' ∧ P a b s')
    {bs : List β} {s s' : σ} (hs : I s) (h : as.mapM f s = .ok (bs, s')) :
    I s' ∧ R s s' ∧ List.Forall₂ (fun a b => P a b s') as bs := by
  induction as generalizing s bs with
  | nil =>
    cases h
    exact ⟨hs, hrefl _, .nil⟩
  | cons a as ih =>
    rw [List.mapM_cons] at h
    obtain ⟨b, s₁, hb, h⟩ := run_bind_eq_ok.mp h
    obtain ⟨bs, s₂, hbs, h⟩ := run_bind_eq_ok.mp h
    cases h
    obtain ⟨hs₁, hgrows₁, hpost⟩ := hstep a List.mem_cons_self hs hb
    obtain ⟨hs₂, hgrows₂, hposts⟩ := ih (fun a' ha' => hstep a' (List.mem_cons_of_mem _ ha')) hs₁ hbs
    exact ⟨hs₂, htrans hgrows₁ hgrows₂, .cons (hkeep hgrows₂ hpost) hposts⟩

/-- Steps for the elements of a list fail with the error of one of them. -/
theorem exists_of_mapM_eq_error {f : α → Except ε β} {as : List α} {err : ε}
    (h : as.mapM f = .error err) : ∃ a ∈ as, f a = .error err := by
  induction as with
  | nil => cases h
  | cons a as ih =>
    rw [List.mapM_cons] at h
    cases ha : f a with
    | error err' =>
      rw [ha] at h
      cases h
      exact ⟨a, List.mem_cons_self, ha⟩
    | ok b =>
      rw [ha, ok_bind] at h
      cases hrest : as.mapM f with
      | error err' =>
        rw [hrest] at h
        cases h
        obtain ⟨a', ha', herror⟩ := ih hrest
        exact ⟨a', List.mem_cons_of_mem _ ha', herror⟩
      | ok bs =>
        rw [hrest] at h
        cases h

/-- Whether a step succeeds with an outcome that passes a test. -/
def passes (test : α → Bool) : Except ε α → Bool
  | .ok a => test a
  | .error _ => false

theorem exists_of_passes {test : α → Bool} {x : Except ε α} (h : passes test x = true) :
    ∃ a, x = .ok a ∧ test a = true := by
  cases x with
  | error err => cases h
  | ok a => exact ⟨a, rfl, h⟩

/-- Two steps succeed one after the other, each with an outcome that passes a test. -/
theorem exists_of_passes_both {ε' : Type} {test : α → Bool} {f : α → Except ε' β}
    {test' : β → Bool} {x : Except ε α} (h : passes (fun a => test a && passes test' (f a)) x = true) :
    ∃ a b, x = .ok a ∧ test a = true ∧ f a = .ok b ∧ test' b = true := by
  obtain ⟨a, hx, h⟩ := exists_of_passes h
  obtain ⟨htest, h⟩ := Bool.and_eq_true_iff.mp h
  obtain ⟨b, hf, htest'⟩ := exists_of_passes h
  exact ⟨a, b, hx, htest, hf, htest'⟩

/-- Both computations fail with the same error, or both succeed with related results. -/
inductive Alike (R : α → β → Prop) : Except ε α → Except ε β → Prop
  | error (err : ε) : Alike R (.error err) (.error err)
  | ok {x : α} {y : β} (h : R x y) : Alike R (.ok x) (.ok y)

theorem Alike.mono {R S : α → β → Prop} {x : Except ε α} {y : Except ε β} (h : Alike R x y)
    (hRS : ∀ a b, R a b → S a b) : Alike S x y := by
  cases h with
  | error err => exact .error err
  | ok h => exact .ok (hRS _ _ h)

theorem Alike.exists_ok {R : α → β → Prop} {x : Except ε α} {y : Except ε β} {a : α}
    (h : Alike R x y) (hx : x = .ok a) : ∃ b, y = .ok b ∧ R a b := by
  cases h with
  | error err => cases hx
  | ok h =>
    cases hx
    exact ⟨_, rfl, h⟩

theorem Alike.eq_error {R : α → β → Prop} {x : Except ε α} {y : Except ε β} {err : ε}
    (h : Alike R x y) (hx : x = .error err) : y = .error err := by
  cases h with
  | error err' =>
    cases hx
    rfl
  | ok h => cases hx

theorem Alike.bind {γ δ : Type} {R : α → β → Prop} {S : γ → δ → Prop} {x : Except ε α}
    {y : Except ε β} {f : α → Except ε γ} {g : β → Except ε δ} (h : Alike R x y)
    (hf : ∀ a b, R a b → Alike S (f a) (g b)) : Alike S (x >>= f) (y >>= g) := by
  cases h with
  | error err => exact .error err
  | ok h => exact hf _ _ h

end Result

end ODataQuery
