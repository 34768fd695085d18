import Mathlib

/-! # Computations that may raise

Inversion of the binds of `Except`, and the rules for a loop whose body may raise: an invariant of
the body is one of the loop, and a loop whose body commutes with an abstraction computes the
abstract fold.
-/
namespace TraceQ.Results
set_option autoImplicit false
set_option maxHeartbeats 250000

variable {ε α β σ τ : Type}

/-! ## Binds -/

theorem bind_ok {x : Except ε α} {f : α → Except ε β} {b : β} :
    x >>= f = .ok b ↔ ∃ a, x = .ok a ∧ f a = .ok b := by
  cases x with
  | error e => exact ⟨nofun, nofun⟩
  | ok a =>
    refine ⟨fun h => ⟨a, rfl, h⟩, fun ⟨_, h, hf⟩ => ?_⟩
    cases h
    exact hf

theorem map_ok {x : Except ε α} {f : α → β} {b : β} :
    x.map f = .ok b ↔ ∃ a, x = .ok a ∧ f a = b := by
  cases x with
  | error e => exact ⟨nofun, nofun⟩
  | ok a =>
    refine ⟨fun h => ⟨a, rfl, Except.ok.inj h⟩, fun ⟨_, h, hf⟩ => ?_⟩
    cases h
    rw [← hf]
    rfl

theorem pure_ok {a b : α} : (pure a : Except ε α) = .ok b ↔ a = b :=
  ⟨fun h => Except.ok.inj h, fun h => by rw [h]; rfl⟩

theorem pair_ok {a c : α} {b d : β} :
    (pure (a, b) : Except ε (α × β)) = .ok (c, d) ↔ a = c ∧ b = d := by
  rw [pure_ok, Prod.mk.injEq]

/-! ## Loops -/

theorem foldlM_cons_ok {f : σ → α → Except ε σ} {s t : σ} {a : α} {rest : List α} :
    (a :: rest).foldlM f s = .ok t ↔ ∃ m, f s a = .ok m ∧ rest.foldlM f m = .ok t := by
  rw [List.foldlM_cons, bind_ok]

theorem foldlM_append_ok {f : σ → α → Except ε σ} {s t : σ} {as bs : List α} :
    (as ++ bs).foldlM f s = .ok t ↔
      ∃ m, as.foldlM f s = .ok m ∧ bs.foldlM f m = .ok t := by
  rw [List.foldlM_append, bind_ok]

/-- What the body keeps, the loop keeps. -/
theorem foldlM_invariant {f : σ → α → Except ε σ} {P : σ → Prop} :
    ∀ {as : List α} {s t : σ}, (∀ a ∈ as, ∀ m n, P m → f m a = .ok n → P n) →
      as.foldlM f s = .ok t → P s → P t := by
  intro as
  induction as with
  | nil => intro s t _ h hs; exact Except.ok.inj h ▸ hs
  | cons a rest ih =>
    intro s t hstep h hs
    obtain ⟨m, hm, hrest⟩ := foldlM_cons_ok.mp h
    have hgood : P m := hstep a (by simp) s m hs hm
    exact ih (fun b hb => hstep b (by simp [hb])) hrest hgood

/-- A body that computes `g` on the view of every good state makes the loop compute the fold of
`g`. -/
theorem foldlM_simulates {f : σ → α → Except ε σ} {P : σ → Prop} {v : σ → τ}
    {g : τ → α → τ} :
    ∀ {as : List α} {s t : σ},
      (∀ a ∈ as, ∀ m n, P m → f m a = .ok n → P n ∧ v n = g (v m) a) →
      as.foldlM f s = .ok t → P s → v t = as.foldl g (v s) := by
  intro as
  induction as with
  | nil => intro s t _ h _; rw [Except.ok.inj h]; rfl
  | cons a rest ih =>
    intro s t hstep h hs
    obtain ⟨m, hm, hrest⟩ := foldlM_cons_ok.mp h
    obtain ⟨hgood, habst⟩ := hstep a (by simp) s m hs hm
    rw [ih (fun b hb => hstep b (by simp [hb])) hrest hgood, habst, List.foldl_cons]

/-- If the body succeeds in every good state and keeps it good, the loop succeeds. -/
theorem foldlM_total {f : σ → α → Except ε σ} {P : σ → Prop} :
    ∀ {as : List α} {s : σ}, (∀ a ∈ as, ∀ m, P m → ∃ n, f m a = .ok n ∧ P n) → P s →
      ∃ t, as.foldlM f s = .ok t ∧ P t := by
  intro as
  induction as with
  | nil => intro s _ hs; exact ⟨s, rfl, hs⟩
  | cons a rest ih =>
    intro s hstep hs
    obtain ⟨m, hm, hgood⟩ := hstep a (by simp) s hs
    obtain ⟨t, ht, htgood⟩ := ih (fun b hb => hstep b (by simp [hb])) hgood
    exact ⟨t, foldlM_cons_ok.mpr ⟨m, hm, ht⟩, htgood⟩

/-- A loop that succeeds ran its body on every element from some good state. -/
theorem foldlM_body_ok {f : σ → α → Except ε σ} {P : σ → Prop} :
    ∀ {as : List α} {s t : σ}, (∀ a ∈ as, ∀ m n, P m → f m a = .ok n → P n) →
      as.foldlM f s = .ok t → P s → ∀ a ∈ as, ∃ m n, P m ∧ f m a = .ok n := by
  intro as
  induction as with
  | nil => intro s t _ _ _ a ha; cases ha
  | cons b rest ih =>
    intro s t hstep h hs a ha
    obtain ⟨m, hm, hrest⟩ := foldlM_cons_ok.mp h
    rcases List.mem_cons.mp ha with rfl | hmem
    · exact ⟨s, m, hs, hm⟩
    · exact ih (fun c hc => hstep c (by simp [hc])) hrest (hstep b (by simp) s m hs hm) a hmem

end TraceQ.Results
