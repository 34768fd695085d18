import Mathlib

/-! # Interleaved transactions

Transactions that take their steps in any order beside one committed state. A step begins a
transaction, moves its local state, commits something, or rolls it back. The rule for invariants asks
of every kind of step what it does to the committed state, to the transaction that takes it and to the
others.
-/
namespace TraceQ.Transactions
open Relation
set_option autoImplicit false
set_option maxHeartbeats 250000

/-- The committed state and the transactions in flight, by number. -/
structure World (σ ℓ : Type) where
  committed : σ
  flight : ℕ → Option ℓ

variable {σ ℓ : Type}

/-- Nothing is in flight. -/
def World.quiet (s : σ) : World σ ℓ := ⟨s, fun _ => none⟩

/-- Transaction `i` goes on in another local state, or is gone. -/
def World.set (w : World σ ℓ) (i : ℕ) (l : Option ℓ) : World σ ℓ :=
  { w with flight := Function.update w.flight i l }

/-- Every other transaction satisfies `P`. -/
def World.Others (w : World σ ℓ) (i : ℕ) (P : ℓ → Prop) : Prop :=
  ∀ j m, j ≠ i → w.flight j = some m → P m

/-- What the steps of a transaction may be, and where it may be rolled back without a trace. -/
structure Protocol (σ ℓ : Type) where
  begins : ℓ → Prop
  moves : World σ ℓ → ℕ → ℓ → ℓ → Prop
  commits : World σ ℓ → ℕ → ℓ → σ → Option ℓ → Prop
  rollsBack : ℓ → Prop

namespace Protocol
variable (p : Protocol σ ℓ)

inductive Step (w : World σ ℓ) : World σ ℓ → Prop where
  | begins (i : ℕ) (l : ℓ) (idle : w.flight i = none) (h : p.begins l) : Step w (w.set i (some l))
  | moves (i : ℕ) (l l' : ℓ) (running : w.flight i = some l) (h : p.moves w i l l') :
      Step w (w.set i (some l'))
  | commits (i : ℕ) (l : ℓ) (s : σ) (l' : Option ℓ) (running : w.flight i = some l)
      (h : p.commits w i l s l') : Step w (World.set { w with committed := s } i l')
  | rollsBack (i : ℕ) (l : ℓ) (running : w.flight i = some l) (h : p.rollsBack l) :
      Step w (w.set i none)

/-- The worlds some interleaving leads to. -/
def Reachable (start w : World σ ℓ) : Prop := ReflTransGen p.Step start w

/-- The protocol whose transactions commit only where `C` holds. -/
def restrict (C : World σ ℓ → ℕ → ℓ → Prop) : Protocol σ ℓ where
  begins := p.begins
  moves := p.moves
  commits w i l s l' := p.commits w i l s l' ∧ C w i l
  rollsBack := p.rollsBack

variable {p}

/-! ## A transaction alone -/

/-- Transaction 0 is the only one in flight. -/
def alone (s : σ) (l : ℓ) : World σ ℓ := (World.quiet s).set 0 (some l)

theorem others_alone (s : σ) (l : ℓ) (P : ℓ → Prop) : (alone s l).Others 0 P := by
  intro j m hj hm
  simp [alone, World.quiet, World.set, hj] at hm

@[simp] theorem alone_committed (s : σ) (l : ℓ) : (alone s l).committed = s := rfl

theorem alone_running (s : σ) (l : ℓ) : (alone s l).flight 0 = some l := by
  simp [alone, World.set]

theorem alone_begins {l : ℓ} (s : σ) (h : p.begins l) :
    p.Reachable (World.quiet s) (alone s l) :=
  ReflTransGen.single (.begins 0 l rfl h)

theorem alone_moves {start : World σ ℓ} {s : σ} {l l' : ℓ} (h : p.Reachable start (alone s l))
    (hmove : p.moves (alone s l) 0 l l') : p.Reachable start (alone s l') := by
  have hstep := ReflTransGen.tail h (.moves 0 l l' (alone_running s l) hmove)
  have hset : (alone s l).set 0 (some l') = alone s l' := by simp [alone, World.set]
  rwa [hset] at hstep

theorem alone_commits {start : World σ ℓ} {s s' : σ} {l : ℓ} (h : p.Reachable start (alone s l))
    (hcommit : p.commits (alone s l) 0 l s' none) : p.Reachable start (World.quiet s') := by
  have hstep := ReflTransGen.tail h (.commits 0 l s' none (alone_running s l) hcommit)
  have hset : World.set { alone s l with committed := s' } 0 none = World.quiet s' := by
    simp [alone, World.set, World.quiet]
  rwa [hset] at hstep

/-- It commits and goes on. -/
theorem alone_advances {start : World σ ℓ} {s s' : σ} {l l' : ℓ} (h : p.Reachable start (alone s l))
    (hcommit : p.commits (alone s l) 0 l s' (some l')) : p.Reachable start (alone s' l') := by
  have hstep := ReflTransGen.tail h (.commits 0 l s' (some l') (alone_running s l) hcommit)
  have hset : World.set { alone s l with committed := s' } 0 (some l') = alone s' l' := by
    simp [alone, World.set, World.quiet]
  rwa [hset] at hstep

/-! ### Beside another one -/

/-- Transaction 1 runs beside transaction 0. -/
def both (s : σ) (l m : ℓ) : World σ ℓ := (alone s l).set 1 (some m)

theorem others_both {s : σ} {l m : ℓ} {P : ℓ → Prop} (h : P l) : (both s l m).Others 1 P := by
  intro j n hj hn
  by_cases h0 : j = 0
  · subst h0
    simp [both, alone, World.set] at hn
    exact hn ▸ h
  · simp [both, alone, World.quiet, World.set, hj, h0] at hn

theorem both_running (s : σ) (l m : ℓ) : (both s l m).flight 1 = some m := by
  simp [both, World.set]

theorem both_begins {start : World σ ℓ} {s : σ} {l m : ℓ} (h : p.Reachable start (alone s l))
    (hbegins : p.begins m) : p.Reachable start (both s l m) :=
  h.tail (.begins 1 m (by simp [alone, World.quiet, World.set]) hbegins)

theorem both_moves {start : World σ ℓ} {s : σ} {l m m' : ℓ} (h : p.Reachable start (both s l m))
    (hmove : p.moves (both s l m) 1 m m') : p.Reachable start (both s l m') := by
  have hstep := ReflTransGen.tail h (.moves 1 m m' (both_running s l m) hmove)
  have hset : (both s l m).set 1 (some m') = both s l m' := by simp [both, World.set]
  rwa [hset] at hstep

theorem both_commits {start : World σ ℓ} {s s' : σ} {l m : ℓ} (h : p.Reachable start (both s l m))
    (hcommit : p.commits (both s l m) 1 m s' none) : p.Reachable start (alone s' l) := by
  have hstep := ReflTransGen.tail h (.commits 1 m s' none (both_running s l m) hcommit)
  have hset : World.set { both s l m with committed := s' } 1 none = alone s' l := by
    simp only [both, alone, World.set, World.quiet, World.mk.injEq, true_and]
    funext j
    by_cases h1 : j = 1
    · simp [h1]
    · simp [h1]
  rwa [hset] at hstep

theorem both_advances {start : World σ ℓ} {s s' : σ} {l m m' : ℓ}
    (h : p.Reachable start (both s l m))
    (hcommit : p.commits (both s l m) 1 m s' (some m')) : p.Reachable start (both s' l m') := by
  have hstep := ReflTransGen.tail h (.commits 1 m s' (some m') (both_running s l m) hcommit)
  have hset : World.set { both s l m with committed := s' } 1 (some m') = both s' l m' := by
    simp [both, alone, World.set, World.quiet]
  rwa [hset] at hstep

/-! ## Invariants -/

theorem invariant {P : World σ ℓ → Prop} (step : ∀ a b, P a → p.Step a b → P b)
    {start w : World σ ℓ} (hstart : P start) (h : p.Reachable start w) : P w := by
  induction h with
  | refl => exact hstart
  | tail _ hstep ih => exact step _ _ ih hstep

/-- Without the restriction the same worlds are reached, and perhaps more. -/
theorem step_of_restrict {C : World σ ℓ → ℕ → ℓ → Prop} {a b : World σ ℓ} (h : (p.restrict C).Step a b) :
    p.Step a b := by
  cases h with
  | begins i l idle hl => exact .begins i l idle hl
  | moves i l l' running hl => exact .moves i l l' running hl
  | commits i l s l' running hl => exact .commits i l s l' running hl.1
  | rollsBack i l running hl => exact .rollsBack i l running hl

theorem reachable_of_restrict {C : World σ ℓ → ℕ → ℓ → Prop} {start w : World σ ℓ}
    (h : (p.restrict C).Reachable start w) : p.Reachable start w :=
  ReflTransGen.mono (fun _ _ hstep => step_of_restrict hstep) start w h

/-- What every permitted commit keeps, beside an invariant of the protocol, holds of the committed
state in every run of the restricted protocol. -/
theorem committed_invariant {C : World σ ℓ → ℕ → ℓ → Prop} {I : World σ ℓ → Prop} {Q : σ → Prop}
    (step : ∀ a b, I a → p.Step a b → I b)
    (commits : ∀ w i l s l', I w → Q w.committed → w.flight i = some l → p.commits w i l s l' →
      C w i l → Q s)
    {start w : World σ ℓ} (hstart : I start) (hcommitted : Q start.committed)
    (h : (p.restrict C).Reachable start w) : I w ∧ Q w.committed := by
  induction h with
  | refl => exact ⟨hstart, hcommitted⟩
  | tail _ hstep ih =>
    refine ⟨step _ _ ih.1 (step_of_restrict hstep), ?_⟩
    cases hstep with
    | commits i l s l' running hl => exact commits _ i l s l' ih.1 ih.2 running hl.1 hl.2
    | _ => exact ih.2

/-! ### Views -/

section Views
variable {σ' ℓ' : Type}

/-- The world as a view shows it: part of the committed state, and some of the transactions. -/
def view (f : σ' → σ) (g : ℓ' → Option ℓ) (w : World σ' ℓ') : World σ ℓ :=
  ⟨f w.committed, fun i => (w.flight i).bind g⟩

variable {f : σ' → σ} {g : ℓ' → Option ℓ}

theorem view_running {w : World σ' ℓ'} {i : ℕ} {l : ℓ'} (h : w.flight i = some l) :
    (view f g w).flight i = g l := by
  simp only [view, h, Option.bind_some]

theorem view_set (w : World σ' ℓ') (i : ℕ) (l : Option ℓ') : view f g (w.set i l) = (view f g w).set i (l.bind g) := by
  simp only [view, World.set, World.mk.injEq, true_and]
  funext j
  by_cases hj : j = i
  · simp [hj]
  · simp [hj]

theorem others_view {w : World σ' ℓ'} {i : ℕ} {P : ℓ → Prop} (h : w.Others i fun l => ∀ m, g l = some m → P m) :
    (view f g w).Others i P := by
  intro j m hj hm
  obtain ⟨l, hl, hshown⟩ := Option.bind_eq_some_iff.mp hm
  exact h j l hj hl m hshown

/-- A step that changes neither the shown part nor what is shown of its transaction is not seen. -/
theorem view_set_same {w : World σ' ℓ'} {i : ℕ} {l : Option ℓ'} (h : l.bind g = (w.flight i).bind g) :
    view f g (w.set i l) = view f g w := by
  have hsame : Function.update (view f g w).flight i ((w.flight i).bind g) = (view f g w).flight :=
    Function.update_eq_self i _
  rw [view_set, h, World.set, hsame]

/-- Where every step shows as a step of another protocol or not at all, runs show as runs of that protocol. -/
theorem reachable_view {q : Protocol σ' ℓ'}
    (step : ∀ a b, q.Step a b → p.Step (view f g a) (view f g b) ∨ view f g b = view f g a)
    {start w : World σ' ℓ'} (h : q.Reachable start w) : p.Reachable (view f g start) (view f g w) := by
  induction h with
  | refl => exact .refl
  | tail _ hstep ih =>
    rcases step _ _ hstep with hshown | hsame
    · exact ih.tail hshown
    · exact hsame ▸ ih

end Views

/-! ### By parts -/

/-- `G` holds of the committed state, `L` of every transaction beside it, `R` between any two. -/
structure Held (G : σ → Prop) (L : σ → ℓ → Prop) (R : ℓ → ℓ → Prop) (w : World σ ℓ) : Prop where
  shared : G w.committed
  each : ∀ i l, w.flight i = some l → L w.committed l
  pairs : ∀ i l, w.flight i = some l → w.Others i (R l)

theorem held_quiet {G : σ → Prop} {L : σ → ℓ → Prop} {R : ℓ → ℓ → Prop} {s : σ} (h : G s) :
    Held G L R (World.quiet s) :=
  ⟨h, nofun, nofun⟩

section Parts
variable {G : σ → Prop} {L : σ → ℓ → Prop} {R : ℓ → ℓ → Prop} {w : World σ ℓ}

theorem Held.ends (h : Held G L R w) (i : ℕ) : Held G L R (w.set i none) := by
  refine ⟨h.shared, fun j l hj => ?_, fun j l hj k m hk hm => ?_⟩
  · by_cases hji : j = i
    · subst hji; simp [World.set] at hj
    · exact h.each j l (by simpa [World.set, hji] using hj)
  · by_cases hji : j = i
    · subst hji; simp [World.set] at hj
    · by_cases hki : k = i
      · subst hki; simp [World.set] at hm
      · exact h.pairs j l (by simpa [World.set, hji] using hj) k m hk
          (by simpa [World.set, hki] using hm)

/-- A transaction goes on in a local state that fits the committed state and the others. -/
theorem Held.update (symm : ∀ a b, R a b → R b a) (h : Held G L R w) {i : ℕ} {l : ℓ}
    (hl : L w.committed l) (hothers : w.Others i (R l)) : Held G L R (w.set i (some l)) := by
  refine ⟨h.shared, fun j m hj => ?_, fun j m hj k n hk hn => ?_⟩
  · by_cases hji : j = i
    · subst hji
      obtain rfl : l = m := by simpa [World.set] using hj
      exact hl
    · exact h.each j m (by simpa [World.set, hji] using hj)
  · by_cases hji : j = i
    · subst hji
      obtain rfl : l = m := by simpa [World.set] using hj
      exact hothers k n hk (by simpa [World.set, hk] using hn)
    · have hm : w.flight j = some m := by simpa [World.set, hji] using hj
      by_cases hki : k = i
      · subst hki
        obtain rfl : l = n := by simpa [World.set] using hn
        exact symm _ _ (hothers j m hji hm)
      · exact h.pairs j m hm k n hk (by simpa [World.set, hki] using hn)

/-- The invariant survives a step if it does so from this world. -/
theorem Held.step (symm : ∀ a b, R a b → R b a) (h : Held G L R w)
    (begins : ∀ l, p.begins l → L w.committed l ∧ ∀ m, R l m)
    (moves : ∀ i l l', w.flight i = some l → p.moves w i l l' →
      L w.committed l' ∧ w.Others i (R l'))
    (commits : ∀ i l s l', w.flight i = some l → p.commits w i l s l' →
      G s ∧ w.Others i (L s) ∧ ∀ m, l' = some m → L s m ∧ w.Others i (R m))
    {w' : World σ ℓ} (hstep : p.Step w w') : Held G L R w' := by
  cases hstep with
  | begins i l idle hl =>
    obtain ⟨hlocal, hpairs⟩ := begins l hl
    exact h.update symm hlocal fun _ m _ _ => hpairs m
  | moves i l l' running hl =>
    obtain ⟨hlocal, hpairs⟩ := moves i l l' running hl
    exact h.update symm hlocal hpairs
  | commits i l s l' running hl =>
    obtain ⟨hshared, hothers, hnext⟩ := commits i l s l' running hl
    -- first the others beside the new committed state, then the transaction itself
    have hgone : Held G L R (World.set { w with committed := s } i none) := by
      refine ⟨hshared, fun j m hj => ?_, (h.ends i).pairs⟩
      by_cases hji : j = i
      · subst hji; simp [World.set] at hj
      · exact hothers j m hji (by simpa [World.set, hji] using hj)
    cases l' with
    | none => exact hgone
    | some m =>
      obtain ⟨hlocal, hpairs⟩ := hnext m rfl
      have hset := hgone.update symm (i := i) (l := m) hlocal fun j n hj hn =>
        hpairs j n hj (by simpa [World.set, hj] using hn)
      simpa [World.set] using hset
  | rollsBack i l running hl => exact h.ends i

/-- The invariant survives every step of the protocol. -/
theorem held_step (symm : ∀ a b, R a b → R b a)
    (begins : ∀ s l, G s → p.begins l → L s l ∧ ∀ m, R l m)
    (moves : ∀ w i l l', Held G L R w → w.flight i = some l → p.moves w i l l' →
      L w.committed l' ∧ w.Others i (R l'))
    (commits : ∀ w i l s l', Held G L R w → w.flight i = some l → p.commits w i l s l' →
      G s ∧ w.Others i (L s) ∧ ∀ m, l' = some m → L s m ∧ w.Others i (R m))
    {w w' : World σ ℓ} (h : Held G L R w) (hstep : p.Step w w') : Held G L R w' :=
  h.step symm (fun l hl => begins _ l h.shared hl) (fun i l l' running hl => moves w i l l' h running hl)
    (fun i l s l' running hl => commits w i l s l' h running hl) hstep

end Parts

end Protocol

end TraceQ.Transactions
