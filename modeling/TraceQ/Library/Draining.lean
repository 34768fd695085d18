import TraceQ.Library.Transactions

/-! # Readers of an old state

A permission is withdrawn while transactions that have already read it are in flight. Where nobody can read it
any more, each of those uses it at most once, and nobody else does.
-/
namespace TraceQ.Transactions.Protocol
open Relation
set_option autoImplicit false
set_option maxHeartbeats 250000

variable {σ ℓ : Type} {p : Protocol σ ℓ}

/-- A transaction in flight that holds what it has read. -/
def Holder (holds : ℓ → Prop) (w : World σ ℓ) (i : ℕ) : Prop := ∃ l, w.flight i = some l ∧ holds l

/-- What a withdrawn permission does in a protocol: nobody comes to hold it, and it is used by holders only,
which are gone then. -/
structure Withdrawn (p : Protocol σ ℓ) (P : σ → Prop) (holds : ℓ → Prop) (uses : σ → ℕ) : Prop where
  begins : ∀ l, p.begins l → ¬ holds l
  moves : ∀ w i l l', P w.committed → p.moves w i l l' → holds l' → holds l
  commits : ∀ w i l s l', P w.committed → p.commits w i l s l' →
    P s ∧ (∀ m, l' = some m → ¬ holds m) ∧
      (uses s = uses w.committed ∨ holds l ∧ uses s = uses w.committed + 1)

variable {P : σ → Prop} {holds : ℓ → Prop} {uses : σ → ℕ}

theorem holder_set {w : World σ ℓ} {i j : ℕ} {l : Option ℓ} (h : Holder holds (w.set i l) j) :
    (j = i ∧ ∃ m, l = some m ∧ holds m) ∨ (j ≠ i ∧ Holder holds w j) := by
  obtain ⟨m, hm, hholds⟩ := h
  by_cases hj : j = i
  · subst hj
    exact .inl ⟨rfl, m, by simpa [World.set] using hm, hholds⟩
  · exact .inr ⟨hj, m, by simpa [World.set, hj] using hm, hholds⟩

open Classical in
/-- The withdrawal holds, and the uses left are among the holders of the list. -/
structure Draining (P : σ → Prop) (holds : ℓ → Prop) (uses : σ → ℕ) (total : ℕ) (old : Finset ℕ)
    (w : World σ ℓ) : Prop where
  withdrawn : P w.committed
  holders : ∀ i, Holder holds w i → i ∈ old
  count : uses w.committed + (old.filter (Holder holds w)).card ≤ total

/-- A transaction that is gone, or holds nothing, takes its use with it. -/
theorem Draining.shrinks {total : ℕ} {old : Finset ℕ} {w w' : World σ ℓ} (h : Draining P holds uses total old w)
    (hP : P w'.committed) (hfewer : ∀ j, Holder holds w' j → Holder holds w j)
    (huses : uses w'.committed = uses w.committed ∨
      uses w'.committed = uses w.committed + 1 ∧ ∃ i, Holder holds w i ∧ ¬ Holder holds w' i) :
    Draining P holds uses total old w' := by
  classical
  refine ⟨hP, fun i hi => h.holders i (hfewer i hi), ?_⟩
  have hcount := h.count
  have hsub : old.filter (Holder holds w') ⊆ old.filter (Holder holds w) := by
    intro j hj
    obtain ⟨hold, hholds⟩ := Finset.mem_filter.mp hj
    exact Finset.mem_filter.mpr ⟨hold, hfewer j hholds⟩
  rcases huses with hsame | ⟨hmore, i, hi, hgone⟩
  · have hcard := Finset.card_le_card hsub
    rw [hsame]
    omega
  · have hstrict : old.filter (Holder holds w') ⊂ old.filter (Holder holds w) := by
      refine Finset.ssubset_iff_subset_ne.mpr ⟨hsub, fun heq => hgone ?_⟩
      have hmem : i ∈ old.filter (Holder holds w) := Finset.mem_filter.mpr ⟨h.holders i hi, hi⟩
      rw [← heq] at hmem
      exact (Finset.mem_filter.mp hmem).2
    have hcard := Finset.card_lt_card hstrict
    rw [hmore]
    omega

theorem draining_step (hwithdrawn : Withdrawn p P holds uses) {total : ℕ} {old : Finset ℕ} {w w' : World σ ℓ}
    (h : Draining P holds uses total old w) (hstep : p.Step w w') : Draining P holds uses total old w' := by
  cases hstep with
  | begins i l idle hl =>
    refine h.shrinks h.withdrawn (fun j hj => ?_) (.inl rfl)
    rcases holder_set hj with ⟨-, m, hm, hholds⟩ | ⟨-, hheld⟩
    · exact absurd hholds (Option.some.inj hm ▸ hwithdrawn.begins l hl)
    · exact hheld
  | moves i l l' running hl =>
    refine h.shrinks h.withdrawn (fun j hj => ?_) (.inl rfl)
    rcases holder_set hj with ⟨rfl, m, hm, hholds⟩ | ⟨-, hheld⟩
    · obtain rfl := Option.some.inj hm
      exact ⟨l, running, hwithdrawn.moves w j l l' h.withdrawn hl hholds⟩
    · exact hheld
  | commits i l s l' running hl =>
    obtain ⟨hP, hnext, huses⟩ := hwithdrawn.commits w i l s l' h.withdrawn hl
    have hothers : ∀ j, Holder holds (World.set { w with committed := s } i l') j →
        j ≠ i ∧ Holder holds w j := by
      intro j hj
      rcases holder_set hj with ⟨-, m, hm, hholds⟩ | ⟨hne, hheld⟩
      · exact absurd hholds (hnext m hm)
      · exact ⟨hne, hheld⟩
    refine h.shrinks hP (fun j hj => (hothers j hj).2) ?_
    rcases huses with hsame | ⟨hholds, hmore⟩
    · exact .inl hsame
    · exact .inr ⟨hmore, i, ⟨l, running, hholds⟩, fun hi => (hothers i hi).1 rfl⟩
  | rollsBack i l running hl =>
    refine h.shrinks h.withdrawn (fun j hj => ?_) (.inl rfl)
    rcases holder_set hj with ⟨-, m, hm, -⟩ | ⟨-, hheld⟩
    · cases hm
    · exact hheld

/-- After the withdrawal there are at most as many uses as there were holders. -/
theorem uses_le (hwithdrawn : Withdrawn p P holds uses) {w w' : World σ ℓ} (hP : P w.committed) {old : Finset ℕ}
    (hold : ∀ i, Holder holds w i → i ∈ old) (h : p.Reachable w w') :
    uses w'.committed ≤ uses w.committed + old.card := by
  classical
  have hstart : Draining P holds uses (uses w.committed + old.card) old w := by
    refine ⟨hP, hold, ?_⟩
    have hcard := Finset.card_le_card (Finset.filter_subset (Holder holds w) old)
    omega
  have hend := invariant (fun a b ha hab => draining_step hwithdrawn ha hab) hstart h
  have hcount := hend.count
  omega

end TraceQ.Transactions.Protocol
