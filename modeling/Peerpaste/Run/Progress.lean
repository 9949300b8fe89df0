import Mathlib.Algebra.Ring.Nat
import Peerpaste.Run.Basic

/-!
This module contains the rules for what a run reaches whatever the order of its events is: goals
that are never lost again, and levels that one epoch after another climbs.
-/

namespace Run

variable {σ : Type u} {ε : Type v} {ι : Type w} {step : σ → ε → Option σ}

theorem exec_achieves {Inv : σ → Prop} {Allowed : ε → Prop} {Goal : ι → σ → Prop}
    {Helps : ι → ε → Prop} (hstep : ∀ s e, Inv s → Allowed e →
      ∃ s', step s e = some s' ∧ Inv s' ∧ ∀ i, Goal i s ∨ Helps i e → Goal i s')
    {s : σ} {es : List ε} (hs : Inv s) (hes : ∀ e ∈ es, Allowed e)
    (hgoals : ∀ i, Goal i s ∨ ∃ e ∈ es, Helps i e) :
    ∃ s', exec step s es = some s' ∧ Inv s' ∧ ∀ i, Goal i s' := by
  induction es generalizing s with
  | nil =>
    refine ⟨s, rfl, hs, ?_⟩
    intro i
    rcases hgoals i with hgoal | ⟨e, he, _⟩
    . exact hgoal
    . cases he
  | cons e es ih =>
    rw [List.forall_mem_cons] at hes
    rcases hstep s e hs hes.1 with ⟨t, ht, hInv, hnext⟩
    have hrest : ∀ i, Goal i t ∨ ∃ e ∈ es, Helps i e := by
      intro i
      rcases hgoals i with hgoal | ⟨e', he', hhelps⟩
      . exact Or.inl (hnext i (Or.inl hgoal))
      . rcases List.mem_cons.mp he' with rfl | he'
        . exact Or.inl (hnext i (Or.inr hhelps))
        . exact Or.inr ⟨e', he', hhelps⟩
    rcases ih hInv hes.2 hrest with ⟨s', hexec, hs'⟩
    exact ⟨s', by rw [exec_cons, ht, Option.bind_some, hexec], hs'⟩

theorem exec_reaches {Inv Goal : σ → Prop} {Allowed Helps : ε → Prop}
    (hstep : ∀ s e, Inv s → Allowed e → ∃ s', step s e = some s' ∧ Inv s' ∧ (Helps e → Goal s'))
    (hkeeps : ∀ s e, Goal s → Allowed e → ∃ s', step s e = some s' ∧ Goal s')
    (hweaken : ∀ s, Goal s → Inv s) {s : σ} {es : List ε} (hs : Inv s) (hes : ∀ e ∈ es, Allowed e)
    (hhelp : ∃ e ∈ es, Helps e) : ∃ s', exec step s es = some s' ∧ Goal s' := by
  have hstep' : ∀ s e, Inv s → Allowed e →
      ∃ s', step s e = some s' ∧ Inv s' ∧ ∀ _ : Unit, Goal s ∨ Helps e → Goal s' := by
    intro s e hs he
    by_cases hgoal : Goal s
    . rcases hkeeps s e hgoal he with ⟨s', h, hgoal'⟩
      exact ⟨s', h, hweaken s' hgoal', fun _ _ => hgoal'⟩
    . rcases hstep s e hs he with ⟨s', h, hInv, hhelps⟩
      exact ⟨s', h, hInv, fun _ hor => hhelps (hor.resolve_left hgoal)⟩
  rcases exec_achieves hstep' hs hes fun _ => Or.inr hhelp with ⟨s', hexec, _, hgoal⟩
  exact ⟨s', hexec, hgoal ()⟩

theorem exec_trans {s t u : σ} {es es' : List ε} (h : exec step s es = some t)
    (h' : exec step t es' = some u) :
    exec step s (es ++ es') = some u := by
  rw [exec_append, h, Option.bind_some, h']

theorem exec_epochs {Level : Nat → σ → Prop} {Epoch : List ε → Prop}
    (hepoch : ∀ n s es, Level n s → Epoch es → ∃ s', exec step s es = some s' ∧ Level (n + 1) s')
    (epochs : List (List ε)) (hepochs : ∀ es ∈ epochs, Epoch es) {n : Nat} {s : σ}
    (hs : Level n s) :
    ∃ s', exec step s epochs.flatten = some s' ∧ Level (n + epochs.length) s' := by
  induction epochs generalizing n s with
  | nil => exact ⟨s, rfl, hs⟩
  | cons es epochs ih =>
    rw [List.forall_mem_cons] at hepochs
    rcases hepoch n s es hs hepochs.1 with ⟨t, ht, hlevel⟩
    rcases ih hepochs.2 hlevel with ⟨s', hexec, hs'⟩
    refine ⟨s', ?_, ?_⟩
    . rw [List.flatten_cons, exec_trans ht hexec]
    . rw [List.length_cons, Nat.add_comm epochs.length, ← Nat.add_assoc]
      exact hs'

/--
If no step costs more than it gains and what it takes from the potential, neither does a run.
-/
theorem exec_amortized {Inv : σ → Prop} {Cond : σ → ε → Prop} {potential : σ → Nat}
    {cost gain : ε → Nat} (hstep : ∀ s e s', Inv s → Cond s e → step s e = some s' →
      Inv s' ∧ potential s' + cost e ≤ potential s + gain e)
    {s s' : σ} {es : List ε} (hs : Inv s) (hcond : Along step Cond s es)
    (hexec : exec step s es = some s') :
    potential s' + (es.map cost).sum ≤ potential s + (es.map gain).sum := by
  induction es generalizing s with
  | nil =>
    simp only [exec_nil, Option.some.injEq] at hexec
    rw [hexec]
    exact Nat.le_refl _
  | cons e es ih =>
    simp only [exec_cons, Option.bind_eq_some_iff] at hexec
    rcases hexec with ⟨t, ht, hexec⟩
    rcases hstep s e t hs hcond.1 ht with ⟨hInv, hle⟩
    have := ih hInv (hcond.2 t ht) hexec
    simp only [List.map_cons, List.sum_cons]
    omega

end Run
