import Mathlib.Data.Fintype.Basic
import Mathlib.Data.List.Nodup
import Mathlib.Logic.Function.Basic

/-!
This module contains threads that take mutexes in scopes, with a discipline that says which mutex a
thread may take while it has others.
-/

namespace Locks

inductive Op (M : Type u) (C : Type v) where
  | lock (m : M)
  | unlock (m : M)
  | call (c : C)
  deriving DecidableEq, Repr

def scopedLock (m : M) (body : List (Op M C)) : List (Op M C) :=
  .lock m :: (body ++ [.unlock m])

structure Thread (M : Type u) (C : Type v) where
  held : List M := []
  code : List (Op M C) := []
  deriving DecidableEq, Repr

def Thread.wants (t : Thread M C) : Option M :=
  match t.code with
  | .lock m :: _ => some m
  | _ => none

theorem Thread.wants_eq_some {thread : Thread M C} {m : M} :
    thread.wants = some m ↔ thread.code.head? = some (.lock m) := by
  unfold wants
  split
  . next heq => simp [heq]
  . next hne =>
    constructor
    . intro h
      cases h
    . intro h
      rcases List.head?_eq_some_iff.mp h with ⟨code, heq⟩
      exact absurd heq (hne m code)

structure State (σ : Type u) (τ : Type v) (M : Type w) (C : Type x) where
  shared : σ
  threads : τ → Thread M C

def State.Waits (s : State σ τ M C) (t u : τ) : Prop :=
  ∃ m, (s.threads t).wants = some m ∧ m ∈ (s.threads u).held

structure State.Exclusive (s : State σ τ M C) : Prop where
  nodup : ∀ t, (s.threads t).held.Nodup
  eq : ∀ t u m, m ∈ (s.threads t).held → m ∈ (s.threads u).held → t = u

section Run

variable [DecidableEq τ]

def State.set (s : State σ τ M C) (t : τ) (thread : Thread M C) : State σ τ M C :=
  { s with threads := Function.update s.threads t thread }

@[simp]
theorem State.set_threads_self (s : State σ τ M C) (t : τ) (thread : Thread M C) :
    (s.set t thread).threads t = thread := by
  simp [set]

theorem State.set_threads_of_ne (s : State σ τ M C) {t u : τ} (thread : Thread M C) (hne : u ≠ t) :
    (s.set t thread).threads u = s.threads u := by
  simp [set, hne]

variable [Fintype τ] [DecidableEq M]

/--
A thread goes on. It does not get a mutex that is taken, and `expand` gives the code behind a call.
-/
def State.run (expand : σ → τ → C → ε → Option (σ × List (Op M C))) (s : State σ τ M C) (t : τ)
    (choice : ε) : Option (State σ τ M C) :=
  let thread := s.threads t
  match thread.code with
  | [] => none
  | .lock m :: code =>
    if ∀ u, m ∉ (s.threads u).held then some (s.set t ⟨m :: thread.held, code⟩) else none
  | .unlock m :: code => some (s.set t ⟨thread.held.erase m, code⟩)
  | .call c :: code =>
    (expand s.shared t c choice).map fun (shared, body) =>
      { s.set t ⟨thread.held, body ++ code⟩ with shared := shared }

inductive State.Runs (expand : σ → τ → C → ε → Option (σ × List (Op M C)))
    (s : State σ τ M C) (t : τ) (choice : ε) : State σ τ M C → Prop where
  | lock {m : M} {code : List (Op M C)} (heq : (s.threads t).code = .lock m :: code)
      (hfree : ∀ u, m ∉ (s.threads u).held) :
      Runs expand s t choice (s.set t ⟨m :: (s.threads t).held, code⟩)
  | unlock {m : M} {code : List (Op M C)} (heq : (s.threads t).code = .unlock m :: code) :
    Runs expand s t choice (s.set t ⟨(s.threads t).held.erase m, code⟩)
  | call {c : C} {code body : List (Op M C)} {shared : σ}
      (heq : (s.threads t).code = .call c :: code)
      (hcall : expand s.shared t c choice = some (shared, body)) :
    Runs expand s t choice { s.set t ⟨(s.threads t).held, body ++ code⟩ with shared := shared }

theorem State.runs_of_run {expand : σ → τ → C → ε → Option (σ × List (Op M C))}
    {s s' : State σ τ M C} {t : τ}
    {choice : ε} (h : s.run expand t choice = some s') : s.Runs expand t choice s' := by
  unfold State.run at h
  dsimp only at h
  split at h
  . cases h
  . next m code heq =>
    split at h
    . next hfree =>
      cases h
      exact .lock heq hfree
    . cases h
  . next m code heq =>
    cases h
    exact .unlock heq
  . next c code heq =>
    rcases Option.map_eq_some_iff.mp h with ⟨⟨shared, body⟩, hcall, rfl⟩
    exact .call heq hcall

end Run

structure Discipline (σ : Type u) (τ : Type v) (M : Type w) (C : Type x) where
  mayLock : σ → τ → List M → M → Prop
  mayCall : σ → τ → List M → C → Prop

namespace Discipline

variable {D : Discipline σ τ M C} {s s' : σ} {t : τ} {held : List M}
  {code body body' : List (Op M C)} {m : M}
  {c : C}

inductive Follows (D : Discipline σ τ M C) (s : σ) (t : τ) : List M → List (Op M C) → Prop where
  | nil : Follows D s t [] []
  | lock {held : List M} {m : M} {code : List (Op M C)} (hmay : D.mayLock s t held m)
      (h : Follows D s t (m :: held) code) : Follows D s t held (.lock m :: code)
  | unlock {held : List M} {m : M} {code : List (Op M C)} (h : Follows D s t held code) :
    Follows D s t (m :: held) (.unlock m :: code)
  | call {held : List M} {c : C} {code : List (Op M C)} (hmay : D.mayCall s t held c)
      (h : Follows D s t held code) : Follows D s t held (.call c :: code)

def Body (D : Discipline σ τ M C) (s : σ) (t : τ) (held : List M) (body : List (Op M C)) : Prop :=
  ∀ code, D.Follows s t held code → D.Follows s t held (body ++ code)

theorem Body.nil : D.Body s t held [] :=
  fun _ h => h

theorem Body.call (hmay : D.mayCall s t held c) : D.Body s t held [.call c] :=
  fun _ h => .call hmay h

theorem Body.append (h : D.Body s t held body) (h' : D.Body s t held body') :
    D.Body s t held (body ++ body') := by
  intro code hcode
  rw [List.append_assoc]
  exact h _ (h' _ hcode)

theorem Body.scope (hmay : D.mayLock s t held m) (h : D.Body s t (m :: held) body) :
    D.Body s t held (scopedLock m body) := by
  intro code hcode
  unfold Locks.scopedLock
  rw [List.cons_append, List.append_assoc]
  exact .lock hmay (h _ (.unlock hcode))

theorem Follows.of_lock (h : D.Follows s t held (.lock m :: code)) :
    D.mayLock s t held m ∧ D.Follows s t (m :: held) code := by
  cases h with
  | lock hmay h => exact ⟨hmay, h⟩

theorem Follows.of_unlock (h : D.Follows s t held (.unlock m :: code)) :
    ∃ rest, held = m :: rest ∧ D.Follows s t rest code := by
  cases h with
  | unlock h => exact ⟨_, rfl, h⟩

theorem Follows.of_call (h : D.Follows s t held (.call c :: code)) :
    D.mayCall s t held c ∧ D.Follows s t held code := by
  cases h with
  | call hmay h => exact ⟨hmay, h⟩

theorem Follows.of_nil (h : D.Follows s t held []) : held = [] := by
  cases h with
  | nil => rfl

theorem Follows.mono (hlock : ∀ held m, D.mayLock s t held m → D.mayLock s' t held m)
    (hcall : ∀ held c, D.mayCall s t held c → D.mayCall s' t held c) (h : D.Follows s t held code) :
    D.Follows s' t held code := by
  induction h with
  | nil => exact .nil
  | lock hmay _ ih => exact .lock (hlock _ _ hmay) ih
  | unlock _ ih => exact .unlock ih
  | call hmay _ ih => exact .call (hcall _ _ hmay) ih

end Discipline

theorem Thread.mayLock_of_wants {D : Discipline σ τ M C} {shared : σ} {t : τ} {m : M}
    {thread : Thread M C}
    (h : D.Follows shared t thread.held thread.code) (hwants : thread.wants = some m) :
    D.mayLock shared t thread.held m := by
  rcases List.head?_eq_some_iff.mp (Thread.wants_eq_some.mp hwants) with ⟨code, heq⟩
  rw [heq] at h
  exact h.of_lock.1

def State.Follows (D : Discipline σ τ M C) (s : State σ τ M C) : Prop :=
  ∀ t, D.Follows s.shared t (s.threads t).held (s.threads t).code

section Run

variable [DecidableEq τ] {D : Discipline σ τ M C} {s s' : State σ τ M C} {t : τ}

theorem State.Follows.set (h : s.Follows D) {thread : Thread M C}
    (ht : D.Follows s.shared t thread.held thread.code) : (s.set t thread).Follows D := by
  intro u
  by_cases hu : u = t
  . rw [hu, State.set_threads_self]
    exact ht
  . rw [State.set_threads_of_ne s _ hu]
    exact h u

theorem State.Exclusive.set (h : s.Exclusive) {thread : Thread M C} (hnodup : thread.held.Nodup)
    (hmem : ∀ m ∈ thread.held, m ∈ (s.threads t).held ∨ ∀ u, m ∉ (s.threads u).held) :
    (s.set t thread).Exclusive := by
  -- a thread can only have got mutexes that nobody had
  constructor
  . intro u
    unfold State.set
    dsimp only
    rw [Function.update_apply]
    split
    . exact hnodup
    . exact h.nodup u
  . have hother : ∀ u m, m ∈ thread.held → m ∈ (s.threads u).held → t = u := by
      intro u m hm hu
      cases hmem m hm with
      | inl hm => exact h.eq t u m hm hu
      | inr hfree => exact absurd hu (hfree u)
    intro u v m hu hv
    unfold State.set at hu hv
    dsimp only at hu hv
    rw [Function.update_apply] at hu hv
    split at hu
    . next hut =>
      split at hv
      . next hvt => exact hut.trans hvt.symm
      . exact hut.trans (hother v m hu hv)
    . split at hv
      . next hvt => exact (hvt.trans (hother u m hv hu)).symm
      . exact h.eq u v m hu hv

variable [DecidableEq M] {expand : σ → τ → C → ε → Option (σ × List (Op M C))} {choice : ε}

theorem State.Follows.run (h : s.Follows D)
    (hexpand : ∀ c shared body, D.mayCall s.shared t (s.threads t).held c →
      expand s.shared t c choice = some (shared, body) →
      D.Body shared t (s.threads t).held body
        ∧ ∀ u, (∀ held m, D.mayLock s.shared u held m → D.mayLock shared u held m)
            ∧ ∀ held c, D.mayCall s.shared u held c → D.mayCall shared u held c)
    (hrun : s.Runs expand t choice s') : s'.Follows D := by
  have ht := h t
  cases hrun with
  | lock heq hfree =>
    rw [heq] at ht
    exact h.set ht.of_lock.2
  | unlock heq =>
    rw [heq] at ht
    rcases ht.of_unlock with ⟨rest, hheld, hcode⟩
    apply h.set
    dsimp only
    rw [hheld, List.erase_cons_head]
    exact hcode
  | call heq hcall =>
    rw [heq] at ht
    rcases hexpand _ _ _ ht.of_call.1 hcall with ⟨hbody, hmono⟩
    intro u
    dsimp only
    by_cases hu : u = t
    . rw [hu, State.set_threads_self]
      exact hbody _ (ht.of_call.2.mono (hmono t).1 (hmono t).2)
    . rw [State.set_threads_of_ne s _ hu]
      exact (h u).mono (hmono u).1 (hmono u).2

theorem State.Exclusive.run (h : s.Exclusive) (hrun : s.Runs expand t choice s') :
    s'.Exclusive := by
  cases hrun with
  | @lock m code heq hfree =>
    apply h.set
    . exact List.nodup_cons.mpr ⟨hfree t, h.nodup t⟩
    . intro m' hm'
      cases List.mem_cons.mp hm' with
      | inl heq' => exact .inr (heq' ▸ hfree)
      | inr hm' => exact .inl hm'
  | @unlock m code heq =>
    apply h.set
    . exact (h.nodup t).erase m
    . intro m' hm'
      exact .inl (List.mem_of_mem_erase hm')
  | @call c code body shared heq hcall =>
    have hset : (s.set t ⟨(s.threads t).held, body ++ code⟩).Exclusive :=
      h.set (h.nodup t) fun m hm => .inl hm
    exact ⟨hset.nodup, hset.eq⟩

end Run

end Locks
