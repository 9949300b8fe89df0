/-!
This module contains runs of a partial step function over a list of events, predicates that hold
along all steps of a run and the invariant rules for them.
-/

namespace Run

variable {σ : Type u} {ε : Type v} {η : Type w}

/--
Take the steps of all events in order. The run is `none` as soon as one event is not possible.
-/
def exec (step : σ → ε → Option σ) : σ → List ε → Option σ
  | s, [] => some s
  | s, e :: es => (step s e).bind (exec step · es)

/--
`P` holds of every event that the run takes, in the state that it takes it in.
-/
def Along (step : σ → ε → Option σ) (P : σ → ε → Prop) : σ → List ε → Prop
  | _, [] => True
  | s, e :: es => P s e ∧ ∀ s', step s e = some s' → Along step P s' es

/--
The step function that also keeps a history `η` of the steps, which the steps themselves never read.
-/
def observe (step : σ → ε → Option σ) (record : σ → η → ε → η) (s : σ × η) (e : ε) :
    Option (σ × η) :=
  (step s.1 e).map (·, record s.1 s.2 e)

variable {step : σ → ε → Option σ}

@[simp]
theorem exec_nil (s : σ) : exec step s [] = some s := rfl

@[simp]
theorem exec_cons (s : σ) (e : ε) (es : List ε) :
    exec step s (e :: es) = (step s e).bind (exec step · es) := rfl

theorem exec_append (s : σ) (es es' : List ε) :
    exec step s (es ++ es') = (exec step s es).bind (exec step · es') := by
  induction es generalizing s with
  | nil => rfl
  | cons e es ih =>
    rw [List.cons_append, exec_cons, exec_cons, Option.bind_assoc]
    congr 1
    funext s'
    exact ih s'

namespace Along

variable {P Q : σ → ε → Prop}

theorem imp (h : ∀ s e, P s e → Q s e) {s : σ} {es : List ε} (hP : Along step P s es) :
    Along step Q s es := by
  induction es generalizing s with
  | nil => trivial
  | cons e es ih =>
    refine ⟨h s e hP.1, ?_⟩
    intro s' hs'
    exact ih (hP.2 s' hs')

theorem of_forall {s : σ} {es : List ε} (h : ∀ e ∈ es, ∀ s, P s e) : Along step P s es := by
  induction es generalizing s with
  | nil => trivial
  | cons e es ih =>
    rw [List.forall_mem_cons] at h
    exact ⟨h.1 s, fun _ _ => ih h.2⟩

theorem and {s : σ} {es : List ε} (hP : Along step P s es) (hQ : Along step Q s es) :
    Along step (fun s e => P s e ∧ Q s e) s es := by
  induction es generalizing s with
  | nil => trivial
  | cons e es ih =>
    refine ⟨⟨hP.1, hQ.1⟩, ?_⟩
    intro s' hs'
    exact ih (hP.2 s' hs') (hQ.2 s' hs')

theorem of_exec {s t : σ} (es : List ε) {es' : List ε} {e : ε}
    (h : Along step P s (es ++ e :: es')) (hexec : exec step s es = some t) : P t e := by
  induction es generalizing s with
  | nil =>
    simp only [exec_nil, Option.some.injEq] at hexec
    rw [← hexec]
    exact h.1
  | cons e' es ih =>
    simp only [exec_cons, Option.bind_eq_some_iff] at hexec
    rcases hexec with ⟨s', hs', hexec⟩
    exact ih (h.2 s' hs') hexec

instance [∀ s e, Decidable (P s e)] : ∀ s es, Decidable (Along step P s es)
  | _, [] => isTrue trivial
  | s, e :: es =>
    have : ∀ s', Decidable (Along step P s' es) := fun s' => instDecidable s' es
    inferInstanceAs (Decidable (P s e ∧ ∀ s' ∈ step s e, Along step P s' es))

end Along

section Invariant

variable {Inv : σ → Prop} {Cond Good : σ → ε → Prop}

theorem exec_invariant (hstep : ∀ s e s', Inv s → step s e = some s' → Inv s') {s s' : σ}
    {es : List ε} (hs : Inv s) (hexec : exec step s es = some s') : Inv s' := by
  induction es generalizing s with
  | nil =>
    simp only [exec_nil, Option.some.injEq] at hexec
    exact hexec ▸ hs
  | cons e es ih =>
    simp only [exec_cons, Option.bind_eq_some_iff] at hexec
    rcases hexec with ⟨t, ht, hexec⟩
    exact ih (hstep s e t hs ht) hexec

theorem exec_of_along (hstep : ∀ s e s', Inv s → Cond s e → step s e = some s' → Inv s') {s s' : σ}
    {es : List ε} (hs : Inv s) (hcond : Along step Cond s es) (hexec : exec step s es = some s') :
    Inv s' := by
  induction es generalizing s with
  | nil =>
    simp only [exec_nil, Option.some.injEq] at hexec
    exact hexec ▸ hs
  | cons e es ih =>
    simp only [exec_cons, Option.bind_eq_some_iff] at hexec
    rcases hexec with ⟨t, ht, hexec⟩
    exact ih (hstep s e t hs hcond.1 ht) (hcond.2 t ht) hexec

theorem exec_history {P : σ → List ε → Prop}
    (hstep : ∀ s es e s', P s es → Cond s e → step s e = some s' → P s' (es ++ [e])) {s s' : σ}
    {past es : List ε} (hs : P s past) (hcond : Along step Cond s es)
    (hexec : exec step s es = some s') :
    P s' (past ++ es) := by
  induction es generalizing s past with
  | nil =>
    simp only [exec_nil, Option.some.injEq] at hexec
    rw [List.append_nil]
    exact hexec ▸ hs
  | cons e es ih =>
    simp only [exec_cons, Option.bind_eq_some_iff] at hexec
    rcases hexec with ⟨t, ht, hexec⟩
    rw [List.append_cons]
    exact ih (hstep s past e t hs hcond.1 ht) (hcond.2 t ht) hexec

theorem along_invariant (hstep : ∀ s e s', Inv s → Cond s e → step s e = some s' → Inv s')
    (hgood : ∀ s e, Inv s → Cond s e → Good s e) {s : σ} {es : List ε} (hs : Inv s)
    (hcond : Along step Cond s es) : Along step Good s es := by
  induction es generalizing s with
  | nil => trivial
  | cons e es ih =>
    refine ⟨hgood s e hs hcond.1, ?_⟩
    intro t ht
    exact ih (hstep s e t hs hcond.1 ht) (hcond.2 t ht)

theorem along_congr_of {Allowed : ε → Prop} {P Q : σ → ε → Prop}
    (hstep : ∀ s e s', Inv s → Allowed e → P s e → step s e = some s' → Inv s')
    (hiff : ∀ s e, Inv s → Allowed e → (P s e ↔ Q s e)) {s : σ} {es : List ε} (hs : Inv s)
    (hes : ∀ e ∈ es, Allowed e) : Along step P s es ↔ Along step Q s es := by
  induction es generalizing s with
  | nil => exact Iff.rfl
  | cons e es ih =>
    rw [List.forall_mem_cons] at hes
    simp only [Along]
    rw [← hiff s e hs hes.1]
    apply and_congr_right
    intro hP
    apply forall_congr'
    intro t
    apply imp_congr_right
    intro ht
    exact ih (hstep s e t hs hes.1 hP ht) hes.2

theorem along_congr {P Q : σ → ε → Prop} (hstep : ∀ s e s', Inv s → step s e = some s' → Inv s')
    (hiff : ∀ s e, Inv s → (P s e ↔ Q s e)) {s : σ} {es : List ε} (hs : Inv s) :
    Along step P s es ↔ Along step Q s es := by
  refine along_congr_of (fun s e s' hs (_ : True) _ => hstep s e s' hs) ?_ hs fun _ _ => trivial
  intro s e hs _
  exact hiff s e hs

/--
If an allowed step is always possible, and keeps the invariant exactly when it meets the condition,
then all states of a run have the invariant exactly when all its steps meet the condition.
-/
theorem along_iff_reached {Allowed : ε → Prop}
    (hstep : ∀ s e, Inv s → Allowed e → ∃ s', step s e = some s' ∧ (Cond s e ↔ Inv s'))
    {s : σ} {es : List ε} (hs : Inv s) (hes : ∀ e ∈ es, Allowed e) :
    Along step Cond s es ↔ ∀ pre, pre <+: es → ∃ s', exec step s pre = some s' ∧ Inv s' := by
  induction es generalizing s with
  | nil =>
    simp only [Along, List.prefix_nil, true_iff]
    rintro pre rfl
    exact ⟨s, rfl, hs⟩
  | cons e es ih =>
    rcases hstep s e hs (hes e List.mem_cons_self) with ⟨t, ht, hiff⟩
    have hrest : ∀ e ∈ es, Allowed e := fun e he => hes e (List.mem_cons_of_mem _ he)
    constructor
    . rintro ⟨hcond, halong⟩ pre hpre
      cases pre with
      | nil => exact ⟨s, rfl, hs⟩
      | cons e' pre =>
        rw [List.cons_prefix_cons] at hpre
        rcases hpre with ⟨rfl, hpre⟩
        simp only [exec_cons, ht, Option.bind_some]
        exact (ih (hiff.mp hcond) hrest).mp (halong t ht) pre hpre
    . intro hreached
      have hInv : Inv t := by
        have := hreached [e] (by simp)
        simpa [ht] using this
      refine ⟨hiff.mpr hInv, ?_⟩
      intro t' ht'
      rw [ht] at ht'
      simp only [Option.some.injEq] at ht'
      subst ht'
      apply (ih hInv hrest).mpr
      intro pre hpre
      have := hreached (e :: pre) (by simpa using hpre)
      simpa [ht] using this

/--
If every step keeps the invariant, and keeps `P` with it exactly when it meets the condition, then
all states that a run reaches have `P` exactly when all its steps meet the condition.
-/
theorem along_iff_of_step {P : σ → Prop} (hnone : ∀ s e, Inv s → step s e = none → Cond s e)
    (hstep : ∀ s e s', Inv s → P s → step s e = some s' → Inv s' ∧ (Cond s e ↔ P s')) {s : σ}
    {es : List ε} (hs : Inv s) (hP : P s) :
    Along step Cond s es ↔ ∀ pre, pre <+: es → ∀ s', exec step s pre = some s' → P s' := by
  constructor
  . rintro halong pre ⟨es', rfl⟩ s' hexec
    induction pre generalizing s with
    | nil =>
      simp only [exec_nil, Option.some.injEq] at hexec
      exact hexec ▸ hP
    | cons e pre ih =>
      simp only [exec_cons, Option.bind_eq_some_iff] at hexec
      rcases hexec with ⟨t, ht, hexec⟩
      have hnext := hstep s e t hs hP ht
      exact ih hnext.1 (hnext.2.mp halong.1) (halong.2 t ht) hexec
  . intro hreached
    induction es generalizing s with
    | nil => trivial
    | cons e es ih =>
      cases ht : step s e with
      | none =>
        refine ⟨hnone s e hs ht, ?_⟩
        intro t ht'
        simp [ht] at ht'
      | some t =>
        have hnext := hstep s e t hs hP ht
        have hPt : P t := hreached [e] (by simp) t (by simp [ht])
        refine ⟨hnext.2.mpr hPt, ?_⟩
        intro t' ht'
        rw [ht] at ht'
        cases ht'
        apply ih hnext.1 hPt
        intro pre hpre s' hexec
        apply hreached (e :: pre) (by simpa using hpre) s'
        simpa [ht] using hexec

end Invariant

section Observe

variable {record : σ → η → ε → η}

theorem exec_observe (step : σ → ε → Option σ) (record : σ → η → ε → η) (s : σ) (h : η)
    (es : List ε) :
    (exec (observe step record) (s, h) es).map Prod.fst = exec step s es := by
  induction es generalizing s h with
  | nil => simp
  | cons e es ih =>
    cases hstep : step s e with
    | none => simp [observe, hstep]
    | some s' => simp [observe, hstep, ih]

theorem observe_eq_some {s : σ × η} {e : ε} {s' : σ × η} :
    observe step record s e = some s' ↔ step s.1 e = some s'.1 ∧ s'.2 = record s.1 s.2 e := by
  rcases s' with ⟨t, h⟩
  simp only [observe, Option.map_eq_some_iff, Prod.mk.injEq]
  constructor
  . rintro ⟨t', ht', rfl, rfl⟩
    exact ⟨ht', rfl⟩
  . rintro ⟨ht, rfl⟩
    exact ⟨t, ht, rfl, rfl⟩

theorem exec_observe_snd {f : η → ε → η} {s : σ} {h : η} {es : List ε} {t : σ × η}
    (hexec : exec (observe step (fun _ => f)) (s, h) es = some t) : t.2 = es.foldl f h := by
  induction es generalizing s h with
  | nil =>
    simp only [exec_nil, Option.some.injEq] at hexec
    simp [← hexec]
  | cons e es ih =>
    simp only [exec_cons, Option.bind_eq_some_iff] at hexec
    rcases hexec with ⟨⟨s', h'⟩, hstep, hexec⟩
    rw [observe_eq_some] at hstep
    rw [List.foldl_cons, ← hstep.2]
    exact ih hexec

theorem along_observe (record : σ → η → ε → η) {P : σ → ε → Prop} (s : σ) (h : η) (es : List ε) :
    Along (observe step record) (fun t e => P t.1 e) (s, h) es ↔ Along step P s es := by
  induction es generalizing s h with
  | nil => simp [Along]
  | cons e es ih =>
    simp only [Along]
    apply and_congr_right
    intro _
    constructor
    . intro halong s' hs'
      rw [← ih s' (record s h e)]
      apply halong
      rw [observe_eq_some]
      exact ⟨hs', rfl⟩
    . intro halong t ht
      rw [observe_eq_some] at ht
      rw [ih t.1 t.2]
      exact halong t.1 ht.1

end Observe

end Run
