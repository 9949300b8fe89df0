import Peerpaste.Dispatcher.Invariant
import Peerpaste.Registry.ConcurrentDeque
import Peerpaste.Run.Basic

/-!
This module contains what `clean` does to the message objects that are in `active_messages_`: it is
a run of the steps that the dispatcher takes with single objects.
-/

namespace Peerpaste

namespace MessageDispatcher

/--
The objects under their numbers. A crash ends the thread, so that nothing is done behind it.
-/
def pointee (expired : Nat → Option Nat → Bool) : Pointee Nat (Except Crash MessageDispatcher) where
  checkState i r := r.bind fun d =>
    match d.activeMessages i with
    | none => .ok d
    | some o => do
      let (node, o) ← o.checkState d.node (expired i)
      return { d with node := node }.set i o
  isDone i r :=
    match r with
    | .ok d => (d.activeMessages i).any (·.isDone)
    | .error _ => false
  release i r := r.bind fun d => (d.activeMessages i).elim (.ok d) (d.destroy i)

structure Lists (l : List Nat) (d : MessageDispatcher) : Prop where
  nodup : l.Nodup
  mem_iff : ∀ i, i ∈ l ↔ (d.activeMessages i).isSome

def cleanEvents (expired : Nat → Option Nat → Bool) (checked : List (Nat × Bool)) : List Event :=
  checked.flatMap fun c => if c.2 then [.checkState c.1 (expired c.1), .destroy c.1] else
    [.checkState c.1 (expired c.1)]

open ConcurrentDeque (checkAll checkAll_map_fst cleanFrom_checkAll mem_notDone_iff notDone)

section Object

variable (sha256 : String → String) (sha256' : List UInt8 → String)
  {expired : Nat → Option Nat → Bool}
  {d d' : MessageDispatcher} {i : Nat}

theorem next?_of_step {e : Event} (h : d.step sha256 sha256' e = some (.ok d')) :
    d.next? sha256 sha256' e = some d' := by
  simp [next?, h, Except.toOption]

theorem pointee_checkState (hobject : (d.activeMessages i).isSome)
    (h : (pointee expired).checkState i (.ok d) = .ok d') :
    d.next? sha256 sha256' (.checkState i (expired i)) = some d'
      ∧ ∀ j, (d'.activeMessages j).isSome = (d.activeMessages j).isSome := by
  rcases Option.isSome_iff_exists.mp hobject with ⟨o, ho⟩
  simp only [pointee, Except.bind, ho] at h
  refine ⟨next?_of_step _ _ (by simp only [step, ho, Option.map_some, h]), ?_⟩
  intro j
  cases hcheck : o.checkState d.node (expired i) with
  | error crash =>
    rw [hcheck] at h
    cases h
  | ok r =>
    rw [hcheck] at h
    cases h
    simp only [set, Function.update_apply]
    split
    . next hj => simp [hj, ho]
    . rfl

theorem pointee_release (hdone : (pointee expired).isDone i (.ok d) = true)
    (h : (pointee expired).release i (.ok d) = .ok d') :
    d.next? sha256 sha256' (.destroy i) = some d'
      ∧ ∀ j, (d'.activeMessages j).isSome = true ↔ (d.activeMessages j).isSome = true ∧ j ≠ i := by
  simp only [pointee, Option.any_eq_true] at hdone
  rcases hdone with ⟨o, ho, hdone⟩
  simp only [pointee, Except.bind, ho, Option.elim_some] at h
  refine ⟨next?_of_step _ _ (by simp only [step, ho, Option.bind_some, hdone, if_true, h]), ?_⟩
  intro j
  rcases destroy_eq_ok h with ⟨storage, rfl⟩
  simp only [Function.update_apply]
  split
  . next hj => simp [hj]
  . next hj => simp [hj]

theorem checkAll_error (expired : Nat → Option Nat → Bool) (order : List Nat) (crash : Crash) :
    (checkAll (pointee expired) order (.error crash)).2 = .error crash := by
  induction order with
  | nil => rfl
  | cons i order ih => exact ih

end Object

section Clean

variable (sha256 : String → String) (sha256' : List UInt8 → String)
  {expired : Nat → Option Nat → Bool}
  {d d' d₁ : MessageDispatcher}

theorem cleanEvents_cons (expired : Nat → Option Nat → Bool) (c : Nat × Bool)
    (checked : List (Nat × Bool)) :
    cleanEvents expired (c :: checked) = cleanEvents expired [c]
      ++ cleanEvents expired checked := by
  simp [cleanEvents]

theorem cleanEvents_exec {i : Nat} {done : Bool} (hobject : (d.activeMessages i).isSome)
    (hcheck : (pointee expired).checkState i (.ok d) = .ok d₁)
    (hdone : (pointee expired).isDone i (.ok d₁) = done)
    (h : (if done then (pointee expired).release i (.ok d₁) else .ok d₁) = .ok d') :
    Run.exec (next? sha256 sha256') d (cleanEvents expired [(i, done)]) = some d'
      ∧ ∀ j, (d'.activeMessages j).isSome = true
        ↔ (d.activeMessages j).isSome = true ∧ (j, true) ≠ (i, done) := by
  rcases pointee_checkState sha256 sha256' hobject hcheck with ⟨hnext, hsame⟩
  cases done with
  | false =>
    cases h
    refine ⟨by simp [cleanEvents, hnext], ?_⟩
    intro j
    rw [hsame]
    simp
  | true =>
    rcases pointee_release sha256 sha256' hdone h with ⟨hnext', hgone⟩
    refine ⟨by simp [cleanEvents, hnext, hnext'], ?_⟩
    intro j
    rw [hgone, hsame]
    simp

theorem checkAll_exec {order : List Nat} (horder : order.Nodup)
    (hobjects : ∀ i ∈ order, (d.activeMessages i).isSome)
    (h : (checkAll (pointee expired) order (.ok d)).2 = .ok d') :
    Run.exec (next? sha256 sha256') d
      (cleanEvents expired (checkAll (pointee expired) order (.ok d)).1) = some d'
      ∧ ∀ j, (d'.activeMessages j).isSome = true
        ↔ (d.activeMessages j).isSome = true
          ∧ (j, true) ∉ (checkAll (pointee expired) order (.ok d)).1 := by
  induction order generalizing d with
  | nil =>
    cases h
    simp [checkAll, cleanEvents]
  | cons i order ih =>
    rw [List.nodup_cons] at horder
    rw [List.forall_mem_cons] at hobjects
    -- whoever crashes leaves nothing for the objects behind it
    have hcrash (crash : Crash) : (checkAll (pointee expired) order (.error crash)).2 ≠ .ok d' := by
      rw [checkAll_error]
      simp
    cases hcheck : (pointee expired).checkState i (.ok d) with
    | error crash =>
      rw [checkAll, hcheck] at h
      exact absurd h (hcrash crash)
    | ok d₁ =>
      simp only [checkAll, hcheck] at h ⊢
      generalize hdone : (pointee expired).isDone i (.ok d₁) = done at h ⊢
      cases hturn : (if done then (pointee expired).release i (.ok d₁) else .ok d₁) with
      | error crash =>
        rw [hturn] at h
        exact absurd h (hcrash crash)
      | ok d₂ =>
        rw [hturn] at h
        rcases cleanEvents_exec sha256 sha256' hobjects.1 hcheck hdone hturn with ⟨hexec₁, hleft₁⟩
        have hobjects₂ : ∀ j ∈ order, (d₂.activeMessages j).isSome := by
          intro j hj
          rw [hleft₁]
          refine ⟨hobjects.2 j hj, ?_⟩
          intro heq
          cases heq
          exact horder.1 hj
        rcases ih horder.2 hobjects₂ h with ⟨hexec, hleft⟩
        refine ⟨?_, ?_⟩
        . rw [cleanEvents_cons, Run.exec_append, hexec₁]
          exact hexec
        . intro j
          rw [hleft, hleft₁, List.mem_cons, not_or, and_assoc]

theorem clean_exec {l : List Nat} {deque : ConcurrentDeque Nat} (hlists : d.Lists l)
    (h : (ConcurrentDeque.ofList l).clean (pointee expired) (.ok d) = some (deque, .ok d')) :
    ∃ checked, (checked.map (·.1)).Perm l ∧ deque = .ofList (notDone checked)
      ∧ Run.exec (next? sha256 sha256') d (cleanEvents expired checked) = some d'
      ∧ d'.Lists (notDone checked) := by
  rcases cleanFrom_checkAll (pointee expired) [] l (.ok d) with ⟨order, hperm, hclean⟩
  have heq := hclean.symm.trans h
  rw [Option.some.injEq, Prod.mk.injEq] at heq
  have hobjects : ∀ i ∈ order, (d.activeMessages i).isSome := by
    intro i hi
    exact (hlists.mem_iff i).mp (hperm.mem_iff.mp hi)
  have hnodup := hperm.nodup_iff.mpr hlists.nodup
  rcases checkAll_exec sha256 sha256' hnodup hobjects heq.2 with ⟨hexec, hleft⟩
  have hfst := checkAll_map_fst (pointee expired) order (.ok d)
  generalize (checkAll (pointee expired) order (.ok d)).1 = checked at heq hexec hleft hfst
  subst hfst
  refine ⟨checked, hperm, heq.1.symm, hexec, List.Nodup.sublist (List.filter_sublist.map _) hnodup,
    ?_⟩
  intro i
  rw [mem_notDone_iff, hleft, ← hlists.mem_iff, ← hperm.mem_iff, List.mem_map]
  constructor
  . intro hkept
    refine ⟨⟨_, hkept, rfl⟩, ?_⟩
    -- no object is checked twice
    intro hgone
    cases List.inj_on_of_nodup_map hnodup hkept hgone rfl
  . rintro ⟨⟨⟨j, done⟩, hchecked, rfl⟩, hkept⟩
    cases done with
    | false => exact hchecked
    | true => exact absurd hchecked hkept

end Clean

end MessageDispatcher

end Peerpaste
