import Peerpaste.Dispatcher.Calls

/-!
This module contains what a notification or `check_state` leaves of an object and of what it depends
on.
-/

namespace Peerpaste

namespace ActiveObject

structure Proper (o : ActiveObject) (n : Nat) : Prop where
  message : o.toMessageObject.Proper
  dependency : ∀ dep ∈ o.dependencies, dep.Proper ∧ dep.Answered
  type : ∀ dep ∈ o.dependencies, dep.type ∈ o.type.dependencyTypes
  number : ∀ dep ∈ o.dependencies, dep.number < n
  join : o.type = .join → ∃ dep, o.dependencies = [dep]

inductive Proceeds (o : ActiveObject) (n : Nat) : ActiveObject → Nat → Prop where
  | kept : Proceeds o n o n
  | finished (state : MessageState) : Proceeds o n (o.finish state) n
  | started (dep : DependencyObject) (dependencies : List DependencyObject)
      (hsuffix : dependencies = o.dependencies ∨ dependencies = [])
      (hjoin : o.type = .join → dependencies = [])
      (htype : dep.type ∈ o.type.dependencyTypes) (hnumber : dep.number = n)
      (hstate : dep.state ≠ .done)
      (hdone : dep.isDone = false) (hpromise : dep.promise = none) (hfile : dep.type ≠ .getFile) :
    Proceeds o n { o with dependencies := dep :: dependencies } (n + 1)

variable {o o' : ActiveObject} {n n' k : Nat} {dep : DependencyObject} {m : MessageObject}

theorem Proper.mono (h : o.Proper n) (hle : n ≤ n') : o.Proper n' :=
  ⟨h.message, h.dependency, h.type, fun dep hdep =>
    Nat.lt_of_lt_of_le (h.number dep hdep) hle, h.join⟩

theorem Proper.withMessage (h : o.Proper n) (htype : m.type = o.type) (hm : m.Proper) :
    ({ o with toMessageObject := m } : ActiveObject).Proper n := by
  refine ⟨hm, h.dependency, ?_, h.number, ?_⟩
  . dsimp only
    rw [htype]
    exact h.type
  . dsimp only
    rw [htype]
    exact h.join

namespace Proceeds

theorem request (h : o.Proceeds n o' n') : o'.request = o.request := by
  cases h with
  | kept => rfl
  | finished => rfl
  | started => rfl

theorem type (h : o.Proceeds n o' n') : o'.type = o.type := by
  cases h with
  | kept => rfl
  | finished => rfl
  | started => rfl

theorem proper (h : o.Proceeds n o' n') (ho : o.Proper n) : o'.Proper n' := by
  cases h with
  | kept => exact ho
  | finished state => exact ⟨ho.message.finish state, ho.dependency, ho.type, ho.number, ho.join⟩
  | started dep dependencies hsuffix hjoin htype hnumber hstate hdone hpromise hfile =>
    have hmem : ∀ d ∈ dependencies, d ∈ o.dependencies := by
      intro d hd
      cases hsuffix with
      | inl heq => exact heq ▸ hd
      | inr hnil => simp [hnil] at hd
    refine ⟨⟨ho.message.promise, ho.message.getFile⟩, ?_, ?_, ?_, ?_⟩
    . intro d hd
      cases List.mem_cons.mp hd with
      | inl heq =>
        rw [heq]
        exact ⟨.of_promise hpromise hfile, .of_ne hstate⟩
      | inr hd => exact ho.dependency d (hmem d hd)
    . intro d hd
      cases List.mem_cons.mp hd with
      | inl heq => exact heq ▸ htype
      | inr hd => exact ho.type d (hmem d hd)
    . intro d hd
      cases List.mem_cons.mp hd with
      | inl heq =>
        rw [heq, hnumber]
        exact Nat.lt_succ_self n
      | inr hd => exact Nat.lt_succ_of_lt (ho.number d (hmem d hd))
    . intro hisJoin
      exact ⟨dep, by rw [hjoin hisJoin]⟩

theorem find? (h : o.Proceeds n o' n') (hk : k < n) (hfind : o'.find? k = some dep) : o.find? k =
    some dep := by
  cases h with
  | kept => exact hfind
  | finished => exact hfind
  | started first dependencies hsuffix _ _ hnumber =>
    unfold ActiveObject.find? at *
    rw [List.find?_cons_of_neg (by simp; omega)] at hfind
    cases hsuffix with
    | inl heq => rw [← heq]; exact hfind
    | inr hnil => simp [hnil] at hfind

end Proceeds

theorem find?_replace (o : ActiveObject) (k j : Nat) (m : MessageObject) :
    (o.replace k m).find? j =
      if j = k then (o.find? j).map fun d => { d with toMessageObject := m } else o.find? j := by
  unfold replace find?
  dsimp only
  induction o.dependencies with
  | nil => simp
  | cons d ds ih =>
    by_cases hnumber : d.number = j
    . by_cases hk : j = k
      . simp [hnumber, hk]
      . simp [hnumber, hk]
    . rw [List.map_cons, List.find?_cons_of_neg, List.find?_cons_of_neg]
      . exact ih
      . simpa using hnumber
      . split
        . simpa using hnumber
        . simpa using hnumber

theorem mem_of_find? (h : o.find? k = some dep) : dep ∈ o.dependencies ∧ dep.number = k := by
  unfold find? at h
  have hnumber := List.find?_some h
  exact ⟨List.mem_of_find?_eq_some h, by simpa using hnumber⟩

theorem Proper.replace (h : o.Proper n) (hfind : o.find? k = some dep) (htype : m.type = dep.type)
    (hproper : m.Proper) (hanswered : m.Answered) : (o.replace k m).Proper n := by
  have hmem : ∀ d' ∈ (o.replace k m).dependencies, ∃ d ∈ o.dependencies,
      d'.number = d.number ∧ (d' = d ∨ d'.toMessageObject = m) := by
    intro d' hd'
    rcases List.mem_map.mp hd' with ⟨d, hd, heq⟩
    refine ⟨d, hd, ?_⟩
    rw [← heq]
    split
    . exact ⟨rfl, .inr rfl⟩
    . exact ⟨rfl, .inl rfl⟩
  refine ⟨⟨h.message.promise, h.message.getFile⟩, ?_, ?_, ?_, ?_⟩
  . intro d' hd'
    rcases hmem d' hd' with ⟨d, hd, _, hsame | hreplaced⟩
    . exact hsame ▸ h.dependency d hd
    . exact hreplaced ▸ ⟨hproper, hanswered⟩
  . intro d' hd'
    rcases hmem d' hd' with ⟨d, hd, _, hsame | hreplaced⟩
    . exact hsame ▸ h.type d hd
    . rw [hreplaced, htype]
      exact h.type dep (mem_of_find? hfind).1
  . intro d' hd'
    rcases hmem d' hd' with ⟨d, hd, hnumber, _⟩
    exact hnumber ▸ h.number d hd
  . intro hjoin
    rcases h.join hjoin with ⟨d, hd⟩
    unfold ActiveObject.replace
    rw [hd]
    exact ⟨_, rfl⟩

structure ChecksDependency (d d' : DependencyObject) : Prop where
  number : d'.number = d.number
  checks : MessageObject.Checks d.toMessageObject d'.toMessageObject

theorem ChecksDependency.refl (d : DependencyObject) : ChecksDependency d d :=
  ⟨rfl, ⟨rfl, rfl, id, id, fun _ => rfl⟩⟩

theorem checkDependencies_forall₂ {node node' : Node} {expired : Nat → Bool} {failed : Bool}
    {ds ds' : List DependencyObject}
    (h : checkDependencies node expired ds = .ok (node', ds', failed)) :
    List.Forall₂ ChecksDependency ds ds'
      ∧ (node.routingTable.IsComplete → node'.routingTable.IsComplete) := by
  induction ds generalizing node ds' with
  | nil =>
    cases h
    exact ⟨.nil, id⟩
  | cons d ds ih =>
    simp only [checkDependencies, bind, Except.bind, pure, Except.pure] at h
    split at h
    . cases h
    . next checked hcheck =>
      have hchecks := MessageObject.checkState_checks hcheck
      split at h
      . cases h
        refine ⟨.cons ⟨rfl, hchecks.1⟩ ?_, hchecks.2⟩
        exact List.forall₂_same.mpr fun d _ => .refl d
      . split at h
        . cases h
        . next rest hrest =>
          cases h
          have hih := ih hrest
          exact ⟨.cons ⟨rfl, hchecks.1⟩ hih.1, fun htable => hih.2 (hchecks.2 htable)⟩

theorem checkDependencies_of_proper (node : Node) (expired : Nat → Bool)
    (ds : List DependencyObject) (h : ∀ dep ∈ ds, dep.Proper) :
    ∃ r, checkDependencies node expired ds = .ok r := by
  induction ds generalizing node with
  | nil => exact ⟨_, rfl⟩
  | cons d ds ih =>
    rcases MessageObject.checkState_of_proper node 0 (expired d.number) (h d List.mem_cons_self)
      with ⟨node', o', hcheck⟩
    rcases ih node' (fun dep hdep => h dep (List.mem_cons_of_mem d hdep)) with ⟨r, hr⟩
    simp only [checkDependencies, hcheck, hr, bind, Except.bind, pure, Except.pure]
    split
    . exact ⟨_, rfl⟩
    . exact ⟨_, rfl⟩

structure Checks (o o' : ActiveObject) : Prop where
  type : o'.type = o.type
  request : o'.request = o.request
  message : o.toMessageObject.Proper → o'.toMessageObject.Proper
  dependencies : List.Forall₂ ChecksDependency o.dependencies o'.dependencies
  done : o.isDone = true → o' = o

theorem checkState_checks {node node' : Node} {expired : Option Nat → Bool}
    (h : o.checkState node expired = .ok (node', o')) :
    Checks o o' ∧ (node.routingTable.IsComplete → node'.routingTable.IsComplete) := by
  have hsame : List.Forall₂ ChecksDependency o.dependencies o.dependencies :=
    List.forall₂_same.mpr fun d _ => .refl d
  unfold checkState at h
  split at h
  . cases h
    exact ⟨⟨rfl, rfl, id, hsame, fun _ => rfl⟩, id⟩
  . next hdone =>
    split at h
    . simp only [bind, Except.bind, pure, Except.pure] at h
      split at h
      . cases h
      . next failed hfailed =>
        cases h
        have hfails := MessageObject.handleFailed_fails hfailed
        exact ⟨⟨hfails.type, hfails.request, fun ho =>
          hfails.proper_of_isDone rfl (ho.finish .timedOut), hsame,
          fun hisDone => absurd hisDone hdone⟩, hfails.table⟩
    . simp only [bind, Except.bind, pure, Except.pure] at h
      split at h
      . cases h
      . next checked hchecked =>
        have hdependencies := checkDependencies_forall₂ hchecked
        split at h
        . split at h
          . cases h
          . next failed hfailed =>
            cases h
            have hfails := MessageObject.handleFailed_fails hfailed
            exact ⟨⟨hfails.type, hfails.request, hfails.proper, hdependencies.1,
              fun hisDone => absurd hisDone hdone⟩, fun htable =>
                hfails.table (hdependencies.2 htable)⟩
        . cases h
          exact ⟨⟨rfl, rfl, id, hdependencies.1, fun hisDone => absurd hisDone hdone⟩,
            hdependencies.2⟩

theorem checkState_of_proper (node : Node) (expired : Option Nat → Bool) (h : o.Proper n) :
    ∃ r, o.checkState node expired = .ok r := by
  unfold checkState
  split
  . exact ⟨_, rfl⟩
  . next hdone =>
    have hpromise := h.message.promise_eq_none (by simpa using hdone)
    split
    . rcases MessageObject.handleFailed_of_promise node o.dependencies.length
        (o := o.toMessageObject.finish .timedOut) hpromise with ⟨node', o', hfailed⟩
      simp only [hfailed, bind, Except.bind]
      exact ⟨_, rfl⟩
    . rcases checkDependencies_of_proper node (expired ∘ some) o.dependencies
        (fun dep hdep => (h.dependency dep hdep).1) with ⟨⟨node', dependencies, failed⟩, hchecked⟩
      simp only [hchecked, bind, Except.bind]
      split
      . rcases MessageObject.handleFailed_of_promise node' dependencies.length
          (o := o.toMessageObject) hpromise with ⟨node'', o', hfailed⟩
        simp only [hfailed]
        exact ⟨_, rfl⟩
      . exact ⟨_, rfl⟩

theorem exists_of_mem_checked {ds ds' : List DependencyObject} {d' : DependencyObject}
    (h : List.Forall₂ ChecksDependency ds ds') (hd' : d' ∈ ds') :
    ∃ d ∈ ds, ChecksDependency d d' := by
  induction h with
  | nil => cases hd'
  | cons hfirst _ ih =>
    cases List.mem_cons.mp hd' with
    | inl heq => exact ⟨_, List.mem_cons_self, heq ▸ hfirst⟩
    | inr hd' =>
      rcases ih hd' with ⟨d, hd, hchecks⟩
      exact ⟨d, List.mem_cons_of_mem _ hd, hchecks⟩

theorem Checks.proper (h : Checks o o') (ho : o.Proper n) : o'.Proper n := by
  refine ⟨h.message ho.message, ?_, ?_, ?_, ?_⟩
  . intro d' hd'
    rcases exists_of_mem_checked h.dependencies hd' with ⟨d, hd, hchecks⟩
    have hdependency := ho.dependency d hd
    exact ⟨hchecks.checks.proper hdependency.1, hchecks.checks.answered hdependency.2⟩
  . intro d' hd'
    rcases exists_of_mem_checked h.dependencies hd' with ⟨d, hd, hchecks⟩
    rw [hchecks.checks.type, h.type]
    exact ho.type d hd
  . intro d' hd'
    rcases exists_of_mem_checked h.dependencies hd' with ⟨d, hd, hchecks⟩
    rw [hchecks.number]
    exact ho.number d hd
  . intro hjoin
    rw [h.type] at hjoin
    rcases ho.join hjoin with ⟨dep, hdep⟩
    have hdependencies := h.dependencies
    rw [hdep, List.forall₂_cons_left_iff] at hdependencies
    rcases hdependencies with ⟨dep', ds', _, hnil, heq⟩
    rw [List.forall₂_nil_left_iff] at hnil
    exact ⟨dep', by rw [heq, hnil]⟩

theorem find?_checked {ds ds' : List DependencyObject} (h : List.Forall₂ ChecksDependency ds ds')
    (k : Nat) :
    Option.Rel ChecksDependency (ds.find? (·.number == k)) (ds'.find? (·.number == k)) := by
  induction h with
  | nil => exact .none
  | @cons d d' ds ds' hfirst _ ih =>
    simp only [List.find?_cons, hfirst.number]
    split
    . exact .some hfirst
    . exact ih

end ActiveObject

end Peerpaste
