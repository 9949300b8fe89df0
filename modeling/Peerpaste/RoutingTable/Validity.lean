import Peerpaste.RoutingTable.Invariant

/-!
This module contains the flags that a routing table keeps beside its peers, by which it tells
whether it is valid, and when they tell the truth.
-/

namespace Peerpaste

structure ConcurrentRoutingTable (T : Type) extends RoutingTable T where
  selfIsSet : Bool
  predecessorIsSet : Bool
  successorIsSet : Bool
  deriving DecidableEq, Repr

namespace ConcurrentRoutingTable

variable {T : Type}

/--
The constructor does not initialise the flags, which are whatever was in their memory before.
-/
def construct (selfIsSet predecessorIsSet successorIsSet : Bool) : ConcurrentRoutingTable T where
  selfIsSet := selfIsSet
  predecessorIsSet := predecessorIsSet
  successorIsSet := successorIsSet

def withTable (t : ConcurrentRoutingTable T) (rt : RoutingTable T) : ConcurrentRoutingTable T :=
  { t with toRoutingTable := rt }

def tryGetSelf (t : ConcurrentRoutingTable T) : ConcurrentRoutingTable T × Option T :=
  match t.self with
  | none => ({ t with selfIsSet := false }, none)
  | some self => (t, some self)

def setSelf (t : ConcurrentRoutingTable T) (self : T) : ConcurrentRoutingTable T :=
  { t.withTable (t.toRoutingTable.setSelf self) with selfIsSet := true }

def tryGetPredecessor (t : ConcurrentRoutingTable T) : ConcurrentRoutingTable T × Option T :=
  match t.predecessor with
  | none => ({ t with predecessorIsSet := false }, none)
  | some predecessor => (t, some predecessor)

def setPredecessor (t : ConcurrentRoutingTable T) (predecessor : T) : ConcurrentRoutingTable T :=
  { t.withTable (t.toRoutingTable.setPredecessor predecessor) with predecessorIsSet := true }

def resetPredecessor (t : ConcurrentRoutingTable T) : ConcurrentRoutingTable T :=
  t.withTable t.toRoutingTable.resetPredecessor

def tryGetSuccessor (t : ConcurrentRoutingTable T) : ConcurrentRoutingTable T × Option T :=
  match t.successorList with
  | [] => ({ t with successorIsSet := false }, none)
  | successor :: _ => (t, some successor)

def setSuccessor (t : ConcurrentRoutingTable T) (successor : T) : ConcurrentRoutingTable T :=
  { t.withTable (t.toRoutingTable.setSuccessor successor) with successorIsSet := true }

def replaceSuccessorList [Inhabited T] (t : ConcurrentRoutingTable T) (newSuccList : List T) :
    ConcurrentRoutingTable T :=
  t.withTable (t.toRoutingTable.replaceSuccessorList newSuccList)

def replaceAfterSuccessor [Inhabited T] (t : ConcurrentRoutingTable T) (newSuccList : List T) :
    Option (ConcurrentRoutingTable T) :=
  (t.toRoutingTable.replaceAfterSuccessor newSuccList).map t.withTable

def popFront (t : ConcurrentRoutingTable T) : ConcurrentRoutingTable T :=
  t.withTable t.toRoutingTable.popFront

def isValid (t : ConcurrentRoutingTable T) : Bool :=
  t.selfIsSet && t.predecessorIsSet && t.successorIsSet

inductive Call (T : Type) where
  | tryGetSelf
  | setSelf (self : T)
  | tryGetPredecessor
  | setPredecessor (predecessor : T)
  | resetPredecessor
  | tryGetSuccessor
  | setSuccessor (successor : T)
  | replaceSuccessorList (newSuccList : List T)
  | replaceAfterSuccessor (newSuccList : List T)
  | popFront
  deriving DecidableEq, Repr

def call [Inhabited T] (t : ConcurrentRoutingTable T) : Call T → Option (ConcurrentRoutingTable T)
  | .tryGetSelf => some t.tryGetSelf.1
  | .setSelf self => some (t.setSelf self)
  | .tryGetPredecessor => some t.tryGetPredecessor.1
  | .setPredecessor predecessor => some (t.setPredecessor predecessor)
  | .resetPredecessor => some t.resetPredecessor
  | .tryGetSuccessor => some t.tryGetSuccessor.1
  | .setSuccessor successor => some (t.setSuccessor successor)
  | .replaceSuccessorList newSuccList => some (t.replaceSuccessorList newSuccList)
  | .replaceAfterSuccessor newSuccList => t.replaceAfterSuccessor newSuccList
  | .popFront => some t.popFront

def IsComplete (t : ConcurrentRoutingTable T) : Prop :=
  t.self.isSome ∧ t.predecessor.isSome ∧ t.successorList ≠ []

def TellsValidity (t : ConcurrentRoutingTable T) : Prop :=
  t.isValid = true ↔ t.IsComplete

/--
Whoever sets one of the three parts finds the flags of the other two both set exactly if both parts
are there. The predecessor of a complete table is not reset, and the whole successor list is not
replaced as the last part that was missing.
-/
def FlagsFit (t : ConcurrentRoutingTable T) : Call T → Prop
  | .setSelf _ =>
    t.predecessorIsSet ∧ t.successorIsSet ↔ t.predecessor.isSome ∧ t.successorList ≠ []
  | .setPredecessor _ => t.selfIsSet ∧ t.successorIsSet ↔ t.self.isSome ∧ t.successorList ≠ []
  | .setSuccessor _ => t.selfIsSet ∧ t.predecessorIsSet ↔ t.self.isSome ∧ t.predecessor.isSome
  | .resetPredecessor => ¬ t.IsComplete
  | .replaceSuccessorList _ => t.successorList = [] → ¬ (t.self.isSome ∧ t.predecessor.isSome)
  | _ => True

section Step

variable {t t' : ConcurrentRoutingTable T}

theorem construct_tellsValidity_iff (selfIsSet predecessorIsSet successorIsSet : Bool) :
    TellsValidity (construct (T := T) selfIsSet predecessorIsSet successorIsSet)
      ↔
    ¬ (selfIsSet ∧ predecessorIsSet ∧ successorIsSet) := by
  simp [TellsValidity, IsComplete, isValid, construct]

structure SameParts (rt rt' : RoutingTable T) : Prop where
  self : rt'.self = rt.self
  predecessor : rt'.predecessor = rt.predecessor
  successorList : rt'.successorList = [] ↔ rt.successorList = []

theorem popFront_sameParts (rt : RoutingTable T) : SameParts rt rt.popFront := by
  unfold RoutingTable.popFront
  split
  . exact ⟨rfl, rfl, Iff.rfl⟩
  . next hlength =>
    refine ⟨rfl, rfl, ?_⟩
    rw [← List.length_eq_zero_iff, ← List.length_eq_zero_iff, List.length_tail]
    omega

theorem replaceAfterSuccessor_sameParts [Inhabited T] {rt rt' : RoutingTable T}
    {newSuccList : List T} (h : rt.replaceAfterSuccessor newSuccList = some rt') :
    SameParts rt rt' := by
  unfold RoutingTable.replaceAfterSuccessor at h
  split at h
  . cases h
  . next heq =>
    cases h
    refine ⟨rfl, rfl, ?_⟩
    simp [heq, RoutingTable.resize_ne_nil]

theorem SameParts.tellsValidity {rt : RoutingTable T} (h : SameParts t.toRoutingTable rt)
    (hvalid : t.TellsValidity) : (t.withTable rt).TellsValidity := by
  simpa [TellsValidity, IsComplete, isValid, withTable, h.self, h.predecessor, h.successorList]
    using hvalid

theorem setSuccessor_parts (rt : RoutingTable T) (successor : T) :
    (rt.setSuccessor successor).self = rt.self
      ∧ (rt.setSuccessor successor).predecessor = rt.predecessor
      ∧ (rt.setSuccessor successor).successorList ≠ [] := by
  unfold RoutingTable.setSuccessor
  split
  . simp
  . simp

theorem resetPredecessor_tellsValidity_iff (t : ConcurrentRoutingTable T) :
    t.resetPredecessor.TellsValidity ↔ ¬ t.isValid = true := by
  -- the flag stays as it is and the predecessor goes
  have hafter : ¬ t.resetPredecessor.IsComplete := by
    intro h
    cases h.2.1
  unfold TellsValidity
  simp only [hafter, iff_false]
  rfl

theorem replaceSuccessorList_tellsValidity_iff [Inhabited T] (hvalid : t.TellsValidity)
    (newSuccList : List T) :
    (t.replaceSuccessorList newSuccList).TellsValidity
      ↔
    (t.successorList = [] → ¬ (t.self.isSome ∧ t.predecessor.isSome)) := by
  have hlist : (t.replaceSuccessorList newSuccList).successorList ≠ [] :=
    RoutingTable.resize_ne_nil newSuccList
  have hcomplete : (t.replaceSuccessorList newSuccList).IsComplete
      ↔ t.self.isSome ∧ t.predecessor.isSome :=
    ⟨fun h => ⟨h.1, h.2.1⟩, fun h => ⟨h.1, h.2, hlist⟩⟩
  have hisValid : (t.replaceSuccessorList newSuccList).isValid = t.isValid := rfl
  unfold TellsValidity at hvalid ⊢
  rw [hcomplete, hisValid, hvalid]
  constructor
  . intro h hnil hparts
    exact (h.mpr hparts).2.2 hnil
  . intro hfit
    refine ⟨fun h => ⟨h.1, h.2.1⟩, fun h => ⟨h.1, h.2, ?_⟩⟩
    intro hnil
    exact hfit hnil h

variable [Inhabited T]

theorem call_tellsValidity {c : Call T} (hvalid : t.TellsValidity) (hcall : t.call c = some t') :
    t.FlagsFit c ↔ t'.TellsValidity := by
  have hunchanged {u : ConcurrentRoutingTable T} (hfit : t.FlagsFit c) (h : u.TellsValidity) :
      t.FlagsFit c ↔ u.TellsValidity :=
    ⟨fun _ => h, fun _ => hfit⟩
  cases c with
  | tryGetSelf =>
    simp only [call, tryGetSelf, Option.some.injEq] at hcall
    split at hcall
    . next hnone =>
      subst hcall
      simp [FlagsFit, TellsValidity, IsComplete, isValid, hnone]
    . subst hcall
      exact hunchanged trivial hvalid
  | setSelf self =>
    simp only [call, Option.some.injEq] at hcall
    subst hcall
    simp [FlagsFit, TellsValidity, IsComplete, isValid, setSelf, withTable, RoutingTable.setSelf]
  | tryGetPredecessor =>
    simp only [call, tryGetPredecessor, Option.some.injEq] at hcall
    split at hcall
    . next hnone =>
      subst hcall
      simp [FlagsFit, TellsValidity, IsComplete, isValid, hnone]
    . subst hcall
      exact hunchanged trivial hvalid
  | setPredecessor predecessor =>
    simp only [call, Option.some.injEq] at hcall
    subst hcall
    simp [FlagsFit, TellsValidity, IsComplete, isValid, setPredecessor, withTable,
      RoutingTable.setPredecessor]
  | resetPredecessor =>
    simp only [call, Option.some.injEq] at hcall
    subst hcall
    rw [resetPredecessor_tellsValidity_iff, show t.isValid = true ↔ t.IsComplete from hvalid]
    rfl
  | tryGetSuccessor =>
    simp only [call, tryGetSuccessor, Option.some.injEq] at hcall
    split at hcall
    . next hnil =>
      subst hcall
      simp [FlagsFit, TellsValidity, IsComplete, isValid, hnil]
    . subst hcall
      exact hunchanged trivial hvalid
  | setSuccessor successor =>
    simp only [call, Option.some.injEq] at hcall
    subst hcall
    rcases setSuccessor_parts t.toRoutingTable successor with ⟨hself, hpredecessor, hlist⟩
    simp [FlagsFit, TellsValidity, IsComplete, isValid, setSuccessor, withTable, hself,
      hpredecessor, hlist]
  | replaceSuccessorList newSuccList =>
    simp only [call, Option.some.injEq] at hcall
    subst hcall
    rw [replaceSuccessorList_tellsValidity_iff hvalid]
    rfl
  | replaceAfterSuccessor newSuccList =>
    rcases Option.map_eq_some_iff.mp hcall with ⟨rt, hreplace, rfl⟩
    exact hunchanged trivial ((replaceAfterSuccessor_sameParts hreplace).tellsValidity hvalid)
  | popFront =>
    simp only [call, Option.some.injEq] at hcall
    subst hcall
    exact hunchanged trivial ((popFront_sameParts _).tellsValidity hvalid)

theorem flagsFit_of_call_none {c : Call T} (hcall : t.call c = none) : t.FlagsFit c := by
  cases c with
  | replaceAfterSuccessor newSuccList => trivial
  | _ => cases hcall

theorem along_flagsFit_iff (hvalid : t.TellsValidity) (calls : List (Call T)) :
    Run.Along call FlagsFit t calls
      ↔
    ∀ pre, pre <+: calls → ∀ t', Run.exec call t pre = some t' → t'.TellsValidity := by
  refine Run.along_iff_of_step (fun t c (_ : True) hnone => flagsFit_of_call_none hnone) ?_
    trivial hvalid
  intro t c t' _ hvalid hcall
  exact ⟨trivial, call_tellsValidity hvalid hcall⟩

end Step

theorem tellsValidity_iff_flagsFit [Inhabited T] (selfIsSet predecessorIsSet successorIsSet : Bool)
    (calls : List (Call T)) :
    (∀ pre, pre <+: calls → ∀ t,
      Run.exec call (construct selfIsSet predecessorIsSet successorIsSet) pre = some t →
      t.TellsValidity)
      ↔
    ¬ (selfIsSet ∧ predecessorIsSet ∧ successorIsSet)
      ∧ Run.Along call FlagsFit (construct selfIsSet predecessorIsSet successorIsSet) calls := by
  rw [← construct_tellsValidity_iff (T := T)]
  constructor
  . intro h
    have hinit := h [] List.nil_prefix _ rfl
    exact ⟨hinit, (along_flagsFit_iff hinit calls).mpr h⟩
  . intro h
    exact (along_flagsFit_iff h.1 calls).mp h.2

/--
A table whose predecessor was reset goes on being valid.
-/
theorem not_tellsValidity_ofReset :
    let peer : Peer := ⟨"123ABC", "10.0.0.1", "1337"⟩
    let calls := [Call.setSelf peer, .setPredecessor peer, .setSuccessor peer, .resetPredecessor]
    ¬ ∀ pre, pre <+: calls → ∀ t,
      Run.exec call (construct false false false) pre = some t → t.TellsValidity := by
  intro peer calls h
  have hreset := h calls List.prefix_rfl _ rfl
  have hcomplete := (show _ ↔ _ from hreset).mp rfl
  cases hcomplete.2.1

end ConcurrentRoutingTable

end Peerpaste
