import Peerpaste.Locks.Join

/-!
This module contains the orders in which the two threads take mutexes, whatever they come across.
-/

namespace Peerpaste

namespace JoinLocks

open Locks

namespace Shared

def parent? (s : Shared) (n : Nat) : Option (Option Nat) :=
  (s.objects n).map (·.parent)

def IsTop (s : Shared) (i : Nat) : Prop :=
  s.parent? i = some none

def IsChild (s : Shared) (k i : Nat) : Prop :=
  s.parent? k = some (some i) ∧ s.IsTop i

structure Valid (s : Shared) : Prop where
  lt_next : ∀ n, s.parent? n ≠ none → n < s.next
  top : ∀ k i, s.parent? k = some (some i) → s.IsTop i
  child : ∀ i o, s.objects i = some o → ∀ k ∈ o.dependencies, s.parent? k = some (some i)
  leaf : ∀ k o, s.objects k = some o → o.parent ≠ none → o.dependencies = []
  active : ∀ n ∈ s.activeMessages, s.IsTop n

def Extends (s s' : Shared) : Prop :=
  ∀ n p, s.parent? n = some p → s'.parent? n = some p

end Shared

inductive MayLock (s : Shared) : ThreadName → List Mutex → Mutex → Prop where
  | clean : MayLock s .chord [] .activeMessages
  | checkJoin {i : Nat} (hi : s.IsTop i) : MayLock s .chord [.activeMessages] (.message i)
  | checkDependency {i k : Nat} (hk : s.IsChild k i) :
    MayLock s .chord [.message i, .activeMessages] (.message k)
  | handleResponse {i k : Nat} (hk : s.IsChild k i) : MayLock s .dispatcher [] (.message k)
  | handleNotification {i k : Nat} (hk : s.IsChild k i) :
      MayLock s .dispatcher [.message k] (.message i)
  | createRequest {i j k : Nat} (hj : s.IsChild j i) (hlt : k < j) :
    MayLock s .dispatcher [.message i, .message k] (.message j)
  | moment {held : List Mutex} {m : Mutex} (hheld : ∀ m ∈ held, ∃ n, m = .message n)
      (hm : m = .routingTable ∨ m = .activeHandlers ∨ m = .sendQueue) : MayLock s .dispatcher held m

inductive MayCall (s : Shared) : ThreadName → List Mutex → Call → Prop where
  | clean : MayCall s .chord [.activeMessages] .clean
  | cleanFrom (it : Nat) : MayCall s .chord [.activeMessages] (.cleanFrom it)
  | cleaned (it : Nat) : MayCall s .chord [.activeMessages] (.cleaned it)
  | checkJoin {i : Nat} (hi : s.IsTop i) :
      MayCall s .chord [.message i, .activeMessages] (.checkState i)
  | checkDependency {i k : Nat} (hk : s.IsChild k i) :
    MayCall s .chord [.message k, .message i, .activeMessages] (.checkState k)
  | anyOfJoin {i : Nat} {dependencies : List Nat} (hi : s.IsTop i)
      (hk : ∀ k ∈ dependencies, s.IsChild k i) :
    MayCall s .chord [.message i, .activeMessages] (.anyOf i dependencies)
  | anyOfDependency {i k : Nat} (hk : s.IsChild k i) :
    MayCall s .chord [.message k, .message i, .activeMessages] (.anyOf k [])
  | alreadyTimedOut {i : Nat} {dependencies : List Nat} (hi : s.IsTop i)
      (hk : ∀ k ∈ dependencies, s.IsChild k i) :
    MayCall s .chord [.message i, .activeMessages] (.alreadyTimedOut i dependencies)
  | getAndEraseIf (k : Nat) : MayCall s .dispatcher [.activeHandlers] (.getAndEraseIf k)
  | lockParent (k : Nat) : MayCall s .dispatcher [] (.lockParent k)
  | handleResponse {i k : Nat} (hk : s.IsChild k i) :
      MayCall s .dispatcher [.message k] (.handleResponse k)
  | destroyDependency {i k : Nat} (hk : s.IsChild k i) :
    MayCall s .dispatcher [.message k] (.requestDestruction k)
  | handleNotification {i k : Nat} (hk : s.IsChild k i) :
    MayCall s .dispatcher [.message i, .message k] (.handleNotification i)
  | destroyJoin {i k : Nat} (hk : s.IsChild k i) :
    MayCall s .dispatcher [.message i, .message k] (.requestDestruction i)
  | createRequest {held : List Mutex} (hheld : ∀ m ∈ held, ∃ n, m = .message n) (j : Nat) :
    MayCall s .dispatcher held (.createRequest j)
  | insert (held : List Mutex) (j : Nat) : MayCall s .dispatcher held (.insert j)

def discipline : Discipline Shared ThreadName Mutex Call where
  mayLock := MayLock
  mayCall := MayCall

variable {s s' : Shared} {t : ThreadName} {held : List Mutex} {m : Mutex} {c : Call} {i k n : Nat}

theorem Shared.Extends.isTop (h : s.Extends s') (hi : s.IsTop i) : s'.IsTop i :=
  h i none hi

theorem Shared.Extends.isChild (h : s.Extends s') (hk : s.IsChild k i) : s'.IsChild k i :=
  ⟨h k (some i) hk.1, h.isTop hk.2⟩

theorem MayLock.mono (h : s.Extends s') (hmay : MayLock s t held m) : MayLock s' t held m := by
  cases hmay with
  | clean => exact .clean
  | checkJoin hi => exact .checkJoin (h.isTop hi)
  | checkDependency hk => exact .checkDependency (h.isChild hk)
  | handleResponse hk => exact .handleResponse (h.isChild hk)
  | handleNotification hk => exact .handleNotification (h.isChild hk)
  | createRequest hj hlt => exact .createRequest (h.isChild hj) hlt
  | moment hheld hm => exact .moment hheld hm

theorem MayCall.mono (h : s.Extends s') (hmay : MayCall s t held c) : MayCall s' t held c := by
  cases hmay with
  | clean => exact .clean
  | cleanFrom it => exact .cleanFrom it
  | cleaned it => exact .cleaned it
  | checkJoin hi => exact .checkJoin (h.isTop hi)
  | checkDependency hk => exact .checkDependency (h.isChild hk)
  | anyOfJoin hi hk => exact .anyOfJoin (h.isTop hi) fun k hmem => h.isChild (hk k hmem)
  | anyOfDependency hk => exact .anyOfDependency (h.isChild hk)
  | alreadyTimedOut hi hk => exact .alreadyTimedOut (h.isTop hi) fun k hmem => h.isChild (hk k hmem)
  | getAndEraseIf k => exact .getAndEraseIf k
  | lockParent k => exact .lockParent k
  | handleResponse hk => exact .handleResponse (h.isChild hk)
  | destroyDependency hk => exact .destroyDependency (h.isChild hk)
  | handleNotification hk => exact .handleNotification (h.isChild hk)
  | destroyJoin hk => exact .destroyJoin (h.isChild hk)
  | createRequest hheld j => exact .createRequest hheld j
  | insert held j => exact .insert held j

theorem MayLock.not_mem (hmay : MayLock s t held m) : m ∉ held := by
  have hne : ∀ {k i}, s.IsChild k i → k ≠ i := by
    intro k i hk heq
    have hparent := hk.1
    rw [heq, hk.2] at hparent
    cases hparent
  cases hmay with
  | clean => simp
  | checkJoin hi => simp
  | checkDependency hk => simpa using hne hk
  | handleResponse hk => simp
  | handleNotification hk => simpa using (hne hk).symm
  | createRequest hj hlt =>
    have hij := hne hj
    simp only [List.mem_cons, Mutex.message.injEq, List.not_mem_nil, or_false, not_or]
    omega
  | moment hheld hm =>
    intro hmem
    rcases hheld m hmem with ⟨n, hn⟩
    simp [hn] at hm

@[simp]
theorem Object.handleFailed_parent (o : Object) : o.handleFailed.parent = o.parent := by
  unfold handleFailed
  split
  all_goals rfl

@[simp]
theorem Object.handleFailed_dependencies (o : Object) : o.handleFailed.dependencies =
    o.dependencies := by
  unfold handleFailed
  split
  all_goals rfl

namespace Shared

variable {f : Object → Object} {o : Object} {type : MessageType}

theorem Extends.refl (s : Shared) : s.Extends s :=
  fun _ _ h => h

theorem parent?_of_objects (ho : s.objects n = some o) : s.parent? n = some o.parent := by
  simp [parent?, ho]

theorem parent?_modify (hf : ∀ o, s.objects n = some o → (f o).parent = o.parent) (m : Nat) :
    (s.modify n f).parent? m = s.parent? m := by
  unfold parent? modify
  dsimp only
  rw [Function.update_apply]
  split
  . next hm =>
    rw [hm]
    cases ho : s.objects n with
    | none => rfl
    | some o => simp [hf o ho]
  . rfl

theorem modify_extends (hf : ∀ o, s.objects n = some o → (f o).parent = o.parent) :
    s.Extends (s.modify n f) := by
  intro m p hm
  rw [parent?_modify hf]
  exact hm

theorem objects_modify (ho : (s.modify n f).objects k = some o) :
    s.objects k = some o ∨ k = n ∧ ∃ o', s.objects n = some o' ∧ o = f o' := by
  unfold modify at ho
  dsimp only at ho
  rw [Function.update_apply] at ho
  split at ho
  . next hk =>
    rcases Option.map_eq_some_iff.mp ho with ⟨o', ho', heq⟩
    exact .inr ⟨hk, o', ho', heq.symm⟩
  . exact .inl ho

namespace Valid

theorem modify (h : s.Valid)
    (hf : ∀ o, s.objects n = some o →
      (f o).parent = o.parent ∧ (f o).dependencies = o.dependencies) :
    (s.modify n f).Valid := by
  have hparent := parent?_modify fun o ho => (hf o ho).1
  constructor
  case lt_next =>
    intro m hm
    rw [hparent] at hm
    exact h.lt_next m hm
  case top =>
    intro k i hk
    unfold IsTop
    rw [hparent] at hk ⊢
    exact h.top k i hk
  case child =>
    intro i o ho k hk
    rw [hparent]
    cases objects_modify ho with
    | inl ho => exact h.child i o ho k hk
    | inr hnew =>
      rcases hnew with ⟨rfl, o', ho', rfl⟩
      rw [(hf o' ho').2] at hk
      exact h.child i o' ho' k hk
  case leaf =>
    intro k o ho hne
    cases objects_modify ho with
    | inl ho => exact h.leaf k o ho hne
    | inr hnew =>
      rcases hnew with ⟨rfl, o', ho', rfl⟩
      rw [(hf o' ho').1] at hne
      rw [(hf o' ho').2]
      exact h.leaf k o' ho' hne
  case active =>
    intro m hm
    unfold IsTop
    rw [hparent]
    exact h.active m hm

theorem setActiveMessages (h : s.Valid) {activeMessages : List Nat}
    (hactive : ∀ n ∈ activeMessages, s.IsTop n) :
    { s with activeMessages := activeMessages }.Valid :=
  ⟨h.lt_next, h.top, h.child, h.leaf, hactive⟩

theorem setReturned (h : s.Valid) (returned : MessageState) :
    { s with returned := returned }.Valid :=
  ⟨h.lt_next, h.top, h.child, h.leaf, h.active⟩

theorem isChild (h : s.Valid) (ho : s.objects i = some o) (hk : k ∈ o.dependencies) :
    s.IsChild k i :=
  have hparent := h.child i o ho k hk
  ⟨hparent, h.top k i hparent⟩

theorem isChild_of_isAlive (h : s.Valid) (halive : s.isAlive k = true) : ∃ i, s.IsChild k i := by
  unfold isAlive at halive
  rcases List.any_eq_true.mp halive with ⟨i, _, hany⟩
  rcases (Option.any_eq_true _ _).mp hany with ⟨o, ho, hmem⟩
  exact ⟨i, h.isChild ho (of_decide_eq_true hmem)⟩

theorem parent?_next (h : s.Valid) : s.parent? s.next = none := by
  cases hparent : s.parent? s.next with
  | none => rfl
  | some p => exact absurd (h.lt_next s.next (by simp [hparent])) (Nat.lt_irrefl _)

end Valid

theorem start_objects : (start s i type).objects n =
    if n = s.next then some { type := type, parent := some i }
    else if n = i then (s.objects i).map fun o =>
      { o with dependencies := [s.next] } else s.objects n := by
  unfold start modify
  dsimp only
  rw [Function.update_apply]
  split
  . rfl
  . rw [Function.update_apply]

theorem parent?_start :
    (start s i type).parent? n = if n = s.next then some (some i) else s.parent? n := by
  unfold parent?
  rw [start_objects]
  split
  . rfl
  . split
    . next hn =>
      rw [hn]
      cases s.objects i with
      | none => rfl
      | some o => rfl
    . rfl

theorem Valid.start_extends (h : s.Valid) : s.Extends (start s i type) := by
  intro n p hn
  rw [parent?_start]
  split
  . next heq =>
    rw [heq, h.parent?_next] at hn
    cases hn
  . exact hn

theorem Valid.start_isChild (h : s.Valid) (hi : s.IsTop i) : (start s i type).IsChild s.next i := by
  constructor
  . rw [parent?_start, if_pos rfl]
  . exact (h.start_extends).isTop hi

theorem Valid.start (h : s.Valid) (hi : s.IsTop i) : (start s i type).Valid := by
  have hext : s.Extends (JoinLocks.start s i type) := h.start_extends
  have hchild : (JoinLocks.start s i type).IsChild s.next i := h.start_isChild hi
  constructor
  case lt_next =>
    intro n hn
    rw [parent?_start] at hn
    change n < s.next + 1
    split at hn
    . omega
    . have hlt := h.lt_next n hn
      omega
  case top =>
    intro k j hk
    rw [parent?_start] at hk
    split at hk
    . cases hk
      exact hchild.2
    . exact hext.isTop (h.top k j hk)
  case child =>
    intro j o ho k hk
    rw [start_objects] at ho
    split at ho
    . cases ho
      cases hk
    . split at ho
      . next hj =>
        rcases Option.map_eq_some_iff.mp ho with ⟨o', _, rfl⟩
        rw [List.mem_singleton.mp hk, hj]
        exact hchild.1
      . exact hext k (some j) (h.child j o ho k hk)
  case leaf =>
    intro k o ho hparent
    rw [start_objects] at ho
    split at ho
    . cases ho
      rfl
    . split at ho
      . next hk =>
        rcases Option.map_eq_some_iff.mp ho with ⟨o', ho', rfl⟩
        have htop := hi
        unfold IsTop at htop
        rw [parent?_of_objects ho'] at htop
        exact absurd (Option.some.inj htop) hparent
      . exact h.leaf k o ho hparent
  case active =>
    intro n hn
    exact hext.isTop (h.active n hn)

theorem join_objects : (join s).objects n =
    if n = s.next + 1 then some { type := .query, parent := some s.next, hasHandler := true }
    else if n = s.next then some { type := .join, dependencies := [s.next + 1] } else
      s.objects n := by
  unfold join
  dsimp only
  rw [Function.update_apply]
  split
  . rfl
  . rw [Function.update_apply]

theorem parent?_join : (join s).parent? n =
    if n = s.next + 1 then some (some s.next) else if n
      = s.next then some none else s.parent? n := by
  unfold parent?
  rw [join_objects]
  split
  . rfl
  . split
    . rfl
    . rfl

theorem Valid.join_extends (h : s.Valid) : s.Extends (join s) := by
  intro n p hn
  have hlt := h.lt_next n (by simp [hn])
  rw [parent?_join, if_neg (by omega), if_neg (by omega)]
  exact hn

theorem join_isTop : (join s).IsTop s.next := by
  unfold IsTop
  rw [parent?_join, if_neg (by omega), if_pos rfl]

theorem Valid.join (h : s.Valid) : (join s).Valid := by
  have hext := h.join_extends
  constructor
  case lt_next =>
    intro n hn
    rw [parent?_join] at hn
    change n < s.next + 1 + 1
    split at hn
    . omega
    . split at hn
      . omega
      . have hlt := h.lt_next n hn
        omega
  case top =>
    intro k i hk
    rw [parent?_join] at hk
    split at hk
    . cases hk
      exact join_isTop
    . split at hk
      . cases hk
      . exact hext.isTop (h.top k i hk)
  case child =>
    intro i o ho k hk
    rw [join_objects] at ho
    split at ho
    . cases ho
      cases hk
    . split at ho
      . next hi =>
        cases ho
        rw [List.mem_singleton.mp hk, hi, parent?_join, if_pos rfl]
      . exact hext k (some i) (h.child i o ho k hk)
  case leaf =>
    intro k o ho hparent
    rw [join_objects] at ho
    split at ho
    . cases ho
      rfl
    . split at ho
      . cases ho
        exact absurd rfl hparent
      . exact h.leaf k o ho hparent
  case active =>
    intro n hn
    cases List.mem_append.mp hn with
    | inl hn => exact hext.isTop (h.active n hn)
    | inr hn =>
      rw [List.mem_singleton.mp hn]
      exact join_isTop

end Shared

structure Goes (s : Shared) (t : ThreadName) (held : List Mutex) (r : Shared × Code) : Prop where
  valid : r.1.Valid
  extension : s.Extends r.1
  body : discipline.Body r.1 t held r.2

variable {r : Shared × Code} {body : Code} {choice : Bool} {f : Object → Object}
  {dependencies : List Nat}

theorem Goes.same (hs : s.Valid) (hbody : discipline.Body s t held body) :
    Goes s t held (s, body) :=
  ⟨hs, .refl s, hbody⟩

theorem Goes.modify (hs : s.Valid)
    (hf : ∀ o, s.objects n = some o → (f o).parent = o.parent ∧ (f o).dependencies = o.dependencies)
    (hbody : s.Extends (s.modify n f) → discipline.Body (s.modify n f) t held body) :
    Goes s t held (s.modify n f, body) :=
  have hext := Shared.modify_extends fun o ho => (hf o ho).1
  ⟨hs.modify hf, hext, hbody hext⟩

theorem Goes.setReturned (h : Goes s t held (s', [])) (returned : MessageState) :
    Goes s t held ({ s' with returned := returned }, []) :=
  ⟨h.valid.setReturned returned, h.extension, .nil⟩

theorem body_moment (hheld : ∀ m ∈ held, ∃ n, m = .message n)
    (hm : m = .routingTable ∨ m = .activeHandlers ∨ m = .sendQueue) :
    discipline.Body s .dispatcher held (scopedLock m []) :=
  .scope (.moment hheld hm) .nil

theorem expand_cleanFrom {it : Nat} (hs : s.Valid)
    (hr : expand s t (.cleanFrom it) choice = some r) :
    Goes s .chord [.activeMessages] r := by
  unfold expand at hr
  dsimp only at hr
  split at hr
  . cases hr
    exact .same hs .nil
  . next n hn =>
    cases hr
    have hi := hs.active n (List.mem_of_getElem? hn)
    apply Goes.same hs
    exact .append (.scope (.checkJoin hi) (.call (.checkJoin hi))) (.call (.cleaned it))

theorem expand_cleaned {it : Nat} (hs : s.Valid) (hr : expand s t (.cleaned it) choice = some r) :
    Goes s .chord [.activeMessages] r := by
  simp only [expand, Option.bind_eq_bind, Option.bind_eq_some_iff] at hr
  rcases hr with ⟨n, _, o, _, hr⟩
  split at hr
  . simp only [Option.bind_eq_some_iff] at hr
    rcases hr with ⟨last, hlast, hr⟩
    cases hr
    refine ⟨hs.setActiveMessages ?_, .refl s, .call (.cleanFrom it)⟩
    intro m hm
    cases List.mem_or_eq_of_mem_set (List.mem_of_mem_dropLast hm) with
    | inl hm => exact hs.active m hm
    | inr heq => exact hs.active m (heq ▸ List.mem_of_getLast? hlast)
  . cases hr
    exact .same hs (.call (.cleanFrom (it + 1)))

theorem expand_checkState (hs : s.Valid)
    (hloop : ∀ o, s.objects n = some o → discipline.Body s t held [.call (.anyOf n o.dependencies)])
    (hr : expand s t (.checkState n) choice = some r) : Goes s t held r := by
  simp only [expand, Option.bind_eq_bind, Option.bind_eq_some_iff] at hr
  rcases hr with ⟨o, ho, hr⟩
  split at hr
  . cases hr
    exact (Goes.same hs .nil).setReturned _
  . split at hr
    . cases hr
      apply Goes.setReturned
      apply Goes.modify hs
      . intro o' ho'
        cases ho.symm.trans ho'
        simp
      . intro _
        exact .nil
    . cases hr
      exact .same hs (hloop o ho)

theorem expand_anyOf (hs : s.Valid) (hi : s.IsTop i) (hk : ∀ k ∈ dependencies, s.IsChild k i)
    (hr : expand s t (.anyOf i dependencies) choice = some r) :
    Goes s .chord [.message i, .activeMessages] r := by
  cases dependencies with
  | nil =>
    cases hr
    exact (Goes.same hs .nil).setReturned _
  | cons k dependencies =>
    cases hr
    have hchild := hk k List.mem_cons_self
    have hcheck : discipline.Body s .chord [.message i, .activeMessages] (checkState k) :=
      .scope (.checkDependency hchild) (.call (.checkDependency hchild))
    apply Goes.same hs
    exact hcheck.append (.call (.alreadyTimedOut hi fun k hmem =>
      hk k (List.mem_cons_of_mem _ hmem)))

theorem expand_alreadyTimedOut (hs : s.Valid) (hi : s.IsTop i)
    (hk : ∀ k ∈ dependencies, s.IsChild k i)
    (hr : expand s t (.alreadyTimedOut i dependencies) choice = some r) :
    Goes s .chord [.message i, .activeMessages] r := by
  unfold expand at hr
  dsimp only at hr
  split at hr
  . cases hr
    apply Goes.setReturned
    apply Goes.modify hs
    . intro o _
      simp
    . intro _
      exact .nil
  . cases hr
    exact .same hs (.call (.anyOfJoin hi hk))

theorem expand_lockParent (hs : s.Valid) (hr : expand s t (.lockParent k) choice = some r) :
    Goes s .dispatcher [] r := by
  unfold expand at hr
  dsimp only at hr
  split at hr
  . next halive =>
    cases hr
    rcases hs.isChild_of_isAlive halive with ⟨i, hk⟩
    exact .same hs (.scope (.handleResponse hk) (.call (.handleResponse hk)))
  . cases hr
    exact .same hs .nil

theorem messages_one (k : Nat) : ∀ m ∈ [Mutex.message k], ∃ n, m = .message n := by
  simp

theorem messages_two (i k : Nat) : ∀ m ∈ [Mutex.message i, .message k], ∃ n, m = .message n := by
  simp

theorem expand_handleResponse (hs : s.Valid) (hk : s.IsChild k i)
    (hr : expand s t (.handleResponse k) choice = some r) : Goes s .dispatcher [.message k] r := by
  have hanswered : ∀ (state : MessageState) (front : Code),
      (∀ s, discipline.Body s .dispatcher [.message k] front) →
      Goes s .dispatcher [.message k] (s.modify k fun o => { o.setPromise with state := state },
        front ++ [.call (.requestDestruction k)]) := by
    intro state front hfront
    apply Goes.modify hs
    . intro o _
      exact ⟨rfl, rfl⟩
    . intro hext
      exact .append (hfront _) (.call (.destroyDependency (hext.isChild hk)))
  simp only [expand, Option.bind_eq_bind, Option.bind_eq_some_iff] at hr
  rcases hr with ⟨o, _, hr⟩
  split at hr
  . cases hr
  . split at hr
    . cases hr
      exact hanswered .done _ fun _ => body_moment (messages_one k) (by simp)
    . cases hr
      exact hanswered .failed [] fun _ => .nil
    . cases hr
      exact hanswered .done [] fun _ => .nil
    . cases hr
      exact hanswered .done [] fun _ => .nil
    . cases hr

theorem setDone_keeps (o : Object) :
    ({ o with isDone := true } : Object).parent = o.parent ∧
      ({ o with isDone := true } : Object).dependencies = o.dependencies :=
  ⟨rfl, rfl⟩

theorem expand_requestDestruction_dependency (hs : s.Valid) (hk : s.IsChild k i)
    (hr : expand s t (.requestDestruction k) choice = some r) :
    Goes s .dispatcher [.message k] r := by
  simp only [expand, Option.bind_eq_bind, Option.bind_eq_some_iff] at hr
  rcases hr with ⟨o, ho, hr⟩
  have hparent := hk.1
  rw [Shared.parent?_of_objects ho] at hparent
  rw [Option.some.inj hparent] at hr
  dsimp only at hr
  split at hr
  . cases hr
    apply Goes.modify hs fun o _ => setDone_keeps o
    intro hext
    have hk := hext.isChild hk
    exact .scope (.handleNotification hk) (.call (.handleNotification hk))
  . cases hr
    apply Goes.modify hs fun o _ => setDone_keeps o
    intro _
    exact .nil

theorem expand_requestDestruction_join (hs : s.Valid) (hk : s.IsChild k i)
    (hr : expand s t (.requestDestruction i) choice = some r) :
    Goes s .dispatcher [.message i, .message k] r := by
  simp only [expand, Option.bind_eq_bind, Option.bind_eq_some_iff] at hr
  rcases hr with ⟨o, ho, hr⟩
  have hparent := hk.2
  unfold Shared.IsTop at hparent
  rw [Shared.parent?_of_objects ho] at hparent
  rw [Option.some.inj hparent] at hr
  cases hr
  apply Goes.modify hs fun o _ => setDone_keeps o
  intro _
  exact body_moment (messages_two i k) (by simp)

theorem expand_handleNotification (hs : s.Valid) (hk : s.IsChild k i)
    (hr : expand s t (.handleNotification i) choice = some r) :
    Goes s .dispatcher [.message i, .message k] r := by
  have hdestroy : ∀ (state : MessageState) (front : Code),
      (∀ s, discipline.Body s .dispatcher [.message i, .message k] front) →
      Goes s .dispatcher [.message i, .message k] (s.modify i fun o => { o with state := state },
        front ++ [.call (.requestDestruction i)]) := by
    intro state front hfront
    apply Goes.modify hs
    . intro o _
      exact ⟨rfl, rfl⟩
    . intro hext
      exact .append (hfront _) (.call (.destroyJoin (hext.isChild hk)))
  have hstart : ∀ (type : MessageType) (front : Code),
      (∀ s, discipline.Body s .dispatcher [.message i, .message k] front) →
      Goes s .dispatcher [.message i, .message k]
        (start s i type, front ++ createRequest s.next) := by
    intro type front hfront
    have hlt : k < s.next := hs.lt_next k (by simp [hk.1])
    have hcreate : discipline.Body (start s i type) .dispatcher [.message i, .message k]
      (createRequest s.next) :=
      .scope (.createRequest (hs.start_isChild hk.2) hlt) (.call (.createRequest (by simp) s.next))
    exact ⟨hs.start hk.2, hs.start_extends, .append (hfront _) hcreate⟩
  simp only [expand, Option.bind_eq_bind, Option.bind_eq_some_iff] at hr
  rcases hr with ⟨o, _, k', _, dependency, _, hr⟩
  have htable := fun s => body_moment (s := s) (messages_two i k) (.inl rfl)
  split at hr
  . cases hr
    exact hdestroy .failed [] fun _ => .nil
  . split at hr
    . cases hr
      exact hstart .findSuccessor [] fun _ => .nil
    . cases hr
      exact hstart .getSuccessorList _ htable
    . cases hr
      exact hdestroy .done _ htable
    . cases hr
      exact .same hs .nil

theorem expand_createRequest (hs : s.Valid) (hheld : ∀ m ∈ held, ∃ n, m = .message n)
    (hr : expand s t (.createRequest k) choice = some r) : Goes s .dispatcher held r := by
  cases hr
  have hinsert : discipline.Body s .dispatcher held
    (scopedLock .activeHandlers [.call (.insert k)]) :=
    .scope (.moment hheld (by simp)) (.call (.insert _ k))
  exact .same hs (hinsert.append (body_moment hheld (by simp)))

theorem MayCall.goes (hs : s.Valid) (hmay : MayCall s t held c)
    (hr : expand s t c choice = some r) :
    Goes s t held r := by
  cases hmay with
  | clean =>
    cases hr
    exact .same hs (.call (.cleanFrom 0))
  | cleanFrom it => exact expand_cleanFrom hs hr
  | cleaned it => exact expand_cleaned hs hr
  | checkJoin hi =>
    exact expand_checkState hs (fun o ho => .call (.anyOfJoin hi fun k => hs.isChild ho)) hr
  | checkDependency hk =>
    apply expand_checkState hs _ hr
    intro o ho
    have hparent := hk.1
    rw [Shared.parent?_of_objects ho] at hparent
    rw [hs.leaf _ o ho (by simp [Option.some.inj hparent])]
    exact .call (.anyOfDependency hk)
  | anyOfJoin hi hk => exact expand_anyOf hs hi hk hr
  | anyOfDependency hk =>
    cases hr
    exact (Goes.same hs .nil).setReturned _
  | alreadyTimedOut hi hk => exact expand_alreadyTimedOut hs hi hk hr
  | getAndEraseIf k =>
    cases hr
    exact .modify hs (fun _ _ => ⟨rfl, rfl⟩) fun _ => .nil
  | lockParent k => exact expand_lockParent hs hr
  | handleResponse hk => exact expand_handleResponse hs hk hr
  | destroyDependency hk => exact expand_requestDestruction_dependency hs hk hr
  | handleNotification hk => exact expand_handleNotification hs hk hr
  | destroyJoin hk => exact expand_requestDestruction_join hs hk hr
  | createRequest hheld j => exact expand_createRequest hs hheld hr
  | insert held j =>
    cases hr
    exact .modify hs (fun _ _ => ⟨rfl, rfl⟩) fun _ => .nil

end JoinLocks

end Peerpaste
