import Peerpaste.Locks.Discipline

/-!
This module contains the runs of the chord thread and the dispatcher in which neither waits for the
other while the other waits for it.
-/

namespace Peerpaste

namespace JoinLocks

open Locks

structure Inv (s : State) : Prop where
  valid : s.shared.Valid
  exclusive : s.Exclusive
  follows : s.Follows discipline
  tail : ∀ m, .lock m ∉ (s.threads .chord).code.tail
  apart : ∀ i m, (s.threads .chord).held = [.message i, .activeMessages] →
    (s.threads .chord).code.head? = some (.lock m) → m ∉ (s.threads .dispatcher).held

variable {s s' : State} {t u : ThreadName} {m : Mutex} {choice : Bool}

structure Leads (held : List Mutex) (c : Call) (body : Code) : Prop where
  tail : ∀ m, .lock m ∉ body.tail
  head : ∀ m, body.head? = some (.lock m) →
    held = [.activeMessages] ∨ ∃ i k dependencies, c = .anyOf i (k :: dependencies) ∧ m = .message k

theorem Leads.of_noLock {held : List Mutex} {c : Call} {body : Code} (h : ∀ m, .lock m ∉ body) :
    Leads held c body where
  tail m hm := h m (List.mem_of_mem_tail hm)
  head m hm := absurd (List.mem_of_head? hm) (h m)

section Expand

variable {shared : Shared} {held : List Mutex} {c : Call} {r : Shared × Code}

theorem expand_cleanFrom_leads {it : Nat} (hr : expand shared t (.cleanFrom it) choice = some r) :
    Leads [.activeMessages] (.cleanFrom it) r.2 := by
  unfold expand at hr
  dsimp only at hr
  split at hr
  . cases hr
    exact .of_noLock (by simp)
  . cases hr
    constructor
    . simp [JoinLocks.checkState, Locks.scopedLock]
    . intro m _
      exact .inl rfl

theorem expand_cleaned_leads {it : Nat} (hr : expand shared t (.cleaned it) choice = some r) :
    Leads held (.cleaned it) r.2 := by
  simp only [expand, Option.bind_eq_bind, Option.bind_eq_some_iff] at hr
  rcases hr with ⟨n, _, o, _, hr⟩
  split at hr
  . simp only [Option.bind_eq_some_iff] at hr
    rcases hr with ⟨last, _, hr⟩
    cases hr
    exact .of_noLock (by simp)
  . cases hr
    exact .of_noLock (by simp)

theorem expand_checkState_leads {n : Nat} (hr : expand shared t (.checkState n) choice = some r) :
    Leads held (.checkState n) r.2 := by
  simp only [expand, Option.bind_eq_bind, Option.bind_eq_some_iff] at hr
  rcases hr with ⟨o, _, hr⟩
  split at hr
  . cases hr
    exact .of_noLock (by simp)
  . split at hr
    . cases hr
      exact .of_noLock (by simp)
    . cases hr
      exact .of_noLock (by simp)

theorem expand_anyOf_leads {i : Nat} {dependencies : List Nat}
    (hr : expand shared t (.anyOf i dependencies) choice = some r) :
    Leads held (.anyOf i dependencies) r.2 := by
  cases dependencies with
  | nil =>
    cases hr
    exact .of_noLock (by simp)
  | cons k dependencies =>
    cases hr
    constructor
    . simp [JoinLocks.checkState, Locks.scopedLock]
    . intro m hm
      cases hm
      exact .inr ⟨i, k, dependencies, rfl, rfl⟩

theorem expand_alreadyTimedOut_leads {i : Nat} {dependencies : List Nat}
    (hr : expand shared t (.alreadyTimedOut i dependencies) choice = some r) :
    Leads held (.alreadyTimedOut i dependencies) r.2 := by
  unfold expand at hr
  dsimp only at hr
  split at hr
  . cases hr
    exact .of_noLock (by simp)
  . cases hr
    exact .of_noLock (by simp)

theorem MayCall.leads (hmay : MayCall shared .chord held c)
    (hr : expand shared .chord c choice = some r) :
    Leads held c r.2 := by
  cases hmay with
  | clean =>
    cases hr
    exact .of_noLock (by simp)
  | cleanFrom it => exact expand_cleanFrom_leads hr
  | cleaned it => exact expand_cleaned_leads hr
  | checkJoin hi => exact expand_checkState_leads hr
  | checkDependency hk => exact expand_checkState_leads hr
  | anyOfJoin hi hk => exact expand_anyOf_leads hr
  | anyOfDependency hk => exact expand_anyOf_leads hr
  | alreadyTimedOut hi hk => exact expand_alreadyTimedOut_leads hr

end Expand

namespace Inv

theorem mayLock (h : Inv s) (hwants : (s.threads t).wants = some m) :
    MayLock s.shared t (s.threads t).held m :=
  Thread.mayLock_of_wants (h.follows t) hwants

theorem noLockCycle (h : Inv s) : NoLockCycle s := by
  have hone : ¬ (s.Waits .chord .dispatcher ∧ s.Waits .dispatcher .chord) := by
    intro ⟨⟨m, hm, hmem⟩, m', hm', hmem'⟩
    have hmay := h.mayLock hm
    have hmay' := h.mayLock hm'
    generalize hheld : (s.threads .chord).held = held at hmay hmem'
    generalize (s.threads .dispatcher).held = held' at hmay'
    cases hmay with
    | clean => cases hmem'
    | checkJoin hi =>
      -- the dispatcher never takes the mutex of the deque
      rw [List.mem_singleton.mp hmem'] at hmay'
      cases hmay' with
      | moment _ hm => simp at hm
    | checkDependency hk => exact h.apart _ _ hheld (Thread.wants_eq_some.mp hm) hmem
  intro t u ⟨htu, hut⟩
  by_cases hne : t = u
  . rw [hne] at htu
    rcases htu with ⟨m, hm, hmem⟩
    exact (h.mayLock hm).not_mem hmem
  . cases t with
    | chord =>
      cases u with
      | chord => exact hne rfl
      | dispatcher => exact hone ⟨htu, hut⟩
    | dispatcher =>
      cases u with
      | chord => exact hone ⟨hut, htu⟩
      | dispatcher => exact hne rfl

theorem init_inv : Inv init where
  valid := by
    constructor
    case lt_next =>
      intro n hn
      exact absurd rfl hn
    case top =>
      intro k i hk
      cases hk
    case child =>
      intro i o ho
      cases ho
    case leaf =>
      intro k o ho
      cases ho
    case active =>
      intro n hn
      cases hn
  exclusive := by
    constructor
    . intro t
      exact List.nodup_nil
    . intro t u m hm
      cases hm
  follows := fun t => .nil
  tail := fun m hm => by cases hm
  apart := fun i m hheld => by cases hheld

theorem held_of_nil (h : Inv s) (hnil : (s.threads t).code = []) : (s.threads t).held = [] := by
  have hfollows := h.follows t
  rw [hnil] at hfollows
  exact hfollows.of_nil

theorem join (h : Inv s) : Inv { s with shared := JoinLocks.join s.shared } where
  valid := h.valid.join
  exclusive := ⟨h.exclusive.nodup, h.exclusive.eq⟩
  follows t := (h.follows t).mono (fun _ _ => MayLock.mono h.valid.join_extends)
    (fun _ _ => MayCall.mono h.valid.join_extends)
  tail := h.tail
  apart := h.apart

theorem setCode (h : Inv s) (hnil : (s.threads t).code = []) {code : Code}
    (hfollows : discipline.Follows s.shared t [] code) (htail : ∀ m, .lock m ∉ code.tail) :
    Inv (s.set t ⟨(s.threads t).held, code⟩) := by
  have hheld := h.held_of_nil hnil
  rw [hheld]
  constructor
  case valid => exact h.valid
  case exclusive =>
    apply h.exclusive.set
    . exact List.nodup_nil
    . intro m hm
      cases hm
  case follows => exact h.follows.set hfollows
  case tail =>
    intro m
    by_cases ht : .chord = t
    . rw [← ht, State.set_threads_self]
      exact htail m
    . rw [State.set_threads_of_ne s _ ht]
      exact h.tail m
  case apart =>
    intro i m hi hm
    by_cases ht : .chord = t
    . rw [← ht, State.set_threads_self] at hi
      cases hi
    . rw [State.set_threads_of_ne s _ ht] at hi hm
      by_cases hd : .dispatcher = t
      . rw [← hd, State.set_threads_self]
        exact List.not_mem_nil
      . rw [State.set_threads_of_ne s _ hd]
        exact h.apart i m hi hm

theorem follows_of_runs (h : Inv s) (hrun : s.Runs expand t choice s') : s'.Follows discipline := by
  apply h.follows.run _ hrun
  intro c shared body hmay hcall
  have hgoes := MayCall.goes h.valid hmay hcall
  exact ⟨hgoes.body, fun u => ⟨fun _ _ => MayLock.mono hgoes.extension, fun _ _ =>
    MayCall.mono hgoes.extension⟩⟩

theorem valid_of_runs (h : Inv s) (hrun : s.Runs expand t choice s') : s'.shared.Valid := by
  cases hrun with
  | lock heq hfree => exact h.valid
  | unlock heq => exact h.valid
  | call heq hcall =>
    have hfollows := h.follows t
    rw [heq] at hfollows
    exact (MayCall.goes h.valid hfollows.of_call.1 hcall).valid

theorem of_noLock (hvalid : s.shared.Valid) (hexclusive : s.Exclusive)
    (hfollows : s.Follows discipline) (hcode : ∀ m, .lock m ∉ (s.threads .chord).code) : Inv s := by
  refine ⟨hvalid, hexclusive, hfollows, ?_, ?_⟩
  . intro m hm
    exact hcode m (List.mem_of_mem_tail hm)
  . intro i m _ hm
    exact absurd (List.mem_of_head? hm) (hcode m)

theorem run_chord (h : Inv s) (hcond : KeepsApart s (.run .chord choice))
    (hrun : s.Runs expand .chord choice s') : Inv s' := by
  have hvalid := h.valid_of_runs hrun
  have hexclusive := h.exclusive.run hrun
  have hfollows := h.follows_of_runs hrun
  have htail := h.tail
  have hmay := h.follows .chord
  cases hrun with
  | lock heq hfree =>
    apply of_noLock hvalid hexclusive hfollows
    rw [State.set_threads_self]
    rw [heq] at htail
    exact htail
  | unlock heq =>
    apply of_noLock hvalid hexclusive hfollows
    rw [State.set_threads_self]
    rw [heq] at htail
    exact htail
  | @call c code body shared heq hcall =>
    -- the thread comes to the mutex of a dependency only through the loop in `check_state`
    rw [heq] at htail hmay
    have hleads := MayCall.leads hmay.of_call.1 hcall
    refine ⟨hvalid, hexclusive, hfollows, ?_, ?_⟩
    . intro m hm
      dsimp only at hm
      rw [State.set_threads_self] at hm
      cases body with
      | nil => exact htail m (List.mem_of_mem_tail hm)
      | cons op body =>
        cases List.mem_append.mp hm with
        | inl hm => exact hleads.tail m hm
        | inr hm => exact htail m hm
    . intro i m hheld hm
      dsimp only at hheld hm ⊢
      rw [State.set_threads_self] at hheld hm
      rw [State.set_threads_of_ne s _ (by decide)]
      cases body with
      | nil => exact absurd (List.mem_of_head? hm) (htail m)
      | cons op body =>
        cases hleads.head m hm with
        | inl hactive =>
          dsimp only at hheld
          rw [hactive] at hheld
          cases hheld
        | inr hcheck =>
          rcases hcheck with ⟨i', k, dependencies, rfl, rfl⟩
          exact hcond i' k dependencies code heq

theorem ne_of_mayLock (h : Inv s) (hcond : KeepsApart s (.run .dispatcher choice)) {i : Nat}
    {m m' : Mutex}
    (hheld : (s.threads .chord).held = [.message i, .activeMessages])
    (hm : (s.threads .chord).wants = some m) (hm' : (s.threads .dispatcher).wants = some m') :
    m ≠ m' := by
  -- the dispatcher does not take the mutex of the dependency that the chord thread has come to
  -- check
  have hmay := h.mayLock hm
  have hmay' := h.mayLock hm'
  rw [hheld] at hmay
  intro heq
  generalize hheld' : (s.threads .dispatcher).held = held at hmay'
  cases hmay with
  | @checkDependency _ k hk =>
    rw [← heq] at hmay'
    cases hmay' with
    | handleResponse _ => exact hcond k hheld' (heq ▸ hm') hm
    | handleNotification hk' =>
      have hparent := hk.1
      rw [hk'.2] at hparent
      cases hparent
    | createRequest hj hlt =>
      -- both have the same `Join`
      have hparent := hk.1
      rw [hj.1] at hparent
      cases hparent
      have hsame := h.exclusive.eq .chord .dispatcher (.message i) (by simp [hheld])
        (by simp [hheld'])
      cases hsame
    | moment _ hm => simp at hm

theorem run_dispatcher (h : Inv s) (hcond : KeepsApart s (.run .dispatcher choice))
    (hrun : s.Runs expand .dispatcher choice s') : Inv s' := by
  have hvalid := h.valid_of_runs hrun
  have hexclusive := h.exclusive.run hrun
  have hfollows := h.follows_of_runs hrun
  have hthreads : s'.threads .chord = s.threads .chord
      ∧ ∀ m ∈ (s'.threads .dispatcher).held,
        m ∈ (s.threads .dispatcher).held ∨ (s.threads .dispatcher).wants = some m := by
    have hne : ThreadName.chord ≠ .dispatcher := by decide
    cases hrun with
    | @lock m code heq hfree =>
      refine ⟨State.set_threads_of_ne s _ hne, ?_⟩
      intro m' hm'
      rw [State.set_threads_self] at hm'
      cases List.mem_cons.mp hm' with
      | inl heq' =>
        rw [heq', Thread.wants_eq_some, heq]
        exact .inr rfl
      | inr hm' => exact .inl hm'
    | unlock heq =>
      refine ⟨State.set_threads_of_ne s _ hne, ?_⟩
      intro m hm
      rw [State.set_threads_self] at hm
      exact .inl (List.mem_of_mem_erase hm)
    | @call c code body shared heq hcall =>
      have hset := State.set_threads_of_ne s ⟨(s.threads .dispatcher).held, body ++ code⟩ hne
      refine ⟨hset, ?_⟩
      intro m hm
      dsimp only at hm
      rw [State.set_threads_self] at hm
      exact .inl hm
  constructor
  case valid => exact hvalid
  case exclusive => exact hexclusive
  case follows => exact hfollows
  case tail =>
    rw [hthreads.1]
    exact h.tail
  case apart =>
    intro i m hheld hm hmem
    rw [hthreads.1] at hheld hm
    cases hthreads.2 m hmem with
    | inl hmem => exact h.apart i m hheld hm hmem
    | inr hwants => exact h.ne_of_mayLock hcond hheld (Thread.wants_eq_some.mpr hm) hwants rfl

theorem step (h : Inv s) {e : Event} (hcond : KeepsApart s e)
    (hstep : JoinLocks.step s e = some s') :
    Inv s' := by
  unfold JoinLocks.step at hstep
  cases e with
  | join =>
    dsimp only at hstep
    split at hstep
    . cases hstep
      exact h.join
    . cases hstep
  | clean =>
    dsimp only at hstep
    split at hstep
    . next hnil =>
      cases hstep
      apply h.setCode hnil
      . exact .lock .clean (.call .clean (.unlock .nil))
      . simp [Locks.scopedLock]
    . cases hstep
  | response k =>
    dsimp only at hstep
    split at hstep
    . next hresponse =>
      cases hstep
      apply h.setCode hresponse.1
      . exact .lock (.moment (by simp) (by simp))
          (.call (.getAndEraseIf k) (.unlock (.call (.lockParent k) .nil)))
      . simp [Locks.scopedLock]
    . cases hstep
  | run t choice =>
    have hrun := State.runs_of_run hstep
    cases t with
    | chord => exact h.run_chord hcond hrun
    | dispatcher => exact h.run_dispatcher hcond hrun

end Inv

theorem noLockCycle_exec (events : List Event) (hcond : Run.Along step KeepsApart init events)
    (hexec : Run.exec step init events = some s) : NoLockCycle s := by
  have hinv : Inv s :=
    Run.exec_of_along (fun _ _ _ h hcond hstep => h.step hcond hstep) Inv.init_inv hcond hexec
  exact hinv.noLockCycle

/--
The answer to the query of a `Join` arrives. The dispatcher takes the mutexes of the query, of the
`Join` and of the `FindSuccessor` that comes next, and afterwards the chord thread looks after the
message objects, with the last two.
-/
theorem noLockCycle_exec_clean :
    let events : List Event :=
      [.join, .response 1] ++ List.replicate 21 (.run .dispatcher true) ++ [.clean]
      ++ List.replicate 16 (.run .chord false)
    ∃ s, Run.exec step init events = some s ∧ NoLockCycle s := by
  intro events
  have hcond : Run.Along step KeepsApart init events := by decide +kernel
  exact ⟨_, rfl, noLockCycle_exec events hcond rfl⟩

/--
The dispatcher handles the answer with the mutex of the query and is about to take the one of the
`Join`, which the chord thread has taken to check the query.
-/
theorem not_noLockCycle_exec_clean :
    ∃ s, Run.exec step init ([.join, .response 1]
      ++ List.replicate 9 (.run .dispatcher true) ++ [.clean]
        ++ List.replicate 6 (.run .chord false)) = some s
      ∧ ¬ NoLockCycle s := by
  refine ⟨_, rfl, ?_⟩
  intro h
  apply h .chord .dispatcher
  constructor
  . exact ⟨.message 1, rfl, .head _⟩
  . exact ⟨.message 0, rfl, .head _⟩

end JoinLocks

end Peerpaste
