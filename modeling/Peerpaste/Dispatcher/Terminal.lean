import Peerpaste.Dispatcher.Invariant

/-!
This module contains what becomes of message objects that are done, while responses to them may
still be on the way and the chord thread checks them.
-/

namespace Peerpaste

namespace MessageDispatcher

structure KeepsDone (d d' : MessageDispatcher) : Prop where
  state : ∀ a o o', d.object? a = some o → d'.object? a = some o' → o.isDone = true →
    o'.isDone = true ∧ o'.state = o.state
  dependencies : ∀ i o o', d.activeMessages i = some o → d'.activeMessages i = some o' →
    o.isDone = true → o'.dependencies.map (·.number) = o.dependencies.map (·.number)

def TakesNoStep (d d' : MessageDispatcher) (i : Nat) : Prop :=
  ∀ o o', d.activeMessages i = some o → d'.activeMessages i = some o' →
    o'.state = o.state ∧ o'.isDone = o.isDone
      ∧ o'.dependencies.map (·.number) = o.dependencies.map (·.number)

/--
No promise is set a second time, what is done stays as it is, and a response that comes too late
does not get the object any further that the one belongs to which it is for.
-/
structure Terminal (sha256 : String → String) (sha256' : List UInt8 → String)
    (d : MessageDispatcher) (e : Event) : Prop where
  once : d.step sha256 sha256' e ≠ some (.error .promiseAlreadySatisfied)
  keepsDone : ∀ d', d.step sha256 sha256' e = some (.ok d') → d.KeepsDone d'
  late : ∀ ids h response o d', e = .invoke ids → d.taken = some (.response h response) →
    d.object? h.parent = some o → o.isDone = true → d.step sha256 sha256' e = some (.ok d') →
    d.TakesNoStep d' h.parent.object

def InTime (d : MessageDispatcher) (e : Event) : Prop :=
  ∀ ids h response, e = .invoke ids → d.taken = some (.response h response) →
    ∀ o m, d.activeMessages h.parent.object = some o → d.object? h.parent = some m →
      o.isDone = false ∧ m.isDone = false

variable {sha256 : String → String} {sha256' : List UInt8 → String}
  {d d' : MessageDispatcher} {i : Nat}
  {o o' : ActiveObject} {m : MessageObject} {a : Address} {e : Event}

theorem object?_congr {d d' : MessageDispatcher} {a : Address}
    (h : d'.activeMessages a.object = d.activeMessages a.object) : d'.object? a = d.object? a := by
  unfold object?
  rw [h]

theorem exists_of_object? (h : d.object? a = some m) : ∃ o, d.activeMessages a.object = some o := by
  unfold object? at h
  split at h
  . next hobject _ => exact ⟨_, hobject⟩
  . next hobject _ => exact ⟨_, hobject⟩
  . cases h

theorem KeepsDone.of_activeMessages (h : d'.activeMessages = d.activeMessages) :
    d.KeepsDone d' := by
  constructor
  . intro a o o' ho ho' hdone
    rw [object?_congr (congrFun h a.object), ho, Option.some.injEq] at ho'
    rw [← ho']
    exact ⟨hdone, rfl⟩
  . intro i o o' ho ho' hdone
    rw [h, ho, Option.some.injEq] at ho'
    rw [ho']

theorem KeepsDone.of_sets (h : Sets d d' i o')
    (hstate : ∀ a m m', a.object = i → d.object? a = some m → d'.object? a = some m' →
      m.isDone = true → m'.isDone = true ∧ m'.state = m.state)
    (hdependencies : ∀ o, d.activeMessages i = some o → o.isDone = true →
      o'.dependencies.map (·.number) = o.dependencies.map (·.number)) :
    d.KeepsDone d' := by
  constructor
  . intro a m m' hm hm' hdone
    by_cases hi : a.object = i
    . exact hstate a m m' hi hm hm' hdone
    . have hother : d'.activeMessages a.object = d.activeMessages a.object := by
        rw [h.activeMessages, Function.update_of_ne hi]
      rw [object?_congr hother, hm, Option.some.injEq] at hm'
      rw [← hm']
      exact ⟨hdone, rfl⟩
  . intro j o o'' ho ho' hdone
    rw [h.activeMessages, Function.update_apply] at ho'
    split at ho'
    . next hj =>
      cases ho'
      exact hdependencies o (hj ▸ ho) hdone
    . rw [ho, Option.some.injEq] at ho'
      rw [ho']

theorem Creates.keepsDone (h : Creates d d') (hd : Valid d) : d.KeepsDone d' := by
  rcases h with ⟨o', hsets, _⟩
  have hfresh := hd.fresh
  apply KeepsDone.of_sets hsets
  . intro a m m' ha hm
    rcases exists_of_object? hm with ⟨o, ho⟩
    rw [ha, hfresh] at ho
    cases ho
  . intro o ho
    rw [hfresh] at ho
    cases ho

theorem checkState_keepsDone (hobject : d.activeMessages i = some o)
    (hchecks : ActiveObject.Checks o o') (hsets : Sets d d' i o') : d.KeepsDone d' := by
  apply KeepsDone.of_sets hsets
  . intro a m m' ha hm hm' hdone
    unfold object? at hm hm'
    rw [ha, hobject] at hm
    rw [ha, hsets.activeMessages, Function.update_self] at hm'
    cases hdependency : a.dependency with
    | none =>
      simp only [hdependency, Option.some.injEq] at hm hm'
      rw [← hm] at hdone ⊢
      rw [← hm', hchecks.done hdone]
      exact ⟨hdone, rfl⟩
    | some k =>
      simp only [hdependency] at hm hm'
      rcases Option.map_eq_some_iff.mp hm with ⟨dep, hfind, hdep⟩
      rcases Option.map_eq_some_iff.mp hm' with ⟨dep', hfind', hdep'⟩
      have hrel := ActiveObject.find?_checked hchecks.dependencies k
      unfold ActiveObject.find? at hfind hfind'
      rw [hfind, hfind'] at hrel
      cases hrel with
      | some hdependencies =>
        rw [← hdep] at hdone ⊢
        rw [← hdep', hdependencies.checks.done hdone]
        exact ⟨hdone, rfl⟩
  . intro o₀ ho₀ hdone
    rw [hobject, Option.some.injEq] at ho₀
    rw [← ho₀] at hdone ⊢
    rw [hchecks.done hdone]

theorem destroy_keepsDone (d : MessageDispatcher) (i : Nat) (storage : StaticStorage) :
    d.KeepsDone
      { d with storage := storage, activeMessages := Function.update d.activeMessages i none } := by
  have hsame : ∀ j o', Function.update d.activeMessages i none j = some o' →
      Function.update d.activeMessages i none j = d.activeMessages j := by
    intro j o' hj
    rw [Function.update_apply] at hj ⊢
    split at hj
    . cases hj
    . next hne => rw [if_neg hne]
  constructor
  . intro a m m' hm hm' hdone
    rcases exists_of_object? hm' with ⟨o', ho'⟩
    rw [object?_congr (hsame _ o' ho'), hm, Option.some.injEq] at hm'
    rw [← hm']
    exact ⟨hdone, rfl⟩
  . intro j o o' ho ho' hdone
    have hj := hsame j o' ho'
    dsimp only at ho'
    rw [ho', ho, Option.some.injEq] at hj
    rw [hj]

theorem handleResponse_keepsDone {sha256 : List UInt8 → String}
    {h : HandlerObject HandlerFunction Address}
    {response : RequestObject} {ids : Nat → String} (hd : Valid d)
    (hintime : ∀ o m, d.activeMessages h.parent.object = some o → d.object? h.parent = some m →
      o.isDone = false ∧ m.isDone = false)
    (hok : d.handleResponse sha256 h response ids = .ok d') : d.KeepsDone d' := by
  -- the other dependencies of an object that goes on stay as they are, unless it drops them
  cases handleResponse_handles hd hok with
  | gone => exact .of_activeMessages rfl
  | object o r hobject hdependency hcall hsets =>
    have hopen : o.isDone = false :=
      (hintime o o.toMessageObject hobject (by simp [object?, hobject, hdependency])).1
    apply KeepsDone.of_sets hsets
    . intro a m m' ha hm hm' hdone
      unfold object? at hm hm'
      rw [ha, hobject] at hm
      rw [ha, hsets.activeMessages, Function.update_self] at hm'
      cases hdependency : a.dependency with
      | none =>
        simp only [hdependency, Option.some.injEq] at hm
        rw [← hm, hopen] at hdone
        cases hdone
      | some k =>
        simp only [hdependency] at hm hm'
        have hsame := hm.symm.trans hm'
        cases hsame
        exact ⟨hdone, rfl⟩
    . intro o₀ ho₀ hdone
      rw [hobject, Option.some.injEq] at ho₀
      rw [← ho₀, hopen] at hdone
      cases hdone
  | dependency o o' k dep r hobject hdependency hfind hcall hproceeds hsets =>
    have hopen := hintime o dep.toMessageObject hobject
      (by simp [object?, hobject, hdependency, hfind])
    apply KeepsDone.of_sets hsets
    . intro a m m' ha hm hm' hdone
      unfold object? at hm hm'
      rw [ha, hobject] at hm
      rw [ha, hsets.activeMessages, Function.update_self] at hm'
      cases hdependency : a.dependency with
      | none =>
        simp only [hdependency, Option.some.injEq] at hm
        rw [← hm, hopen.1] at hdone
        cases hdone
      | some j =>
        simp only [hdependency] at hm hm'
        rcases Option.map_eq_some_iff.mp hm with ⟨dep₁, hfind₁, hdep₁⟩
        rcases Option.map_eq_some_iff.mp hm' with ⟨dep₂, hfind₂, hdep₂⟩
        have hmem := ActiveObject.mem_of_find? hfind₁
        have hj : j < d.next := hmem.2 ▸ (hd.object _ o hobject).2.number dep₁ hmem.1
        have hbefore := hproceeds.find? hj hfind₂
        rw [ActiveObject.find?_replace] at hbefore
        split at hbefore
        . next heq =>
          rw [heq, hfind, Option.some.injEq] at hfind₁
          rw [← hdep₁, ← hfind₁, hopen.2] at hdone
          cases hdone
        . rw [hfind₁, Option.some.injEq] at hbefore
          rw [← hdep₁, hbefore] at hdone ⊢
          rw [← hdep₂]
          exact ⟨hdone, rfl⟩
    . intro o₀ ho₀ hdone
      rw [hobject, Option.some.injEq] at ho₀
      rw [← ho₀, hopen.1] at hdone
      cases hdone

theorem bind_once {e : Except Crash α} {f : α → Except Crash β}
    (he : e ≠ .error .promiseAlreadySatisfied)
    (hf : ∀ x, e = .ok x → f x ≠ .error .promiseAlreadySatisfied) :
    (e >>= f) ≠ .error .promiseAlreadySatisfied := by
  cases e with
  | error crash => simpa [bind, Except.bind] using he
  | ok x => exact hf x rfl

theorem ofOption_once (a : Option α) : Crash.ofOption a ≠ .error .promiseAlreadySatisfied := by
  -- taking what is not there is another way to end
  cases a with
  | none => simp [Crash.ofOption]
  | some a => simp [Crash.ofOption]

theorem call_once {sha256 : List UInt8 → String} {node : Node} {storage : StaticStorage}
    {function : HandlerFunction} {response : RequestObject} {transactionId : String}
    (hpromise : m.promise = none) :
    m.call sha256 node storage function response transactionId
      ≠ .error .promiseAlreadySatisfied := by
  have hanswer : ∀ h value, MessageObject.answer node storage m h value
    ≠ .error .promiseAlreadySatisfied := by
    intro h value
    rw [MessageObject.answer_eq_ok.mpr ⟨hpromise, rfl⟩]
    simp
  cases function with
  | handleForwardedResponse =>
    unfold MessageObject.call MessageObject.handleForwardedResponse
    dsimp only
    split
    . simp
    . apply bind_once (ofOption_once _)
      simp [pure, Except.pure]
  | handleResponse =>
    unfold MessageObject.call MessageObject.handleResponse
    dsimp only
    split
    . apply hanswer
    . apply bind_once (ofOption_once _)
      intro handled _
      apply hanswer
    . apply hanswer
    . apply hanswer
    . apply hanswer
    . simp
    . simp
    . apply bind_once (ofOption_once _)
      intro g _
      apply bind_once (ofOption_once _)
      simp [pure, Except.pure]
    . simp

theorem handleRequest_once {type : MessageType} {request : RequestObject} {ids : Nat → String} :
    d.handleRequest sha256 type request ids ≠ .error .promiseAlreadySatisfied := by
  unfold handleRequest
  dsimp only
  split
  . simp
  . simp
  . apply bind_once (ofOption_once _)
    simp [pure, Except.pure]
  . apply bind_once (ofOption_once _)
    simp [pure, Except.pure]
  . simp
  . simp
  . simp
  . simp
  . apply bind_once (ofOption_once _)
    simp [pure, Except.pure]
  . simp

theorem handleResponse_once {sha256 : List UInt8 → String}
    {h : HandlerObject HandlerFunction Address} {response : RequestObject} {ids : Nat → String}
    (hd : Valid d) (hforwards : d.Forwards h)
    (hrequest : response.message.isRequest = false)
    (hintime : ∀ o m, d.activeMessages h.parent.object = some o → d.object? h.parent = some m →
      o.isDone = false ∧ m.isDone = false) :
    d.handleResponse sha256 h response ids ≠ .error .promiseAlreadySatisfied := by
  unfold handleResponse
  dsimp only
  split
  . simp
  . next o hobject hdependency =>
    have hopen := hintime o o.toMessageObject hobject (by simp [object?, hobject, hdependency])
    have hpromise := (hd.object _ o hobject).2.message.promise_eq_none hopen.1
    apply bind_once (call_once hpromise)
    simp [pure, Except.pure]
  . next o k hobject hdependency =>
    split
    . simp
    . next dep hfind =>
      have hopen := hintime o dep.toMessageObject hobject
        (by simp [object?, hobject, hdependency, hfind])
      have hmem := (ActiveObject.mem_of_find? hfind).1
      have hpromise := ((hd.object _ o hobject).2.dependency dep hmem).1.promise_eq_none hopen.2
      apply bind_once (call_once hpromise)
      intro r hcall
      split
      . have hproper := replace_proper hd hforwards hrequest hobject hdependency hfind hcall
        have hne : (o.replace k r.object).dependencies ≠ [] := by
          unfold ActiveObject.replace
          simpa using List.ne_nil_of_mem hmem
        rcases handleNotification_of_proper (d := { d with node := r.node, storage := r.storage })
          ((call_responds hcall).table hd.table) hproper hne with ⟨d', hok⟩
        rw [hok]
        simp
      . simp [pure, Except.pure]

theorem destroy_of_proper (storage : StaticStorage) (hm : m.Proper) : ∃ s, m.destroy storage =
    .ok s := by
  -- the classes whose destructor sets the promise set it nowhere else
  unfold MessageObject.destroy
  split
  . next htype =>
    have hpromise : m.promise = none := by
      cases hsome : m.promise with
      | none => rfl
      | some value =>
        have hresult := (hm.promise (by simp [hsome])).2
        simp only [MessageType.resultTypes, List.mem_cons, List.not_mem_nil, or_false]
          at hresult htype
        grind
    rw [MessageObject.setPromise, hpromise]
    exact ⟨_, rfl⟩
  . exact ⟨_, rfl⟩

theorem destroy_once (hd : Valid d) (hobject : d.activeMessages i = some o) :
    d.destroy i o ≠ .error .promiseAlreadySatisfied := by
  have ho := (hd.object i o hobject).2
  have hfold : ∀ (ds : List DependencyObject) (storage : StaticStorage), (∀ dep ∈ ds, dep.Proper) →
      ∃ s, ds.foldlM (fun s dependency => dependency.toMessageObject.destroy s) storage
        = (.ok s : Except Crash _) := by
    intro ds
    induction ds with
    | nil => exact fun storage _ => ⟨storage, rfl⟩
    | cons dep ds ih =>
      intro storage hproper
      rcases destroy_of_proper storage (hproper dep List.mem_cons_self) with ⟨s, hs⟩
      rw [List.foldlM_cons, hs]
      exact ih s (fun dep' hdep' => hproper dep' (List.mem_cons_of_mem dep hdep'))
  rcases destroy_of_proper d.storage ho.message with ⟨s, hs⟩
  rcases hfold o.dependencies s (fun dep hdep => (ho.dependency dep hdep).1) with ⟨s', hs'⟩
  unfold MessageDispatcher.destroy
  rw [hs]
  dsimp only [bind, Except.bind]
  rw [hs']
  simp [pure, Except.pure]

theorem step_once (hd : Valid d) (hintime : d.InTime e) :
    d.step sha256 sha256' e ≠ some (.error .promiseAlreadySatisfied) := by
  cases e with
  | join address port ids => simp [step]
  | stabilize ids =>
    unfold step
    dsimp only
    split
    . simp
    . simp
  | checkPredecessor ids =>
    unfold step
    dsimp only
    split
    . simp
    . simp
  | broadcastFilelist ids => simp [step]
  | receive message =>
    unfold step
    dsimp only
    split
    . simp
    . simp
  | invoke ids =>
    intro hstep
    rcases Option.map_eq_some_iff.mp hstep with ⟨invocation, htaken, herror⟩
    cases invocation with
    | request type request => exact handleRequest_once herror
    | response h response =>
      have hresponse := hd.taken h response htaken
      exact handleResponse_once hd.idle hresponse.1 hresponse.2
        (hintime ids h response rfl htaken) herror
  | checkState i expired =>
    intro hstep
    rcases Option.map_eq_some_iff.mp hstep with ⟨o, hobject, herror⟩
    rcases ActiveObject.checkState_of_proper d.node expired (hd.object i o hobject).2 with ⟨r, hr⟩
    rw [hr] at herror
    cases herror
  | destroy i =>
    intro hstep
    rcases Option.bind_eq_some_iff.mp hstep with ⟨o, hobject, hdone⟩
    split at hdone
    . rw [Option.some.injEq] at hdone
      exact destroy_once hd hobject hdone
    . cases hdone

theorem StepsTo.keepsDone (h : StepsTo sha256' d e d') (hd : Valid d) (hintime : d.InTime e) :
    d.KeepsDone d' := by
  have hidle : ∀ {d'}, KeepsDone { d with taken := none } d' → d.KeepsDone d' :=
    fun hkeeps => ⟨hkeeps.state, hkeeps.dependencies⟩
  cases h with
  | creates hcreates => exact hcreates.keepsDone hd
  | selects message =>
    apply KeepsDone.of_activeMessages
    unfold select
    split
    . rfl
    . rfl
  | requested ids hcreates =>
    cases hcreates with
    | inl heq => exact .of_activeMessages (by rw [heq])
    | inr hcreates => exact hidle (hcreates.keepsDone hd.idle)
  | responds ids h response htaken hok =>
    exact hidle (handleResponse_keepsDone hd.idle (hintime ids h response rfl htaken) hok)
  | checks i expired o o' hobject hchecks hsets => exact checkState_keepsDone hobject hchecks hsets
  | destroys i storage => exact destroy_keepsDone d i storage

theorem terminal_of_inTime (hd : Valid d) (hintime : d.InTime e) : Terminal sha256 sha256' d e := by
  refine ⟨step_once hd hintime, fun d' hstep => (step_stepsTo hd hstep).keepsDone hd hintime, ?_⟩
  intro ids h response m d' he htaken hm hdone
  rcases exists_of_object? hm with ⟨o, ho⟩
  have hopen := (hintime ids h response he htaken o m ho hm).2
  rw [hdone] at hopen
  cases hopen

theorem terminal_along (sha256 : String → String) (sha256' : List UInt8 → String) (self : Peer)
    (disk : StaticStorage) (events : List Event)
    (hintime : Run.Along (next? sha256 sha256') InTime (init sha256' self disk) events) :
    Run.Along (next? sha256 sha256') (Terminal sha256 sha256') (init sha256' self disk) events := by
  apply Run.along_invariant _ _ (init_valid sha256' self disk) hintime
  . intro s e s' hs _ hstep
    exact (step_stepsTo hs (next?_eq_some.mp hstep)).valid hs
  . intro s e hs hcond
    exact terminal_of_inTime hs hcond

def queryAnswer : RequestObject where
  message := {
    header := ⟨false, 0, 0, "query", "r", "1", "", ""⟩
    peers := [⟨"a", "10.0.0.1", "4000"⟩]
  }
  connection := .session ⟨0, "10.0.0.9"⟩

def numbered (i : Nat) : String :=
  toString i

theorem terminal_along_queryAnswer :
    Run.Along (next? (fun _ => "") (fun _ => "")) (Terminal (fun _ => "") (fun _ => "")) alone
      [.join "10.0.0.9" "5000" numbered, .receive queryAnswer, .invoke numbered] := by
  apply terminal_along (fun _ => "") (fun _ => "") ⟨"a", "10.0.0.1", "4000"⟩
    (StaticStorage.init "a" (by decide))
  refine ⟨?_, ?_⟩
  . intro ids h response he
    cases he
  intro d₁ h₁
  cases h₁
  refine ⟨?_, ?_⟩
  . intro ids h response he
    cases he
  intro d₂ h₂
  cases h₂
  refine ⟨?_, fun _ _ => trivial⟩
  intro ids h response he htaken o m ho hm
  cases htaken
  cases ho
  cases hm
  exact ⟨rfl, rfl⟩

/--
The dispatcher has taken the answer when the query times out, and hands it over then.
-/
theorem not_terminal_along_queryAnswer :
    ¬ Run.Along (next? (fun _ => "") (fun _ => "")) (Terminal (fun _ => "") (fun _ => "")) alone
      [.join "10.0.0.9" "5000" numbered, .receive queryAnswer, .checkState 0 (· = some 1),
        .invoke numbered] := by
  intro h
  have hterminal := (((h.2 _ rfl).2 _ rfl).2 _ rfl).1
  exact hterminal.once rfl

end MessageDispatcher

end Peerpaste
