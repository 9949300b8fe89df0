import Peerpaste.Dispatcher.Invariant

/-!
This module contains how a broadcast comes to its end that a node has forwarded and asks for files
of: what tells it that all of them are done, and in which runs it is told.
-/

namespace Peerpaste

namespace ActiveObject

/--
`state_` of a broadcast that is not done yet is DONE from the moment on when the list has been
forwarded.
-/
def Finishes (o : ActiveObject) : Prop :=
  o.type = .broadcastFilelist → o.state = .done → (∀ dep ∈ o.dependencies, dep.isDone = true) →
    o.isDone = true

def Listens (o : ActiveObject) : Prop :=
  o.type = .broadcastFilelist →
    o.flag = true ∧ ∀ dep ∈ o.dependencies, dep.type = .getFile ∧ dep.isEssential = false

instance (o : ActiveObject) : Decidable o.Finishes :=
  inferInstanceAs (Decidable (_ → _ → _ → _))

theorem listens_of_type {o : ActiveObject} (htype : o.type ≠ .broadcastFilelist) :
    o.Listens ∧ o.Finishes :=
  ⟨fun h => absurd h htype, fun h => absurd h htype⟩

theorem Listens.replace {o : ActiveObject} (hlistens : o.Listens) {k : Nat} {dep : DependencyObject}
    {m : MessageObject} (hfind : o.find? k = some dep) (htype : m.type = dep.type) :
    (o.replace k m).Listens := by
  intro hbroadcast
  have h := hlistens hbroadcast
  refine ⟨h.1, ?_⟩
  intro dep' hdep'
  rcases List.mem_map.mp hdep' with ⟨d, hd, heq⟩
  split at heq
  . rw [← heq]
    have hsame := h.2 dep (mem_of_find? hfind).1
    exact ⟨htype.trans hsame.1, (h.2 d hd).2⟩
  . exact heq ▸ h.2 d hd

theorem checkDependencies_of_files {node node' : Node} {expired : Nat → Bool}
    {ds ds' : List DependencyObject} {failed : Bool}
    (hfiles : ∀ dep ∈ ds, dep.type = .getFile ∧ dep.isEssential = false)
    (h : checkDependencies node expired ds = .ok (node', ds', failed)) :
    failed = false ∧ (∀ dep ∈ ds', dep.type = .getFile ∧ dep.isEssential = false)
      ∧ ((∀ dep ∈ ds', dep.isDone = true)
          ↔ ∀ dep ∈ ds, dep.isDone = true ∨ expired dep.number = true) := by
  induction ds generalizing node ds' with
  | nil =>
    cases h
    simp
  | cons d ds ih =>
    rw [List.forall_mem_cons] at hfiles
    rcases hfiles with ⟨⟨htype, hessential⟩, hfiles⟩
    simp only [checkDependencies, hessential, Bool.false_and, Bool.false_eq_true, ↓reduceIte, bind,
      Except.bind, pure, Except.pure] at h
    split at h
    . cases h
    next checked hchecked =>
    split at h
    . cases h
    next rest hrest =>
    cases h
    have hih := ih hfiles hrest
    have hdone : checked.2.isDone = (d.isDone || expired d.number) := by
      unfold MessageObject.checkState at hchecked
      split at hchecked
      . next hisDone =>
        cases hchecked
        simp [hisDone]
      . next hisDone =>
        split at hchecked
        . next hexpired =>
          rw [(MessageObject.handleFailed_fails hchecked).isDone]
          simp [MessageObject.finish, hexpired]
        . next hexpired =>
          cases hchecked
          simp [hisDone, hexpired]
    have hsame := (MessageObject.checkState_checks hchecked).1.type
    simp only [List.forall_mem_cons, hih.1, hih.2.2, hdone, hsame, htype, Bool.or_eq_true, true_and,
      and_true]
    exact hih.2.1

theorem checkState_of_listens {node node' : Node} {expired : Option Nat → Bool}
    {o o' : ActiveObject} (hlistens : o.Listens) (htype : o.type = .broadcastFilelist)
    (h : o.checkState node expired = .ok (node', o')) :
    o'.Listens ∧ (o.Finishes →
      (o'.Finishes
        ↔
      (o.state = .done → o.isDone = false → expired none = false →
        ∃ dep ∈ o.dependencies, dep.isDone = false ∧ expired (some dep.number) = false))) := by
  unfold checkState at h
  split at h
  . next hdone =>
    cases h
    exact ⟨hlistens, fun hfinishes => by simp [hfinishes, hdone]⟩
  next hopen =>
  split at h
  . next hexpired =>
    simp only [bind, Except.bind, pure, Except.pure] at h
    split at h
    . cases h
    next failed hfailed =>
    cases h
    have hdone := (MessageObject.handleFailed_fails hfailed).isDone
    refine ⟨fun _ => hlistens htype, fun _ => ?_⟩
    simp only [hexpired, Bool.true_eq_false, false_implies, implies_true, iff_true]
    exact fun _ _ _ => hdone
  next hexpired =>
  simp only [bind, Except.bind, pure, Except.pure] at h
  split at h
  . cases h
  next checked hchecked =>
  have hfiles := checkDependencies_of_files (hlistens htype).2 hchecked
  rw [hfiles.1] at h
  cases h
  refine ⟨fun _ => ⟨(hlistens htype).1, hfiles.2.1⟩, fun _ => ?_⟩
  unfold Finishes
  dsimp only
  rw [hfiles.2.2]
  simp [htype, hopen, hexpired]

end ActiveObject

def StaticStorage.accepts (s : StaticStorage) (file : FileInfo) : Bool :=
  !s.isBlockedInternal file.fileName && (s.openOutput file.fileName).isSome

namespace MessageDispatcher

def BroadcastFilelist.forwards (rt : RoutingTable Peer) (request : RequestObject) : Bool :=
  match rt.tryGetSelf, rt.tryGetSuccessor with
  | some self, some _ => !request.hasPassed self
  | _, _ => false

/--
Of the files that a node lacks when it forwards a list, one can be opened, unless it lacks none. And
not all files that a broadcast still waits for run out of time, unless the broadcast itself does.
-/
def Wakes (d : MessageDispatcher) : Event → Prop
  | .invoke _ => ∀ request, d.taken = some (.request .broadcastFilelist request) →
    BroadcastFilelist.forwards d.routingTable request = true →
    (∀ file ∈ request.message.files, d.storage.existsInternal file.fileName = true)
      ∨ ∃ file ∈ request.message.files, d.storage.existsInternal file.fileName = false
          ∧ d.storage.accepts file = true
  | .checkState i expired => ∀ o, d.activeMessages i = some o → o.type = .broadcastFilelist →
    o.state = .done → o.isDone = false → expired none = false →
    ∃ dep ∈ o.dependencies, dep.isDone = false ∧ expired (some dep.number) = false
  | _ => True

def Each (P : ActiveObject → Prop) (d : MessageDispatcher) : Prop :=
  ∀ i o, d.activeMessages i = some o → P o

section Each

variable {P : ActiveObject → Prop} {d d' : MessageDispatcher} {i : Nat} {o : ActiveObject}

theorem Each.congr (h : d'.activeMessages = d.activeMessages) : d'.Each P ↔ d.Each P := by
  unfold Each
  rw [h]

theorem Sets.each_iff (h : Sets d d' i o) (hd : d.Each P) : d'.Each P ↔ P o := by
  unfold Each
  rw [h.activeMessages]
  constructor
  . intro hd'
    exact hd' i o (Function.update_self ..)
  . intro ho j o' hj
    rw [Function.update_apply] at hj
    split at hj
    . cases hj
      exact ho
    . exact hd j o' hj

theorem Each.destroy (hd : d.Each P) (i : Nat) (storage : StaticStorage) :
    Each P { d with
      storage := storage, activeMessages := Function.update d.activeMessages i none } := by
  intro j o hj
  dsimp only at hj
  rw [Function.update_apply] at hj
  split at hj
  . cases hj
  . exact hd j o hj

theorem Creates.each_iff (h : Creates d d') (hd : d.Each P) :
    d'.Each P ↔ ∀ o, d'.activeMessages d.next = some o → P o := by
  rcases h with ⟨o, hsets, _⟩
  rw [hsets.each_iff hd]
  simp [hsets.activeMessages]

end Each

namespace BroadcastFilelist

section Requests

variable {s : MessageDispatcher × List DependencyObject} {i : Nat} {target : Peer}
  {ids : Nat → String} {file : FileInfo}

theorem requestFile_cases (s : MessageDispatcher × List DependencyObject) (i : Nat) (target : Peer)
    (ids : Nat → String) (file : FileInfo) :
    let s' := requestFile i target ids s file
    (s.1.storage.existsInternal file.fileName = true ∧ s' = s)
      ∨ (s.1.storage.existsInternal file.fileName = false
          ∧ ∃ dep : DependencyObject, s'.2 = s.2 ++ [dep] ∧ dep.type = .getFile
              ∧ dep.isEssential = false ∧ dep.isDone = !s.1.storage.accepts file
              ∧ (dep.isDone = true → s'.1.storage = s.1.storage)) := by
  intro s'
  cases hexists : s.1.storage.existsInternal file.fileName with
  | true => simp [s', requestFile, hexists]
  | false =>
    right
    simp only [true_and, s', requestFile, hexists, Bool.false_eq_true, ↓reduceIte]
    refine ⟨_, rfl, rfl, rfl, ?_⟩
    rcases s.1.storage.createFile_cases file with
      ⟨hrefused, hstorage, hnone⟩ | ⟨_, hblocked, opened, hopen⟩
    . have haccepts : s.1.storage.accepts file = false := by
        rcases hrefused with h | h | h
        . simp [hexists] at h
        . simp [StaticStorage.accepts, h]
        . simp [StaticStorage.accepts, h]
      simp [GetFile.createRequest, GetFile.ofFileInfo, hnone, hstorage, haccepts, GetFile.finish,
        MessageDispatcher.register, MessageDispatcher.push]
    . have haccepts : s.1.storage.accepts file = true := by
        simp [StaticStorage.accepts, hblocked, hopen]
      simp [GetFile.createRequest, GetFile.ofFileInfo,
        StaticStorage.createFile_of_openOutput hexists hblocked hopen, haccepts]

theorem foldl_requestFile_routingTable (files : List FileInfo) :
    (files.foldl (requestFile i target ids) s).1.routingTable = s.1.routingTable := by
  induction files generalizing s with
  | nil => rfl
  | cons file files ih =>
    rw [List.foldl_cons, ih]
    unfold requestFile
    dsimp only
    split
    . rfl
    . rfl

theorem foldl_requestFile_listens (files : List FileInfo)
    (hs : ∀ dep ∈ s.2, dep.type = .getFile ∧ dep.isEssential = false) :
    ∀ dep ∈ (files.foldl (requestFile i target ids) s).2, dep.type = .getFile
    ∧ dep.isEssential = false := by
  induction files generalizing s with
  | nil => exact hs
  | cons file files ih =>
    apply ih
    rcases requestFile_cases s i target ids file with
      ⟨_, hsame⟩ | ⟨_, dep, hdep, htype, hessential, _⟩
    . rw [hsame]
      exact hs
    . rw [hdep]
      intro dep' hdep'
      cases List.mem_append.mp hdep' with
      | inl hmem => exact hs dep' hmem
      | inr hmem =>
        rw [List.mem_singleton] at hmem
        rw [hmem]
        exact ⟨htype, hessential⟩

theorem foldl_requestFile_eq_nil (files : List FileInfo) :
    (files.foldl (requestFile i target ids) s).2 = []
      ↔
    s.2 = [] ∧ ∀ file ∈ files, s.1.storage.existsInternal file.fileName = true := by
  induction files generalizing s with
  | nil => simp
  | cons file files ih =>
    rw [List.foldl_cons, ih]
    rcases requestFile_cases s i target ids file with ⟨hexists, hsame⟩ | ⟨hexists, dep, hdep, _⟩
    . simp [hsame, hexists]
    . simp [hdep, hexists]

theorem foldl_requestFile_isDone (files : List FileInfo) :
    (∀ dep ∈ (files.foldl (requestFile i target ids) s).2, dep.isDone = true)
      ↔
    (∀ dep ∈ s.2, dep.isDone = true)
      ∧ ∀ file ∈ files, s.1.storage.existsInternal file.fileName = false →
          s.1.storage.accepts file = false := by
  -- only a file that is opened changes the store, so the first one that can be opened still can in
  -- its turn
  induction files generalizing s with
  | nil => simp
  | cons file files ih =>
    rw [List.foldl_cons, ih]
    rcases requestFile_cases s i target ids file
      with ⟨hexists, hsame⟩ | ⟨hexists, dep, hdep, _, _, hdone, hkeeps⟩
    . simp [hsame, hexists]
    . cases haccepts : s.1.storage.accepts file with
      | true => simp [hdep, hdone, haccepts, hexists]
      | false =>
        rw [haccepts] at hdone
        have hstorage := hkeeps hdone
        simp [hdep, hdone, haccepts, hstorage, or_imp, forall_and]

structure Asked (d : MessageDispatcher) (files : List FileInfo)
    (s : MessageDispatcher × List DependencyObject) : Prop where
  routingTable : s.1.routingTable = d.routingTable
  dependency : ∀ dep ∈ s.2, dep.type = .getFile ∧ dep.isEssential = false
  eq_nil : s.2 = [] ↔ ∀ file ∈ files, d.storage.existsInternal file.fileName = true
  isDone : (∀ dep ∈ s.2, dep.isDone = true)
    ↔ ∀ file ∈ files, d.storage.existsInternal file.fileName = false →
      d.storage.accepts file = false

theorem asked (d : MessageDispatcher) (files : List FileInfo) (target : Peer) (ids : Nat → String) :
    Asked d files
      (files.foldl (requestFile d.next target ids) ({ d with next := d.next + 1 }, [])) := by
  refine ⟨foldl_requestFile_routingTable files, foldl_requestFile_listens files (by simp), ?_, ?_⟩
  . rw [foldl_requestFile_eq_nil]
    simp
  . rw [foldl_requestFile_isDone]
    simp

end Requests

variable {d d' : MessageDispatcher} {i : Nat} {o o' : ActiveObject} {request : RequestObject}
  {ids : Nat → String} {state : MessageState}

theorem requestDestruction_activeMessages (d : MessageDispatcher) (i : Nat) (o : ActiveObject)
    (state : MessageState) :
    (d.requestDestruction i o state).activeMessages
      = Function.update d.activeMessages i (some (o.finish state)) := rfl

theorem requestDestruction_object {o₀ : ActiveObject} (hlistens : o₀.Listens)
    (hobject : (d.requestDestruction i o₀ state).activeMessages i = some o) :
    o.Listens ∧ o.Finishes := by
  rw [requestDestruction_activeMessages, Function.update_self, Option.some.injEq] at hobject
  rw [← hobject]
  exact ⟨hlistens, fun _ _ _ => rfl⟩

theorem conclude_object {o₀ : ActiveObject}
    (hobject : (conclude d i o₀ state).activeMessages i = some o) (hlistens : o₀.Listens)
    (htype : o₀.type = .broadcastFilelist) (hopen : o₀.isDone = false) :
    o.Listens
      ∧ (o.Finishes
          ↔
        (state = .done → (∀ dep ∈ o₀.dependencies, dep.isDone = true) → o₀.dependencies = [])) := by
  unfold conclude at hobject
  split at hobject
  . next hnil =>
    have h := requestDestruction_object hlistens hobject
    exact ⟨h.1, iff_of_true h.2 fun _ _ => hnil⟩
  . next hne =>
    unfold MessageDispatcher.set at hobject
    simp only [Function.update_self, Option.some.injEq] at hobject
    rw [← hobject]
    refine ⟨hlistens, ?_⟩
    simp [ActiveObject.Finishes, htype, hopen, hne]

theorem createRequest_object (hobject : (createRequest d ids).activeMessages d.next = some o) :
    o.Listens ∧ o.Finishes := by
  have hnew : ({ type := .broadcastFilelist } : ActiveObject).Listens := fun _ => ⟨rfl, by simp⟩
  unfold createRequest at hobject
  dsimp only at hobject
  split at hobject
  . exact requestDestruction_object hnew hobject
  . split at hobject
    . exact requestDestruction_object hnew hobject
    . exact requestDestruction_object hnew hobject

theorem handleRequest_object
    (hobject : (handleRequest d request ids).activeMessages d.next = some o) :
    o.Listens
      ∧ (o.Finishes
          ↔
        (forwards d.routingTable request = true →
          (∀ file ∈ request.message.files, d.storage.existsInternal file.fileName = true)
            ∨ ∃ file ∈ request.message.files, d.storage.existsInternal file.fileName = false
                ∧ d.storage.accepts file = true)) := by
  have hnew : ({ type := .broadcastFilelist, request := some request } : ActiveObject).Listens :=
    fun _ => ⟨rfl, by simp⟩
  unfold handleRequest at hobject
  dsimp only at hobject
  split at hobject
  . next hself =>
    have h := requestDestruction_object hnew hobject
    have hself : d.routingTable.tryGetSelf = none := hself
    simp [h.1, h.2, forwards, hself]
  next self hself =>
  have hself : d.routingTable.tryGetSelf = some self := hself
  split at hobject
  . next hseen =>
    have h := requestDestruction_object hnew hobject
    cases hsucc : d.routingTable.tryGetSuccessor with
    | none => simp [h.1, h.2, forwards, hself, hsucc]
    | some successor =>
      have hstops : forwards d.routingTable request = false := by
        simp only [forwards, hself, hsucc, RequestObject.hasPassed, hseen, Bool.not_true]
      simp [h.1, h.2, hstops]
  next hnew =>
  -- from here on only what the loop has asked for matters
  have hasked := asked d request.message.files ((request.message.peers ++ [self]).headD self) ids
  revert hasked hobject
  generalize request.message.files.foldl
    (requestFile d.next ((request.message.peers ++ [self]).headD self) ids)
    ({ d with next := d.next + 1 }, []) = s
  intro hobject hasked
  have hwakes : ((∀ dep ∈ s.2, dep.isDone = true) → s.2 = [])
        ↔
      ((∀ file ∈ request.message.files, d.storage.existsInternal file.fileName = true)
        ∨ ∃ file ∈ request.message.files, d.storage.existsInternal file.fileName = false
            ∧ d.storage.accepts file = true) := by
    rw [hasked.isDone, hasked.eq_nil, imp_iff_or_not]
    apply or_congr_right
    simp
  have hlistens : ∀ o₀ : ActiveObject, o₀.flag = true → o₀.dependencies = s.2 → o₀.Listens := by
    intro o₀ hflag hdependencies _
    rw [hdependencies]
    exact ⟨hflag, hasked.dependency⟩
  split at hobject
  . next hsucc =>
    rw [hasked.routingTable] at hsucc
    have h := conclude_object hobject (hlistens _ rfl rfl) rfl rfl
    simp [h.1, h.2, forwards, hself, hsucc]
  . next successor hsucc =>
    rw [hasked.routingTable] at hsucc
    have h := conclude_object hobject (hlistens _ rfl rfl) rfl rfl
    have hforwards : forwards d.routingTable request = true := by
      simp only [forwards, hself, hsucc, RequestObject.hasPassed]
      simpa using hnew
    rw [hforwards]
    simp only [true_implies, ← hwakes]
    exact ⟨h.1, by simpa using h.2⟩

theorem handleNotification_object (hlistens : o.Listens) (htype : o.type = .broadcastFilelist)
    (hobject : (handleNotification d i o).activeMessages i = some o') :
    o'.Listens ∧ o'.Finishes := by
  unfold handleNotification at hobject
  split at hobject
  . exact requestDestruction_object hlistens hobject
  . next hwaits =>
    unfold MessageDispatcher.set at hobject
    simp only [Function.update_self, Option.some.injEq] at hobject
    rw [← hobject]
    refine ⟨hlistens, ?_⟩
    intro _ _ hall
    rw [(hlistens htype).1, Bool.true_and, List.all_eq_true] at hwaits
    exact absurd hall hwaits

end BroadcastFilelist

section Creation

variable {sha256 : String → String} {type : MessageType} {d d' : MessageDispatcher}
  {o : ActiveObject} {request : RequestObject} {ids : Nat → String}

theorem Join.createRequest_type {address port : String}
    (hobject : (Join.createRequest d address port ids).activeMessages d.next = some o) :
    o.type = .join := by
  simp only [Join.createRequest, MessageDispatcher.start, MessageDispatcher.set,
    Function.update_self, Option.some.injEq] at hobject
  rw [← hobject]

theorem Stabilize.createRequest_type
    (hobject : (Stabilize.createRequest d ids).activeMessages d.next = some o) :
    o.type = .stabilize := by
  unfold Stabilize.createRequest at hobject
  dsimp only at hobject
  split at hobject
  . simp only [Stabilize.fail, BroadcastFilelist.requestDestruction_activeMessages,
      Function.update_self, Option.some.injEq] at hobject
    rw [← hobject]
    rfl
  . simp only [MessageDispatcher.start, MessageDispatcher.set, Function.update_self,
      Option.some.injEq] at hobject
    rw [← hobject]

theorem CheckPredecessor.createRequest_type
    (hobject : (CheckPredecessor.createRequest d ids).activeMessages d.next = some o) :
    o.type = .checkPredecessor := by
  unfold CheckPredecessor.createRequest at hobject
  dsimp only at hobject
  split at hobject
  . simp only [BroadcastFilelist.requestDestruction_activeMessages, Function.update_self,
      Option.some.injEq] at hobject
    rw [← hobject]
    rfl
  . simp only [MessageDispatcher.set, Function.update_self, Option.some.injEq] at hobject
    rw [← hobject]

theorem handled_activeMessages (d : MessageDispatcher) (i : Nat) (o : ActiveObject) (h : Handled) :
    (d.handled i o h).activeMessages
      = Function.update d.activeMessages i
        (some { o with state := h.state, isDone := h.isDone }) := by
  unfold handled
  dsimp only
  split
  . rfl
  . rfl

theorem handleRequest_type (hfresh : d.activeMessages d.next = none)
    (htype : type ≠ .broadcastFilelist) (hok : d.handleRequest sha256 type request ids = .ok d')
    (hobject : d'.activeMessages d.next = some o) : o.type = type := by
  have hhandled (d₀ : MessageDispatcher) (o₀ : ActiveObject) (h : Handled) (ho₀ : o₀.type = type)
      (hobject : (d₀.handled d.next o₀ h).activeMessages d.next = some o) : o.type = type := by
    rw [handled_activeMessages, Function.update_self, Option.some.injEq] at hobject
    rw [← hobject]
    exact ho₀
  unfold handleRequest at hok
  dsimp only at hok
  split at hok
  . cases hok
    exact hhandled _ _ _ rfl hobject
  . cases hok
    exact hhandled _ _ _ rfl hobject
  . simp only [bind, Except.bind] at hok
    split at hok
    . cases hok
    . cases hok
      exact hhandled _ _ _ rfl hobject
  . simp only [bind, Except.bind] at hok
    split at hok
    . cases hok
    . cases hok
      exact hhandled _ _ _ rfl hobject
  . cases hok
    exact hhandled _ _ _ rfl hobject
  . cases hok
    exact hhandled _ _ _ rfl hobject
  . cases hok
    exact hhandled _ _ _ rfl hobject
  . exact absurd rfl htype
  . simp only [bind, Except.bind] at hok
    split at hok
    . cases hok
    . cases hok
      split at hobject
      . simp only [sweep, MessageDispatcher.set, Function.update_self, Option.some.injEq] at hobject
        rw [← hobject]
        rfl
      . simp only [MessageDispatcher.set, Function.update_self, Option.some.injEq] at hobject
        rw [← hobject]
        rfl
  . cases hok
    rw [hfresh] at hobject
    cases hobject

end Creation

section Response

variable {sha256 : List UInt8 → String} {d d' : MessageDispatcher} {o o' : ActiveObject}
  {h : HandlerObject HandlerFunction Address} {response : RequestObject} {ids : Nat → String}

theorem getFile_notifies {node : Node} {storage : StaticStorage} {m : MessageObject}
    {function : HandlerFunction} {transactionId : String} {r : Responded}
    (htype : m.type = .getFile)
    (hcall : m.call sha256 node storage function response transactionId = .ok r) :
    r.notifies = true := by
  cases function with
  | handleResponse =>
    simp only [MessageObject.call, MessageObject.handleResponse, htype, bind, Except.bind] at hcall
    split at hcall
    . cases hcall
    . split at hcall
      . cases hcall
      . cases hcall
        rfl
  | handleForwardedResponse =>
    simp only [MessageObject.call, MessageObject.handleForwardedResponse, bind, Except.bind]
      at hcall
    split at hcall
    . cases hcall
      rfl
    . split at hcall
      . cases hcall
      . cases hcall
        rfl

theorem broadcast_call {node : Node} {storage : StaticStorage} {m : MessageObject}
    {function : HandlerFunction} {transactionId : String} {r : Responded}
    (htype : m.type = .broadcastFilelist)
    (hcall : m.call sha256 node storage function response transactionId = .ok r) :
    r.object = m ∨ r.object.isDone = true := by
  cases function with
  | handleResponse =>
    simp only [MessageObject.call, MessageObject.handleResponse, htype] at hcall
    cases hcall
    exact .inl rfl
  | handleForwardedResponse =>
    simp only [MessageObject.call, MessageObject.handleForwardedResponse, bind, Except.bind]
      at hcall
    split at hcall
    . cases hcall
      exact .inr rfl
    . split at hcall
      . cases hcall
      . cases hcall
        exact .inr rfl

theorem call_object {node : Node} {storage : StaticStorage} {function : HandlerFunction}
    {transactionId : String} {r : Responded} (hlistens : o.Listens) (hfinishes : o.Finishes)
    (hcall : o.toMessageObject.call sha256 node storage function response transactionId = .ok r) :
    ActiveObject.Listens { o with toMessageObject := r.object }
      ∧ ActiveObject.Finishes { o with toMessageObject := r.object } := by
  have htype := (call_responds hcall).type
  by_cases hbroadcast : o.type = .broadcastFilelist
  . refine ⟨fun _ => hlistens hbroadcast, ?_⟩
    cases broadcast_call hbroadcast hcall with
    | inl hsame =>
      rw [hsame]
      exact hfinishes
    | inr hdone => exact fun _ _ _ => hdone
  . exact ActiveObject.listens_of_type (htype ▸ hbroadcast)

theorem handleResponse_object (hd : Valid d) (hlistens : d.Each ActiveObject.Listens)
    (hfinishes : d.Each ActiveObject.Finishes)
    (hok : d.handleResponse sha256 h response ids = .ok d')
    (hobject : d'.activeMessages h.parent.object = some o') : o'.Listens ∧ o'.Finishes := by
  unfold handleResponse at hok
  dsimp only at hok
  split at hok
  . cases hok
    exact ⟨hlistens _ _ hobject, hfinishes _ _ hobject⟩
  . next o ho _ =>
    simp only [bind, Except.bind, pure, Except.pure] at hok
    split at hok
    . cases hok
    next r hcall =>
    have ho' : o' = { o with toMessageObject := r.object } := by
      cases hok
      split at hobject
      . simpa [sweep, MessageDispatcher.set, eq_comm] using hobject
      . simpa [MessageDispatcher.set, eq_comm] using hobject
    rw [ho']
    exact call_object (hlistens _ _ ho) (hfinishes _ _ ho) hcall
  . next o k ho _ =>
    split at hok
    . cases hok
      exact ⟨hlistens _ _ hobject, hfinishes _ _ hobject⟩
    next dep hfind =>
    simp only [bind, Except.bind, pure, Except.pure] at hok
    split at hok
    . cases hok
    next r hcall =>
    have hlistens' : (o.replace k r.object).Listens :=
      ActiveObject.Listens.replace (hlistens _ _ ho) hfind (call_responds hcall).type
    by_cases hbroadcast : o.type = .broadcastFilelist
    . have hfile := ((hlistens _ _ ho) hbroadcast).2 dep (ActiveObject.mem_of_find? hfind).1
      have htype : (o.replace k r.object).type = .broadcastFilelist := hbroadcast
      rw [if_pos (getFile_notifies hfile.1 hcall)] at hok
      simp only [handleNotification, htype] at hok
      cases hok
      exact BroadcastFilelist.handleNotification_object hlistens' htype hobject
    . apply ActiveObject.listens_of_type
      split at hok
      . have hrequest : { d with node := r.node, storage := r.storage }.Replaces h.parent.object
            (o.replace k r.object) := .inr ⟨o, ho, rfl⟩
        rcases handleNotification_advances (.refl _) hrequest (hd.object _ _ ho).1 hok
          with ⟨o'', hproceeds, hsets⟩
        rw [hsets.activeMessages, Function.update_self, Option.some.injEq] at hobject
        rw [← hobject, hproceeds.type]
        exact hbroadcast
      . cases hok
        simp only [MessageDispatcher.set, Function.update_self, Option.some.injEq] at hobject
        rw [← hobject]
        exact hbroadcast

end Response

section Step

variable {sha256 : String → String} {sha256' : List UInt8 → String}
  {d d' : MessageDispatcher} {e : Event}

theorem Creates.awake (h : Creates d d') (hlistens : d.Each ActiveObject.Listens)
    (hfinishes : d.Each ActiveObject.Finishes)
    (hobject : ∀ o, d'.activeMessages d.next = some o → o.Listens ∧ o.Finishes) :
    d'.Each ActiveObject.Listens ∧ d'.Each ActiveObject.Finishes :=
  ⟨(h.each_iff hlistens).mpr fun o ho => (hobject o ho).1,
    (h.each_iff hfinishes).mpr fun o ho => (hobject o ho).2⟩

theorem Creates.awake_of_type (h : Creates d d') (hlistens : d.Each ActiveObject.Listens)
    (hfinishes : d.Each ActiveObject.Finishes)
    (htype : ∀ o, d'.activeMessages d.next = some o → o.type ≠ .broadcastFilelist) :
    d'.Each ActiveObject.Listens ∧ d'.Each ActiveObject.Finishes :=
  h.awake hlistens hfinishes fun o ho => ActiveObject.listens_of_type (htype o ho)

theorem invoke_request_finishes_iff {type : MessageType} {request : RequestObject}
    {ids : Nat → String} (hd : Valid d) (hlistens : d.Each ActiveObject.Listens)
    (hfinishes : d.Each ActiveObject.Finishes)
    (htaken : d.taken = some (.request type request))
    (hok : { d with taken := none }.handleRequest sha256 type request ids = .ok d') :
    d'.Each ActiveObject.Listens ∧ (d.Wakes (.invoke ids) ↔ d'.Each ActiveObject.Finishes) := by
  simp only [Wakes, htaken, Option.some.injEq, Invocation.request.injEq]
  by_cases htype : type = .broadcastFilelist
  . subst htype
    cases hok
    have hcreates : Creates { d with taken := none }
        (BroadcastFilelist.handleRequest { d with taken := none } request ids) :=
      BroadcastFilelist.handleRequest_creates
    rcases hcreates with ⟨o, hsets, _⟩
    have ho : (BroadcastFilelist.handleRequest { d with taken := none } request ids).activeMessages
        d.next
        = some o := by
      rw [hsets.activeMessages, Function.update_self]
    have h := BroadcastFilelist.handleRequest_object (d := { d with taken := none }) ho
    rw [hsets.each_iff hlistens, hsets.each_iff hfinishes, h.2]
    refine ⟨h.1, ?_⟩
    simp only [true_and, forall_eq']
    rfl
  . have hawake : d'.Each ActiveObject.Listens ∧ d'.Each ActiveObject.Finishes := by
      cases handleRequest_creates hok with
      | inl hsame => exact hsame ▸ ⟨hlistens, hfinishes⟩
      | inr hcreates =>
        apply hcreates.awake hlistens hfinishes
        intro o ho
        apply ActiveObject.listens_of_type
        rw [handleRequest_type hd.idle.fresh htype hok ho]
        exact htype
    refine ⟨hawake.1, iff_of_true ?_ hawake.2⟩
    intro request' hrequest'
    exact absurd hrequest'.1 htype

theorem handleResponse_awake {h : HandlerObject HandlerFunction Address} {response : RequestObject}
    {ids : Nat → String} (hd : Valid d) (hlistens : d.Each ActiveObject.Listens)
    (hfinishes : d.Each ActiveObject.Finishes)
    (hok : d.handleResponse sha256' h response ids = .ok d') :
    d'.Each ActiveObject.Listens ∧ d'.Each ActiveObject.Finishes := by
  have hsets : ∀ o', Sets d d' h.parent.object o' →
      d'.Each ActiveObject.Listens ∧ d'.Each ActiveObject.Finishes := by
    intro o' hsets
    rw [hsets.each_iff hlistens, hsets.each_iff hfinishes]
    apply handleResponse_object hd hlistens hfinishes hok
    rw [hsets.activeMessages, Function.update_self]
  cases handleResponse_handles hd hok with
  | gone => exact ⟨hlistens, hfinishes⟩
  | object o r _ _ _ h => exact hsets _ h
  | dependency o o' k dep r _ _ _ _ _ h => exact hsets _ h

theorem checkState_finishes_iff {node : Node} {i : Nat} {o o' : ActiveObject}
    {expired : Option Nat → Bool} (hd : Valid d) (hlistens : d.Each ActiveObject.Listens)
    (hfinishes : d.Each ActiveObject.Finishes) (hobject : d.activeMessages i = some o)
    (hcheck : o.checkState d.node expired = .ok (node, o')) :
    ({ d with node := node }.set i o').Each ActiveObject.Listens
      ∧ (d.Wakes (.checkState i expired)
          ↔ ({ d with node := node }.set i o').Each ActiveObject.Finishes) := by
  have hsets := checkState_sets hd hobject hcheck
  rw [hsets.each_iff hlistens, hsets.each_iff hfinishes]
  simp only [Wakes, hobject, Option.some.injEq, forall_eq']
  by_cases htype : o.type = .broadcastFilelist
  . have h := ActiveObject.checkState_of_listens (hlistens _ _ hobject) htype hcheck
    refine ⟨h.1, ?_⟩
    rw [h.2 (hfinishes _ _ hobject)]
    simp [htype]
  . have h := ActiveObject.listens_of_type ((ActiveObject.checkState_checks hcheck).1.type ▸ htype)
    exact ⟨h.1, iff_of_true (fun hbroadcast => absurd hbroadcast htype) h.2⟩

theorem step_finishes_iff (hd : Valid d) (hlistens : d.Each ActiveObject.Listens)
    (hfinishes : d.Each ActiveObject.Finishes) (hstep : d.step sha256 sha256' e = some (.ok d')) :
    d'.Each ActiveObject.Listens ∧ (d.Wakes e ↔ d'.Each ActiveObject.Finishes) := by
  cases e with
  | join address port ids =>
    cases hstep
    have hcreates : Creates d (Join.createRequest d address port ids) :=
      Join.createRequest_creates address port
    have h := hcreates.awake_of_type hlistens hfinishes fun o ho => by
      simp [Join.createRequest_type ho]
    exact ⟨h.1, iff_of_true trivial h.2⟩
  | stabilize ids =>
    unfold step at hstep
    dsimp only at hstep
    split at hstep
    . cases hstep
    . cases hstep
      have hcreates : Creates d (Stabilize.createRequest d ids) := Stabilize.createRequest_creates
      have h := hcreates.awake_of_type hlistens hfinishes fun o ho => by
        simp [Stabilize.createRequest_type ho]
      exact ⟨h.1, iff_of_true trivial h.2⟩
  | checkPredecessor ids =>
    unfold step at hstep
    dsimp only at hstep
    split at hstep
    . cases hstep
    . cases hstep
      have hcreates : Creates d (CheckPredecessor.createRequest d ids) :=
        CheckPredecessor.createRequest_creates
      have h := hcreates.awake_of_type hlistens hfinishes fun o ho => by
        simp [CheckPredecessor.createRequest_type ho]
      exact ⟨h.1, iff_of_true trivial h.2⟩
  | broadcastFilelist ids =>
    cases hstep
    have hcreates : Creates d (BroadcastFilelist.createRequest d ids) :=
      BroadcastFilelist.createRequest_creates
    have h := hcreates.awake hlistens hfinishes fun o ho =>
      BroadcastFilelist.createRequest_object ho
    exact ⟨h.1, iff_of_true trivial h.2⟩
  | receive message =>
    unfold step at hstep
    dsimp only at hstep
    split at hstep
    . cases hstep
    . cases hstep
      have hsame : (d.select message).1.activeMessages = d.activeMessages := by
        unfold select
        split
        . rfl
        . rfl
      exact ⟨(Each.congr hsame).mpr hlistens,
        iff_of_true trivial ((Each.congr hsame).mpr hfinishes)⟩
  | invoke ids =>
    rcases Option.map_eq_some_iff.mp hstep with ⟨invocation, htaken, hok⟩
    cases invocation with
    | request type request => exact invoke_request_finishes_iff hd hlistens hfinishes htaken hok
    | response h response =>
      have hawake := handleResponse_awake hd.idle hlistens hfinishes hok
      refine ⟨hawake.1, iff_of_true ?_ hawake.2⟩
      intro request hrequest
      rw [htaken] at hrequest
      cases hrequest
  | checkState i expired =>
    rcases Option.map_eq_some_iff.mp hstep with ⟨o, hobject, hok⟩
    simp only [bind, Except.bind, pure, Except.pure] at hok
    split at hok
    . cases hok
    . next checked hcheck =>
      cases hok
      exact checkState_finishes_iff hd hlistens hfinishes hobject hcheck
  | destroy i =>
    rcases Option.bind_eq_some_iff.mp hstep with ⟨o, hobject, hok⟩
    split at hok
    . rw [Option.some.injEq] at hok
      rcases destroy_eq_ok hok with ⟨storage, heq⟩
      rw [heq]
      exact ⟨hlistens.destroy i storage, iff_of_true trivial (hfinishes.destroy i storage)⟩
    . cases hok

theorem wakes_of_step_eq_none (hd : Valid d) (hstep : d.next? sha256 sha256' e = none) :
    d.Wakes e := by
  cases e with
  | invoke ids =>
    intro request htaken
    simp [next?, step, htaken, MessageDispatcher.invoke, handleRequest, Except.toOption] at hstep
  | checkState i expired =>
    intro o hobject
    rcases ActiveObject.checkState_of_proper d.node expired (hd.object i o hobject).2 with ⟨r, hr⟩
    simp [next?, step, hobject, hr, bind, Except.bind, pure, Except.pure, Except.toOption] at hstep
  | _ => trivial

theorem finishes_iff (sha256 : String → String) (sha256' : List UInt8 → String) (self : Peer)
    (disk : StaticStorage) (events : List Event) :
    Run.Along (next? sha256 sha256') Wakes (init sha256' self disk) events
      ↔
    ∀ pre, pre <+: events → ∀ d,
      Run.exec (next? sha256 sha256') (init sha256' self disk) pre = some d →
      d.Each ActiveObject.Finishes := by
  have hnone (d : MessageDispatcher) (e : Event) (hInv : Valid d ∧ d.Each ActiveObject.Listens)
      (hstep : d.next? sha256 sha256' e = none) : d.Wakes e := wakes_of_step_eq_none hInv.1 hstep
  have hstep (d : MessageDispatcher) (e : Event) (d' : MessageDispatcher)
      (hInv : Valid d ∧ d.Each ActiveObject.Listens) (hfinishes : d.Each ActiveObject.Finishes)
      (hstep : d.next? sha256 sha256' e = some d') :
      (Valid d' ∧ d'.Each ActiveObject.Listens) ∧ (d.Wakes e ↔ d'.Each ActiveObject.Finishes) := by
    rw [next?_eq_some] at hstep
    have hnext := step_finishes_iff hInv.1 hInv.2 hfinishes hstep
    exact ⟨⟨(step_stepsTo hInv.1 hstep).valid hInv.1, hnext.1⟩, hnext.2⟩
  apply Run.along_iff_of_step hnone hstep
  . exact ⟨init_valid sha256' self disk, fun i o ho => nomatch ho⟩
  . exact fun i o ho => nomatch ho

def listOf (fileName : String) : RequestObject where
  message :=
    { Message.createRequest "broadcast_filelist" [⟨"b", "10.0.0.2", "4000"⟩] "t" with
      files := [⟨fileName, "", 8, 0⟩] }
  connection := .session ⟨0, "10.0.0.2"⟩

/--
The node gets the list again while it is still receiving the file. The second broadcast asks for the
file in vain, is forwarded, and waits for nothing that could tell it so.
-/
theorem not_finishes_of_blocked :
    ∃ d, Run.exec (next? (fun _ => "") (fun _ => "")) alone
        [.receive (listOf "f"), .invoke fun _ => "t", .receive (listOf "f"), .invoke fun _ => "t"]
          = some d
      ∧ ¬ d.Each ActiveObject.Finishes := by
  have hwaits : ((Run.exec (next? (fun _ => "") (fun _ => "")) alone
      [.receive (listOf "f"), .invoke fun _ => "t", .receive (listOf "f"),
        .invoke fun _ => "t"]).bind (·.activeMessages 2)).map (fun o => decide o.Finishes)
          = some false := by
    decide
  rcases Option.map_eq_some_iff.mp hwaits with ⟨o, ho, hdecide⟩
  rcases Option.bind_eq_some_iff.mp ho with ⟨d, hexec, hobject⟩
  refine ⟨d, hexec, ?_⟩
  intro hfinishes
  exact of_decide_eq_false hdecide (hfinishes 2 o hobject)

end Step

end MessageDispatcher

end Peerpaste
