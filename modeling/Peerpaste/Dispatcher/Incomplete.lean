import Peerpaste.Dispatcher.Basic

/-!
This module contains what the dispatcher does with a buffer that is not a complete message.
-/

namespace Peerpaste

namespace MessageFactory

def requestTypes : List String :=
  ["notify", "check_predecessor", "query", "find_successor", "get_successor_list",
    "get_predecessor_and_succ_list", "get_self_and_successor_list",
      "broadcast_filelist", "get_file"]

theorem createFromRequest_eq_none {request : RequestObject}
    (hrequest : request.message.isRequest = true) :
    createFromRequest request = none ↔ request.message.header.requestType ∉ requestTypes := by
  unfold createFromRequest requestTypes
  simp only [hrequest, Bool.not_true, Bool.false_eq_true, if_false, List.mem_cons, List.not_mem_nil,
    or_false]
  grind

end MessageFactory

namespace MessageDispatcher

def invokes (d : MessageDispatcher) : Invocation → Bool
  | .request _ _ => true
  | .response h _ => d.isValid h

structure HasNoEffect (sha256 : String → String) (sha256' : List UInt8 → String)
    (parseFromArray : List UInt8 → proto.Request × Bool) (d : MessageDispatcher) (buf : List UInt8)
    (session : Session) (ids : Nat → String) : Prop where
  noHandler : ∃ message, ProtobufMessageConverter.messageFromSerialized parseFromArray buf
    = some message
    ∧ ∀ invocation, (d.select ⟨message, .session session⟩).2 = some invocation →
      d.invokes invocation = false
  unchanged : ∃ d', d.runInternal sha256 sha256' parseFromArray buf session ids = .ok d'
    ∧ d'.routingTable = d.routingTable ∧ d'.storage = d.storage
      ∧ d'.activeHandlers = d.activeHandlers
    ∧ d'.node.sendQueue = d.node.sendQueue

structure Ignorable (d : MessageDispatcher) (parsed : proto.Request) : Prop where
  chunk : ∀ c, parsed.fileChunk = some c →
    ProtobufMessageConverter.sizeT c.chunkSize ≤ c.data.length + 1
  request : parsed.commonheader.tFlag = true →
    parsed.commonheader.requestType ∉ MessageFactory.requestTypes
  response : parsed.commonheader.tFlag = false → ∀ h ∈ d.activeHandlers,
    h.correlationId = parsed.commonheader.correlationalId →
    h.isPersistent = true ∧ d.isValid h = false

variable {sha256 : String → String} {sha256' : List UInt8 → String}
  {parseFromArray : List UInt8 → proto.Request × Bool} {d : MessageDispatcher} {buf : List UInt8}

theorem exists_messageFromSerialized_iff :
    (∃ message, ProtobufMessageConverter.messageFromSerialized parseFromArray buf = some message)
      ↔
    ∀ c, (parseFromArray buf).1.fileChunk = some c →
      ProtobufMessageConverter.sizeT c.chunkSize ≤ c.data.length + 1 := by
  cases hchunk : (parseFromArray buf).1.fileChunk with
  | none => simp [ProtobufMessageConverter.messageFromSerialized, hchunk]
  | some c =>
    simp only [ProtobufMessageConverter.messageFromSerialized, hchunk,
      ProtobufMessageConverter.fileChunkOf_eq,
      Option.some.injEq, forall_eq']
    split
    . next hsize => simp [hsize]
    . next hsize => simp [hsize]

theorem messageFromSerialized_header {message : Message}
    (h : ProtobufMessageConverter.messageFromSerialized parseFromArray buf = some message) :
    message.header = ProtobufMessageConverter.headerOf (parseFromArray buf).1.commonheader := by
  unfold ProtobufMessageConverter.messageFromSerialized at h
  dsimp only at h
  split at h
  . simp only [Option.pure_def, Option.some.injEq] at h
    rw [← h]
  . simp only [Option.bind_eq_bind, Option.bind_eq_some_iff, Option.pure_def, Option.some.injEq]
      at h
    rcases h with ⟨_, _, h⟩
    rw [← h]

theorem handleResponse_of_not_isValid {h : HandlerObject HandlerFunction Address}
    (hvalid : d.isValid h = false)
    (response : RequestObject) (ids : Nat → String) : d.handleResponse sha256' h response ids =
    .ok d := by
  unfold isValid object? at hvalid
  unfold handleResponse
  dsimp only
  split
  . rfl
  . next hobject hdependency => simp [hobject, hdependency] at hvalid
  . next hobject hdependency =>
    simp only [hobject, hdependency, Option.isSome_map, Option.isSome_eq_false_iff,
      Option.isNone_iff_eq_none]
      at hvalid
    simp only [hvalid]

theorem not_invokes_iff (d : MessageDispatcher) (r : RequestObject) :
    (∀ invocation, (d.select r).2 = some invocation → d.invokes invocation = false)
      ↔
    (r.message.header.tFlag = true → r.message.header.requestType ∉ MessageFactory.requestTypes)
      ∧ (r.message.header.tFlag = false → ∀ h ∈ d.activeHandlers,
          h.correlationId = r.message.header.correlationalId → d.isValid h = false) := by
  have hrequest : r.message.isRequest = r.message.header.tFlag := rfl
  unfold select
  cases hflag : r.message.header.tFlag with
  | true =>
    simp only [hrequest.trans hflag, if_true, forall_const, reduceCtorEq, false_imp_iff, and_true]
    rw [← MessageFactory.createFromRequest_eq_none (hrequest.trans hflag)]
    cases MessageFactory.createFromRequest r with
    | none => simp
    | some type => simp [invokes]
  | false =>
    simp only [hrequest.trans hflag, Bool.false_eq_true, if_false, ConcurrentSet.getAndEraseIf_fst,
      false_imp_iff,
      true_and, forall_const, Option.map_eq_some_iff]
    constructor
    . intro h handler hmem hid
      exact h _ ⟨handler, ConcurrentSet.find_eq_some_iff.mpr ⟨hmem, hid⟩, rfl⟩
    . intro h invocation hinvocation
      rcases hinvocation with ⟨handler, hfind, hinvocation⟩
      rw [ConcurrentSet.find_eq_some_iff] at hfind
      rw [← hinvocation]
      exact h handler hfind.1 hfind.2

theorem select_activeHandlers_iff (d : MessageDispatcher) (r : RequestObject) :
    (d.select r).1.activeHandlers = d.activeHandlers
      ↔
    (r.message.header.tFlag = false → ∀ h ∈ d.activeHandlers,
      h.correlationId = r.message.header.correlationalId → h.isPersistent = true) := by
  -- only the handler of a response can leave the registry, and stays if it is persistent
  have hrequest : r.message.isRequest = r.message.header.tFlag := rfl
  unfold select
  cases hflag : r.message.header.tFlag with
  | true => simp [hrequest.trans hflag]
  | false =>
    simp only [hrequest.trans hflag, Bool.false_eq_true, if_false, forall_const]
    constructor
    . intro heq handler hmem hid
      rw [← heq, ConcurrentSet.mem_getAndEraseIf] at hmem
      simpa using hmem.2 hid
    . intro h
      unfold ConcurrentSet.getAndEraseIf
      split
      . rfl
      . next handler hfind =>
        rw [ConcurrentSet.find_eq_some_iff] at hfind
        simp only [h handler hfind.1 hfind.2, Bool.not_true, Bool.false_eq_true, if_false]

theorem select_fst (d : MessageDispatcher) (r : RequestObject) :
    (d.select r).1 = { d with activeHandlers := (d.select r).1.activeHandlers } := by
  unfold select
  split
  . rfl
  . rfl

theorem runInternal_of_not_invokes {message : Message}
    (hmessage : ProtobufMessageConverter.messageFromSerialized parseFromArray buf = some message)
    (session : Session) (ids : Nat → String)
    (h : ∀ invocation, (d.select ⟨message, .session session⟩).2 = some invocation →
      d.invokes invocation = false) :
    d.runInternal sha256 sha256' parseFromArray buf session ids
      = .ok (d.select ⟨message, .session session⟩).1 := by
  have hfst := select_fst d ⟨message, .session session⟩
  unfold runInternal
  simp only [hmessage, Crash.ofOption, bind, Except.bind]
  split
  . next d' hselect =>
    rw [hselect]
    rfl
  . next d' invocation hselect =>
    rw [hselect] at h hfst ⊢
    have hinvokes := h invocation rfl
    cases invocation with
    | request type request => cases hinvokes
    | response handler response =>
      have hvalid : d'.isValid handler = false := by
        dsimp only at hfst
        rw [hfst]
        exact hinvokes
      exact handleResponse_of_not_isValid hvalid response ids

theorem hasNoEffect_iff (sha256 : String → String) (sha256' : List UInt8 → String)
    (parseFromArray : List UInt8 → proto.Request × Bool) (d : MessageDispatcher) (buf : List UInt8)
    (session : Session) (ids : Nat → String) :
    d.HasNoEffect sha256 sha256' parseFromArray buf session ids
      ↔
    d.Ignorable (parseFromArray buf).1 := by
  constructor
  . intro h
    rcases h.noHandler with ⟨message, hmessage, hinvokes⟩
    rcases h.unchanged with ⟨d', hrun, _, _, hhandlers, _⟩
    rw [runInternal_of_not_invokes hmessage session ids hinvokes, Except.ok.injEq] at hrun
    rw [← hrun, select_activeHandlers_iff] at hhandlers
    rw [not_invokes_iff] at hinvokes
    rw [messageFromSerialized_header hmessage] at hinvokes hhandlers
    constructor
    . exact exists_messageFromSerialized_iff.mp ⟨message, hmessage⟩
    . exact hinvokes.1
    . intro hflag handler hmem hid
      exact ⟨hhandlers hflag handler hmem hid, hinvokes.2 hflag handler hmem hid⟩
  . intro h
    rcases exists_messageFromSerialized_iff.mpr h.chunk with ⟨message, hmessage⟩
    have hinvokes := (not_invokes_iff d ⟨message, .session session⟩).mpr (by
      rw [messageFromSerialized_header hmessage]
      exact ⟨h.request, fun hflag handler hmem hid => (h.response hflag handler hmem hid).2⟩)
    have hhandlers := (select_activeHandlers_iff d ⟨message, .session session⟩).mpr (by
      rw [messageFromSerialized_header hmessage]
      exact fun hflag handler hmem hid => (h.response hflag handler hmem hid).1)
    constructor
    . exact ⟨message, hmessage, hinvokes⟩
    . refine ⟨_, runInternal_of_not_invokes hmessage session ids hinvokes, ?_⟩
      rw [select_fst]
      exact ⟨rfl, rfl, hhandlers, rfl⟩

/--
The node "a" gets a header without the required field `version`, which parsing reports. It answers
the request all the same.
-/
theorem not_hasNoEffect_withoutVersion :
    ¬ (init (fun _ => "") ⟨"a", "10.0.0.1", "4000"⟩
      (StaticStorage.init "a" (by decide))).HasNoEffect (fun _ => "") (fun _ => "")
      (fun _ => (⟨⟨true, 0, 0, "check_predecessor", "t", "", "", none⟩, [], [], none, none⟩, false))
      [10, 30, 8, 1, 16, 0, 24, 0, 34, 17, 99, 104, 101, 99, 107, 95, 112, 114, 101, 100,
        101, 99, 101, 115, 115,
        111, 114, 42, 1, 116, 50, 0]
      ⟨0, "10.0.0.2"⟩ (fun _ => "r") := by
  intro h
  rcases h.noHandler with ⟨message, hmessage, hinvokes⟩
  cases hmessage
  have hinvoked := hinvokes (.request .checkPredecessor _) rfl
  cases hinvoked

end MessageDispatcher

end Peerpaste
