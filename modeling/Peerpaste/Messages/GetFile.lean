import Peerpaste.Messages.Basic
import Peerpaste.Storage.Basic

/-!
This module contains the `GetFile` message: the receiver that stores the chunks of a file and the
sender that answers a request with one chunk after the other.
-/

namespace Peerpaste

open FileSystem

/--
The object of either side, which sets only the fields of its side.
-/
structure GetFile where
  target : Option Peer := none
  fileInfo : Option FileInfo := none
  request : Option RequestObject := none
  sourceFile : Option Ifstream := none
  outputFile : Option OfstreamWrapper := none
  fileSize : Nat := 0
  state : MessageState := .valid
  isDone : Bool := false
  deriving DecidableEq, Repr

namespace GetFile

structure Handled where
  storage : StaticStorage
  getFile : GetFile
  notified : Option RequestObject := none

def ofFileInfo (target : Peer) (fileInfo : FileInfo) : GetFile where
  target := some target
  fileInfo := some fileInfo

def ofRequest (request : RequestObject) : GetFile where
  request := some request

def finish (g : GetFile) (state : MessageState) : GetFile :=
  { g with state := state, isDone := true }

def streamsize (n : Nat) : Int :=
  if n < maxOffset then n else n - 2 * maxOffset

def createRequest (s : StaticStorage) (g : GetFile) (transactionId : String) : Handled :=
  match g.target, g.fileInfo with
  | some target, some fileInfo =>
    let created := s.createFile fileInfo
    let g := { g with fileInfo := some created.2.1, fileSize := created.2.1.fileSize }
    match created.2.2 with
    | none => ⟨created.1, g.finish .failed, none⟩
    | some outputFile =>
      let message : Message :=
        { Message.createRequest "get_file" [] transactionId with files := [created.2.1] }
      ⟨created.1, { g with outputFile := some outputFile }, some ⟨message, .peer target⟩⟩
  | _, _ => ⟨s, g.finish .failed, none⟩

def writeBuffer (request : RequestObject) (data : List UInt8) (offset : Nat)
    (transactionId : String) : RequestObject where
  message := { request.message.generateResponse transactionId with
    fileChunk := some ⟨data.length, offset, data⟩ }
  connection := request.connection

/--
The handler of a finished write, which goes on with the next chunk. A failed write does not stop it.
-/
def writeFile (s : StaticStorage) (g : GetFile) (failed : Bool) (transactionId : String) :
    Handled :=
  let g := if failed then g.finish .failed else g
  match g.request, g.sourceFile with
  | some request, some source =>
    if source.fail then
      ⟨s, g, none⟩
    else
      let read := source.read s.fs FileChunk.defaultBufSize
      let g := { g with sourceFile := some read.1 }
      if read.1.fail && !read.1.eof then
        ⟨s, g.finish .failed, none⟩
      else
        ⟨s, g, some (writeBuffer request read.2 source.pos transactionId)⟩
  | _, _ => ⟨s, g, none⟩

/--
`none` if the request names no file, as the first element of an empty vector is taken then.
-/
def handleRequest (s : StaticStorage) (g : GetFile) (transactionId : String) : Option Handled :=
  match g.request with
  | none => some ⟨s, g.finish .failed, none⟩
  | some request =>
    match request.message.files with
    | [] => none
    | fileInfo :: _ =>
      if !s.existsInternal fileInfo.fileName then
        some ⟨s, g.finish .failed, none⟩
      else
        match s.readFile fileInfo with
        | none => some ⟨s, g.finish .failed, none⟩
        | some source =>
          let source := (source.seekEnd s.fs).seekg fileInfo.offset
          some (writeFile s { g with sourceFile := some source } false transactionId)

def finalize (sha256 : List UInt8 → String) (s : StaticStorage) (g : GetFile) : Option Handled :=
  match g.fileInfo with
  | none => none
  | some fileInfo =>
    let finalized := s.finalizeFile sha256 fileInfo
    some ⟨finalized.1, g.finish (if finalized.2 then .done else .failed), none⟩

/--
`none` if the response has no chunk, as the value of an empty optional is taken then. An object that
is not done reads the next response.
-/
def handleResponse (sha256 : List UInt8 → String) (s : StaticStorage) (g : GetFile)
    (response : RequestObject) : Option Handled :=
  match g.outputFile with
  | none => some ⟨s, g.finish .failed, none⟩
  | some outputFile =>
    if response.message.isRequest then
      some ⟨s, g.finish .failed, none⟩
    else if outputFile.ofstream.fail then
      some ⟨s, g.finish .failed, none⟩
    else
      match response.message.fileChunk with
      | none => none
      | some chunk =>
        let written := outputFile.write s chunk
        let g := { g with outputFile := some written.2 }
        if written.2.ofstream.tellp < streamsize g.fileSize then
          some ⟨written.1, g, none⟩
        else
          finalize sha256 written.1 g

theorem finalize_of_fileInfo {g : GetFile} {fileInfo : FileInfo} (h : g.fileInfo = some fileInfo)
    (sha256 : List UInt8 → String) (s : StaticStorage) :
    g.finalize sha256 s =
      some ⟨(s.finalizeFile sha256 fileInfo).1,
        g.finish (if (s.finalizeFile sha256 fileInfo).2 then .done else .failed), none⟩ := by
  simp [finalize, h]

section CreateRequest

variable {s s' : StaticStorage} {fileInfo info : FileInfo}
  {outputFile : OfstreamWrapper} (target : Peer) (transactionId : String)

theorem createRequest_of_none (h : (s.createFile fileInfo).2.2 = none) :
    ((ofFileInfo target fileInfo).createRequest s transactionId).storage = (s.createFile fileInfo).1
      ∧
    ((ofFileInfo target fileInfo).createRequest s transactionId).getFile.outputFile = none := by
  unfold createRequest
  simp [ofFileInfo, finish, h]

theorem createRequest_of_some (h : s.createFile fileInfo = (s', info, some outputFile)) :
    ((ofFileInfo target fileInfo).createRequest s transactionId).storage = s'
      ∧
    ((ofFileInfo target fileInfo).createRequest s transactionId).getFile.outputFile
      = some outputFile
      ∧
    ((ofFileInfo target fileInfo).createRequest s transactionId).getFile.fileInfo = some info := by
  unfold createRequest
  simp [ofFileInfo, h]

end CreateRequest

def accepts (g : GetFile) (response : RequestObject) : Option (OfstreamWrapper × FileChunk) :=
  match g.outputFile, response.message.fileChunk with
  | some outputFile, some chunk =>
    if response.message.isRequest || outputFile.ofstream.fail then
      none
    else
      some (outputFile, chunk)
  | _, _ => none

theorem accepts_outputFile {g : GetFile} {response : RequestObject} {w : OfstreamWrapper}
    {chunk : FileChunk} (h : g.accepts response = some (w, chunk)) : g.outputFile = some w := by
  unfold accepts at h
  split at h
  . rename_i outputFile chunk' houtput _
    split at h
    . cases h
    . cases h
      exact houtput
  . cases h

theorem accepts_fileChunk {g : GetFile} {response : RequestObject} {w : OfstreamWrapper}
    {chunk : FileChunk} (h : g.accepts response = some (w, chunk)) :
    response.message.fileChunk = some chunk := by
  unfold accepts at h
  split at h
  . rename_i outputFile chunk' _ hchunk
    split at h
    . cases h
    . cases h
      exact hchunk
  . cases h

inductive Receives (sha256 : List UInt8 → String) (s : StaticStorage) (g : GetFile)
    (response : RequestObject) : Handled → Prop where
  | refused (haccepts : g.accepts response = none) :
    Receives sha256 s g response ⟨s, g.finish .failed, none⟩
  | written (w : OfstreamWrapper) (chunk : FileChunk)
      (haccepts : g.accepts response = some (w, chunk)) :
    Receives sha256 s g response ⟨(w.write s chunk).1,
      { g with outputFile := some (w.write s chunk).2 }, none⟩
  | finalized (w : OfstreamWrapper) (chunk : FileChunk) (info : FileInfo)
      (haccepts : g.accepts response = some (w, chunk)) (hinfo : g.fileInfo = some info) :
    Receives sha256 s g response
      ⟨((w.write s chunk).1.finalizeFile sha256 info).1,
        { g with outputFile := some (w.write s chunk).2 }.finish
          (if ((w.write s chunk).1.finalizeFile sha256 info).2 then .done else .failed), none⟩

theorem handleResponse_receives {sha256 : List UInt8 → String} {s : StaticStorage} {g : GetFile}
    {response : RequestObject} {handled : Handled}
    (h : g.handleResponse sha256 s response = some handled) :
    Receives sha256 s g response handled := by
  unfold handleResponse at h
  cases houtput : g.outputFile with
  | none =>
    simp only [houtput, Option.some.injEq] at h
    subst h
    exact .refused (by simp [accepts, houtput])
  | some w =>
    simp only [houtput] at h
    cases hrequest : response.message.isRequest with
    | true =>
      simp only [hrequest, if_true, Option.some.injEq] at h
      subst h
      apply Receives.refused
      cases hchunk : response.message.fileChunk <;> simp [accepts, houtput, hchunk, hrequest]
    | false =>
      cases hfail : w.ofstream.fail with
      | true =>
        simp only [hrequest, hfail, Bool.false_eq_true, if_false, if_true, Option.some.injEq] at h
        subst h
        apply Receives.refused
        cases hchunk : response.message.fileChunk <;> simp [accepts, houtput, hchunk, hfail]
      | false =>
        cases hchunk : response.message.fileChunk with
        | none => simp [hrequest, hfail, hchunk] at h
        | some chunk =>
          have haccepts : g.accepts response = some (w, chunk) := by
            simp [accepts, houtput, hchunk, hrequest, hfail]
          simp only [hrequest, hfail, hchunk, Bool.false_eq_true, if_false] at h
          split at h
          . simp only [Option.some.injEq] at h
            subst h
            exact .written w chunk haccepts
          . cases hinfo : g.fileInfo with
            | none => simp [finalize, hinfo] at h
            | some info =>
              rw [finalize_of_fileInfo (by exact hinfo), Option.some.injEq] at h
              subst h
              exact .finalized w chunk info haccepts hinfo

theorem handleResponse_cases {sha256 : List UInt8 → String} {s : StaticStorage} {g : GetFile}
    {response : RequestObject} {handled : Handled}
    (h : g.handleResponse sha256 s response = some handled) :
    handled.getFile.fileInfo = g.fileInfo
      ∧
    ((g.accepts response = none ∧ handled.storage = s ∧ handled.getFile.outputFile = g.outputFile)
      ∨
    ∃ w chunk, g.accepts response = some (w, chunk)
      ∧ handled.getFile.outputFile = some (w.write s chunk).2
      ∧ (handled.storage = (w.write s chunk).1
        ∨ ∃ info, g.fileInfo = some info
          ∧ handled.storage = ((w.write s chunk).1.finalizeFile sha256 info).1)) := by
  cases handleResponse_receives h with
  | refused haccepts => exact ⟨rfl, Or.inl ⟨haccepts, rfl, rfl⟩⟩
  | written w chunk haccepts => exact ⟨rfl, Or.inr ⟨w, chunk, haccepts, rfl, Or.inl rfl⟩⟩
  | finalized w chunk info haccepts hinfo =>
    exact ⟨rfl, Or.inr ⟨w, chunk, haccepts, rfl, Or.inr ⟨info, hinfo, rfl⟩⟩⟩

end GetFile

end Peerpaste
