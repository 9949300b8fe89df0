import Peerpaste.Messages.GetFile
import Peerpaste.Run.Basic

/-!
This module contains the download of one file from a sender, which can be cut off and resumed: what
a chunk, a new attempt and a cut do.
-/

namespace Peerpaste

open FileSystem

/--
The receiver's store, the objects of the current attempt on either side and the response that the
sender has on its way.
-/
structure Download where
  receiver : StaticStorage
  getFile : Option GetFile := none
  sender : Option GetFile := none
  inFlight : Option RequestObject := none
  deriving DecidableEq

namespace Download

inductive Event where
  | attempt (session : Session) (transactionId : String)
  | chunk (transactionId : String)
  | cut
  deriving DecidableEq, Repr

/--
A new attempt asks for the announced file. It needs that the object of the one before is destroyed
and that `create_file` returns a stream.
-/
def attempt (source : StaticStorage) (target : Peer) (fileInfo : FileInfo) (d : Download)
    (session : Session) (transactionId : String) : Option Download :=
  match d.getFile with
  | some _ => none
  | none => do
    let created := (GetFile.ofFileInfo target fileInfo).createRequest d.receiver transactionId
    let request ← created.notified
    let answered ←
      (GetFile.ofRequest ⟨request.message, .session session⟩).handleRequest source transactionId
    return {
      receiver := created.storage
      getFile := some created.getFile
      sender := some answered.getFile
      inFlight := answered.notified
    }

/--
The receiver reads the next response unless it is done, and the sender, which has written it, sends
on.
-/
def chunk (sha256 : List UInt8 → String) (source : StaticStorage) (d : Download)
    (transactionId : String) : Option Download := do
  let g ← d.getFile
  let response ← d.inFlight
  let sender ← d.sender
  if g.isDone then
    none
  else
    let received ← g.handleResponse sha256 d.receiver response
    let sent := sender.writeFile source false transactionId
    return {
      receiver := received.storage
      getFile := some received.getFile
      sender := some sent.getFile
      inFlight := sent.notified
    }

def cut (d : Download) : Option Download := do
  let g ← d.getFile
  return { receiver := g.outputFile.elim d.receiver (·.destroy d.receiver) }

def step (sha256 : List UInt8 → String) (source : StaticStorage) (target : Peer)
    (fileInfo : FileInfo) (d : Download) : Event → Option Download
  | .attempt session transactionId => d.attempt source target fileInfo session transactionId
  | .chunk transactionId => d.chunk sha256 source transactionId
  | .cut => d.cut

def disk (d : Download) (name : String) : List UInt8 :=
  (d.receiver.fileOf name).elim [] d.receiver.fs.content

def chunkAt (whole : List UInt8) (offset : Nat) : FileChunk :=
  let data := (whole.drop offset).take FileChunk.defaultBufSize
  ⟨data.length, offset, data⟩

section Sender

variable {source : StaticStorage} {whole : List UInt8} {q : AbsPath} {sender : GetFile}
  {request response : RequestObject} {offset : Nat}

def sourceAfter (whole : List UInt8) (q : AbsPath) (offset : Nat) : Ifstream :=
  let ended := decide ((chunkAt whole offset).size < FileChunk.defaultBufSize)
  ⟨q, offset + (chunkAt whole offset).size, ended, ended⟩

structure Serving (whole : List UInt8) (q : AbsPath) (sender : GetFile) (response : RequestObject)
    (offset : Nat) : Prop where
  request : ∃ request, sender.request = some request
  sourceFile : sender.sourceFile = some (sourceAfter whole q offset)
  fileChunk : response.message.fileChunk = some (chunkAt whole offset)
  isRequest : response.message.isRequest = false

theorem chunkAt_size (whole : List UInt8) (offset : Nat) :
    (chunkAt whole offset).size = min FileChunk.defaultBufSize (whole.length - offset) := by
  simp [chunkAt]

theorem writeFile_serving (hcontent : source.fs.content q = whole)
    (hrequest : sender.request = some request)
    (hsource : sender.sourceFile = some ⟨q, offset, false, false⟩) (transactionId : String) :
    ∃ response,
      (sender.writeFile source false transactionId).notified = some response
        ∧
      Serving whole q (sender.writeFile source false transactionId).getFile response offset := by
  have hread : (Ifstream.mk q offset false false).read source.fs FileChunk.defaultBufSize =
      (sourceAfter whole q offset, (chunkAt whole offset).data) :=
    Ifstream.read_of_good rfl rfl (by rw [hcontent])
  have hstate : ((sourceAfter whole q offset).fail && !(sourceAfter whole q offset).eof) = false :=
    Bool.and_not_self _
  have hwrite : sender.writeFile source false transactionId =
      ⟨source, { sender with sourceFile := some (sourceAfter whole q offset) },
        some (GetFile.writeBuffer request (chunkAt whole offset).data offset transactionId)⟩ := by
    unfold GetFile.writeFile
    simp [hrequest, hsource, hread, hstate]
  rw [hwrite]
  exact ⟨_, rfl, ⟨request, hrequest⟩, rfl, rfl, rfl⟩

theorem handleRequest_serving (request : RequestObject) {fileInfo : FileInfo}
    (hcontent : source.fs.content q = whole)
    (hexists : source.existsInternal fileInfo.fileName = true)
    (hfile : source.fileOf fileInfo.fileName = some q) (hmem : q ∈ source.fs.files)
    (hoffset : fileInfo.offset < maxOffset) (hfiles : request.message.files = [fileInfo])
    (transactionId : String) :
    ∃ answered response,
      (GetFile.ofRequest request).handleRequest source transactionId = some answered
        ∧
      answered.notified = some response
        ∧
      Serving whole q answered.getFile response fileInfo.offset := by
  have hopen : source.readFile fileInfo =
      some { path := q, pos := (source.fs.content q).length } := by
    unfold StaticStorage.readFile Ifstream.openAte
    rw [if_pos hexists]
    change (source.fileOf fileInfo.fileName).bind _ = _
    rw [hfile, Option.bind_some, if_pos hmem]
  have hseek : ((Ifstream.mk q (source.fs.content q).length false false).seekEnd source.fs).seekg
      fileInfo.offset = ⟨q, fileInfo.offset, false, false⟩ := by
    simp [Ifstream.seekEnd, Ifstream.seekg, hoffset]
  let sender : GetFile :=
    { GetFile.ofRequest request with sourceFile := some ⟨q, fileInfo.offset, false, false⟩ }
  have hsend : (GetFile.ofRequest request).handleRequest source transactionId =
      some (sender.writeFile source false transactionId) := by
    unfold GetFile.handleRequest
    simp [GetFile.ofRequest, sender, hfiles, hexists, hopen, hseek]
  have hrequest : sender.request = some request := rfl
  rcases writeFile_serving hcontent hrequest rfl transactionId with ⟨response, hnotified, hserving⟩
  exact ⟨_, response, hsend, hnotified, hserving⟩

end Sender

def recorded (d : Download) (name : String) : Nat :=
  (d.receiver.fileTransfer.lookup name).elim 0 (·.bytesWritten)

structure Holds (whole : List UInt8) (name : String) (p : AbsPath) (s : StaticStorage) (k : Nat) :
    Prop where
  fileOf : s.fileOf name = some p
  not_exists : s.existsInternal name = false
  mem_files : p ∈ s.fs.files
  content : s.fs.content p = whole.take k
  unfinished : k < whole.length ∨ k = 0 ∧ whole = []
  row : ∃ row, s.fileTransfer.lookup name = some row ∧ row.bytesWritten ≤ k

structure Writing (name : String) (p : AbsPath) (s : StaticStorage) (w : OfstreamWrapper)
    (offset : Nat) : Prop where
  ofstream : w.ofstream = ⟨p, offset, false⟩
  fileName : w.fileInfo.fileName = name
  blocked : s.isBlockedInternal name = true
  token : ∀ b ∈ s.blockedFiles, b.fileName = name → b.writing = true → b.token = w.token

structure Running (sha256 : List UInt8 → String) (whole : List UInt8) (name : String)
    (p q : AbsPath) (d : Download) (k offset : Nat) (g : GetFile) (w : OfstreamWrapper)
    (sender : GetFile)
    (response : RequestObject) : Prop where
  getFile : d.getFile = some g
  sending : d.sender = some sender
  inFlight : d.inFlight = some response
  holds : Holds whole name p d.receiver k
  offset_le : offset ≤ k
  writing : Writing name p d.receiver w offset
  serving : Serving whole q sender response offset
  outputFile : g.outputFile = some w
  fileInfo : ∃ info, g.fileInfo = some info ∧ info.fileName = name ∧ info.sha256sum = sha256 whole
  fileSize : g.fileSize = whole.length
  isDone : g.isDone = false

structure Complete (whole : List UInt8) (name : String) (p : AbsPath) (d : Download) : Prop where
  fileOf : d.receiver.fileOf name = some p
  exists_name : d.receiver.existsInternal name = true
  content : d.receiver.fs.content p = whole
  row : d.receiver.fileTransfer.lookup name = none
  getFile : ∀ g, d.getFile = some g → g.isDone = true ∧ g.state = .done

section Receiver

variable {sha256 : List UInt8 → String} {whole : List UInt8} {name : String} {p q : AbsPath}
  {s : StaticStorage} {w : OfstreamWrapper} {k offset : Nat}

theorem Holds.le_length (hholds : Holds whole name p s k) : k ≤ whole.length := by
  rcases hholds.unfinished with h | h
  . omega
  . omega

theorem write_chunkAt (hlength : whole.length < maxOffset) (hholds : Holds whole name p s k)
    (hwriting : Writing name p s w offset) (hoffset : offset ≤ k) :
    w.write s (chunkAt whole offset) =
      ((s.withFs (s.fs.put p
          (whole.take (max k (offset + (chunkAt whole offset).size))))).setBytesWritten name offset,
        { w with ofstream := ⟨p, offset + (chunkAt whole offset).size, false⟩ }) := by
  have hk := hholds.le_length
  have hseek : w.ofstream.seekp offset = ⟨p, offset, false⟩ := by
    rw [hwriting.ofstream, Ofstream.seekp_of_lt rfl (by omega)]
  have hdata : (chunkAt whole offset).data.take (chunkAt whole offset).size =
      (whole.drop offset).take FileChunk.defaultBufSize := List.take_length
  have htake : whole.take (max k (offset + FileChunk.defaultBufSize)) =
      whole.take (max k (offset + (chunkAt whole offset).size)) := by
    rw [List.take_eq_take_iff, chunkAt_size]
    omega
  have hwrite : (Ofstream.mk p offset false).write s.fs
        ((whole.drop offset).take FileChunk.defaultBufSize) =
      (s.fs.put p (whole.take (max k (offset + (chunkAt whole offset).size))),
        ⟨p, offset + (chunkAt whole offset).size, false⟩) := by
    rw [Ofstream.write_of_not_fail rfl, hholds.content, overwrite_take whole hoffset hk, htake]
    rfl
  unfold OfstreamWrapper.write
  rw [hwriting.fileName, show (chunkAt whole offset).offset = offset from rfl, hseek, hdata, hwrite]

def received (s : StaticStorage) (whole : List UInt8) (name : String) (p : AbsPath)
    (k offset : Nat) : StaticStorage :=
  (s.withFs (s.fs.put p
    (whole.take (max k (offset + (chunkAt whole offset).size))))).setBytesWritten name offset

variable {d : Download} {g sender : GetFile} {response : RequestObject}

theorem received_content (s : StaticStorage) :
    (received s whole name p k offset).fs.content p =
      whole.take (max k (offset + (chunkAt whole offset).size)) := by
  exact put_content _ _ _

theorem received_row (hholds : Holds whole name p s k) :
    ∃ row, (received s whole name p k offset).fileTransfer.lookup name = some row
      ∧ row.bytesWritten = offset := by
  rcases hholds.row with ⟨row, hrow, -⟩
  refine ⟨{ row with bytesWritten := offset }, ?_, rfl⟩
  have hlookup := FileTransferTable.lookup_setBytesWritten s.fileTransfer name offset
  rw [hrow] at hlookup
  exact hlookup

theorem handleResponse_chunkAt (hlength : whole.length < maxOffset)
    (hrunning : Running sha256 whole name p q d k offset g w sender response) :
    g.handleResponse sha256 d.receiver response =
      let s := received d.receiver whole name p k offset
      let pos := offset + (chunkAt whole offset).size
      let g' := { g with outputFile := some { w with ofstream := ⟨p, pos, false⟩ } }
      if pos < whole.length then
        some ⟨s, g', none⟩
      else
        GetFile.finalize sha256 s g' := by
  have hwrite := write_chunkAt hlength hrunning.holds hrunning.writing hrunning.offset_le
  have hsize : GetFile.streamsize g.fileSize = whole.length := by
    rw [hrunning.fileSize, GetFile.streamsize, if_pos hlength]
  unfold GetFile.handleResponse
  simp only [hrunning.outputFile, hrunning.serving.isRequest, hrunning.writing.ofstream,
    hrunning.serving.fileChunk, hwrite, Ofstream.tellp, hsize, Bool.false_eq_true, if_false]
  norm_cast

theorem received_holds (hholds : Holds whole name p s k) (hoffset : offset ≤ k)
    (hmore : offset + (chunkAt whole offset).size < whole.length) :
    Holds whole name p (received s whole name p k offset)
      (max k (offset + (chunkAt whole offset).size)) where
  fileOf := hholds.fileOf
  not_exists := hholds.not_exists
  mem_files := mem_put_files.mpr (Or.inl rfl)
  content := received_content s
  unfinished := by
    rcases hholds.unfinished with h | ⟨-, h⟩
    . omega
    . simp [h] at hmore
  row := by
    rcases received_row hholds with ⟨row, hrow, hbytes⟩
    exact ⟨row, hrow, by omega⟩

theorem chunk_running {source : StaticStorage} (hlength : whole.length < maxOffset)
    (hsource : source.fs.content q = whole)
    (hrunning : Running sha256 whole name p q d k offset g w sender response)
    (hmore : offset + (chunkAt whole offset).size < whole.length) (transactionId : String) :
    ∃ d' g' w' sender' response',
      d.chunk sha256 source transactionId = some d'
        ∧
      Running sha256 whole name p q d' (max k (offset + (chunkAt whole offset).size))
        (offset + (chunkAt whole offset).size) g' w' sender' response' := by
  -- as long as bytes are missing, a chunk is full and leads to the next one
  rcases hrunning.serving.request with ⟨request, hrequest⟩
  have hsize := chunkAt_size whole offset
  have hfull : sourceAfter whole q offset =
      ⟨q, offset + (chunkAt whole offset).size, false, false⟩ := by
    have hnot : ¬ (chunkAt whole offset).size < FileChunk.defaultBufSize := by omega
    simp [sourceAfter, hnot]
  have hstream := hrunning.serving.sourceFile
  rw [hfull] at hstream
  rcases writeFile_serving hsource hrequest hstream transactionId with
    ⟨response', hnotified, hserving⟩
  have hhandle := handleResponse_chunkAt hlength hrunning
  simp only [if_pos hmore] at hhandle
  let w' : OfstreamWrapper :=
    { w with ofstream := ⟨p, offset + (chunkAt whole offset).size, false⟩ }
  let sent := sender.writeFile source false transactionId
  refine ⟨⟨received d.receiver whole name p k offset, some { g with outputFile := some w' },
    some sent.getFile, sent.notified⟩, { g with outputFile := some w' }, w', sent.getFile,
      response', ?_, ?_⟩
  . unfold chunk
    simp only [hrunning.getFile, hrunning.inFlight, hrunning.sending, hrunning.isDone, hhandle,
      Option.bind_eq_bind, Option.bind_some, Bool.false_eq_true, if_false]
    rfl
  . exact {
      getFile := rfl
      sending := rfl
      inFlight := hnotified
      holds := received_holds hrunning.holds hrunning.offset_le hmore
      offset_le := by omega
      writing := ⟨rfl, hrunning.writing.fileName, hrunning.writing.blocked, hrunning.writing.token⟩
      serving := hserving
      outputFile := rfl
      fileInfo := hrunning.fileInfo
      fileSize := hrunning.fileSize
      isDone := hrunning.isDone
    }

theorem chunk_complete (source : StaticStorage) (hlength : whole.length < maxOffset)
    (hrunning : Running sha256 whole name p q d k offset g w sender response)
    (hend : whole.length ≤ offset + (chunkAt whole offset).size) (transactionId : String) :
    ∃ d' g', d.chunk sha256 source transactionId = some d' ∧ Complete whole name p d'
      ∧ d'.getFile = some g' := by
  -- with the last bytes the file is whole, its digest right and the attempt done
  have hholds := hrunning.holds
  rcases hrunning.fileInfo with ⟨info, hinfo, hname, hsha256⟩
  have hhandle := handleResponse_chunkAt hlength hrunning
  simp only [if_neg (show ¬ offset + (chunkAt whole offset).size < whole.length by omega)]
    at hhandle
  have hcontent : (received d.receiver whole name p k offset).fs.content p = whole := by
    rw [received_content]
    apply List.take_of_length_le
    omega
  have hfile : (received d.receiver whole name p k offset).fileOf name = some p := hholds.fileOf
  have hfinalize : (received d.receiver whole name p k offset).finalizeFile sha256 info =
      ((received d.receiver whole name p k offset).complete name (sha256 whole), true) := by
    rw [StaticStorage.finalizeFile_of_sha256, hname, hsha256]
    . rw [hname]
      exact hholds.not_exists
    . rw [hname]
      exact hrunning.writing.blocked
    . unfold StaticStorage.sha256FromFile
      rw [hname, hsha256, hfile, Option.elim_some, hcontent]
  let w' : OfstreamWrapper :=
    { w with ofstream := ⟨p, offset + (chunkAt whole offset).size, false⟩ }
  let g' := { g with outputFile := some w' }.finish .done
  let sent := sender.writeFile source false transactionId
  let s' := (received d.receiver whole name p k offset).complete name (sha256 whole)
  refine ⟨⟨s', some g', some sent.getFile, sent.notified⟩, g', ?_, ?_, rfl⟩
  . have hinfo' : ({ g with outputFile := some w' } : GetFile).fileInfo = some info := hinfo
    rw [GetFile.finalize_of_fileInfo hinfo', hfinalize] at hhandle
    unfold chunk
    simp only [hrunning.getFile, hrunning.inFlight, hrunning.sending, hrunning.isDone, hhandle,
      Option.bind_eq_bind, Option.bind_some, Bool.false_eq_true, if_false, if_true]
    rfl
  . refine ⟨hholds.fileOf, StaticStorage.complete_existsInternal _ _ _, hcontent,
      StaticStorage.complete_lookup _ _ _, ?_⟩
    intro g'' hg''
    cases hg''
    exact ⟨rfl, rfl⟩

end Receiver

section Attempt

variable {sha256 : List UInt8 → String} {whole : List UInt8} {name : String} {p q : AbsPath}
  {d : Download} {k offset : Nat}

structure Startable (whole : List UInt8) (fileInfo : FileInfo) (p : AbsPath) (d : Download)
    (k offset : Nat) : Prop where
  getFile : d.getFile = none
  not_blocked : d.receiver.isBlockedInternal fileInfo.fileName = false
  offset_le : offset ≤ k
  resumeInfo : (d.receiver.resumeInfo fileInfo).offset = offset
  opened : ∃ fs, d.receiver.openOutput fileInfo.fileName = some (fs, { path := p })
    ∧ Holds whole fileInfo.fileName p
      (d.receiver.register (d.receiver.resumeInfo fileInfo) (fs, { path := p })).1 k

theorem writing_register {s : StaticStorage} {info : FileInfo} (p : AbsPath) (fs : FileSystem)
    (hblocked : s.isBlockedInternal info.fileName = false) (hoffset : info.offset < maxOffset) :
    Writing info.fileName p (s.register info (fs, { path := p })).1
      (s.register info (fs, { path := p })).2 info.offset where
  ofstream := by
    change (Ofstream.mk p 0 false).seekp info.offset = _
    rw [Ofstream.seekp_of_lt rfl hoffset]
  fileName := rfl
  blocked := by
    rw [StaticStorage.isBlockedInternal_iff]
    exact ⟨⟨info.fileName, s.nextToken, true⟩, List.mem_append_right _ (List.mem_singleton_self _),
      rfl, rfl⟩
  token := by
    intro b hb hname hwriting
    rcases List.mem_append.mp hb with hb | hb
    . rw [← Bool.not_eq_true, StaticStorage.isBlockedInternal_iff] at hblocked
      exact absurd ⟨b, hb, hname, hwriting⟩ hblocked
    . rw [List.mem_singleton.mp hb]
      rfl

theorem attempt_running {source : StaticStorage} {target : Peer} {fileInfo : FileInfo}
    (hlength : whole.length < maxOffset) (hexists : source.existsInternal fileInfo.fileName = true)
    (hfile : source.fileOf fileInfo.fileName = some q) (hmem : q ∈ source.fs.files)
    (hsource : source.fs.content q = whole) (hsha256 : fileInfo.sha256sum = sha256 whole)
    (hsize : fileInfo.fileSize = whole.length)
    (hstart : Startable whole fileInfo p d k offset) (session : Session) (transactionId : String) :
    ∃ d' g w sender response,
      d.attempt source target fileInfo session transactionId = some d'
        ∧
      Running sha256 whole fileInfo.fileName p q d' k offset g w sender response
        ∧
      g.fileInfo = some (d.receiver.resumeInfo fileInfo) := by
  rcases hstart.opened with ⟨fs, hopen, hholds⟩
  have hk := hholds.le_length
  have hoffset := hstart.offset_le
  let info := d.receiver.resumeInfo fileInfo
  have hinfo : info.offset = offset := hstart.resumeInfo
  let registered := d.receiver.register info (fs, { path := p })
  let g : GetFile :=
    { target := some target, fileInfo := some info, fileSize := info.fileSize,
      outputFile := some registered.2 }
  let request : RequestObject :=
    ⟨{ Message.createRequest "get_file" [] transactionId with files := [info] }, .peer target⟩
  have hcreate : (GetFile.ofFileInfo target fileInfo).createRequest d.receiver transactionId =
      ⟨registered.1, g, some request⟩ := by
    have hexists : d.receiver.existsInternal fileInfo.fileName = false := hholds.not_exists
    have hcreated := StaticStorage.createFile_of_openOutput hexists hstart.not_blocked hopen
    unfold GetFile.createRequest
    simp only [GetFile.ofFileInfo, hcreated]
    rfl
  have hname : info.fileName = fileInfo.fileName := StaticStorage.resumeInfo_fileName _ _
  rw [← hname] at hexists hfile
  have hfiles : request.message.files = [info] := rfl
  rcases handleRequest_serving ⟨request.message, .session session⟩ hsource hexists hfile hmem
    (by omega) hfiles transactionId with ⟨answered, response, hanswered, hnotified, hserving⟩
  have hblocked : d.receiver.isBlockedInternal info.fileName = false := hname ▸ hstart.not_blocked
  have hwriting := writing_register p fs hblocked (by omega)
  rw [hname, hinfo] at hwriting
  rw [hinfo] at hserving
  refine ⟨⟨registered.1, some g, some answered.getFile, answered.notified⟩, g, registered.2,
    answered.getFile, response, ?_, ?_, rfl⟩
  . unfold attempt
    simp only [hstart.getFile, hcreate, hanswered, Option.bind_eq_bind, Option.bind_some]
    rfl
  . exact {
      getFile := rfl
      sending := rfl
      inFlight := hnotified
      holds := hholds
      offset_le := hoffset
      writing := hwriting
      serving := hserving
      outputFile := rfl
      fileInfo := ⟨info, rfl, hname, by rw [StaticStorage.resumeInfo_sha256sum, hsha256]⟩
      fileSize := by rw [← hsize]; exact StaticStorage.resumeInfo_fileSize _ _
      isDone := rfl
    }

theorem startable_of_fresh {fileInfo : FileInfo} (hgetFile : d.getFile = none)
    (hfile : d.receiver.fileOf fileInfo.fileName = some p)
    (hexists : d.receiver.existsInternal fileInfo.fileName = false)
    (hblocked : d.receiver.isBlockedInternal fileInfo.fileName = false)
    (hrow : d.receiver.fileTransfer.lookup fileInfo.fileName = none) (hoffset : fileInfo.offset = 0)
    (whole : List UInt8) : Startable whole fileInfo p d 0 0 := by
  have hresume : d.receiver.resumeInfo fileInfo = fileInfo := by
    unfold StaticStorage.resumeInfo
    rw [hrow]
  have hopen : d.receiver.openOutput fileInfo.fileName =
      some (d.receiver.fs.put p [], { path := p }) := by
    unfold StaticStorage.openOutput
    rw [if_neg (AList.lookup_eq_none.mp hrow), Ofstream.openTrunc_eq_some]
    exact ⟨hfile, rfl, rfl⟩
  refine ⟨hgetFile, hblocked, le_refl 0, by rw [hresume, hoffset], _, hopen, ?_⟩
  rw [hresume]
  exact {
    fileOf := hfile
    not_exists := hexists
    mem_files := mem_put_files.mpr (Or.inl rfl)
    content := by
      rw [StaticStorage.register_content, put_content, List.take_zero]
    unfinished := by
      cases whole with
      | nil => exact Or.inr ⟨rfl, rfl⟩
      | cons b whole => exact Or.inl (Nat.succ_pos _)
    row := by
      refine ⟨_, StaticStorage.register_lookup _ _ _, ?_⟩
      rw [hrow, Option.getD_none]
      exact le_of_eq hoffset
  }

theorem startable_of_paused {fileInfo : FileInfo} (hgetFile : d.getFile = none)
    (hholds : Holds whole fileInfo.fileName p d.receiver k)
    (hblocked : d.receiver.isBlockedInternal fileInfo.fileName = false) :
    Startable whole fileInfo p d k (d.recorded fileInfo.fileName) := by
  rcases hholds.row with ⟨row, hrow, hle⟩
  have hrecorded : d.recorded fileInfo.fileName = row.bytesWritten := by
    simp [recorded, hrow]
  have hmem : fileInfo.fileName ∈ d.receiver.fileTransfer := by
    rw [← AList.lookup_isSome, hrow]
    rfl
  have hopen : d.receiver.openOutput fileInfo.fileName = some (d.receiver.fs, { path := p }) := by
    unfold StaticStorage.openOutput
    rw [if_pos hmem, Ofstream.openInOut_eq_some]
    exact ⟨hholds.fileOf, hholds.mem_files, rfl, rfl⟩
  refine ⟨hgetFile, hblocked, by omega, ?_, _, hopen, ?_⟩
  . rw [hrecorded]
    simp [StaticStorage.resumeInfo, hrow]
  . exact {
      fileOf := hholds.fileOf
      not_exists := hholds.not_exists
      mem_files := hholds.mem_files
      content := hholds.content
      unfinished := hholds.unfinished
      row := by
        refine ⟨row, ?_, hle⟩
        have hlookup := StaticStorage.register_lookup d.receiver (d.receiver.resumeInfo fileInfo)
          (d.receiver.fs, { path := p })
        rw [StaticStorage.resumeInfo_fileName, hrow] at hlookup
        exact hlookup
    }

end Attempt

section Cut

variable {sha256 : List UInt8 → String} {whole : List UInt8} {name : String} {p q : AbsPath}
  {d d' : Download}
  {k offset : Nat} {g sender : GetFile} {w : OfstreamWrapper} {response : RequestObject}

theorem cut_running (hrunning : Running sha256 whole name p q d k offset g w sender response)
    (hcut : d.cut = some d') :
    d'.getFile = none ∧ Holds whole name p d'.receiver k ∧ d'.receiver.isBlockedInternal name
      = false := by
  -- a cut keeps the bytes and frees the name
  have hd' : d' = { receiver := w.destroy d.receiver } := by
    simpa [cut, hrunning.getFile, hrunning.outputFile, eq_comm] using hcut
  have hholds := hrunning.holds
  subst hd'
  refine ⟨rfl, ⟨hholds.fileOf, hholds.not_exists, hholds.mem_files, hholds.content,
    hholds.unfinished, hholds.row⟩, ?_⟩
  rw [← Bool.not_eq_true, StaticStorage.isBlockedInternal_iff]
  rintro ⟨b, hb, hname, hwriting⟩
  simp only [OfstreamWrapper.destroy, List.mem_map] at hb
  rcases hb with ⟨b', hb', rfl⟩
  split at hname
  . rename_i htoken
    simp [htoken] at hwriting
  . rename_i htoken
    rw [if_neg htoken] at hwriting
    exact htoken (hrunning.writing.token b' hb' hname hwriting)

theorem cut_complete (hcomplete : Complete whole name p d) (hcut : d.cut = some d') :
    Complete whole name p d' := by
  simp only [cut, Option.bind_eq_bind, Option.bind_eq_some_iff] at hcut
  rcases hcut with ⟨g, hg, hd'⟩
  cases hd'
  cases g.outputFile with
  | none =>
    exact ⟨hcomplete.fileOf, hcomplete.exists_name, hcomplete.content, hcomplete.row, by simp⟩
  | some w =>
    exact ⟨hcomplete.fileOf, hcomplete.exists_name, hcomplete.content, hcomplete.row, by simp⟩

end Cut

end Download

end Peerpaste
