import Peerpaste.Transfers.Download

/-!
This module contains the sender of a file with the writes that the session reports to it, and when a
failed write is the end of the transfer.
-/

namespace Peerpaste

open FileSystem

namespace GetFile

structure Completion where
  storage : StaticStorage
  failed : Bool
  transactionId : String

/--
The writes that complete one after another, with the responses that the object hands to `Notify`
then.
-/
def completions (g : GetFile) : List Completion → GetFile × List RequestObject
  | [] => (g, [])
  | c :: cs =>
    let handled := g.writeFile c.storage c.failed c.transactionId
    let (g', responses) := completions handled.getFile cs
    (g', handled.notified.toList ++ responses)

def StopsTransfer (g : GetFile) (storage : StaticStorage) (transactionId : String) : Prop :=
  ∀ later, ∃ stopped,
    g.completions (⟨storage, true, transactionId⟩ :: later) = (stopped, [])
      ∧ stopped.state = .failed ∧ stopped.isDone = true ∧ stopped.sourceFile = g.sourceFile

section WriteFile

variable {g : GetFile} {source : Ifstream} {request : RequestObject}

theorem writeFile_of_fail (hsource : g.sourceFile = some source) (hfail : source.fail = true)
    (storage : StaticStorage) (failed : Bool) (transactionId : String) :
    g.writeFile storage failed transactionId =
      ⟨storage, if failed then g.finish .failed else g, none⟩ := by
  unfold writeFile
  cases hrequest : g.request with
  | none => cases failed <;> simp [finish, hrequest]
  | some request => cases failed <;> simp [finish, hrequest, hsource, hfail]

theorem read_fail_eof (fs : FileSystem) {i : Ifstream} (hfail : i.fail = false) (n : Nat) :
    ((i.read fs n).1.fail && !(i.read fs n).1.eof) = false := by
  -- only the end of the file makes reading fail
  unfold Ifstream.read
  split
  . next h =>
    rw [hfail, Bool.or_false] at h
    simp [h]
  . dsimp only
    split
    . rfl
    . simp [hfail]

theorem writeFile_notified (hrequest : g.request = some request)
    (hsource : g.sourceFile = some source) (hfail : source.fail = false) (storage : StaticStorage)
    (failed : Bool) (transactionId : String) :
    (g.writeFile storage failed transactionId).notified.isSome = true := by
  have hread := read_fail_eof storage.fs hfail FileChunk.defaultBufSize
  unfold writeFile
  cases failed <;> simp [finish, hrequest, hsource, hfail, hread]

theorem completions_of_failed (hsource : g.sourceFile = some source) (hfail : source.fail = true)
    (hstate : g.state = .failed) (hdone : g.isDone = true) (later : List Completion) :
    ∃ stopped, g.completions later = (stopped, [])
      ∧ stopped.state = .failed ∧ stopped.isDone = true ∧ stopped.sourceFile = some source := by
  induction later generalizing g with
  | nil => exact ⟨g, rfl, hstate, hdone, hsource⟩
  | cons c cs ih =>
    simp only [completions, writeFile_of_fail hsource hfail, Option.toList_none, List.nil_append]
    cases c.failed with
    | false =>
      rcases ih hsource hstate hdone with ⟨stopped, heq, hstopped⟩
      exact ⟨stopped, by simp [heq], hstopped⟩
    | true =>
      have hsource' : (g.finish .failed).sourceFile = some source := hsource
      rcases ih hsource' rfl rfl with ⟨stopped, heq, hstopped⟩
      exact ⟨stopped, by simp [heq], hstopped⟩

theorem stopsTransfer_iff_fail (hrequest : g.request = some request)
    (hsource : g.sourceFile = some source) (storage : StaticStorage) (transactionId : String) :
    g.StopsTransfer storage transactionId ↔ source.fail = true := by
  constructor
  . intro h
    by_contra hfail
    rw [Bool.not_eq_true] at hfail
    rcases h [] with ⟨stopped, heq, _⟩
    have hnone := congrArg Prod.snd heq
    have hsome := writeFile_notified hrequest hsource hfail storage true transactionId
    simp only [completions, List.append_nil, Option.toList_eq_nil_iff] at hnone
    simp [hnone] at hsome
  . intro hfail later
    have hsource' : (g.finish .failed).sourceFile = some source := hsource
    rcases completions_of_failed hsource' hfail rfl rfl later with ⟨stopped, heq, hstopped⟩
    refine ⟨stopped, ?_, hsource ▸ hstopped⟩
    simp [completions, writeFile_of_fail hsource hfail, heq]

theorem completions_of_end (hsource : g.sourceFile = some source) (hfail : source.fail = true)
    (storage : StaticStorage) (written : List String) :
    (g.completions (written.map (⟨storage, false, ·⟩))).1 = g := by
  induction written with
  | nil => rfl
  | cons transactionId written ih =>
    simp only [List.map_cons, completions, writeFile_of_fail hsource hfail,
      Bool.false_eq_true, if_false]
    exact ih

end WriteFile

section Run

open Download

variable {g answered : GetFile} {storage : StaticStorage} {whole : List UInt8} {q : AbsPath}
  {request response : RequestObject} {fileInfo : FileInfo} {offset : Nat} {handled : Handled}

theorem sourceAfter_fail_iff (whole : List UInt8) (q : AbsPath) (offset : Nat) :
    (sourceAfter whole q offset).fail = true
    ↔ whole.length < offset + FileChunk.defaultBufSize := by
  have hpos : 0 < FileChunk.defaultBufSize := by decide
  simp only [sourceAfter, chunkAt_size, decide_eq_true_eq]
  omega

theorem sourceAfter_of_le (h : offset + FileChunk.defaultBufSize ≤ whole.length) :
    sourceAfter whole q offset = ⟨q, offset + FileChunk.defaultBufSize, false, false⟩ := by
  have hsize : (chunkAt whole offset).size = FileChunk.defaultBufSize := by
    rw [chunkAt_size]
    omega
  simp [sourceAfter, hsize]

theorem completions_serving (hcontent : storage.fs.content q = whole)
    (hserving : Serving whole q g response offset) (written : List String) :
    ∃ request source,
      (g.completions (written.map (⟨storage, false, ·⟩))).1.request = some request
        ∧ (g.completions (written.map (⟨storage, false, ·⟩))).1.sourceFile = some source
        ∧ (source.fail = true
          ↔ whole.length < offset + FileChunk.defaultBufSize * (written.length + 1)) := by
  induction written generalizing g response offset with
  | nil =>
    rcases hserving.request with ⟨request, hrequest⟩
    refine ⟨request, _, hrequest, hserving.sourceFile, ?_⟩
    rw [sourceAfter_fail_iff, List.length_nil, Nat.zero_add, Nat.mul_one]
  | cons transactionId written ih =>
    rcases hserving.request with ⟨request, hrequest⟩
    by_cases hend : whole.length < offset + FileChunk.defaultBufSize
    . have hfail := (sourceAfter_fail_iff whole q offset).mpr hend
      rw [completions_of_end hserving.sourceFile hfail]
      refine ⟨request, _, hrequest, hserving.sourceFile, ?_⟩
      rw [hfail, List.length_cons]
      simp only [true_iff]
      rw [Nat.mul_succ]
      omega
    . have hsource := hserving.sourceFile
      rw [sourceAfter_of_le (by omega)] at hsource
      rcases writeFile_serving hcontent hrequest hsource transactionId with
        ⟨response', _, hserving'⟩
      rcases ih hserving' with ⟨request', source, hrequest', hsource', hfail⟩
      refine ⟨request', source, hrequest', hsource', ?_⟩
      rw [hfail, List.length_cons, Nat.mul_succ, Nat.mul_succ, Nat.mul_succ]
      omega

theorem readFile_eq_some {source : Ifstream} (h : storage.readFile fileInfo = some source) :
    ∃ q, storage.fileOf fileInfo.fileName = some q
    ∧ source = { path := q, pos := (storage.fs.content q).length } := by
  unfold StaticStorage.readFile Ifstream.openAte at h
  rw [Option.ite_none_right_eq_some, Option.bind_eq_some_iff] at h
  rcases h with ⟨_, q, hq, h⟩
  rw [Option.ite_none_right_eq_some, Option.some.injEq] at h
  exact ⟨q, hq, h.2.symm⟩

theorem writeFile_serves {sender : GetFile} {transactionId : String}
    (hrequest : sender.request = some request)
    (hsource : sender.sourceFile = some
      (((Ifstream.mk q (storage.fs.content q).length false false).seekEnd storage.fs).seekg offset))
    (hnotified : (sender.writeFile storage false transactionId).notified = some response) :
    ∃ response', Serving (storage.fs.content q) q
      (sender.writeFile storage false transactionId).getFile response' offset := by
  by_cases hoffset : offset < maxOffset
  . have hseek :
        ((Ifstream.mk q (storage.fs.content q).length false false).seekEnd storage.fs).seekg offset
          = ⟨q, offset, false, false⟩ := by
      simp [Ifstream.seekEnd, Ifstream.seekg, hoffset]
    rw [hseek] at hsource
    rcases writeFile_serving rfl hrequest hsource transactionId with ⟨response', _, hserving⟩
    exact ⟨response', hserving⟩
  . -- a stream that cannot stand at the offset sends nothing
    have hseek :
        ((Ifstream.mk q (storage.fs.content q).length false false).seekEnd storage.fs).seekg offset
          = ⟨q, (storage.fs.content q).length, false, true⟩ := by
      simp [Ifstream.seekEnd, Ifstream.seekg, hoffset]
    rw [hseek] at hsource
    rw [writeFile_of_fail hsource rfl] at hnotified
    cases hnotified

theorem handleRequest_serves {transactionId : String}
    (hfile : request.message.files.head? = some fileInfo)
    (hhandled : (ofRequest request).handleRequest storage transactionId = some handled)
    (hnotified : handled.notified = some response) :
    ∃ q response', storage.fileOf fileInfo.fileName = some q
      ∧ Serving (storage.fs.content q) q handled.getFile response' fileInfo.offset := by
  rcases List.head?_eq_some_iff.mp hfile with ⟨files, hfiles⟩
  have hrequest : (ofRequest request).request = some request := rfl
  simp only [handleRequest, hrequest, hfiles] at hhandled
  split at hhandled
  . cases hhandled
    cases hnotified
  . split at hhandled
    . cases hhandled
      cases hnotified
    . next source hread =>
      rcases readFile_eq_some hread with ⟨q, hq, rfl⟩
      rw [Option.some.injEq] at hhandled
      rw [← hhandled] at hnotified ⊢
      rcases writeFile_serves (by rfl) (by rfl) hnotified with ⟨response', hserving⟩
      exact ⟨q, response', hq, hserving⟩

theorem stopsTransfer_iff {transactionId : String}
    (hfile : request.message.files.head? = some fileInfo)
    (hhandled : (ofRequest request).handleRequest storage transactionId = some handled)
    (hnotified : handled.notified = some response) (written : List String)
    (storage' : StaticStorage)
    (transactionId' : String) :
    (handled.getFile.completions (written.map (⟨storage, false, ·⟩))).1.StopsTransfer storage'
      transactionId'
      ↔
    storage.fileSize fileInfo.fileName <
      fileInfo.offset + FileChunk.defaultBufSize * (written.length + 1) := by
  rcases handleRequest_serves hfile hhandled hnotified with ⟨q, response', hq, hserving⟩
  rcases completions_serving rfl hserving written with ⟨request', source, hrequest, hsource, hfail⟩
  have hsize : storage.fileSize fileInfo.fileName = (storage.fs.content q).length := by
    unfold StaticStorage.fileSize
    rw [hq]
    rfl
  rw [stopsTransfer_iff_fail hrequest hsource, hfail, hsize]

def sharing (whole : List UInt8) : StaticStorage :=
  let s := StaticStorage.init "ef" (by decide)
  { s.withFs (s.fs.put ["tmp", "peerpaste", "ef", "note"] whole) with
    files := [⟨"note", "d", whole.length, 0⟩] }

def requestFor (fileInfo : FileInfo) : RequestObject where
  message := { Message.createRequest "get_file" [] "t" with files := [fileInfo] }
  connection := .session ⟨0, "127.0.0.1"⟩

theorem sharing_serves (whole : List UInt8) {note : FileInfo} (hname : note.fileName = "note")
    (hoffset : note.offset = 0) :
    ∃ handled response, (ofRequest (requestFor note)).handleRequest (sharing whole) "t"
      = some handled
      ∧ handled.notified = some response
      ∧ Serving whole ["tmp", "peerpaste", "ef", "note"] handled.getFile response note.offset := by
  have hfile : (sharing whole).fileOf note.fileName = some ["tmp", "peerpaste", "ef", "note"] := by
    have hinit : (sharing whole).fileOf = (StaticStorage.init "ef" (by decide)).fileOf :=
      StaticStorage.fileOf_congr rfl rfl
    rw [hname, hinit]
    decide
  have hcontent : (sharing whole).fs.content ["tmp", "peerpaste", "ef", "note"] = whole := by
    simp [sharing, StaticStorage.withFs, content, put]
  have hmem : ["tmp", "peerpaste", "ef", "note"] ∈ (sharing whole).fs.files := by
    simp [sharing, StaticStorage.withFs, put]
  have hexists : (sharing whole).existsInternal note.fileName = true := by
    simp [sharing, StaticStorage.existsInternal, hname]
  have hlt : note.offset < maxOffset := by
    rw [hoffset]
    decide
  exact handleRequest_serving (requestFor note) hcontent hexists hfile hmem hlt rfl "t"

theorem stopsTransfer_threeBytes :
    let note : FileInfo := ⟨"note", "d", 3, 0⟩
    ∃ handled, (ofRequest (requestFor note)).handleRequest (sharing [1, 2, 3]) "t" = some handled
      ∧ ((handled.getFile.completions (([] : List String).map
        (⟨sharing [1, 2, 3], false, ·⟩))).1.StopsTransfer (sharing [1, 2, 3]) "u"
        ↔
      (sharing [1, 2, 3]).fileSize note.fileName <
        note.offset + FileChunk.defaultBufSize * (([] : List String).length + 1)) := by
  intro note
  have hnote : (requestFor note).message.files.head? = some note := rfl
  have hname : note.fileName = "note" := rfl
  rcases sharing_serves [1, 2, 3] hname rfl with ⟨handled, response, hhandled, hnotified, _⟩
  exact ⟨handled, hhandled, stopsTransfer_iff hnote hhandled hnotified [] _ "u"⟩

/--
The first of two chunks cannot be written, and the second one is sent all the same.
-/
theorem not_stopsTransfer_twoChunks :
    let whole := List.replicate 1024 0
    let note : FileInfo := ⟨"note", "d", 1024, 0⟩
    ∃ handled, (ofRequest (requestFor note)).handleRequest (sharing whole) "t" = some handled
      ∧ handled.notified.isSome = true ∧ ¬ handled.getFile.StopsTransfer (sharing whole) "u" := by
  intro whole note
  have hname : note.fileName = "note" := rfl
  rcases sharing_serves whole hname rfl with ⟨handled, response, hhandled, hnotified, hserving⟩
  rcases hserving.request with ⟨request, hrequest⟩
  refine ⟨handled, hhandled, by rw [hnotified]; rfl, ?_⟩
  rw [stopsTransfer_iff_fail hrequest hserving.sourceFile, sourceAfter_fail_iff,
    List.length_replicate]
  decide

end Run

end GetFile

end Peerpaste
