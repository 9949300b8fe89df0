import Peerpaste.Transfers.Download

/-!
This module contains that a file which is transferred in any number of attempts arrives as it is.
-/

namespace Peerpaste

open FileSystem

namespace Download

structure Announced (sha256 : List UInt8 → String) (whole : List UInt8) (source : StaticStorage)
    (fileInfo : FileInfo) (q : AbsPath) : Prop where
  length_lt : whole.length < maxOffset
  exists_name : source.existsInternal fileInfo.fileName = true
  fileOf : source.fileOf fileInfo.fileName = some q
  mem_files : q ∈ source.fs.files
  content : source.fs.content q = whole
  sha256sum : fileInfo.sha256sum = sha256 whole
  fileSize : fileInfo.fileSize = whole.length
  offset : fileInfo.offset = 0

structure Fresh (name : String) (d : Download) : Prop where
  getFile : d.getFile = none
  not_exists : d.receiver.existsInternal name = false
  not_blocked : d.receiver.isBlockedInternal name = false
  row : d.receiver.fileTransfer.lookup name = none

inductive Phase (sha256 : List UInt8 → String) (whole : List UInt8) (name : String) (q : AbsPath)
    (d : Download) : Prop where
  | fresh (h : Fresh name d)
  | paused {p k} (hgetFile : d.getFile = none) (hholds : Holds whole name p d.receiver k)
    (hblocked : d.receiver.isBlockedInternal name = false)
  | running {p k offset g w sender response}
    (h : Running sha256 whole name p q d k offset g w sender response)
  | complete {p} (h : Complete whole name p d)

variable {sha256 : List UInt8 → String} {whole : List UInt8} {source : StaticStorage}
  {target : Peer} {fileInfo : FileInfo} {p q : AbsPath} {d d' : Download} {session : Session}
  {transactionId : String}

theorem attempt_eq_none (h : (d.receiver.createFile fileInfo).2.2 = none) :
    d.attempt source target fileInfo session transactionId = none := by
  unfold attempt
  cases d.getFile with
  | some g => rfl
  | none =>
    have hcreate : ((GetFile.ofFileInfo target fileInfo).createRequest d.receiver
        transactionId).notified = none := by
      unfold GetFile.createRequest
      simp [GetFile.ofFileInfo, h]
    simp [hcreate]

theorem attempt_of_getFile {g : GetFile} (h : d.getFile = some g) :
    d.attempt source target fileInfo session transactionId = none := by
  unfold attempt
  rw [h]

theorem chunk_of_getFile (h : d.getFile = none) : d.chunk sha256 source transactionId = none := by
  unfold chunk
  rw [h]
  rfl

theorem chunk_of_complete (hcomplete : Complete whole fileInfo.fileName p d) :
    d.chunk sha256 source transactionId = none := by
  cases hgetFile : d.getFile with
  | none => exact chunk_of_getFile hgetFile
  | some g =>
    have hdone := (hcomplete.getFile g hgetFile).1
    unfold chunk
    rw [hgetFile]
    cases d.inFlight with
    | none => rfl
    | some response =>
      cases d.sender with
      | none => rfl
      | some sender => simp [hdone]

theorem Phase.startable (hphase : Phase sha256 whole fileInfo.fileName q d)
    (hoffset : fileInfo.offset = 0)
    (hgetFile : d.getFile = none) (hexists : d.receiver.existsInternal fileInfo.fileName = false)
    (hfile : d.receiver.fileOf fileInfo.fileName = some p) :
    ∃ k, Startable whole fileInfo p d k (d.recorded fileInfo.fileName) := by
  cases hphase with
  | fresh h =>
    refine ⟨0, ?_⟩
    have hrecorded : d.recorded fileInfo.fileName = 0 := by
      simp [recorded, h.row]
    rw [hrecorded]
    exact startable_of_fresh hgetFile hfile hexists h.not_blocked h.row hoffset whole
  | @paused p' k _ hholds hblocked =>
    have hp : p' = p := by
      rw [hholds.fileOf] at hfile
      exact Option.some.inj hfile
    exact ⟨k, startable_of_paused hgetFile (hp ▸ hholds) hblocked⟩
  | running h =>
    rw [h.getFile] at hgetFile
    cases hgetFile
  | complete h =>
    rw [h.exists_name] at hexists
    cases hexists

theorem phase_attempt (hannounced : Announced sha256 whole source fileInfo q)
    (hphase : Phase sha256 whole fileInfo.fileName q d)
    (hattempt : d.attempt source target fileInfo session transactionId = some d') :
    ∃ p k g w sender response,
      Running sha256 whole fileInfo.fileName p q d' k
        (d.recorded fileInfo.fileName) g w sender response
        ∧
      g.fileInfo = some (d.receiver.resumeInfo fileInfo)
        ∧
      (d.receiver.resumeInfo fileInfo).offset = d.recorded fileInfo.fileName := by
  have hgetFile : d.getFile = none := by
    cases hgetFile : d.getFile with
    | none => rfl
    | some g =>
      rw [attempt_of_getFile hgetFile] at hattempt
      cases hattempt
  rcases d.receiver.createFile_cases fileInfo with ⟨-, -, hnone⟩ | ⟨hexists, -, opened, hopen⟩
  . rw [attempt_eq_none hnone] at hattempt
    cases hattempt
  . have hfile := StaticStorage.openOutput_path hopen
    rcases hphase.startable hannounced.offset hgetFile hexists hfile with ⟨k, hstart⟩
    rcases attempt_running hannounced.length_lt hannounced.exists_name hannounced.fileOf
      hannounced.mem_files hannounced.content hannounced.sha256sum hannounced.fileSize
      hstart session transactionId with ⟨d'', g, w, sender, response, hd'', hrunning, hinfo⟩
    rw [hattempt] at hd''
    cases hd''
    exact ⟨_, k, g, w, sender, response, hrunning, hinfo, hstart.resumeInfo⟩

theorem phase_chunk (hannounced : Announced sha256 whole source fileInfo q)
    (hphase : Phase sha256 whole fileInfo.fileName q d)
    (hchunk : d.chunk sha256 source transactionId = some d') :
    (∃ p k offset g w sender response,
      Running sha256 whole fileInfo.fileName p q d' k offset g w sender response ∧ k < whole.length)
      ∨
    ∃ p g, Complete whole fileInfo.fileName p d' ∧ d'.getFile = some g := by
  cases hphase with
  | fresh h =>
    rw [chunk_of_getFile h.getFile] at hchunk
    cases hchunk
  | paused hgetFile =>
    rw [chunk_of_getFile hgetFile] at hchunk
    cases hchunk
  | @running p k offset g w sender response h =>
    by_cases hmore : offset + (chunkAt whole offset).size < whole.length
    . left
      rcases chunk_running hannounced.length_lt hannounced.content h hmore transactionId with
        ⟨d'', g', w', sender', response', hd'', hrunning⟩
      rw [hchunk] at hd''
      cases hd''
      refine ⟨p, _, _, g', w', sender', response', hrunning, ?_⟩
      rcases hrunning.holds.unfinished with h | ⟨-, h⟩
      . exact h
      . simp [h] at hmore
    . right
      rcases chunk_complete source hannounced.length_lt h (by omega) transactionId with
        ⟨d'', g', hd'', hcomplete, hg'⟩
      rw [hchunk] at hd''
      cases hd''
      exact ⟨p, g', hcomplete, hg'⟩
  | complete h =>
    rw [chunk_of_complete h] at hchunk
    cases hchunk

theorem phase_step (hannounced : Announced sha256 whole source fileInfo q)
    (hphase : Phase sha256 whole fileInfo.fileName q d) {e : Event}
    (hstep : step sha256 source target fileInfo d e = some d') :
    Phase sha256 whole fileInfo.fileName q d' := by
  cases e with
  | attempt session transactionId =>
    rcases phase_attempt hannounced hphase hstep with ⟨p, k, g, w, sender, response, h, -⟩
    exact .running h
  | chunk transactionId =>
    rcases phase_chunk hannounced hphase hstep with
      ⟨p, k, offset, g, w, sender, response, h, -⟩ | ⟨p, g, h, -⟩
    . exact .running h
    . exact .complete h
  | cut =>
    cases hphase with
    | fresh h =>
      simp [step, cut, h.getFile] at hstep
    | paused hgetFile =>
      simp [step, cut, hgetFile] at hstep
    | running h =>
      rcases cut_running h hstep with ⟨hgetFile, hholds, hblocked⟩
      exact .paused hgetFile hholds hblocked
    | complete h => exact .complete (cut_complete h hstep)

/--
What a reliable transfer means in one state of it: the recorded bytes are on disk and right, an
attempt starts at them and is possible, a chunk makes it done exactly when the file has its size, is
the file and has been finalized, and chunks that keep coming make it done.
-/
structure Reproduces (sha256 : List UInt8 → String) (whole : List UInt8) (source : StaticStorage)
    (target : Peer) (fileInfo : FileInfo) (d : Download) : Prop where
  recorded_le : d.recorded fileInfo.fileName ≤ (d.disk fileInfo.fileName).length
  recorded_take : (d.disk fileInfo.fileName).take (d.recorded fileInfo.fileName) =
    whole.take (d.recorded fileInfo.fileName)
  attempt : ∀ session transactionId d',
    d.attempt source target fileInfo session transactionId = some d' →
      ∃ g info, d'.getFile = some g ∧ g.fileInfo = some info
        ∧ info.offset = d.recorded fileInfo.fileName
  resume : ∀ p, d.getFile = none → d.receiver.existsInternal fileInfo.fileName = false →
    d.receiver.fileOf fileInfo.fileName = some p →
      ∀ session transactionId, ∃ d', d.attempt source target fileInfo session transactionId
        = some d'
  chunk : ∀ transactionId d', d.chunk sha256 source transactionId = some d' →
    ∃ g, d'.getFile = some g
      ∧ (g.isDone = true ↔ (d'.disk fileInfo.fileName).length = whole.length)
      ∧ (g.isDone = true → d'.disk fileInfo.fileName = whole ∧ g.state = .done
        ∧ d'.receiver.existsInternal fileInfo.fileName = true)
  ends : ∀ g, d.getFile = some g → g.isDone = false →
    ∀ transactionIds : List String, whole.length / FileChunk.defaultBufSize
      < transactionIds.length → ∃ n d' g',
        Run.exec (step sha256 source target fileInfo) d ((transactionIds.take n).map .chunk)
          = some d'
          ∧ d'.getFile = some g' ∧ g'.isDone = true

theorem Holds.disk {k : Nat} (hholds : Holds whole fileInfo.fileName p d.receiver k) :
    d.disk fileInfo.fileName = whole.take k := by
  rw [Download.disk, hholds.fileOf]
  exact hholds.content

theorem Complete.disk (hcomplete : Complete whole fileInfo.fileName p d) :
    d.disk fileInfo.fileName = whole := by
  rw [Download.disk, hcomplete.fileOf]
  exact hcomplete.content

theorem Holds.recorded {k : Nat} (hholds : Holds whole fileInfo.fileName p d.receiver k) :
    d.recorded fileInfo.fileName ≤ (d.disk fileInfo.fileName).length
      ∧
    (d.disk fileInfo.fileName).take (d.recorded fileInfo.fileName) =
      whole.take (d.recorded fileInfo.fileName) := by
  rcases hholds.row with ⟨row, hrow, hle⟩
  have hrecorded : d.recorded fileInfo.fileName = row.bytesWritten := by
    simp [Download.recorded, hrow]
  have hk := hholds.le_length
  rw [hrecorded, hholds.disk]
  constructor
  . rw [List.length_take]
    omega
  . rw [List.take_take, min_eq_left hle]

theorem Phase.recorded (hphase : Phase sha256 whole fileInfo.fileName q d) :
    d.recorded fileInfo.fileName ≤ (d.disk fileInfo.fileName).length
      ∧
    (d.disk fileInfo.fileName).take (d.recorded fileInfo.fileName) =
      whole.take (d.recorded fileInfo.fileName) := by
  cases hphase with
  | fresh h => simp [Download.recorded, h.row]
  | paused _ hholds => exact hholds.recorded
  | running h => exact h.holds.recorded
  | complete h => simp [Download.recorded, h.row]

theorem running_ends (hannounced : Announced sha256 whole source fileInfo q) {k offset : Nat}
    {g sender : GetFile} {w : OfstreamWrapper} {response : RequestObject}
    (transactionIds : List String)
    (hrunning : Running sha256 whole fileInfo.fileName p q d k offset g w sender response)
    (hids : (whole.length - offset) / FileChunk.defaultBufSize < transactionIds.length) :
    ∃ n d' g',
      Run.exec (step sha256 source target fileInfo) d ((transactionIds.take n).map .chunk) = some d'
        ∧ d'.getFile = some g' ∧ g'.isDone = true := by
  -- every chunk but the last brings as many bytes as the buffer holds
  induction transactionIds generalizing d k offset g w sender response with
  | nil => simp at hids
  | cons transactionId transactionIds ih =>
    by_cases hmore : offset + (chunkAt whole offset).size < whole.length
    . rcases chunk_running hannounced.length_lt hannounced.content hrunning hmore transactionId with
        ⟨d₁, g₁, w₁, sender₁, response₁, hd₁, hrunning₁⟩
      have hless : (whole.length - (offset + (chunkAt whole offset).size))
          / FileChunk.defaultBufSize < transactionIds.length := by
        have hsize := chunkAt_size whole offset
        simp only [FileChunk.defaultBufSize, List.length_cons] at hids hsize ⊢
        omega
      rcases ih hrunning₁ hless with ⟨n, d', g', hexec, hg'⟩
      refine ⟨n + 1, d', g', ?_, hg'⟩
      rw [List.take_succ_cons, List.map_cons, Run.exec_cons, step, hd₁, Option.bind_some]
      exact hexec
    . rcases chunk_complete source hannounced.length_lt hrunning (by omega) transactionId with
        ⟨d₁, g₁, hd₁, hcomplete, hg₁⟩
      refine ⟨1, d₁, g₁, ?_, hg₁, (hcomplete.getFile g₁ hg₁).1⟩
      simp [step, hd₁]

theorem Phase.reproduces (hannounced : Announced sha256 whole source fileInfo q)
    (hphase : Phase sha256 whole fileInfo.fileName q d) :
    Reproduces sha256 whole source target fileInfo d where
  recorded_le := hphase.recorded.1
  recorded_take := hphase.recorded.2
  attempt := by
    intro session transactionId d' hattempt
    rcases phase_attempt hannounced hphase hattempt with ⟨p, k, g, w, sender, response, h, hinfo,
      hoffset⟩
    exact ⟨g, _, h.getFile, hinfo, hoffset⟩
  resume := by
    intro p hgetFile hexists hfile session transactionId
    rcases hphase.startable hannounced.offset hgetFile hexists hfile with ⟨k, hstart⟩
    rcases attempt_running hannounced.length_lt hannounced.exists_name hannounced.fileOf
      hannounced.mem_files hannounced.content hannounced.sha256sum hannounced.fileSize
      hstart session transactionId with ⟨d', -, -, -, -, hd', -⟩
    exact ⟨d', hd'⟩
  chunk := by
    intro transactionId d' hchunk
    rcases phase_chunk hannounced hphase hchunk with
      ⟨p, k, offset, g, w, sender, response, h, hk⟩ | ⟨p, g, h, hg⟩
    . refine ⟨g, h.getFile, ?_, by simp [h.isDone]⟩
      rw [h.isDone, h.holds.disk, List.length_take]
      simp only [Bool.false_eq_true, false_iff]
      omega
    . have hdone := h.getFile g hg
      exact ⟨g, hg, by simp [hdone.1, h.disk], fun _ => ⟨h.disk, hdone.2, h.exists_name⟩⟩
  ends := by
    intro g hg hnotDone transactionIds hids
    cases hphase with
    | fresh h =>
      rw [h.getFile] at hg
      cases hg
    | paused hgetFile =>
      rw [hgetFile] at hg
      cases hg
    | @running p k offset g' w sender response h =>
      refine running_ends hannounced transactionIds h (lt_of_le_of_lt ?_ hids)
      exact Nat.div_le_div_right (Nat.sub_le _ _)
    | complete h =>
      rw [(h.getFile g hg).1] at hnotDone
      cases hnotDone

theorem transfer_reproduces (hannounced : Announced sha256 whole source fileInfo q)
    {receiver : StaticStorage} (hexists : receiver.existsInternal fileInfo.fileName = false)
    (hblocked : receiver.isBlockedInternal fileInfo.fileName = false)
    (hrow : receiver.fileTransfer.lookup fileInfo.fileName = none) {events : List Event}
    (hrun : Run.exec (step sha256 source target fileInfo) { receiver := receiver } events
      = some d) :
    Reproduces sha256 whole source target fileInfo d := by
  apply Phase.reproduces hannounced
  have hstart : Phase sha256 whole fileInfo.fileName q { receiver := receiver } :=
    .fresh ⟨rfl, hexists, hblocked, hrow⟩
  exact Run.exec_invariant (fun _ _ _ hs hstep => phase_step hannounced hs hstep) hstart hrun

def sharing (sha256 : List UInt8 → String) : StaticStorage :=
  let s := StaticStorage.init "ab" (by decide)
  ((s.withFs (s.fs.put (s.dir ++ ["note"]) [1, 2, 3])).addFile sha256 "note").1

theorem transfer_reproduces_threeBytes :
    let sha256 := fun _ => "039058c6f2c0cb492c533b0a4d14ef77cc0f78abccced5287d84a1a2011cfb81"
    let note : FileInfo := ⟨"note", sha256 [1, 2, 3], 3, 0⟩
    let target : Peer := ⟨"ab", "127.0.0.1", "1337"⟩
    let session : Session := ⟨0, "127.0.0.1"⟩
    ∃ d,
      Run.exec (step sha256 (sharing sha256) target note)
          { receiver := StaticStorage.init "cd" (by decide) }
          [.attempt session "t", .cut, .attempt session "t", .chunk "u"] = some d
        ∧
      Reproduces sha256 [1, 2, 3] (sharing sha256) target note d := by
  intro sha256 note target session
  have hannounced : Announced sha256 [1, 2, 3] (sharing sha256) note
    ["tmp", "peerpaste", "ab", "note"] :=
    ⟨by decide, by decide, by decide, by decide, by decide, rfl, rfl, rfl⟩
  have hsome : (Run.exec (step sha256 (sharing sha256) target note)
      { receiver := StaticStorage.init "cd" (by decide) }
      [.attempt session "t", .cut, .attempt session "t", .chunk "u"]).isSome = true := by
    decide
  rcases Option.isSome_iff_exists.mp hsome with ⟨d, hd⟩
  exact ⟨d, hd, transfer_reproduces hannounced (by decide) (by decide) (by decide) hd⟩

end Download

end Peerpaste
