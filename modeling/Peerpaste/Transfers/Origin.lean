import Peerpaste.Transfers.Tracked

/-!
This module contains whose bytes a resumed transfer builds on: when every offset that a transfer is
resumed at stands behind bytes of the same content.
-/

namespace Peerpaste

open FileSystem

namespace Transfers

/--
An offer that is resumed at an offset finds bytes of its own content before it, which no digest has
refuted.
-/
def ResumesOwnContent (sha256 : List UInt8 → String) (t : Transfers × History) (e : Event) : Prop :=
  ∀ target fileInfo transactionId output, e = .offer target fileInfo transactionId →
    (t.1.storage.createFile fileInfo).2.2 = some output →
      ∀ q < (t.1.storage.createFile fileInfo).2.1.offset,
        (record sha256 t.1 t.2 e).origin output.ofstream.path q = some ⟨fileInfo.sha256sum, false⟩

variable {sha256 : List UInt8 → String} {t : Transfers × History} {e : Event}

theorem Tracked.resumesOwnContent (h : Tracked t) (hcond : GoesOn t e) :
    ResumesOwnContent sha256 t e := by
  rintro target fi transactionId output rfl houtput q hq
  rcases t with ⟨t, η⟩
  rcases t.storage.createFile_cases fi with ⟨-, -, hnone⟩ | ⟨hexists, hblocked, opened, hopen⟩
  . rw [hnone] at houtput
    cases houtput
  . have hcreated := StaticStorage.createFile_of_openOutput hexists hblocked hopen
    rcases hcond hexists hblocked (StaticStorage.openable_iff.mpr ⟨opened, hopen⟩) with ⟨-, hoffset⟩
    simp only [hcreated, Option.some.injEq] at houtput hq
    subst houtput
    cases hrow : t.storage.fileTransfer.lookup fi.fileName with
    | none =>
      rw [hrow] at hoffset
      rw [StaticStorage.resumeInfo, hrow, hoffset] at hq
      omega
    | some row =>
      rw [hrow] at hoffset
      rw [StaticStorage.resumeInfo, hrow] at hq
      have hmem : fi.fileName ∈ t.storage.fileTransfer := by
        rw [← AList.lookup_isSome, hrow]
        rfl
      have hpos : 0 < row.bytesWritten := Nat.lt_of_le_of_lt (Nat.zero_le q) hq
      rcases h.row fi.fileName row _ hrow (StaticStorage.openOutput_path hopen) hpos with
        ⟨sha256sum, refuted, hcurrent, horigin⟩
      rw [hoffset hpos] at hcurrent
      cases hcurrent
      rcases horigin q hq with ⟨r, hr, hfalse⟩
      have hr' : r = false := by
        cases r with
        | true => exact (hfalse rfl).symm
        | false => rfl
      rw [hr'] at hr
      simp only [record, hcreated, hmem, if_true, StaticStorage.register_path]
      exact hr

theorem resumesOwnContent_along (sha256 : List UInt8 → String) {s : StaticStorage}
    (hrows : s.fileTransfer = ∅) {events : List Event}
    (hcond : Run.Along (stepWithHistory sha256) GoesOn (ofStorage s, History.empty) events) :
    Run.Along (stepWithHistory sha256) (ResumesOwnContent sha256)
      (ofStorage s, History.empty) events := by
  exact Run.along_invariant (fun _ _ _ h hcond hstep => Tracked.step h hcond hstep)
    (fun _ _ h hcond => h.resumesOwnContent hcond) (ofStorage_tracked hrows) hcond

/--
Two bytes of a file arrive and its transfer is resumed behind the first of them.
-/
theorem resumesOwnContent_along_resumed :
    let note : FileInfo := ⟨"note", "1", 3, 0⟩
    let peer : Peer := ⟨"cd", "127.0.0.1", "1338"⟩
    let chunk (offset : Nat) (byte : UInt8) : Event := .response 0
      ⟨⟨⟨false, 0, 0, "get_file", "", "", "", ""⟩, [], [], "", some ⟨1, offset, [byte]⟩⟩,
        .peer peer⟩
    Run.Along (stepWithHistory fun _ => "") (ResumesOwnContent fun _ => "")
      (ofStorage (StaticStorage.init "ab" (by decide)), History.empty)
      [.offer peer note "t", chunk 0 104, chunk 1 105, .destroy 0, .offer peer note "u"] := by
  intro note peer chunk
  let start : Transfers × History :=
    (ofStorage (StaticStorage.init "ab" (by decide)), History.empty)
  apply resumesOwnContent_along (fun _ => "") rfl
  refine ⟨?_, fun t₁ h₁ => ⟨?_, fun t₂ h₂ => ⟨?_, fun t₃ h₃ =>
    ⟨trivial, fun t₄ h₄ => ⟨?_, fun _ _ => trivial⟩⟩⟩⟩⟩
  . intro _ _ _
    refine ⟨?_, rfl⟩
    intro p hp
    have hpath : (ofStorage (StaticStorage.init "ab" (by decide))).storage.fileOf "note" =
        some ["tmp", "peerpaste", "ab", "note"] := by
      decide
    rw [hpath] at hp
    cases hp
    refine ⟨by decide, ?_⟩
    intro name hname
    exact absurd hname (not_inUse_ofStorage rfl name)
  . intro g w c _ haccepts
    have hc := GetFile.accepts_fileChunk haccepts
    simp only [Option.some.injEq] at hc
    subst hc
    exact Nat.zero_le _
  . intro g w c hg haccepts
    have hc := GetFile.accepts_fileChunk haccepts
    simp only [Option.some.injEq] at hc
    subst hc
    have hrun : Run.exec (stepWithHistory fun _ => "") start [.offer peer note "t", chunk 0 104] =
        some t₂ := by
      rw [Run.exec_cons, h₁, Option.bind_some, Run.exec_cons, h₂]
      rfl
    have hpos : (Run.exec (stepWithHistory fun _ => "") start
        [.offer peer note "t", chunk 0 104]).map
          (fun t => (t.1.active 0).bind fun g => g.outputFile.map (·.ofstream.pos))
            = some (some 1) := by
      decide
    rw [hrun, Option.map_some, hg, Option.bind_some, GetFile.accepts_outputFile haccepts] at hpos
    simp only [Option.map_some, Option.some.injEq] at hpos
    rw [hpos]
  . intro _ _ _
    have hrun : Run.exec (stepWithHistory fun _ => "") start
        [.offer peer note "t", chunk 0 104, chunk 1 105, .destroy 0] = some t₄ := by
      rw [Run.exec_cons, h₁, Option.bind_some, Run.exec_cons, h₂, Option.bind_some,
        Run.exec_cons, h₃, Option.bind_some, Run.exec_cons, h₄]
      rfl
    have hstate : (Run.exec (stepWithHistory fun _ => "") start
        [.offer peer note "t", chunk 0 104, chunk 1 105, .destroy 0]).map
          (fun t => (t.1.storage.fileTransfer.keys, (t.1.active 0).isSome, t.1.next,
            t.2.current "note")) = some (["note"], false, 1, some ⟨"1", false⟩) := by
      decide
    have hfile : (Run.exec (stepWithHistory fun _ => "") start
        [.offer peer note "t", chunk 0 104, chunk 1 105, .destroy 0]).map
          (fun t => (t.1.storage.dir, t.1.storage.fileOf "note")) =
        some (["tmp", "peerpaste", "ab"], some ["tmp", "peerpaste", "ab", "note"]) := by
      decide
    have hfresh : t₄.1.Fresh := by
      have hexec := Run.exec_observe (step fun _ => "") (record fun _ => "") start.1 start.2
        [.offer peer note "t", chunk 0 104, chunk 1 105, .destroy 0]
      rw [show Run.exec (Run.observe (step fun _ => "") (record fun _ => ""))
        (start.1, start.2) _ = _ from hrun, Option.map_some] at hexec
      have hstart : start.1.Fresh := fun _ _ => rfl
      exact Run.exec_invariant (fun _ _ _ h hstep => Fresh.step h hstep) hstart hexec.symm
    rw [hrun] at hstate hfile
    simp only [Option.map_some, Option.some.injEq, Prod.mk.injEq] at hstate hfile
    refine ⟨?_, ?_⟩
    . intro p hp
      rw [hfile.2] at hp
      cases hp
      rw [hfile.1]
      refine ⟨by decide, ?_⟩
      rintro name (hmem | ⟨i, w, ⟨g, hg, -⟩, -⟩) -
      . rw [AList.mem_keys, hstate.1] at hmem
        exact List.mem_singleton.mp hmem
      . cases i with
        | zero => simp [hg] at hstate
        | succ i =>
          rw [hfresh (i + 1) (by omega)] at hg
          cases hg
    . split
      . rfl
      . intro _
        exact hstate.2.2.2

/--
Two bytes of a first version arrive, and a second one under the same name is resumed behind the
first of them.
-/
theorem not_resumesOwnContent_along :
    let first : FileInfo := ⟨"note", "1", 3, 0⟩
    let second : FileInfo := ⟨"note", "2", 3, 0⟩
    let peer : Peer := ⟨"cd", "127.0.0.1", "1338"⟩
    let chunk (offset : Nat) (byte : UInt8) : Event := .response 0
      ⟨⟨⟨false, 0, 0, "get_file", "", "", "", ""⟩, [], [], "", some ⟨1, offset, [byte]⟩⟩,
        .peer peer⟩
    ¬ Run.Along (stepWithHistory fun _ => "") (ResumesOwnContent fun _ => "")
      (ofStorage (StaticStorage.init "ab" (by decide)), History.empty)
      [.offer peer first "t", chunk 0 104, chunk 1 105, .destroy 0, .offer peer second "u"] := by
  intro first second peer chunk h
  let events := [Event.offer peer first "t", chunk 0 104, chunk 1 105, .destroy 0]
  let path : AbsPath := ["tmp", "peerpaste", "ab", "note"]
  have hreached : (Run.exec (stepWithHistory fun _ => "")
      (ofStorage (StaticStorage.init "ab" (by decide)), History.empty) events).map
        (fun t => ((t.1.storage.createFile second).2.2.map (·.ofstream.path),
          (t.1.storage.createFile second).2.1.offset,
          (record (fun _ => "") t.1 t.2 (.offer peer second "u")).origin path 0))
      = some (some path, 1, some ⟨"1", false⟩) := by
    decide
  rcases Option.map_eq_some_iff.mp hreached with ⟨t, ht, heq⟩
  simp only [Prod.mk.injEq] at heq
  rcases Option.map_eq_some_iff.mp heq.1 with ⟨output, houtput, hpath⟩
  have hown := Run.Along.of_exec events h ht peer second "u" output rfl houtput 0 (by omega)
  rw [hpath, heq.2.2] at hown
  exact absurd hown (by decide)

end Transfers

end Peerpaste
