import Mathlib.Data.List.Perm.Basic

/-!
This module contains a stream socket with composed write operations on it: each of them takes its
bytes to the wire in pieces, and nothing keeps the pieces of two operations apart.
-/

structure AsyncWrite (α : Type u) where
  buffer : α
  written : Nat
  deriving DecidableEq, Repr

structure Socket (α : Type u) (β : Type v) where
  wire : List β := []
  writes : List (AsyncWrite α) := []
  completed : List α := []
  deriving DecidableEq, Repr

namespace Socket

variable {α : Type u} {β : Type v}

def asyncWrite (s : Socket α β) (buffer : α) : Socket α β :=
  { s with writes := s.writes ++ [⟨buffer, 0⟩] }

def transfer (bytes : α → List β) (s : Socket α β) (i n : Nat) : Option (Socket α β) :=
  s.writes[i]?.bind fun w =>
    if w.written + n ≤ (bytes w.buffer).length then
      some { s with
        wire := s.wire ++ ((bytes w.buffer).drop w.written).take n
        writes := s.writes.set i { w with written := w.written + n } }
    else
      none

def complete (bytes : α → List β) (s : Socket α β) (i : Nat) : Option (α × Socket α β) :=
  s.writes[i]?.bind fun w =>
    if w.written = (bytes w.buffer).length then
      some (w.buffer, { s with
        writes := s.writes.eraseIdx i
        completed := s.completed ++ [w.buffer] })
    else
      none

def started (s : Socket α β) : List α :=
  s.completed ++ s.writes.map (·.buffer)

structure InTurn (bytes : α → List β) (s : Socket α β) : Prop where
  outstanding : s.writes.length ≤ 1
  wire : s.wire = (s.completed.map bytes).flatten
    ++ (s.writes.map fun w => (bytes w.buffer).take w.written).flatten

variable {bytes : α → List β} {s s' : Socket α β} {i n : Nat} {buffer : α}

theorem asyncWrite_started (s : Socket α β) (buffer : α) :
    (s.asyncWrite buffer).started = s.started ++ [buffer] := by
  simp [asyncWrite, started]

theorem transfer_eq_some (h : s.transfer bytes i n = some s') :
    ∃ w, s.writes[i]? = some w
      ∧ s' = { s with
          wire := s.wire ++ ((bytes w.buffer).drop w.written).take n
          writes := s.writes.set i { w with written := w.written + n } } := by
  rcases Option.bind_eq_some_iff.mp h with ⟨w, hw, h⟩
  rw [Option.ite_none_right_eq_some, Option.some.injEq] at h
  exact ⟨w, hw, h.2.symm⟩

theorem complete_eq_some (h : s.complete bytes i = some (buffer, s')) :
    ∃ w, s.writes[i]? = some w ∧ w.written = (bytes w.buffer).length ∧ buffer = w.buffer
      ∧ s' = { s with writes := s.writes.eraseIdx i, completed := s.completed ++ [w.buffer] } := by
  rcases Option.bind_eq_some_iff.mp h with ⟨w, hw, h⟩
  rw [Option.ite_none_right_eq_some, Option.some.injEq, Prod.mk.injEq] at h
  exact ⟨w, hw, h.1, h.2.1.symm, h.2.2.symm⟩

theorem transfer_buffers (h : s.transfer bytes i n = some s') :
    s'.writes.map (·.buffer) = s.writes.map (·.buffer) := by
  rcases transfer_eq_some h with ⟨w, hw, rfl⟩
  apply List.ext_getElem?
  intro j
  simp only [List.getElem?_map, List.getElem?_set]
  split
  . next heq =>
    subst heq
    rcases List.getElem?_eq_some_iff.mp hw with ⟨hlt, hget⟩
    simp [hlt, hget]
  . rfl

theorem transfer_completed (h : s.transfer bytes i n = some s') : s'.completed = s.completed := by
  rcases transfer_eq_some h with ⟨w, _, rfl⟩
  rfl

theorem complete_buffers (h : s.complete bytes i = some (buffer, s')) :
    (buffer :: s'.writes.map (·.buffer)).Perm (s.writes.map (·.buffer)) := by
  rcases complete_eq_some h with ⟨w, hw, _, rfl, rfl⟩
  rcases List.getElem?_eq_some_iff.mp hw with ⟨hlt, rfl⟩
  exact (List.getElem_cons_eraseIdx_perm hlt).map (·.buffer)

theorem complete_started (h : s.complete bytes i = some (buffer, s')) :
    s'.started.Perm s.started := by
  have hbuffers := complete_buffers h
  rcases complete_eq_some h with ⟨w, _, _, rfl, rfl⟩
  simp only [started, List.append_assoc, List.singleton_append]
  exact hbuffers.append_left s.completed

theorem InTurn.writes_eq (hs : s.InTurn bytes) {w : AsyncWrite α} (hw : s.writes[i]? = some w) :
    i = 0 ∧ s.writes = [w] := by
  have hle := hs.outstanding
  rcases List.getElem?_eq_some_iff.mp hw with ⟨hlt, hget⟩
  have hi : i = 0 := by omega
  subst hi
  have hlength : s.writes.length = 1 := by omega
  rcases List.length_eq_one_iff.mp hlength with ⟨w', hw'⟩
  simp only [hw', List.getElem_singleton] at hget
  exact ⟨rfl, hget ▸ hw'⟩

theorem InTurn.asyncWrite_iff (hs : s.InTurn bytes) (buffer : α) :
    (s.asyncWrite buffer).InTurn bytes ↔ s.writes = [] := by
  constructor
  . intro h
    have hle := h.outstanding
    simp only [asyncWrite, List.length_append, List.length_singleton] at hle
    exact List.eq_nil_of_length_eq_zero (by omega)
  . intro h
    have hwire := hs.wire
    simp only [h, List.map_nil, List.flatten_nil, List.append_nil] at hwire
    exact ⟨by simp [asyncWrite, h], by simp [asyncWrite, h, hwire]⟩

theorem InTurn.transfer (hs : s.InTurn bytes) (h : s.transfer bytes i n = some s') :
    s'.InTurn bytes := by
  rcases transfer_eq_some h with ⟨w, hw, rfl⟩
  rcases hs.writes_eq hw with ⟨rfl, hwrites⟩
  have hwire := hs.wire
  simp only [hwrites, List.map_singleton, List.flatten_singleton] at hwire
  refine ⟨by simp [hwrites], ?_⟩
  simp [hwrites, hwire, List.take_add]

theorem InTurn.complete (hs : s.InTurn bytes) (h : s.complete bytes i = some (buffer, s')) :
    s'.InTurn bytes ∧ s'.started = s.started := by
  rcases complete_eq_some h with ⟨w, hw, hwritten, rfl, rfl⟩
  rcases hs.writes_eq hw with ⟨rfl, hwrites⟩
  have hwire := hs.wire
  simp only [hwrites, List.map_singleton, List.flatten_singleton, hwritten, List.take_length]
    at hwire
  refine ⟨⟨by simp [hwrites], ?_⟩, by simp [started, hwrites]⟩
  simp [hwrites, hwire]

theorem InTurn.exists_wire_append (hs : s.InTurn bytes) :
    ∃ tail, s.wire ++ tail = (s.started.map bytes).flatten := by
  rw [hs.wire, started]
  have hle := hs.outstanding
  rcases hwrites : s.writes with _ | ⟨w, ws⟩
  . exact ⟨[], by simp⟩
  . rw [hwrites, List.length_cons] at hle
    have hnil : ws = [] := List.eq_nil_of_length_eq_zero (by omega)
    refine ⟨(bytes w.buffer).drop w.written, ?_⟩
    simp [hnil]

end Socket
