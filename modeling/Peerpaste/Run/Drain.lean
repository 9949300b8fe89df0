/-!
This module contains readers that take one unit after another off the front of a stream, and what
such a reader makes of a stream of units in a row.
-/

namespace Run

/--
Reads of one unit off the front of a stream. There is no read as long as the unit is not complete,
and a read takes something off the stream.
-/
structure Reader (σ : Type u) (β : Type v) where
  next : σ → List β → Option (σ × List β)
  length_lt : ∀ {s bs s' bs'}, next s bs = some (s', bs') → bs'.length < bs.length

namespace Reader

variable {σ : Type u} {β : Type v} {α : Type w}

def drain (r : Reader σ β) (s : σ) (bs : List β) : σ × List β :=
  match h : r.next s bs with
  | none => (s, bs)
  | some (s', bs') =>
    have := r.length_lt h
    r.drain s' bs'
  termination_by bs.length

theorem drain_of_none (r : Reader σ β) {s : σ} {bs : List β} (h : r.next s bs = none) :
    r.drain s bs = (s, bs) := by
  rw [drain]
  split
  . rfl
  . next heq => simp [h] at heq

theorem drain_of_some (r : Reader σ β) {s s' : σ} {bs bs' : List β}
    (h : r.next s bs = some (s', bs')) :
    r.drain s bs = r.drain s' bs' := by
  rw [drain]
  split
  . next heq => simp [h] at heq
  . next heq =>
    rw [h] at heq
    cases heq
    rfl

theorem next_nil (r : Reader σ β) (s : σ) : r.next s [] = none := by
  cases h : r.next s [] with
  | none => rfl
  | some t => exact absurd (r.length_lt h) (Nat.not_lt_zero _)

theorem drain_flatten (r : Reader σ β) {encode : α → List β} {put : σ → α → σ} (units : List α)
    (hnext : ∀ x ∈ units, ∀ s rest, r.next s (encode x ++ rest) = some (put s x, rest)) (s : σ) :
    r.drain s (units.map encode).flatten = (units.foldl put s, []) := by
  induction units generalizing s with
  | nil => exact r.drain_of_none (r.next_nil s)
  | cons x units ih =>
    have hx := hnext x List.mem_cons_self s (units.map encode).flatten
    rw [List.map_cons, List.flatten_cons, r.drain_of_some hx, List.foldl_cons]
    apply ih
    intro y hy
    exact hnext y (List.mem_cons_of_mem _ hy)

end Reader

end Run
