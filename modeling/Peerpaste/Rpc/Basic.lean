import Mathlib.Logic.Function.Basic
import Peerpaste.Run.Basic

/-!
This module contains nodes that send each other requests over connections and answer on them: who
reacts to what in which order is open, and so is when a packet arrives and whether it does.
-/

namespace Rpc

structure Connection (α : Type u) (μ : Type v) where
  client : α
  server : α
  request : μ
  deriving DecidableEq, Repr

inductive Packet (μ : Type v) where
  | request (c : Nat)
  | response (c : Nat) (message : μ)
  deriving DecidableEq, Repr

def Packet.connection : Packet μ → Nat
  | .request c => c
  | .response c _ => c

inductive Send (α : Type u) (μ : Type v) where
  | request (server : α) (message : μ)
  | response (c : Nat) (message : μ)
  deriving DecidableEq, Repr

inductive Input (μ : Type v) (ε : Type x) (ω : Type y) where
  | act (e : ε)
  | request (w : ω) (c : Nat) (message : μ)
  | response (w : ω) (c : Nat) (message : μ)

def Input.packet? : Input μ ε ω → Option (Packet μ)
  | .act _ => none
  | .request _ c _ => some (.request c)
  | .response _ c message => some (.response c message)

structure State (α : Type u) (σ : Type w) (μ : Type v) where
  node : α → σ
  connections : List (Connection α μ)
  packets : List (Packet μ)

inductive Event (α : Type u) (ε : Type x) (ω : Type y) where
  | act (a : α) (e : ε)
  | deliver (i : Nat) (w : ω)
  | lose (i : Nat)

abbrev React (α : Type u) (σ : Type w) (μ : Type v) (ε : Type x) (ω : Type y) :=
  α → σ → Input μ ε ω → Option (σ × List (Send α μ))

variable {α : Type u} {σ : Type w} {μ : Type v} {ε : Type x} {ω : Type y}

def opened (a : α) (sends : List (Send α μ)) : List (Connection α μ) :=
  sends.filterMap fun
    | .request server message => some ⟨a, server, message⟩
    | .response _ _ => none

def posted (n : Nat) : List (Send α μ) → List (Packet μ)
  | [] => []
  | .request _ _ :: sends => .request n :: posted (n + 1) sends
  | .response c message :: sends => .response c message :: posted n sends

theorem mem_posted {c : Nat} {message : μ} {n : Nat} {sends : List (Send α μ)}
    (h : .response c message ∈ posted n sends) : .response c message ∈ sends := by
  induction sends generalizing n with
  | nil => cases h
  | cons send sends ih =>
    cases send with
    | request server message' =>
      simp only [posted, List.mem_cons, reduceCtorEq, false_or] at h
      exact List.mem_cons_of_mem _ (ih h)
    | response c' message' =>
      simp only [posted, List.mem_cons, Packet.response.injEq] at h
      rcases h with ⟨rfl, rfl⟩ | h
      . exact List.mem_cons_self
      . exact List.mem_cons_of_mem _ (ih h)

theorem mem_posted_request {c : Nat} {n : Nat} {a : α} {sends : List (Send α μ)}
    (h : .request c ∈ posted n sends) :
    n ≤ c ∧ c < n + (opened a sends).length := by
  induction sends generalizing n with
  | nil => cases h
  | cons send sends ih =>
    cases send with
    | request server message =>
      simp only [posted, List.mem_cons, Packet.request.injEq] at h
      simp only [opened, List.filterMap_cons, List.length_cons] at ih ⊢
      rcases h with rfl | h
      . omega
      . have := ih h
        omega
    | response c' message =>
      simp only [posted, List.mem_cons, reduceCtorEq, false_or] at h
      simp only [opened, List.filterMap_cons] at ih ⊢
      exact ih h

namespace State

def post (s : State α σ μ) (a : α) : Send α μ → State α σ μ
  | .request server message =>
    { s with
      connections := s.connections ++ [⟨a, server, message⟩]
      packets := s.packets ++ [.request s.connections.length] }
  | .response c message => { s with packets := s.packets ++ [.response c message] }

def postAll (s : State α σ μ) (a : α) (sends : List (Send α μ)) : State α σ μ :=
  sends.foldl (post · a) s

def occur (s : State α σ μ) : Event α ε ω → Option (α × Input μ ε ω × State α σ μ)
  | .act a e => some (a, .act e, s)
  | .deliver i w =>
    match s.packets[i]? with
    | none => none
    | some (.request c) =>
      (s.connections[c]?).map fun k =>
        (k.server, .request w c k.request, { s with packets := s.packets.eraseIdx i })
    | some (.response c message) =>
      (s.connections[c]?).map fun k =>
        (k.client, .response w c message, { s with packets := s.packets.eraseIdx i })
  | .lose _ => none

def step [DecidableEq α] (react : React α σ μ ε ω) (s : State α σ μ) :
    Event α ε ω → Option (State α σ μ)
  | .lose i =>
    if i < s.packets.length then some { s with packets := s.packets.eraseIdx i } else none
  | e =>
    (s.occur e).bind fun (a, input, t) =>
      (react a (t.node a) input).map fun (node, sends) =>
        { t with node := Function.update t.node a node }.postAll a sends

inductive Occurs (s : State α σ μ) : Event α ε ω → α → Input μ ε ω → State α σ μ → Prop where
  | act (a : α) (e : ε) : Occurs s (.act a e) a (.act e) s
  | request {i c : Nat} {k : Connection α μ} (w : ω) (hi : s.packets[i]? = some (.request c))
      (hc : s.connections[c]? = some k) :
    Occurs s (.deliver i w) k.server (.request w c k.request)
      { s with packets := s.packets.eraseIdx i }
  | response {i c : Nat} {k : Connection α μ} {message : μ} (w : ω)
      (hi : s.packets[i]? = some (.response c message)) (hc : s.connections[c]? = some k) :
    Occurs s (.deliver i w) k.client (.response w c message)
      { s with packets := s.packets.eraseIdx i }

variable {s s' t : State α σ μ} {a : α} {e : Event α ε ω} {input : Input μ ε ω}
  {sends : List (Send α μ)}

theorem occur_eq_some : s.occur e = some (a, input, t) ↔ s.Occurs e a input t := by
  constructor
  . intro h
    cases e with
    | act _ e =>
      cases h
      exact .act _ e
    | deliver i w =>
      simp only [occur] at h
      split at h
      . cases h
      . next c hi =>
        rcases Option.map_eq_some_iff.mp h with ⟨k, hc, heq⟩
        cases heq
        exact .request w hi hc
      . next c message hi =>
        rcases Option.map_eq_some_iff.mp h with ⟨k, hc, heq⟩
        cases heq
        exact .response w hi hc
    | lose i => cases h
  . intro h
    cases h with
    | act => rfl
    | request w hi hc => simp only [occur, hi, hc, Option.map_some]
    | response w hi hc => simp only [occur, hi, hc, Option.map_some]

theorem postAll_node (s : State α σ μ) (a : α) (sends : List (Send α μ)) :
    (s.postAll a sends).node = s.node := by
  induction sends generalizing s with
  | nil => rfl
  | cons send sends ih =>
    rw [postAll, List.foldl_cons]
    cases send with
    | request => exact ih _
    | response => exact ih _

theorem postAll_connections (s : State α σ μ) (a : α) (sends : List (Send α μ)) :
    (s.postAll a sends).connections = s.connections ++ opened a sends := by
  induction sends generalizing s with
  | nil => simp [postAll, opened]
  | cons send sends ih =>
    rw [postAll, List.foldl_cons]
    cases send with
    | request server message =>
      refine (ih _).trans ?_
      simp [post, opened]
    | response c message =>
      refine (ih _).trans ?_
      simp [post, opened]

theorem postAll_packets (s : State α σ μ) (a : α) (sends : List (Send α μ)) :
    (s.postAll a sends).packets = s.packets ++ posted s.connections.length sends := by
  induction sends generalizing s with
  | nil => simp [postAll, posted]
  | cons send sends ih =>
    rw [postAll, List.foldl_cons]
    cases send with
    | request server message =>
      refine (ih _).trans ?_
      simp [post, posted]
    | response c message =>
      refine (ih _).trans ?_
      simp [post, posted]

theorem Occurs.node_eq (h : s.Occurs e a input t) : t.node = s.node := by
  cases h with
  | act => rfl
  | request => rfl
  | response => rfl

theorem Occurs.connections_eq (h : s.Occurs e a input t) : t.connections = s.connections := by
  cases h with
  | act => rfl
  | request => rfl
  | response => rfl

theorem Occurs.mem_or_packet?_eq (h : s.Occurs e a input t) {p : Packet μ} (hp : p ∈ s.packets) :
    p ∈ t.packets ∨ input.packet? = some p := by
  have htaken {i : Nat} {p' : Packet μ} (hi : s.packets[i]? = some p') :
      p ∈ s.packets.eraseIdx i ∨ some p' = some p := by
    rcases List.mem_iff_getElem?.mp hp with ⟨j, hj⟩
    by_cases heq : j = i
    . right
      rw [← hi, ← heq, hj]
    . exact Or.inl (List.mem_eraseIdx_iff_getElem?.mpr ⟨j, heq, hj⟩)
  cases h with
  | act => exact Or.inl hp
  | request w hi hc => exact htaken hi
  | response w hi hc => exact htaken hi

theorem Occurs.packets_subset (h : s.Occurs e a input t) : t.packets ⊆ s.packets := by
  cases h with
  | act => exact List.Subset.refl _
  | request => exact List.eraseIdx_subset
  | response => exact List.eraseIdx_subset

variable [DecidableEq α] {react : React α σ μ ε ω}

theorem step_cases (h : s.step react e = some s') :
    (∃ i, e = .lose i ∧ i < s.packets.length ∧ s' = { s with packets := s.packets.eraseIdx i })
      ∨
    ∃ a input t node sends, s.Occurs e a input t ∧ react a (t.node a) input = some (node, sends)
      ∧ s' = { t with node := Function.update t.node a node }.postAll a sends := by
  have hreact (hstep : (s.occur e).bind (fun (a, input, t) =>
      (react a (t.node a) input).map fun (node, sends) =>
        { t with node := Function.update t.node a node }.postAll a sends) = some s') :
      ∃ a input t node sends, s.Occurs e a input t ∧ react a (t.node a) input = some (node, sends)
        ∧ s' = { t with node := Function.update t.node a node }.postAll a sends := by
    rcases Option.bind_eq_some_iff.mp hstep with ⟨⟨a, input, t⟩, hoccur, hreact⟩
    rcases Option.map_eq_some_iff.mp hreact with ⟨⟨node, sends⟩, hreact, heq⟩
    exact ⟨a, input, t, node, sends, occur_eq_some.mp hoccur, hreact, heq.symm⟩
  cases e with
  | act a e => exact Or.inr (hreact h)
  | deliver i w => exact Or.inr (hreact h)
  | lose i =>
    simp only [step] at h
    split at h
    . next hi => exact Or.inl ⟨i, rfl, hi, (Option.some.inj h).symm⟩
    . cases h

theorem step_of_occurs {node : σ} (hoccurs : s.Occurs e a input t)
    (hreact : react a (t.node a) input = some (node, sends)) :
    s.step react e = some ({ t with node := Function.update t.node a node }.postAll a sends) := by
  have hoccur := occur_eq_some.mpr hoccurs
  cases e with
  | act b e => simp only [step, hoccur, Option.bind_some, hreact, Option.map_some]
  | deliver i w => simp only [step, hoccur, Option.bind_some, hreact, Option.map_some]
  | lose i => cases hoccurs

theorem step_connections (h : s.step react e = some s') : s.connections <+: s'.connections := by
  rcases step_cases h with ⟨i, _, _, rfl⟩ | ⟨a, input, t, node, sends, hoccurs, _, rfl⟩
  . exact List.prefix_rfl
  . rw [postAll_connections, ← hoccurs.connections_eq]
    exact List.prefix_append _ _

theorem exec_connections {es : List (Event α ε ω)} (h : Run.exec (step react) s es = some s') :
    s.connections <+: s'.connections := by
  have hstep : ∀ (t : State α σ μ) e t', s.connections <+: t.connections →
      t.step react e = some t' →
      s.connections <+: t'.connections := fun _ _ _ hle h => hle.trans (step_connections h)
  exact Run.exec_invariant hstep List.prefix_rfl h

theorem along_good {Good : List (Connection α μ) → Prop}
    (hleft : ∀ cs cs', Good (cs ++ cs') → Good cs) {es : List (Event α ε ω)}
    (hexec : Run.exec (step react) s es = some s') (hgood : Good s'.connections) :
    Run.Along (step react)
      (fun t e => ∀ t', t.step react e = some t' → Good t'.connections) s es := by
  induction es generalizing s with
  | nil => trivial
  | cons e es ih =>
    rcases Option.bind_eq_some_iff.mp hexec with ⟨t, hstep, hexec⟩
    have hnext (t' : State α σ μ) (ht' : s.step react e = some t') :
        Run.exec (step react) t' es = some s' := by
      rw [hstep, Option.some.injEq] at ht'
      exact ht' ▸ hexec
    refine ⟨?_, fun t' ht' => ih (hnext t' ht')⟩
    intro t' ht'
    rcases exec_connections (hnext t' ht') with ⟨cs, hcs⟩
    exact hleft _ cs (hcs ▸ hgood)

end State

/--
What holds of the nodes, given the connections so far, and what may be sent over a connection.
-/
structure Contract (α : Type u) (σ : Type w) (μ : Type v) where
  Node : List (Connection α μ) → α → σ → Prop
  Request : Connection α μ → Prop
  Response : Connection α μ → μ → Prop

namespace Contract

variable {K : Contract α σ μ} {react : React α σ μ ε ω} {Good : List (Connection α μ) → Prop}
  {Cond : α → σ → Input μ ε ω → Prop}

inductive Expects (K : Contract α σ μ) (cs : List (Connection α μ)) (a : α) :
    Input μ ε ω → Prop where
  | act (e : ε) : Expects K cs a (.act e)
  | request {c : Nat} {k : Connection α μ} {message : μ} (w : ω) (hc : cs[c]? = some k)
      (hserver : k.server = a) (hk : K.Request k) (hmessage : k.request = message) :
      Expects K cs a (.request w c message)
  | response {c : Nat} {k : Connection α μ} {message : μ} (w : ω) (hc : cs[c]? = some k)
      (hclient : k.client = a) (hk : K.Request k) (hmessage : K.Response k message) :
      Expects K cs a (.response w c message)

/--
The reactions keep a contract if a node that gets what it expects only sends what others expect. The
connections of the whole run may be assumed to be `Good`.
-/
structure Keeps (K : Contract α σ μ) (react : React α σ μ ε ω) (Good : List (Connection α μ) → Prop)
    (Cond : α → σ → Input μ ε ω → Prop) : Prop where
  good : ∀ cs cs', Good (cs ++ cs') → Good cs
  grow : ∀ cs cs' a node, Good (cs ++ cs') → K.Node cs a node → K.Node (cs ++ cs') a node
  react : ∀ cs a node input node' sends, Good (cs ++ opened a sends) → (∀ k ∈ cs, K.Request k) →
    K.Node cs a node → Cond a node input → K.Expects cs a input →
    react a node input = some (node', sends) →
    K.Node (cs ++ opened a sends) a node' ∧ (∀ k ∈ opened a sends, K.Request k)
      ∧ ∀ c message, .response c message ∈ sends → ∃ k, cs[c]? = some k ∧ K.Response k message

structure Inv (K : Contract α σ μ) (s : State α σ μ) : Prop where
  numbered : ∀ c, .request c ∈ s.packets → c < s.connections.length
  node : ∀ a, K.Node s.connections a (s.node a)
  request : ∀ k ∈ s.connections, K.Request k
  response : ∀ c message, .response c message ∈ s.packets →
    ∃ k, s.connections[c]? = some k ∧ K.Response k message

def Allowed (Cond : α → σ → Input μ ε ω → Prop) (s : State α σ μ) (e : Event α ε ω) : Prop :=
  ∀ a input t, s.Occurs e a input t → Cond a (s.node a) input

instance [∀ a node input, Decidable (Cond a node input)] (s : State α σ μ) (e : Event α ε ω) :
    Decidable (Allowed Cond s e) :=
  decidable_of_iff (∀ x ∈ s.occur e, Cond x.1 (s.node x.1) x.2.1) (by
    constructor
    . intro h a input t hoccurs
      exact h (a, input, t) (State.occur_eq_some.mpr hoccurs)
    . rintro h ⟨a, input, t⟩ hoccur
      exact h a input t (State.occur_eq_some.mp hoccur))

theorem Inv.expects {s t : State α σ μ} {e : Event α ε ω} {a : α} {input : Input μ ε ω}
    (h : K.Inv s) (hoccurs : s.Occurs e a input t) : K.Expects s.connections a input := by
  cases hoccurs with
  | act a e => exact .act e
  | request w hi hc => exact .request w hc rfl (h.request _ (List.mem_of_getElem? hc)) rfl
  | response w hi hc =>
    rcases h.response _ _ (List.mem_of_getElem? hi) with ⟨k, hk, hmessage⟩
    rw [hc, Option.some.injEq] at hk
    subst hk
    exact .response w hc rfl (h.request _ (List.mem_of_getElem? hc)) hmessage

theorem Inv.exists_occurs {s : State α σ μ} (h : K.Inv s) {i : Nat}
    (hi : i < s.packets.length) (w : ω) :
    ∃ a input t, s.Occurs (.deliver i w : Event α ε ω) a input t := by
  have hget : s.packets[i]? = some s.packets[i] := List.getElem?_eq_getElem hi
  cases hpacket : s.packets[i] with
  | request c =>
    have hlt := h.numbered c (hpacket ▸ List.getElem_mem hi)
    exact ⟨_, _, _, .request w (hpacket ▸ hget) (List.getElem?_eq_getElem hlt)⟩
  | response c message =>
    rcases h.response c message (hpacket ▸ List.getElem_mem hi) with ⟨k, hk, _⟩
    exact ⟨_, _, _, .response w (hpacket ▸ hget) hk⟩

variable [DecidableEq α] {s s' : State α σ μ}

theorem Keeps.step (h : K.Keeps react Good Cond) {e : Event α ε ω} (hs : K.Inv s)
    (hallowed : Allowed Cond s e) (hstep : s.step react e = some s') (hgood : Good s'.connections) :
    K.Inv s' := by
  rcases State.step_cases hstep with
    ⟨i, _, _, rfl⟩ | ⟨a, input, t, node, sends, hoccurs, hreact, rfl⟩
  . exact ⟨fun c hmem => hs.numbered c (List.eraseIdx_subset hmem), hs.node, hs.request,
      fun c message hmem => hs.response c message (List.eraseIdx_subset hmem)⟩
  have hnode : t.node = s.node := hoccurs.node_eq
  have hconnections : t.connections = s.connections := hoccurs.connections_eq
  rw [State.postAll_connections] at hgood
  simp only [hconnections] at hgood
  rw [hnode] at hreact
  rcases h.react _ _ _ _ _ _ hgood hs.request (hs.node a) (hallowed a input t hoccurs)
    (hs.expects hoccurs) hreact with ⟨hnew, hrequests, hresponses⟩
  constructor
  case numbered =>
    intro c hmem
    rw [State.postAll_packets] at hmem
    rw [State.postAll_connections, List.length_append]
    simp only [hconnections] at hmem ⊢
    rcases List.mem_append.mp hmem with hmem | hmem
    . have := hs.numbered c (hoccurs.packets_subset hmem)
      omega
    . exact (mem_posted_request hmem).2
  case node =>
    intro b
    rw [State.postAll_node, State.postAll_connections]
    simp only [hconnections, Function.update_apply]
    split
    . next heq => exact heq ▸ hnew
    . rw [hnode]
      exact h.grow _ _ _ _ hgood (hs.node b)
  case request =>
    intro k hk
    rw [State.postAll_connections] at hk
    simp only [hconnections] at hk
    rcases List.mem_append.mp hk with hk | hk
    . exact hs.request k hk
    . exact hrequests k hk
  case response =>
    intro c message hmem
    rw [State.postAll_packets] at hmem
    have hold : ∃ k, s.connections[c]? = some k ∧ K.Response k message := by
      rcases List.mem_append.mp hmem with hmem | hmem
      . exact hs.response c message (hoccurs.packets_subset hmem)
      . exact hresponses c message (mem_posted hmem)
    rcases hold with ⟨k, hk, hmessage⟩
    refine ⟨k, ?_, hmessage⟩
    rw [State.postAll_connections]
    simp only [hconnections]
    rw [List.getElem?_append_left (List.getElem?_eq_some_iff.mp hk).1]
    exact hk

theorem Keeps.exec (h : K.Keeps react Good Cond) {es : List (Event α ε ω)} (hs : K.Inv s)
    (hallowed : Run.Along (State.step react) (Allowed Cond) s es)
    (hexec : Run.exec (State.step react) s es = some s') (hgood : Good s'.connections) :
    K.Inv s' := by
  refine Run.exec_of_along ?_ hs (hallowed.and (State.along_good h.good hexec hgood)) hexec
  intro t e t' ht hcond hstep
  exact h.step ht hcond.1 hstep (hcond.2 t' hstep)

end Contract

end Rpc
