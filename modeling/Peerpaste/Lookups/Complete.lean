import Peerpaste.Lookups.Correct

/-!
This module contains that no lookup is forgotten: as long as nothing gets lost, whoever waits for an
answer is still going to get it, until nothing is on its way any more.
-/

namespace Peerpaste

namespace Lookups

def Lossless : Event → Prop
  | .act _ (.create _ _ _ _) => True
  | .act _ (.timeOut _) => False
  | .deliver _ _ => True
  | .lose _ => False

def InFlight (s : State) (c : Nat) : Prop :=
  ∃ p ∈ s.packets, p.connection = c

def Owed (s : State) (c : Nat) (k : Connection) : Prop :=
  ∃ w ∈ (s.node k.server).waiting, ∃ r ∈ w.request, ∃ ip, r.connection = .session ⟨c, ip⟩

/--
Every object waits for an answer that somebody still has to give. What it has asked for itself came
later than the request that it handles.
-/
structure Accounted (s : State) : Prop where
  nodup : ∀ a, ((s.node a).waiting.map Waiting.transactionId).Nodup
  later : ∀ a, ∀ w ∈ (s.node a).waiting, ∃ c k, s.connections[c]? = some k ∧ k.client = a
    ∧ k.request.header.transactionId = w.transactionId
    ∧ ∀ r ∈ w.request, ∃ c₀ ip, r.connection = .session ⟨c₀, ip⟩ ∧ c₀ < c
  held : ∀ c k, s.connections[c]? = some k → ∀ w ∈ (s.node k.client).waiting,
    w.transactionId = k.request.header.transactionId → InFlight s c ∨ Owed s c k

def Finder.asked (f : Finder) : List String :=
  (f.waiting.filter (·.request.isNone)).map Waiting.id ++ f.promises.map Prod.fst

def created (a : Endpoint) (events : List Event) : List String :=
  events.filterMap fun
    | .act b (.create _ id _ _) => if b = a then some id else none
    | _ => none

def createdBy : Rpc.Input Message Act Arrival → List String
  | .act (.create _ id _ _) => [id]
  | _ => []

section Finder

variable {f : Finder} {w w' : Waiting} {transactionId id : String} {value : Option Peer}

theorem Finder.register_waiting (h : ∀ w' ∈ f.waiting, w'.transactionId ≠ w.transactionId) :
    (f.register w).waiting = w :: f.waiting := by
  have hnone : f.find? w.transactionId = none := by
    unfold Finder.find?
    rw [List.find?_eq_none]
    intro w' hw'
    simpa using h w' hw'
  simp [Finder.register, hnone]

theorem Finder.erase_sublist (f : Finder) (transactionId : String) :
    (f.erase transactionId).waiting.Sublist f.waiting :=
  List.filter_sublist

theorem Finder.eq_or_mem_erase (hnodup : (f.waiting.map Waiting.transactionId).Nodup)
    (hfind : f.find? transactionId = some w) (hw' : w' ∈ f.waiting) :
    w' = w ∨ w' ∈ (f.erase transactionId).waiting := by
  rcases Finder.mem_of_find? hfind with ⟨hw, hid⟩
  by_cases heq : w'.transactionId = transactionId
  . exact Or.inl (List.inj_on_of_nodup_map hnodup hw' hw (heq.trans hid.symm))
  . exact Or.inr (Finder.mem_erase.mpr ⟨hw', heq⟩)

theorem Finder.find?_ne_none (hw : w ∈ f.waiting) : f.find? w.transactionId ≠ none := by
  intro hnone
  unfold Finder.find? at hnone
  rw [List.find?_eq_none] at hnone
  exact hnone w hw (by simp)

theorem Finder.asked_setPromise : (f.setPromise id value).asked.Perm (id :: f.asked) :=
  List.perm_middle

theorem Finder.asked_register (h : (f.register w).waiting = w :: f.waiting) :
    (f.register w).asked = if w.request.isNone then w.id :: f.asked else f.asked := by
  unfold Finder.asked
  rw [h, Finder.register_promises, List.filter_cons]
  split
  . rfl
  . rfl

theorem Finder.waiting_perm_erase (hnodup : (f.waiting.map Waiting.transactionId).Nodup)
    (hfind : f.find? transactionId = some w) :
    f.waiting.Perm (w :: (f.erase transactionId).waiting) := by
  rcases Finder.mem_of_find? hfind with ⟨hw, hid⟩
  have hsub := Finder.erase_sublist f transactionId
  rw [List.perm_ext_iff_of_nodup hnodup.of_map]
  . intro w'
    rw [List.mem_cons]
    constructor
    . exact Finder.eq_or_mem_erase hnodup hfind
    . rintro (rfl | hw')
      . exact hw
      . exact hsub.subset hw'
  . rw [List.nodup_cons]
    refine ⟨?_, hnodup.of_map.sublist hsub⟩
    intro hmem
    exact (Finder.mem_erase.mp hmem).2 hid

theorem Finder.asked_erase (hnodup : (f.waiting.map Waiting.transactionId).Nodup)
    (hfind : f.find? transactionId = some w) :
    f.asked.Perm
      (if w.request.isNone then w.id :: (f.erase transactionId).asked
        else (f.erase transactionId).asked) := by
  have hperm := ((Finder.waiting_perm_erase hnodup hfind).filter (·.request.isNone)).map Waiting.id
  have hasked := hperm.append_right (f.promises.map Prod.fst)
  rw [List.filter_cons] at hasked
  split
  . next hnone =>
    rw [if_pos hnone] at hasked
    exact hasked
  . next hsome =>
    rw [if_neg hsome] at hasked
    exact hasked

end Finder

section Accounted

variable {s s' : State} {a : Endpoint} {c : Nat} {k k' : Connection} {w : Waiting} {f : Finder}

theorem Accounted.init : Accounted init := by
  refine ⟨?_, ?_, ?_⟩
  all_goals simp [Lookups.init]

theorem Accounted.shrink (h : Accounted s) (hconnections : s'.connections = s.connections)
    (hnode : ∀ b, (s'.node b).waiting.Sublist (s.node b).waiting)
    (hheld : ∀ c k, s.connections[c]? = some k → (∃ w ∈ (s'.node k.client).waiting,
      w.transactionId = k.request.header.transactionId) → InFlight s c ∨ Owed s c k →
      InFlight s' c ∨ Owed s' c k) :
    Accounted s' := by
  constructor
  case nodup =>
    intro b
    exact (h.nodup b).sublist ((hnode b).map _)
  case later =>
    intro b w hw
    rw [hconnections]
    exact h.later b w ((hnode b).subset hw)
  case held =>
    intro c k hc w hw hid
    rw [hconnections] at hc
    exact hheld c k hc ⟨w, hw, hid⟩ (h.held c k hc w ((hnode k.client).subset hw) hid)

theorem Accounted.keeps (h : Accounted s) (hconnections : s'.connections = s.connections)
    (hnode : s'.node = Function.update s.node a f) (hwaiting : f.waiting = (s.node a).waiting)
    (hpackets : ∀ c k, s.connections[c]? = some k → (∃ w ∈ (s.node k.client).waiting,
      w.transactionId = k.request.header.transactionId) → InFlight s c → InFlight s' c) :
      Accounted s' := by
  have hsame (b : Endpoint) : (s'.node b).waiting = (s.node b).waiting := by
    rw [hnode]
    by_cases heq : b = a
    . rw [heq, Function.update_self, hwaiting]
    . rw [Function.update_of_ne heq]
  apply h.shrink hconnections
  . intro b
    rw [hsame]
  . intro c k hc hw hheld
    rw [hsame] at hw
    rcases hheld with hflight | howed
    . exact Or.inl (hpackets c k hc hw hflight)
    . right
      unfold Owed at howed ⊢
      rw [hsame]
      exact howed

theorem Accounted.erase (h : Accounted s) (hconnections : s'.connections = s.connections)
    (hc : s.connections[c]? = some k) (hclient : k.client = a)
    (hfind : (s.node a).find? k.request.header.transactionId = some w)
    (hnode : s'.node = Function.update s.node a f)
    (hwaiting : f.waiting = ((s.node a).erase k.request.header.transactionId).waiting)
    (hpackets : ∀ p ∈ s.packets, p.connection = c ∨ p ∈ s'.packets)
    (hanswer : ∀ r ∈ w.request, ∀ c₀ ip, r.connection = .session ⟨c₀, ip⟩ → InFlight s' c₀) :
    Accounted s' := by
  have hself : (s'.node a).waiting = ((s.node a).erase k.request.header.transactionId).waiting := by
    rw [hnode, Function.update_self, hwaiting]
  have hother {b : Endpoint} (hb : b ≠ a) : s'.node b = s.node b := by
    rw [hnode, Function.update_of_ne hb]
  apply h.shrink hconnections
  . intro b
    by_cases heq : b = a
    . rw [heq, hself]
      exact Finder.erase_sublist _ _
    . rw [hother heq]
  . intro c' k' hc' hw hheld
    rcases hheld with ⟨p, hp, rfl⟩ | ⟨w₀, hw₀, r, hr, ip, hsession⟩
    . rcases hpackets p hp with heq | hp
      . -- this is the answer that has arrived, for which nobody waits any more
        rw [heq, hc, Option.some.injEq] at hc'
        subst hc'
        rcases hw with ⟨w', hw', hid⟩
        rw [hclient, hself] at hw'
        exact absurd hid (Finder.mem_erase.mp hw').2
      . exact Or.inl ⟨p, hp, rfl⟩
    . by_cases hserver : k'.server = a
      . rw [hserver] at hw₀
        rcases Finder.eq_or_mem_erase (h.nodup a) hfind hw₀ with rfl | hw₀
        . exact Or.inl (hanswer r hr c' ip hsession)
        . refine Or.inr ⟨w₀, ?_, r, hr, ip, hsession⟩
          rw [hserver, hself]
          exact hw₀
      . refine Or.inr ⟨w₀, ?_, r, hr, ip, hsession⟩
        rw [hother hserver]
        exact hw₀

theorem FreshIds.ne {cs : List Connection} (h : FreshIds (cs ++ [k'])) (hk : k ∈ cs)
    (hclient : k.client = k'.client) :
    k.request.header.transactionId ≠ k'.request.header.transactionId := by
  intro hid
  unfold FreshIds at h
  rw [List.map_append, List.nodup_append] at h
  exact h.2.2 _ (List.mem_map_of_mem hk) _ (List.mem_map_of_mem (List.mem_singleton_self k'))
    (by rw [hclient, hid])

theorem Accounted.ne_of_fresh (h : Accounted s) (hfresh : FreshIds (s.connections ++ [k']))
    (hclient : k'.client = a) (hid : k'.request.header.transactionId = w.transactionId) :
    ∀ w' ∈ (s.node a).waiting, w'.transactionId ≠ w.transactionId := by
  intro w' hw'
  rcases h.later a w' hw' with ⟨c, k, hc, hk, hid', _⟩
  rw [← hid, ← hid']
  exact hfresh.ne (List.mem_of_getElem? hc) (hk.trans hclient.symm)

theorem Accounted.opens (h : Accounted s) (hconnections : s'.connections = s.connections ++ [k'])
    (hclient : k'.client = a) (hid : k'.request.header.transactionId = w.transactionId)
    (hnode : s'.node = Function.update s.node a ((s.node a).register w))
    (hfresh : FreshIds s'.connections)
    (horigin : ∀ r ∈ w.request, ∃ c₀ ip, r.connection = .session ⟨c₀, ip⟩
      ∧ c₀ < s.connections.length)
    (hnew : .request s.connections.length ∈ s'.packets)
    (hpackets : ∀ p ∈ s.packets, p ∈ s'.packets ∨ ∀ k, s.connections[p.connection]? = some k →
      w ∈ ((s.node a).register w).waiting → Owed s' p.connection k) : Accounted s' := by
  rw [hconnections] at hfresh
  have hother := h.ne_of_fresh hfresh hclient hid
  have hregister := Finder.register_waiting hother
  have hold {b : Endpoint} {w' : Waiting} (hw' : w' ∈ (s'.node b).waiting) :
      w' ∈ (s.node b).waiting ∨ b = a ∧ w' = w := by
    rw [hnode] at hw'
    by_cases heq : b = a
    . subst heq
      rw [Function.update_self, hregister] at hw'
      rcases List.mem_cons.mp hw' with rfl | hw'
      . exact Or.inr ⟨rfl, rfl⟩
      . exact Or.inl hw'
    . rw [Function.update_of_ne heq] at hw'
      exact Or.inl hw'
  have hgrow {b : Endpoint} {w' : Waiting} (hw' : w' ∈ (s.node b).waiting) :
    w' ∈ (s'.node b).waiting := by
    rw [hnode]
    by_cases heq : b = a
    . subst heq
      rw [Function.update_self, hregister]
      exact List.mem_cons_of_mem w hw'
    . rw [Function.update_of_ne heq]
      exact hw'
  constructor
  case nodup =>
    intro b
    rw [hnode]
    by_cases heq : b = a
    . subst heq
      rw [Function.update_self, hregister, List.map_cons, List.nodup_cons]
      refine ⟨?_, h.nodup b⟩
      rw [List.mem_map]
      rintro ⟨w', hw', heq⟩
      exact hother w' hw' heq
    . rw [Function.update_of_ne heq]
      exact h.nodup b
  case later =>
    intro b w' hw'
    rw [hconnections]
    rcases hold hw' with hw' | ⟨rfl, rfl⟩
    . rcases h.later b w' hw' with ⟨c, k, hc, hk⟩
      refine ⟨c, k, ?_, hk⟩
      rw [List.getElem?_append_left (List.getElem?_eq_some_iff.mp hc).1]
      exact hc
    . exact ⟨s.connections.length, k', by simp, hclient, hid, horigin⟩
  case held =>
    intro c k hc w' hw' hid'
    rw [hconnections] at hc
    by_cases hlt : c < s.connections.length
    . rw [List.getElem?_append_left hlt] at hc
      rcases hold hw' with hw' | ⟨heq, rfl⟩
      . rcases h.held c k hc w' hw' hid' with ⟨p, hp, rfl⟩ | ⟨w₀, hw₀, hr⟩
        . rcases hpackets p hp with hp | howed
          . exact Or.inl ⟨p, hp, rfl⟩
          . right
            apply howed k hc
            rw [hregister]
            exact List.mem_cons_self
        . exact Or.inr ⟨w₀, hgrow hw₀, hr⟩
      . exact absurd (hid'.symm.trans hid.symm)
          (hfresh.ne (List.mem_of_getElem? hc) (heq.trans hclient.symm))
    . have hlength := (List.getElem?_eq_some_iff.mp hc).1
      rw [List.length_append, List.length_singleton] at hlength
      have heq : c = s.connections.length := by omega
      exact Or.inl ⟨_, hnew, heq.symm⟩

theorem Accounted.step {net : Network} (hnet : net.WellFormed) (h : Accounted s)
    (hinv : (contract net).Inv s) {e : Event} (hallowed : Rpc.Contract.Allowed (Sound net) s e)
    (hlossless : Lossless e)
    (hstep : step s e = some s') (hfresh : FreshIds s'.connections) : Accounted s' := by
  rcases Rpc.State.step_cases hstep with
    ⟨i, rfl, _, _⟩ | ⟨a, input, t, f, sends, hoccurs, hreact, heq⟩
  . cases hlossless
  rw [hoccurs.node_eq] at hreact
  have hexpects := hinv.expects hoccurs
  have hreacts := react_reacts hnet (hallowed a input t hoccurs) hexpects hreact
  have hnode : s'.node = Function.update s.node a f := by
    rw [heq, Rpc.State.postAll_node, hoccurs.node_eq]
  have hopened : s'.connections = s.connections ++ Rpc.opened a sends := by
    rw [heq, Rpc.State.postAll_connections, hoccurs.connections_eq]
  have hpackets : s'.packets = t.packets ++ Rpc.posted s.connections.length sends := by
    rw [heq, Rpc.State.postAll_packets, hoccurs.connections_eq]
  have hleft {p : Rpc.Packet Message} (hp : p ∈ t.packets) : p ∈ s'.packets := by
    rw [hpackets]
    exact List.mem_append_left _ hp
  have hsent {p : Rpc.Packet Message} (hp : p ∈ Rpc.posted s.connections.length sends) :
    p ∈ s'.packets := by
    rw [hpackets]
    exact List.mem_append_right _ hp
  have htaken {p : Rpc.Packet Message} (hp : p ∈ s.packets) := hoccurs.mem_or_packet?_eq hp
  cases hreacts with
  | known hs hsucc =>
    refine h.keeps (hopened.trans (List.append_nil _)) hnode rfl ?_
    rintro c k hc - ⟨p, hp, rfl⟩
    exact ⟨p, hleft ((htaken hp).resolve_right nofun), rfl⟩
  | @asked rt id transactionId target p hp =>
    refine h.opens hopened rfl rfl hnode hfresh (by simp) (hsent List.mem_cons_self) ?_
    intro p hp
    exact Or.inl (hleft ((htaken hp).resolve_right nofun))
  | failed hfind hrequest =>
    cases hoccurs
    cases hlossless
  | dropped hfind hrequest =>
    cases hoccurs
    cases hlossless
  | @answered arrival c peer s₁ transactionId hs hsucc =>
    refine h.keeps (hopened.trans (List.append_nil _)) hnode rfl ?_
    rintro c' k hc - ⟨p, hp, rfl⟩
    rcases htaken hp with hp | heq
    . exact ⟨p, hleft hp, rfl⟩
    . cases heq
      exact ⟨_, hsent List.mem_cons_self, rfl⟩
  | @forwarded arrival c peer p transactionId hp hbetween =>
    cases hexpects with
    | @request _ k _ _ hc hserver hk hmessage =>
      have hlt := (List.getElem?_eq_some_iff.mp hc).1
      refine h.opens hopened rfl rfl hnode hfresh ?_ (hsent List.mem_cons_self) ?_
      . rintro r ⟨⟩
        exact ⟨c, arrival.clientIp, rfl, hlt⟩
      . intro p hp
        rcases htaken hp with hp | heq
        . exact Or.inl (hleft hp)
        . cases heq
          right
          intro k' hk' hw
          have heq : k = k' := Option.some.inj (hc.symm.trans hk')
          let r : RequestObject := ⟨ask peer transactionId, .session ⟨c, arrival.clientIp⟩⟩
          have hw : ⟨arrival.transactionId, "", some r⟩ ∈ (s'.node k'.server).waiting := by
            rw [hnode, ← heq, hserver, Function.update_self]
            exact hw
          exact ⟨_, hw, r, rfl, arrival.clientIp, rfl⟩
  | @ignored arrival c message hfind =>
    cases hexpects with
    | @response _ k _ _ hc hclient hk hmessage =>
      refine h.keeps (hopened.trans (List.append_nil _)) hnode rfl ?_
      rintro c' k' hc' ⟨w, hw, hid⟩ ⟨p, hp, rfl⟩
      rcases htaken hp with hp | heq
      . exact ⟨p, hleft hp, rfl⟩
      . cases heq
        have heq : k = k' := Option.some.inj (hc.symm.trans hc')
        rw [← heq, hclient] at hw
        rw [← heq, ← hmessage.correlationalId] at hid
        rw [← hid] at hfind
        exact absurd hfind (Finder.find?_ne_none hw)
  | @resolved arrival c message w s₁ hfind hrequest hpeers =>
    cases hexpects with
    | @response _ k _ _ hc hclient hk hmessage =>
      rw [hmessage.correlationalId] at hfind hnode
      refine h.erase (hopened.trans (List.append_nil _)) hc hclient hfind hnode rfl ?_
        (by simp [hrequest])
      intro p hp
      rcases htaken hp with hp | heq
      . exact Or.inr (hleft hp)
      . cases heq
        exact Or.inl rfl
  | @passedBack arrival c message w r s₁ hfind hrequest hpeers =>
    cases hexpects with
    | @response _ k _ _ hc hclient hk hmessage =>
      rw [hmessage.correlationalId] at hfind hnode
      rw [hopened] at hfresh
      have hright : Right net s.connections a (s.node a) := hinv.node a
      rw [← hmessage.correlationalId] at hfind
      rcases hright.tracked_of_response hfresh.left
        (List.mem_of_getElem? hc) hclient hmessage hfind with ⟨peer, ht⟩
      rcases ht.forwarded r hrequest with ⟨c₀, ip, k₀, rfl, _⟩
      rw [hmessage.correlationalId] at hfind
      refine h.erase (hopened.trans (List.append_nil _)) hc hclient hfind hnode rfl ?_ ?_
      . intro p hp
        rcases htaken hp with hp | heq
        . exact Or.inr (hleft hp)
        . cases heq
          exact Or.inl rfl
      . rw [hrequest]
        rintro r ⟨⟩ c₁ ip₁ ⟨⟩
        exact ⟨_, hsent List.mem_cons_self, rfl⟩

/--
When nothing is on its way any more, nobody waits. Otherwise take who waits with the latest
connection: an object of the server would have to wait with a later one.
-/
theorem Accounted.waiting_eq_nil (h : Accounted s) (hpackets : s.packets = []) (a : Endpoint) :
    (s.node a).waiting = [] := by
  have hnobody : ∀ n c k, s.connections.length - c ≤ n → s.connections[c]? = some k →
      ∀ w ∈ (s.node k.client).waiting, w.transactionId ≠ k.request.header.transactionId := by
    intro n
    induction n with
    | zero =>
      intro c k hle hc
      have hlt := (List.getElem?_eq_some_iff.mp hc).1
      omega
    | succ n ih =>
      intro c k hle hc w hw hid
      rcases h.held c k hc w hw hid with ⟨p, hp, _⟩ | ⟨w₀, hw₀, r, hr, ip, hsession⟩
      . rw [hpackets] at hp
        cases hp
      . rcases h.later k.server w₀ hw₀ with ⟨c', k', hc', hclient, hid', hlater⟩
        rcases hlater r hr with ⟨c₁, ip₁, hsession₁, hlt⟩
        rw [hsession] at hsession₁
        cases hsession₁
        have hlength := (List.getElem?_eq_some_iff.mp hc).1
        rw [← hclient] at hw₀
        exact ih c' k' (by omega) hc' w₀ hw₀ hid'.symm
  rw [List.eq_nil_iff_forall_not_mem]
  intro w hw
  rcases h.later a w hw with ⟨c, k, hc, rfl, hid, _⟩
  exact hnobody _ c k (Nat.le_refl _) hc w hw hid.symm

theorem created_of_occurs {e : Event} {input : Rpc.Input Message Act Arrival} {t : State}
    (hoccurs : s.Occurs e a input t) (b : Endpoint) :
    created b [e] = if b = a then createdBy input else [] := by
  cases hoccurs with
  | act a e =>
    cases e with
    | create rt id target transactionId =>
      by_cases heq : b = a
      . simp [created, createdBy, heq]
      . simp [created, heq, Ne.symm heq]
    | timeOut => simp [created, createdBy]
  | request => simp [created, createdBy]
  | response => simp [created, createdBy]

theorem asked_step {net : Network} (hnet : net.WellFormed) (h : Accounted s)
    (hinv : (contract net).Inv s) {e : Event} (hallowed : Rpc.Contract.Allowed (Sound net) s e)
    (hlossless : Lossless e)
    (hstep : step s e = some s') (hfresh : FreshIds s'.connections) (b : Endpoint) :
    (s'.node b).asked.Perm (created b [e] ++ (s.node b).asked)
      ∧ ∀ p ∈ (s'.node b).promises, p ∈ (s.node b).promises ∨ p.2.isSome := by
  rcases Rpc.State.step_cases hstep with
    ⟨i, rfl, _, _⟩ | ⟨a, input, t, f, sends, hoccurs, hreact, heq⟩
  . cases hlossless
  rw [hoccurs.node_eq] at hreact
  have hreacts := react_reacts hnet (hallowed a input t hoccurs) (hinv.expects hoccurs) hreact
  have hnode : s'.node = Function.update s.node a f := by
    rw [heq, Rpc.State.postAll_node, hoccurs.node_eq]
  have hopened : s'.connections = s.connections ++ Rpc.opened a sends := by
    rw [heq, Rpc.State.postAll_connections, hoccurs.connections_eq]
  rw [hopened] at hfresh
  rw [created_of_occurs hoccurs]
  have hsame (f : Finder) : ∀ p ∈ f.promises, p ∈ f.promises ∨ p.2.isSome := fun p hp => Or.inl hp
  by_cases hb : b = a
  . subst hb
    rw [hnode, Function.update_self, if_pos rfl]
    have hregister {w : Waiting} {k' : Connection} (hfresh : FreshIds (s.connections ++ [k']))
        (hclient : k'.client = b) (hid : k'.request.header.transactionId = w.transactionId) :=
      Finder.asked_register (Finder.register_waiting (h.ne_of_fresh hfresh hclient hid))
    have hset (f : Finder) (id : String) (q : Peer) :
        ∀ p ∈ (f.setPromise id (some q)).promises, p ∈ f.promises ∨ p.2.isSome := by
      intro p hp
      rcases List.mem_cons.mp hp with rfl | hp
      . exact Or.inr rfl
      . exact Or.inl hp
    cases hreacts with
    | known hs hsucc => exact ⟨Finder.asked_setPromise, hset _ _ _⟩
    | asked hp =>
      rw [hregister hfresh rfl rfl, Finder.register_promises]
      exact ⟨List.Perm.refl _, hsame _⟩
    | failed hfind hrequest =>
      cases hoccurs
      cases hlossless
    | dropped hfind hrequest =>
      cases hoccurs
      cases hlossless
    | answered hs hsucc => exact ⟨List.Perm.refl _, hsame _⟩
    | forwarded hp hbetween =>
      rw [hregister hfresh rfl rfl, Finder.register_promises]
      exact ⟨List.Perm.refl _, hsame _⟩
    | ignored hfind => exact ⟨List.Perm.refl _, hsame _⟩
    | resolved hfind hrequest hpeers =>
      have hasked := Finder.asked_erase (h.nodup _) hfind
      rw [hrequest] at hasked
      exact ⟨Finder.asked_setPromise.trans hasked.symm, hset _ _ _⟩
    | passedBack hfind hrequest hpeers =>
      have hasked := Finder.asked_erase (h.nodup _) hfind
      rw [hrequest] at hasked
      exact ⟨hasked.symm, hsame _⟩
  . rw [hnode, Function.update_of_ne hb, if_neg hb]
    exact ⟨List.Perm.refl _, hsame _⟩

end Accounted

structure Kept (net : Network) (s : State) (past : List Event) : Prop where
  inv : (contract net).Inv s
  accounted : Accounted s
  asked : ∀ a, (s.node a).asked.Perm (created a past)
  isSome : ∀ a, ∀ p ∈ (s.node a).promises, p.2.isSome

theorem created_append (a : Endpoint) (past events : List Event) :
    created a (past ++ events) = created a past ++ created a events :=
  List.filterMap_append

theorem Kept.step {net : Network} (hnet : net.WellFormed) {s s' : State}
    {past : List Event} {e : Event} (h : Kept net s past)
    (hallowed : Rpc.Contract.Allowed (Sound net) s e) (hlossless : Lossless e)
    (hstep : step s e = some s') (hfresh : FreshIds s'.connections) :
    Kept net s' (past ++ [e]) := by
  have hasked := asked_step hnet h.accounted h.inv hallowed hlossless hstep hfresh
  refine ⟨(contract_keeps hnet).step h.inv hallowed hstep hfresh,
    h.accounted.step hnet h.inv hallowed hlossless hstep hfresh, ?_, ?_⟩
  . intro a
    rw [created_append]
    exact (hasked a).1.trans (((h.asked a).append_left _).trans List.perm_append_comm)
  . intro a p hp
    rcases (hasked a).2 p hp with hp | hp
    . exact h.isSome a p hp
    . exact hp

theorem Kept.exec {net : Network} (hnet : net.WellFormed) {events : List Event} {s : State}
    (hsound : Run.Along Lookups.step (Rpc.Contract.Allowed (Sound net)) init events)
    (hlossless : ∀ e ∈ events, Lossless e) (hexec : Run.exec Lookups.step init events = some s)
    (hfresh : FreshIds s.connections) : Kept net s events := by
  have hstart : Kept net init [] := by
    refine ⟨init_inv net, Accounted.init, ?_, ?_⟩
    . intro a
      exact List.Perm.refl _
    . simp [Lookups.init]
  have hgood := Rpc.State.along_good (fun _ _ => FreshIds.left) hexec hfresh
  have hcond := (hsound.and (.of_forall fun e he _ => hlossless e he)).and hgood
  refine Run.exec_history ?_ hstart hcond hexec
  intro t past e t' ht hcond hstep
  exact ht.step hnet hcond.1.1 hcond.1.2 hstep (hcond.2 t' hstep)

/--
In a run in which nothing gets lost and nothing times out, while the tables of the nodes know the
next node of the ring and ids are fresh, no lookup is forgotten: when no message is on its way any
more, no object waits, and the promises of a node are, up to their order, one for each lookup that
it has begun, each with the successor of its id.
-/
theorem lookups_complete {net : Network} (hnet : net.WellFormed) {events : List Event} {s : State}
    (hsound : Run.Along step (Rpc.Contract.Allowed (Sound net)) init events)
    (hlossless : ∀ e ∈ events, Lossless e) (hexec : Run.exec step init events = some s)
    (hfresh : FreshIds s.connections) (hidle : s.packets = []) (a : Endpoint) :
    (s.node a).waiting = [] ∧ ((s.node a).promises.map Prod.fst).Perm (created a events)
      ∧ ∀ id value, (id, value) ∈ (s.node a).promises →
        ∃ p, value = some p ∧ net.IsMember p ∧ Clockwise.IsSuccessor net.ids id p.id := by
  have hkept := Kept.exec hnet hsound hlossless hexec hfresh
  have hwaiting := hkept.accounted.waiting_eq_nil hidle a
  refine ⟨hwaiting, ?_, ?_⟩
  . have hasked := hkept.asked a
    simp only [Finder.asked, hwaiting, List.filter_nil, List.map_nil, List.nil_append] at hasked
    exact hasked
  . intro id value hmem
    rcases Option.isSome_iff_exists.mp (hkept.isSome a _ hmem) with ⟨p, rfl⟩
    exact ⟨p, rfl, (hkept.inv.node a).promises id p hmem⟩

theorem lookups_complete_oneLookup :
    ∃ s, Run.exec step init oneLookup = some s ∧ (s.node Network.nodeA.endpoint).waiting = []
      ∧ ((s.node Network.nodeA.endpoint).promises.map Prod.fst).Perm ["F"] := by
  rcases exec_oneLookup with ⟨s, hs, hfresh, hidle, _⟩
  have hlossless : ∀ e ∈ oneLookup, Lossless e := by simp [oneLookup, Lossless]
  have hcomplete := lookups_complete Network.threeNodes_settled.toWellFormed oneLookup_sound
    hlossless hs hfresh hidle Network.nodeA.endpoint
  exact ⟨s, hs, hcomplete.1, hcomplete.2.1⟩

end Lookups

end Peerpaste
