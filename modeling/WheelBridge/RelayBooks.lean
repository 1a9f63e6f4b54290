import WheelBridge.Conveyor
import WheelBridge.Relay

/-!
The relay as its maintainer thinks of it: five lines that carry packets in order, with
room for so many, and twelve counters of what happens. The relay refines these books: every
one of its runs is a run of the books, with the same effects.
-/
namespace WheelBridge

/-- What an effect counts. -/
def RelayEffect.counters : RelayEffect → List RelayCounter
  | .received path _ taken => path.receivedBy ++ if taken then [] else [.dropped]
  | .handed path _ => [path.handedBy]
  | .handler (.path e) => e.counters
  | .repeated hidpp ok => if ok ∧ hidpp then [.hidppWritten] else []
  | .lost _ _ | .handler (.answered _ _) | .handler (.auth _) | .logged _ _ => []

structure RelayBooks where
  held : RelayPath → List (List UInt8)
  counts : RelayCounter → UInt32

namespace RelayBooks

def init : RelayBooks := ⟨fun _ => [], fun _ => 0⟩

def count (cs : List RelayCounter) (b : RelayBooks) : RelayBooks :=
  { b with counts := bumped cs b.counts }

theorem count_nil (b : RelayBooks) : b.count [] = b := by
  unfold count
  rw [bumped_nil]

/-- The oldest packet of a line leaves it. -/
def leave (path : RelayPath) (packet : List UInt8) (b : RelayBooks) : Option RelayBooks :=
  match b.held path with
  | [] => none
  | p :: rest =>
    if p = packet then some { b with held := Function.update b.held path rest } else none

/-- A packet is refused only where `cap` others wait. -/
def enter (b : RelayBooks) : RelayEffect → Option RelayBooks
  | .received path data true =>
    let held := Function.update b.held path (b.held path ++ [data])
    some (({ b with held } : RelayBooks).count path.receivedBy)
  | .received path _ false =>
    if path.cap ≤ (b.held path).length then some (b.count (path.receivedBy ++ [.dropped]))
    else none
  | .handed path packet => (b.leave path packet).map (count [path.handedBy])
  | .lost path packet => b.leave path packet
  | .logged c n =>
    if b.counts c = n then some { b with counts := Function.update b.counts c 0 } else none
  | .handler e => some (b.count (RelayEffect.handler e).counters)
  | .repeated hidpp ok => some (b.count (RelayEffect.repeated hidpp ok).counters)

end RelayBooks

def relayBooks : Machine RelayBooks RelayEffect RelayEffect :=
  ⟨fun b e => (b.enter e).map fun t => (t, [e])⟩

/-- The books of a relay. -/
def Relay.books (s : Relay) : RelayBooks := ⟨s.held, s.counts⟩

namespace RelayBooks

/-- The effects are entered one after the other. -/
def Entered (b : RelayBooks) (es : List RelayEffect) (t : RelayBooks) : Prop :=
  relayBooks.run b es = some (t, es)

theorem entered_nil (b : RelayBooks) : b.Entered [] b := rfl

theorem entered_cons {b t u : RelayBooks} {e : RelayEffect} {es : List RelayEffect}
    (h : b.enter e = some t) (h' : t.Entered es u) : b.Entered (e :: es) u := by
  have hstep : relayBooks.step b e = some (t, [e]) := Option.map_eq_some_iff.mpr ⟨t, h, rfl⟩
  exact Machine.run_cons_eq_some.mpr ⟨t, [e], es, hstep, h', rfl⟩

theorem entered_one {b t : RelayBooks} {e : RelayEffect} (h : b.enter e = some t) :
    b.Entered [e] t :=
  entered_cons h (entered_nil t)

theorem Entered.append {b t u : RelayBooks} {es fs : List RelayEffect} (h : b.Entered es t)
    (h' : t.Entered fs u) : b.Entered (es ++ fs) u :=
  Machine.run_append h h'

/-- What the handler does is only counted. -/
theorem entered_handler (b : RelayBooks) (es : List HandlerEffect) :
    b.Entered (es.map .handler)
      (b.count ((es.map RelayEffect.handler).flatMap RelayEffect.counters)) := by
  induction es generalizing b with
  | nil =>
    simp only [List.map_nil, List.flatMap_nil, count_nil]
    exact entered_nil b
  | cons e es ih =>
    have hcount : b.count (((e :: es).map RelayEffect.handler).flatMap RelayEffect.counters) =
        (b.count (RelayEffect.handler e).counters).count
          ((es.map RelayEffect.handler).flatMap RelayEffect.counters) := by
      unfold count
      rw [List.map_cons, List.flatMap_cons, bumped_append]
    rw [hcount]
    exact entered_cons rfl (ih _)

/-- A packet of an empty line, or none. -/
theorem entered_lost {b : RelayBooks} {path : RelayPath} {packet : Option (List UInt8)}
    {rest : List (List UInt8)} (h : b.held path = packet.toList ++ rest) :
    b.Entered ((packet.map fun p => RelayEffect.lost path p).toList)
      { b with held := Function.update b.held path rest } := by
  cases packet with
  | none =>
    have hsame : Function.update b.held path rest = b.held := by
      rw [Function.update_eq_self_iff]
      exact h.symm
    rw [hsame]
    exact entered_nil b
  | some p =>
    refine entered_one ?_
    have hhead : b.held path = p :: rest := h
    simp only [enter, leave, hhead, if_true]

end RelayBooks

section Handler

variable {p : Profile} {s t : Handler} {es : List HandlerEffect}

theorem flatMap_counters_auth (fs : List Auth.Effect) :
    ((fs.map HandlerEffect.auth).map RelayEffect.handler).flatMap RelayEffect.counters = [] := by
  rw [List.map_map, List.flatMap_map]
  exact List.flatMap_eq_nil_iff.mpr fun _ _ => rfl

theorem flatMap_counters_path (fs : List ControlEffect) :
    ((fs.map HandlerEffect.path).map RelayEffect.handler).flatMap RelayEffect.counters =
      fs.flatMap ControlEffect.counters := by
  rw [List.map_map, List.flatMap_map]
  rfl

/-- What a step of the handler counts. -/
def HandlerAct.counters (role : Role) (s : Handler) : HandlerAct → List RelayCounter
  | .controlOut req data => (s.path.request role req data).2.flatMap ControlEffect.counters
  | _ => []

theorem handler_counters {a : HandlerAct} (h : s.step p a = some (t, es)) :
    (es.map RelayEffect.handler).flatMap RelayEffect.counters = a.counters p.role s := by
  cases a with
  | controlIn req =>
    simp only [Handler.step, Option.ite_none_right_eq_some, Option.some.injEq] at h
    obtain ⟨-, h⟩ := h
    unfold Handler.controlIn at h
    dsimp only at h
    split at h
    · cases h
      rw [List.map_append, List.flatMap_append, flatMap_counters_auth]
      rfl
    · cases h
      rfl
  | controlOut req data =>
    simp only [Handler.step, Option.ite_none_right_eq_some] at h
    obtain ⟨-, h⟩ := h
    unfold Handler.controlOut at h
    dsimp only at h
    cases hout : WheelBridge.controlOut p.role req data with
    | nonce =>
      rw [hout] at h
      obtain ⟨r, -, heq⟩ := Option.map_eq_some_iff.mp h
      cases heq
      rw [List.map_append, List.flatMap_append, flatMap_counters_auth, flatMap_counters_path]
      rfl
    | none | queue msg | accepted | rejected =>
      rw [hout] at h
      cases h
      exact flatMap_counters_path _
  | send | elapse ms =>
    obtain ⟨b, fs, -, -, rfl⟩ := Handler.inAuth_eq_some.mp h
    exact flatMap_counters_auth fs
  | setInput report =>
    cases h
    rfl
  | signer a =>
    simp only [Handler.step, Option.ite_none_right_eq_some] at h
    obtain ⟨b, fs, -, -, rfl⟩ := Handler.inAuth_eq_some.mp h.2
    exact flatMap_counters_auth fs
  | clear =>
    obtain ⟨b, fs, hstep, -, rfl⟩ := Handler.inPath_eq_some.mp h
    change (if p.role = .wheel then some (_, [ControlEffect.cleared]) else none) = _ at hstep
    rw [flatMap_counters_path]
    split at hstep
    · cases hstep
      rfl
    · cases hstep
  | take =>
    obtain ⟨b, fs, hstep, -, rfl⟩ := Handler.inPath_eq_some.mp h
    obtain ⟨r, -, heq⟩ := Option.map_eq_some_iff.mp hstep
    cases heq
    rw [flatMap_counters_path]
    rfl

end Handler

namespace Relay

variable {s t : Relay} {es : List RelayEffect}

theorem inHandler_eq_some {a : HandlerAct} : s.inHandler a = some (t, es) ↔
    ∃ h fs, s.handler.step relayC269 a = some (h, fs) ∧ { s with handler := h } = t ∧
      fs.map .handler = es := by
  constructor
  · intro h
    obtain ⟨r, hr, heq⟩ := Option.map_eq_some_iff.mp h
    cases heq
    exact ⟨r.1, r.2, hr, rfl, rfl⟩
  · rintro ⟨h, fs, hstep, rfl, rfl⟩
    exact Option.map_eq_some_iff.mpr ⟨(h, fs), hstep, rfl⟩

theorem forwarded_eq_some {f : Forwarding → Relay → Relaying} :
    s.forwarded f = some (t, es) ↔
      ∃ x, s.session = some (.forwarding x) ∧ f x s = some (t, es) := by
  unfold forwarded
  cases hs : s.session with
  | none => simp
  | some session =>
    cases session with
    | probing => simp
    | forwarding x => simp

theorem books_count (cs : List RelayCounter) (s : Relay) :
    (s.count cs).books = s.books.count cs := rfl

theorem held_queue {path : RelayPath} {q : Channel Packet path.cap} {packets : List Packet}
    (hq : q.items = (s.queues path).items ++ packets) :
    ({ s with queues := Function.update s.queues path q } : Relay).held =
      Function.update s.held path (s.held path ++ packets.map Packet.bytes) := by
  funext p
  by_cases hp : p = path
  · subst hp
    simp [held, hq, Function.update_self]
  · simp [held, Function.update_of_ne hp]

theorem held_sending {path : RelayPath} {packet : Packet} (h : s.sending path = some packet) :
    s.held path = packet.bytes :: (s.queues path).items.map Packet.bytes := by
  simp [held, h]

theorem held_done (path : RelayPath) :
    ({ s with sending := Function.update s.sending path none } : Relay).held =
      Function.update s.held path ((s.queues path).items.map Packet.bytes) := by
  funext p
  by_cases hp : p = path
  · subst hp
    simp [held, Function.update_self]
  · simp [held, Function.update_of_ne hp]

theorem held_take {path : RelayPath} {packet : Packet} {q : Channel Packet path.cap}
    (hidle : s.sending path = none) (hq : (s.queues path).receive = some (packet, q)) :
    ({ s with
        queues := Function.update s.queues path q
        sending := Function.update s.sending path (some packet) } : Relay).held = s.held := by
  funext p
  by_cases hp : p = path
  · subst hp
    have hitems := Channel.receive_eq_some.mp hq
    simp [held, hidle, hitems, Function.update_self]
  · simp [held, Function.update_of_ne hp]

theorem books_stopped (path : RelayPath) : (s.stopped path).books = s.books := by
  unfold stopped
  split
  · split
    · rfl
    · rfl
  · rfl
  · rfl

/-- One packet is one packet on the other side. -/
theorem transfer_eq (writeTransfer : WriteTransfer) (packet : Packet) (path : RelayPath) :
    transfer writeTransfer packet path = [packet.bytes] := by
  unfold transfer
  split
  · unfold forwardReport
    rw [if_pos rfl]
  · rfl

theorem entered_packet (path : RelayPath) {data : List UInt8} (hfit : data.length ≤ maxPacket) :
    s.books.Entered (s.packet path data).2 (s.packet path data).1.books := by
  have hbytes : (Packet.new data).bytes = data := by
    rw [Packet.bytes_new, List.take_of_length_le hfit]
  unfold packet
  split
  · next q hq =>
    have hitems := (Channel.trySend_eq_some.mp hq).2
    have hheld := held_queue (s := s) hitems
    rw [List.map_singleton, hbytes] at hheld
    refine RelayBooks.entered_one ?_
    dsimp only
    rw [books_count]
    simp only [RelayBooks.enter, books, hheld]
  · next hq =>
    have hfull := Channel.trySend_eq_none.mp hq
    have hroom : path.cap ≤ (s.books.held path).length := by
      simp only [books, held, List.length_map, List.length_append]
      omega
    refine RelayBooks.entered_one ?_
    simp only [RelayBooks.enter, if_pos hroom]
    rfl

theorem entered_sent {writeTransfer : WriteTransfer} {path : RelayPath} {ok : Bool}
    (h : s.sent writeTransfer path ok = some (t, es)) : s.books.Entered es t.books := by
  unfold sent at h
  cases hsending : s.sending path with
  | none => simp [hsending] at h
  | some packet =>
    have hhead : s.books.held path = packet.bytes :: (s.queues path).items.map Packet.bytes :=
      held_sending hsending
    have hdone := held_done (s := s) path
    simp only [hsending, transfer_eq] at h
    cases ok with
    | true =>
      cases h
      refine RelayBooks.entered_one ?_
      simp only [RelayBooks.enter, RelayBooks.leave, hhead, if_true, Option.map_some]
      rw [books_count]
      simp only [books, hdone]
    | false =>
      cases h
      refine RelayBooks.entered_one ?_
      simp only [RelayBooks.enter, RelayBooks.leave, hhead, if_true]
      rw [books_stopped]
      simp only [books, hdone]

/-- A packet that may be on its way is dropped. -/
theorem entered_dropped (b : RelayBooks) (path : RelayPath) (hb : b.held path = s.held path) :
    b.Entered (((s.sending path).map fun packet => RelayEffect.lost path packet.bytes).toList)
      { b with held := Function.update b.held path ((s.queues path).items.map Packet.bytes) } := by
  have hheld : b.held path = ((s.sending path).map Packet.bytes).toList ++
      (s.queues path).items.map Packet.bytes := by
    rw [hb]
    cases hsending : s.sending path <;> simp [held, hsending]
  have hentered := RelayBooks.entered_lost hheld
  rwa [Option.map_map] at hentered

/-- The relay is dropped with what it sends to DriveHub. -/
theorem held_detach (path : RelayPath) :
    ((if path.fromBackend then s.sending path else none).toList ++
      (s.queues path).items).map Packet.bytes =
    Function.update (Function.update s.held .if0Out ((s.queues .if0Out).items.map Packet.bytes))
      .ffbOut ((s.queues .ffbOut).items.map Packet.bytes) path := by
  cases path <;> rfl

theorem entered_detach (h : s.detach = some (t, es)) : s.books.Entered es t.books := by
  obtain ⟨⟨u, fs⟩, hu, heq⟩ := Option.map_eq_some_iff.mp h
  obtain ⟨b, gs, hstep, rfl, rfl⟩ := inHandler_eq_some.mp hu
  have hquiet := RelayBooks.entered_handler s.books gs
  have hnone : (HandlerAct.signer (.detach backend)).counters relayC269.role s.handler = [] := rfl
  rw [handler_counters hstep, hnone, RelayBooks.count_nil] at hquiet
  cases heq
  let first : RelayBooks := ⟨Function.update s.held .if0Out
    ((s.queues .if0Out).items.map Packet.bytes), s.counts⟩
  have hfirst : s.books.Entered _ first := entered_dropped s.books .if0Out rfl
  have hother : first.held .ffbOut = s.held .ffbOut := rfl
  have hsecond := entered_dropped first .ffbOut hother
  have hboth := hfirst.append hsecond
  have hafter := funext (held_detach (s := s))
  refine hquiet.append ?_
  simp only [List.flatMap_cons, List.flatMap_nil, List.append_nil]
  convert hboth using 1
  exact congrArg (RelayBooks.mk · s.counts) hafter

/-- What one step is to the lines, the counters and the control handler. -/
inductive Passed (writeTransfer : WriteTransfer) (s : Relay) (a : RelayAct) (t : Relay) :
    List RelayEffect → Prop
  | aside (hbooks : t.books = s.books) (hhandler : t.handler = s.handler) :
      Passed writeTransfer s a t []
  | handler (b : HandlerAct) (fs : List HandlerEffect)
      (hstep : s.handler.step relayC269 b = some (t.handler, fs))
      (hbooks : t.books = s.books.count (b.counters .relay s.handler)) :
      Passed writeTransfer s a t (fs.map .handler)
  | packet (path : RelayPath) (data : List UInt8) (hfit : data.length ≤ maxPacket)
      (ht : t = (s.packet path data).1) :
      Passed writeTransfer s a t (s.packet path data).2
  | sent (path : RelayPath) (ok : Bool) (es : List RelayEffect) (ha : a = .sent path ok)
      (hsent : s.sent writeTransfer path ok = some (t, es)) : Passed writeTransfer s a t es
  | detach (es : List RelayEffect) (ha : a = .detach) (hdetach : s.detach = some (t, es)) :
      Passed writeTransfer s a t es
  | repeated (hidpp ok : Bool) (hhandler : t.handler = s.handler)
      (hbooks : t.books = s.books.count (RelayEffect.repeated hidpp ok).counters) :
      Passed writeTransfer s a t [.repeated hidpp ok]
  | logged (c : RelayCounter) (hhandler : t.handler = s.handler)
      (hbooks : t.books = ⟨s.held, Function.update s.counts c 0⟩) :
      Passed writeTransfer s a t [.logged c (s.counts c)]

theorem passed_inHandler {writeTransfer : WriteTransfer} {a : RelayAct} {b : HandlerAct}
    {u : Relay} (h : s.inHandler b = some (u, es)) (hhandler : t.handler = u.handler)
    (hbooks : t.books = u.books.count (b.counters .relay s.handler)) :
    Passed writeTransfer s a t es := by
  obtain ⟨x, fs, hstep, rfl, rfl⟩ := inHandler_eq_some.mp h
  refine .handler b fs ?_ hbooks
  rw [hhandler]
  exact hstep

/-- Nothing but a request that is written counts. -/
theorem passed_quiet {writeTransfer : WriteTransfer} {a : RelayAct} {b : HandlerAct} {u : Relay}
    (h : s.inHandler b = some (u, es)) (hb : b.counters .relay s.handler = [])
    (hhandler : t.handler = u.handler) (hbooks : t.books = u.books) :
    Passed writeTransfer s a t es := by
  refine passed_inHandler h hhandler ?_
  rw [hb, RelayBooks.count_nil]
  exact hbooks

theorem passed {writeTransfer : WriteTransfer} {a : RelayAct}
    (h : s.step writeTransfer a = some (t, es)) : Passed writeTransfer s a t es := by
  cases a with
  | elapse ms =>
    simp only [Relay.step] at h
    obtain ⟨⟨u, fs⟩, hu, heq⟩ := Option.map_eq_some_iff.mp h
    cases heq
    exact passed_quiet hu rfl rfl rfl
  | attach =>
    simp only [Relay.step] at h
    split at h
    · obtain ⟨⟨u, fs⟩, hu, heq⟩ := Option.map_eq_some_iff.mp h
      cases heq
      exact passed_quiet hu rfl rfl rfl
    · cases h
  | detach =>
    simp only [Relay.step] at h
    split at h
    · cases h
    · exact .detach es rfl h
    · exact .detach es rfl (Option.ite_none_right_eq_some.mp h).2
  | start =>
    simp only [Relay.step] at h
    split at h
    · cases h
      exact .aside rfl rfl
    · cases h
  | build =>
    simp only [Relay.step] at h
    obtain ⟨-, heq⟩ := Option.ite_none_right_eq_some.mp h
    cases heq
    exact .aside rfl rfl
  | controlIn req =>
    simp only [Relay.step] at h
    exact passed_quiet (Option.ite_none_right_eq_some.mp h).2 rfl rfl rfl
  | controlOut req data =>
    simp only [Relay.step] at h
    obtain ⟨-, h⟩ := Option.ite_none_right_eq_some.mp h
    obtain ⟨⟨u, fs⟩, hu, heq⟩ := Option.map_eq_some_iff.mp h
    cases heq
    exact passed_inHandler hu rfl rfl
  | send =>
    simp only [Relay.step] at h
    exact passed_quiet h rfl rfl rfl
  | ep0Command =>
    simp only [Relay.step] at h
    obtain ⟨f, -, h⟩ := forwarded_eq_some.mp h
    exact passed_quiet (Option.ite_none_right_eq_some.mp h).2 rfl rfl rfl
  | ep0Reply r =>
    simp only [Relay.step] at h
    exact passed_quiet h rfl rfl rfl
  | ep0Timer =>
    simp only [Relay.step] at h
    exact passed_quiet h rfl rfl rfl
  | ep0Control =>
    simp only [Relay.step] at h
    obtain ⟨f, -, h⟩ := forwarded_eq_some.mp h
    unfold ep0Control at h
    split at h
    · obtain ⟨⟨u, fs⟩, hu, heq⟩ := Option.map_eq_some_iff.mp h
      cases heq
      exact passed_quiet hu rfl rfl rfl
    · cases h
  | ep0Done ok =>
    simp only [Relay.step] at h
    obtain ⟨f, -, h⟩ := forwarded_eq_some.mp h
    obtain ⟨hidpp, -, heq⟩ := Option.map_eq_some_iff.mp h
    cases heq
    exact .repeated hidpp ok rfl rfl
  | packet path data =>
    simp only [Relay.step] at h
    obtain ⟨⟨-, hfit⟩, heq⟩ := Option.ite_none_right_eq_some.mp h
    obtain ⟨ht, hes⟩ := Prod.mk.inj (Option.some.inj heq)
    rw [← hes]
    exact .packet path data hfit ht.symm
  | pollError path e =>
    simp only [Relay.step] at h
    obtain ⟨f, -, h⟩ := forwarded_eq_some.mp h
    obtain ⟨-, heq⟩ := Option.ite_none_right_eq_some.mp h
    cases heq
    exact .aside rfl rfl
  | pollTimer path =>
    simp only [Relay.step] at h
    obtain ⟨f, -, h⟩ := forwarded_eq_some.mp h
    split at h
    · split at h
      · cases h
      · cases h
        exact .aside rfl rfl
    · cases h
    · cases h
  | take path =>
    simp only [Relay.step] at h
    obtain ⟨⟨-, hidle⟩, h⟩ := Option.ite_none_right_eq_some.mp h
    obtain ⟨⟨packet, q⟩, hq, heq⟩ := Option.map_eq_some_iff.mp h
    cases heq
    exact .aside (congrArg (RelayBooks.mk · s.counts) (held_take hidle hq)) rfl
  | sent path ok =>
    simp only [Relay.step] at h
    exact .sent path ok es rfl h
  | statsTick =>
    simp only [Relay.step] at h
    obtain ⟨f, -, h⟩ := forwarded_eq_some.mp h
    obtain ⟨-, heq⟩ := Option.ite_none_right_eq_some.mp h
    cases heq
    exact .aside rfl rfl
  | statsTake =>
    simp only [Relay.step] at h
    obtain ⟨f, -, h⟩ := forwarded_eq_some.mp h
    split at h
    · cases h
    · cases h
      exact .logged _ rfl rfl

theorem Passed.entered {writeTransfer : WriteTransfer} {a : RelayAct}
    (h : Passed writeTransfer s a t es) : s.books.Entered es t.books := by
  cases h with
  | aside hbooks hhandler =>
    rw [hbooks]
    exact RelayBooks.entered_nil _
  | handler b fs hstep hbooks =>
    have hentered := RelayBooks.entered_handler s.books fs
    rw [handler_counters hstep] at hentered
    rw [hbooks]
    exact hentered
  | packet path data hfit ht =>
    rw [ht]
    exact entered_packet path hfit
  | sent path ok es ha hsent => exact entered_sent hsent
  | detach es ha hdetach => exact entered_detach hdetach
  | repeated hidpp ok hhandler hbooks =>
    rw [hbooks]
    exact RelayBooks.entered_one rfl
  | logged c hhandler hbooks =>
    refine RelayBooks.entered_one ?_
    simp only [RelayBooks.enter, books, if_true]
    exact congrArg some hbooks.symm

end Relay

/-- Whatever the endpoints' `write_transfer` does, the relay does what its books say. -/
theorem relay_refines_books (writeTransfer : WriteTransfer) :
    (relay writeTransfer).Refines relayBooks Relay.books some where
  step s a t es hstep := by
    rw [List.filterMap_some]
    exact ⟨es, (Relay.passed hstep).entered⟩

end WheelBridge
