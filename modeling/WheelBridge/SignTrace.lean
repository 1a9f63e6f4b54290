import WheelBridge.AuthSystem

/-!
What is seen of a call of `sign` from outside: the transfers it makes, what each ended
with and when. A device's line keeps the call it is in and the transfer that is under
way; the exchanges of a call are kept with the newest first, so each rule about what may
come next reads the list from its head.
-/
namespace WheelBridge.Auth

/-- A transfer to a signer that is over. -/
structure Exchange where
  transfer : Transfer
  issued : ℕ
  reply : Option (List UInt8)
  ended : ℕ
deriving DecidableEq

namespace Exchange

def isState (x : Exchange) : Bool := x.transfer = .get idState stateLen
def isSignature (x : Exchange) : Bool := x.transfer = .get idSignature signatureLen

end Exchange

/-- The polls of F2 and the reads of F1 that a trace ends with. -/
def pollsOf (trace : List Exchange) : List Exchange := trace.takeWhile Exchange.isState
def readsOf (trace : List Exchange) : List Exchange := trace.takeWhile Exchange.isSignature

/-- The polls before the reads of F1 that a trace ends with. -/
def pollsBefore (trace : List Exchange) : List Exchange :=
  pollsOf (trace.dropWhile Exchange.isSignature)

/-- The buffer the polls are read into, one after the other. -/
def stateBuffer : List Exchange → Bytes stateLen
  | [] => Bytes.zero
  | x :: xs =>
    match x.reply with
    | none => stateBuffer xs
    | some bytes => (stateBuffer xs).write bytes

/-- A poll that succeeded left "signing" in the buffer. -/
def signingSeen : List Exchange → Bool
  | [] => false
  | x :: xs =>
    signingSeen xs || (x.reply.isSome && (stateBuffer (x :: xs)).byte 2 = stateSigning)

def pollingBegan (polls : List Exchange) : Option ℕ := polls.getLast?.map Exchange.issued

/-- The last poll succeeded with "ready" in the buffer, after "signing" was seen or the
grace since the first one was issued is over. -/
def Believed : List Exchange → Prop
  | [] => False
  | x :: xs => x.reply.isSome = true ∧ (stateBuffer (x :: xs)).byte 2 = stateReady ∧
      (signingSeen xs = true ∨
        ∃ start ∈ pollingBegan (x :: xs), staleReadyGrace ≤ x.ended - start)

/-- The buffer page `k` of the reads was read into. -/
def pageBuffer (reads : List Exchange) (k : ℕ) : Bytes signatureLen :=
  Bytes.zero.write ((reads.reverse[k]?.bind Exchange.reply).getD [])

/-- The reads succeeded, and the pages are numbered from 0. -/
def Numbered : List Exchange → Prop
  | [] => True
  | x :: xs => x.reply.isSome = true ∧
      (pageBuffer (x :: xs) xs.length).byte 2 = UInt8.ofNat xs.length ∧ Numbered xs

/-- The trace ends with a GET F3 and the first `n` pages, in order and each accepted. -/
def Sent (nonce : Fin noncePages → Bytes nonceLen) : ℕ → List Exchange → Prop
  | _, [] => False
  | 0, x :: _ => x.transfer = .get idReset resetLen
  | n + 1, x :: xs => (∃ i : Fin noncePages, i = n ∧ x.transfer = .setNonce (nonce i).toList) ∧
      x.reply.isSome = true ∧ Sent nonce n xs

/-- How often polling was begun. -/
def fetches : List Exchange → ℕ
  | [] => 0
  | x :: xs => if x.isState = true ∧ pollsOf xs = [] then fetches xs + 1 else fetches xs

/-- A call of `sign`: its flag, the nonce pages it copied last and its exchanges. -/
structure Call where
  resend : Bool
  nonce : Fin noncePages → Bytes nonceLen
  trace : List Exchange

namespace Call

/-- GET F2 may be issued: polling goes on, or a fetch is begun. There are at most
`signAttempts` of them, and each one after the first, and the first if it is a resend,
comes right after GET F3 and all nonce pages. -/
def MayPoll (c : Call) : Prop :=
  pollsOf c.trace ≠ [] ∨
    fetches c.trace < signAttempts ∧
      (0 < fetches c.trace ∨ c.resend = true → Sent c.nonce noncePages c.trace)

/-- GET F1 may be issued: right after polls that are believed, and the pages read since. -/
def MayRead (c : Call) : Prop :=
  Numbered (readsOf c.trace) ∧ (readsOf c.trace).length < signaturePages ∧
    Believed (pollsBefore c.trace)

/-- The call has read all pages. -/
def Complete (c : Call) : Prop :=
  Numbered (readsOf c.trace) ∧ (readsOf c.trace).length = signaturePages ∧
    Believed (pollsBefore c.trace)

def MayIssue (c : Call) : Transfer → Prop
  | .get id _ => (id = idState → c.MayPoll) ∧ (id = idSignature → c.MayRead)
  | .setNonce _ => True

end Call

/-- A device's transfer under way, with the time it was issued, and its call of `sign`. -/
structure Line where
  pending : Option (Transfer × ℕ)
  call : Option Call

namespace Line

def init : Line := ⟨none, none⟩

/-- The transfer under way is over. -/
def ended (now : ℕ) (r : Option (List UInt8)) (l : Line) : Line :=
  match l.pending with
  | none => l
  | some (x, issued) =>
    ⟨none, l.call.map fun c => { c with trace := ⟨x, issued, r, now⟩ :: c.trace }⟩

def watch (now : ℕ) (nonce : Fin noncePages → Bytes nonceLen) (l : Line) : SignerEffect → Line
  | .transfer x => { l with pending := some (x, now) }
  | .sign resend => { l with call := some ⟨resend, nonce, []⟩ }
  | .copyNonce => { l with call := l.call.map fun c => { c with nonce := nonce } }
  | .publish => { l with call := none }
  | .serve | .pageSent _ => l

end Line

/-- The lines of all devices, and what `NONCE` holds. -/
structure Lines where
  now : ℕ
  nonce : Fin noncePages → Bytes nonceLen
  line : ℕ → Line

namespace Lines

def init : Lines := ⟨0, Statics.init.nonce, fun _ => Line.init⟩

def watch (m : Lines) : Act ⊕ Effect → Lines
  | .inl (.elapse ms) => { m with now := m.now + ms }
  | .inl (.reply i r) =>
    { m with line := Function.update m.line i ((m.line i).ended m.now r) }
  | .inr (.attached i) => { m with line := Function.update m.line i Line.init }
  | .inr (.received i cmd) =>
    { m with
      nonce := (begin cmd { Statics.init with nonce := m.nonce }).1.nonce
      line := Function.update m.line i Line.init }
  | .inr (.signer i e) =>
    { m with line := Function.update m.line i ((m.line i).watch m.now m.nonce e) }
  | _ => m

end Lines

end WheelBridge.Auth
