import WheelBridge.Signer

/-!
One await of `sign`, case by case: what it was suspended at and what it ended with, and
where the attempt goes from there.
-/
namespace WheelBridge.Auth

/-- `fetch_signature` stops polling: the F2 it has read says "ready", and "signing" was
seen or the grace is over. -/
def Poll.Believes (poll : Poll) (now : ℕ) : Prop :=
  poll.state.byte 2 = stateReady ∧ (poll.seenSigning = true ∨ staleReadyGrace ≤ now - poll.start)

/-- What a poll remembers after a reply to GET F2. -/
def Poll.read (poll : Poll) (bytes : List UInt8) : Poll where
  start := poll.start
  state := poll.state.write bytes
  seenSigning := poll.seenSigning || (poll.state.write bytes).byte 2 = stateSigning

/-- The end of a GET F1 that is not page `i`: none came, or another one. -/
def NotPage (page : Bytes signatureLen) (i : Fin signaturePages) : Option (List UInt8) → Prop
  | none => True
  | some bytes => (page.write bytes).byte 2 ≠ UInt8.ofNat i

/-- Everything one await of `sign` can do. -/
inductive SignStepped (now : ℕ) (st : Statics) (attempt : ℕ) :
    SignStep → Event → Resumed → Prop
  | paused (wake : ℕ) (hwake : wake ≤ now) : SignStepped now st attempt (.resignPause wake) .timer
      (st, .sign attempt .resetSigner, [.transfer (.get idReset resetLen)])
  | signerReset (r : Option (List UInt8)) : SignStepped now st attempt .resetSigner (.reply r)
      (st, .sign attempt (.resetSettle (now + resetSettleTime)), [])
  | copied (wake : ℕ) (hwake : wake ≤ now) : SignStepped now st attempt (.resetSettle wake) .timer
      (st, .sign attempt (.setNonce st.nonce ⟨0, noncePages_pos⟩),
        [.copyNonce, .transfer (.setNonce (st.nonce ⟨0, noncePages_pos⟩).toList)])
  | pageRefused (pages : Fin noncePages → Bytes nonceLen) (i : Fin noncePages) :
      SignStepped now st attempt (.setNonce pages i) (.reply none) (st, .receive, [])
  | pageTaken (pages : Fin noncePages → Bytes nonceLen) (i : Fin noncePages)
      (bytes : List UInt8) : SignStepped now st attempt (.setNonce pages i) (.reply (some bytes))
      (st, .sign attempt (.noncePageGap pages i (now + noncePageGap)), [])
  | nextPage (pages : Fin noncePages → Bytes nonceLen) (i : Fin noncePages) (wake : ℕ)
      (hwake : wake ≤ now) (hi : i + 1 < noncePages) :
      SignStepped now st attempt (.noncePageGap pages i wake) .timer
      (st, .sign attempt (.setNonce pages ⟨i + 1, hi⟩),
        [.transfer (.setNonce (pages ⟨i + 1, hi⟩).toList)])
  | resent (pages : Fin noncePages → Bytes nonceLen) (i : Fin noncePages) (wake : ℕ)
      (hwake : wake ≤ now) (hi : ¬ i + 1 < noncePages) :
      SignStepped now st attempt (.noncePageGap pages i wake) .timer
      (st, fetchSignature attempt now, [.transfer (.get idState stateLen)])
  | ready (poll : Poll) (bytes : List UInt8) (hready : (poll.read bytes).Believes now) :
      SignStepped now st attempt (.getState poll) (.reply (some bytes))
      (st, .sign attempt (.getSignature (poll.read bytes) (fun _ => Bytes.zero)
        ⟨0, signaturePages_pos⟩), [.transfer (.get idSignature signatureLen)])
  | polled (poll : Poll) (bytes : List UInt8) (hready : ¬ (poll.read bytes).Believes now) :
      SignStepped now st attempt (.getState poll) (.reply (some bytes))
      (st, .sign attempt (.pollPause (poll.read bytes) (now + signerPoll)), [])
  | stateLost (poll : Poll) : SignStepped now st attempt (.getState poll) (.reply none)
      (st, .sign attempt (.pollPause poll (now + signerPoll)), [])
  | timedOut (poll : Poll) (wake : ℕ) (hwake : wake ≤ now)
      (hlate : signerTimeout ≤ now - poll.start) :
      SignStepped now st attempt (.pollPause poll wake) .timer
      (st, .sign attempt .giveUp, [.transfer (.get idReset resetLen)])
  | pollAgain (poll : Poll) (wake : ℕ) (hwake : wake ≤ now)
      (hlate : ¬ signerTimeout ≤ now - poll.start) :
      SignStepped now st attempt (.pollPause poll wake) .timer
      (st, .sign attempt (.getState poll), [.transfer (.get idState stateLen)])
  | signAgain (poll : Poll) (pages : Fin signaturePages → Bytes signatureLen)
      (i : Fin signaturePages) (r : Option (List UInt8)) (hlost : NotPage (pages i) i r)
      (hleft : attempt < signAttempts) :
      SignStepped now st attempt (.getSignature poll pages i) (.reply r)
      (st, .sign (attempt + 1) (.resignPause (now + resignPause)), [])
  | usedUp (poll : Poll) (pages : Fin signaturePages → Bytes signatureLen)
      (i : Fin signaturePages) (r : Option (List UInt8)) (hlost : NotPage (pages i) i r)
      (hleft : ¬ attempt < signAttempts) :
      SignStepped now st attempt (.getSignature poll pages i) (.reply r)
      (st, .sign attempt .giveUp, [.transfer (.get idReset resetLen)])
  | pageRead (poll : Poll) (pages : Fin signaturePages → Bytes signatureLen)
      (i : Fin signaturePages) (bytes : List UInt8)
      (hpage : ((pages i).write bytes).byte 2 = UInt8.ofNat i) (hi : i + 1 < signaturePages) :
      SignStepped now st attempt (.getSignature poll pages i) (.reply (some bytes))
      (st, .sign attempt (.getSignature poll (Function.update pages i ((pages i).write bytes))
        ⟨i + 1, hi⟩), [.transfer (.get idSignature signatureLen)])
  | published (poll : Poll) (pages : Fin signaturePages → Bytes signatureLen)
      (i : Fin signaturePages) (bytes : List UInt8)
      (hpage : ((pages i).write bytes).byte 2 = UInt8.ofNat i) (hi : ¬ i + 1 < signaturePages) :
      SignStepped now st attempt (.getSignature poll pages i) (.reply (some bytes))
      ({ st with
        state := publish poll.state (Function.update pages i ((pages i).write bytes)) st.state },
        .receive, [.publish])
  | gaveUp (r : Option (List UInt8)) : SignStepped now st attempt .giveUp (.reply r)
      (st, .receive, [])

theorem signatureRead_stepped {now : ℕ} {st : Statics} {attempt : ℕ} {poll : Poll}
    {pages : Fin signaturePages → Bytes signatureLen} {i : Fin signaturePages}
    (bytes : List UInt8) : SignStepped now st attempt (.getSignature poll pages i)
      (.reply (some bytes)) (signatureRead st attempt now poll pages i bytes) := by
  unfold signatureRead
  dsimp only
  split
  · next hne =>
    unfold pageLost
    split
    · next hleft => exact .signAgain poll pages i (some bytes) hne hleft
    · next hleft => exact .usedUp poll pages i (some bytes) hne hleft
  · next heq =>
    have hpage : ((pages i).write bytes).byte 2 = UInt8.ofNat i := not_ne_iff.mp heq
    split
    · next hi => exact .pageRead poll pages i bytes hpage hi
    · next hi => exact .published poll pages i bytes hpage hi

theorem resumeSign_stepped {now : ℕ} {st : Statics} {attempt : ℕ} {step : SignStep} {e : Event}
    {r : Resumed} (h : resumeSign now st attempt step e = some r) :
    SignStepped now st attempt step e r := by
  unfold resumeSign at h
  split at h
  · next wake =>
    split at h <;> cases h
    next hwake => exact .paused wake hwake
  · next r =>
    cases h
    exact .signerReset r
  · next wake =>
    split at h <;> cases h
    next hwake => exact .copied wake hwake
  · next pages i =>
    cases h
    exact .pageRefused pages i
  · next pages i bytes =>
    cases h
    exact .pageTaken pages i bytes
  · next pages i wake =>
    split at h
    · next hwake =>
      split at h <;> cases h
      · next hi => exact .nextPage pages i wake hwake hi
      · next hi => exact .resent pages i wake hwake hi
    · cases h
  · next poll bytes =>
    cases h
    unfold stateRead
    dsimp only
    split
    · next hready => exact .ready poll bytes (by simpa [Poll.Believes, Poll.read] using hready)
    · next hready => exact .polled poll bytes (by simpa [Poll.Believes, Poll.read] using hready)
  · next poll =>
    cases h
    exact .stateLost poll
  · next poll wake =>
    split at h
    · next hwake =>
      split at h <;> cases h
      · next hlate => exact .timedOut poll wake hwake hlate
      · next hlate => exact .pollAgain poll wake hwake hlate
    · cases h
  · next poll pages i =>
    cases h
    unfold pageLost
    split
    · next hleft => exact .signAgain poll pages i none trivial hleft
    · next hleft => exact .usedUp poll pages i none trivial hleft
  · next poll pages i bytes =>
    cases h
    exact signatureRead_stepped bytes
  · next r =>
    cases h
    exact .gaveUp r
  · cases h

end WheelBridge.Auth
