import Mathlib.Data.List.SplitLengths
import Mathlib.Tactic.Common

/-!
Transfers over a packet stream. A sender cuts each transfer into packets of at most `m`
elements and ends it by a packet that is not full, unless it has the longest length
`cap`; the receiver tells the transfers apart by nothing else.
-/
namespace WheelBridge.Framing

variable {α : Type*}

/-- Consecutive pieces of `m` elements, the last one with what is left. -/
def chunks (m : ℕ) (l : List α) : List (List α) :=
  (List.replicate ((l.length + m - 1) / m) m).splitLengths l

/-- The terminator of a transfer of length `n`: an empty packet where the pieces are all full
and the receiver could expect more. -/
def terminator (m cap n : ℕ) : List (List α) :=
  if n < cap ∧ n % m = 0 then [[]] else []

/-- The packets of one transfer. -/
def frame (m cap : ℕ) (l : List α) : List (List α) := chunks m l ++ terminator m cap l.length

/-- Whether a transfer of which `acc` has come ends with the packet `p`. -/
def Ends (m cap : ℕ) (acc p : List α) : Prop := p.length < m ∨ cap ≤ (acc ++ p).length

instance (m cap : ℕ) (acc p : List α) : Decidable (Ends m cap acc p) :=
  inferInstanceAs (Decidable (_ ∨ _))

/-- The receiver: the transfers that have ended, and what has come of the next one. -/
def receive (m cap : ℕ) (acc : List α) : List (List α) → List (List α) × List α
  | [] => ([], acc)
  | p :: ps =>
    if Ends m cap acc p then
      let r := receive m cap [] ps
      ((acc ++ p) :: r.1, r.2)
    else receive m cap (acc ++ p) ps

/-- Packets that complete `acc` to the transfer `l`, the last one alone ending it. -/
inductive Completes (m cap : ℕ) : List α → List (List α) → List α → Prop
  | last (acc p : List α) (h : Ends m cap acc p) : Completes m cap acc [p] (acc ++ p)
  | more (acc p l : List α) (ps : List (List α)) (h : ¬ Ends m cap acc p)
      (hps : Completes m cap (acc ++ p) ps l) : Completes m cap acc (p :: ps) l

/-- The receiver takes such packets for one transfer, whatever follows. -/
theorem receive_append {m cap : ℕ} {acc l : List α} {ps : List (List α)}
    (h : Completes m cap acc ps l) (rest : List (List α)) :
    receive m cap acc (ps ++ rest) =
      (l :: (receive m cap [] rest).1, (receive m cap [] rest).2) := by
  induction h with
  | last acc p h =>
    rw [List.singleton_append, receive, if_pos h]
  | more acc p l ps h hps ih =>
    rw [List.cons_append, receive, if_neg h, ih]

@[simp]
theorem chunks_nil {m : ℕ} (hm : 0 < m) : chunks m ([] : List α) = [] := by
  have hzero : (0 + m - 1) / m = 0 := Nat.div_eq_of_lt (by omega)
  rw [chunks, List.length_nil, hzero, List.replicate_zero, List.splitLengths_nil]

theorem chunks_of_ne_nil {m : ℕ} (hm : 0 < m) {l : List α} (hl : l ≠ []) :
    chunks m l = l.take m :: chunks m (l.drop m) := by
  have hpos : 0 < l.length := List.length_pos_iff.mpr hl
  have hcount : (l.length + m - 1) / m = ((l.drop m).length + m - 1) / m + 1 := by
    rw [List.length_drop]
    by_cases hlt : l.length ≤ m
    · have hone : (l.length + m - 1) / m = 1 := by
        apply Nat.div_eq_of_lt_le
        · omega
        · omega
      have hzero : (l.length - m + m - 1) / m = 0 := Nat.div_eq_of_lt (by omega)
      omega
    · have hsum : l.length + m - 1 = (l.length - m + m - 1) + m := by omega
      rw [hsum, Nat.add_div_right _ hm]
  rw [chunks, hcount, List.replicate_succ, List.splitLengths_cons, chunks]

/-- A transfer that fits a packet is one packet, an empty one too. -/
theorem frame_of_le {m : ℕ} (hm : 0 < m) {l : List α} (hl : l.length ≤ m) :
    frame m m l = [l] := by
  by_cases hnil : l = []
  · subst hnil
    have hterm : terminator m m ([] : List α).length = [([] : List α)] :=
      if_pos ⟨hm, Nat.zero_mod m⟩
    rw [frame, chunks_nil hm, hterm, List.nil_append]
  · have hpos : 0 < l.length := List.length_pos_iff.mpr hnil
    have hnone : ¬ (l.length < m ∧ l.length % m = 0) := by
      intro hmore
      rw [Nat.mod_eq_of_lt hmore.1] at hmore
      omega
    rw [frame, chunks_of_ne_nil hm hnil, List.take_of_length_le hl,
      List.drop_eq_nil_of_le hl, chunks_nil hm, terminator, if_neg hnone,
      List.append_nil]

/-- The pieces of the rest of a transfer, with the terminator of the whole, complete it. -/
theorem completes_chunks {m cap : ℕ} (hm : 0 < m) (n : ℕ) (acc l : List α) (hn : l.length = n)
    (hfull : acc.length % m = 0) (hlt : acc.length < cap) (hle : acc.length + l.length ≤ cap) :
    Completes m cap acc (chunks m l ++ terminator m cap (acc.length + l.length)) (acc ++ l) := by
  induction n using Nat.strong_induction_on generalizing acc l with
  | _ n ih =>
    by_cases hl : l = []
    · -- nothing is left, so the empty packet is what ends the transfer
      subst hl
      have hterm : terminator m cap (acc.length + ([] : List α).length) = [([] : List α)] :=
        if_pos ⟨hlt, hfull⟩
      rw [chunks_nil hm, hterm]
      exact .last acc [] (Or.inl hm)
    · have hpos : 0 < l.length := List.length_pos_iff.mpr hl
      rw [chunks_of_ne_nil hm hl, List.cons_append]
      by_cases hends : Ends m cap acc (l.take m)
      · -- a short piece or the longest length ends it, so it is the last piece
        have hends' := hends
        unfold Ends at hends'
        rw [List.length_append, List.length_take] at hends'
        have hlast : l.length ≤ m := by omega
        have hnone : ¬ (acc.length + l.length < cap ∧ (acc.length + l.length) % m = 0) := by
          intro hmore
          obtain ⟨hroom, hmul⟩ := hmore
          have hshort : l.length < m := by omega
          have hmod : (acc.length + l.length) % m = l.length := by
            rw [Nat.add_mod, hfull, Nat.zero_add, Nat.mod_mod, Nat.mod_eq_of_lt hshort]
          omega
        have htake : l.take m = l := List.take_of_length_le hlast
        have hdrop : l.drop m = [] := List.drop_eq_nil_of_le hlast
        rw [htake] at hends
        rw [hdrop, chunks_nil hm, terminator, if_neg hnone, htake, List.append_nil]
        exact .last acc l hends
      · have hgo := not_or.mp hends
        rw [List.length_append, List.length_take] at hgo
        have hacc : (acc ++ l.take m).length = acc.length + m := by
          rw [List.length_append, List.length_take]
          omega
        have hrest : (l.drop m).length = l.length - m := List.length_drop ..
        have htotal : (acc ++ l.take m).length + (l.drop m).length = acc.length + l.length := by
          omega
        have hjoin : acc ++ l = (acc ++ l.take m) ++ l.drop m := by
          rw [List.append_assoc, List.take_append_drop]
        have hih := ih (l.drop m).length (by omega) (acc ++ l.take m) (l.drop m) rfl
          (by rw [hacc, Nat.add_mod_right, hfull]) (by omega) (by omega)
        rw [htotal, ← hjoin] at hih
        exact .more acc (l.take m) (acc ++ l) _ hends hih

theorem completes_frame {m cap : ℕ} (hm : 0 < m) (hcap : 0 < cap) (l : List α)
    (hle : l.length ≤ cap) : Completes m cap [] (frame m cap l) l := by
  have h := completes_chunks hm l.length [] l rfl (Nat.zero_mod m) hcap (by simpa using hle)
  simpa only [frame, List.length_nil, Nat.zero_add, List.nil_append] using h

/-- The receiver gives back the transfers that were framed, and nothing is left over. -/
theorem receive_frames {m cap : ℕ} (hm : 0 < m) (hcap : 0 < cap) (ls : List (List α))
    (hle : ∀ l ∈ ls, l.length ≤ cap) :
    receive m cap [] (ls.flatMap (frame m cap)) = (ls, []) := by
  induction ls with
  | nil => rfl
  | cons l ls ih =>
    have hl : l.length ≤ cap := hle l (List.mem_cons_self ..)
    have hrest := ih fun l' hl' => hle l' (List.mem_cons_of_mem l hl')
    rw [List.flatMap_cons, receive_append (completes_frame hm hcap l hl), hrest]

end WheelBridge.Framing
