import Mathlib.Algebra.Ring.Nat
import Mathlib.Logic.Function.Basic
import WheelBridge.Bytes
import WheelBridge.Machine
import WheelBridge.Pipe

/-!
The log output. Every context formats its record into a line of its own, and puts it into
the pipe in one critical section with a notice of the records dropped before, or drops it
too. The pipe is any that keeps its promises; the UART's task reads it in chunks.
-/
namespace WheelBridge.UartLog

/-- `PIPE_LEN`, `LINE_LEN`, and the length of the notice's buffer. -/
def pipeLen : ℕ := 16384
def lineLen : ℕ := 320
def noticeLen : ℕ := 40

def eol : List UInt8 := [0x0d, 0x0a]

def ascii (s : String) : List UInt8 := s.toList.map fun c => UInt8.ofNat c.toNat

def decimal (n : ℕ) : List UInt8 := (Nat.toDigits 10 n).map fun c => UInt8.ofNat c.toNat

/-- `text` with `fill` before it, up to `width`. -/
def padded (width : ℕ) (fill : UInt8) (text : List UInt8) : List UInt8 :=
  List.replicate (width - text.length) fill ++ text

/-- Fixed-size line; text past the end is cut off, leaving room for the line ending. -/
structure LineBuf (n : ℕ) where
  buf : Bytes n
  len : ℕ

namespace LineBuf

variable {n : ℕ}

def new : LineBuf n := ⟨Bytes.zero, 0⟩

/-- Copy `data` in behind what is there; past the end it panics. -/
def copy (l : LineBuf n) (data : List UInt8) : Option (LineBuf n) :=
  if l.len + data.length ≤ n then some ⟨l.buf.writeAt l.len data, l.len + data.length⟩ else none

def endLine (l : LineBuf n) : Option (LineBuf n) := l.copy eol

def bytes (l : LineBuf n) : List UInt8 := l.buf.toList.take l.len

def writeStr (l : LineBuf n) (s : List UInt8) : Option (LineBuf n) :=
  -- The room is `N - 2 - len`, in unsigned numbers.
  if eol.length + l.len ≤ n then
    let room := n - eol.length - l.len
    l.copy (s.take (min s.length room))
  else none

/-- `write!`: the pieces of the text, one after the other. -/
def write (l : LineBuf n) : List (List UInt8) → Option (LineBuf n)
  | [] => some l
  | s :: pieces => (l.writeStr s).bind fun l => l.write pieces

end LineBuf

namespace LineBuf

variable {n : ℕ}

/-- What is in the line is `text`, cut off two bytes before the end. -/
structure Holds (l : LineBuf n) (text : List UInt8) : Prop where
  bytes_eq : l.bytes = text.take (n - eol.length)
  len_eq : l.len = l.bytes.length

theorem copy_spec {l : LineBuf n} {data : List UInt8} (hl : l.len = l.bytes.length)
    (h : l.len + data.length ≤ n) :
    ∃ l', l.copy data = some l' ∧ l'.bytes = l.bytes ++ data ∧ l'.len = l'.bytes.length := by
  have hbytes : (LineBuf.mk (l.buf.writeAt l.len data) (l.len + data.length)).bytes =
      l.bytes ++ data := l.buf.take_writeAt l.len data h
  refine ⟨_, if_pos h, hbytes, ?_⟩
  rw [hbytes, List.length_append, ← hl]

theorem new_holds : (new : LineBuf n).Holds [] where
  bytes_eq := by rw [List.take_nil]; rfl
  len_eq := rfl

/-- Text of any length is written within bounds, and cut off where the room ends. -/
theorem writeStr_holds (hn : eol.length ≤ n) {l : LineBuf n} {text : List UInt8}
    (h : l.Holds text) (s : List UInt8) :
    ∃ l', l.writeStr s = some l' ∧ l'.Holds (text ++ s) := by
  obtain ⟨hbytes, hlen⟩ := h
  have hroom : l.len = min (n - eol.length) text.length := by
    rw [hlen, hbytes, List.length_take]
  have hfits : l.len + (s.take (min s.length (n - eol.length - l.len))).length ≤ n := by
    rw [List.length_take]
    omega
  obtain ⟨l', hcopy, hbytes', hlen'⟩ := copy_spec hlen hfits
  refine ⟨l', ?_, ?_, hlen'⟩
  · rw [writeStr, if_pos (by omega), ← hcopy]
  · have htake : s.take (min s.length (n - eol.length - l.len)) =
        s.take (n - eol.length - text.length) := by
      rw [List.take_eq_take_iff]
      omega
    rw [hbytes', hbytes, htake, List.take_append]

theorem write_holds (hn : eol.length ≤ n) (pieces : List (List UInt8)) {l : LineBuf n}
    {text : List UInt8} (h : l.Holds text) :
    ∃ l', l.write pieces = some l' ∧ l'.Holds (text ++ pieces.flatten) := by
  induction pieces generalizing l text with
  | nil =>
    refine ⟨l, rfl, ?_⟩
    rwa [List.flatten_nil, List.append_nil]
  | cons s pieces ih =>
    obtain ⟨l₁, hl₁, hholds₁⟩ := writeStr_holds hn h s
    obtain ⟨l₂, hl₂, hholds₂⟩ := ih hholds₁
    refine ⟨l₂, ?_, ?_⟩
    · rw [write, hl₁, Option.bind_some, hl₂]
    · rwa [List.flatten_cons, ← List.append_assoc]

/-- There is always room for the line ending. -/
theorem endLine_spec (hn : eol.length ≤ n) {l : LineBuf n} {text : List UInt8}
    (h : l.Holds text) :
    ∃ l', l.endLine = some l' ∧ l'.bytes = text.take (n - eol.length) ++ eol ∧
      l'.len = l'.bytes.length := by
  have hroom : l.len ≤ n - eol.length := by
    rw [h.len_eq, h.bytes_eq, List.length_take]
    exact Nat.min_le_left ..
  have hfits : l.len + eol.length ≤ n := by omega
  obtain ⟨l', hl', hbytes, hlen⟩ := copy_spec h.len_eq hfits
  exact ⟨l', hl', by rw [hbytes, h.bytes_eq], hlen⟩

end LineBuf

/-- `{:5}.{:03} ` of the uptime in seconds. -/
def uptime (ms : ℕ) : List (List UInt8) :=
  [padded 5 0x20 (decimal (ms / 1000)), ascii ".", padded 3 0x30 (decimal (ms % 1000)), ascii " "]

/-- The line of a record whose arguments write the pieces `args`. -/
def formatLine (ms : ℕ) (args : List (List UInt8)) : Option (LineBuf lineLen) :=
  (LineBuf.new.write (uptime ms ++ args)).bind LineBuf.endLine

def noticePieces (dropped : UInt32) : List (List UInt8) :=
  [ascii "[", decimal dropped.toNat, ascii " log records dropped]"]

def formatNotice (dropped : UInt32) : Option (LineBuf noticeLen) :=
  if dropped ≠ 0 then (LineBuf.new.write (noticePieces dropped)).bind LineBuf.endLine
  else some LineBuf.new

/-- A line is formatted within bounds, whatever its arguments write. -/
theorem formatLine_spec (ms : ℕ) (args : List (List UInt8)) :
    ∃ l, formatLine ms args = some l ∧
      l.bytes = (uptime ms ++ args).flatten.take (lineLen - eol.length) ++ eol ∧
      l.len = l.bytes.length := by
  obtain ⟨l, hl, hholds⟩ := LineBuf.write_holds (n := lineLen) (by decide) (uptime ms ++ args)
    LineBuf.new_holds
  obtain ⟨l', hl', hspec⟩ := LineBuf.endLine_spec (by decide) hholds
  refine ⟨l', ?_, hspec⟩
  rw [formatLine, hl, Option.bind_some, hl']

theorem length_decimal (n : UInt32) : (decimal n.toNat).length ≤ 10 := by
  have hlt : n.toNat < 10 ^ 10 := Nat.lt_trans n.toNat_lt (by decide)
  rw [decimal, List.length_map]
  exact (Nat.length_toDigits_le_iff (by decide) (by decide)).mpr hlt

/-- A notice is never cut off. -/
theorem formatNotice_spec (dropped : UInt32) :
    ∃ l, formatNotice dropped = some l ∧
      l.bytes = (if dropped = 0 then [] else (noticePieces dropped).flatten ++ eol) ∧
      l.len = l.bytes.length := by
  by_cases hzero : dropped = 0
  · rw [if_pos hzero]
    exact ⟨LineBuf.new, if_neg (not_not.mpr hzero), rfl, rfl⟩
  · obtain ⟨l, hl, hholds⟩ := LineBuf.write_holds (n := noticeLen) (by decide)
      (noticePieces dropped) LineBuf.new_holds
    obtain ⟨l', hl', hbytes, hlen⟩ := LineBuf.endLine_spec (by decide) hholds
    refine ⟨l', ?_, ?_, hlen⟩
    · rw [formatNotice, if_pos hzero, hl, Option.bind_some, hl']
    · have hfits : (noticePieces dropped).flatten.length ≤ noticeLen - eol.length := by
        have hdigits := length_decimal dropped
        have hopen : (ascii "[").length = 1 := rfl
        have hclose : (ascii " log records dropped]").length = 21 := rfl
        simp only [noticePieces, List.length_flatten, List.map_cons, List.map_nil, List.sum_cons,
          List.sum_nil, noticeLen, eol, List.length_cons, List.length_nil]
        omega
      rw [if_neg hzero, hbytes, List.nil_append, List.take_of_length_le hfits]

def saturatingAdd (a b : UInt32) : UInt32 :=
  if a.toNat + b.toNat < 2 ^ 32 then a + b else UInt32.ofNat (2 ^ 32 - 1)

theorem saturatingAdd_toNat (a b : UInt32) :
    (saturatingAdd a b).toNat = min (a.toNat + b.toNat) (2 ^ 32 - 1) := by
  unfold saturatingAdd
  split
  · rw [UInt32.toNat_add]
    omega
  · rw [Nat.min_eq_right (by omega)]
    rfl

variable (P : Pipe UInt8 pipeLen)

/-- Write all of `bytes`, in at most `rounds` writes; what is left when the pipe is full. -/
def push : ℕ → P.State → List UInt8 → Option (P.State × List UInt8)
  | _, s, [] => some (s, [])
  | 0, _, _ :: _ => none
  | rounds + 1, s, b :: bytes =>
    match P.tryWrite s (b :: bytes) with
    | some (n, t) => push rounds t ((b :: bytes).drop n)
    | none => some (s, b :: bytes)

variable {P} in
/-- Where the capacity was checked every byte is written. -/
theorem push_spec (rounds : ℕ) (s : P.State) (bytes : List UInt8)
    (hrounds : bytes.length ≤ rounds) (hfree : bytes.length ≤ P.freeCapacity s) :
    ∃ t, push P rounds s bytes = some (t, []) ∧ P.held t = P.held s ++ bytes := by
  induction rounds generalizing s bytes with
  | zero =>
    obtain rfl := List.length_eq_zero_iff.mp (Nat.le_zero.mp hrounds)
    exact ⟨s, by rw [push], (List.append_nil _).symm⟩
  | succ rounds ih =>
    cases bytes with
    | nil => exact ⟨s, by rw [push], (List.append_nil _).symm⟩
    | cons b bytes =>
      have hcons : 0 < (b :: bytes).length := Nat.succ_pos _
      obtain ⟨n, t, hwrite, hn⟩ := P.tryWrite_free s (b :: bytes) (by omega) (List.cons_ne_nil _ _)
      obtain ⟨hle, hheld⟩ := P.tryWrite_held s (b :: bytes) n t hwrite
      have hfull := P.held_free s
      have hfull' := P.held_free t
      rw [hheld, List.length_append, List.length_take] at hfull'
      obtain ⟨u, hpush, hheld'⟩ := ih t ((b :: bytes).drop n)
        (by rw [List.length_drop]; omega) (by rw [List.length_drop]; omega)
      refine ⟨u, ?_, ?_⟩
      · rw [push, hwrite]
        exact hpush
      · rw [hheld', hheld, List.append_assoc, List.take_append_drop]

/-- The pipe, `DROPPED`, and the line of each context that is in `log`. -/
structure Logger where
  pipe : P.State
  dropped : UInt32
  lines : ℕ → Option (LineBuf lineLen)

def Logger.init : Logger P where
  pipe := P.empty
  dropped := 0
  lines := fun _ => none

inductive LogAct
  /-- Context `i` calls `log`, and formats its line at uptime `ms`. -/
  | format (i : ℕ) (ms : ℕ) (args : List (List UInt8))
  /-- Its critical section. -/
  | put (i : ℕ)
  /-- The UART's task reads a chunk of up to `k` bytes. -/
  | read (k : ℕ)

inductive LogEffect
  | formatted (i : ℕ) (ms : ℕ) (args : List (List UInt8))
  /-- A write into a `LineBuf` was out of bounds. -/
  | outOfBounds
  /-- A `push` is over, with the bytes left. -/
  | pushed (bytes left : List UInt8)
  /-- The critical section of `i` put its line into the pipe, `DROPPED` being what it was. -/
  | stored (i : ℕ) (dropped : UInt32)
  | refused (i : ℕ)
  | delivered (bytes : List UInt8)
deriving DecidableEq

variable {P}

/-- The critical section of `log`. -/
def putLine (i : ℕ) (line : LineBuf lineLen) (s : Logger P) :
    Option (Logger P × List LogEffect) :=
  match formatNotice s.dropped with
  | none => some (s, [.outOfBounds])
  | some notice =>
    if P.freeCapacity s.pipe < notice.len + line.len then
      some ({ s with dropped := saturatingAdd s.dropped 1 }, [.refused i])
    else
      match push P notice.bytes.length s.pipe notice.bytes with
      | none => none
      | some (pipe, left) =>
        match push P line.bytes.length pipe line.bytes with
        | none => none
        | some (pipe, left') =>
          some ({ s with pipe := pipe, dropped := 0 },
            [.pushed notice.bytes left, .pushed line.bytes left', .stored i s.dropped])

def step (s : Logger P) : LogAct → Option (Logger P × List LogEffect)
  | .format i ms args =>
    match s.lines i with
    | some _ => none
    | none =>
      match formatLine ms args with
      | none => some (s, [.outOfBounds])
      | some line =>
        some ({ s with lines := Function.update s.lines i (some line) }, [.formatted i ms args])
  | .put i =>
    match s.lines i with
    | none => none
    | some line => putLine i line { s with lines := Function.update s.lines i none }
  | .read k =>
    match P.tryRead s.pipe k with
    -- Nothing is there to read yet.
    | none => none
    | some (bytes, pipe) => some ({ s with pipe := pipe }, [.delivered bytes])

variable (P) in
def logging : Machine (Logger P) LogAct LogEffect := ⟨step⟩

end WheelBridge.UartLog
