/-!
# Strict UTF-8

Reading bytes as text. A start byte says how many continuation bytes follow and from which range the
first of them is, which leaves out overlong forms, surrogates and everything past the last code point.
A byte string that is no text has a first faulty sequence: a start byte with the continuation bytes
that fit it, cut off by the end or by a byte that does not fit.
-/

namespace LoxFrontEnd.Utf8

/-! ### Sequences -/

/-- What a start byte fixes: the leading bits of the code point, how many continuation bytes follow,
and the range of the first one. -/
structure Start where
  bits : Nat
  more : Nat
  low : UInt8 := 0x80
  high : UInt8 := 0xBF
deriving DecidableEq

def start? (b : UInt8) : Option Start :=
  let n := b.toNat
  if n < 0x80 then some { bits := n, more := 0 }
  else if n < 0xC2 then none
  else if n < 0xE0 then some { bits := n - 0xC0, more := 1 }
  else if n = 0xE0 then some { bits := 0, more := 2, low := 0xA0 }
  else if n = 0xED then some { bits := n - 0xE0, more := 2, high := 0x9F }
  else if n < 0xF0 then some { bits := n - 0xE0, more := 2 }
  else if n = 0xF0 then some { bits := 0, more := 3, low := 0x90 }
  else if n < 0xF4 then some { bits := n - 0xF0, more := 3 }
  else if n = 0xF4 then some { bits := n - 0xF0, more := 3, high := 0x8F }
  else none

/-- The continuation bytes at the head of `bytes`, up to `more` of them; the first lies between `low`
and `high`. -/
def continuation : (more : Nat) → (low high : UInt8) → (bytes : List UInt8) → List UInt8
  | 0, _, _, _ => []
  | _ + 1, _, _, [] => []
  | more + 1, low, high, b :: bytes =>
    if low ≤ b ∧ b ≤ high then b :: continuation more 0x80 0xBF bytes else []

/-- The code point with these leading bits and six more from each continuation byte. -/
def codePoint (bits : Nat) (following : List UInt8) : Nat :=
  following.foldl (fun n b => n * 64 + b.toNat % 64) bits

theorem continuation_isPrefix (more : Nat) (low high : UInt8) (bytes : List UInt8) :
    continuation more low high bytes <+: bytes := by
  induction more generalizing low high bytes with
  | zero => exact List.nil_prefix
  | succ more ih =>
    cases bytes with
    | nil => exact List.nil_prefix
    | cons b bytes =>
      simp only [continuation]
      split
      · exact List.cons_prefix_cons.2 ⟨rfl, ih 0x80 0xBF bytes⟩
      · exact List.nil_prefix

/-! ### Faults -/

inductive Reason where
  | invalidStart
  | invalidContinuation
  | endOfData
deriving DecidableEq

def Reason.text : Reason → String
  | .invalidStart => "invalid start byte"
  | .invalidContinuation => "invalid continuation byte"
  | .endOfData => "unexpected end of data"

/-- A faulty sequence: where it starts, its first byte, how many continuation bytes fit it, and what
is wrong after them. -/
structure Fault where
  position : Nat
  start : UInt8
  fitting : Nat
  reason : Reason
deriving DecidableEq

def byteText (b : UInt8) : String :=
  "0x" ++ String.ofList [Nat.digitChar (b.toNat / 16), Nat.digitChar (b.toNat % 16)]

/-- One sentence about a fault; a single byte is shown, several by their positions. -/
def Fault.message (f : Fault) : String :=
  let place :=
    if f.fitting = 0 then "byte " ++ byteText f.start ++ " in position " ++ toString f.position
    else "bytes in position " ++ toString f.position ++ "-" ++ toString (f.position + f.fitting)
  "'utf-8' codec can't decode " ++ place ++ ": " ++ f.reason.text

/-! ### Reading -/

/-- The text of `bytes`, the first of which lies at `position`. -/
def decodeFrom (position : Nat) : List UInt8 → Except Fault (List Char)
  | [] => .ok []
  | b :: bytes =>
    match start? b with
    | none => .error ⟨position, b, 0, .invalidStart⟩
    | some s =>
      let following := continuation s.more s.low s.high bytes
      if following.length = s.more then
        (decodeFrom (position + 1 + s.more) (bytes.drop s.more)).map
          (Char.ofNat (codePoint s.bits following) :: ·)
      else if following.length = bytes.length then
        .error ⟨position, b, following.length, .endOfData⟩
      else .error ⟨position, b, following.length, .invalidContinuation⟩
termination_by bytes => bytes.length
decreasing_by
  simp only [List.length_drop, List.length_cons]
  omega

def decode (bytes : List UInt8) : Except Fault (List Char) := decodeFrom 0 bytes

end LoxFrontEnd.Utf8
