/-!
# Strict UTF-8

Bytes are read as UTF-8 without repair: the first sequence that is not the
shortest encoding of a scalar value ends the reading, and the fault says where
it lies and why it was refused.
-/

namespace Unscramble.Text

inductive Malformation
  | start
  | continuation
  | truncated
deriving DecidableEq, Repr

/-- The refused bytes: the first of them, how many come before it, and how many
there are. -/
structure Malformed where
  byte : UInt8
  position : Nat
  width : Nat
  reason : Malformation
deriving DecidableEq, Repr

def encode (s : String) : List UInt8 := s.toList.flatMap String.utf8EncodeChar

def isContinuation (b : UInt8) : Bool := 0x80 ≤ b && b < 0xC0

/-- Second bytes of a three-byte sequence: no longer form than needed, no
surrogate. -/
def secondOfThree (lead b : UInt8) : Bool :=
  isContinuation b && (if lead = 0xE0 then 0xA0 ≤ b else if lead = 0xED then b < 0xA0 else true)

/-- Second bytes of a four-byte sequence: no longer form than needed, nothing
above the last code point. -/
def secondOfFour (lead b : UInt8) : Bool :=
  isContinuation b && (if lead = 0xF0 then 0x90 ≤ b else if lead = 0xF4 then b < 0x90 else true)

def payload (b : UInt8) : Nat := b.toNat % 64

/-- `acc` holds the characters read so far, the last one first. -/
def decodeFrom (acc : List Char) (pos : Nat) : List UInt8 → Except Malformed (List Char)
  | [] => .ok acc.reverse
  | b :: tail =>
    if b < 0x80 then decodeFrom (Char.ofNat b.toNat :: acc) (pos + 1) tail
    else if b < 0xC2 then .error ⟨b, pos, 1, .start⟩
    else if b < 0xE0 then
      match tail with
      | [] => .error ⟨b, pos, 1, .truncated⟩
      | b₁ :: tail =>
        if isContinuation b₁ then
          decodeFrom (Char.ofNat (b.toNat % 32 * 64 + payload b₁) :: acc) (pos + 2) tail
        else .error ⟨b, pos, 1, .continuation⟩
    else if b < 0xF0 then
      match tail with
      | [] => .error ⟨b, pos, 1, .truncated⟩
      | b₁ :: tail =>
        if secondOfThree b b₁ then
          match tail with
          | [] => .error ⟨b, pos, 2, .truncated⟩
          | b₂ :: tail =>
            if isContinuation b₂ then
              decodeFrom (Char.ofNat ((b.toNat % 16 * 64 + payload b₁) * 64 + payload b₂) :: acc)
                (pos + 3) tail
            else .error ⟨b, pos, 2, .continuation⟩
        else .error ⟨b, pos, 1, .continuation⟩
    else if b < 0xF5 then
      match tail with
      | [] => .error ⟨b, pos, 1, .truncated⟩
      | b₁ :: tail =>
        if secondOfFour b b₁ then
          match tail with
          | [] => .error ⟨b, pos, 2, .truncated⟩
          | b₂ :: tail =>
            if isContinuation b₂ then
              match tail with
              | [] => .error ⟨b, pos, 3, .truncated⟩
              | b₃ :: tail =>
                if isContinuation b₃ then
                  decodeFrom
                    (Char.ofNat
                      (((b.toNat % 8 * 64 + payload b₁) * 64 + payload b₂) * 64 + payload b₃) :: acc)
                    (pos + 4) tail
                else .error ⟨b, pos, 3, .continuation⟩
            else .error ⟨b, pos, 2, .continuation⟩
        else .error ⟨b, pos, 1, .continuation⟩
    else .error ⟨b, pos, 1, .start⟩

def decode (bytes : List UInt8) : Except Malformed String :=
  (decodeFrom [] 0 bytes).map String.ofList

/-- Line ends are read as a line feed, whether written `\r\n`, `\r` or `\n`. -/
def unifyLineEnds (s : List Char) : List Char :=
  go [] s
where
  go (acc : List Char) : List Char → List Char
    | [] => acc.reverse
    | '\r' :: '\n' :: rest => go ('\n' :: acc) rest
    | '\r' :: rest => go ('\n' :: acc) rest
    | c :: rest => go (c :: acc) rest

/-- The text of a file or of a program's output. -/
def read (bytes : List UInt8) : Except Malformed String :=
  (decodeFrom [] 0 bytes).map fun s => String.ofList (unifyLineEnds s)

end Unscramble.Text
