namespace MusicIndex.Text.Utf8

/-- Why bytes are no text: a stretch that begins no character, or a character cut off by the end. -/
inductive Fault where
  | invalid (length index : Nat)
  | incomplete (index : Nat)
deriving DecidableEq

def Fault.message : Fault → String
  | .invalid length index => s!"invalid utf-8 sequence of {length} bytes from index {index}"
  | .incomplete index => s!"incomplete utf-8 byte sequence from index {index}"

/-- The bytes that may follow a first byte, and how many follow it in all; `none` for a byte that
begins no character of more than one byte. -/
def continuation (first : UInt8) : Option (UInt8 × UInt8 × Nat) :=
  if 0xC2 ≤ first ∧ first ≤ 0xDF then some (0x80, 0xBF, 1)
  else if first = 0xE0 then some (0xA0, 0xBF, 2)
  else if first = 0xED then some (0x80, 0x9F, 2)
  else if 0xE1 ≤ first ∧ first ≤ 0xEF then some (0x80, 0xBF, 2)
  else if first = 0xF0 then some (0x90, 0xBF, 3)
  else if 0xF1 ≤ first ∧ first ≤ 0xF3 then some (0x80, 0xBF, 3)
  else if first = 0xF4 then some (0x80, 0x8F, 3)
  else none

def isTail (b : UInt8) : Bool :=
  0x80 ≤ b && b ≤ 0xBF

def assemble (first : UInt8) (followers : List UInt8) : Char :=
  let head := first.toNat % Nat.pow 2 (6 - followers.length)
  Char.ofNat (followers.foldl (fun n b => n * 64 + b.toNat % 64) head)

def decodeFrom (index : Nat) : List UInt8 → Except Fault (List Char)
  | [] => .ok []
  | a :: rest =>
    if a < 0x80 then (Char.ofNat a.toNat :: ·) <$> decodeFrom (index + 1) rest
    else
      match continuation a with
      | none => .error (.invalid 1 index)
      | some (low, high, count) =>
        match rest with
        | [] => .error (.incomplete index)
        | b :: rest =>
          if b < low ∨ high < b then .error (.invalid 1 index)
          else if count = 1 then (assemble a [b] :: ·) <$> decodeFrom (index + 2) rest
          else
            match rest with
            | [] => .error (.incomplete index)
            | c :: rest =>
              if !isTail c then .error (.invalid 2 index)
              else if count = 2 then (assemble a [b, c] :: ·) <$> decodeFrom (index + 3) rest
              else
                match rest with
                | [] => .error (.incomplete index)
                | d :: rest =>
                  if !isTail d then .error (.invalid 3 index)
                  else (assemble a [b, c, d] :: ·) <$> decodeFrom (index + 4) rest

def decode (bytes : List UInt8) : Except Fault (List Char) :=
  decodeFrom 0 bytes

def encode (s : String) : List UInt8 :=
  s.toUTF8.toList

end MusicIndex.Text.Utf8
