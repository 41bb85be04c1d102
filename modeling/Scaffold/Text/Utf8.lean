import Scaffold.Text.Quoted

/-!
# UTF-8

Files hold bytes.  `Utf8.encode` fails exactly on texts with a surrogate, and names the first run
of them.  `Utf8.decode` accepts the well-formed sequences only: no overlong form, no surrogate,
nothing above `U+10FFFF`; it names the bytes that make no character.
-/

namespace Scaffold

/-- The contents of a file. -/
abbrev Bytes := List UInt8

namespace Utf8

/-! ### Writing -/

/-- The bytes of the scalar value `n`. -/
def encodeScalar (n : Nat) : Bytes :=
  if n < 0x80 then [.ofNat n]
  else if n < 0x800 then [.ofNat (0xC0 + n / 0x40), .ofNat (0x80 + n % 0x40)]
  else if n < 0x10000 then
    [.ofNat (0xE0 + n / 0x1000), .ofNat (0x80 + n / 0x40 % 0x40), .ofNat (0x80 + n % 0x40)]
  else
    [.ofNat (0xF0 + n / 0x40000), .ofNat (0x80 + n / 0x1000 % 0x40),
      .ofNat (0x80 + n / 0x40 % 0x40), .ofNat (0x80 + n % 0x40)]

/-- The first run of surrogates in a text, which UTF-8 cannot hold. -/
structure EncodeError where
  /-- The first surrogate. -/
  first : Fin 2048
  /-- The offset of the first surrogate. -/
  start : Nat
  /-- The number of surrogates in the run. -/
  count : Nat
  deriving DecidableEq, Repr

/-- The message for a text that has no UTF-8 form. -/
def EncodeError.message (e : EncodeError) : Text :=
  if e.count ≤ 1 then
    "'utf-8' codec can't encode character '\\u" ++ Text.hex (0xD800 + e.first.val) 4
      ++ "' in position " ++ Text.ofNat e.start ++ ": surrogates not allowed"
  else
    "'utf-8' codec can't encode characters in position " ++ Text.ofNat e.start ++ "-"
      ++ Text.ofNat (e.start + e.count - 1) ++ ": surrogates not allowed"

/-- The bytes of a text that begins at offset `pos` of the whole one. -/
def encodeFrom (pos : Nat) : Text → Except EncodeError Bytes
  | [] => .ok []
  | .scalar c :: t => (encodeFrom (pos + 1) t).map (encodeScalar c.toNat ++ ·)
  | .surrogate u :: t => .error ⟨u, pos, 1 + (t.takeWhile fun c => !decide c.IsScalar).length⟩

/-- The bytes of a text. -/
def encode (t : Text) : Except EncodeError Bytes := encodeFrom 0 t

/-! ### Reading -/

/-- What is wrong with bytes that make no character. -/
inductive Fault where
  /-- A byte that begins no sequence. -/
  | start
  /-- A byte that does not continue the sequence before it. -/
  | continuation
  /-- The bytes end inside a sequence. -/
  | truncated
  deriving DecidableEq, Repr

/-- The wording of a fault. -/
def Fault.message : Fault → Text
  | start => "invalid start byte"
  | continuation => "invalid continuation byte"
  | truncated => "unexpected end of data"

/-- Bytes that make no character: `count` of them from offset `start`, of which `first` is the
first. -/
structure DecodeError where
  /-- The first of the bytes. -/
  first : UInt8
  /-- Its offset. -/
  start : Nat
  /-- How many bytes are named. -/
  count : Nat
  /-- What is wrong with them. -/
  fault : Fault
  deriving DecidableEq, Repr

/-- The message for bytes that are not UTF-8. -/
def DecodeError.message (e : DecodeError) : Text :=
  if e.count ≤ 1 then
    "'utf-8' codec can't decode byte 0x" ++ Text.hex e.first.toNat 2 ++ " in position "
      ++ Text.ofNat e.start ++ ": " ++ e.fault.message
  else
    "'utf-8' codec can't decode bytes in position " ++ Text.ofNat e.start ++ "-"
      ++ Text.ofNat (e.start + e.count - 1) ++ ": " ++ e.fault.message

/-- A byte that can stand second after `lead`: it excludes overlong forms, surrogates and numbers
above `0x10FFFF`. -/
def isSecond (lead b : UInt8) : Bool :=
  0x80 ≤ b && b ≤ 0xBF && (lead != 0xE0 || 0xA0 ≤ b) && (lead != 0xED || b ≤ 0x9F)
    && (lead != 0xF0 || 0x90 ≤ b) && (lead != 0xF4 || b ≤ 0x8F)

/-- A byte that can stand third or fourth. -/
def isTail (b : UInt8) : Bool := 0x80 ≤ b && b ≤ 0xBF

/-- The six bits that a later byte carries. -/
def payload (b : UInt8) : Nat := b.toNat - 0x80

/-- The text of bytes that begin at offset `pos` of the whole file. -/
def decodeFrom (pos : Nat) : Bytes → Except DecodeError Text
  | [] => .ok []
  | a :: r =>
    if a < 0x80 then (decodeFrom (pos + 1) r).map (.scalar (Char.ofNat a.toNat) :: ·)
    else if a < 0xC2 ∨ 0xF4 < a then .error ⟨a, pos, 1, .start⟩
    else
      match r with
      | [] => .error ⟨a, pos, 1, .truncated⟩
      | b :: r =>
        if !isSecond a b then .error ⟨a, pos, 1, .continuation⟩
        else if a < 0xE0 then
          (decodeFrom (pos + 2) r).map
            (.scalar (Char.ofNat ((a.toNat - 0xC0) * 0x40 + payload b)) :: ·)
        else
          match r with
          | [] => .error ⟨a, pos, 2, .truncated⟩
          | c :: r =>
            if !isTail c then .error ⟨a, pos, 2, .continuation⟩
            else if a < 0xF0 then
              (decodeFrom (pos + 3) r).map
                (.scalar (Char.ofNat
                  ((a.toNat - 0xE0) * 0x1000 + payload b * 0x40 + payload c)) :: ·)
            else
              match r with
              | [] => .error ⟨a, pos, 3, .truncated⟩
              | d :: r =>
                if !isTail d then .error ⟨a, pos, 3, .continuation⟩
                else
                  (decodeFrom (pos + 4) r).map
                    (.scalar (Char.ofNat ((a.toNat - 0xF0) * 0x40000 + payload b * 0x1000
                      + payload c * 0x40 + payload d)) :: ·)

/-- The text of a file's bytes. -/
def decode (b : Bytes) : Except DecodeError Text := decodeFrom 0 b

end Utf8

/-- Every line ends in a line feed: a carriage return, with or without a line feed after it,
becomes one. -/
def Text.normalizeNewlines : Text → Text
  | [] => []
  | .scalar '\r' :: .scalar '\n' :: t => .scalar '\n' :: normalizeNewlines t
  | .scalar '\r' :: t => .scalar '\n' :: normalizeNewlines t
  | c :: t => c :: normalizeNewlines t

end Scaffold
