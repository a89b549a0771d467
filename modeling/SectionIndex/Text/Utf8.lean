import SectionIndex.Text.Printable

/-!
# UTF-8

The bytes of a text and back. Reading is strict: overlong forms, surrogates and values beyond the
last code point are refused, and a refusal says where the first bad sequence stands, how many
bytes of it were plausible, and what was wrong.

## Main definitions

* `Bytes`, `encodeUtf8`, `decodeUtf8`.
* `Utf8Fault` — the first byte sequence that is no character.
-/

namespace SectionIndex

/-- The contents of a file. -/
abbrev Bytes := List UInt8

/-- What is wrong with a byte sequence. -/
inductive Utf8Fault.Kind
  | start
  | continuation
  | truncated
  deriving DecidableEq, Repr

/-- **The first byte sequence that is no character:** its first byte, its offset, the number of
bytes that could have begun a character, and what is wrong. -/
structure Utf8Fault where
  kind : Utf8Fault.Kind
  first : UInt8
  offset : Nat
  length : Nat
  deriving DecidableEq, Repr

/-- The bytes of one character. -/
def encodeChar (c : Char) : Bytes :=
  let n := c.toNat
  if n < 0x80 then [UInt8.ofNat n]
  else if n < 0x800 then [UInt8.ofNat (0xC0 + n / 0x40), UInt8.ofNat (0x80 + n % 0x40)]
  else if n < 0x10000 then
    [UInt8.ofNat (0xE0 + n / 0x1000), UInt8.ofNat (0x80 + n / 0x40 % 0x40),
     UInt8.ofNat (0x80 + n % 0x40)]
  else
    [UInt8.ofNat (0xF0 + n / 0x40000), UInt8.ofNat (0x80 + n / 0x1000 % 0x40),
     UInt8.ofNat (0x80 + n / 0x40 % 0x40), UInt8.ofNat (0x80 + n % 0x40)]

/-- **The bytes of a text.** -/
def encodeUtf8 (t : Text) : Bytes :=
  t.flatMap encodeChar

/-- A byte that continues a character. -/
def isContinuation (b : UInt8) : Bool :=
  0x80 ≤ b.toNat && b.toNat ≤ 0xBF

/-- A byte that can follow the first byte `a` of a character of three or four bytes; the limits
for `a` at the edges exclude overlong forms, surrogates and values that are too large. -/
def isSecond (a b : UInt8) : Bool :=
  let low := if a == 0xE0 then 0xA0 else if a == 0xF0 then 0x90 else 0x80
  let high := if a == 0xED then 0x9F else if a == 0xF4 then 0x8F else 0xBF
  low ≤ b.toNat && b.toNat ≤ high

/-- The characters of the bytes that stand from `offset` on. -/
def decodeUtf8From (offset : Nat) : Bytes → Except Utf8Fault Text
  | [] => .ok []
  | a :: rest =>
    if a < 0x80 then (Char.ofNat a.toNat :: ·) <$> decodeUtf8From (offset + 1) rest
    -- 0xC0 and 0xC1 could only start overlong forms
    else if a < 0xC2 || 0xF4 < a then .error ⟨.start, a, offset, 1⟩
    else
      match rest with
      | [] => .error ⟨.truncated, a, offset, 1⟩
      | b :: rest =>
        if a < 0xE0 then
          if isContinuation b then
            (Char.ofNat ((a.toNat - 0xC0) * 0x40 + (b.toNat - 0x80)) :: ·) <$>
              decodeUtf8From (offset + 2) rest
          else .error ⟨.continuation, a, offset, 1⟩
        else if !isSecond a b then .error ⟨.continuation, a, offset, 1⟩
        else
          match rest with
          | [] => .error ⟨.truncated, a, offset, 2⟩
          | c :: rest =>
            if !isContinuation c then .error ⟨.continuation, a, offset, 2⟩
            else if a < 0xF0 then
              (Char.ofNat ((a.toNat - 0xE0) * 0x1000 + (b.toNat - 0x80) * 0x40 +
                (c.toNat - 0x80)) :: ·) <$> decodeUtf8From (offset + 3) rest
            else
              match rest with
              | [] => .error ⟨.truncated, a, offset, 3⟩
              | d :: rest =>
                if isContinuation d then
                  (Char.ofNat ((a.toNat - 0xF0) * 0x40000 + (b.toNat - 0x80) * 0x1000 +
                    (c.toNat - 0x80) * 0x40 + (d.toNat - 0x80)) :: ·) <$>
                    decodeUtf8From (offset + 4) rest
                else .error ⟨.continuation, a, offset, 3⟩

/-- **The text of the bytes**, or the first sequence that is no character. -/
def decodeUtf8 (bytes : Bytes) : Except Utf8Fault Text :=
  decodeUtf8From 0 bytes

/-- The words for what is wrong with a byte sequence. -/
def Utf8Fault.Kind.message : Utf8Fault.Kind → Text
  | .start => "invalid start byte"
  | .continuation => "invalid continuation byte"
  | .truncated => "unexpected end of data"

/-- The message for a bad byte sequence. A single byte is shown, of several the positions are. -/
def Utf8Fault.message (fault : Utf8Fault) : Text :=
  let location : Text :=
    if fault.length = 1 then
      "byte 0x" ++ Text.hexPadded 2 fault.first.toNat ++ " in position " ++
        Text.ofNat fault.offset
    else
      "bytes in position " ++ Text.ofNat fault.offset ++ "-" ++
        Text.ofNat (fault.offset + fault.length - 1)
  "'utf-8' codec can't decode " ++ location ++ ": " ++ fault.kind.message

@[simp] theorem encodeUtf8_nil : encodeUtf8 [] = [] := rfl

@[simp] theorem encodeUtf8_cons (c : Char) (t : Text) :
    encodeUtf8 (c :: t) = encodeChar c ++ encodeUtf8 t := rfl

@[simp] theorem decodeUtf8_nil : decodeUtf8 [] = .ok [] := rfl

end SectionIndex
