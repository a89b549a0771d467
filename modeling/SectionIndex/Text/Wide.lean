import SectionIndex.Text.Points
import SectionIndex.Text.Utf8

/-!
# Texts in 16-bit and 32-bit units

Messages can come in units of one, two or four bytes, in either order. Which it is shows at the
start: by a byte order mark, or by where the zero bytes of its first characters are. In each form
the halves of surrogate pairs can stand alone.

## Main definitions

* `decodeUtf8Loose`, `decodeUtf16`, `decodeUtf32`.
* `decodeMessage` — the code points of bytes in any of these forms.
-/

namespace SectionIndex

/-- The numbers of pairs of bytes; none if a byte is left over. -/
def units16 (bigEndian : Bool) : Bytes → Option (List Nat)
  | [] => some []
  | a :: b :: rest =>
    (units16 bigEndian rest).map
      ((if bigEndian then a.toNat * 0x100 + b.toNat else b.toNat * 0x100 + a.toNat) :: ·)
  | _ => none

/-- The numbers of groups of four bytes; none if bytes are left over. -/
def units32 (bigEndian : Bool) : Bytes → Option (List Nat)
  | [] => some []
  | a :: b :: c :: d :: rest =>
    let value (w x y z : UInt8) :=
      ((w.toNat * 0x100 + x.toNat) * 0x100 + y.toNat) * 0x100 + z.toNat
    (units32 bigEndian rest).map ((if bigEndian then value a b c d else value d c b a) :: ·)
  | _ => none

/-- The code points of 16-bit units. -/
def decodeUtf16 (bigEndian : Bool) (bytes : Bytes) : Option Points :=
  (units16 bigEndian bytes).map joinUnits

/-- The code points of 32-bit units, each of which is one. -/
def decodeUtf32 (bigEndian : Bool) (bytes : Bytes) : Option Points :=
  (units32 bigEndian bytes).bind fun points =>
    if points.all (· < 0x110000) then some (points.map .ofNat) else none

/-- The text of bytes in UTF-8. -/
def decodeUtf8? (bytes : Bytes) : Option Text :=
  (decodeUtf8 bytes).toOption

/-- The half of a surrogate pair in three bytes, the first of which is 0xED. -/
def decodeHalf? (second third : UInt8) : Option Nat :=
  if 0xA0 ≤ second.toNat && isContinuation second && isContinuation third then
    some (0xD000 + (second.toNat - 0x80) * 0x40 + (third.toNat - 0x80))
  else none

/-- The code points of bytes in UTF-8 in which halves of surrogate pairs are allowed. The bytes
`seen`, the latest first, come before the others and hold no such half. -/
def decodeUtf8After (seen : Bytes) : Bytes → Option Points
  | 0xED :: b :: c :: rest =>
    match decodeHalf? b c with
    | some unit => do
      -- what stands before the half must be whole characters
      let before ← decodeUtf8? seen.reverse
      let after ← decodeUtf8After [] rest
      return before ++ .surrogate unit :: after
    | none => decodeUtf8After (0xED :: seen) (b :: c :: rest)
  | b :: rest => decodeUtf8After (b :: seen) rest
  | [] => (decodeUtf8? seen.reverse).map fun t => t

/-- The code points of bytes in UTF-8 in which halves of surrogate pairs are allowed. -/
def decodeUtf8Loose (bytes : Bytes) : Option Points :=
  decodeUtf8After [] bytes

/-- The code points of bytes without a byte order mark. -/
def decodeUnmarked (bytes : Bytes) : Option Points :=
  match bytes with
  | [a, b] =>
    if a = 0 then decodeUtf16 true bytes
    else if b = 0 then decodeUtf16 false bytes
    else decodeUtf8Loose bytes
  | a :: b :: c :: d :: _ =>
    if a = 0 then (if b = 0 then decodeUtf32 true bytes else decodeUtf16 true bytes)
    else if b = 0 then
      (if c = 0 ∧ d = 0 then decodeUtf32 false bytes else decodeUtf16 false bytes)
    else decodeUtf8Loose bytes
  | _ => decodeUtf8Loose bytes

/-- **The code points of a message.** -/
def decodeMessage (bytes : Bytes) : Option Points :=
  match bytes with
  | 0x00 :: 0x00 :: 0xFE :: 0xFF :: rest => decodeUtf32 true rest
  | 0xFF :: 0xFE :: 0x00 :: 0x00 :: rest => decodeUtf32 false rest
  | 0xFE :: 0xFF :: rest => decodeUtf16 true rest
  | 0xFF :: 0xFE :: rest => decodeUtf16 false rest
  | 0xEF :: 0xBB :: 0xBF :: rest => decodeUtf8Loose rest
  | bytes => decodeUnmarked bytes

end SectionIndex
