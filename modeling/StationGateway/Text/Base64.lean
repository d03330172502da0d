/-!
# Base64

Four signs hold three bytes; two or three signs at the end hold one or two. In URLs the alphabet has
`-` and `_`, there is no padding, and the spare bits of the last sign must be zero. In files it has
`+` and `/`, equality signs may fill the last group, blanks do not count, and spare bits do not
matter. -/

namespace StationGateway.Text

/-- The six bits that a sign stands for. -/
def base64Value? (sign : Char) : Option Nat :=
  if 'A' ≤ sign ∧ sign ≤ 'Z' then some (sign.toNat - 65)
  else if 'a' ≤ sign ∧ sign ≤ 'z' then some (sign.toNat - 71)
  else if '0' ≤ sign ∧ sign ≤ '9' then some (sign.toNat + 4)
  else if sign = '-' then some 62
  else if sign = '_' then some 63
  else none

/-- The bytes of groups of six bits, of which the spare ones are left out. -/
def regroup : List Nat → Option (List UInt8)
  | [] => some []
  | [_] => none
  | [a, b] => some [UInt8.ofNat (a * 4 + b / 16)]
  | [a, b, c] => some [UInt8.ofNat (a * 4 + b / 16), UInt8.ofNat (b % 16 * 16 + c / 4)]
  | a :: b :: c :: d :: rest =>
      (regroup rest).map fun bytes =>
        UInt8.ofNat (a * 4 + b / 16) :: UInt8.ofNat (b % 16 * 16 + c / 4) ::
          UInt8.ofNat (c % 4 * 64 + d) :: bytes

/-- The spare bits of groups of six bits. -/
def spareBits : List Nat → Nat
  | [_, b] => b % 16
  | [_, _, c] => c % 4
  | _ :: _ :: _ :: _ :: rest => spareBits rest
  | _ => 0

/-- The bytes that a text in the alphabet of URLs stands for. -/
def decodeBase64? (text : List Char) : Option (List UInt8) := do
  let values ← text.mapM base64Value?
  if spareBits values = 0 then regroup values else none

/-- The sign of URLs for a sign of the standard alphabet, which has `+` and `/`. -/
def urlSign? (sign : Char) : Option Char :=
  if sign = '+' then some '-'
  else if sign = '/' then some '_'
  else if sign = '-' ∨ sign = '_' then none
  else some sign

/-- Whether a character between signs does not count. -/
def isBase64Blank (char : Char) : Bool :=
  char = ' ' || (9 ≤ char.toNat && char.toNat ≤ 13)

/-- The bytes that the text of a file stands for. If the last group is filled, it has four signs. -/
def decodeBase64File? (text : List Char) : Option (List UInt8) := do
  let signs := text.filter fun char => !isBase64Blank char
  let bare := (signs.reverse.dropWhile (· = '=')).reverse
  let fill := signs.length - bare.length
  if fill = 0 ∨ (fill ≤ 2 ∧ signs.length % 4 = 0) then
    let values ← bare.mapM fun sign => (urlSign? sign).bind base64Value?
    regroup values
  else none

end StationGateway.Text
