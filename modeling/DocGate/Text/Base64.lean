/-!
# Base 64

Bytes as text, three of them in four characters, the last group filled up with
equals signs.
-/

namespace DocGate

namespace Text

/-- The character for a value below 64. -/
def base64Digit (n : Nat) : Char :=
  if n < 26 then Char.ofNat (65 + n)
  else if n < 52 then Char.ofNat (71 + n)
  else if n < 62 then Char.ofNat (n - 4)
  else if n = 62 then '+'
  else '/'

/-- The text of a list of bytes. -/
def base64Chars : List UInt8 → List Char
  | [] => []
  | [a] =>
    let n := a.toNat * 16
    [base64Digit (n / 64), base64Digit (n % 64), '=', '=']
  | [a, b] =>
    let n := (a.toNat * 256 + b.toNat) * 4
    [base64Digit (n / 4096), base64Digit (n / 64 % 64), base64Digit (n % 64), '=']
  | a :: b :: c :: rest =>
    let n := (a.toNat * 256 + b.toNat) * 256 + c.toNat
    base64Digit (n / 262144) :: base64Digit (n / 4096 % 64) :: base64Digit (n / 64 % 64) ::
      base64Digit (n % 64) :: base64Chars rest

example : base64Chars [77, 97, 110] = ['T', 'W', 'F', 'u'] := by decide
example : base64Chars [77, 97] = ['T', 'W', 'E', '='] := by decide
example : base64Chars [77] = ['T', 'Q', '=', '='] := by decide

end Text

end DocGate
