/-!
Base64 with padding: three bytes are written as four characters of six bits each.
-/
namespace Sluice.Text

def base64Digit (n : Nat) : Char :=
  let n := n % 64
  if n < 26 then Char.ofNat ('A'.toNat + n)
  else if n < 52 then Char.ofNat ('a'.toNat + (n - 26))
  else if n < 62 then Char.ofNat ('0'.toNat + (n - 52))
  else if n = 62 then '+'
  else '/'

def base64Of : List Nat → List Char
  | a :: b :: c :: rest =>
    let n := a * 65536 + b * 256 + c
    base64Digit (n / 262144) :: base64Digit (n / 4096) :: base64Digit (n / 64) :: base64Digit n ::
      base64Of rest
  | [a, b] =>
    let n := a * 65536 + b * 256
    [base64Digit (n / 262144), base64Digit (n / 4096), base64Digit (n / 64), '=']
  | [a] =>
    let n := a * 65536
    [base64Digit (n / 262144), base64Digit (n / 4096), '=', '=']
  | [] => []

/-- The base64 text of the UTF-8 bytes of `s`. -/
def base64 (s : String) : String :=
  String.ofList (base64Of (s.toUTF8.toList.map UInt8.toNat))

end Sluice.Text
