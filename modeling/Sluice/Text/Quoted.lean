import Sluice.Text.Printable

/-!
Quoted text for display: quotes, backslashes and characters that cannot be seen are escaped, so that
the text stands on one line.
-/
namespace Sluice.Text

def escapeForDisplay (c : Char) : String :=
  match c with
  | '"' => "\\\""
  | '\\' => "\\\\"
  | '\n' => "\\n"
  | '\r' => "\\r"
  | '\t' => "\\t"
  | '\x00' => "\\0"
  | _ =>
    if isPrintable c then String.singleton c
    else "\\u\x7b" ++ String.ofList (Nat.toDigits 16 c.toNat) ++ "\x7d"

def quoted (s : String) : String :=
  "\"" ++ String.join (s.toList.map escapeForDisplay) ++ "\""

end Sluice.Text
