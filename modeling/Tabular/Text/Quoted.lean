import Tabular.Text.Hidden

/-!
# Text in double quotes

The form in which messages show a text: quotes and backslashes behind a backslash, line breaks
and tabs by their letters, and every other character that cannot be seen by its code point.
-/
namespace Tabular.Text

def escaped (c : Char) : List Char :=
  match c with
  | '"' => ['\\', '"']
  | '\\' => ['\\', '\\']
  | '\n' => ['\\', 'n']
  | '\r' => ['\\', 'r']
  | '\t' => ['\\', 't']
  | '\x00' => ['\\', '0']
  | c => if isHidden c then ['\\', 'u', '\x7b'] ++ Nat.toDigits 16 c.toNat ++ ['\x7d'] else [c]

/-- The text in double quotes, so that its ends and all its characters can be seen. -/
def quoted (s : String) : String := String.ofList ('"' :: s.toList.flatMap escaped ++ ['"'])

end Tabular.Text
