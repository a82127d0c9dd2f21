import KnowledgeBase.Text.CharClass

/-!
Text between double quotes, as error messages show it. The quoted form is one line of
visible characters: the quote and the backslash are escaped, line ends and the tab have
short escapes, and every other unprintable character is written by its code point.
-/

namespace KnowledgeBase.Text

/-- Digits of `n` in lower-case hexadecimal without leading zeros. -/
def hexDigits (n : Nat) : List Char := Nat.toDigits 16 n

def quotedChar (c : Char) : List Char :=
  match c with
  | '"' => ['\\', '"']
  | '\\' => ['\\', '\\']
  | '\x00' => ['\\', '0']
  | '\t' => ['\\', 't']
  | '\n' => ['\\', 'n']
  | '\r' => ['\\', 'r']
  | c =>
      if unprintable.contains c then
        ['\\', 'u', '\x7b'] ++ hexDigits c.toNat ++ ['\x7d']
      else
        [c]

def quoted (text : String) : String :=
  String.ofList ('"' :: text.toList.flatMap quotedChar ++ ['"'])

end KnowledgeBase.Text
