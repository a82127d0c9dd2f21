import KnowledgeBase.Binary64.Layout
import KnowledgeBase.Json.Basic
import KnowledgeBase.Text.Quoted

/-!
The compact written form of values: no blanks, members in the order the object lists them,
and only the characters that must be escaped are.
-/

namespace KnowledgeBase.Json

def escapedChar (c : Char) : List Char :=
  match c with
  | '"' => ['\\', '"']
  | '\\' => ['\\', '\\']
  | '\x08' => ['\\', 'b']
  | '\x0c' => ['\\', 'f']
  | '\n' => ['\\', 'n']
  | '\r' => ['\\', 'r']
  | '\t' => ['\\', 't']
  | c =>
      if c.toNat < 32 then
        ['\\', 'u', '0', '0', Nat.digitChar (c.toNat / 16), Nat.digitChar (c.toNat % 16)]
      else
        [c]

def quotedChars (text : String) : List Char := '"' :: text.toList.flatMap escapedChar ++ ['"']

mutual

def chars : Json → List Char
  | .null => ['n', 'u', 'l', 'l']
  | .bool true => ['t', 'r', 'u', 'e']
  | .bool false => ['f', 'a', 'l', 's', 'e']
  | .int value => (toString value).toList
  | .float value => (Binary64.Layout.json.text value).toList
  | .text value => quotedChars value
  | .array elements => '[' :: elementChars elements ++ [']']
  | .object members => '\x7b' :: memberChars members ++ ['\x7d']

def elementChars : List Json → List Char
  | [] => []
  | [last] => last.chars
  | first :: rest => first.chars ++ ',' :: elementChars rest

def memberChars : List (String × Json) → List Char
  | [] => []
  | [(name, value)] => quotedChars name ++ ':' :: value.chars
  | (name, value) :: rest => quotedChars name ++ ':' :: value.chars ++ ',' :: memberChars rest

end

def render (value : Json) : String := String.ofList value.chars

end KnowledgeBase.Json
