import KnowledgeBase.Json.Lexeme

/-!
What can be made out of a written value, up to its first fault. A draft keeps the members
of an object as they stand, with repeated names and in their order, and says of each array
and object whether its end was found. Readers walk a draft from left to right, so of two
faults they meet the one that comes first in the text, whether it is a broken word or a
member of the wrong type.

The nesting of a draft is not bounded; a reader that builds values bounds what it accepts.
-/

namespace KnowledgeBase

inductive Draft where
  /-- A null, a boolean, a number or a text; no value if it is well formed but denotes none. -/
  | leaf (value : Option Json)
  | array (elements : List Draft) (closed : Bool)
  /-- A member has no name if what stands for it is well formed but denotes no text. -/
  | object (members : List (Option String × Draft)) (closed : Bool)
  | broken
deriving Inhabited

namespace Draft

/-- Whether the end of the value was found, so that what follows can be read. -/
def ended : Draft → Bool
  | .leaf _ => true
  | .array _ closed => closed
  | .object _ closed => closed
  | .broken => false

open Json

def readNumber (chars : List Char) : Draft × List Char :=
  match Numeral.read? chars with
  | some (numeral, rest) => (.leaf numeral.value?, rest)
  | none => (.broken, chars)

def readWord (word : List Char) (value : Json) (chars : List Char) : Draft × List Char :=
  match afterWord? word chars with
  | some rest => (.leaf (some value), rest)
  | none => (.broken, chars)

/-- Reads a value that is neither an array nor an object. -/
def readLeaf (chars : List Char) : Draft × List Char :=
  match chars with
  | [] => (.broken, [])
  | '"' :: rest =>
      match readText? rest with
      | some (content, rest) => (.leaf (content.map Json.text), rest)
      | none => (.broken, rest)
  | 'n' :: _ => readWord ['n', 'u', 'l', 'l'] .null chars
  | 't' :: _ => readWord ['t', 'r', 'u', 'e'] (.bool true) chars
  | 'f' :: _ => readWord ['f', 'a', 'l', 's', 'e'] (.bool false) chars
  | _ => readNumber chars

mutual

/-- Reads a value and gives the rest after it. The first argument bounds the nesting and
the number of elements; every two steps take at least one character. -/
def readValue : Nat → List Char → Draft × List Char
  | 0, chars => (.broken, chars)
  | fuel + 1, chars =>
      match skipBlank chars with
      | '[' :: rest =>
          match skipBlank rest with
          | ']' :: rest => (.array [] true, rest)
          | rest =>
              let (elements, closed, rest) := readElements fuel rest
              (.array elements closed, rest)
      | '\x7b' :: rest =>
          match skipBlank rest with
          | '\x7d' :: rest => (.object [] true, rest)
          | rest =>
              let (members, closed, rest) := readMembers fuel rest
              (.object members closed, rest)
      | rest => readLeaf rest

/-- Reads one element or more up to the end of an array. -/
def readElements : Nat → List Char → List Draft × Bool × List Char
  | 0, chars => ([], false, chars)
  | fuel + 1, chars =>
      let (first, rest) := readValue fuel chars
      if first.ended then
        match skipBlank rest with
        | ',' :: rest =>
            let (others, closed, rest) := readElements fuel rest
            (first :: others, closed, rest)
        | ']' :: rest => ([first], true, rest)
        | rest => ([first], false, rest)
      else
        ([first], false, rest)

/-- Reads one member or more up to the end of an object. A name that is followed by no
colon is kept with a broken value. -/
def readMembers : Nat → List Char → List (Option String × Draft) × Bool × List Char
  | 0, chars => ([], false, chars)
  | fuel + 1, chars =>
      match skipBlank chars with
      | '"' :: rest =>
          match readText? rest with
          | none => ([], false, rest)
          | some (name, rest) =>
              match skipBlank rest with
              | ':' :: rest =>
                  let (value, rest) := readValue fuel rest
                  if value.ended then
                    match skipBlank rest with
                    | ',' :: rest =>
                        let (others, closed, rest) := readMembers fuel rest
                        ((name, value) :: others, closed, rest)
                    | '\x7d' :: rest => ([(name, value)], true, rest)
                    | rest => ([(name, value)], false, rest)
                  else
                    ([(name, value)], false, rest)
              | rest => ([(name, .broken)], false, rest)
      | rest => ([], false, rest)

end

/-- The draft of a whole text, and whether nothing but blanks follows it. -/
def ofText (text : String) : Draft × Bool :=
  let chars := text.toList
  let (draft, rest) := readValue (2 * chars.length + 2) chars
  (draft, (skipBlank rest).isEmpty)

mutual

/-- Whether the text of the draft has no fault. Nesting and values do not matter. -/
def sound : Draft → Bool
  | .leaf _ => true
  | .array elements closed => closed && soundElements elements
  | .object members closed => closed && soundMembers members
  | .broken => false

def soundElements : List Draft → Bool
  | [] => true
  | first :: rest => first.sound && soundElements rest

def soundMembers : List (Option String × Draft) → Bool
  | [] => true
  | (_, value) :: rest => value.sound && soundMembers rest

end

/-- How many arrays and objects may be open at once; `none` is no bound. -/
abbrev Nesting := Option Nat

/-- The bound inside an array or object, if one may be opened. -/
def Nesting.enter? : Nesting → Option Nesting
  | none => some none
  | some 0 => none
  | some (n + 1) => some (some n)

mutual

/-- The value of a draft without fault whose nesting is within the bound. -/
def toJson? (nesting : Nesting) : Draft → Option Json
  | .leaf value => value
  | .array elements closed => do
      let inner ← nesting.enter?
      if closed then .array <$> elementsToJson? inner elements else none
  | .object members closed => do
      let inner ← nesting.enter?
      if closed then Json.ofMembers <$> membersToJson? inner members else none
  | .broken => none

def elementsToJson? (nesting : Nesting) : List Draft → Option (List Json)
  | [] => some []
  | first :: rest => do
      let value ← first.toJson? nesting
      return value :: (← elementsToJson? nesting rest)

def membersToJson? (nesting : Nesting) :
    List (Option String × Draft) → Option (List (String × Json))
  | [] => some []
  | (name, value) :: rest => do
      let name ← name
      let value ← value.toJson? nesting
      return (name, value) :: (← membersToJson? nesting rest)

end

mutual

/-- The draft of a value's written form. -/
def ofJson : Json → Draft
  | .array elements => .array (ofElements elements) true
  | .object members => .object (ofMembers members) true
  | value => .leaf (some value)

def ofElements : List Json → List Draft
  | [] => []
  | first :: rest => ofJson first :: ofElements rest

def ofMembers : List (String × Json) → List (Option String × Draft)
  | [] => []
  | (name, value) :: rest => (some name, ofJson value) :: ofMembers rest

end

end Draft

/-- Arrays and objects open at once in a text that is read as a value. -/
def maxNesting : Nat := 127

def Json.parse? (text : String) : Option Json :=
  match Draft.ofText text with
  | (draft, true) => draft.toJson? (some maxNesting)
  | (_, false) => none

end KnowledgeBase
