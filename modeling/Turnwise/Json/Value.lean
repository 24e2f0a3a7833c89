/-!
# JSON documents

JSON documents and their written form.

A document keeps the difference between an unsigned integer literal and every
other number, because the protocol's integers are accepted only in the former
shape. It also keeps the order and the repetitions of an object's fields: what
to do about a repeated field is the reader's decision, not the document's.

`Json.compact` writes a document without blanks, `Json.pretty` with two blanks
for each level of nesting. Both write the same strings.
-/

namespace Turnwise

inductive Json where
  | null
  | bool (value : Bool)
  /-- An integer literal without sign, fraction or exponent. -/
  | natural (value : Nat)
  /-- Any other number, as it is written. -/
  | number (literal : List Char)
  /-- A string, or `none` where its escapes name half of a surrogate pair: such a literal is well
  formed, but it denotes no text. -/
  | string (value : Option String)
  | array (items : List Json)
  | object (fields : List (Option String × Json))
  deriving Inhabited

namespace Json

def text (value : String) : Json := string (some value)

def integer : Int → Json
  | .ofNat n => natural n
  | .negSucc n => number ('-' :: (toString (n + 1)).toList)

/-- An object document with the given fields. -/
def record (fields : List (String × Json)) : Json :=
  object (fields.map fun field => (some field.1, field.2))

/-! ### Strings -/

def hexDigit (n : Nat) : Char :=
  if n < 10 then Char.ofNat (48 + n) else Char.ofNat (87 + n)

/-- A character inside a string literal. Quotes, backslashes and control characters are escaped, the
last by their short names where they have one; every other character stands for itself. -/
def escape (c : Char) : List Char :=
  if c = '"' then ['\\', '"']
  else if c = '\\' then ['\\', '\\']
  else if c = '\n' then ['\\', 'n']
  else if c = '\r' then ['\\', 'r']
  else if c = '\t' then ['\\', 't']
  else if c.toNat = 8 then ['\\', 'b']
  else if c.toNat = 12 then ['\\', 'f']
  else if c.toNat < 32 then
    ['\\', 'u', '0', '0', hexDigit (c.toNat / 16), hexDigit (c.toNat % 16)]
  else [c]

def quote (s : String) : List Char :=
  '"' :: (s.toList.flatMap escape ++ ['"'])

/-! ### Documents -/

/-- A name or a string; text that does not exist is written as an empty literal. -/
def quoteOption (s : Option String) : List Char := quote (s.getD "")

mutual

def compactChars : Json → List Char
  | null => "null".toList
  | bool true => "true".toList
  | bool false => "false".toList
  | natural n => (toString n).toList
  | number literal => literal
  | string s => quoteOption s
  | array [] => ['[', ']']
  | array (item :: rest) => '[' :: (compactChars item ++ compactItems rest)
  | object [] => ['\x7b', '\x7d']
  | object ((name, value) :: rest) =>
      '\x7b' :: (quoteOption name ++ ':' :: (compactChars value ++ compactFields rest))

/-- The items after the first, and the closing bracket. -/
def compactItems : List Json → List Char
  | [] => [']']
  | item :: rest => ',' :: (compactChars item ++ compactItems rest)

/-- The fields after the first, and the closing brace. -/
def compactFields : List (Option String × Json) → List Char
  | [] => ['\x7d']
  | (name, value) :: rest =>
      ',' :: (quoteOption name ++ ':' :: (compactChars value ++ compactFields rest))

end

/-- A document on one line, without blanks. -/
def compact (document : Json) : String := String.ofList document.compactChars

def newline (level : Nat) : List Char := '\n' :: List.replicate (2 * level) ' '

mutual

/-- A document that starts at the given level of nesting, one item or field a line. -/
def prettyChars (level : Nat) : Json → List Char
  | null => "null".toList
  | bool true => "true".toList
  | bool false => "false".toList
  | natural n => (toString n).toList
  | number literal => literal
  | string s => quoteOption s
  | array [] => ['[', ']']
  | array (item :: rest) =>
      '[' :: (newline (level + 1) ++ prettyChars (level + 1) item ++ prettyItems level rest)
  | object [] => ['\x7b', '\x7d']
  | object ((name, value) :: rest) =>
      '\x7b' :: (newline (level + 1) ++ quoteOption name ++ ':' :: ' ' ::
        (prettyChars (level + 1) value ++ prettyFields level rest))

/-- The items after the first, and the closing bracket on a line of its own. -/
def prettyItems (level : Nat) : List Json → List Char
  | [] => newline level ++ [']']
  | item :: rest =>
      ',' :: (newline (level + 1) ++ prettyChars (level + 1) item ++ prettyItems level rest)

/-- The fields after the first, and the closing brace on a line of its own. -/
def prettyFields (level : Nat) : List (Option String × Json) → List Char
  | [] => newline level ++ ['\x7d']
  | (name, value) :: rest =>
      ',' :: (newline (level + 1) ++ quoteOption name ++ ':' :: ' ' ::
        (prettyChars (level + 1) value ++ prettyFields level rest))

end

def pretty (document : Json) : String := String.ofList (document.prettyChars 0)

end Json

end Turnwise
