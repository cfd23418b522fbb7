/-!
Contract: documents in JavaScript object notation, on the writing side.

Owns:
- documents with natural numbers as their only numbers, and with fields in the order given;
- the escapes inside strings;
- the compact form, which has no blanks, and the indented form, with two blanks a level.

Does not own: the reading of such texts.
-/

namespace PassScheduler.Json

inductive Document where
  | null
  | bool (b : Bool)
  | number (n : Nat)
  | string (s : String)
  | array (items : List Document)
  | object (fields : List (String × Document))

/-- A character as it stands inside a string. Quotes, backslashes and control characters are
escaped; five of the latter have short names. -/
def escapedChar (c : Char) : String :=
  match c with
  | '"' => "\\\""
  | '\\' => "\\\\"
  | '\x08' => "\\b"
  | '\x0c' => "\\f"
  | '\n' => "\\n"
  | '\r' => "\\r"
  | '\t' => "\\t"
  | c =>
      if c.toNat < 0x20 then
        "\\u00" ++ String.ofList [Nat.digitChar (c.toNat / 16), Nat.digitChar (c.toNat % 16)]
      else
        String.singleton c

def quote (text : String) : String :=
  "\"" ++ String.join (text.toList.map escapedChar) ++ "\""

def boolText (b : Bool) : String :=
  if b then "true" else "false"

mutual

/-- A document without any blanks. -/
def compact : Document → String
  | .null => "null"
  | .bool b => boolText b
  | .number n => n.repr
  | .string s => quote s
  | .array items => "[" ++ compactItems items ++ "]"
  | .object fields => "\x7b" ++ compactFields fields ++ "\x7d"

def compactItems : List Document → String
  | [] => ""
  | [item] => compact item
  | item :: rest => compact item ++ "," ++ compactItems rest

def compactFields : List (String × Document) → String
  | [] => ""
  | [(key, value)] => quote key ++ ":" ++ compact value
  | (key, value) :: rest => quote key ++ ":" ++ compact value ++ "," ++ compactFields rest

end

/-- The start of a new line at an indentation. -/
def newLine (indent : Nat) : String :=
  "\n" ++ String.ofList (List.replicate indent ' ')

mutual

/-- A document with each item and each field on a line of its own, the whole standing at an
indentation. -/
def indented (indent : Nat) : Document → String
  | .null => "null"
  | .bool b => boolText b
  | .number n => n.repr
  | .string s => quote s
  | .array [] => "[]"
  | .array items => "[" ++ indentedItems (indent + 2) items ++ newLine indent ++ "]"
  | .object [] => "\x7b\x7d"
  | .object fields =>
      "\x7b" ++ indentedFields (indent + 2) fields ++ newLine indent ++ "\x7d"

def indentedItems (indent : Nat) : List Document → String
  | [] => ""
  | [item] => newLine indent ++ indented indent item
  | item :: rest => newLine indent ++ indented indent item ++ "," ++ indentedItems indent rest

def indentedFields (indent : Nat) : List (String × Document) → String
  | [] => ""
  | [(key, value)] => newLine indent ++ quote key ++ ": " ++ indented indent value
  | (key, value) :: rest =>
      newLine indent ++ quote key ++ ": " ++ indented indent value ++ "," ++
        indentedFields indent rest

end

/-- A document in its indented form. -/
def pretty (document : Document) : String :=
  indented 0 document

end PassScheduler.Json
