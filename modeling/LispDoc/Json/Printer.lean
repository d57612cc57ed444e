import LispDoc.Json.Basic
import LispDoc.Number.Digits

/-!
# Writing JSON

`Json.pretty` puts every item and member on a line of its own, indented by two spaces a level; empty arrays and objects
stay on one line. `Json.compact` writes no white space. In strings the quote, the backslash and the controls are
escaped and nothing else. What has no value is written as null.
-/

namespace LispDoc.Json

/-- One character inside a string. -/
def escapeChar (c : Char) : List Char :=
  match c with
  | '"' => ['\\', '"']
  | '\\' => ['\\', '\\']
  | '\n' => ['\\', 'n']
  | '\r' => ['\\', 'r']
  | '\t' => ['\\', 't']
  | '\x08' => ['\\', 'b']
  | '\x0c' => ['\\', 'f']
  | _ =>
    if c.toNat < 0x20 then
      ['\\', 'u', '0', '0', Nat.digitChar (c.toNat / 16), Nat.digitChar (c.toNat % 16)]
    else [c]

/-- A string between quotes. -/
def quote (text : String) : List Char := '"' :: text.toList.flatMap escapeChar ++ ['"']

/-- A line break and the indentation of `depth` levels. -/
def newline (depth : Nat) : List Char := '\n' :: List.replicate (2 * depth) ' '

mutual
/-- The value over several lines, the first one at `depth` levels. -/
def pretty (depth : Nat) : Json → List Char
  | null => "null".toList
  | unreadable => "null".toList
  | bool value => (if value then "true" else "false").toList
  | number literal => literal.toList
  | string text => quote text
  | array [] => ['[', ']']
  | array (item :: items) =>
    '[' :: newline (depth + 1) ++ item.pretty (depth + 1) ++ prettyItems (depth + 1) items ++ newline depth ++ [']']
  | object [] => ['\x7b', '\x7d']
  | object ((key, value) :: members) =>
    '\x7b' :: newline (depth + 1) ++ quote key ++ [':', ' '] ++ value.pretty (depth + 1) ++
      prettyMembers (depth + 1) members ++ newline depth ++ ['\x7d']

/-- Further items, each after a comma. -/
def prettyItems (depth : Nat) : List Json → List Char
  | [] => []
  | item :: items => ',' :: newline depth ++ item.pretty depth ++ prettyItems depth items

/-- Further members, each after a comma. -/
def prettyMembers (depth : Nat) : List (String × Json) → List Char
  | [] => []
  | (key, value) :: members =>
    ',' :: newline depth ++ quote key ++ [':', ' '] ++ value.pretty depth ++ prettyMembers depth members
end

mutual
/-- The value on one line, without white space. -/
def compact : Json → List Char
  | null => "null".toList
  | unreadable => "null".toList
  | bool value => (if value then "true" else "false").toList
  | number literal => literal.toList
  | string text => quote text
  | array [] => ['[', ']']
  | array (item :: items) => '[' :: item.compact ++ compactItems items ++ [']']
  | object [] => ['\x7b', '\x7d']
  | object ((key, value) :: members) =>
    '\x7b' :: quote key ++ ':' :: value.compact ++ compactMembers members ++ ['\x7d']

def compactItems : List Json → List Char
  | [] => []
  | item :: items => ',' :: item.compact ++ compactItems items

def compactMembers : List (String × Json) → List Char
  | [] => []
  | (key, value) :: members => ',' :: quote key ++ ':' :: value.compact ++ compactMembers members
end

/-- The number literal of a whole number. -/
def ofInt (n : Int) : Json := number (String.ofList (Digits.ofInt n))

/-- The number literal of a natural number. -/
def ofNat (n : Nat) : Json := number (String.ofList (Digits.ofNat n))

end LispDoc.Json
