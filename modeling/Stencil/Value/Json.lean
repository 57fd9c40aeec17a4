import Stencil.Value.Basic

/-!
# Text of values

Values are written in JSON without layout (`json`). Output shows a string as it is, null as
nothing, and all else in that form (`output?`); messages name the kind of a value, and
the value itself where it is small (`description`).
-/

namespace Stencil

/-- How a JSON string writes one character. -/
def jsonChar (c : Char) : List Char :=
  match c with
  | '"' => ['\\', '"']
  | '\\' => ['\\', '\\']
  | '\x08' => ['\\', 'b']
  | '\t' => ['\\', 't']
  | '\n' => ['\\', 'n']
  | '\x0c' => ['\\', 'f']
  | '\r' => ['\\', 'r']
  | c =>
    if c.toNat < 0x20 then
      ['\\', 'u', '0', '0', Nat.digitChar (c.toNat / 16), Nat.digitChar (c.toNat % 16)]
    else [c]

/-- A text as a JSON string. -/
def jsonString (s : String) : String :=
  String.ofList ('"' :: (s.toList.flatMap jsonChar ++ ['"']))

namespace Value

mutual

/-- **The JSON form** of a value: no spaces, fields in their order. Numbers keep the form they were
given in, so a whole double has its point. -/
def json : Value → String
  | .null => "null"
  | .bool b => if b then "true" else "false"
  | .number n => n.text
  | .string s => jsonString s
  | .array items => "[" ++ String.intercalate "," (jsonItems items) ++ "]"
  | .object fields => "\x7b" ++ String.intercalate "," (jsonFields fields) ++ "\x7d"

/-- The JSON forms of the items of an array. -/
def jsonItems : List Value → List String
  | [] => []
  | item :: items => item.json :: jsonItems items

/-- The fields of an object, each as name, colon, value. -/
def jsonFields : List (String × Value) → List String
  | [] => []
  | (name, value) :: fields => (jsonString name ++ ":" ++ value.json) :: jsonFields fields

end

/-- **What output shows of a value**: nothing of null, a string as it is, all else in JSON form. For
null there is no write at all, and not a write of nothing. -/
def output? : Value → Option String
  | .null => none
  | .string s => some s
  | value => some value.json

/-- How messages speak of a value. -/
def description : Value → String
  | .null => "null"
  | .bool b => "boolean " ++ (Value.bool b).json
  | .number n => "number " ++ (Value.number n).json
  | .string s => "string " ++ (Value.string s).json
  | .array _ => "an array"
  | .object _ => "an object"

end Value

end Stencil
