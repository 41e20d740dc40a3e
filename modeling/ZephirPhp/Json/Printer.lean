import ZephirPhp.Json.Basic

/-! # Printing JSON

Compact JSON text. Control characters and the line separators of Unicode are written as
escapes, so the text of a value is one line.
-/

namespace ZephirPhp.Json

def hexDigits (value : Nat) : List Char :=
  let digits := Nat.toDigits 16 value
  List.replicate (4 - digits.length) '0' ++ digits

def escapeChar (character : Char) : List Char :=
  match character with
  | '"' => ['\\', '"']
  | '\\' => ['\\', '\\']
  | '\n' => ['\\', 'n']
  | '\r' => ['\\', 'r']
  | '\t' => ['\\', 't']
  | other =>
    if other.toNat < 0x20 || other.toNat == 0x85 || other.toNat == 0x2028 ||
        other.toNat == 0x2029 then
      '\\' :: 'u' :: hexDigits other.toNat
    else
      [other]

def quote (text : String) : String :=
  "\"" ++ String.ofList (text.toList.flatMap escapeChar) ++ "\""

example : quote "a\"\n\x01" = "\"a\\\"\\n\\u0001\"" := by decide

mutual

def render : Json → String
  | .null => "null"
  | .bool value => if value then "true" else "false"
  | .number value => value.text
  | .string value => quote value
  | .array elements => "[" ++ ",".intercalate (renderElements elements) ++ "]"
  | .object fields => "\x7b" ++ ",".intercalate (renderFields fields) ++ "\x7d"

def renderElements : List Json → List String
  | [] => []
  | element :: rest => element.render :: renderElements rest

def renderFields : List (String × Json) → List String
  | [] => []
  | (name, value) :: rest => (quote name ++ ":" ++ value.render) :: renderFields rest

end

end ZephirPhp.Json
