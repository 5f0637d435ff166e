import LifeEngine.Types.Pipeline

/-!
# JSON texts

`serde_json::to_string` of a value.  The text of a double is a parameter.
-/

namespace LifeEngine.Json

/-- How a character is written inside a string. -/
def escapeChar (c : Char) : List Char :=
  if c = '"' then ['\\', '"']
  else if c = '\\' then ['\\', '\\']
  else if c = '\x08' then ['\\', 'b']
  else if c = '\t' then ['\\', 't']
  else if c = '\n' then ['\\', 'n']
  else if c = '\x0c' then ['\\', 'f']
  else if c = '\r' then ['\\', 'r']
  else if c.toNat < 32 then ['\\', 'u', '0', '0', hexDigit (c.toNat / 16), hexDigit (c.toNat % 16)]
  else [c]

def stringText (s : String) : List Char :=
  '"' :: s.toList.flatMap escapeChar ++ ['"']

def numberText (doubleText : UInt64 → String) : JsonNumber → List Char
  | .int n => (toString n).toList
  | .float bits => (doubleText bits).toList

mutual

/-- `serde_json::to_string`. -/
def text (doubleText : UInt64 → String) : Json → List Char
  | null => "null".toList
  | bool b => (if b then "true" else "false").toList
  | num n => numberText doubleText n
  | str s => stringText s
  | arr items => '[' :: itemsText doubleText items ++ [']']
  | obj fields => '\x7b' :: fieldsText doubleText fields ++ ['\x7d']

def itemsText (doubleText : UInt64 → String) : List Json → List Char
  | [] => []
  | [item] => text doubleText item
  | item :: items => text doubleText item ++ ',' :: itemsText doubleText items

def fieldsText (doubleText : UInt64 → String) : List (String × Json) → List Char
  | [] => []
  | [(key, value)] => stringText key ++ ':' :: text doubleText value
  | (key, value) :: fields =>
    stringText key ++ ':' :: text doubleText value ++ ',' :: fieldsText doubleText fields

end

example : text (fun _ => "") (.obj [("a", .arr [.null, .num (.int (-3))]), ("b", .str "é\n")]) =
    "\x7b\"a\":[null,-3],\"b\":\"é\\n\"\x7d".toList := by
  decide

end LifeEngine.Json
