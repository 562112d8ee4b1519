import TestSelection.Text.Concealed

/-!
Quoted text. A text stands between double quotes; a quote and a backslash inside it follow a
backslash, line feed, carriage return, tab and NUL have letters of their own, and every other
concealed character is written by its code point in hexadecimal digits between braces. A list of
quoted texts stands between square brackets.
-/

namespace TestSelection.Text

def quotedChar (c : Char) : String :=
  if c = '"' then "\\\""
  else if c = '\\' then "\\\\"
  else if c = '\n' then "\\n"
  else if c = '\r' then "\\r"
  else if c = '\t' then "\\t"
  else if c.toNat = 0 then "\\0"
  else if isConcealed c then
    "\\u\x7b" ++ String.ofList (Nat.toDigits 16 c.toNat) ++ "\x7d"
  else String.singleton c

def quoted (text : String) : String :=
  "\"" ++ String.join (text.toList.map quotedChar) ++ "\""

def quotedList (texts : List String) : String := "[" ++ ", ".intercalate (texts.map quoted) ++ "]"

end TestSelection.Text
