import FleetStore.Text.Hidden

/-! # Texts in messages

A message shows a text between quotation marks. A character that would not show
by itself is written by its number, so that texts that look alike are told
apart.
-/

namespace FleetStore.Text

/-- A character as it stands between quotation marks in a message. -/
def escapeInMessage (c : Char) : List Char :=
  if c = '"' then ['\\', '"']
  else if c = '\\' then ['\\', '\\']
  else if c = '\n' then ['\\', 'n']
  else if c = '\r' then ['\\', 'r']
  else if c = '\t' then ['\\', 't']
  else if c.toNat = 0 then ['\\', '0']
  else if isHidden c then ['\\', 'u', '\x7b'] ++ Nat.toDigits 16 c.toNat ++ ['\x7d']
  else [c]

/-- A text between quotation marks, for a message. -/
def quotedInMessage (text : String) : String :=
  "\"" ++ String.ofList (text.toList.flatMap escapeInMessage) ++ "\""

end FleetStore.Text
