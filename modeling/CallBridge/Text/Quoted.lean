import CallBridge.Text.Printable

/-! # Quoted text

Three ways to write a text between quotes: for a reader of messages, as a string literal of a
generated module, and as a JSON string.
-/
namespace CallBridge.Text

def hexDigits (n : Nat) : String :=
  String.ofList (Nat.toDigits 16 n)

private def shownChar (c : Char) : String :=
  if c = '\x00' then "\\0"
  else if c = '\t' then "\\t"
  else if c = '\r' then "\\r"
  else if c = '\n' then "\\n"
  else if c = '"' then "\\\""
  else if c = '\\' then "\\\\"
  else if isCombining c || !isPrintable c then "\\u\x7b" ++ hexDigits c.toNat ++ "\x7d"
  else c.toString

/-- The text between double quotes, with every character that would not show escaped. -/
def shown (s : String) : String :=
  "\"" ++ String.join (s.toList.map shownChar) ++ "\""

def literalChar (c : Char) : String :=
  if c = '\\' then "\\\\" else if c = '\'' then "\\'" else c.toString

def literal (s : String) : String :=
  "'" ++ String.join (s.toList.map literalChar) ++ "'"

private def jsonChar (c : Char) : String :=
  if c = '"' then "\\\""
  else if c = '\\' then "\\\\"
  else if c = '\x08' then "\\b"
  else if c = '\x0c' then "\\f"
  else if c = '\n' then "\\n"
  else if c = '\r' then "\\r"
  else if c = '\t' then "\\t"
  else if c.toNat < 0x10 then "\\u000" ++ hexDigits c.toNat
  else if c.toNat < 0x20 then "\\u00" ++ hexDigits c.toNat
  else c.toString

def jsonString (s : String) : String :=
  "\"" ++ String.join (s.toList.map jsonChar) ++ "\""

end CallBridge.Text
