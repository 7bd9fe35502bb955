import ChainClient.Text.Printable

/-!
# Quoted text

Messages quote the text they complain about. Between its quotes a text shows
every printable character as it is, writes the quote itself and a few controls
with a backslash, and gives all other characters by their code point.
-/

namespace ChainClient.Text

/-- One character as it stands between two quotes. -/
def quotedChar (quote char : Char) : List Char :=
  if char = '\x00' then ['\\', '0']
  else if char = '\t' then ['\\', 't']
  else if char = '\r' then ['\\', 'r']
  else if char = '\n' then ['\\', 'n']
  else if char = quote ∨ char = '\\' then ['\\', char]
  else if isPrintable char then [char]
  else ['\\', 'u', '\x7b'] ++ Nat.toDigits 16 char.toNat ++ ['\x7d']

def quoted (text : String) : String :=
  String.ofList ('\x22' :: text.toList.flatMap (quotedChar '\x22') ++ ['\x22'])

def singleQuoted (char : Char) : String :=
  String.ofList ('\x27' :: quotedChar '\x27' char ++ ['\x27'])

end ChainClient.Text
