import MiniLisp.Text.Basic
import MiniLisp.Text.HiddenTable

/-! Text between double quotes, in two styles. The source style escapes the backslash, the double
quote, the tab and the newline and nothing else, so the reader gets the text back. The diagnostic
style also shows by code point what a terminal would not show. -/

namespace MiniLisp.Text

def escapeChar (c : Char) : List Char :=
  if c == '\\' then ['\\', '\\']
  else if c == '"' then ['\\', '"']
  else if c == '\t' then ['\\', 't']
  else if c == '\n' then ['\\', 'n']
  else [c]

/-- A text as a literal of the language. -/
def literal (s : String) : String := String.ofList ('"' :: s.toList.flatMap escapeChar ++ ['"'])

def hexadecimal (n : Nat) : List Char := Nat.toDigits 16 n

def revealChar (c : Char) : List Char :=
  if c == '\x00' then ['\\', '0']
  else if c == '\t' then ['\\', 't']
  else if c == '\r' then ['\\', 'r']
  else if c == '\n' then ['\\', 'n']
  else if c == '"' then ['\\', '"']
  else if c == '\\' then ['\\', '\\']
  else if inRanges hiddenRanges c then "\\u\x7b".toList ++ hexadecimal c.toNat ++ ['\x7d']
  else [c]

/-- A text in diagnostic style. -/
def revealed (s : String) : String := String.ofList ('"' :: s.toList.flatMap revealChar ++ ['"'])

end MiniLisp.Text
