import DependencyAudit.Text.Printable
import DependencyAudit.Text.Utf8

/-!
Quoted literals, as messages show a text. A text stands in single quotes unless
it holds one and no double quote; the quote in use, the backslash and whatever
has no printed form are escaped.
-/

namespace DependencyAudit.Text

def quoteFor (s : List Char) : Char :=
  if s.contains '\'' && !s.contains '"' then '"' else '\''

def escapeHidden (c : Char) : List Char :=
  let n := c.toNat
  if n < 0x100 then '\\' :: 'x' :: (Utf8.hexDigits 2 n).toList
  else if n < 0x10000 then '\\' :: 'u' :: (Utf8.hexDigits 4 n).toList
  else '\\' :: 'U' :: (Utf8.hexDigits 8 n).toList

def escapeQuoted (quote c : Char) : List Char :=
  if c == quote || c == '\\' then ['\\', c]
  else if c == '\n' then ['\\', 'n']
  else if c == '\r' then ['\\', 'r']
  else if c == '\t' then ['\\', 't']
  else if isPrintable c then [c]
  else escapeHidden c

def quoted (s : List Char) : List Char :=
  let quote := quoteFor s
  quote :: s.flatMap (escapeQuoted quote) ++ [quote]

def quotedString (s : String) : String := String.ofList (quoted s.toList)

def quotedStart (s : String) : String := String.ofList ((quoted s.toList).take 200)

end DependencyAudit.Text
