import TableModels.Text.Class

/-! Quoted text, as it stands in generated code and inside printed lists.

Single quotes are used unless the text holds one and no double quote. The quote in use and the
backslash are escaped, line ends and tabs have short escapes, and every other character that would
not show is written by its code. -/

namespace TableModels.Text

def hexDigit (n : Nat) : Char := if n < 10 then Char.ofNat (0x30 + n) else Char.ofNat (0x57 + n)

/-- The low `count` hexadecimal digits of a number. -/
def hexDigits : Nat → Nat → List Char
  | 0, _ => []
  | count + 1, n => hexDigits count (n / 16) ++ [hexDigit (n % 16)]

/-- The escape of a character that does not show. -/
def escapeByCode (c : Char) : List Char :=
  let n := c.toNat
  if n < 0x100 then '\\' :: 'x' :: hexDigits 2 n
  else if n < 0x10000 then '\\' :: 'u' :: hexDigits 4 n
  else '\\' :: 'U' :: hexDigits 8 n

/-- The spelling of any character outside a choice of quotes. -/
def escapeChar (c : Char) : List Char :=
  if c == '\\' then ['\\', '\\']
  else if c == '\n' then ['\\', 'n']
  else if c == '\r' then ['\\', 'r']
  else if c == '\t' then ['\\', 't']
  else if isPrintable c then [c]
  else escapeByCode c

/-- Escapes text for use between two `quote` characters. -/
def escapeWithin (quote : Char) : List Char → List Char
  | [] => []
  | c :: rest => (if c == quote then ['\\', c] else escapeChar c) ++ escapeWithin quote rest

def quoteFor (chars : List Char) : Char := if chars.contains '\'' && !chars.contains '"' then '"' else '\''

def quoteChars (chars : List Char) : List Char :=
  let quote := quoteFor chars
  quote :: escapeWithin quote chars ++ [quote]

/-- The text in quotes. -/
def quoted (text : String) : String := String.ofList (quoteChars text.toList)

end TableModels.Text
