import Lamplighter.Text.Hex
import Lamplighter.Text.Printable

/-! Names between quotes, with escapes for what would not show. -/

namespace Lamplighter.Text

/-- Single quotes, unless the text holds one of them and no double quote. -/
def quoteOf (text : List Char) : Char :=
  if text.contains '\'' && !text.contains '"' then '"' else '\''

def escapeIn (quote c : Char) : List Char :=
  if c = quote || c = '\\' then ['\\', c]
  else if c = '\n' then ['\\', 'n']
  else if c = '\r' then ['\\', 'r']
  else if c = '\t' then ['\\', 't']
  else if isPrintable c then [c]
  else if c.toNat < 0x100 then '\\' :: 'x' :: hex 2 c.toNat
  else if c.toNat < 0x10000 then '\\' :: 'u' :: hex 4 c.toNat
  else '\\' :: 'U' :: hex 8 c.toNat

def quote (text : String) : String :=
  let mark := quoteOf text.toList
  String.ofList (mark :: text.toList.flatMap (escapeIn mark) ++ [mark])

end Lamplighter.Text
