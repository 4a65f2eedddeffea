import Relbase.Text.Basic

/-!
# Blanks and line breaks

Blanks separate words and are trimmed from the ends of a text; line breaks end
the lines of a row file.  Both sets reach beyond ASCII, and neither contains the
other.
-/

namespace Relbase.Text

def isBlank (c : Char) : Bool :=
  let code := c.toNat
  if code < 0x80 then code == 0x20 || (0x09 ≤ code && code ≤ 0x0D) || (0x1C ≤ code && code ≤ 0x1F)
  else
    code == 0x85 || code == 0xA0 || code == 0x1680 || (0x2000 ≤ code && code ≤ 0x200A) ||
      code == 0x2028 || code == 0x2029 || code == 0x202F || code == 0x205F || code == 0x3000

def isLineBreak (c : Char) : Bool :=
  let code := c.toNat
  if code < 0x80 then (0x0A ≤ code && code ≤ 0x0D) || (0x1C ≤ code && code ≤ 0x1E)
  else code == 0x85 || code == 0x2028 || code == 0x2029

def trimStart (text : Text) : Text :=
  text.dropWhile isBlank

def trimEnd (text : Text) : Text :=
  (text.reverse.dropWhile isBlank).reverse

def trim (text : Text) : Text :=
  trimEnd (trimStart text)

/-- The lines of a text without their line breaks.  A carriage return and a
following line feed are one break, and a break at the very end opens no further
line. -/
def lines : Text → List Text
  | [] => []
  | '\r' :: '\n' :: rest => [] :: lines rest
  | c :: rest =>
      if isLineBreak c then [] :: lines rest
      else if rest = [] then [[c]]
      else extendFirst c (lines rest)

def unifyNewlines : Text → Text
  | [] => []
  | '\r' :: '\n' :: rest => '\n' :: unifyNewlines rest
  | c :: rest => (if c = '\r' then '\n' else c) :: unifyNewlines rest

end Relbase.Text
