import Relbase.Text.Basic

/-!
# Texts with surrogates

In memory a text may have surrogates among its characters, which are code points with no
character of their own.  A file is written in UTF-8, which has no code for them.
-/

namespace Relbase

inductive CodePoint where
  | char (c : Char)
  | surrogate (index : Fin 0x800)
  deriving DecidableEq, Repr

abbrev WideText := List CodePoint

namespace WideText

def ofText (text : Text) : WideText :=
  text.map .char

def encode? : WideText → Option Text
  | [] => some []
  | .char c :: rest => (encode? rest).map (c :: ·)
  | .surrogate _ :: _ => none

end WideText

end Relbase
