/-!
Contract: places in a source text.

Owns:
- `Span`, a range of byte offsets into the UTF-8 form of a text;
- `Position`, a line and a column counted from one;
- the characters before a byte offset, and hence the position of an offset.

Does not own: what stands at a place, or how a place is reported.
-/

namespace PassScheduler

/-- A range of byte offsets: `start` is the first byte, `stop` the one after the last. -/
structure Span where
  start : Nat
  stop : Nat
deriving DecidableEq, Repr

/-- A line and a column, both counted from one; a column counts characters. -/
structure Position where
  line : Nat
  column : Nat
deriving DecidableEq, Repr

/-- The number of bytes that a text takes in UTF-8. -/
def byteLength : List Char → Nat
  | [] => 0
  | c :: rest => c.utf8Size + byteLength rest

/-- The characters before a byte offset. An offset beyond the end counts as the end, and one
inside a character has no answer. -/
def charsBefore? : List Char → Nat → Option (List Char)
  | _, 0 => some []
  | [], _ => some []
  | c :: rest, offset =>
      if c.utf8Size ≤ offset then
        (charsBefore? rest (offset - c.utf8Size)).map (c :: ·)
      else
        none

namespace Position

/-- The position just after the given characters. -/
def after (before : List Char) : Position where
  line := before.count '\n' + 1
  column := (before.reverse.takeWhile (· != '\n')).length + 1

/-- The position of a byte offset, if the offset lies between two characters or at an end. -/
def ofOffset? (source : String) (offset : Nat) : Option Position :=
  (charsBefore? source.toList offset).map after

end Position

end PassScheduler
