import Orchestra.Text.Boundaries

/-!
# Orchestra.Text.Space — blanks, line ends and trimming

The blanks are those of Unicode together with the separators `\x1c` to `\x1f`.  `lines` splits at ten line ends, with
CR LF as one.
-/

namespace Orchestra.Text

/-- The Unicode blanks (the class of bidirectional type `WS`, `B` or `S`, or category `Zs`). -/
def spaceBoundaries : List Nat :=
  [9, 14, 28, 33, 133, 134, 160, 161, 5760, 5761, 8192, 8203, 8232, 8234, 8239, 8240, 8287, 8288, 12288, 12289]

def isSpace (c : Char) : Bool := flips spaceBoundaries c

/-- A text without the blanks at its ends. -/
def trim (cs : List Char) : List Char := ((cs.dropWhile isSpace).reverse.dropWhile isSpace).reverse

/-- The characters that end a line. -/
def isLineEnd (c : Char) : Bool :=
  [0x0a, 0x0b, 0x0c, 0x0d, 0x1c, 0x1d, 0x1e, 0x85, 0x2028, 0x2029].contains c.toNat

/-- The lines of a text without their ends; CR LF ends one line, and the end of the last line may be missing. -/
def lines : List Char → List (List Char)
  | [] => []
  | '\r' :: '\n' :: rest => [] :: lines rest
  | c :: rest =>
    if isLineEnd c then [] :: lines rest
    else
      match lines rest with
      | [] => [[c]]
      | line :: more => (c :: line) :: more

end Orchestra.Text
