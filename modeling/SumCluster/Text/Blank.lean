/-!
White space, and what is left of a text when the white space around it is taken off.
-/

namespace SumCluster.Text

/-- The code points with the Unicode property White_Space. -/
def blankCodes : List Nat :=
  [0x9, 0xa, 0xb, 0xc, 0xd, 0x20, 0x85, 0xa0, 0x1680, 0x2000, 0x2001, 0x2002, 0x2003, 0x2004,
   0x2005, 0x2006, 0x2007, 0x2008, 0x2009, 0x200a, 0x2028, 0x2029, 0x202f, 0x205f, 0x3000]

/-- Whether a character is white space. -/
def isBlank (c : Char) : Bool := blankCodes.contains c.toNat

/-- Takes the white space off the front. -/
def trimStart (cs : List Char) : List Char := cs.dropWhile isBlank

/-- Takes the white space off the back. -/
def trimEnd (cs : List Char) : List Char := (cs.reverse.dropWhile isBlank).reverse

/-- Takes the white space off both ends. -/
def trim (cs : List Char) : List Char := trimEnd (trimStart cs)

/-- Whether a text is white space throughout. -/
def isBlankText (cs : List Char) : Bool := cs.all isBlank

end SumCluster.Text
