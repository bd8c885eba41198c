import EntityQuery.Text.Table

/-! White space as Unicode's property White_Space has it, and text without it at either end.

A zero-width space and a byte order mark are not white; a no-break space and the next-line
control are. -/
namespace EntityQuery.Text

/-- The code points with the property White_Space. -/
def blanks : Table := [
  (9, 13), (32, 32), (133, 133), (160, 160), (5760, 5760), (8192, 8202), (8232, 8233),
  (8239, 8239), (8287, 8287), (12288, 12288)]

def isBlank (c : Char) : Bool := blanks.has c

/-! ### Trimming -/

def trimFront (cs : List Char) : List Char := cs.dropWhile isBlank

def trimBack (cs : List Char) : List Char := (trimFront cs.reverse).reverse

def trimChars (cs : List Char) : List Char := trimBack (trimFront cs)

/-- The text without the white space at its ends. -/
def trim (s : String) : String := String.ofList (trimChars s.toList)

end EntityQuery.Text
