import SqlCompose.Text
import SqlCompose.Text.Range

/-!
# Blank characters

A blank is a character that separates words: the white space of Unicode together with the four information separators U+001C to U+001F. Trimming and splitting into words go by this property, so the no-break space is a blank and the zero-width space is not.
-/

namespace SqlCompose.Text

private def blankRanges : List (Nat × Nat) := [
  (9, 13), (28, 32), (133, 133), (160, 160), (5760, 5760), (8192, 8202), (8232, 8233), (8239,
  8239), (8287, 8287), (12288, 12288)]

def isBlank (c : Char) : Bool :=
  inRanges blankRanges c.toNat

def trim (text : Text) : Text :=
  ((text.dropWhile isBlank).reverse.dropWhile isBlank).reverse

/-- The words of a text: its longest runs of characters that are no blanks. -/
def words (text : Text) : List Text :=
  text.splitOnP isBlank |>.filter (!·.isEmpty)

end SqlCompose.Text
