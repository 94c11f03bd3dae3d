/-!
# Columns of text

A text in a column of a given width: followed by as many spaces as it takes to fill the column.
A text that is as wide as the column, or wider, stays as it is. Width counts characters.
-/

namespace Lexis.Text

/-- The text, filled up with spaces on the right to `width` characters. -/
def padRight (width : Nat) (text : String) : String :=
  String.ofList (text.toList.rightpad width ' ')

end Lexis.Text
