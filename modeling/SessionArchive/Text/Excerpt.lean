import SessionArchive.Text.Split

/-!
# Excerpts

One short line of a text, for listings: `excerpt` is the text itself if that is one line of no more
than a number of characters, and otherwise the beginning of its first line with an ellipsis.
-/

set_option autoImplicit false

namespace SessionArchive.Text

/-- The first line of a text, without its end. -/
def firstLine (cs : List Char) : List Char := (lines cs).headD []

/-- The character that stands for what is left out. -/
def ellipsis : Char := '…'

/-- One line of at most `width` characters, for a width of at least one. -/
def excerpt (width : Nat) (cs : List Char) : List Char :=
  let line := firstLine cs
  if line.length ≤ width ∧ line.length = cs.length then line
  else line.take (width - 1) ++ [ellipsis]

/-- The excerpt of a string. -/
def excerptString (width : Nat) (text : String) : String :=
  String.ofList (excerpt width text.toList)

end SessionArchive.Text
