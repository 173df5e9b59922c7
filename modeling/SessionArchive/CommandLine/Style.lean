import SessionArchive.Surroundings

/-!
# Style

Colours and weights of terminal text. A piece of text is styled by a control sequence before it and
the reset sequence after it; where the text itself resets the style, the style is set again. Colours
are off unless a variable forces them, for the output of a command is read by programs too.
-/

set_option autoImplicit false

namespace SessionArchive.CommandLine

/-- A property of styled text. -/
inductive Tone where
  | bold
  | dimmed
  | italic
  | red
  | green
  | yellow
  | blue
  | magenta
  | cyan
deriving Repr, DecidableEq

/-- The number of a property in a control sequence. -/
def Tone.number : Tone → String
  | .bold => "1"
  | .dimmed => "2"
  | .italic => "3"
  | .red => "31"
  | .green => "32"
  | .yellow => "33"
  | .blue => "34"
  | .magenta => "35"
  | .cyan => "36"

/-- The control sequence that sets properties. -/
def toneSequence (tones : List Tone) : String :=
  "\x1b[" ++ ";".intercalate (tones.map Tone.number) ++ "m"

/-- The control sequence that resets all properties. -/
def resetSequence : String := "\x1b[0m"

/-- A text in which every reset is followed by a sequence. -/
def restyled (sequence : List Char) : List Char → List Char
  | '\x1b' :: '[' :: '0' :: 'm' :: rest =>
    '\x1b' :: '[' :: '0' :: 'm' :: (sequence ++ restyled sequence rest)
  | c :: rest => c :: restyled sequence rest
  | [] => []

/-- A text moved to the right end of a field. -/
def rightAligned (width : Nat) (text : List Char) : List Char :=
  List.replicate (width - text.length) ' ' ++ text

/-- Whether text is styled. -/
structure Style where
  colored : Bool
deriving Repr, DecidableEq

namespace Style

/-- The style of the output of a command: a variable other than `0` turns colours on, an option
turns them off again. -/
def ofEnvironment (environment : List (String × String)) (plain : Bool) : Style :=
  match environment.lookup "CLICOLOR_FORCE" with
  | some value => ⟨value ≠ "0" && !plain⟩
  | none => ⟨false⟩

/-- A text with properties at the right end of a field. -/
def paintField (style : Style) (width : Nat) (tones : List Tone) (text : String) : String :=
  if style.colored then
    toneSequence tones ++
      String.ofList (rightAligned width (restyled (toneSequence tones).toList text.toList)) ++
      resetSequence
  else String.ofList (rightAligned width text.toList)

/-- A text with properties. -/
def paint (style : Style) (tones : List Tone) (text : String) : String :=
  style.paintField 0 tones text

end Style

end SessionArchive.CommandLine
