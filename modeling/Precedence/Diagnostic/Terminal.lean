import Precedence.Diagnostic.Document

/-!
Messages as a reader sees them on a terminal:

    error[E0001]: invalid character '$'
      --> calc.txt:1:3
      |
    1 | a $ b
      |   ^

The line of the source is the one on which the range starts, and the carets stay on it: a range
that ends on a later line is underlined up to the end of the first.
-/
namespace Precedence.Terminal

/-- The colours in use, as the codes that switch them on. -/
inductive Colour where
  | error
  | warning
  | info
  | bold
  | gutter
deriving DecidableEq

/-- The code that switches a colour on. -/
def Colour.code : Colour → String
  | .error => "\x1b[1;31m"
  | .warning => "\x1b[1;33m"
  | .info => "\x1b[1;36m"
  | .bold => "\x1b[1m"
  | .gutter => "\x1b[1;34m"

/-- The code that switches every colour off. -/
def resetCode : String := "\x1b[0m"

/-- When to use colours. -/
inductive ColourMode where
  | auto
  | always
  | never
deriving DecidableEq

/-- Whether colours are used, given whether the output goes to a terminal. -/
def ColourMode.useColours (mode : ColourMode) (isTerminal : Bool) : Bool :=
  match mode with
  | .auto => isTerminal
  | .always => true
  | .never => false

/-- A text in a colour, or plain. -/
def paint (colours : Bool) (colour : Colour) (text : String) : String :=
  if colours then colour.code ++ text ++ resetCode else text

/-- The colour of a severity. -/
def severityColour : Severity → Colour
  | .error => .error
  | .warning => .warning
  | .info => .info

/-- A character several times over. -/
def repeated (n : Nat) (c : Char) : String := String.ofList (List.replicate n c)

/-- The first two lines of a message: what it says, and where. -/
def header (colours : Bool) (filename : String) (m : Message) : String :=
  paint colours (severityColour m.severity) m.severity.label
    ++ paint colours .bold ("[" ++ m.code.label ++ "]") ++ ": " ++ m.text ++ "\n"
    ++ paint colours .gutter "  --> " ++ filename ++ ":" ++ m.range.start.text ++ "\n"

/-- The number of carets under a line. A range that ends on its first line is underlined in full,
any other up to the end of the line; one caret is always drawn. -/
def caretCount (range : SourceRange) (line : List Char) : Nat :=
  if range.stop.line = range.start.line then max (range.stop.column - range.start.column) 1
  else max (line.length - (range.start.column - 1)) 1

/-- The line of the source on which a message starts, underlined. -/
def excerpt (colours : Bool) (m : Message) (line : List Char) : String :=
  let number := toString m.range.start.line
  let pad := repeated number.length ' '
  paint colours .gutter (pad ++ " |") ++ "\n"
    ++ paint colours .gutter (number ++ " | ") ++ String.ofList line ++ "\n"
    ++ paint colours .gutter (pad ++ " | ") ++ repeated (m.range.start.column - 1) ' '
    ++ paint colours (severityColour m.severity) (repeated (caretCount m.range line) '^') ++ "\n\n"

/-- A message with the line of the source that it is about, or with an empty line where the source
has no such line. -/
def withSource (colours : Bool) (d : Document) (m : Message) : String :=
  header colours d.filename m ++
    match d.lineText? m.range.start.line with
    | none => "\n"
    | some line => excerpt colours m line

/-- The headers of every message, in the order of reporting. -/
def headers (colours : Bool) (d : Document) : String :=
  String.join (d.diagnostics.toList.map (header colours d.filename))

/-- Every message with its source line, by position. -/
def document (colours : Bool) (d : Document) : String :=
  String.join (d.diagnostics.byPosition.map (withSource colours d))

/-- A count with its noun. -/
def counted (n : Nat) (noun : String) : String :=
  toString n ++ " " ++ noun ++ (if n = 1 then "" else "s")

/-- The closing line with the numbers of errors and warnings. Nothing is said of neither. -/
def summary (colours : Bool) (errors warnings : Nat) : String :=
  if 0 < errors then
    paint colours .error "error" ++ ": " ++ counted errors "error" ++ " and "
      ++ counted warnings "warning" ++ " reported\n"
  else if 0 < warnings then
    paint colours .warning "warning" ++ ": " ++ counted warnings "warning" ++ " reported\n"
  else ""

/-- Every message with its source line, and the closing line if there is any message. -/
def report (colours : Bool) (d : Document) : String :=
  document colours d ++
    if d.diagnostics.size = 0 then ""
    else summary colours d.diagnostics.errorCount d.diagnostics.warningCount

end Precedence.Terminal
