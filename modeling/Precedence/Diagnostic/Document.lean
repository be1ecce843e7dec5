import Precedence.Arena.Kind
import Precedence.Diagnostic.Message

/-!
A source together with everything reported about it. Messages are kept in the order of reporting
and are never withdrawn, so the number of a message is its place in that order.
-/
namespace Precedence

/-- Messages in the order of reporting. -/
structure Diagnostics where
  messages : Array Message
deriving DecidableEq, Inhabited

namespace Diagnostics

/-- No message at all. -/
def empty : Diagnostics := ⟨#[]⟩

/-- The number of messages. -/
def size (d : Diagnostics) : Nat := d.messages.size

/-- The messages with one more at the end. -/
def push (d : Diagnostics) (m : Message) : MessageId × Diagnostics :=
  (⟨d.size⟩, ⟨d.messages.push m⟩)

/-- The messages with several more at the end. -/
def append (d : Diagnostics) (ms : List Message) : Diagnostics := ⟨d.messages ++ ms⟩

/-- The message of a number. -/
def get? (d : Diagnostics) (id : MessageId) : Option Message := d.messages[id.index]?

/-- The messages as a list. -/
def toList (d : Diagnostics) : List Message := d.messages.toList

/-- How many messages have a severity. -/
def count (d : Diagnostics) (severity : Severity) : Nat :=
  d.messages.foldl (fun n m => if m.severity = severity then n + 1 else n) 0

/-- How many messages are errors. -/
def errorCount (d : Diagnostics) : Nat := d.count .error

/-- How many messages are warnings. -/
def warningCount (d : Diagnostics) : Nat := d.count .warning

/-- Whether some message is an error. -/
def hasErrors (d : Diagnostics) : Bool := d.messages.any (·.isError)

/-- The messages by the offset at which their ranges start, in the order of reporting where that
is equal. -/
def byPosition (d : Diagnostics) : List Message :=
  d.toList.mergeSort fun m n => m.range.span.start ≤ n.range.span.start

end Diagnostics

/-- A source with the messages about it. -/
structure Document where
  filename : String
  source : String
  diagnostics : Diagnostics
deriving Inhabited

namespace Document

/-- A source about which nothing is reported yet. -/
def ofSource (filename source : String) : Document := ⟨filename, source, .empty⟩

/-- The document with one more message. -/
def report (d : Document) (m : Message) : MessageId × Document :=
  let (id, diagnostics) := d.diagnostics.push m
  (id, { d with diagnostics })

/-- The pieces of a text between its line feeds. There is one more piece than there are line
feeds. -/
def splitLines : List Char → List (List Char)
  | [] => [[]]
  | c :: cs =>
    if c = '\n' then [] :: splitLines cs
    else match splitLines cs with
      | [] => [[c]]
      | line :: lines => (c :: line) :: lines

/-- A line without the carriage returns at its end. -/
def trimReturns (line : List Char) : List Char :=
  (line.reverse.dropWhile (· == '\r')).reverse

/-- A line of the source, counted from one and without its line break. A carriage return that
stands alone ends no line here. -/
def lineText? (d : Document) (line : Nat) : Option (List Char) :=
  if line = 0 then none else (splitLines d.source.toList)[line - 1]?.map trimReturns

end Document

end Precedence
