/-!
Text up to a closing delimiter. An escape character takes the character after it along, so that one
never closes; where the two compete, the escape wins over the delimiter. At the end of the input
nothing is closed, not even by an empty delimiter.
-/
namespace Precedence

/-- A content, by its number of characters, and whether its closing delimiter was found. -/
structure Delimited where
  length : Nat
  closed : Bool
deriving DecidableEq

/-- The content at the front of a text, when `read` characters of it have been read before. -/
def Delimited.scan (closing : List Char) (escape : Option Char) (read : Nat) :
    List Char → Delimited
  | [] => ⟨read, false⟩
  | c :: cs =>
    if escape = some c then
      match cs with
      | [] => ⟨read + 1, false⟩
      | _ :: cs => scan closing escape (read + 2) cs
    else if closing.isPrefixOf (c :: cs) then ⟨read, true⟩
    else scan closing escape (read + 1) cs

/-- The number of characters up to and including the closing delimiter, or of the content alone
where there is none. -/
def Delimited.width (d : Delimited) (closing : List Char) : Nat :=
  if d.closed then d.length + closing.length else d.length

end Precedence
