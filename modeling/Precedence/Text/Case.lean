/-!
Comparison of texts up to the case of the letters `A` to `Z`. No other letter is folded, so texts
that agree have equal lengths, in characters and in bytes.
-/
namespace Precedence.Text

/-- The text with `A` to `Z` replaced by `a` to `z`. -/
def foldCase (cs : List Char) : List Char := cs.map Char.toLower

/-- Whether two texts agree up to the case of `A` to `Z`. -/
def agreesUpToCase (xs ys : List Char) : Bool := foldCase xs == foldCase ys

/-- Whether `text` starts with `pattern` up to the case of `A` to `Z`. -/
def startsWithUpToCase (pattern text : List Char) : Bool :=
  agreesUpToCase (text.take pattern.length) pattern

end Precedence.Text
