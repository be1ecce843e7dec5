/-!
Text measured in the bytes of its UTF-8 encoding. A byte offset names a place in a text only where
a character starts or the text ends, so cutting at an offset is partial. Nothing here decodes
bytes: a text is a list of characters throughout.
-/
namespace Precedence.Text

/-- The number of bytes of the UTF-8 encoding. -/
def byteLength : List Char → Nat
  | [] => 0
  | c :: cs => c.utf8Size + byteLength cs

/-- What follows the first `n` bytes, provided these are whole characters of the text. -/
def dropBytes? : Nat → List Char → Option (List Char)
  | 0, cs => some cs
  | _ + 1, [] => none
  | n + 1, c :: cs => if c.utf8Size ≤ n + 1 then dropBytes? (n + 1 - c.utf8Size) cs else none

/-- The first `n` bytes, provided these are whole characters of the text. -/
def takeBytes? : Nat → List Char → Option (List Char)
  | 0, _ => some []
  | _ + 1, [] => none
  | n + 1, c :: cs =>
    if c.utf8Size ≤ n + 1 then (takeBytes? (n + 1 - c.utf8Size) cs).map (c :: ·) else none

/-- The text between two byte offsets. There is none when the offsets are in the wrong order, lie
past the end or cut a character. -/
def slice? (start stop : Nat) (cs : List Char) : Option (List Char) :=
  if start ≤ stop then (dropBytes? start cs).bind (takeBytes? (stop - start)) else none

@[simp] theorem byteLength_nil : byteLength [] = 0 := rfl

@[simp] theorem byteLength_cons (c : Char) (cs : List Char) :
    byteLength (c :: cs) = c.utf8Size + byteLength cs := rfl

@[simp] theorem byteLength_append (xs ys : List Char) :
    byteLength (xs ++ ys) = byteLength xs + byteLength ys := by
  induction xs with
  | nil => simp
  | cons c cs ih => simp [ih, Nat.add_assoc]

/-- Dropping the bytes of a text leaves what was written after it. -/
@[simp] theorem dropBytes?_byteLength_append (xs ys : List Char) :
    dropBytes? (byteLength xs) (xs ++ ys) = some ys := by
  induction xs with
  | nil => simp [dropBytes?]
  | cons c cs ih =>
    have hPos := Char.utf8Size_pos c
    obtain ⟨n, hn⟩ := Nat.exists_eq_succ_of_ne_zero (by omega : c.utf8Size + byteLength cs ≠ 0)
    have hLe : c.utf8Size ≤ n + 1 := by omega
    have hRest : n + 1 - c.utf8Size = byteLength cs := by omega
    rw [byteLength_cons, hn, List.cons_append, dropBytes?, if_pos hLe, hRest, ih]

/-- Taking the bytes of a text gives it back, whatever was written after it. -/
@[simp] theorem takeBytes?_byteLength_append (xs ys : List Char) :
    takeBytes? (byteLength xs) (xs ++ ys) = some xs := by
  induction xs with
  | nil => simp [takeBytes?]
  | cons c cs ih =>
    have hPos := Char.utf8Size_pos c
    obtain ⟨n, hn⟩ := Nat.exists_eq_succ_of_ne_zero (by omega : c.utf8Size + byteLength cs ≠ 0)
    have hLe : c.utf8Size ≤ n + 1 := by omega
    have hRest : n + 1 - c.utf8Size = byteLength cs := by omega
    rw [byteLength_cons, hn, List.cons_append, takeBytes?, if_pos hLe, hRest, ih]
    rfl

end Precedence.Text
