import Notebook.Text.Blank

/-!
Byte offsets into a text. A text is a list of characters; an offset counts the bytes of its UTF-8 form.
An offset that falls inside a character stands for the start of that character.
-/
namespace Notebook.Text

/-- Number of bytes of a text. -/
def width : List Char → Nat
  | [] => 0
  | c :: cs => c.utf8Size + width cs

/-- The characters that lie wholly within the first `n` bytes. -/
def takeBytes : List Char → Nat → List Char
  | [], _ => []
  | c :: cs, n => if c.utf8Size ≤ n then c :: takeBytes cs (n - c.utf8Size) else []

/-- What `takeBytes` leaves. -/
def dropBytes : List Char → Nat → List Char
  | [], _ => []
  | c :: cs, n => if c.utf8Size ≤ n then dropBytes cs (n - c.utf8Size) else c :: cs

/-- The last character boundary at or before `n`. -/
def floorOffset (cs : List Char) (n : Nat) : Nat := width (takeBytes cs n)

/-- Offsets between two characters, or at either end of the text. -/
def isBoundary (cs : List Char) (n : Nat) : Bool := floorOffset cs n == n

/-- The part of a text between two offsets. -/
def slice (cs : List Char) (start stop : Nat) : List Char :=
  takeBytes (dropBytes cs start) (stop - floorOffset cs start)

@[simp] theorem takeBytes_append_dropBytes (cs : List Char) (n : Nat) :
    takeBytes cs n ++ dropBytes cs n = cs := by
  induction cs generalizing n with
  | nil => rfl
  | cons c cs ih => by_cases h : c.utf8Size ≤ n <;> simp [takeBytes, dropBytes, h, ih]

@[simp] theorem width_append (a b : List Char) : width (a ++ b) = width a + width b := by
  induction a with
  | nil => simp [width]
  | cons c cs ih => simp [width, ih, Nat.add_assoc]

theorem width_takeBytes_add (cs : List Char) (n : Nat) :
    width (takeBytes cs n) + width (dropBytes cs n) = width cs := by
  rw [← width_append, takeBytes_append_dropBytes]

theorem floorOffset_le (cs : List Char) (n : Nat) : floorOffset cs n ≤ n := by
  unfold floorOffset
  induction cs generalizing n with
  | nil => simp [takeBytes, width]
  | cons c cs ih =>
    by_cases h : c.utf8Size ≤ n
    · have := ih (n - c.utf8Size)
      simp only [takeBytes, h, if_true, width]
      omega
    · simp [takeBytes, h, width]

/-- An offset lies before the end of the first character that is dropped from it on. -/
theorem lt_floorOffset_add {cs rest : List Char} {c : Char} {n : Nat}
    (h : dropBytes cs n = c :: rest) : n < floorOffset cs n + c.utf8Size := by
  unfold floorOffset
  induction cs generalizing n with
  | nil => simp [dropBytes] at h
  | cons d cs ih =>
    by_cases hd : d.utf8Size ≤ n
    · simp only [dropBytes, hd, if_true] at h
      have := ih h
      simp only [takeBytes, hd, if_true, width]
      omega
    · simp only [dropBytes, hd, if_false, List.cons.injEq] at h
      simp only [takeBytes, hd, if_false, width, ← h.1]
      omega

theorem width_pos {cs : List Char} (h : cs ≠ []) : 0 < width cs := by
  cases cs with
  | nil => exact absurd rfl h
  | cons c cs => have := c.utf8Size_pos; simp only [width]; omega

/-- Dropping blanks leaves a text that is no longer. -/
theorem width_trimStart_le (cs : List Char) : width (trimStart cs) ≤ width cs := by
  unfold trimStart
  induction cs with
  | nil => simp [width]
  | cons c cs ih =>
    by_cases h : isBlank c = true
    · simp only [List.dropWhile_cons, h, if_true, width]; omega
    · simp [h]

end Notebook.Text
