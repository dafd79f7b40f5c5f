/-!
# Blank characters

The characters that surround a setting without belonging to it: the white space of Unicode
together with the four information separators U+001C to U+001F. `trim` removes them from both
ends of a text and from nowhere else; `trim_of_ends` says that a text whose ends are not blank
is left as it is.
-/

namespace SpotCapacity.Text

/-- White space in the sense of Unicode, or one of the separators U+001C to U+001F. -/
def isBlank (c : Char) : Bool :=
  let n := c.toNat
  (9 ≤ n && n ≤ 13) || (28 ≤ n && n ≤ 32) || n == 0x85 || n == 0xA0 || n == 0x1680 ||
    (0x2000 ≤ n && n ≤ 0x200A) || n == 0x2028 || n == 0x2029 || n == 0x202F || n == 0x205F ||
    n == 0x3000

/-- Every character that the core library calls white space is blank. -/
theorem isBlank_of_isWhitespace {c : Char} (white : c.isWhitespace = true) :
    isBlank c = true := by
  simp only [Char.isWhitespace, Bool.or_eq_true, decide_eq_true_eq] at white
  rcases white with ((rfl | rfl) | rfl) | rfl <;> decide

def trimStart (text : List Char) : List Char := text.dropWhile isBlank

def trimEnd (text : List Char) : List Char := (text.reverse.dropWhile isBlank).reverse

def trim (text : List Char) : List Char := trimEnd (trimStart text)

@[simp] theorem trim_nil : trim [] = [] := rfl

private theorem trimStart_of_head {text : List Char}
    (head : ∀ c ∈ text.head?, isBlank c = false) : trimStart text = text := by
  cases text with
  | nil => rfl
  | cons c rest =>
      have : isBlank c = false := head c rfl
      simp [trimStart, this]

private theorem trimEnd_of_last {text : List Char}
    (last : ∀ c ∈ text.getLast?, isBlank c = false) : trimEnd text = text := by
  have reversed : trimStart text.reverse = text.reverse :=
    trimStart_of_head (by simpa using last)
  rw [trimStart] at reversed
  rw [trimEnd, reversed, List.reverse_reverse]

/-- A text that neither starts nor ends with a blank is its own trimmed form. -/
theorem trim_of_ends {text : List Char}
    (head : ∀ c ∈ text.head?, isBlank c = false)
    (last : ∀ c ∈ text.getLast?, isBlank c = false) : trim text = text := by
  rw [trim, trimStart_of_head head, trimEnd_of_last last]

end SpotCapacity.Text
