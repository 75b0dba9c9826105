/-!
# Blank characters

Names, numbers and ranges may be surrounded by blanks, which are the characters with the Unicode
property `White_Space`. `trim` removes them from both ends and nothing else.
-/

namespace PortWarden.Text

/-- The characters with the Unicode property `White_Space`. -/
def isBlank (c : Char) : Bool :=
  let n := c.toNat
  (9 ≤ n && n ≤ 13) || n == 0x20 || n == 0x85 || n == 0xA0 || n == 0x1680 ||
    (0x2000 ≤ n && n ≤ 0x200A) || n == 0x2028 || n == 0x2029 || n == 0x202F || n == 0x205F ||
    n == 0x3000

/-- Every blank that the core library knows of is a blank here. -/
theorem isBlank_of_isWhitespace {c : Char} (h : c.isWhitespace = true) : isBlank c = true := by
  simp only [Char.isWhitespace, Bool.or_eq_true, decide_eq_true_eq] at h
  rcases h with ((h | h) | h) | h <;> subst h <;> rfl

/-- The text after its leading blanks. -/
def trimStart (s : List Char) : List Char := s.dropWhile isBlank

/-- The text before its trailing blanks. -/
def trimEnd (s : List Char) : List Char := (s.reverse.dropWhile isBlank).reverse

/-- The text without the blanks at its two ends. -/
def trim (s : List Char) : List Char := trimEnd (trimStart s)

/-- A text that neither starts nor ends with a blank is left as it is. -/
theorem trim_eq_self {s : List Char} (hhead : ∀ c ∈ s.head?, isBlank c = false)
    (hlast : ∀ c ∈ s.getLast?, isBlank c = false) : trim s = s := by
  have hstart : trimStart s = s := by
    cases s with
    | nil => rfl
    | cons c cs => simp [trimStart, hhead c (by simp)]
  rw [trim, hstart, trimEnd]
  cases hs : s.reverse with
  | nil => simpa using hs.symm
  | cons c cs =>
    have : c ∈ s.getLast? := by simp [List.getLast?_eq_head?_reverse, hs]
    rw [List.dropWhile_cons, hlast c this]
    simpa using congrArg List.reverse hs.symm

/-- ASCII capitals become small letters, and every other character stays. -/
def lowerCase (s : String) : String := String.ofList (s.toList.map Char.toLower)

end PortWarden.Text
