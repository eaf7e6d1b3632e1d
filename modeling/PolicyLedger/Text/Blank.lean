/-
**White space.**

One class of characters, the 25 of the Unicode property `White_Space`, decides everywhere what is
blank: names without text, fields that would split a line, and the space around identifiers.

* `isBlank_of_isWhitespace`: the four blanks of core's ASCII class are in it;
* `trim` drops blanks at both ends, `squeeze` drops all of them (`trim_eq_self`, `squeeze_idem`).
-/

namespace PolicyLedger.Text

/-- The Unicode property `White_Space`. -/
def isBlank (c : Char) : Bool :=
  let code := c.toNat
  (9 ≤ code && code ≤ 13) || code == 0x20 || code == 0x85 || code == 0xA0 || code == 0x1680 ||
    (0x2000 ≤ code && code ≤ 0x200A) || code == 0x2028 || code == 0x2029 || code == 0x202F ||
    code == 0x205F || code == 0x3000

/-- The blanks of the ASCII class are blanks. -/
theorem isBlank_of_isWhitespace {c : Char} (white : c.isWhitespace = true) : isBlank c = true := by
  simp only [Char.isWhitespace, Bool.or_eq_true, decide_eq_true_eq] at white
  rcases white with ((rfl | rfl) | rfl) | rfl <;> decide

/-- Characters without the blanks at the beginning. -/
def trimLeft (cs : List Char) : List Char := cs.dropWhile isBlank

/-- Characters without the blanks at the end. -/
def trimRight (cs : List Char) : List Char := (cs.reverse.dropWhile isBlank).reverse

/-- Characters without the blanks at both ends. -/
def trim (cs : List Char) : List Char := trimRight (trimLeft cs)

/-- Characters without any blank. -/
def squeeze (cs : List Char) : List Char := cs.filter fun c => !isBlank c

/-- A text without the blanks at both ends. -/
def trimmed (text : String) : String := String.ofList (trim text.toList)

/-- Holds of a text of blanks only, the empty one included. -/
def isBlankText (text : String) : Bool := text.toList.all isBlank

/-- Holds of a text with a blank in it. -/
def hasBlank (text : String) : Bool := text.toList.any isBlank

/-- Dropping all blanks twice drops no more. -/
theorem squeeze_idem (cs : List Char) : squeeze (squeeze cs) = squeeze cs := by
  simp [squeeze]

/-- A text without blanks is trimmed already. -/
theorem trim_eq_self {cs : List Char} (free : ∀ c ∈ cs, isBlank c = false) : trim cs = cs := by
  have keep : ∀ ds : List Char, (∀ d ∈ ds, isBlank d = false) → ds.dropWhile isBlank = ds := by
    intro ds freeDs
    cases ds with
    | nil => rfl
    | cons d rest => simp [List.dropWhile, freeDs d (by simp)]
  simp [trim, trimLeft, trimRight, keep cs free, keep cs.reverse (by simpa using free)]

end PolicyLedger.Text
