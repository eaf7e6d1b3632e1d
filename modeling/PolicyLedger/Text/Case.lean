/-
**Upper and lower case.**

Case matters only where a text is compared with a word of ASCII letters: the reserved namespace, a
file extension, a kind of subject. So the maps are the ASCII ones, with the two foreign letters
whose capital is ASCII (the dotless i and the long s) added to `upper`; no foreign letter has a
small form among the letters of the words compared.
-/

namespace PolicyLedger.Text

/-- Characters with the ASCII capitals made small. -/
def lower (cs : List Char) : List Char := cs.map Char.toLower

/-- The capital of a letter. -/
def upperChar (c : Char) : Char :=
  if c = 'ı' then 'I' else if c = 'ſ' then 'S' else c.toUpper

/-- Characters with the small letters made capitals. -/
def upper (cs : List Char) : List Char := cs.map upperChar

/-- A text in small letters. -/
def lowered (text : String) : String := String.ofList (lower text.toList)

/-- A text in capitals. -/
def uppered (text : String) : String := String.ofList (upper text.toList)

/-- Length is kept. -/
@[simp] theorem length_lower (cs : List Char) : (lower cs).length = cs.length := by simp [lower]

/-- Small letters of a joined text. -/
@[simp] theorem lower_append (cs ds : List Char) : lower (cs ++ ds) = lower cs ++ lower ds := by
  simp [lower]

end PolicyLedger.Text
