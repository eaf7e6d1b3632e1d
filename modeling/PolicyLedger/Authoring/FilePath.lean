/-
**Paths of source files.**

The name of a file is the last part of its path that is not empty and not a single dot; two dots
name no file. An extension begins after the last dot, unless that dot begins the name.
-/

import PolicyLedger.Text.Case
import PolicyLedger.Text.Split

namespace PolicyLedger.FilePath

/-- The name of a file. -/
def name? (path : List Char) : Option (List Char) :=
  ((Text.pieces '/' path).filter fun part => !part.isEmpty && part ≠ ['.']).getLast?.filter
    (· ≠ ['.', '.'])

/-- The extension of a file name, with its dot. -/
def extension? (name : List Char) : Option (List Char) :=
  match Text.splitLast? ['.'] name with
  | some (_ :: _, extension) => some ('.' :: extension)
  | _ => none

/-- Holds of a path to a file with an extension, in any case. -/
def hasExtension (path extension : String) : Bool :=
  match (name? path.toList).bind extension? with
  | some found => Text.lower found = extension.toList
  | none => false

/-- Holds of a path to a file with a name. -/
def hasName (path name : String) : Bool := name? path.toList = some name.toList

end PolicyLedger.FilePath
