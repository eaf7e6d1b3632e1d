/-
**Sections of a source file.**

A source file may declare several policies. Each of them has a slot, numbered from zero, for the
object made from it or the error that prevented one; the number of slots is fixed at the start, so a
failure at one index never shifts the others.
-/

import PolicyLedger.Object
import PolicyLedger.Tree

namespace PolicyLedger

/-- How the object of a section is to be listed in a tree. -/
structure SectionMeta where
  partition : String
  kind : ObjectKind
  name : String
  codeId : String
  codeType : String
  language : String
  languageVersion : String
  languageType : String
  deriving DecidableEq, Repr

/-- The object made from a section. -/
structure SectionObject where
  index : Nat
  object : Object
  info : SectionMeta
  deriving DecidableEq

namespace SectionObject

/-- The tree entry for the object of a section. -/
def entry (made : SectionObject) : Except Error TreeEntry :=
  TreeEntry.check
    { path := made.info.partition
      kind := made.info.kind
      oid := made.object.oid
      name := made.info.name
      codeId := made.info.codeId
      codeType := made.info.codeType
      language := made.info.language
      languageVersion := made.info.languageVersion
      languageType := made.info.languageType }

end SectionObject

/-- The outcome of one section. -/
abbrev Section := Except Error SectionObject

/-- The slots of a file. -/
structure Sections where
  path : String
  slots : List (Option Section)

namespace Sections

/-- A number of empty slots. -/
def empty (path : String) (count : Nat) : Sections := ⟨path, List.replicate count none⟩

/-- The number of slots. -/
def size (sections : Sections) : Nat := sections.slots.length

/-- The outcome in a slot; none if the slot is empty or does not exist. -/
def get? (sections : Sections) (index : Nat) : Option Section := sections.slots[index]?.join

/-- The slots after an outcome was put into one of them. -/
def put (sections : Sections) (index : Nat) (outcome : Section) : Except Error Sections :=
  if index < sections.size then
    .ok { sections with slots := sections.slots.set index (some outcome) }
  else .error (.sectionOutOfRange index sections.size)

/-- The slots after an object was put into one of them. -/
def putObject (sections : Sections) (index : Nat) (object : Object) (info : SectionMeta) :
    Except Error Sections :=
  sections.put index (.ok ⟨index, object, info⟩)

/-- The slots after an error was put into one of them. -/
def putError (sections : Sections) (index : Nat) (error : Error) : Except Error Sections :=
  sections.put index (.error error)

/-- The outcomes, in the order of the slots. -/
def filled (sections : Sections) : List Section := sections.slots.filterMap id

/-- The objects, in the order of the slots. -/
def objects (sections : Sections) : List SectionObject :=
  sections.filled.filterMap fun
    | .ok made => some made
    | .error _ => none

/-- The errors with the numbers of their slots, in the order of the slots. -/
def errors (sections : Sections) : List (Nat × Error) :=
  sections.slots.zipIdx.filterMap fun
    | (some (.error error), index) => some (index, error)
    | _ => none

/-- Holds if there is an error. -/
def hasErrors (sections : Sections) : Bool := !sections.errors.isEmpty

/-- Writing keeps the number of slots. -/
theorem size_put {sections next : Sections} {index : Nat} {outcome : Section}
    (done : sections.put index outcome = .ok next) : next.size = sections.size := by
  unfold put at done
  split at done
  · cases done; simp [size]
  · cases done

/-- A slot holds what was put into it. -/
theorem get?_put {sections next : Sections} {index : Nat} {outcome : Section}
    (done : sections.put index outcome = .ok next) : next.get? index = some outcome := by
  unfold put at done
  split at done
  next inRange =>
    cases done
    simp [get?, show index < sections.slots.length from inRange]
  next => cases done

end Sections

end PolicyLedger
