/-
**Entities and contexts in JSON.**

An entity is described by a structure with its name, its attributes, the names of its parents and,
if it has any, its tags. An action may have actions as parents only. A context is a record.
-/

import PolicyLedger.Json.Record
import PolicyLedger.Policy.Eval
import PolicyLedger.Policy.ValueJson

namespace PolicyLedger.Policy

open Json (Record)

namespace Environment

/-- An environment for expressions that do not look at a request. -/
def blank : Environment :=
  let uid : EntityUid := ⟨⟨[], ""⟩, ""⟩
  ⟨uid, uid, uid, [], ⟨[]⟩⟩

end Environment

/-- The value that a JSON value stands for. -/
def Value.ofJson? (value : Json) : Option Value := (Expr.ofValue? value).bind (Expr.eval .blank)

/-- The fields that the members of an object stand for, in the order of their keys. -/
def fieldsOf? : Json → Option (List (String × Value))
  | .object members => do
    let fields ← members.mapM fun member =>
      (Value.ofJson? member.2).map fun value => (member.1, value)
    return fields.foldl (fun done field => KeyMap.place field.1 field.2 done) []
  | _ => none

/-- The entity that a structure describes. -/
def Entity.ofJson? (value : Json) : Option Entity := do
  let record ← Record.of? ["uid", "attrs", "parents", "tags"] value
  let uid ← record.required "uid" EntityUid.ofJson?
  let attributes ← record.required "attrs" fieldsOf?
  let parents ← record.required "parents" (Json.asListOf? EntityUid.ofJson?)
  let tags ← record.defaulted "tags" [] fieldsOf?
  if uid.type.isAction && !parents.all (fun parent => parent.type.isAction) then none
  else return ⟨uid, attributes, parents, tags⟩

/-- The entities that a list of structures describes. -/
def Entities.ofJson? (items : List Json) : Option Entities :=
  (items.mapM Entity.ofJson?).bind Entities.ofRows?

/-- The context that an object stands for. -/
def contextOf? (members : List (String × Json)) : Option (List (String × Value)) :=
  match Value.ofJson? (.object members) with
  | some (.record fields) => some fields
  | _ => none

end PolicyLedger.Policy
