/-
**Ids that were made.**

An id is read from a text, computed from bytes, or stands for no object (`ObjectId.IsMade`). These
are the ids whose texts name objects (`isMade_iff`).
-/

import PolicyLedger.Object.Id

namespace PolicyLedger.ObjectId

/-- The three ways to make an id. -/
inductive IsMade : ObjectId → Prop
  | parsed {text : String} {id : ObjectId} (read : parse text = .ok id) : IsMade id
  | digest (bytes : Bytes) : IsMade (of bytes)
  | zero : IsMade zero

theorem isName_of_isMade {id : ObjectId} (made : id.IsMade) : isName id.text = true := by
  cases made with
  | parsed read =>
    obtain ⟨rfl, named⟩ := parse_eq_ok read
    exact named
  | digest bytes => exact isName_of bytes
  | zero => decide

/-- The ids that are made are those whose texts name objects. -/
theorem isMade_iff {id : ObjectId} : id.IsMade ↔ isName id.text = true :=
  ⟨isName_of_isMade, fun named => .parsed (if_pos named)⟩

end PolicyLedger.ObjectId
