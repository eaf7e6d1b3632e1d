/-
**Commit history.**

The history of a commit is the chain of its parents. `history` walks it from one commit to another,
or to the beginning if the other is the zero id, and gives up after a limited number of commits; so
it ends even where parents form a cycle.
-/

import PolicyLedger.Store
import PolicyLedger.Commit

namespace PolicyLedger

namespace Store

/-- The commit under an id. -/
def commit (store : Store) (id : ObjectId) : Except Error Commit := do
  let object ← store.get id
  Commit.ofObject object

/-- The commits from one to another or to the first, at most `room` of them, and whether the other
was met; `limit` is what the walk was allowed at its start. -/
def walk (store : Store) (target : ObjectId) (limit : Nat) :
    Nat → ObjectId → Except Error (Bool × List Commit)
  | 0, _ => .error (.request (.historyLength limit))
  | room + 1, id => do
    let commit ← store.commit id
    if id = target then return (true, [commit])
    else match commit.parent with
      | none => return (false, [commit])
      | some parent =>
        let (met, older) ← walk store target limit room parent
        return (met, commit :: older)

/-- Whether a commit has another one in its history, and the commits from one to the other, newest
first unless they are reversed. -/
def history (store : Store) (source target : ObjectId) (reversed : Bool) (limit : Nat) :
    Except Error (Bool × List Commit) :=
  if source.isZero then
    if target.isZero then .ok (true, []) else .error (.request .historyStart)
  else do
    let (met, commits) ← store.walk target limit limit source
    return (met || target.isZero, if reversed then commits.reverse else commits)

end Store

end PolicyLedger
