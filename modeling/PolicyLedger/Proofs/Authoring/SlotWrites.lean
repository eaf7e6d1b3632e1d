/-
**Writes into slots.**

An object or an error is written to an index (`Sections.Write`). Inside the number of slots the
write fills the slot, outside of it it is refused and leaves all slots (`attempt_put`). After any
number of writes, in any order and with any indices, a slot holds the outcome that was last written
to it (`get?_attempts`), and an object is numbered with its slot (`IsNumbered`). The slots of a file
are those after writing the outcomes of its statements in their order, none of which is refused
(`foldlM_put_writes`).

The outcomes with the numbers of their slots (`numbered`) are in strict order, and what is listed as
objects, errors or outcomes are parts of it, so the outcomes are the objects and the errors merged
by their numbers (`IsNumbered.filled_eq_merge`).
-/

import PolicyLedger.Authoring.PolicyFile
import PolicyLedger.Proofs.Steps

namespace PolicyLedger.Sections

/-- What is written into a slot. -/
inductive Write
  | object (index : Nat) (object : Object) (info : SectionMeta)
  | error (index : Nat) (error : Error)

namespace Write

/-- The slot that is written to. -/
def index : Write → Nat
  | object index _ _ => index
  | error index _ => index

/-- What the slot holds afterwards. -/
def outcome : Write → Section
  | object index stored info => .ok ⟨index, stored, info⟩
  | error _ failure => .error failure

/-- The slots after the write. -/
def put (sections : Sections) : Write → Except Error Sections
  | object index stored info => sections.putObject index stored info
  | error index failure => sections.putError index failure

theorem put_eq (sections : Sections) (write : Write) :
    put sections write = sections.put write.index write.outcome := by
  cases write <;> rfl

end Write

variable {sections : Sections} {index : Nat}

/-! ### Slots -/

/-- A write fills its slot if there is one; if not, all slots stay as they are. -/
theorem attempt_put (sections : Sections) (write : Write) :
    Steps.attempt Write.put sections write =
      if write.index < sections.size then
        ({ sections with slots := sections.slots.set write.index (some write.outcome) }, .ok ())
      else (sections, .error (.sectionOutOfRange write.index sections.size)) := by
  rw [Steps.attempt, Write.put_eq, put]
  by_cases inside : write.index < sections.size <;> simp [inside]

theorem size_attempt (sections : Sections) (write : Write) :
    (Steps.attempt Write.put sections write).1.size = sections.size := by
  rw [attempt_put]
  split
  · exact List.length_set
  · rfl

theorem path_attempt (sections : Sections) (write : Write) :
    (Steps.attempt Write.put sections write).1.path = sections.path := by
  rw [attempt_put]
  split <;> rfl

/-- The number of slots stays, and a write ends well just if its index is below it. -/
theorem attempts_put (sections : Sections) (writes : List Write) :
    (Steps.attempts Write.put sections writes).1.path = sections.path ∧
    (Steps.attempts Write.put sections writes).1.size = sections.size ∧
    (Steps.attempts Write.put sections writes).2 = writes.map fun write =>
      if write.index < sections.size then .ok ()
      else .error (.sectionOutOfRange write.index sections.size) := by
  induction writes generalizing sections with
  | nil => exact ⟨rfl, rfl, rfl⟩
  | cons write writes ih =>
    obtain ⟨path, size, ended⟩ := ih (Steps.attempt Write.put sections write).1
    rw [path_attempt] at path
    rw [size_attempt] at size ended
    refine ⟨path, size, ?_⟩
    rw [Steps.attempts, List.map_cons, ended, attempt_put]
    split <;> rfl

theorem get?_attempt (sections : Sections) (write : Write) (index : Nat) :
    (Steps.attempt Write.put sections write).1.get? index =
      if write.index = index ∧ index < sections.size then some write.outcome
      else sections.get? index := by
  rw [attempt_put]
  by_cases same : write.index = index
  · subst same
    by_cases inside : write.index < sections.size
    · rw [if_pos inside, if_pos ⟨rfl, inside⟩, get?, List.getElem?_set_self inside]
      rfl
    · rw [if_neg inside, if_neg fun both => inside both.2]
  · have other : ¬ (write.index = index ∧ index < sections.size) := fun both => same both.1
    rw [if_neg other]
    split
    · rw [get?, List.getElem?_set_ne same]
      rfl
    · rfl

/-- A slot holds the outcome that was last written to it. -/
theorem get?_attempts (sections : Sections) (writes : List Write) {index : Nat}
    (inside : index < sections.size) :
    (Steps.attempts Write.put sections writes).1.get? index =
      ((writes.filter (·.index = index)).getLast?.map Write.outcome).or (sections.get? index) := by
  induction writes generalizing sections with
  | nil => rfl
  | cons write writes ih =>
    rw [Steps.attempts, ih _ (by rwa [size_attempt]), get?_attempt, List.filter_cons]
    by_cases same : write.index = index
    · rw [if_pos ⟨same, inside⟩, if_pos (decide_eq_true same), List.getLast?_cons]
      cases (writes.filter (·.index = index)).getLast? <;> rfl
    · rw [if_neg (same ·.1), if_neg (by simpa using same)]

theorem get?_of_size_le {index : Nat} (outside : sections.size ≤ index) :
    sections.get? index = none := by
  rw [get?, List.getElem?_eq_none outside]
  rfl

theorem get?_empty (path : String) (count index : Nat) : (empty path count).get? index = none := by
  rw [get?, empty, List.getElem?_replicate]
  split <;> rfl

/-- Every object is numbered with its slot. -/
def IsNumbered (sections : Sections) : Prop :=
  ∀ index made, sections.get? index = some (.ok made) → made.index = index

theorem isNumbered_empty (path : String) (count : Nat) : (empty path count).IsNumbered := by
  intro index made held
  rw [get?_empty] at held
  cases held

theorem isNumbered_put {next : Sections} {write : Write} (numbered : sections.IsNumbered)
    (done : Write.put sections write = .ok next) : next.IsNumbered := by
  intro index made held
  have there := get?_attempt sections write index
  rw [Steps.attempt_of_ok done, held] at there
  split at there
  next same =>
    cases write with
    | object _ _ _ =>
      obtain rfl := Except.ok.inj (Option.some.inj there)
      exact same.1
    | error _ _ => cases there
  · exact numbered index made there.symm

/-- Two parts of a list in strict order are merged into the list. -/
theorem merge_filter {α : Type} {before : α → α → Bool} {items : List α}
    (ordered : items.Pairwise fun first second =>
      before first second = true ∧ before second first = false) (part : α → Bool) :
    List.merge (items.filter part) (items.filter fun item => !part item) before = items := by
  induction items with
  | nil => exact List.merge_right _
  | cons item items ih =>
    obtain ⟨first, rest⟩ := List.pairwise_cons.mp ordered
    have merged := ih rest
    by_cases inPart : part item = true
    · rw [List.filter_cons_of_pos inPart, List.filter_cons_of_neg (by simp [inPart])]
      cases others : items.filter fun item => !part item with
      | nil =>
        rw [others, List.merge_right] at merged
        rw [List.merge_right, merged]
      | cons other more =>
        have later : other ∈ items := List.mem_of_mem_filter (others ▸ List.mem_cons_self)
        rw [List.cons_merge_cons_pos _ _ _ (first other later).1, ← others, merged]
    · rw [List.filter_cons_of_neg inPart, List.filter_cons_of_pos (by simp [inPart])]
      cases others : items.filter part with
      | nil =>
        rw [others, List.nil_merge] at merged
        rw [List.nil_merge, merged]
      | cons other more =>
        have later : other ∈ items := List.mem_of_mem_filter (others ▸ List.mem_cons_self)
        rw [List.cons_merge_cons_neg _ _ _ (by simp [(first other later).2]), ← others, merged]

/-! ### Views -/

/-- The outcomes with the numbers of their slots. -/
def numbered (sections : Sections) : List (Nat × Section) :=
  sections.slots.zipIdx.filterMap fun (slot, index) => slot.map (index, ·)

theorem mem_numbered {index : Nat} {outcome : Section} :
    (index, outcome) ∈ sections.numbered ↔ sections.get? index = some outcome := by
  rw [numbered, List.mem_filterMap, get?, Option.join_eq_some_iff]
  constructor
  · rintro ⟨⟨slot, place⟩, inside, same⟩
    obtain ⟨held, rfl, row⟩ := Option.map_eq_some_iff.mp same
    obtain ⟨rfl, rfl⟩ := Prod.mk.inj row
    exact List.mk_mem_zipIdx_iff_getElem?.mp inside
  · exact fun there => ⟨(some outcome, index), List.mk_mem_zipIdx_iff_getElem?.mpr there, rfl⟩

theorem pairwise_numbered (sections : Sections) :
    sections.numbered.Pairwise fun first second => first.1 < second.1 := by
  have places : sections.slots.zipIdx.Pairwise fun first second => first.2 < second.2 := by
    have counted := List.pairwise_lt_range' (s := 0) (n := sections.slots.length) 1
    rwa [← List.zipIdx_map_snd, List.pairwise_map] at counted
  refine places.filterMap _ fun first second before row found other later => ?_
  obtain ⟨_, _, rfl⟩ := Option.map_eq_some_iff.mp found
  obtain ⟨_, _, rfl⟩ := Option.map_eq_some_iff.mp later
  exact before

theorem filled_eq (sections : Sections) : sections.filled = sections.numbered.map Prod.snd := by
  have slots : sections.slots.zipIdx.map Prod.fst = sections.slots := List.zipIdx_map_fst 0 _
  rw [filled, numbered, List.map_filterMap]
  conv_lhs => rw [← slots, List.filterMap_map]
  refine congrArg (List.filterMap · _) (funext fun (slot, index) => ?_)
  cases slot <;> rfl

theorem errors_eq (sections : Sections) :
    sections.errors = sections.numbered.filterMap fun
      | (index, .error error) => some (index, error)
      | (_, .ok _) => none := by
  rw [numbered, List.filterMap_filterMap, errors]
  refine congrArg (List.filterMap · _) (funext fun (slot, index) => ?_)
  rcases slot with _ | (_ | _) <;> rfl

theorem objects_eq (sections : Sections) :
    sections.objects = sections.numbered.filterMap fun row => row.2.toOption := by
  rw [objects, filled_eq, List.filterMap_map]
  refine congrArg (List.filterMap · _) (funext fun (index, outcome) => ?_)
  cases outcome <;> rfl

theorem mem_errors {index : Nat} {error : Error} :
    (index, error) ∈ sections.errors ↔ sections.get? index = some (.error error) := by
  rw [errors_eq, List.mem_filterMap, ← mem_numbered]
  constructor
  · rintro ⟨⟨place, _ | _⟩, inside, same⟩
    · obtain ⟨rfl, rfl⟩ := Prod.mk.inj (Option.some.inj same)
      exact inside
    · cases same
  · exact fun inside => ⟨_, inside, rfl⟩

theorem pairwise_errors (sections : Sections) :
    sections.errors.Pairwise fun first second => first.1 < second.1 := by
  rw [errors_eq]
  refine sections.pairwise_numbered.filterMap _ fun first second before => ?_
  obtain ⟨_, _ | _⟩ := first <;> obtain ⟨_, _ | _⟩ := second <;> rintro _ ⟨⟩ _ ⟨⟩
  exact before

/-- The errors with their numbers are the other outcomes. -/
theorem errors_eq_filter (sections : Sections) :
    (sections.errors.map fun (index, error) => (index, (Except.error error : Section))) =
      sections.numbered.filter fun row => !row.2.isOk := by
  rw [errors_eq, List.map_filterMap, ← List.filterMap_eq_filter]
  refine congrArg (List.filterMap · _) (funext fun (index, outcome) => ?_)
  cases outcome <;> rfl

namespace IsNumbered

variable (inOrder : sections.IsNumbered)

include inOrder

/-- The objects with their numbers are the outcomes that are objects. -/
theorem objects_eq_filter :
    (sections.objects.map fun made => (made.index, Except.ok made)) =
      sections.numbered.filter (·.2.isOk) := by
  rw [objects_eq, List.map_filterMap, ← List.filterMap_eq_filter]
  refine List.filterMap_congr fun (index, outcome) inside => ?_
  cases outcome with
  | error _ => rfl
  | ok made =>
    have same := inOrder index made (mem_numbered.mp inside)
    subst same
    rfl

theorem mem_objects {made : SectionObject} :
    made ∈ sections.objects ↔ sections.get? made.index = some (.ok made) := by
  rw [objects_eq, List.mem_filterMap, ← mem_numbered]
  constructor
  · rintro ⟨⟨place, _ | _⟩, inside, same⟩
    · cases same
    · obtain rfl := Option.some.inj same
      rwa [inOrder place _ (mem_numbered.mp inside)]
  · exact fun inside => ⟨_, inside, rfl⟩

theorem pairwise_objects :
    sections.objects.Pairwise fun first second => first.index < second.index := by
  have ordered := sections.pairwise_numbered.filter (·.2.isOk)
  rwa [← inOrder.objects_eq_filter, List.pairwise_map] at ordered

/-- The outcomes are the objects and the errors, merged by the numbers of their slots. -/
theorem filled_eq_merge :
    sections.filled = ((sections.objects.map fun made => (made.index, Except.ok made)).merge
      (sections.errors.map fun (index, error) => (index, Except.error error))
      fun first second => first.1 ≤ second.1).map Prod.snd := by
  have ordered : sections.numbered.Pairwise fun first second =>
      decide (first.1 ≤ second.1) = true ∧ decide (second.1 ≤ first.1) = false :=
    sections.pairwise_numbered.imp fun before => by simp [before, Nat.le_of_lt before]
  rw [inOrder.objects_eq_filter, errors_eq_filter, merge_filter ordered, filled_eq]

end IsNumbered

/-! ### The slots of a file -/

/-- The write of an outcome. -/
def Write.ofOutcome (index : Nat) : Except Error (Object × SectionMeta) → Write
  | .ok (stored, info) => .object index stored info
  | .error failure => .error index failure

/-- The slot of an outcome. -/
def slotOf (index : Nat) (outcome : Except Error (Object × SectionMeta)) : Option Section :=
  some (outcome.map fun (object, info) => ⟨index, object, info⟩)

theorem put_ofOutcome (path : String) (done : List (Option Section)) (count : Nat)
    (outcome : Except Error (Object × SectionMeta)) :
    Write.put ⟨path, done ++ List.replicate (count + 1) none⟩ (.ofOutcome done.length outcome) =
      .ok ⟨path, done ++ slotOf done.length outcome :: List.replicate count none⟩ := by
  cases outcome <;>
    simp [Write.put_eq, Write.ofOutcome, Write.index, Write.outcome, put, size, slotOf, Except.map,
      List.replicate_succ]

theorem foldlM_put_from (path : String) (outcomes : List (Except Error (Object × SectionMeta)))
    (done : List (Option Section)) :
    ((outcomes.zipIdx done.length).map fun (outcome, index) => Write.ofOutcome index outcome).foldlM
        Write.put ⟨path, done ++ List.replicate outcomes.length none⟩ =
      .ok ⟨path, done ++ (outcomes.zipIdx done.length).map fun (outcome, index) =>
        slotOf index outcome⟩ := by
  -- the slots before the next index are done, and those from it on are empty
  induction outcomes generalizing done with
  | nil => rfl
  | cons outcome rest ih =>
    have others := ih (done ++ [slotOf done.length outcome])
    rw [List.length_append, List.length_singleton, List.append_assoc, List.append_assoc] at others
    rw [List.zipIdx_cons, List.map_cons, List.map_cons, List.foldlM_cons, List.length_cons,
      put_ofOutcome]
    exact others

/-- Writing the outcomes of a file's statements one after the other into as many empty slots ends
well with the slots of the file. -/
theorem foldlM_put_writes (path : String) (outcomes : List (Except Error (Object × SectionMeta))) :
    (outcomes.zipIdx.map fun (outcome, index) => Write.ofOutcome index outcome).foldlM Write.put
      (empty path outcomes.length) = .ok (Authoring.fill path outcomes) :=
  foldlM_put_from path outcomes []

/-- **Slots after any writes.** Objects and errors are written to any indices of a number of slots.
The number stays. A write ends well just if its index is below the number; otherwise it reports both
and leaves all slots. A slot holds the outcome that was last written to it, and an object is numbered
with its slot. The objects and the errors are those in the slots, each in strict order and never with
the same number; the outcomes are both, merged by the numbers, and there are errors just if one is
listed. -/
theorem slots_of_writes (path : String) (count : Nat) (writes : List Write) :
    let ended := Steps.attempts Write.put (empty path count) writes
    let slots := ended.1
    slots.path = path ∧ slots.size = count ∧
    (ended.2 = writes.map fun write =>
      if write.index < count then .ok () else .error (.sectionOutOfRange write.index count)) ∧
    (∀ write : Write, count ≤ write.index → Steps.attempt Write.put slots write =
      (slots, .error (.sectionOutOfRange write.index count))) ∧
    (∀ index, slots.get? index =
      if index < count then (writes.filter (·.index = index)).getLast?.map Write.outcome
      else none) ∧
    (∀ index made, slots.get? index = some (.ok made) → made.index = index) ∧
    (∀ made, made ∈ slots.objects ↔ slots.get? made.index = some (.ok made)) ∧
    (∀ index error, (index, error) ∈ slots.errors ↔ slots.get? index = some (.error error)) ∧
    (slots.objects.map SectionObject.index).Pairwise (· < ·) ∧
    (slots.errors.map Prod.fst).Pairwise (· < ·) ∧
    (∀ made ∈ slots.objects, ∀ failed ∈ slots.errors, made.index ≠ failed.1) ∧
    slots.filled = ((slots.objects.map fun made => (made.index, Except.ok made)).merge
      (slots.errors.map fun (index, error) => (index, Except.error error))
      fun first second => first.1 ≤ second.1).map Prod.snd ∧
    (slots.hasErrors = true ↔ slots.errors ≠ []) := by
  intro ended slots
  have bare : (empty path count).size = count := List.length_replicate
  obtain ⟨samePath, sameSize, outcomes⟩ := attempts_put (empty path count) writes
  rw [bare] at sameSize outcomes
  have inOrder : slots.IsNumbered :=
    Steps.attempts_keep (fun _ _ _ => isNumbered_put) (isNumbered_empty path count) writes
  refine ⟨samePath, sameSize, outcomes, fun write outside => ?_, fun index => ?_, inOrder,
    fun _ => inOrder.mem_objects, fun _ _ => mem_errors,
    List.pairwise_map.mpr inOrder.pairwise_objects, List.pairwise_map.mpr slots.pairwise_errors,
    fun made listed failed there same => ?_, inOrder.filled_eq_merge, ?_⟩
  · rw [attempt_put, sameSize, if_neg (Nat.not_lt.mpr outside)]
  · split
    next inside =>
      have held := get?_attempts (empty path count) writes (Nat.lt_of_lt_of_eq inside bare.symm)
      rwa [get?_empty, Option.or_none] at held
    next outside => exact get?_of_size_le (sameSize ▸ Nat.not_lt.mp outside)
  · have object := inOrder.mem_objects.mp listed
    rw [same, mem_errors.mp there] at object
    cases object
  · rw [hasErrors, Bool.not_eq_true', List.isEmpty_eq_false_iff]

end PolicyLedger.Sections
