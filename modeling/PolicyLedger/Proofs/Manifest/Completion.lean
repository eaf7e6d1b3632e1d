/-
**Manifests that are completed for a language.**

A manifest is valid if it has a name and every partition uses a runtime that is declared
(`Manifest.validate_eq_ok_iff`), and it serves a language if moreover the language's runtime key
belongs to the language and the root partition uses it (`Specification.checkManifest_eq_ok_iff`).

Completing a manifest sets two keys if they are free and checks the result. The keys that are taken
keep their values (`Specification.Completes`), even if the result does not serve the language; on
the other hand a partition that used the language's runtime before it was declared becomes valid.
`Specification.completeManifest_exact` says when a manifest is completed, to what, and whether the
result serves the language.
-/

import PolicyLedger.Language.Serving
import PolicyLedger.Proofs.KeyMap
import PolicyLedger.Proofs.Steps

namespace PolicyLedger

namespace Manifest

variable {manifest : Manifest}

/-- There is a character in the name that is no space. -/
def IsNamed (manifest : Manifest) : Prop := ∃ c ∈ manifest.metadata.name.toList, c ≠ ' '

theorem checkPartition_eq_ok_iff {runtimes : KeyMap Runtime} {row : String × Partition} :
    checkPartition runtimes row = .ok () ↔ runtimes.contains row.2.runtime = true := by
  rw [checkPartition]
  split
  next declared => exact iff_of_true rfl declared
  next missing => exact iff_of_false nofun missing

/-- **A manifest is valid** if it is named and its partitions use declared runtimes. -/
theorem validate_eq_ok_iff : manifest.validate = .ok () ↔
    manifest.IsNamed ∧ ∀ key part, manifest.partitions.get? key = some part →
      manifest.runtimes.contains part.runtime = true := by
  have named : ¬ manifest.metadata.name.toList.all (· == ' ') = true ↔ manifest.IsNamed := by
    simp [IsNamed]
  have parts : (∀ row ∈ manifest.partitions.rows,
        checkPartition manifest.runtimes row = .ok ()) ↔
      ∀ key part, manifest.partitions.get? key = some part →
        manifest.runtimes.contains part.runtime = true := by
    simp only [Prod.forall, checkPartition_eq_ok_iff, KeyMap.get?_eq_some_iff]
  rw [validate, ← named, ← parts, ← Steps.forM_eq_ok]
  split
  next blank => exact iff_of_false nofun fun both => both.1 blank
  next filled => exact (and_iff_right filled).symm

end Manifest

namespace Specification

variable {spec : Specification} {manifest completed : Manifest}

/-- A manifest and what it is completed to: keys that have a value keep it, and of those that have
none the runtime key and the root partition are set. -/
structure Completes (spec : Specification) (manifest completed : Manifest) : Prop where
  metadata : completed.metadata = manifest.metadata
  runtimes : ∀ key, completed.runtimes.get? key =
    (manifest.runtimes.get? key).or (if key = spec.runtimeKey then some spec.runtime else none)
  partitions : ∀ key, completed.partitions.get? key =
    (manifest.partitions.get? key).or
      (if key = rootPartition then some ⟨spec.runtimeKey, false⟩ else none)

/-- What a manifest has under the language's key and as root partition suits the language. -/
structure Suits (spec : Specification) (manifest : Manifest) : Prop where
  language : ∀ runtime, manifest.runtimes.get? spec.runtimeKey = some runtime →
    runtime.language.name = spec.language
  root : ∀ part, manifest.partitions.get? rootPartition = some part →
    part.runtime = spec.runtimeKey

/-! ### Checking -/

/-- **A manifest serves a language** if it is valid, declares a runtime of the language under its
key and has a root partition that uses this key. -/
theorem checkManifest_eq_ok_iff : spec.checkManifest manifest = .ok () ↔
    manifest.validate = .ok () ∧
      (∃ runtime, manifest.runtimes.get? spec.runtimeKey = some runtime ∧
        runtime.language.name = spec.language) ∧
      ∃ part, manifest.partitions.get? rootPartition = some part ∧
        part.runtime = spec.runtimeKey := by
  rw [checkManifest, Steps.bind_eq_ok]
  constructor
  · rintro ⟨_, valid, rest⟩
    refine ⟨valid, ?_⟩
    split at rest
    next => cases rest
    next runtime declared =>
      split at rest
      next => cases rest
      next own =>
        split at rest
        next => cases rest
        next part root =>
          split at rest
          next used => exact ⟨⟨runtime, declared, not_not.mp own⟩, part, root, used⟩
          next => cases rest
  · rintro ⟨valid, ⟨runtime, declared, own⟩, part, root, used⟩
    refine ⟨(), valid, ?_⟩
    rw [declared]
    show (if runtime.language.name ≠ spec.language then _ else _) = _
    rw [if_neg (not_not.mpr own), root]
    exact if_pos used

/-! ### Completing -/

variable (spec manifest) in
/-- The manifest that completing makes before it is checked. -/
def extend : Manifest :=
  { manifest with
    runtimes := manifest.runtimes.insertNew spec.runtimeKey spec.runtime
    partitions := manifest.partitions.insertNew rootPartition ⟨spec.runtimeKey, false⟩ }

theorem completes_extend : spec.Completes manifest (spec.extend manifest) :=
  ⟨rfl, KeyMap.get?_insertNew _ _ _, KeyMap.get?_insertNew _ _ _⟩

theorem completeManifest_eq_ok_iff : spec.completeManifest manifest = .ok completed ↔
    (spec.extend manifest).validate = .ok () ∧ spec.extend manifest = completed := by
  refine Steps.bind_eq_ok.trans ⟨?_, ?_⟩
  · rintro ⟨_, valid, same⟩
    exact ⟨valid, Except.ok.inj same⟩
  · rintro ⟨valid, same⟩
    exact ⟨(), valid, congrArg Except.ok same⟩

/-- With one more key, a map contains this key as well. -/
theorem contains_added_iff {key other : String} {α : Type} {map extended : KeyMap α} {value : α}
    (set : ∀ key, extended.get? key =
      (map.get? key).or (if key = other then some value else none)) :
    extended.contains key = true ↔ map.contains key = true ∨ key = other := by
  rw [KeyMap.contains, set, Option.isSome_or, Bool.or_eq_true, KeyMap.contains]
  refine or_congr_right ?_
  split
  next same => exact iff_of_true rfl same
  next other => exact iff_of_false Bool.false_ne_true other

namespace Completes

variable (completes : spec.Completes manifest completed)

include completes

/-- A completed manifest is valid if its partitions use runtimes that were declared before, or the
language's. -/
theorem validate_iff : completed.validate = .ok () ↔
    manifest.IsNamed ∧ ∀ key part, manifest.partitions.get? key = some part →
      manifest.runtimes.contains part.runtime = true ∨ part.runtime = spec.runtimeKey := by
  rw [Manifest.validate_eq_ok_iff, Manifest.IsNamed, completes.metadata]
  refine and_congr_right fun _ => forall_congr' fun key => ?_
  simp only [contains_added_iff completes.runtimes, completes.partitions]
  constructor
  · intro uses part given
    exact uses part (by rw [given, Option.some_or])
  · intro uses part given
    obtain there | ⟨_, added⟩ := Option.or_eq_some_iff.mp given
    · exact uses part there
    · split at added
      next =>
        obtain rfl := Option.some.inj added
        exact .inr rfl
      next => cases added

/-- There is nothing left to complete. -/
theorem extend_eq : spec.extend completed = completed := by
  have runtimes : completed.runtimes.contains spec.runtimeKey = true :=
    (contains_added_iff completes.runtimes).mpr (.inr rfl)
  have partitions : completed.partitions.contains rootPartition = true :=
    (contains_added_iff completes.partitions).mpr (.inr rfl)
  rw [extend, KeyMap.insertNew, if_pos runtimes, KeyMap.insertNew, if_pos partitions]

/-- A completed manifest serves the language if what it had before suits it. -/
theorem checkManifest_iff (valid : completed.validate = .ok ()) :
    spec.checkManifest completed = .ok () ↔ spec.Suits manifest := by
  have either : ∀ {α : Type} {found : Option α} {added : α} {good : α → Prop}, good added →
      ((∃ value, found.or (some added) = some value ∧ good value) ↔
        ∀ value, found = some value → good value) := by
    intro α found added good fine
    cases found with
    | none => simp [fine]
    | some old => simp
  rw [checkManifest_eq_ok_iff, and_iff_right valid, completes.runtimes, if_pos rfl,
    completes.partitions, if_pos rfl, either (by rfl), either (by rfl)]
  exact ⟨fun ⟨language, root⟩ => ⟨language, root⟩, fun suits => ⟨suits.language, suits.root⟩⟩

end Completes

/-- **Completing is conservative and idempotent.** A manifest is completed just if it is named and
each of its partitions uses a declared runtime or the language's. Then everything that it has stays,
nothing but the language's runtime and the root partition is added, and completing the result
changes nothing. The result serves the language just if what the manifest had under the language's
key and as root partition suits it. -/
theorem completeManifest_exact (spec : Specification) (manifest : Manifest) :
    ((∃ completed, spec.completeManifest manifest = .ok completed) ↔
      manifest.IsNamed ∧ ∀ key part, manifest.partitions.get? key = some part →
        manifest.runtimes.contains part.runtime = true ∨ part.runtime = spec.runtimeKey) ∧
    ∀ completed, spec.completeManifest manifest = .ok completed →
      spec.Completes manifest completed ∧
      spec.completeManifest completed = .ok completed ∧
      (spec.checkManifest completed = .ok () ↔ spec.Suits manifest) := by
  have completes : spec.Completes manifest (spec.extend manifest) := completes_extend
  constructor
  · rw [← completes.validate_iff]
    constructor
    · rintro ⟨_, done⟩
      exact (completeManifest_eq_ok_iff.mp done).1
    · intro valid
      exact ⟨_, completeManifest_eq_ok_iff.mpr ⟨valid, rfl⟩⟩
  · intro completed done
    obtain ⟨valid, rfl⟩ := completeManifest_eq_ok_iff.mp done
    refine ⟨completes, completeManifest_eq_ok_iff.mpr ?_, completes.checkManifest_iff valid⟩
    rw [completes.extend_eq]
    exact ⟨valid, rfl⟩

/-- A ledger with a runtime of its own under a key, and a partition that uses the policy language
without declaring its runtime. -/
def draftManifest (key : String) : Manifest :=
  { metadata := ⟨"ztauth", "ledger", ""⟩
    runtimes := KeyMap.empty.insert key ⟨⟨"opa", engineVersion, "opa"⟩, ⟨"rego", "1.0"⟩⟩
    partitions := KeyMap.empty.insert "audit" ⟨cedar.runtimeKey, true⟩ }

/-- The reference to the undeclared runtime is repaired, and a runtime of another language is kept
even under the language's key. -/
theorem completeManifest_of_draftManifest :
    (draftManifest "rego[1.0+]").validate ≠ .ok () ∧
    (∃ completed, cedar.completeManifest (draftManifest "rego[1.0+]") = .ok completed ∧
      cedar.checkManifest completed = .ok ()) ∧
    ∃ completed, cedar.completeManifest (draftManifest cedar.runtimeKey) = .ok completed ∧
      cedar.completeManifest completed = .ok completed ∧
      cedar.checkManifest completed ≠ .ok () := by
  have named : 'l' ∈ "ledger".toList := by decide
  have completed : ∀ key, ∃ completed,
      cedar.completeManifest (draftManifest key) = .ok completed := by
    refine fun runtimeKey => (completeManifest_exact cedar _).1.mpr
      ⟨⟨'l', named, by decide⟩, fun key part given => .inr ?_⟩
    have row := List.mem_singleton.mp (KeyMap.get?_eq_some_iff.mp given)
    rw [(Prod.mk.inj row).2]
  refine ⟨fun valid => ?_, ?_, ?_⟩
  · have declared := (Manifest.validate_eq_ok_iff.mp valid).2 "audit" _ rfl
    exact absurd declared (by decide)
  · obtain ⟨result, done⟩ := completed "rego[1.0+]"
    obtain ⟨-, -, serves⟩ := (completeManifest_exact cedar _).2 result done
    refine ⟨result, done, serves.mpr ⟨fun runtime declared => ?_, fun part root => ?_⟩⟩
    · have free : (draftManifest "rego[1.0+]").runtimes.get? cedar.runtimeKey = none := by decide
      cases free.symm.trans declared
    · have free : (draftManifest "rego[1.0+]").partitions.get? rootPartition = none := by decide
      cases free.symm.trans root
  · obtain ⟨result, done⟩ := completed cedar.runtimeKey
    obtain ⟨-, again, serves⟩ := (completeManifest_exact cedar _).2 result done
    refine ⟨result, done, again, fun served => ?_⟩
    have language := (serves.mp served).language _ (KeyMap.get?_insert _ _ _)
    exact absurd language (by decide)

end Specification

end PolicyLedger
