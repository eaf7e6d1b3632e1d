/-
**How reserved identifiers are spelled.**

An identifier is reserved if the reserved word stands before its first separator, once the blanks
are dropped and the letters are small (`inReserved_iff_beforeFirst`), whatever small forms the
letters have that are not ASCII ones (`inReserved_of_lowers`). So blanks and capitals do not matter,
not even blanks inside a separator, and whatever is built on a reserved identifier is reserved.
`isReserved_spellings` puts this together.
-/

import PolicyLedger.Proofs.Name.Reserved
import PolicyLedger.Proofs.Text.Case
import PolicyLedger.Proofs.Text.Split

namespace PolicyLedger

/-- What stands before the first separator, or the whole text if there is none. -/
def Text.beforeFirst (separator cs : List Char) : List Char :=
  ((splitFirst? separator cs).map Prod.fst).getD cs

/-- The reserved word has no colon, so the first separator behind it ends it. -/
theorem inReserved_iff_beforeFirst {plain : List Char} :
    InReserved plain ↔ Text.beforeFirst separator plain = reservedWord := by
  constructor
  · rintro (rfl | ⟨rest, rfl⟩)
    · have uncut : Text.splitFirst? separator reservedWord = none :=
        Text.splitFirst?_of_not_mem colon_not_mem_reservedWord
      rw [Text.beforeFirst, uncut]
      rfl
    · have cut : Text.splitFirst? separator (reservedWord ++ separator ++ rest) =
          some (reservedWord, rest) := by
        rw [List.append_assoc]
        exact Text.splitFirst?_append colon_not_mem_reservedWord rest
      rw [Text.beforeFirst, cut]
      rfl
  · intro before
    rw [Text.beforeFirst] at before
    cases cut : Text.splitFirst? separator plain with
    | none =>
      rw [cut] at before
      exact .inl before
    | some parts =>
      obtain ⟨front, rest⟩ := parts
      rw [cut] at before
      obtain rfl : front = reservedWord := before
      exact .inr ⟨rest, Text.eq_append_of_splitFirst? cut⟩

/-- The small forms of other letters play no part. -/
theorem inReserved_of_lowers {cs small : List Char} (lowers : Text.Lowers cs small) :
    InReserved small ↔ InReserved (Text.lower cs) := by
  have word : ∀ c ∈ reservedWord, Text.IsOwn c := by simp [reservedWord, Text.IsOwn]
  have stem : ∀ c ∈ reservedWord ++ separator, Text.IsOwn c := by
    simp [reservedWord, separator, Text.IsOwn]
  have prefixed : ∀ plain : List Char,
      (∃ rest, plain = reservedWord ++ separator ++ rest) ↔ reservedWord ++ separator <+: plain :=
    fun plain => exists_congr fun rest => eq_comm
  rw [InReserved, InReserved, prefixed, prefixed]
  exact or_congr (lowers.eq_or_begins_iff word).1 (lowers.eq_or_begins_iff stem).2

theorem isReserved_of_respells {identifier other : String}
    (respells : Text.Respells identifier.toList other.toList) :
    isReserved other = isReserved identifier := by
  rw [Bool.eq_iff_iff, isReserved_iff, isReserved_iff, normalized, normalized,
    Text.respells_iff.mp respells]

/-- What is built on a reserved identifier is reserved. -/
theorem isReserved_append {identifier : String} (reserved : isReserved identifier = true)
    (rest : String) : isReserved (identifier ++ "::" ++ rest) = true := by
  have plain : normalized "::".toList = separator := by decide
  rw [isReserved_iff] at reserved ⊢
  rw [String.toList_append, String.toList_append, normalized_append, normalized_append, plain]
  exact reserved.extend _

/-- **Reserved identifiers in any spelling.** An identifier is reserved just if the reserved word
stands before its first separator, with the blanks dropped before and the letters made small, which
may be the ASCII letters alone or all letters that have a small form. It stays so in any other
spelling, with blanks inserted or removed anywhere and with ASCII letters in another case, and with
anything behind one more separator. The name of an action is reserved if the type is that it is
split into. -/
theorem isReserved_spellings (identifier : String) :
    (isReserved identifier = true ↔
      Text.beforeFirst separator (normalized identifier.toList) = reservedWord) ∧
    (∀ small, Text.Lowers (Text.squeeze identifier.toList) small →
      (isReserved identifier = true ↔ Text.beforeFirst separator small = reservedWord)) ∧
    (∀ other : String, Text.Respells identifier.toList other.toList →
      isReserved other = isReserved identifier) ∧
    (isReserved identifier = true → ∀ rest, isReserved (identifier ++ "::" ++ rest) = true) ∧
    ∀ type id, Resolution.splitAction identifier = .ok (type, id) →
      isReserved type = true → isReserved identifier = true := by
  have inAny : ∀ small, Text.Lowers (Text.squeeze identifier.toList) small →
      (isReserved identifier = true ↔ Text.beforeFirst separator small = reservedWord) := by
    intro small lowers
    rw [← inReserved_iff_beforeFirst, inReserved_of_lowers lowers, isReserved_iff, normalized]
  exact ⟨inAny _ (Text.lowers_lower _), inAny, fun _ => isReserved_of_respells,
    isReserved_append, fun _ _ => Resolution.isReserved_of_splitAction⟩

/-- An action of the platform, with a blank in the word and in the separator, another letter that
has a small form and three colons in a row. -/
theorem isReserved_of_brokenSeparator :
    Text.Lowers (Text.squeeze "ZT Auth: :É:::Read".toList) "ztauth::é:::read".toList ∧
    Text.beforeFirst separator "ztauth::é:::read".toList = reservedWord ∧
    Text.Respells "ZT Auth: :É:::Read".toList "ztauth::É:::READ".toList ∧
    Resolution.splitAction "ZT Auth: :É:::Read" = .ok ("ZT Auth: :É:::Action", "Read") ∧
    isReserved "ZT Auth: :É:::Action" = true ∧ isReserved "ZT Auth: :É:::Read" = true ∧
    isReserved "ztauth::É:::READ" = true ∧
    isReserved ("ZT Auth: :É:::Read" ++ "::" ++ "42") = true := by
  have squeezed : Text.squeeze "ZT Auth: :É:::Read".toList =
      "ZTAuth::".toList ++ ('É' :: ":::Read".toList) := by decide
  have small : "ztauth::é:::read".toList =
      Text.lower "ZTAuth::".toList ++ ('é' :: ([] ++ Text.lower ":::Read".toList)) := by decide
  have free : ∀ e ∈ ['é'], e.toNat < 128 → e = 'i' ∨ e = 'k' :=
    List.forall_mem_singleton.mpr fun below => absurd below (by decide)
  have lowers : Text.Lowers (Text.squeeze "ZT Auth: :É:::Read".toList)
      "ztauth::é:::read".toList := by
    rw [squeezed, small]
    exact (Text.lowers_lower _).append (.foreign (by decide) free (Text.lowers_lower _))
  have respells : Text.Respells "ZT Auth: :É:::Read".toList "ztauth::É:::READ".toList :=
    Text.respells_iff.mpr (by decide)
  have split : Resolution.splitAction "ZT Auth: :É:::Read" =
      .ok ("ZT Auth: :É:::Action", "Read") := by decide
  have type : isReserved "ZT Auth: :É:::Action" = true :=
    (isReserved_spellings "ZT Auth: :É:::Action").1.mpr (by decide)
  obtain ⟨-, inAny, spelled, built, derived⟩ := isReserved_spellings "ZT Auth: :É:::Read"
  have reserved := derived _ _ split type
  exact ⟨lowers, (inAny _ lowers).mp reserved, respells, split, type, reserved,
    (spelled _ respells).trans reserved, built reserved "42"⟩

end PolicyLedger
