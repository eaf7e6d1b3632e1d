/-
**The identity of a policy.**

The id that is generated for a policy is put behind its annotations (`stored_of_unnamed`), but a
policy with the same id in its source is stored with all annotations in the order of their keys
(`stored_of_named`). So the two are stored as the same bytes just if the other annotations have keys
before the one of the id (`storedBytes_exported_eq_iff`), and in any case as many bytes, so that
either both become objects or both are refused (`agree_makeObject`).

`agree_withId` puts this together: writing the generated id into a statement leaves the policy its
object just if no other annotation sorts behind the id.
-/

import PolicyLedger.Proofs.Authoring.ExportRoundTrip
import PolicyLedger.Proofs.Object.Puts
import PolicyLedger.Proofs.Policy.Annotated

namespace PolicyLedger

/-- The objects of a policy are the same only if they list the same annotations in the same
order. -/
theorem Policy.keys_of_annotated {policy : Policy} {rows others : List (String × Option String)}
    (same : policy.annotated rows = policy.annotated others) :
    rows.map Prod.fst = others.map Prod.fst := by
  rw [annotated, annotated] at same
  have members := List.append_cancel_left (Json.object.inj same)
  have annotations := Json.object.inj (Prod.mk.inj (List.cons.inj members).1).2
  have keys := congrArg (List.map Prod.fst) annotations
  rwa [annotationMembers, annotationMembers, List.map_map, List.map_map] at keys

namespace Authoring

/-! ### Stored bytes -/

/-- All annotations of a policy have keys before the one of an id. -/
def IdSortsLast (policy : Policy) : Prop := ∀ row ∈ policy.annotations.rows, row.1 < idAnnotation

instance (policy : Policy) : Decidable (IdSortsLast policy) :=
  inferInstanceAs (Decidable (∀ row ∈ policy.annotations.rows, _))

/-- Plain values are stored as the same bytes only if they are the same. -/
theorem ofText_compact_injective {value other : Json} (plain : value.IsPlain)
    (plainOther : other.IsPlain)
    (same : Bytes.ofText value.compact = Bytes.ofText other.compact) : value = other := by
  have read := Bytes.toText?_ofText value.compact
  rw [same, Bytes.toText?_ofText] at read
  exact Json.compact_injective plain.1 plainOther.1 (Option.some.inj read).symm

/-- A policy without an id of its own is stored as it is with the id in its source just if the id
sorts behind its annotations. -/
theorem storedBytes_exported_eq_iff {named : NamedPolicy} (proper : named.IsProper)
    (unnamed : named.policy.annotations.get? idAnnotation = none) :
    storedBytes named.exported = storedBytes named ↔ IdSortsLast named.policy := by
  have behind := stored_of_unnamed unnamed
  have sorted : Json.object (storedMembers named.exported) =
      named.policy.annotated named.carried.annotations.rows :=
    stored_of_named named.get?_carried
  constructor
  · intro same
    obtain ⟨_, stored, distinct, -⟩ := exists_rows proper
    obtain ⟨_, storedSorted, distinctSorted, -⟩ :=
      exists_rows (NamedPolicy.isProper_exported proper)
    have plain := stored ▸ Policy.isPlain_annotated proper.policy distinct
    have plainSorted := storedSorted ▸
      Policy.isPlain_annotated (NamedPolicy.isProper_carried proper.policy) distinctSorted
    have values := ofText_compact_injective plainSorted plain same
    rw [sorted, behind] at values
    -- the sorted keys are the keys in their order with the one of the id behind them
    have keys := Policy.keys_of_annotated values
    rw [List.map_append] at keys
    exact KeyMap.keys_insert_eq_append_iff.mp keys
  · intro last
    have rows : named.carried.annotations.rows =
        named.policy.annotations.rows ++ [named.nameRow] :=
      KeyMap.place_eq_append last
    rw [storedBytes, storedBytes, sorted, behind, rows]

/-! ### Objects -/

/-- Payloads of the same length are framed or refused alike. -/
theorem frame_of_length (kind : ObjectKind) {payload other : Bytes}
    (long : other.length = payload.length) :
    (∃ error, Object.frame kind payload = .error error ∧ Object.frame kind other = .error error) ∨
      ∃ made again, Object.frame kind payload = .ok made ∧ Object.frame kind other = .ok again := by
  rw [Object.frame, Object.frame]
  by_cases fits : payload.length < 4294967296
  · exact .inr ⟨_, _, dif_pos fits, dif_pos (long ▸ fits)⟩
  · exact .inl ⟨_, dif_neg fits, (dif_neg (long ▸ fits)).trans (by rw [long])⟩

/-- Two outcomes are the same refusal, or objects that are listed alike and have the same bytes just
if something holds. -/
inductive Agree (same : Prop) :
    Except Error (Object × SectionMeta) → Except Error (Object × SectionMeta) → Prop
  | refused (error : Error) : Agree same (.error error) (.error error)
  | made {object other : Object} {info : SectionMeta}
    (bytes : other.content = object.content ↔ same)
    (oid : Object.NoCollision [object, other] → (other.oid = object.oid ↔ same)) :
    Agree same (.ok (object, info)) (.ok (other, info))

/-- Objects that are the same just if something holds agree. -/
theorem Agree.of_eq_iff {same : Prop} {object other : Object} {info : SectionMeta}
    (equal : other = object ↔ same) : Agree same (.ok (object, info)) (.ok (other, info)) := by
  refine .made ⟨fun bytes => equal.mp (Object.content_injective bytes),
    fun holds => congrArg Object.content (equal.mpr holds)⟩ fun free => ⟨fun oids => ?_,
    fun holds => congrArg Object.oid (equal.mpr holds)⟩
  exact equal.mp (free.eq_of_oid List.mem_cons_self (by simp) oids)

/-- Data of the same length become objects with the same bytes just if they are the same. -/
theorem agree_makeObject (spec : Specification) (partition codeId : String) (codeType : CodeType)
    {data other : Bytes} (filled : data ≠ []) (long : other.length = data.length) :
    Agree (other = data) (makeObject spec partition codeId codeType data)
      (makeObject spec partition codeId codeType other) := by
  have filledOther : other ≠ [] := fun empty => filled <|
    List.length_eq_zero_iff.mp (long ▸ List.length_eq_zero_iff.mpr empty)
  rw [makeObject, makeObject, Blob.toObject, Blob.toObject, if_neg (by simpa using filled),
    if_neg (by simpa using filledOther)]
  cases (spec.header codeId codeType).validate with
  | error error => exact .refused error
  | ok valid =>
    have length : ((spec.header codeId codeType).encode ++ other).length =
        ((spec.header codeId codeType).encode ++ data).length := by
      rw [List.length_append, List.length_append, long]
    obtain ⟨error, refused, refusedOther⟩ | ⟨object, again, framed, framedOther⟩ :=
      frame_of_length .blob length
    · show Agree _ (Object.frame .blob _ >>= _) (Object.frame .blob _ >>= _)
      rw [refused, refusedOther]
      exact .refused error
    · show Agree _ (Object.frame .blob _ >>= _) (Object.frame .blob _ >>= _)
      rw [framed, framedOther]
      refine .of_eq_iff ⟨fun same => ?_, fun same => ?_⟩
      · have payload := (Object.frame_eq_ok_iff.mp framed).2
        have payloadOther := (Object.frame_eq_ok_iff.mp framedOther).2
        rw [same, payload] at payloadOther
        exact (List.append_cancel_left payloadOther).symm
      · rw [same, framed] at framedOther
        exact (Except.ok.inj framedOther).symm

/-! ### Identity -/

/-- A statement with an id in front. -/
def withId (id : String) (statement : List Char) : List Char :=
  '@' :: (String.toList idAnnotation ++ '(' :: '"' :: (id.toList ++ '"' :: ')' :: statement))

/-- A digit of an id needs no escape. -/
theorem plain_of_isDigit {c : Char} (digit : ObjectId.isDigit c = true) :
    c ≠ '"' ∧ c ≠ '\\' ∧ c ≠ '\r' := by
  refine ⟨?_, ?_, ?_⟩ <;> rintro rfl <;> exact absurd digit (by decide)

/-- A statement with a generated id in front is read as the policy that carries the id. -/
theorem parse?_withId {statement : List Char} {policy : Policy} {id : String}
    (parsed : Policy.parse? statement = some policy)
    (unnamed : policy.annotation? idAnnotation = none) (generated : IsGeneratedId id) :
    Policy.parse? (withId id statement) = some (NamedPolicy.carried ⟨policy, id⟩) := by
  have fresh : policy.annotations.contains idAnnotation = false :=
    congrArg Option.isSome (Option.map_eq_none_iff.mp unnamed)
  have forms : Policy.Forms id.toList id.toList :=
    .of_plain fun c inside => plain_of_isDigit (generated.2 c inside)
  exact Policy.parse?_annotate parsed (by decide) fresh forms

/-- Statements that name policies with the same id are both refused, or both become objects of what
is stored for their policies. -/
theorem agree_section? (spec : Specification) (partition : String) (met : List String)
    {statement written : List Char} {given other : String} {named again : NamedPolicy}
    (names : Names statement given named) (namesAgain : Names written other again)
    (codeId : again.codeId = named.codeId)
    (long : (storedBytes again).length = (storedBytes named).length) :
    (section? spec partition met written other).1 =
        (section? spec partition met statement given).1 ∧
      Agree (storedBytes again = storedBytes named) (section? spec partition met statement given).2
        (section? spec partition met written other).2 := by
  simp only [section?, readStatement_eq_ok_iff.mpr names, readStatement_eq_ok_iff.mpr namesAgain,
    codeId]
  by_cases known : met.contains named.codeId = true
  · rw [if_pos known, if_pos known]
    exact ⟨rfl, .refused _⟩
  · rw [if_neg known, if_neg known]
    exact ⟨rfl, agree_makeObject spec partition _ .policy (storedBytes_ne_nil named) long⟩

/-- A policy becomes an object just if its id is new and its blob fits a frame. -/
theorem isOk_section?_iff {spec : Specification} (partition : String) {met : List String}
    {statement : List Char} {given : String} {named : NamedPolicy}
    (names : Names statement given named) (codeId : IsCodeId named.codeId) :
    (section? spec partition met statement given).2.isOk = true ↔
      named.codeId ∉ met ∧ Fits (named.blob spec) := by
  simp only [section?, readStatement_eq_ok_iff.mpr names]
  by_cases known : named.codeId ∈ met
  · rw [if_pos (by simpa using known)]
    exact iff_of_false Bool.false_ne_true fun both => both.1 known
  · rw [if_neg (by simpa using known)]
    refine Iff.trans ⟨fun built => ?_, fun fits => ?_⟩ (and_iff_right known).symm
    · cases made : makeObject spec partition named.codeId .policy (storedBytes named) with
      | error error =>
        rw [made] at built
        cases built
      | ok made =>
        obtain ⟨object, stored, -⟩ := Steps.bind_eq_ok.mp made
        exact Blob.fits_of_ofObject (Blob.ofObject_of_content (Blob.content_of_toObject stored))
    · obtain ⟨object, info, made, -⟩ := exists_makeObject partition 0 names codeId fits
      rw [made]
      rfl

/-- **The identity of a policy.** A statement without an id of its own, with the generated id written
in front, is read as the same policy with the id. The first one becomes an object just if its id is
new and its blob fits a frame. Every statement that is read as the other policy is refused if the
first one is, with the same error, and otherwise they both become objects that are listed alike. The
two have the same bytes, and the same id unless the digests collide, just if all other annotations
have keys before the one of the id. -/
theorem agree_withId {statement : List Char} {policy : Policy} {id : String}
    (parsed : Policy.parse? statement = some policy)
    (unnamed : policy.annotation? idAnnotation = none) (generated : IsGeneratedId id) :
    Policy.parse? (withId id statement) = some (NamedPolicy.carried ⟨policy, id⟩) ∧
      ∀ written, Policy.parse? written = some (NamedPolicy.carried ⟨policy, id⟩) →
        ∀ spec partition met other,
          ((section? spec partition met statement id).2.isOk = true ↔
            id ∉ met ∧ Fits (NamedPolicy.blob spec ⟨policy, id⟩)) ∧
          (section? spec partition met written other).1 =
            (section? spec partition met statement id).1 ∧
          Agree (IdSortsLast policy) (section? spec partition met statement id).2
            (section? spec partition met written other).2 := by
  refine ⟨parse?_withId parsed unnamed generated, ?_⟩
  intro written readWritten spec partition met other
  have missing : policy.annotations.get? idAnnotation = none := Option.map_eq_none_iff.mp unnamed
  have proper : NamedPolicy.IsProper ⟨policy, id⟩ :=
    ⟨Policy.Parser.isProper_of_parse? parsed, .inl missing⟩
  have bears : NamedPolicy.BearsId (NamedPolicy.exported ⟨policy, id⟩) :=
    NamedPolicy.bearsId_exported (check_of_generated generated)
  have first : Names statement id ⟨policy, id⟩ := .given parsed unnamed
  have second : Names written other (NamedPolicy.exported ⟨policy, id⟩) :=
    .own readWritten bears.annotated bears.checked
  refine ⟨isOk_section?_iff partition first (isCodeId_of_check (check_of_generated generated)), ?_⟩
  rw [← storedBytes_exported_eq_iff proper missing]
  exact agree_section? spec partition met first second rfl
    (NamedPolicy.length_storedBytes_exported proper)

/-- A generated id. -/
def hexId : String := "0123456789abcdef0123456789abcdef"

/-- A statement with one annotation. -/
def euStatement (key : String) : List Char :=
  '@' :: (key.toList ++ "(\"eu\") permit(principal, action, resource);".toList)

/-- The policy of this statement. -/
def euPolicy (key : String) : Policy := openPolicy .permit (.insert .empty key (some "eu"))

/-- An annotation that sorts before the id leaves the policy its object. -/
theorem agree_withId_of_area :
    Policy.parse? (euStatement "area") = some (euPolicy "area") ∧
      (euPolicy "area").annotation? idAnnotation = none ∧ IsGeneratedId hexId ∧
      (section? .cedar "/" ["b"] (euStatement "area") hexId).2.isOk = true ∧
      Agree True (section? .cedar "/" ["b"] (euStatement "area") hexId).2
        (section? .cedar "/" ["b"] (withId hexId (euStatement "area")) "").2 := by
  have parsed : Policy.parse? (euStatement "area") = some (euPolicy "area") := rfl
  have unnamed : (euPolicy "area").annotation? idAnnotation = none := by decide
  have last : IdSortsLast (euPolicy "area") := by decide
  have fits : Fits (NamedPolicy.blob .cedar ⟨euPolicy "area", hexId⟩) := by decide +kernel
  obtain ⟨read, agree⟩ := agree_withId parsed unnamed isGeneratedId_digits
  obtain ⟨built, -, same⟩ := agree _ read .cedar "/" ["b"] ""
  rw [eq_true last] at same
  exact ⟨parsed, unnamed, isGeneratedId_digits, built.mpr ⟨by decide, fits⟩, same⟩

/-- The object for some stored policy with the generated id. -/
def hexObject (data : Bytes)
    (fits : ((Specification.cedar.header hexId .policy).encode ++ data).length < 4294967296) :
    Object where
  kind := .blob
  payload := (Specification.cedar.header hexId .policy).encode ++ data
  fits := fits

/-- The object of the policy that is given the id. -/
def zoneObject : Object := hexObject (storedBytes ⟨euPolicy "zone", hexId⟩) (by decide +kernel)

/-- The object of the policy with the id in its source. -/
def zoneObjectWithId : Object :=
  hexObject (storedBytes (NamedPolicy.exported ⟨euPolicy "zone", hexId⟩)) (by decide +kernel)

/-- An annotation that sorts behind the id makes the policy another object. -/
theorem identity_lost_of_zone :
    ∃ made again info,
      ([hexId], .ok (made, info)) = section? .cedar "/" [] (euStatement "zone") hexId ∧
      ([hexId], .ok (again, info)) =
        (section? .cedar "/" [] (withId hexId (euStatement "zone")) hexId) ∧
      again.content ≠ made.content ∧ again.oid ≠ made.oid := by
  have oid : zoneObject.oid =
      ⟨"973a8f76eb3f7d3e6853830ddaf60c8818c3c4d623eb3fcb9b577f2c1ade2cbe"⟩ := by decide +kernel
  have oidWithId : zoneObjectWithId.oid =
      ⟨"f40546477ad7743039168f77c7ce4dec3e4b5b7e311a01dff0510e2e5de64c03"⟩ := by decide +kernel
  have other : zoneObjectWithId.oid ≠ zoneObject.oid := by
    rw [oid, oidWithId]
    decide
  refine ⟨zoneObject, zoneObjectWithId, Specification.cedar.sectionMeta "/" hexId .policy, ?_, ?_,
    fun same => other (congrArg ObjectId.of same), other⟩
  · decide +kernel
  · decide +kernel

end Authoring

end PolicyLedger
