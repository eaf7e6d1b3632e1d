/-
**Broken policies beside others.**

A text that is no policy leaves its siblings alone just if the cut ends it at its semicolon
(`isIsolated_iff`). An unbalanced bracket or a missing comma does no harm, but a text with a
quotation mark that is not closed takes the policies behind it along
(`sibling_lost_of_openQuote`).
-/

import PolicyLedger.Proofs.Authoring.Slots

namespace PolicyLedger

namespace Policy

/-! ### Gaps in front -/

namespace Skips

theorem trans {cs rest begin : List Char} (first : Skips cs rest) (second : Skips rest begin) :
    Skips cs begin := by
  induction first with
  | stop => exact second
  | blank white _ ih => exact .blank white (ih second)
  | comment inside ended _ ih => exact .comment inside ended (ih second)

/-- A gap with a line feed behind it is one in front of anything. -/
theorem lineFeed {gap : List Char} (skips : Skips gap []) (rest : List Char) :
    Skips (gap ++ '\n' :: rest) rest := by
  generalize empty : ([] : List Char) = left at skips
  induction skips with
  | stop cs =>
    subst empty
    exact .blank (by decide) (.stop rest)
  | blank white _ ih => exact .blank white (ih empty)
  | @comment body after left inside ended _ ih =>
    rw [List.cons_append, List.cons_append, List.append_assoc]
    refine .comment inside (fun c first => ?_) (ih empty)
    cases after with
    | nil => exact Option.some.inj first ▸ rfl
    | cons d after => exact ended c first

/-- The reader skips a gap and goes on behind it. -/
theorem exists_skip_eq {cs rest : List Char} (skips : Skips cs rest) :
    ∃ more, ∀ fuel, Token.skip (fuel + more + 1) cs = Token.skip (fuel + 1) rest := by
  induction skips with
  | stop cs => exact ⟨0, fun _ => rfl⟩
  | @blank c cs rest white _ ih =>
    obtain ⟨more, same⟩ := ih
    exact ⟨more, fun fuel => (Token.skip_blank _ cs white).trans (same fuel)⟩
  | @comment body after rest inside ended _ ih =>
    obtain ⟨more, same⟩ := ih
    refine ⟨more + 1, fun fuel => ?_⟩
    rw [← Nat.add_assoc, Token.skip_comment_append _ inside ended]
    exact same fuel

/-- What a reader meets behind two gaps of one row is behind the shorter one. -/
theorem of_both {cs rest begin : List Char} (shorter : Skips cs rest) (longer : Skips cs begin)
    (atToken : begin = [] ∨ ∃ read, Token.next? begin = some read) : Skips rest begin := by
  obtain ⟨more, same⟩ := shorter.exists_skip_eq
  have read := longer.skip_eq atToken (cs.length + more) (Nat.le_add_right _ _)
  rw [same] at read
  exact read ▸ .of_skip _ rest

/-- A gap in front does not matter to the tokens. -/
theorem lexes_iff {cs rest : List Char} (skips : Skips cs rest) {tokens : List Token} :
    Lexes cs tokens ↔ Lexes rest tokens := by
  constructor
  · intro lexes
    cases lexes with
    | done all => exact .done (skips.of_both all (.inl rfl))
    | token gap read lexes => exact .token (skips.of_both gap (.inr ⟨_, read⟩)) read lexes
  · intro lexes
    cases lexes with
    | done all => exact .done (skips.trans all)
    | token gap read lexes => exact .token (skips.trans gap) read lexes

theorem parse?_eq {cs rest : List Char} (skips : Skips cs rest) : parse? cs = parse? rest := by
  have same : tokens? cs = tokens? rest := Option.ext fun tokens =>
    tokens?_eq_some_iff.trans (skips.lexes_iff.trans tokens?_eq_some_iff.symm)
  rw [parse?, same, parse?]

end Skips

/-- A policy is a row of one policy. -/
theorem parseAll?_of_parse? {source : List Char} {policy : Policy}
    (parsed : parse? source = some policy) : parseAll? source = some [policy] := by
  rw [parse?] at parsed
  split at parsed
  next read found =>
    obtain rfl := Option.some.inj parsed
    obtain ⟨tokens, lexed, read⟩ := Option.bind_eq_some_iff.mp found
    rw [parseAll?, lexed, Option.bind_some]
    cases tokens with
    | nil => cases read
    | cons token tokens =>
      rw [Parser.policies?, read]
      · rfl
      · exact List.cons_ne_nil _ _
  · cases parsed

end Policy

namespace Statements

open Policy (Skips)

/-! ### The cut of joined texts -/

/-- A line without code passes the cut with its line feed. -/
theorem cutWhere_of_line_lineFeed {line : List Char} (free : '\n' ∉ line)
    (blank : lineHasCode line = false) (rest : List Char) :
    cutWhere (· == '\n') .code (line ++ '\n' :: rest) =
      prependAll (line ++ ['\n']) (cutWhere (· == '\n') .code rest) := by
  have ended : ∀ c, ('\n' :: rest).head? = some c → (c == '\n') = true := by
    intro c first
    rw [← Option.some.inj first]
    rfl
  rw [cutWhere_of_line free blank ended, cutWhere_of_isPlain (by decide), prependAll_append]
  rfl

theorem cutWhere_of_lines_lineFeed {lines : List (List Char)} (free : ∀ line ∈ lines, '\n' ∉ line)
    (blank : ∀ line ∈ lines, lineHasCode line = false) (rest : List Char) :
    cutWhere (· == '\n') .code (Text.join '\n' lines ++ '\n' :: rest) =
      prependAll (Text.join '\n' lines ++ ['\n']) (cutWhere (· == '\n') .code rest) := by
  induction lines with
  | nil => exact cutWhere_of_line_lineFeed List.not_mem_nil lineHasCode_nil rest
  | cons line lines ih =>
    rw [List.forall_mem_cons] at free blank
    cases lines with
    | nil => exact cutWhere_of_line_lineFeed free.1 blank.1 rest
    | cons other others =>
      rw [Text.join, List.append_assoc, List.cons_append,
        cutWhere_of_line_lineFeed free.1 blank.1, ih free.2 blank.2, ← prependAll_append]
      simp only [List.append_assoc, List.cons_append, List.nil_append]

/-- A gap passes the cut with a line feed behind it. -/
theorem cut_of_gap_lineFeed {gap : List Char} (blank : hasCode gap = false) (rest : List Char) :
    cut .code (gap ++ '\n' :: rest) = prependAll (gap ++ ['\n']) (cut .code rest) := by
  rw [hasCode, List.any_eq_false] at blank
  have passed := cutWhere_of_lines_lineFeed (fun _ => @Text.not_mem_of_mem_pieces _ gap _)
    (fun line inside => Bool.eq_false_iff.mpr (blank line inside)) rest
  rw [Text.join_pieces] at passed
  rw [cut_eq_cutWhere, passed, cut_eq_cutWhere]

/-- A text is a part that the cut ends at its semicolon, and a gap. -/
structure Closes (text part : List Char) : Prop where
  gap : ∃ gap, text = part ++ gap ∧ Skips gap []
  ended : cut .code part = [part, []]
  last : part.getLast? = some ';'

/-- A piece of a joined source is a part with a gap in front. -/
def Leads (part piece : List Char) : Prop :=
  ∃ lead, piece = lead ++ part ∧ ∀ rest, Skips (lead ++ rest) rest

/-- Joined texts are cut where each of them ends. -/
theorem cut_join {texts parts : List (List Char)} (closes : List.Forall₂ Closes texts parts)
    (nonempty : texts ≠ []) :
    ∃ pieces gap, cut .code (Text.join '\n' texts) = pieces ++ [gap] ∧ hasCode gap = false ∧
      List.Forall₂ Leads parts pieces := by
  induction closes with
  | nil => exact absurd rfl nonempty
  | @cons text part texts parts first others ih =>
    obtain ⟨gap, rfl, skips⟩ := first.gap
    have blank := hasCode_of_skips skips
    cases others with
    | nil =>
      refine ⟨[part], gap, ?_, blank, .cons ⟨[], rfl, fun rest => .stop rest⟩ .nil⟩
      rw [Text.join, cut_append_of_ended first.ended, cut_of_hasCode blank]
      rfl
    | @cons next nextPart texts parts second others =>
      obtain ⟨pieces, final, cuts, blankEnd, leads⟩ := ih (List.cons_ne_nil _ _)
      obtain ⟨piece, pieces, ⟨lead, rfl, skipsLead⟩, others, rfl⟩ :=
        List.forall₂_cons_left_iff.mp leads
      refine ⟨part :: (gap ++ ['\n'] ++ (lead ++ nextPart)) :: pieces, final, ?_, blankEnd,
        .cons ⟨[], rfl, fun rest => .stop rest⟩ (.cons ?_ others)⟩
      · rw [Text.join, List.append_assoc, cut_append_of_ended first.ended,
          cut_of_gap_lineFeed blank, cuts, List.cons_append, prependAll_cons]
        rfl
      · refine ⟨gap ++ ['\n'] ++ lead, (List.append_assoc ..).symm, fun rest => ?_⟩
        have behind := (skips.lineFeed (lead ++ rest)).trans (skipsLead rest)
        simpa only [List.append_assoc, List.cons_append, List.nil_append] using behind

/-- A gap in front of a part, and trimming, do not matter to what is read. -/
theorem Leads.parse?_trim {part piece : List Char} (leads : Leads part piece)
    (last : part.getLast? = some ';') : Policy.parse? (Text.trim piece) = Policy.parse? part := by
  obtain ⟨lead, rfl, skips⟩ := leads
  have nonempty : part ≠ [] := by
    rintro rfl
    cases last
  have lastPiece : (lead ++ part).getLast? = some ';' := by
    rw [List.getLast?_append_of_ne_nil _ nonempty, last]
  have trimmed : Skips (lead ++ part) (Text.trimLeft (lead ++ part)) :=
    Skips.of_trimLeft (.stop _)
  rw [Text.trim_of_getLast? lastPiece (by decide), ← trimmed.parse?_eq, (skips part).parse?_eq]

/-- Joined texts have a statement for each of them, which is read as the text's part is. -/
theorem split_join {texts parts : List (List Char)} (closes : List.Forall₂ Closes texts parts)
    (nonempty : texts ≠ []) :
    (split (Text.join '\n' texts)).map Policy.parse? = parts.map Policy.parse? := by
  obtain ⟨pieces, gap, cuts, blank, leads⟩ := cut_join closes nonempty
  have lasts : ∀ part ∈ parts, part.getLast? = some ';' := by
    intro part inside
    obtain ⟨_, _, closed⟩ := Steps.exists_of_mem_right closes inside
    exact closed.last
  rw [split_of_blank cuts blank, List.map_map]
  clear cuts closes
  induction leads with
  | nil => rfl
  | cons first _ ih =>
    rw [List.forall_mem_cons] at lasts
    rw [List.map_cons, List.map_cons, ih lasts.2, Function.comp_apply, first.parse?_trim lasts.1]

/-- A text that is a policy ends at a semicolon, up to a gap. -/
theorem exists_closes {text : List Char} {policy : Policy}
    (parsed : Policy.parse? text = some policy) (aligned : cut .code text = lexicalCut text) :
    ∃ part, Closes text part ∧ Policy.parse? part = some policy := by
  obtain ⟨parts, gap, whole, skips, related⟩ :=
    lexicalCut_of_parseAll? (Policy.parseAll?_of_parse? parsed)
  obtain ⟨part, _, isPolicy, ended, rfl⟩ := List.forall₂_cons_right_iff.mp related
  cases ended
  have cuts : cut .code text = [part, gap] := aligned.trans whole
  obtain ⟨piece, ended, _, read⟩ := isPolicy
  refine ⟨part, ⟨⟨gap, ?_, skips⟩, (cut_eq_cons cuts).1, ended.last⟩, ?_⟩
  · have flat := flatten_cut .code text
    rw [cuts] at flat
    simpa using flat.symm
  · have lexes := ended.lexes (.done (.stop []))
    rw [List.append_nil] at lexes
    rw [Policy.parse?, Policy.tokens?_eq_some_iff.mpr lexes, Option.bind_some, read]

end Statements

/-! ### Files with a broken policy -/

namespace Authoring

open Statements (Closes)

/-- A text that is a policy with an id, and that the cut ends where its tokens do. -/
structure Sibling where
  text : List Char
  named : NamedPolicy
  parsed : Policy.parse? text = some named.policy
  annotated : named.policy.annotation? idAnnotation = some named.codeId
  checked : PolicyName.check named.codeId = .ok ()
  aligned : Statements.cut .code text = Statements.lexicalCut text

/-- A text that is no policy, with a semicolon at its end only. -/
structure Malformed (text : List Char) : Prop where
  unread : Policy.parse? text = none
  semicolon : ∃ front, text = front ++ [';'] ∧ ';' ∉ front

/-- A malformed text among its siblings. -/
def entries (front back : List Sibling) : List (Option Sibling) :=
  front.map some ++ none :: back.map some

/-- The text of an entry. -/
def entryText (malformed : List Char) : Option Sibling → List Char
  | none => malformed
  | some sibling => sibling.text

/-- The policy of an entry. -/
def entryPolicy? (entry : Option Sibling) : Option Policy :=
  entry.map fun sibling => sibling.named.policy

/-- The texts of a file, one after the other, with a line feed between two of them. -/
def siblingFile (malformed : List Char) (front back : List Sibling) : String :=
  String.ofList (Text.join '\n' ((entries front back).map (entryText malformed)))

/-- A slot holds an error for the malformed text and the object of its policy for a sibling. -/
def Keeps (spec : Specification) (index : Nat) (slot : Option (Option Section)) :
    Option Sibling → Prop
  | none => ∃ error, slot = some (some (.error error))
  | some sibling => ∃ made, slot = some (some (.ok made)) ∧
    Records spec index sibling.text sibling.named made

/-- A malformed text leaves its siblings alone, whatever they are and wherever it stands. -/
def IsIsolated (malformed : List Char) : Prop :=
  ∀ (front back : List Sibling), ((front ++ back).map (·.named.codeId)).Nodup →
    ∀ (spec : Specification) (generated : Nat → String) (partition path extension : String),
      (∀ sibling ∈ front ++ back, Fits (sibling.named.blob spec)) →
      extension ∈ spec.policyFileExtensions ∧ FilePath.hasExtension path extension = true →
      ∃ sections, policyFile spec generated partition path
          (Bytes.ofText (siblingFile malformed front back)) = .ok sections ∧
        sections.slots.length = (entries front back).length ∧
        ∀ index entry, (entries front back)[index]? = some entry →
          Keeps spec index sections.slots[index]? entry

namespace Sibling

/-- What is read as an entry's policy names just this policy. -/
theorem names_iff {statement : List Char} {given : String} {named : NamedPolicy}
    {entry : Option Sibling}
    (parsed : Policy.parse? statement = entryPolicy? entry) :
    Names statement given named ↔ ∃ sibling, entry = some sibling ∧ sibling.named = named := by
  constructor
  · intro names
    obtain ⟨sibling, rfl, same⟩ := Option.map_eq_some_iff.mp (parsed.symm.trans names.parsed)
    refine ⟨sibling, rfl, ?_⟩
    have annotated := sibling.annotated
    rw [same] at annotated
    cases names with
    | own _ found _ =>
      have codeId := Option.some.inj (annotated.symm.trans found)
      exact congrArg₂ NamedPolicy.mk same codeId
    | given _ missing =>
      rw [missing] at annotated
      cases annotated
  · rintro ⟨sibling, rfl, rfl⟩
    exact .own parsed sibling.annotated sibling.checked

theorem records {spec : Specification} {index : Nat} {statement : List Char} (sibling : Sibling)
    {made : SectionObject} (parsed : Policy.parse? statement = some sibling.named.policy)
    (records : Records spec index statement sibling.named made) :
    Records spec index sibling.text sibling.named made := by
  have form := records.form
  rw [storedForm?, parsed, ← sibling.parsed] at form
  exact { records with form := form }

end Sibling

/-! ### Isolated texts -/

theorem filterMap_entries (front back : List Sibling) :
    (entries front back).filterMap id = front ++ back := by
  simp [entries, List.filterMap_append]

/-- No two siblings of a file have one id. -/
theorem ne_of_position {front back : List Sibling}
    (distinct : ((front ++ back).map (·.named.codeId)).Nodup) {first second : Nat}
    {one other : Sibling} (less : first < second)
    (atFirst : (entries front back)[first]? = some (some one))
    (atSecond : (entries front back)[second]? = some (some other)) :
    one.named.codeId ≠ other.named.codeId := by
  rw [List.nodup_iff_pairwise_ne, List.pairwise_map, ← filterMap_entries, List.pairwise_filterMap,
    List.pairwise_iff_getElem] at distinct
  obtain ⟨inFirst, foundFirst⟩ := List.getElem?_eq_some_iff.mp atFirst
  obtain ⟨inSecond, foundSecond⟩ := List.getElem?_eq_some_iff.mp atSecond
  exact distinct first second inFirst inSecond less one foundFirst other foundSecond

/-- The texts of a file are read as the policies of the siblings. -/
theorem map_parse?_siblingFile {malformed : List Char} (bad : Malformed malformed)
    (ended : Statements.cut .code malformed = [malformed, []]) (front back : List Sibling) :
    (Statements.split (siblingFile malformed front back).toList).map Policy.parse? =
      (entries front back).map entryPolicy? := by
  have closes : ∀ entry, ∃ part, Closes (entryText malformed entry) part ∧
      Policy.parse? part = entryPolicy? entry := by
    intro entry
    cases entry with
    | none =>
      obtain ⟨before, whole, _⟩ := bad.semicolon
      have last : malformed.getLast? = some ';' := by rw [whole, List.getLast?_concat]
      exact ⟨malformed, ⟨⟨[], (List.append_nil _).symm, .stop []⟩, ended, last⟩, bad.unread⟩
    | some sibling => exact Statements.exists_closes sibling.parsed sibling.aligned
  choose part closes parsed using closes
  have related : List.Forall₂ Closes ((entries front back).map (entryText malformed))
      ((entries front back).map part) := by
    rw [List.forall₂_map_left_iff, List.forall₂_map_right_iff]
    exact List.forall₂_same.mpr fun entry _ => closes entry
  have nonempty : (entries front back).map (entryText malformed) ≠ [] := by simp [entries]
  rw [siblingFile, String.toList_ofList, Statements.split_join related nonempty, List.map_map]
  exact List.map_congr_left fun entry _ => parsed entry

/-- What a statement of a file becomes if the statements are read as the policies of the siblings:
an object with the sibling's policy, or an error for the malformed text. -/
theorem keeps_of_parsed {statements : List (List Char)} {front back : List Sibling}
    (parsed : statements.map Policy.parse? =
      (entries front back).map entryPolicy?)
    (distinct : ((front ++ back).map (·.named.codeId)).Nodup) {spec : Specification}
    (generated : Nat → String) (partition path : String)
    (fits : ∀ sibling ∈ front ++ back, Fits (sibling.named.blob spec)) {index : Nat}
    {entry : Option Sibling} (there : (entries front back)[index]? = some entry) :
    Keeps spec index
      (fill path (outcomes spec partition generated 0 [] statements)).slots[index]? entry := by
  have statementOf : ∀ {index : Nat} {entry : Option Sibling},
      (entries front back)[index]? = some entry → ∃ statement, statements[index]? = some statement ∧
        Policy.parse? statement = entryPolicy? entry := by
    intro index entry there
    have found := congrArg (·[index]?) parsed
    simp only [List.getElem?_map, there, Option.map_some] at found
    exact Option.map_eq_some_iff.mp found
  obtain ⟨statement, found, read⟩ := statementOf there
  have codeIds : ∀ named, Names statement (generated index) named → IsCodeId named.codeId := by
    intro named names
    obtain ⟨sibling, _, rfl⟩ := (Sibling.names_iff read).mp names
    exact isCodeId_of_check sibling.checked
  have small : ∀ named, IsFirst statements generated index named → Fits (named.blob spec) := by
    intro named first
    obtain ⟨sibling, rfl, rfl⟩ := (Sibling.names_iff read).mp ((isFirst_iff found).mp first).1
    refine fits sibling ?_
    rw [← filterMap_entries]
    exact List.mem_filterMap.mpr ⟨_, List.mem_of_getElem? there, rfl⟩
  have made := outcome_of_statement partition found codeIds small
  rw [getElem?_slots_fill]
  cases entry with
  | none =>
    obtain ⟨named, _, _, first, _⟩ | ⟨_, error, failed⟩ := made
    · obtain ⟨_, impossible, _⟩ := (Sibling.names_iff read).mp ((isFirst_iff found).mp first).1
      cases impossible
    · exact ⟨error, by rw [failed]; rfl⟩
  | some sibling =>
    have isFirst : IsFirst statements generated index sibling.named := by
      refine (isFirst_iff found).mpr ⟨(Sibling.names_iff read).mpr ⟨sibling, rfl, rfl⟩, ?_⟩
      rintro ⟨earlier, less, other, named, foundOther, names, same⟩
      have inside : earlier < (entries front back).length :=
        Nat.lt_trans less (List.getElem?_eq_some_iff.mp there).1
      have thereOther := List.getElem?_eq_getElem inside
      obtain ⟨again, foundAgain, readOther⟩ := statementOf thereOther
      obtain rfl := Option.some.inj (foundOther.symm.trans foundAgain)
      obtain ⟨first, isSibling, rfl⟩ := (Sibling.names_iff readOther).mp names
      rw [isSibling] at thereOther
      exact ne_of_position distinct less thereOther there same
    obtain ⟨named, object, info, first, outcome, records⟩ | ⟨later, _⟩ := made
    · obtain ⟨_, isSibling, rfl⟩ := (Sibling.names_iff read).mp ((isFirst_iff found).mp first).1
      obtain rfl := Option.some.inj isSibling
      exact ⟨_, by rw [outcome]; rfl, sibling.records read records⟩
    · exact absurd ⟨_, isFirst⟩ later

/-- A malformed text that the cut ends is isolated. -/
theorem isIsolated_of_ended {malformed : List Char} (bad : Malformed malformed)
    (ended : Statements.cut .code malformed = [malformed, []]) : IsIsolated malformed := by
  intro front back distinct spec generated partition path extension fits policyPath
  have decoded := Bytes.toText?_ofText (siblingFile malformed front back)
  have opened := policyFile_eq_ok generated partition policyPath decoded
  have parsed := map_parse?_siblingFile bad ended front back
  refine ⟨_, opened, ?_, fun index entry there => ?_⟩
  · rw [length_slots_policyFile decoded opened]
    simpa using congrArg List.length parsed
  · exact keeps_of_parsed parsed distinct generated partition path fits there

/-! ### Texts that run on -/

/-- A text with a semicolon at its end is ended there, or the cut leaves it in a text, an escape or
a comment. -/
theorem ended_or_runsOn {front : List Char} (free : ';' ∉ front) (mode : Statements.Mode) :
    Statements.cut mode (front ++ [';']) = [front ++ [';'], []] ∨
      ∃ other, other ≠ .code ∧ ∀ rest, Statements.cut mode (front ++ [';'] ++ rest) =
        Statements.prependAll (front ++ [';']) (Statements.cut other rest) := by
  induction front generalizing mode with
  | nil =>
    by_cases code : mode = .code
    · subst code
      exact .inl rfl
    · refine .inr ⟨mode.next ';' none, ?_, fun rest => ?_⟩
      · cases mode <;> first | exact absurd rfl code | decide
      · show Statements.cut mode (';' :: rest) = _
        rw [Statements.cut, if_neg (fun both => code both.1)]
        cases mode <;> first | exact absurd rfl code | rfl
  | cons c front ih =>
    rw [List.mem_cons, not_or] at free
    have passes : ¬ (mode = .code ∧ c = ';') := fun both => free.1 both.2.symm
    have following : ∀ rest, (front ++ [';'] ++ rest).head? = (front ++ [';']).head? := fun rest =>
      List.head?_append_of_ne_nil _ (by simp)
    obtain ended | ⟨other, inside, runsOn⟩ := ih free.2 (mode.next c (front ++ [';']).head?)
    · refine .inl ?_
      rw [List.cons_append, Statements.cut, if_neg passes, ended]
      rfl
    · refine .inr ⟨other, inside, fun rest => ?_⟩
      rw [List.cons_append, List.cons_append, Statements.cut, if_neg passes, following, runsOn]
      rfl

/-- A policy with an id, and nothing else on its line. -/
def plainSibling : Sibling where
  text := "@id(\"b\") forbid(principal, action, resource);".toList
  named := ⟨openPolicy .forbid (.insert .empty idAnnotation (some "b")), "b"⟩
  parsed := rfl
  annotated := rfl
  checked := rfl
  aligned := by decide

theorem fits_plainSibling : Fits (plainSibling.named.blob .cedar) := by decide +kernel

/-- A text that runs on takes the policy on the next line along. -/
theorem length_split_of_runsOn {malformed : List Char} {other : Statements.Mode}
    (inside : other ≠ .code) (runsOn : ∀ rest, Statements.cut .code (malformed ++ rest) =
      Statements.prependAll malformed (Statements.cut other rest)) :
    (Statements.split (malformed ++ '\n' :: plainSibling.text)).length ≤ 1 := by
  have single : ∃ whole, Statements.cut other ('\n' :: plainSibling.text) = [whole] ∨
      Statements.cut other ('\n' :: plainSibling.text) = [whole, []] := by
    cases other with
    | code => exact absurd rfl inside
    | quotedText => exact ⟨_, .inl rfl⟩
    | escape => exact ⟨_, .inl rfl⟩
    | comment => exact ⟨_, .inr rfl⟩
  rw [Statements.split, List.length_map, runsOn]
  obtain ⟨whole, alone | ended⟩ := single
  · rw [alone, Statements.prependAll_cons]
    exact List.length_filter_le _ _
  · rw [ended, Statements.prependAll_cons, ← List.singleton_append, List.filter_append]
    rw [show ([[]] : List (List Char)).filter Statements.hasCode = [] from rfl, List.append_nil]
    exact List.length_filter_le _ _

/-- An isolated text is ended by the cut. -/
theorem ended_of_isIsolated {malformed : List Char} (bad : Malformed malformed)
    (isolated : IsIsolated malformed) : Statements.cut .code malformed = [malformed, []] := by
  obtain ⟨front, rfl, free⟩ := bad.semicolon
  obtain ended | ⟨other, inside, runsOn⟩ := ended_or_runsOn free .code
  · exact ended
  · obtain ⟨sections, made, size, _⟩ := isolated [] [plainSibling] (List.pairwise_singleton _ _) .cedar
      (fun _ => "") "/" "in.cedar" ".cedar" (by simpa using fits_plainSibling) (by decide)
    have slots := length_slots_policyFile (Bytes.toText?_ofText _) made
    have few := length_split_of_runsOn inside runsOn
    have file : (siblingFile (front ++ [';']) [] [plainSibling]).toList =
        front ++ [';'] ++ '\n' :: plainSibling.text := String.toList_ofList
    rw [← file, ← slots, size] at few
    exact absurd few (by decide)

/-- **A malformed text never affects its siblings just if the cut ends it at its semicolon.** -/
theorem isIsolated_iff {malformed : List Char} (bad : Malformed malformed) :
    IsIsolated malformed ↔ Statements.cut .code malformed = [malformed, []] :=
  ⟨ended_of_isIsolated bad, isIsolated_of_ended bad⟩

/-- A missing comma does no harm. -/
theorem isIsolated_of_missingComma :
    Malformed "permit(principal action, resource);".toList ∧
      IsIsolated "permit(principal action, resource);".toList := by
  have bad : Malformed "permit(principal action, resource);".toList :=
    ⟨rfl, "permit(principal action, resource)".toList, rfl, by decide⟩
  exact ⟨bad, (isIsolated_iff bad).mpr (by decide)⟩

/-- A text with a quotation mark that is not closed, and the policy on the next line. -/
def openQuote : List Char := "permit(principal == User::\"alice, action, resource);".toList

/-- The policy behind a quotation mark that is not closed is lost: the file has one section. -/
theorem sibling_lost_of_openQuote :
    Malformed openQuote ∧ '/' ∉ openQuote ∧
      ∃ sections, policyFile .cedar (fun _ => "") "/" "in.cedar"
          (Bytes.ofText (siblingFile openQuote [] [plainSibling])) = .ok sections ∧
        (entries [] [plainSibling]).length = 2 ∧ sections.slots.length = 1 := by
  have bad : Malformed openQuote :=
    ⟨rfl, "permit(principal == User::\"alice, action, resource)".toList, rfl, by decide⟩
  have policyPath : ".cedar" ∈ Specification.cedar.policyFileExtensions ∧
      FilePath.hasExtension "in.cedar" ".cedar" = true := by decide
  refine ⟨bad, by decide, _, policyFile_eq_ok _ _ policyPath (Bytes.toText?_ofText _), rfl, ?_⟩
  rw [fill, List.length_map, List.length_zipIdx, length_outcomes, siblingFile, String.toList_ofList]
  decide +kernel

end Authoring

end PolicyLedger
