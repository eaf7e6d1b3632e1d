/-
**Statements are the parts with code.**

Whether a part is a statement is decided line by line, and lines know nothing of literals. Still it
is a statement exactly if it has something other than blanks outside its comments: the first line
with such a character begins in code, so it cannot begin with a comment (`hasCode_charsOf`). So the
statements of a source are told by its regions alone.

* `split_eq_of_parted` — the statements are the parts with code, without the blanks around them;
* `exists_kept` — only comments and blanks are left out, and no blank of a literal that is closed
  (`MayGo`);
* `split_append` — behind a semicolon in code a source is split on its own;
* `split_eq_visibleParts` — all of this about any source.
-/

import PolicyLedger.Proofs.Authoring.Regions
import PolicyLedger.Proofs.Authoring.Statements

namespace PolicyLedger.Statements

/-! ### Parts with code -/

/-- Holds of the characters that make a part a statement. -/
def isVisible (marked : Marked) : Bool := marked.2 ≠ .comment && !Text.isBlank marked.1

/-- Holds of a part with something that is not blank outside comments. -/
def isStatement (part : List Marked) : Bool := part.any isVisible

/-- A comment does not matter up to its end. -/
theorem hasCode_of_comment {body after : List Char} (free : '\n' ∉ body)
    (ended : ∀ c ∈ after.head?, c = '\n') :
    hasCode ('/' :: '/' :: (body ++ after)) = hasCode after := by
  rw [hasCode_of_slashes free]
  cases after with
  | nil => rfl
  | cons c after =>
    obtain rfl := ended c rfl
    rw [hasCode_of_blank (by decide), Text.pieces, if_pos rfl]
    rfl

/-- A line that begins with something other than a blank or a comment has code. -/
theorem hasCode_of_visible {c : Char} {cs : List Char} (visible : Text.isBlank c = false)
    (noSlashes : c = '/' → cs.head? ≠ some '/') : hasCode (c :: cs) = true := by
  have sameLine : c ≠ '\n' := by
    rintro rfl
    exact absurd visible (by decide)
  obtain ⟨first, others, pieces⟩ := List.exists_cons_of_ne_nil (Text.pieces_ne_nil '\n' cs)
  have line : lineHasCode (c :: first) = true := by
    rw [← Bool.not_eq_false]
    intro blank
    have stays := Text.trimLeft_of_visible visible first
    obtain empty | ⟨body, comment⟩ := lineHasCode_eq_false.mp blank
    · exact absurd (stays.symm.trans empty) (List.cons_ne_nil _ _)
    · obtain ⟨slash, rfl⟩ := List.cons.inj (stays.symm.trans comment)
      refine noSlashes slash ?_
      have whole := Text.join_pieces '\n' cs
      rw [← whole, pieces]
      cases others <;> rfl
  rw [hasCode, Text.pieces, if_neg sameLine, pieces, List.any_cons, line, Bool.true_or]

theorem any_isVisible_comment (cs : List Char) : (mark .comment cs).any isVisible = false := by
  rw [List.any_eq_false]
  intro marked inside
  simp [isVisible, snd_of_mem_mark inside]

/-- What a part has besides blanks and comments is seen line by line. -/
theorem hasCode_charsOf {part : List Marked} (classified : Classified part) :
    hasCode (charsOf part) = isStatement part := by
  induction classified with
  | done => rfl
  | @code c rest _ noSlashes _ ih =>
    rw [charsOf_cons, isStatement, List.any_cons]
    cases blank : Text.isBlank c with
    | true => rw [hasCode_of_blank blank, ih, isStatement]; simp [isVisible, blank]
    | false => rw [hasCode_of_visible blank noSlashes]; simp [isVisible, blank]
  | literal => exact hasCode_of_visible (by decide) fun slash => absurd slash (by decide)
  | openLiteral => exact hasCode_of_visible (by decide) fun slash => absurd slash (by decide)
  | @comment body rest free ended _ ih =>
    rw [charsOf_append, charsOf_mark, isStatement, List.any_append, any_isVisible_comment]
    exact (hasCode_of_comment free ended).trans ih

/-- The statements are the parts that have something besides blanks and comments. -/
theorem split_eq_of_parted {source : List Char} {parts : List (List Marked)}
    (parted : Parted parts) (whole : parts.flatten = marks .code source) :
    split source = (parts.filter isStatement).map fun part => Text.trim (charsOf part) := by
  obtain ⟨others, same, flat, cuts⟩ := exists_parted .code source
  obtain rfl := same.unique parted (whole.trans flat.symm)
  have classified := parted.classified (whole ▸ (classified_iff.mpr rfl).1)
  have kept : parts.filter (hasCode ∘ charsOf) = parts.filter isStatement :=
    List.filter_congr fun part inside => hasCode_charsOf (classified part inside)
  rw [split, cuts, List.filter_map, List.map_map, kept]
  rfl

/-! ### What is left out -/

theorem mem_of_cons_eq_append {first marked : Marked}
    {rest front back : List Marked} (whole : first :: rest = front ++ marked :: back) :
    first ∈ front ++ [marked] := by
  cases front with
  | nil => exact List.mem_singleton.mpr (List.cons.inj whole).1
  | cons other front => exact (List.cons.inj whole).1 ▸ List.mem_cons_self

/-- Between a character of a literal and each end of the source stands a quotation mark of the
literal, unless the literal goes on to the end. -/
def HasQuotes (front : List Marked) (c : Char) (back : List Marked) : Prop :=
  ('"', .literal) ∈ front ++ [(c, .literal)] ∧
    (('"', .literal) ∈ (c, .literal) :: back ∨
      ∃ d, (front ++ (c, .literal) :: back).getLast? = some (d, .literal))

/-- The quotation mark in front is there whatever follows. -/
theorem HasQuotes.mem {front back : List Marked} {c : Char} (quotes : HasQuotes front c back)
    (others : List Marked) : ('"', .literal) ∈ front ++ (c, .literal) :: others := by
  rw [List.append_cons]
  exact List.mem_append_left others quotes.1

theorem HasQuotes.append {front back : List Marked} {c : Char} (quotes : HasQuotes front c back)
    (part : List Marked) : HasQuotes (part ++ front) c back := by
  obtain ⟨before, after⟩ := quotes
  rw [HasQuotes, List.append_assoc, List.append_assoc]
  refine ⟨List.mem_append_right _ before, after.imp_right fun ⟨last, same⟩ => ⟨last, ?_⟩⟩
  exact (List.getLast?_append_of_ne_nil _ (by simp)).trans same

/-- Every character of a literal has its quotation marks. -/
theorem hasQuotes_of_classified {front back : List Marked} {c : Char}
    (classified : Classified (front ++ (c, .literal) :: back)) : HasQuotes front c back := by
  generalize whole : front ++ (c, Region.literal) :: back = marked at classified
  induction classified generalizing front with
  | done => exact absurd whole (by simp)
  | @code d rest _ _ _ ih =>
    cases front with
    | nil => cases whole
    | cons first front =>
      obtain ⟨rfl, rfl⟩ := List.cons.inj whole
      exact (ih rfl).append [_]
  | @literal inner rest _ _ ih =>
    obtain ⟨left, rfl, rfl⟩ | ⟨left, block, rfl⟩ := append_cases whole.symm
    · exact (ih rfl).append _
    · have closing : ((c, Region.literal) :: left).getLast? = some ('"', .literal) := by
        rw [← List.getLast?_append_of_ne_nil front (List.cons_ne_nil _ _), ← block,
          ← List.cons_append, mark_append]
        exact List.getLast?_concat
      refine ⟨mem_of_cons_eq_append block, .inl ?_⟩
      exact List.mem_append_left rest (List.mem_of_getLast? closing)
  | @openLiteral inner tail _ _ =>
    refine ⟨mem_of_cons_eq_append whole.symm, .inr ?_⟩
    rw [whole]
    obtain ⟨⟨d, region⟩, last⟩ := Option.isSome_iff_exists.mp
      (List.getLast?_isSome.mpr (show mark .literal ('"' :: (inner ++ tail)) ≠ [] by simp [mark]))
    obtain rfl : region = .literal := snd_of_mem_mark (List.mem_of_getLast? last)
    exact ⟨d, last⟩
  | @comment body rest _ _ _ ih =>
    obtain ⟨left, rfl, rfl⟩ | ⟨left, block, rfl⟩ := append_cases whole.symm
    · exact (ih rfl).append _
    · have inside : (c, Region.literal) ∈ mark .comment ('/' :: '/' :: body) :=
        block ▸ List.mem_append_right _ List.mem_cons_self
      cases snd_of_mem_mark inside

/-- A statement is what is left of its part without the blanks at the ends. -/
theorem exists_core (part : List Marked) :
    ∃ before core after, part = before ++ (core ++ after) ∧
      charsOf core = Text.trim (charsOf part) ∧
      (∀ marked ∈ before, Text.isBlank marked.1 = true) ∧
      ∀ marked ∈ after, Text.isBlank marked.1 = true := by
  obtain ⟨front, back, whole, leading, trailing⟩ := (Text.isTrim_trim (charsOf part)).within
  obtain ⟨before, rest, first, rfl, others⟩ := List.map_eq_append_iff.mp whole
  obtain ⟨core, after, rfl, same, rfl⟩ := List.map_eq_append_iff.mp others
  exact ⟨before, core, after, first, same,
    fun marked inside => leading _ (List.mem_map_of_mem (f := Prod.fst) inside),
    fun marked inside => trailing _ (List.mem_map_of_mem (f := Prod.fst) inside)⟩

/-- A character may be left out: one of a comment, or a blank, which is in a literal only if that
literal goes on to the end. -/
def MayGo (source : List Marked) (marked : Marked) : Prop :=
  marked.2 = .comment ∨ Text.isBlank marked.1 = true ∧
    (marked.2 = .literal → ∃ c, source.getLast? = some (c, .literal) ∧ Text.isBlank c = true)

theorem isBlank_quote : Text.isBlank '"' = false := by decide

/-- The blanks at the ends of a part may go. -/
theorem mayGo_of_ends {before core after : List Marked}
    (classified : Classified (before ++ (core ++ after)))
    (leading : ∀ marked ∈ before, Text.isBlank marked.1 = true)
    (trailing : ∀ marked ∈ after, Text.isBlank marked.1 = true) {marked : Marked}
    (inside : marked ∈ before ++ after) : MayGo (before ++ (core ++ after)) marked := by
  obtain ⟨c, region⟩ := marked
  obtain inside | inside := List.mem_append.mp inside
  · refine .inr ⟨leading _ inside, fun same => ?_⟩
    obtain rfl : region = .literal := same
    obtain ⟨first, last, rfl⟩ := List.append_of_mem inside
    rw [List.append_assoc, List.cons_append] at classified
    have white := leading ('"', .literal) ((hasQuotes_of_classified classified).mem last)
    exact absurd (white.symm.trans isBlank_quote) (by decide)
  · refine .inr ⟨trailing _ inside, fun same => ?_⟩
    obtain rfl : region = .literal := same
    obtain ⟨first, last, rfl⟩ := List.append_of_mem inside
    rw [← List.append_assoc, ← List.append_assoc] at classified ⊢
    obtain closed | ⟨d, goesOn⟩ := (hasQuotes_of_classified classified).2
    · have white := trailing ('"', .literal) (List.mem_append_right first closed)
      exact absurd (white.symm.trans isBlank_quote) (by decide)
    · refine ⟨d, goesOn, trailing (d, .literal) (List.mem_append_right first ?_)⟩
      rw [List.getLast?_append_of_ne_nil _ (List.cons_ne_nil _ _)] at goesOn
      exact List.mem_of_getLast? goesOn

/-- A part that is no statement may go. -/
theorem mayGo_of_not_isStatement {part : List Marked} (classified : Classified part)
    (noStatement : isStatement part = false) {marked : Marked} (inside : marked ∈ part) :
    MayGo part marked := by
  rw [isStatement, List.any_eq_false] at noStatement
  obtain ⟨c, region⟩ := marked
  have hidden := noStatement _ inside
  rw [isVisible, Bool.and_eq_true, decide_eq_true_iff, not_and, Bool.not_eq_true',
    Bool.not_eq_false] at hidden
  by_cases comment : region = .comment
  · exact .inl comment
  · refine .inr ⟨hidden comment, fun same => ?_⟩
    obtain rfl : region = .literal := same
    obtain ⟨front, back, rfl⟩ := List.append_of_mem inside
    exact absurd rfl (noStatement ('"', .literal) ((hasQuotes_of_classified classified).mem back))

/-- A part that ends in a literal is the last one. -/
theorem Parted.getLast?_flatten {parts : List (List Marked)} (parted : Parted parts)
    {part : List Marked} (inside : part ∈ parts) {c : Char}
    (last : part.getLast? = some (c, .literal)) : parts.flatten.getLast? = some (c, .literal) := by
  induction parted with
  | last =>
    obtain rfl := List.mem_singleton.mp inside
    rwa [List.flatten_singleton]
  | cons _ _ ih =>
    obtain rfl | later := List.mem_cons.mp inside
    · rw [List.getLast?_concat] at last
      cases last
    · rw [List.flatten_cons, List.getLast?_append, ih later]
      rfl

theorem MayGo.flatten {parts : List (List Marked)} (parted : Parted parts)
    {part : List Marked} (inside : part ∈ parts) {marked : Marked}
    (mayGo : MayGo part marked) : MayGo parts.flatten marked :=
  mayGo.imp_right fun ⟨blank, literal⟩ => ⟨blank, fun same =>
    (literal same).imp fun _ ⟨last, white⟩ => ⟨parted.getLast?_flatten inside last, white⟩⟩

/-- The statements are what is left of the parts if what may go is left out. -/
theorem exists_kept {parts : List (List Marked)} {Goes : Marked → Prop}
    (classified : ∀ part ∈ parts, Classified part)
    (goes : ∀ part ∈ parts, ∀ marked, MayGo part marked → Goes marked) :
    ∃ (kept : List (List Marked)) (dropped : List Marked),
      ((parts.filter isStatement).map fun part => Text.trim (charsOf part)) = kept.map charsOf ∧
        Steps.Merges kept.flatten dropped parts.flatten ∧ ∀ marked ∈ dropped, Goes marked := by
  induction parts with
  | nil => exact ⟨[], [], rfl, .nil, nofun⟩
  | cons part parts ih =>
    rw [List.forall_mem_cons] at classified goes
    obtain ⟨kept, dropped, texts, merged, gone⟩ := ih classified.2 goes.2
    cases statement : isStatement part with
    | true =>
      obtain ⟨before, core, after, rfl, same, leading, trailing⟩ := exists_core part
      have ends := ((Steps.Merges.all_right before).append
        ((Steps.Merges.all_left core).append (Steps.Merges.all_right after)))
      rw [List.append_nil, List.nil_append, List.nil_append] at ends
      refine ⟨core :: kept, (before ++ after) ++ dropped, ?_, ends.append merged, ?_⟩
      · rw [List.filter_cons_of_pos statement, List.map_cons, List.map_cons, texts, same]
      · exact List.forall_mem_append.mpr ⟨fun marked inside => goes.1 marked
          (mayGo_of_ends classified.1 leading trailing inside), gone⟩
    | false =>
      refine ⟨kept, part ++ dropped, ?_, (Steps.Merges.all_right part).append merged, ?_⟩
      · rw [List.filter_cons_of_neg (by simp [statement]), texts]
      · exact List.forall_mem_append.mpr ⟨fun marked inside => goes.1 marked
          (mayGo_of_not_isStatement classified.1 statement inside), gone⟩

/-! ### Sources that are joined -/

/-- Blanks in front of a source do not matter. -/
theorem split_append_of_blank {blanks : List Char} (white : ∀ c ∈ blanks, Text.isBlank c = true)
    (more : List Char) : split (blanks ++ more) = split more := by
  induction blanks with
  | nil => rfl
  | cons c blanks ih =>
    rw [List.forall_mem_cons] at white
    rw [List.cons_append, ← ih white.2]
    have cuts : cut .code (c :: (blanks ++ more)) = prepend c (cut .code (blanks ++ more)) := by
      rw [cut_eq_cutWhere, cut_eq_cutWhere, cutWhere_of_isPlain (isPlain_of_isBlank white.1)]
    obtain ⟨first, others, parts⟩ : ∃ first others, cut .code (blanks ++ more) = first :: others :=
      List.exists_cons_of_ne_nil (by rw [cut_eq_cutWhere]; exact cutWhere_ne_nil _ _ _)
    have trimmed : Text.trim (c :: first) = Text.trim first := by
      rw [Text.trim, Text.trimLeft, List.dropWhile_cons_of_pos white.1, ← Text.trimLeft, Text.trim]
    rw [split, split, cuts, parts, prepend, List.filter_cons, List.filter_cons,
      hasCode_of_blank white.1]
    split
    · rw [List.map_cons, List.map_cons, trimmed]
    · rfl

/-- Behind a part that ends, the cut begins anew. -/
theorem exists_cut_append {parts : List (List Char)} {source last : List Char}
    (whole : cut .code source = parts ++ [last]) :
    ∃ front, source = front ++ last ∧
      ∀ rest, cut .code (front ++ rest) = parts ++ cut .code rest := by
  induction parts generalizing source with
  | nil =>
    have flat := flatten_cut .code source
    rw [whole] at flat
    exact ⟨[], by simpa using flat.symm, fun rest => rfl⟩
  | cons part parts ih =>
    obtain ⟨next, others, more⟩ : ∃ next others, parts ++ [last] = next :: others :=
      List.exists_cons_of_ne_nil (by simp)
    rw [List.cons_append, more] at whole
    obtain ⟨alone, rest, rfl, after⟩ := cut_eq_cons whole
    obtain ⟨front, rfl, anew⟩ := ih (after.trans more.symm)
    refine ⟨part ++ front, (List.append_assoc _ _ _).symm, fun rest => ?_⟩
    rw [List.append_assoc, cut_append_of_ended alone, anew, List.cons_append]

/-- The last part of what ends is empty. -/
theorem Parted.exists_concat_nil {parts : List (List Marked)}
    {front : List Marked} (parted : Parted parts)
    (whole : parts.flatten = front ++ [ending]) : ∃ before, parts = before ++ [[]] := by
  induction parted generalizing front with
  | @last part free =>
    rw [List.flatten_singleton] at whole
    exact absurd (whole ▸ List.mem_append_right _ List.mem_cons_self) free
  | @cons part parts free more ih =>
    obtain empty | ⟨init, marked, same⟩ := List.eq_nil_or_concat' parts.flatten
    · cases more with
      | last =>
        rw [List.flatten_singleton] at empty
        exact ⟨[part ++ [ending]], by rw [empty]; rfl⟩
      | cons => simp at empty
    · rw [List.flatten_cons, same, ← List.append_assoc] at whole
      obtain ⟨-, last⟩ := List.append_inj' whole rfl
      obtain ⟨before, rfl⟩ := ih (last ▸ same)
      exact ⟨_ :: before, rfl⟩

/-- What follows a part that ends is split on its own. -/
theorem split_append {source : List Char} {front blanks : List Marked}
    (whole : marks .code source = front ++ ending :: blanks)
    (white : ∀ marked ∈ blanks, Text.isBlank marked.1 = true) (more : List Char) :
    split (source ++ more) = split source ++ split more := by
  have classified := (classified_iff.mpr (Eq.refl (marks .code source))).1
  rw [whole] at classified
  have first := marks_of_classified (Classified.of_append classified).1
  obtain ⟨parts, parted, flat, cuts⟩ := exists_parted .code (charsOf (front ++ [ending]))
  obtain ⟨before, rfl⟩ := parted.exists_concat_nil (flat.trans first)
  rw [List.map_append] at cuts
  obtain ⟨begin, same, anew⟩ := exists_cut_append cuts
  have source_eq : source = begin ++ charsOf blanks := by
    have chars := charsOf_marks .code source
    rw [whole, List.append_cons, charsOf_append, same] at chars
    simpa [charsOf] using chars.symm
  have blank : ∀ c ∈ charsOf blanks, Text.isBlank c = true := by
    intro c inside
    obtain ⟨marked, there, rfl⟩ := List.mem_map.mp inside
    exact white marked there
  have behind : ∀ rest, split (begin ++ rest) =
      ((before.map charsOf).filter hasCode).map Text.trim ++ split rest := fun rest => by
    rw [split, anew, List.filter_append, List.map_append]
    rfl
  rw [source_eq, List.append_assoc, behind, behind, split_append_of_blank blank,
    ← List.append_nil (charsOf blanks), split_append_of_blank blank, List.append_assoc]
  rfl

/-- **What the statements of a source are.** A source is marked with its regions in one way, and it
has one decomposition into parts that end exactly at the semicolons in code. The statements are the
parts with something other than blanks outside comments, in order and without the blanks around
them. So nothing is lost but comments and blanks, and no blank of a literal that is closed. If only
blanks follow a semicolon in code, what comes behind them is split on its own. -/
theorem split_eq_visibleParts (source : List Char) :
    ∃ marked parts,
      (∀ other, Classified other ∧ charsOf other = source ↔ other = marked) ∧
      (∀ others, Parted others ∧ others.flatten = marked ↔ others = parts) ∧
      split source =
        ((parts.filter isStatement).map fun part => Text.trim (charsOf part)) ∧
      (∃ (kept : List (List Marked)) (dropped : List Marked),
        split source = kept.map charsOf ∧ Steps.Merges kept.flatten dropped marked ∧
          ∀ lost ∈ dropped, MayGo marked lost) ∧
      ∀ front blanks, marked = front ++ ending :: blanks →
        (∀ blank ∈ blanks, Text.isBlank blank.1 = true) →
          ∀ more, split (source ++ more) = split source ++ split more := by
  obtain ⟨parts, parted, whole, _⟩ := exists_parted .code source
  have statements := split_eq_of_parted parted whole
  have classified : Classified parts.flatten := whole ▸ (classified_iff.mpr rfl).1
  refine ⟨marks .code source, parts, fun other => classified_iff, fun others => ⟨?_, ?_⟩,
    statements, ?_, fun front blanks => split_append⟩
  · rintro ⟨again, same⟩
    exact parted.unique again (same.trans whole.symm)
  · rintro rfl
    exact ⟨parted, whole⟩
  · rw [statements, ← whole]
    exact exists_kept (parted.classified classified) fun part inside marked mayGo =>
      mayGo.flatten parted inside

/-- Two slashes at the beginning of a line are no comment inside a literal. -/
example : split "p(\"\n// ;\n\"); // q;\n".toList = ["p(\"\n// ;\n\");".toList] := by decide

end PolicyLedger.Statements
