/-
**Code, literals and comments.**

Every character of a source belongs to code, to a literal or to a comment. This is said without the
modes of the cut (`Classified`): a literal goes from a quotation mark in code to the next one that no
backslash takes with it, a comment from two slashes in code to the next line feed. Parts end exactly
at the semicolons in code (`Parted`).

* `classified_iff` — a source is marked with its regions in one way, the one that the cut follows;
* `Parted.unique`, `exists_parted` — its one decomposition into parts is the cut;
* `Parted.classified` — the regions of a part do not depend on what stands around it.
-/

import Mathlib.Data.List.Basic
import PolicyLedger.Authoring.Statements

namespace PolicyLedger.Statements

/-! ### Regions of a source -/

/-- What a character of a source belongs to. -/
inductive Region
  | code
  | literal
  | comment
  deriving DecidableEq, Repr

/-- A character with its region. -/
abbrev Marked := Char × Region

/-- The characters of a source that is marked with regions. -/
def charsOf (marked : List Marked) : List Char := marked.map Prod.fst

/-- Characters of one region. -/
def mark (region : Region) (cs : List Char) : List Marked := cs.map fun c => (c, region)

/-- Characters of a literal: a backslash takes the next character with it, and there is no quotation
mark but those that are taken. -/
inductive Quoted : List Char → Prop
  | nil : Quoted []
  | plain {c : Char} {rest : List Char} (noQuote : c ≠ '"') (noEscape : c ≠ '\\')
    (more : Quoted rest) : Quoted (c :: rest)
  | escaped (c : Char) {rest : List Char} (more : Quoted rest) : Quoted ('\\' :: c :: rest)

/-- A source is marked with its regions. A literal goes from a quotation mark in code to the next
one that no backslash takes with it, or to the end of the source, and a comment from two slashes in
code to the next line feed or the end. -/
inductive Classified : List Marked → Prop
  | done : Classified []
  | code {c : Char} {rest : List Marked} (noQuote : c ≠ '"')
    (noSlashes : c = '/' → (charsOf rest).head? ≠ some '/') (more : Classified rest) :
    Classified ((c, .code) :: rest)
  | literal {inner : List Char} {rest : List Marked} (quoted : Quoted inner)
    (more : Classified rest) : Classified (mark .literal ('"' :: (inner ++ ['"'])) ++ rest)
  | openLiteral {inner tail : List Char} (quoted : Quoted inner)
    (half : tail = [] ∨ tail = ['\\']) : Classified (mark .literal ('"' :: (inner ++ tail)))
  | comment {body : List Char} {rest : List Marked} (free : '\n' ∉ body)
    (ended : ∀ c ∈ (charsOf rest).head?, c = '\n') (more : Classified rest) :
    Classified (mark .comment ('/' :: '/' :: body) ++ rest)

/-- The mark of a character that ends a part. -/
def ending : Marked := (';', .code)

/-- Parts that end exactly at the semicolons in code, of which the last part has none. -/
inductive Parted : List (List Marked) → Prop
  | last {part : List Marked} (free : ending ∉ part) : Parted [part]
  | cons {part : List Marked} {parts : List (List Marked)}
    (free : ending ∉ part) (more : Parted parts) : Parted ((part ++ [ending]) :: parts)

@[simp] theorem charsOf_cons (marked : Marked) (rest : List Marked) :
    charsOf (marked :: rest) = marked.1 :: charsOf rest := rfl

@[simp] theorem charsOf_append (first second : List Marked) :
    charsOf (first ++ second) = charsOf first ++ charsOf second := List.map_append

@[simp] theorem charsOf_mark (region : Region) (cs : List Char) :
    charsOf (mark region cs) = cs := by
  simp [charsOf, mark, Function.comp_def]

theorem mark_append (region : Region) (first second : List Char) :
    mark region (first ++ second) = mark region first ++ mark region second := List.map_append

theorem snd_of_mem_mark {region : Region} {cs : List Char} {marked : Marked}
    (inside : marked ∈ mark region cs) : marked.2 = region := by
  obtain ⟨c, _, rfl⟩ := List.mem_map.mp inside
  rfl

/-! ### Regions as the cut sees them -/

/-- What a character belongs to for the cut. -/
def Mode.region (mode : Mode) (c : Char) (following : Option Char) : Region :=
  match mode with
  | code =>
    if c = '"' then .literal else if c = '/' ∧ following = some '/' then .comment else .code
  | comment => if c = '\n' then .code else .comment
  | _ => .literal

/-- A source with the regions that its characters belong to for the cut. -/
def marks (mode : Mode) : List Char → List Marked
  | [] => []
  | c :: rest => (c, mode.region c rest.head?) :: marks (mode.next c rest.head?) rest

@[simp] theorem charsOf_marks (mode : Mode) (source : List Char) :
    charsOf (marks mode source) = source := by
  induction source generalizing mode with
  | nil => rfl
  | cons c rest ih => rw [marks, charsOf_cons, ih]

theorem marks_quoted {inner : List Char} (quoted : Quoted inner) (more : List Char) :
    marks .quotedText (inner ++ more) = mark .literal inner ++ marks .quotedText more := by
  induction quoted with
  | nil => rfl
  | @plain c rest noQuote noEscape _ ih =>
    have next : Mode.quotedText.next c (rest ++ more).head? = .quotedText := by
      simp [Mode.next, noQuote, noEscape]
    rw [List.cons_append, marks, next, ih]
    rfl
  | @escaped c rest _ ih =>
    have next : Mode.quotedText.next '\\' (c :: (rest ++ more)).head? = .escape := rfl
    have after : Mode.escape.next c (rest ++ more).head? = .quotedText := rfl
    rw [List.cons_append, List.cons_append, marks, next, marks, after, ih]
    rfl

theorem marks_comment {body : List Char} (free : '\n' ∉ body) (more : List Char) :
    marks .comment (body ++ more) = mark .comment body ++ marks .comment more := by
  induction body with
  | nil => rfl
  | cons c body ih =>
    rw [List.mem_cons, not_or] at free
    have other : c ≠ '\n' := Ne.symm free.1
    have next : Mode.comment.next c (body ++ more).head? = .comment := if_neg other
    have region : Mode.comment.region c (body ++ more).head? = .comment := if_neg other
    rw [List.cons_append, marks, next, region, ih free.2]
    rfl

/-- A comment is over where the source ends or at a line feed. -/
theorem marks_ended {rest : List Char} (ended : ∀ c ∈ rest.head?, c = '\n') :
    marks .comment rest = marks .code rest := by
  cases rest with
  | nil => rfl
  | cons c rest =>
    obtain rfl := ended c rfl
    rfl

/-- The regions of a source are those that the cut sees. -/
theorem marks_of_classified {marked : List Marked} (classified : Classified marked) :
    marks .code (charsOf marked) = marked := by
  induction classified with
  | done => rfl
  | @code c rest noQuote noSlashes _ ih =>
    have outside : ¬ (c = '/' ∧ (charsOf rest).head? = some '/') := fun both =>
      noSlashes both.1 both.2
    have region : Mode.code.region c (charsOf rest).head? = .code := by
      rw [Mode.region, if_neg noQuote, if_neg outside]
    have next : Mode.code.next c (charsOf rest).head? = .code := by
      rw [Mode.next, if_neg noQuote, if_neg outside]
    rw [charsOf_cons, marks, region, next, ih]
  | @literal inner rest quoted _ ih =>
    have closing : marks .quotedText ('"' :: charsOf rest) =
        mark .literal ['"'] ++ marks .code (charsOf rest) := rfl
    rw [charsOf_append, charsOf_mark, List.cons_append, List.append_assoc]
    show ('"', Region.literal) :: marks .quotedText (inner ++ ('"' :: charsOf rest)) = _
    rw [marks_quoted quoted, closing, ih, ← List.append_assoc, ← mark_append]
    rfl
  | @openLiteral inner tail quoted half =>
    rw [charsOf_mark]
    show ('"', Region.literal) :: marks .quotedText (inner ++ tail) = _
    rw [marks_quoted quoted]
    obtain rfl | rfl := half
    · simp [marks, mark]
    · rw [← List.singleton_append, show mark .literal ('"' :: (inner ++ ['\\'])) =
        [('"', .literal)] ++ mark .literal (inner ++ ['\\']) from rfl, mark_append]
      rfl
  | @comment body rest free ended _ ih =>
    rw [charsOf_append, charsOf_mark, List.cons_append, List.cons_append]
    show ('/', Region.comment) :: ('/', Region.comment) :: marks .comment (body ++ charsOf rest) = _
    rw [marks_comment free, marks_ended ended, ih]
    rfl

/-- Behind a quotation mark there is the next one, or the literal goes on to the end. -/
theorem exists_quoted : (cs : List Char) →
    (∃ inner after, cs = inner ++ '"' :: after ∧ Quoted inner) ∨
      ∃ inner tail, cs = inner ++ tail ∧ Quoted inner ∧ (tail = [] ∨ tail = ['\\'])
  | [] => .inr ⟨[], [], rfl, .nil, .inl rfl⟩
  | [c] => by
    by_cases quote : c = '"'
    · exact .inl ⟨[], [], by rw [quote]; rfl, .nil⟩
    · by_cases escape : c = '\\'
      · exact .inr ⟨[], ['\\'], by rw [escape]; rfl, .nil, .inr rfl⟩
      · exact .inr ⟨[c], [], rfl, .plain quote escape .nil, .inl rfl⟩
  | c :: d :: rest => by
    by_cases quote : c = '"'
    · exact .inl ⟨[], d :: rest, by rw [quote]; rfl, .nil⟩
    · by_cases escape : c = '\\'
      · subst escape
        obtain ⟨inner, after, rfl, quoted⟩ | ⟨inner, tail, rfl, quoted, half⟩ := exists_quoted rest
        · exact .inl ⟨'\\' :: d :: inner, after, rfl, .escaped d quoted⟩
        · exact .inr ⟨'\\' :: d :: inner, tail, rfl, .escaped d quoted, half⟩
      · obtain ⟨inner, after, whole, quoted⟩ | ⟨inner, tail, whole, quoted, half⟩ :=
          exists_quoted (d :: rest)
        · exact .inl ⟨c :: inner, after, by rw [whole]; rfl, .plain quote escape quoted⟩
        · exact .inr ⟨c :: inner, tail, by rw [whole]; rfl, .plain quote escape quoted, half⟩

/-- Every source can be marked with its regions. -/
theorem exists_classified (source : List Char) :
    ∃ marked, Classified marked ∧ charsOf marked = source := by
  induction size : source.length using Nat.strongRecOn generalizing source with
  | _ size ih =>
    subst size
    have shorter : ∀ rest : List Char, rest.length < source.length →
        ∃ marked, Classified marked ∧ charsOf marked = rest := fun rest less =>
      ih rest.length less rest rfl
    rcases source with _ | ⟨c, rest⟩
    · exact ⟨[], .done, rfl⟩
    · by_cases quote : c = '"'
      · subst quote
        obtain ⟨inner, after, rfl, quoted⟩ | ⟨inner, tail, rfl, quoted, half⟩ := exists_quoted rest
        · obtain ⟨marked, classified, rfl⟩ := shorter after (by simp; omega)
          exact ⟨_, .literal quoted classified, by simp⟩
        · exact ⟨_, .openLiteral quoted half, charsOf_mark _ _⟩
      · by_cases slashes : c = '/' ∧ rest.head? = some '/'
        · obtain ⟨rfl, second⟩ := slashes
          obtain ⟨more, rfl⟩ := List.head?_eq_some_iff.mp second
          -- the comment takes what the first line feed leaves
          have free : '\n' ∉ more.takeWhile (· ≠ '\n') := fun inside =>
            absurd (List.all_eq_true.mp List.all_takeWhile _ inside) (by decide)
          have left : (more.dropWhile (· ≠ '\n')).length ≤ more.length :=
            (List.dropWhile_sublist _).length_le
          obtain ⟨marked, classified, same⟩ :=
            shorter (more.dropWhile (· ≠ '\n')) (by simp only [List.length_cons]; omega)
          refine ⟨_, .comment free (fun c first => ?_) classified, by simp [same]⟩
          have stopped := List.head?_dropWhile_not (· ≠ '\n') more
          rw [same] at first
          rw [Option.mem_def.mp first] at stopped
          simpa using stopped
        · obtain ⟨marked, classified, rfl⟩ := shorter rest (Nat.lt_succ_self _)
          exact ⟨_, .code quote (fun first second => slashes ⟨first, second⟩) classified, rfl⟩

/-- There is one way to mark a source with its regions. -/
theorem classified_iff {source : List Char} {marked : List Marked} :
    Classified marked ∧ charsOf marked = source ↔ marked = marks .code source := by
  constructor
  · rintro ⟨classified, rfl⟩
    exact (marks_of_classified classified).symm
  · rintro rfl
    obtain ⟨other, classified, rfl⟩ := exists_classified source
    rw [marks_of_classified classified]
    exact ⟨classified, rfl⟩

/-! ### Parts -/

/-- A mark stands in the second of two parts or in the first one. -/
theorem append_cases {part rest front back : List Marked} {marked : Marked}
    (whole : part ++ rest = front ++ marked :: back) :
    (∃ more, front = part ++ more ∧ rest = more ++ marked :: back) ∨
      ∃ more, part = front ++ marked :: more ∧ back = more ++ rest := by
  obtain ⟨more, rfl, same⟩ | ⟨more, rfl, same⟩ := List.append_eq_append_iff.mp whole
  · exact .inl ⟨more, rfl, same⟩
  · cases more with
    | nil => exact .inl ⟨[], by simp, same.symm⟩
    | cons first more =>
      obtain ⟨rfl, rfl⟩ := List.cons.inj same
      exact .inr ⟨more, rfl, rfl⟩

/-- Where nothing ends, the end comes later. -/
theorem exists_of_append {part rest front back : List Marked} (free : ending ∉ part)
    (whole : part ++ rest = front ++ ending :: back) :
    ∃ more, front = part ++ more ∧ rest = more ++ ending :: back := by
  refine (append_cases whole).resolve_right ?_
  rintro ⟨more, rfl, -⟩
  exact free (List.mem_append_right _ List.mem_cons_self)

/-- A source has one decomposition into parts that end at the semicolons in code. -/
theorem Parted.unique {parts others : List (List Marked)} (first : Parted parts)
    (second : Parted others) (same : others.flatten = parts.flatten) : others = parts := by
  induction first generalizing others with
  | @last part free =>
    cases second with
    | last => simpa using same
    | cons _ _ =>
      refine absurd ?_ free
      rw [show part = [part].flatten by simp, ← same]
      simp
  | @cons part parts free _ ih =>
    cases second with
    | @last other missing =>
      refine absurd ?_ missing
      rw [show other = [other].flatten by simp, same]
      simp
    | @cons other others missing more =>
      simp only [List.flatten_cons, List.append_assoc, List.singleton_append] at same
      obtain ⟨between, rfl, left⟩ := exists_of_append missing same
      cases between with
      | nil => rw [ih more (List.cons.inj left).2, List.append_nil]
      | cons mark between =>
        obtain ⟨rfl, -⟩ := List.cons.inj left
        exact absurd (List.mem_append_right _ List.mem_cons_self) free

/-- The cut of a source gives the characters of the parts. -/
theorem exists_parted (mode : Mode) (source : List Char) :
    ∃ parts, Parted parts ∧ parts.flatten = marks mode source ∧
      cut mode source = parts.map charsOf := by
  induction source generalizing mode with
  | nil => exact ⟨[[]], .last List.not_mem_nil, rfl, rfl⟩
  | cons c rest ih =>
    obtain ⟨parts, parted, whole, cutRest⟩ := ih (mode.next c rest.head?)
    by_cases ends : mode = .code ∧ c = ';'
    · obtain ⟨rfl, rfl⟩ := ends
      refine ⟨[ending] :: parts, .cons List.not_mem_nil parted, ?_, ?_⟩
      · rw [List.flatten_cons, whole]
        rfl
      · rw [cut, if_pos ⟨rfl, rfl⟩]
        exact congrArg _ cutRest
    · have passes : (c, mode.region c rest.head?) ≠ ending := by
        intro same
        obtain ⟨rfl, region⟩ := Prod.mk.inj same
        cases mode <;> first | exact ends ⟨rfl, rfl⟩ | cases region
      rw [cut, if_neg ends, cutRest, marks, ← whole]
      cases parted with
      | @last part free =>
        exact ⟨[_ :: part], .last (by simpa [passes.symm] using free), rfl, rfl⟩
      | @cons part parts free more =>
        exact ⟨((_ :: part) ++ [ending]) :: parts, .cons (by simpa [passes.symm] using free) more,
          rfl, rfl⟩

theorem ending_notMem_mark {region : Region} (other : region ≠ .code) (cs : List Char) :
    ending ∉ mark region cs := fun inside => other (snd_of_mem_mark inside).symm

theorem head?_charsOf_append (front back : List Marked) :
    (charsOf (front ++ [ending])).head? = (charsOf (front ++ ending :: back)).head? := by
  cases front <;> rfl

/-- A semicolon in code takes a source apart. -/
theorem Classified.of_append {front back : List Marked}
    (classified : Classified (front ++ ending :: back)) :
    Classified (front ++ [ending]) ∧ Classified back := by
  generalize whole : front ++ ending :: back = marked at classified
  induction classified generalizing front with
  | done => exact absurd whole (by simp)
  | @code c rest noQuote noSlashes more ih =>
    cases front with
    | nil =>
      obtain ⟨same, rfl⟩ := List.cons.inj whole
      obtain ⟨rfl, -⟩ := Prod.mk.inj same
      exact ⟨.code (by decide) (by decide) .done, more⟩
    | cons first front =>
      obtain ⟨rfl, rfl⟩ := List.cons.inj whole
      obtain ⟨before, after⟩ := ih rfl
      refine ⟨.code noQuote (fun slash => ?_) before, after⟩
      exact (head?_charsOf_append front back).symm ▸ noSlashes slash
  | @literal inner rest quoted more ih =>
    obtain ⟨left, rfl, rfl⟩ :=
      exists_of_append (ending_notMem_mark (by decide) _) whole.symm
    obtain ⟨before, after⟩ := ih rfl
    exact ⟨by rw [List.append_assoc]; exact .literal quoted before, after⟩
  | @openLiteral inner tail _ _ =>
    have free := @ending_notMem_mark .literal (by decide) ('"' :: (inner ++ tail))
    rw [← whole] at free
    exact absurd (List.mem_append_right _ List.mem_cons_self) free
  | @comment body rest free ended more ih =>
    obtain ⟨left, rfl, rfl⟩ :=
      exists_of_append (ending_notMem_mark (by decide) _) whole.symm
    obtain ⟨before, after⟩ := ih rfl
    refine ⟨?_, after⟩
    rw [List.append_assoc]
    exact .comment free (fun c first => ended c (head?_charsOf_append left back ▸ first)) before

/-- The parts of a source are marked with their regions. -/
theorem Parted.classified {parts : List (List Marked)} (parted : Parted parts)
    (classified : Classified parts.flatten) : ∀ part ∈ parts, Classified part := by
  induction parted with
  | last => simpa using classified
  | cons _ _ ih =>
    rw [List.flatten_cons, List.append_assoc] at classified
    obtain ⟨first, rest⟩ := Classified.of_append classified
    exact List.forall_mem_cons.mpr ⟨first, ih rest⟩

end PolicyLedger.Statements
