/-
**Spellings.**

Small letters are made of the ASCII capitals only, and a letter stays visible with them
(`isBlank_toLower`). A text whose other letters are made small as well (`Lowers`) begins with the
same words, as their small forms have no ASCII character but `i` and `k`
(`Lowers.eq_or_begins_iff`).

Two texts are spellings of each other if they differ in blanks and in the case of ASCII letters
(`Respells`), which is so just if they are the same without blanks and in small letters
(`respells_iff`).
-/

import PolicyLedger.Proofs.Text.Blank
import PolicyLedger.Text.Case

namespace PolicyLedger.Text

/-! ### Small letters -/

theorem toLower_of_not_capital {c : Char} (other : ¬ ('A' ≤ c ∧ c ≤ 'Z')) : c.toLower = c :=
  dif_neg other

/-- The small form of a capital is a small letter. -/
theorem toLower_of_capital {c : Char} (capital : 'A' ≤ c ∧ c ≤ 'Z') :
    'a' ≤ c.toLower ∧ c.toLower ≤ 'z' := by
  have low : 65 ≤ c.toNat := capital.1
  have high : c.toNat ≤ 90 := capital.2
  have small : c.toLower.val = c.val + 32 := congrArg Char.val (dif_pos capital)
  have moved : c.toLower.toNat = (c.toNat + 32) % 4294967296 := congrArg UInt32.toNat small
  exact ⟨show 97 ≤ c.toLower.toNat by omega, show c.toLower.toNat ≤ 122 by omega⟩

theorem isBlank_toLower (c : Char) : isBlank c.toLower = isBlank c := by
  by_cases capital : 'A' ≤ c ∧ c ≤ 'Z'
  · obtain ⟨low, high⟩ := toLower_of_capital capital
    rw [isBlank_of_printable (Char.le_trans (by decide) low) (Char.le_trans high (by decide)),
      isBlank_of_printable (Char.le_trans (by decide) capital.1)
        (Char.le_trans capital.2 (by decide))]
  · rw [toLower_of_not_capital capital]

/-- A text with its letters made small. An ASCII character has one small form; any other becomes one
or more characters, among which `i` and `k` are the only ASCII ones there may be. -/
inductive Lowers : List Char → List Char → Prop
  | nil : Lowers [] []
  | ascii {c : Char} {cs small : List Char} (ascii : c.toNat < 128) (rest : Lowers cs small) :
    Lowers (c :: cs) (c.toLower :: small)
  | foreign {c d : Char} {cs form small : List Char} (foreign : 128 ≤ c.toNat)
    (free : ∀ e ∈ d :: form, e.toNat < 128 → e = 'i' ∨ e = 'k') (rest : Lowers cs small) :
    Lowers (c :: cs) (d :: (form ++ small))

/-- The ASCII map makes letters small, and other letters may stay as they are. -/
theorem lowers_lower (cs : List Char) : Lowers cs (lower cs) := by
  induction cs with
  | nil => exact .nil
  | cons c cs ih =>
    by_cases ascii : c.toNat < 128
    · exact .ascii ascii ih
    · have other : ¬ ('A' ≤ c ∧ c ≤ 'Z') := fun capital =>
        ascii (Nat.lt_of_le_of_lt (show c.toNat ≤ 90 from capital.2) (by decide))
      have free : ∀ e ∈ [c], e.toNat < 128 → e = 'i' ∨ e = 'k' :=
        List.forall_mem_singleton.mpr fun below => absurd below ascii
      rw [lower, List.map_cons, toLower_of_not_capital other]
      exact .foreign (Nat.le_of_not_lt ascii) free ih

/-- A character that only itself and an ASCII capital have for their small form. -/
def IsOwn (c : Char) : Prop := c.toNat < 128 ∧ c ≠ 'i' ∧ c ≠ 'k'

/-- **Other small forms do not matter** to whether a text is a word or begins with it. -/
theorem Lowers.eq_or_begins_iff {cs small : List Char} (lowers : Lowers cs small)
    {word : List Char} (own : ∀ c ∈ word, IsOwn c) :
    (small = word ↔ lower cs = word) ∧ (word <+: small ↔ word <+: lower cs) := by
  induction lowers generalizing word with
  | nil => exact ⟨.rfl, .rfl⟩
  | @ascii c cs small ascii _ ih =>
    rw [lower, List.map_cons]
    cases word with
    | nil => simp
    | cons w word =>
      rw [List.forall_mem_cons] at own
      obtain ⟨same, begins⟩ := ih own.2
      rw [List.cons.injEq, List.cons.injEq, List.cons_prefix_cons, List.cons_prefix_cons]
      exact ⟨and_congr_right fun _ => same, and_congr_right fun _ => begins⟩
  | @foreign c d cs form small foreign free _ ih =>
    rw [lower, List.map_cons]
    cases word with
    | nil => simp
    | cons w word =>
      -- neither the letter nor what its small form begins with is a character of the word
      obtain ⟨ascii, notI, notK⟩ := own w List.mem_cons_self
      have notForm : d ≠ w := by
        rintro rfl
        obtain same | same := free d List.mem_cons_self ascii
        · exact notI same
        · exact notK same
      have notLetter : c.toLower ≠ w := by
        have other : ¬ ('A' ≤ c ∧ c ≤ 'Z') := fun capital =>
          absurd (Nat.le_trans foreign (show c.toNat ≤ 90 from capital.2)) (by decide)
        rw [toLower_of_not_capital other]
        rintro rfl
        exact absurd foreign (Nat.not_le_of_lt ascii)
      rw [List.cons.injEq, List.cons.injEq, List.cons_prefix_cons, List.cons_prefix_cons]
      exact ⟨iff_of_false (fun both => notForm both.1) fun both => notLetter both.1,
        iff_of_false (fun both => notForm both.1.symm) fun both => notLetter both.1.symm⟩

/-- A text is made small part by part. -/
theorem Lowers.append {cs ds small tiny : List Char} (first : Lowers cs small)
    (second : Lowers ds tiny) : Lowers (cs ++ ds) (small ++ tiny) := by
  induction first with
  | nil => exact second
  | ascii ascii _ ih => exact .ascii ascii ih
  | foreign foreign free _ ih =>
    rw [List.cons_append, List.cons_append, List.append_assoc]
    exact .foreign foreign free ih

/-! ### Blanks and capitals -/

/-- A text is spelled in another way: blanks are inserted and removed, and the case of ASCII letters
is changed. -/
inductive Respells : List Char → List Char → Prop
  | nil : Respells [] []
  | insert {c : Char} {cs ds : List Char} (blank : isBlank c = true) (rest : Respells cs ds) :
    Respells cs (c :: ds)
  | remove {c : Char} {cs ds : List Char} (blank : isBlank c = true) (rest : Respells cs ds) :
    Respells (c :: cs) ds
  | letter {c d : Char} {cs ds : List Char} (same : d.toLower = c.toLower)
    (rest : Respells cs ds) : Respells (c :: cs) (d :: ds)

theorem squeeze_cons_of_blank {c : Char} (blank : isBlank c = true) (cs : List Char) :
    squeeze (c :: cs) = squeeze cs :=
  List.filter_cons_of_neg (by simp [blank])

theorem squeeze_cons_of_visible {c : Char} (visible : isBlank c = false) (cs : List Char) :
    squeeze (c :: cs) = c :: squeeze cs :=
  List.filter_cons_of_pos (by simp [visible])

/-- **Spellings of a text** are the texts that are the same without blanks and in small letters. -/
theorem respells_iff {cs ds : List Char} :
    Respells cs ds ↔ lower (squeeze ds) = lower (squeeze cs) := by
  constructor
  · intro respells
    induction respells with
    | nil => rfl
    | insert blank _ ih => rw [squeeze_cons_of_blank blank, ih]
    | remove blank _ ih => rw [squeeze_cons_of_blank blank, ih]
    | @letter c d cs ds same _ ih =>
      have alike : isBlank d = isBlank c := by
        rw [← isBlank_toLower d, same, isBlank_toLower]
      cases blank : isBlank c with
      | true => rw [squeeze_cons_of_blank blank, squeeze_cons_of_blank (alike.trans blank), ih]
      | false =>
        rw [squeeze_cons_of_visible blank, squeeze_cons_of_visible (alike.trans blank), lower,
          lower, List.map_cons, List.map_cons, same]
        exact congrArg _ ih
  · intro same
    induction cs generalizing ds with
    | nil =>
      induction ds with
      | nil => exact .nil
      | cons d ds ih =>
        cases white : isBlank d with
        | true => exact .insert white (ih (squeeze_cons_of_blank white ds ▸ same))
        | false => rw [squeeze_cons_of_visible white] at same; cases same
    | cons c cs ih =>
      cases blank : isBlank c with
      | true => exact .remove blank (ih (squeeze_cons_of_blank blank cs ▸ same))
      | false =>
        -- the blanks in front of the letter that `c` stands for are inserted
        induction ds with
        | nil => rw [squeeze_cons_of_visible blank] at same; cases same
        | cons d ds later =>
          cases white : isBlank d with
          | true => exact .insert white (later (squeeze_cons_of_blank white ds ▸ same))
          | false =>
            rw [squeeze_cons_of_visible blank, squeeze_cons_of_visible white] at same
            obtain ⟨letter, rest⟩ := List.cons.inj same
            exact .letter letter (ih rest)

end PolicyLedger.Text
