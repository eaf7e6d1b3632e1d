/-
**Steps that may fail.**

Readers and checks are sequences of steps, each of which gives a value or fails. These are the
rules for taking a sequence apart: it succeeds if every step does (`bind_eq_ok`), and a traversal of
a list succeeds item by item (`forM_eq_ok`, `mapM_eq_some_iff`); what every step keeps holds of what
a run gives (`of_foldlM_eq_ok`). A sequence fails as one of its steps does (`FailsWith.bind`,
`FailsWith.foldlM`), a check at the first item that fails (`forM_eq_error`). A step that is only
tried leaves the state if it fails (`attempt`), so what the steps keep holds after any attempts
(`attempts_keep`). If the steps of two sequences give the same result unless the first one stops, so
do the sequences (`Keeps.bind`, `Keeps.foldlM`). What a reader gives is good if its parts are
(`Gives.bind`). Lists related item by item have a partner for each item (`exists_of_mem_left`,
`exists_of_mem_right`), and they are merged with others as their partners are
(`Merges.exists_forall₂`).
-/

import Mathlib.Data.List.Forall2

namespace PolicyLedger.Steps

variable {ε α β : Type}

/-! ### Sequences -/

/-- Two steps succeed if the first one does and then the second. -/
theorem bind_eq_ok {first : Except ε α} {next : α → Except ε β} {result : β} :
    (first >>= next) = .ok result ↔ ∃ value, first = .ok value ∧ next value = .ok result := by
  cases first <;> simp [bind, Except.bind]

theorem map_eq_ok {step : Except ε α} {convert : α → β} {result : β} :
    step.map convert = .ok result ↔ ∃ value, step = .ok value ∧ convert value = result := by
  cases step <;> simp [Except.map]

/-! ### Traversals -/

/-- A check of a list succeeds if it does on every item. -/
theorem forM_eq_ok {items : List α} {check : α → Except ε Unit} :
    items.forM check = .ok () ↔ ∀ item ∈ items, check item = .ok () := by
  induction items with
  | nil => simp [List.forM, pure, Except.pure]
  | cons item rest ih =>
    rw [show (item :: rest).forM check = (check item >>= fun _ => rest.forM check) from rfl,
      bind_eq_ok, List.forall_mem_cons, ← ih]
    exact ⟨fun ⟨_, first, others⟩ => ⟨first, others⟩, fun ⟨first, others⟩ => ⟨(), first, others⟩⟩

/-- A check of a list fails at the first item that fails. -/
theorem forM_eq_error {items : List α} {check : α → Except ε Unit} {error : ε} :
    items.forM check = .error error ↔ ∃ before item after, items = before ++ item :: after ∧
      (∀ earlier ∈ before, check earlier = .ok ()) ∧ check item = .error error := by
  induction items with
  | nil => simp [List.forM, pure, Except.pure]
  | cons item rest ih =>
    rw [show (item :: rest).forM check = (check item >>= fun _ => rest.forM check) from rfl]
    cases checked : check item with
    | error failure =>
      constructor
      · intro same
        exact ⟨[], item, rest, rfl, nofun, checked.trans same⟩
      · rintro ⟨_ | ⟨first, before⟩, other, after, whole, passed, failed⟩
        · obtain ⟨rfl, -⟩ := List.cons.inj whole
          exact checked.symm.trans failed
        · obtain ⟨rfl, -⟩ := List.cons.inj whole
          exact nomatch checked.symm.trans (passed item List.mem_cons_self)
    | ok value =>
      refine ih.trans ⟨?_, ?_⟩
      · rintro ⟨before, other, after, rfl, passed, failed⟩
        exact ⟨item :: before, other, after, rfl, List.forall_mem_cons.mpr ⟨checked, passed⟩, failed⟩
      · rintro ⟨_ | ⟨first, before⟩, other, after, whole, passed, failed⟩
        · obtain ⟨rfl, -⟩ := List.cons.inj whole
          exact nomatch checked.symm.trans failed
        · obtain ⟨rfl, rfl⟩ := List.cons.inj whole
          exact ⟨before, other, after, rfl, (List.forall_mem_cons.mp passed).2, failed⟩

/-- A list is converted if every item is. -/
theorem mapM_eq_ok {items : List α} {convert : α → Except ε β} {results : List β}
    (converted : List.Forall₂ (fun item result => convert item = .ok result) items results) :
    items.mapM convert = .ok results := by
  induction converted with
  | nil => rfl
  | cons first _ ih =>
    rw [List.mapM_cons, first, ih]
    rfl

/-- Steps that do the same do so over lists. -/
theorem foldlM_congr {γ : Type} {first : γ → α → Except ε γ} {second : γ → β → Except ε γ}
    {as : List α} {bs : List β}
    (same : List.Forall₂ (fun a b => ∀ state, first state a = second state b) as bs) (state : γ) :
    as.foldlM first state = bs.foldlM second state := by
  induction same generalizing state with
  | nil => rfl
  | cons one _ ih =>
    rw [List.foldlM_cons, List.foldlM_cons, one]
    exact congrArg _ (funext ih)

/-- What every step keeps holds of what a run gives. -/
theorem of_foldlM_eq_ok {good : β → Prop} {items : List α} {step : β → α → Except ε β}
    (keeps : ∀ item ∈ items, ∀ before after, good before → step before item = .ok after →
      good after) {start result : β} (begins : good start)
    (ran : items.foldlM step start = .ok result) : good result := by
  induction items generalizing start with
  | nil => exact Except.ok.inj ran ▸ begins
  | cons item rest ih =>
    rw [List.forall_mem_cons] at keeps
    rw [List.foldlM_cons] at ran
    obtain ⟨next, first, others⟩ := bind_eq_ok.mp ran
    exact ih keeps.2 (keeps.1 start next begins first) others

/-- A list is read if every item is, one after the other. -/
theorem mapM_eq_some_iff {items : List α} {read? : α → Option β} {results : List β} :
    items.mapM read? = some results ↔
      List.Forall₂ (fun item result => read? item = some result) items results := by
  induction items generalizing results with
  | nil => cases results <;> simp
  | cons item rest ih =>
    cases results with
    | nil =>
      simp only [List.mapM_cons, bind, Option.bind_eq_some_iff, pure, Option.some.injEq]
      simp
    | cons result results =>
      simp only [List.mapM_cons, List.forall₂_cons, ← ih, bind, Option.bind_eq_some_iff, pure,
        Option.some.injEq, List.cons.injEq]
      constructor
      · rintro ⟨_, read, _, rest, rfl, rfl⟩
        exact ⟨read, rest⟩
      · rintro ⟨read, rest⟩
        exact ⟨result, read, results, rest, rfl, rfl⟩

/-! ### Failures -/

/-- A step fails with errors of some sort only. -/
def FailsWith (P : ε → Prop) (step : Except ε α) : Prop := ∀ error, step = .error error → P error

section FailsWith

variable {P : ε → Prop}

theorem failsWith_ok (value : α) : FailsWith P (.ok value : Except ε α) := nofun

theorem failsWith_error {error : ε} (holds : P error) : FailsWith P (.error error : Except ε α) :=
  fun _ same => Except.error.inj same ▸ holds

theorem FailsWith.bind {first : Except ε α} {next : α → Except ε β} (one : FailsWith P first)
    (two : ∀ value, FailsWith P (next value)) : FailsWith P (first >>= next) := by
  cases first with
  | error error => exact fun _ same => one _ (congrArg Except.error (Except.error.inj same))
  | ok value => exact two value

theorem FailsWith.map {step : Except ε α} (fails : FailsWith P step) (convert : α → β) :
    FailsWith P (convert <$> step) := by
  cases step with
  | error error => exact fun _ same => fails _ (congrArg Except.error (Except.error.inj same))
  | ok value => exact failsWith_ok _

theorem FailsWith.forM {items : List α} {check : α → Except ε Unit}
    (each : ∀ item, FailsWith P (check item)) : FailsWith P (items.forM check) := by
  induction items with
  | nil => exact failsWith_ok ()
  | cons item rest ih => exact (each item).bind fun _ => ih

theorem FailsWith.foldlM {items : List α} {step : β → α → Except ε β}
    (each : ∀ state item, FailsWith P (step state item)) (state : β) :
    FailsWith P (items.foldlM step state) := by
  induction items generalizing state with
  | nil => exact failsWith_ok state
  | cons item rest ih =>
    rw [List.foldlM_cons]
    exact (each state item).bind ih

end FailsWith

/-! ### Attempts -/

/-- The state after a step was tried, and how it ended. A step that fails leaves the state. -/
def attempt (step : β → α → Except ε β) (state : β) (item : α) : β × Except ε Unit :=
  match step state item with
  | .ok next => (next, .ok ())
  | .error error => (state, .error error)

/-- The state after several steps were tried, and how each of them ended. -/
def attempts (step : β → α → Except ε β) (state : β) : List α → β × List (Except ε Unit)
  | [] => (state, [])
  | item :: rest =>
    let next := attempts step (attempt step state item).1 rest
    (next.1, (attempt step state item).2 :: next.2)

theorem attempt_of_ok {step : β → α → Except ε β} {state next : β} {item : α}
    (done : step state item = .ok next) : attempt step state item = (next, .ok ()) := by
  rw [attempt, done]

theorem attempt_of_error {step : β → α → Except ε β} {state : β} {item : α} {error : ε}
    (failed : step state item = .error error) :
    attempt step state item = (state, .error error) := by
  rw [attempt, failed]

/-- What every step keeps that succeeds holds after any attempts. -/
theorem attempts_keep {good : β → Prop} {step : β → α → Except ε β}
    (keeps : ∀ item before after, good before → step before item = .ok after → good after)
    {state : β} (begins : good state) (items : List α) : good (attempts step state items).1 := by
  induction items generalizing state with
  | nil => exact begins
  | cons item rest ih =>
    refine ih ?_
    cases done : step state item with
    | ok next => exact attempt_of_ok done ▸ keeps item state next begins done
    | error error => exact attempt_of_error done ▸ begins

/-- Steps that succeed one after the other succeed as attempts. -/
theorem attempts_of_foldlM {step : β → α → Except ε β} {state result : β} {items : List α}
    (ran : items.foldlM step state = .ok result) :
    attempts step state items = (result, items.map fun _ => .ok ()) := by
  induction items generalizing state with
  | nil =>
    obtain rfl := Except.ok.inj ran
    rfl
  | cons item rest ih =>
    rw [List.foldlM_cons] at ran
    obtain ⟨next, first, others⟩ := bind_eq_ok.mp ran
    rw [attempts, attempt_of_ok first, ih others]
    rfl

/-! ### Readers -/

/-- Something holds of what a reader gives. -/
def Gives (good : α → Prop) (result : Option (α × β)) : Prop :=
  ∀ read, result = some read → good read.1

namespace Gives

variable {γ δ : Type} {good : α → Prop} {fine : γ → Prop}

theorem of_none : Gives good (none : Option (α × β)) := nofun

theorem of_some {value : α} {rest : β} (holds : good value) : Gives good (some (value, rest)) :=
  fun _ same => Option.some.inj same ▸ holds

/-- What holds of the first part decides what holds of the whole. -/
theorem bind {first : Option (α × β)} {next : α × β → Option (γ × δ)} (gives : Gives good first)
    (step : ∀ value rest, good value → Gives fine (next (value, rest))) :
    Gives fine (first >>= next) := by
  intro read same
  obtain ⟨⟨value, rest⟩, found, same⟩ := Option.bind_eq_some_iff.mp same
  exact step value rest (gives _ found) read same

/-- A step that gives no part of the whole. -/
theorem after {first : Option α} {next : α → Option (γ × δ)}
    (step : ∀ value, Gives fine (next value)) : Gives fine (first >>= next) := by
  intro read same
  obtain ⟨value, _, same⟩ := Option.bind_eq_some_iff.mp same
  exact step value read same

/-- A first part that does not matter to the whole. -/
theorem past {first : Option (α × β)} {next : α × β → Option (γ × δ)}
    (step : ∀ value rest, Gives fine (next (value, rest))) : Gives fine (first >>= next) :=
  after fun read => step read.1 read.2

theorem map {result : Option (α × β)} {f : α × β → γ × δ} (gives : Gives good result)
    (step : ∀ value rest, good value → fine (f (value, rest)).1) :
    Gives fine (result.map f) := by
  intro read same
  obtain ⟨⟨value, rest⟩, found, rfl⟩ := Option.map_eq_some_iff.mp same
  exact step value rest (gives _ found)

theorem of_option {result : Option α} {f : α → γ × δ} (step : ∀ value, fine (f value).1) :
    Gives fine (result.map f) := by
  intro read same
  obtain ⟨value, _, rfl⟩ := Option.map_eq_some_iff.mp same
  exact step value

end Gives

/-! ### Runs side by side -/

/-- A step stops with an error of some sort. -/
def StopsWith (P : ε → Prop) (step : Except ε α) : Prop := ∃ error, step = .error error ∧ P error

/-- Another step gives the same result, unless the first stops with an error of some sort. -/
def Keeps (P : ε → Prop) (before after : Except ε α) : Prop := StopsWith P before ∨ after = before

section Keeps

variable {P : ε → Prop}

theorem not_stopsWith_ok (value : α) : ¬ StopsWith P (.ok value : Except ε α) := nofun

theorem StopsWith.bind {first : Except ε α} (stops : StopsWith P first) (next : α → Except ε β) :
    StopsWith P (first >>= next) := by
  obtain ⟨error, rfl, holds⟩ := stops
  exact ⟨error, rfl, holds⟩

theorem Keeps.refl (step : Except ε α) : Keeps P step step := .inr rfl

theorem Keeps.eq {before after : Except ε α} (keeps : Keeps P before after)
    (passes : ¬ StopsWith P before) : after = before := keeps.resolve_left passes

theorem Keeps.bind {before after : Except ε α} {next later : α → Except ε β}
    (one : Keeps P before after) (two : ∀ value, Keeps P (next value) (later value)) :
    Keeps P (before >>= next) (after >>= later) := by
  obtain stops | rfl := one
  · exact .inl (stops.bind next)
  · cases after with
    | error error => exact .inr rfl
    | ok value => exact two value

theorem Keeps.foldlM {items : List α} {step later : β → α → Except ε β}
    (each : ∀ state item, Keeps P (step state item) (later state item)) (state : β) :
    Keeps P (items.foldlM step state) (items.foldlM later state) := by
  induction items generalizing state with
  | nil => exact .refl _
  | cons item rest ih =>
    rw [List.foldlM_cons, List.foldlM_cons]
    exact (each state item).bind ih

/-- If only the first of two runs stops, it stops at an item where the second goes on. -/
theorem exists_stop {items : List α} {step later : β → α → Except ε β}
    (each : ∀ state item, Keeps P (step state item) (later state item)) {state : β}
    (stops : StopsWith P (items.foldlM step state))
    (passes : ¬ StopsWith P (items.foldlM later state)) :
    ∃ item ∈ items, ∃ reached, StopsWith P (step reached item) ∧
      ¬ StopsWith P (later reached item) := by
  induction items generalizing state with
  | nil => exact absurd stops (not_stopsWith_ok state)
  | cons item rest ih =>
    rw [List.foldlM_cons] at stops passes
    by_cases here : StopsWith P (step state item)
    · exact ⟨item, List.mem_cons_self, state, here, fun there => passes (there.bind _)⟩
    · rw [(each state item).eq here] at passes
      cases done : step state item with
      | error error =>
        rw [done] at stops passes
        exact absurd stops passes
      | ok next =>
        rw [done] at stops passes
        obtain ⟨other, inside, found⟩ := ih stops passes
        exact ⟨other, List.mem_cons_of_mem _ inside, found⟩

end Keeps

/-! ### Related lists -/

theorem exists_of_mem_left {R : α → β → Prop} {as : List α} {bs : List β}
    (related : List.Forall₂ R as bs) {a : α} (inside : a ∈ as) : ∃ b ∈ bs, R a b := by
  induction related with
  | nil => cases inside
  | cons first _ ih =>
    obtain rfl | inside := List.mem_cons.mp inside
    · exact ⟨_, List.mem_cons_self, first⟩
    · obtain ⟨b, there, pair⟩ := ih inside
      exact ⟨b, List.mem_cons_of_mem _ there, pair⟩

theorem exists_of_mem_right {R : α → β → Prop} {as : List α} {bs : List β}
    (related : List.Forall₂ R as bs) {b : β} (inside : b ∈ bs) : ∃ a ∈ as, R a b :=
  exists_of_mem_left related.flip inside

/-- What is looked up is a row. -/
theorem mem_of_lookup {key : String} {value : β} {rows : List (String × β)}
    (found : rows.lookup key = some value) : (key, value) ∈ rows := by
  obtain ⟨before, after, rfl, _⟩ := List.lookup_eq_some_iff.mp found
  exact List.mem_append_right _ List.mem_cons_self

/-- Relations of lists are composed item by item. -/
theorem forall₂_trans {γ : Type} {R : α → β → Prop} {S : β → γ → Prop} {T : α → γ → Prop}
    (compose : ∀ a b c, R a b → S b c → T a c) {as : List α} {bs : List β} {cs : List γ}
    (first : List.Forall₂ R as bs) (second : List.Forall₂ S bs cs) : List.Forall₂ T as cs := by
  induction first generalizing cs with
  | nil => cases second; exact .nil
  | cons one _ ih =>
    cases second with
    | cons two rest => exact .cons (compose _ _ _ one two) (ih rest)

/-- What relates two items may go through a third. -/
theorem exists_between {γ : Type} {R : α → β → Prop} {S : α → γ → Prop} {T : γ → β → Prop}
    (through : ∀ a b, R a b → ∃ c, S a c ∧ T c b) {as : List α} {bs : List β}
    (related : List.Forall₂ R as bs) : ∃ cs, List.Forall₂ S as cs ∧ List.Forall₂ T cs bs := by
  induction related with
  | nil => exact ⟨[], .nil, .nil⟩
  | cons one _ ih =>
    obtain ⟨c, first, second⟩ := through _ _ one
    obtain ⟨cs, firsts, seconds⟩ := ih
    exact ⟨c :: cs, .cons first firsts, .cons second seconds⟩

/-- Items that have partners make a list that has one. -/
theorem exists_forall₂ {R : α → β → Prop} {as : List α} (partners : ∀ a ∈ as, ∃ b, R a b) :
    ∃ bs, List.Forall₂ R as bs := by
  induction as with
  | nil => exact ⟨[], .nil⟩
  | cons a as ih =>
    rw [List.forall_mem_cons] at partners
    obtain ⟨b, first⟩ := partners.1
    obtain ⟨bs, others⟩ := ih partners.2
    exact ⟨b :: bs, .cons first others⟩

/-- All items have a property, or there is a first one that has not. -/
theorem forall_or_exists_first (P : α → Prop) (items : List α) :
    (∀ item ∈ items, P item) ∨ ∃ before item after, items = before ++ item :: after ∧
      (∀ earlier ∈ before, P earlier) ∧ ¬ P item := by
  induction items with
  | nil => exact .inl nofun
  | cons item rest ih =>
    by_cases good : P item
    · obtain others | ⟨before, bad, after, rfl, earlier, here⟩ := ih
      · exact .inl (List.forall_mem_cons.mpr ⟨good, others⟩)
      · exact .inr ⟨item :: before, bad, after, rfl,
          List.forall_mem_cons.mpr ⟨good, earlier⟩, here⟩
    · exact .inr ⟨[], item, rest, rfl, nofun, good⟩

/-! ### Merged lists -/

/-- The third list has the items of the first two, each of them in its order. -/
inductive Merges : List α → List α → List α → Prop
  | nil : Merges [] [] []
  | left (a : α) {as bs cs : List α} (rest : Merges as bs cs) : Merges (a :: as) bs (a :: cs)
  | right (b : α) {as bs cs : List α} (rest : Merges as bs cs) : Merges as (b :: bs) (b :: cs)

/-- A list is merged with nothing. -/
theorem Merges.all_left : (as : List α) → Merges as [] as
  | [] => .nil
  | a :: as => .left a (all_left as)

theorem Merges.all_right : (bs : List α) → Merges [] bs bs
  | [] => .nil
  | b :: bs => .right b (all_right bs)

/-- Lists are merged one after the other. -/
theorem Merges.append {as bs cs : List α} (merged : Merges as bs cs) {others more later : List α}
    (next : Merges others more later) : Merges (as ++ others) (bs ++ more) (cs ++ later) := by
  induction merged with
  | nil => exact next
  | left a _ ih => exact .left a ih
  | right b _ ih => exact .right b ih

/-- Partners of two lists are merged as the lists are. -/
theorem Merges.exists_forall₂ {R S T : α → β → Prop} (first : ∀ a b, R a b → T a b)
    (second : ∀ a b, S a b → T a b) {as bs cs : List α} {firsts seconds : List β}
    (merged : Merges as bs cs) (ofFirst : List.Forall₂ R as firsts)
    (ofSecond : List.Forall₂ S bs seconds) :
    ∃ both, Merges firsts seconds both ∧ List.Forall₂ T cs both := by
  induction merged generalizing firsts seconds with
  | nil =>
    cases ofFirst
    cases ofSecond
    exact ⟨[], .nil, .nil⟩
  | left a _ ih =>
    obtain _ | ⟨one, others⟩ := ofFirst
    obtain ⟨both, merged, related⟩ := ih others ofSecond
    exact ⟨_, .left _ merged, .cons (first _ _ one) related⟩
  | right b _ ih =>
    obtain _ | ⟨one, others⟩ := ofSecond
    obtain ⟨both, merged, related⟩ := ih ofFirst others
    exact ⟨_, .right _ merged, .cons (second _ _ one) related⟩

theorem Merges.ne_nil {as bs cs : List α} (merged : Merges as bs cs) (nonempty : as ≠ []) :
    cs ≠ [] := by
  cases merged with
  | nil => exact absurd rfl nonempty
  | left => exact List.cons_ne_nil _ _
  | right => exact List.cons_ne_nil _ _

end PolicyLedger.Steps
