/-
**Policies that are read are proper.**

Readers build expressions from parts that are proper already: names are checked when they are read,
and fields are placed by their keys. `ProperAt` says this of all readers of expressions with some
fuel, and `properAt` proves it by induction on the fuel. Annotations are named by tokens, which are
identifiers if they come from a source, and so every policy that is parsed is proper
(`isProper_of_parse?`).
-/

import PolicyLedger.Policy.Parser
import PolicyLedger.Proofs.KeyMap
import PolicyLedger.Proofs.Policy.Lexes
import PolicyLedger.Proofs.Policy.Proper
import PolicyLedger.Proofs.Steps

namespace PolicyLedger.Policy.Parser

open Steps (Gives)

variable {tokens : List Token}

theorem proper_name? : Gives Name.IsProper (name? tokens) := by
  rw [name?.eq_def]
  split
  · intro read same
    obtain ⟨name, found, rfl⟩ := Option.map_eq_some_iff.mp same
    exact Name.isProper_of_ofParts? found
  · exact .of_none

theorem proper_entity? : Gives EntityUid.IsProper (entity? tokens) := by
  refine .bind proper_name? fun type rest proper => ?_
  dsimp only
  split
  · exact .after fun id => .of_some proper
  · exact .of_none

/-! ### Expressions -/

/-- The fields of a record are sorted, and their values proper. -/
def SortedFields (fields : List (String × Expr)) : Prop :=
  (fields.Pairwise fun a b => a.1 < b.1) ∧ ∀ field ∈ fields, field.2.IsProper

/-- The readers of expressions with some fuel give proper expressions. -/
structure ProperAt (fuel : Nat) : Prop where
  expr : ∀ {tokens}, Gives Expr.IsProper (expr? fuel tokens)
  disjunctionTail : ∀ {left tokens}, left.IsProper →
    Gives Expr.IsProper (disjunctionTail? fuel left tokens)
  conjunction : ∀ {tokens}, Gives Expr.IsProper (conjunction? fuel tokens)
  conjunctionTail : ∀ {left tokens}, left.IsProper →
    Gives Expr.IsProper (conjunctionTail? fuel left tokens)
  relation : ∀ {tokens}, Gives Expr.IsProper (relation? fuel tokens)
  sum : ∀ {tokens}, Gives Expr.IsProper (sum? fuel tokens)
  sumTail : ∀ {left tokens}, left.IsProper → Gives Expr.IsProper (sumTail? fuel left tokens)
  product : ∀ {tokens}, Gives Expr.IsProper (product? fuel tokens)
  productTail : ∀ {left tokens}, left.IsProper →
    Gives Expr.IsProper (productTail? fuel left tokens)
  signed : ∀ {tokens}, Gives Expr.IsProper (signed? fuel tokens)
  member : ∀ {tokens}, Gives Expr.IsProper (member? fuel tokens)
  accesses : ∀ {left tokens}, left.IsProper → Gives Expr.IsProper (accesses? fuel left tokens)
  primary : ∀ {tokens}, Gives Expr.IsProper (primary? fuel tokens)
  items : ∀ {close tokens}, Gives Expr.ItemsAreProper (items? fuel close tokens)
  fields : ∀ {done tokens}, SortedFields done → Gives SortedFields (fields? fuel done tokens)

/-- Without fuel nothing is read. -/
theorem properAt_zero : ProperAt 0 where
  expr := .of_none
  disjunctionTail _ := .of_none
  conjunction := .of_none
  conjunctionTail _ := .of_none
  relation := .of_none
  sum := .of_none
  sumTail _ := .of_none
  product := .of_none
  productTail _ := .of_none
  signed := .of_none
  member := .of_none
  accesses _ := .of_none
  primary := .of_none
  items := .of_none
  fields _ := .of_none

theorem isProper_wrap (sign : Expr → Expr)
    (keeps : ∀ arg : Expr, arg.IsProper → (sign arg).IsProper) {arg : Expr} (proper : arg.IsProper)
    (count : Nat) : (wrap sign count arg).IsProper := by
  induction count with
  | zero => exact proper
  | succ count ih => exact keeps _ ih

theorem isProper_int? {value : Int} {arg : Expr} (read : int? value = some arg) : arg.IsProper := by
  rw [int?] at read
  split at read
  · exact Option.some.inj read ▸ trivial
  · cases read

theorem isProper_method? {receiver : Expr} {name : String} {args : List Expr} {call : Expr}
    (read : method? receiver name args = some call) (proper : receiver.IsProper)
    (others : Expr.ItemsAreProper args) : call.IsProper := by
  unfold method? at read
  split at read
  · split at read
    · exact Option.some.inj read ▸ ⟨proper, others.1⟩
    · cases read
  · split at read
    · split at read
      · exact Option.some.inj read ▸ proper
      · cases read
    · split at read
      · split at read
        · exact Option.some.inj read ▸ ⟨⟨proper, others⟩, fun _ => List.cons_ne_nil _ _⟩
        · cases read
      · cases read

/-- The attributes of a path are parts of names. -/
theorem isNamePart_of_moreAttributes {names : List String} {rest : List Token}
    (read : moreAttributes tokens = some (names, rest)) : ∀ name ∈ names, isNamePart name = true := by
  induction tokens using moreAttributes.induct generalizing names with
  | case1 name tokens part ih =>
    rw [moreAttributes, if_pos part] at read
    obtain ⟨⟨others, left⟩, found, same⟩ := Option.map_eq_some_iff.mp read
    obtain ⟨rfl, rfl⟩ := Prod.mk.inj same
    exact List.forall_mem_cons.mpr ⟨part, ih found⟩
  | case2 name tokens other =>
    rw [moreAttributes, if_neg other] at read
    cases read
  | case3 =>
    rw [moreAttributes] at read
    · cases read
    all_goals assumption
  | case4 tokens =>
    rw [moreAttributes] at read
    · obtain ⟨rfl, rfl⟩ := Prod.mk.inj (Option.some.inj read)
      exact nofun
    all_goals assumption

theorem proper_hasRight? {left : Expr} (proper : left.IsProper) :
    Gives Expr.IsProper (hasRight? left tokens) := by
  rw [hasRight?.eq_def]
  split
  · exact .of_option fun _ => ⟨proper, fun nonempty => absurd rfl nonempty⟩
  · split
    next part =>
      intro read same
      obtain ⟨⟨others, rest⟩, found, rfl⟩ := Option.map_eq_some_iff.mp same
      have names := isNamePart_of_moreAttributes found
      exact ⟨proper, fun _ => List.forall_mem_cons.mpr ⟨part, names⟩⟩
    next => exact .of_none
  · exact .of_none

theorem proper_likeRight? {left : Expr} (proper : left.IsProper) :
    Gives Expr.IsProper (likeRight? left tokens) := by
  rw [likeRight?.eq_def]
  split
  · exact .of_option fun _ => proper
  · exact .of_none

section

variable {fuel : Nat} (proper : ProperAt fuel)

include proper

theorem proper_expr? : Gives Expr.IsProper (expr? (fuel + 1) tokens) := by
  rw [expr?]
  split
  · refine .bind proper.expr fun condition _ first => .after fun _ => ?_
    refine .bind proper.expr fun yes _ second => .after fun _ => ?_
    exact .bind proper.expr fun no _ third => .of_some ⟨first, second, third⟩
  · exact .bind proper.conjunction fun left _ good => proper.disjunctionTail good

theorem proper_disjunctionTail? {left : Expr} (good : left.IsProper) :
    Gives Expr.IsProper (disjunctionTail? (fuel + 1) left tokens) := by
  rw [disjunctionTail?.eq_def]
  dsimp only
  split
  · exact .bind proper.conjunction fun _ _ right => proper.disjunctionTail ⟨good, right⟩
  · exact .of_some good

theorem proper_conjunctionTail? {left : Expr} (good : left.IsProper) :
    Gives Expr.IsProper (conjunctionTail? (fuel + 1) left tokens) := by
  rw [conjunctionTail?.eq_def]
  dsimp only
  split
  · exact .bind proper.relation fun _ _ right => proper.conjunctionTail ⟨good, right⟩
  · exact .of_some good

theorem proper_relation? : Gives Expr.IsProper (relation? (fuel + 1) tokens) := by
  rw [relation?]
  refine .bind proper.sum fun left rest good => ?_
  dsimp only
  split
  · split
    · exact .bind proper.sum fun _ _ right => .of_some ⟨good, right⟩
    · exact .of_some good
  · split
    · exact .bind proper.sum fun _ _ right => .of_some ⟨good, right⟩
    · split
      · exact proper_hasRight? good
      · split
        · exact proper_likeRight? good
        · split
          · refine .bind proper_name? fun type _ named => ?_
            dsimp only
            split
            · exact .bind proper.sum fun _ _ right => .of_some ⟨good, named, right⟩
            · exact .of_some ⟨good, named⟩
          · exact .of_some good
  · exact .of_some good

theorem proper_sumTail? {left : Expr} (good : left.IsProper) :
    Gives Expr.IsProper (sumTail? (fuel + 1) left tokens) := by
  rw [sumTail?.eq_def]
  dsimp only
  split
  · exact .bind proper.product fun _ _ right => proper.sumTail ⟨good, right⟩
  · exact .bind proper.product fun _ _ right => proper.sumTail ⟨good, right⟩
  · exact .of_some good

theorem proper_productTail? {left : Expr} (good : left.IsProper) :
    Gives Expr.IsProper (productTail? (fuel + 1) left tokens) := by
  rw [productTail?.eq_def]
  dsimp only
  split
  · exact .bind proper.signed fun _ _ right => proper.productTail ⟨good, right⟩
  · exact .of_some good

theorem isProper_negated (count : Nat) :
    Gives Expr.IsProper ((member? fuel tokens).map fun (arg, rest) =>
      (wrap .negate count arg, rest)) :=
  .map proper.member fun _ _ good => isProper_wrap .negate (fun _ kept => kept) good count

theorem proper_signed? : Gives Expr.IsProper (signed? (fuel + 1) tokens) := by
  rw [signed?]
  dsimp only
  split
  · split
    · exact .map proper.member fun _ _ good => isProper_wrap .not (fun _ kept => kept) good _
    · exact .of_none
  · split
    · exact .of_none
    · split
      · exact proper.member
      · split
        · exact isProper_negated proper _
        · intro read same
          obtain ⟨arg, found, rfl⟩ := Option.map_eq_some_iff.mp same
          exact isProper_wrap .negate (fun _ kept => kept) (isProper_int? found) _
      · exact isProper_negated proper _

theorem proper_accesses? {left : Expr} (good : left.IsProper) :
    Gives Expr.IsProper (accesses? (fuel + 1) left tokens) := by
  rw [accesses?.eq_def]
  dsimp only
  split
  · refine .bind proper.items fun args rest others => ?_
    intro read same
    obtain ⟨call, found, same⟩ := Option.bind_eq_some_iff.mp same
    exact proper.accesses (isProper_method? found good others) read same
  · split
    · exact proper.accesses good
    · exact .of_none
  · exact .of_none
  · exact .after fun _ => proper.accesses good
  · exact .of_none
  · exact .of_none
  · exact .of_some good

theorem proper_primary? : Gives Expr.IsProper (primary? (fuel + 1) tokens) := by
  rw [primary?.eq_def]
  dsimp only
  split
  · intro read same
    obtain ⟨arg, found, rfl⟩ := Option.map_eq_some_iff.mp same
    exact isProper_int? found
  · exact .of_option fun _ => trivial
  · exact .bind proper.expr fun inner _ good => .after fun _ => .of_some good
  · exact .map proper.items fun _ _ good => good
  · refine .map (proper.fields ⟨.nil, by simp⟩) fun fields _ good => ?_
    exact ⟨good.1, Expr.fieldsAreProper_iff.mpr good.2⟩
  · split
    · exact .of_some trivial
    · split
      · exact .of_some trivial
      · split
        · exact .map proper_entity? fun _ _ good => good
        · split
          next function found =>
            have plain := (Option.filter_eq_some_iff.mp found).2
            refine .map proper.items fun _ _ good => ⟨good, fun method => ?_⟩
            rw [method] at plain
            cases plain
          next => exact .of_none
        · exact .of_option fun _ => trivial
  · exact .of_none

theorem proper_items? {close : Mark} :
    Gives Expr.ItemsAreProper (items? (fuel + 1) close tokens) := by
  rw [items?]
  split
  · exact .of_some trivial
  · refine .bind proper.expr fun item rest good => ?_
    dsimp only
    split
    · exact .map proper.items fun _ _ others => ⟨good, others⟩
    · exact .of_option fun _ => ⟨good, trivial⟩

theorem proper_fields? {done : List (String × Expr)} (sorted : SortedFields done) :
    Gives SortedFields (fields? (fuel + 1) done tokens) := by
  rw [fields?]
  split
  · exact .of_some sorted
  · refine .after fun ⟨key, rest⟩ => ?_
    refine .bind proper.expr fun value rest good => ?_
    dsimp only
    split
    · exact .of_none
    next fresh =>
      have new : key ∉ done.map Prod.fst := by simpa using fresh
      have placed : SortedFields (KeyMap.place key value done) := by
        refine ⟨KeyMap.place_sorted key value sorted.1, fun field inside => ?_⟩
        obtain rfl | before := (KeyMap.mem_place_iff new).mp inside
        · exact good
        · exact sorted.2 field before
      split
      · exact proper.fields placed
      · exact .of_option fun _ => placed

end

/-- The readers of expressions give proper expressions. -/
theorem properAt (fuel : Nat) : ProperAt fuel := by
  induction fuel with
  | zero => exact properAt_zero
  | succ fuel proper =>
    exact {
      expr := proper_expr? proper
      disjunctionTail := proper_disjunctionTail? proper
      conjunction := .bind proper.relation fun _ _ good => proper.conjunctionTail good
      conjunctionTail := proper_conjunctionTail? proper
      relation := proper_relation? proper
      sum := .bind proper.product fun _ _ good => proper.sumTail good
      sumTail := proper_sumTail? proper
      product := .bind proper.signed fun _ _ good => proper.productTail good
      productTail := proper_productTail? proper
      signed := proper_signed? proper
      member := .bind proper.primary fun _ _ good => proper.accesses good
      accesses := proper_accesses? proper
      primary := proper_primary? proper
      items := proper_items? proper
      fields := proper_fields? proper }

/-! ### Policies -/

/-- The identifiers among some tokens are identifiers, as they are in a source. -/
def HasIdentifiers (tokens : List Token) : Prop :=
  ∀ name, .identifier name ∈ tokens → isIdentifier name.toList = true

/-- The keys of a map are identifiers. -/
def HasIdentifierKeys (map : KeyMap (Option String)) : Prop :=
  ∀ key ∈ map.keys, isIdentifier key.toList = true

theorem HasIdentifiers.mono {others : List Token} (identifiers : HasIdentifiers tokens)
    (subset : others ⊆ tokens) : HasIdentifiers others :=
  fun name inside => identifiers name (subset inside)

theorem HasIdentifierKeys.insert {map : KeyMap (Option String)} {key : String}
    (keys : HasIdentifierKeys map) (identifier : isIdentifier key.toList = true)
    (value : Option String) : HasIdentifierKeys (map.insert key value) := by
  intro other inside
  obtain ⟨row, there, rfl⟩ := List.mem_map.mp inside
  obtain same | before := KeyMap.mem_place there
  · exact same ▸ identifier
  · exact keys row.1 (List.mem_map_of_mem before)

theorem proper_annotations? {fuel : Nat} {done : KeyMap (Option String)}
    (keys : HasIdentifierKeys done) (identifiers : HasIdentifiers tokens) :
    Gives HasIdentifierKeys (annotations? fuel done tokens) := by
  induction fuel generalizing done tokens with
  | zero => exact .of_none
  | succ fuel ih =>
    rw [annotations?.eq_def]
    dsimp only
    split
    next key rest =>
      have identifier := identifiers key (by simp)
      split
      · exact .of_none
      · split
        · exact .after fun _ => ih (keys.insert identifier _)
            (identifiers.mono fun _ inside => by simp [inside])
        · exact .of_none
        · exact ih (keys.insert identifier _) (identifiers.mono fun _ inside => by simp [inside])
    · exact .of_none
    · exact .of_some keys

theorem proper_scopeEntity? {fuel : Nat} :
    Gives EntityUid.IsProper (scopeEntity? fuel tokens) := by
  induction fuel generalizing tokens with
  | zero => exact .of_none
  | succ fuel ih =>
    rw [scopeEntity?.eq_def]
    dsimp only
    split
    · exact .bind ih fun _ _ good => .after fun _ => .of_some good
    · exact proper_entity?

theorem proper_scopeEntities? {fuel : Nat} :
    Gives (fun uids => ∀ uid ∈ uids, EntityUid.IsProper uid) (scopeEntities? fuel tokens) := by
  induction fuel generalizing tokens with
  | zero => exact .of_none
  | succ fuel ih =>
    rw [scopeEntities?]
    split
    · exact .of_some (by simp)
    · refine .bind proper_scopeEntity? fun uid rest good => ?_
      dsimp only
      split
      · exact .map ih fun _ _ others => List.forall_mem_cons.mpr ⟨good, others⟩
      · exact .of_option fun _ => by simpa using good

theorem proper_scopeList? {fuel : Nat} :
    Gives (fun uids => ∀ uid ∈ uids, EntityUid.IsProper uid) (scopeList? fuel tokens) := by
  induction fuel generalizing tokens with
  | zero => exact .of_none
  | succ fuel ih =>
    rw [scopeList?.eq_def]
    dsimp only
    split
    · exact .bind ih fun _ _ good => .after fun _ => .of_some good
    · exact proper_scopeEntities?
    · exact .of_none

theorem proper_entityScope? : Gives EntityScope.IsProper (entityScope? tokens) := by
  rw [entityScope?.eq_def]
  split
  · exact .map proper_scopeEntity? fun _ _ good => good
  · split
    · exact .map proper_scopeEntity? fun _ _ good => good
    · split
      · refine .bind proper_name? fun type _ named => ?_
        dsimp only
        split
        · exact .map proper_scopeEntity? fun _ _ good => ⟨named, good⟩
        · exact .of_some named
      · exact .of_none
  · exact .of_some trivial

theorem proper_actionScope? : Gives ActionScope.IsProper (actionScope? tokens) := by
  rw [actionScope?.eq_def]
  split
  · exact .map proper_scopeEntity? fun _ _ good => good
  · split
    · split
      next found => exact .of_some (proper_scopeList? _ found)
      next => exact .map proper_scopeEntity? fun _ _ good => good
    · exact .of_none
  · exact .of_some trivial

theorem proper_conditions? {fuel : Nat} :
    Gives (fun conditions => ∀ condition ∈ conditions, condition.body.IsProper)
      (conditions? fuel tokens) := by
  induction fuel generalizing tokens with
  | zero => exact .of_none
  | succ fuel ih =>
    rw [conditions?.eq_def]
    dsimp only
    split
    · exact .of_some (by simp)
    · refine .after fun kind => .bind (properAt _).expr fun body _ good => .after fun _ => ?_
      exact .bind ih fun _ _ others => .of_some (List.forall_mem_cons.mpr ⟨good, others⟩)
    · exact .of_none

theorem proper_policy? (identifiers : HasIdentifiers tokens) :
    Gives IsProper (policy? tokens) := by
  have noKeys : HasIdentifierKeys .empty := by simp [HasIdentifierKeys, KeyMap.keys, KeyMap.empty]
  rw [policy?]
  refine .bind (proper_annotations? noKeys identifiers) fun annotations _ keys => ?_
  dsimp only
  split
  · refine .after fun effect => .after fun _ => ?_
    refine .bind proper_entityScope? fun principal _ principalProper => ?_
    refine .after fun _ => .after fun _ => ?_
    refine .bind proper_actionScope? fun action _ actionProper => ?_
    refine .after fun _ => .after fun _ => ?_
    refine .bind proper_entityScope? fun resource _ resourceProper => .after fun _ => ?_
    refine .bind proper_conditions? fun conditions _ conditionsProper => ?_
    dsimp only
    split
    next typed =>
      exact .of_some ⟨principalProper, actionProper, typed, resourceProper, conditionsProper, keys⟩
    next => exact .of_none
  · exact .of_none

/-- The identifiers of a source are identifiers. -/
theorem hasIdentifiers_of_lexes {source : List Char} (lexes : Lexes source tokens) :
    HasIdentifiers tokens := by
  induction lexes with
  | done => simp [HasIdentifiers]
  | @token _ _ _ token tokens _ read _ ih =>
    intro name inside
    obtain same | inside := List.mem_cons.mp inside
    · subst same
      cases Token.reads_of_next? read with
      | @identifier c rest _ letter =>
        rw [String.toList_ofList, isIdentifier, letter, Bool.true_and]
        exact List.all_takeWhile
    · exact ih name inside

/-- Every policy that is parsed is proper. -/
theorem isProper_of_parse? {source : List Char} {policy : Policy}
    (read : parse? source = some policy) : policy.IsProper := by
  rw [parse?] at read
  split at read
  next found =>
    obtain rfl := Option.some.inj read
    obtain ⟨tokens, lexed, found⟩ := Option.bind_eq_some_iff.mp found
    exact proper_policy? (hasIdentifiers_of_lexes (tokens?_eq_some_iff.mp lexed)) _ found
  next => cases read

end PolicyLedger.Policy.Parser
