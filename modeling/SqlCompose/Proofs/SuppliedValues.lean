import Mathlib
import SqlCompose.Proofs.Runs
import SqlCompose.Proofs.StatementParts
import SqlCompose.Session.Reading

/-!
# Values supplied with a condition

A condition brings values of its own and may be given further ones. A text has none of its own and takes the further ones for its markers; a predicate and a chain have all that they need and refuse more. A query has the values that it is built with, and further ones are neither taken nor refused: they are lost.

`Entry` lists the ways in which a condition with further values comes into a chain or a statement. In each of them the values that are held afterwards are those held before, those of the condition, and the further ones, unless the condition is a query.
-/

namespace SqlCompose

open Build

namespace Value

/-- The values themselves, or copies of copies of them. -/
inductive Copies (values : List Value) : List Value → Prop
  | refl : Copies values values
  | copied {copies : List Value} (next : Label) (further : Copies values copies) : Copies values (copyItems next copies).1

namespace Copies

variable {values copies others : List Value}

theorem length_eq (copied : Copies values copies) : copies.length = values.length := by
  induction copied with
  | refl => rfl
  | copied next _ ih => exact (length_copyItems next _).trans ih

theorem trans (copied : Copies values copies) (further : Copies copies others) : Copies values others := by
  induction further with
  | refl => exact copied
  | copied next _ ih => exact .copied next ih

theorem of_checkAll (copied : Copies values copies) (yields : (checkAll copies).Yields others) : Copies values others := by
  unfold checkAll at yields
  split at yields
  · exact absurd yields not_yields_throw
  · obtain ⟨trace, after, done⟩ := yields
    cases done
    exact .copied trace.nextLabel copied

end Copies

end Value

open Value (Copies)

theorem Predicate.copies_of_make {text : Wording} {values given : List Value} {predicate : Predicate}
    (copied : Copies values given) (made : (make text given).Yields predicate) : Copies values predicate.values := by
  obtain ⟨copies, checked, further⟩ := made.bind
  simp only at further
  split at further
  · rw [← yields_pure.mp further]
    exact copied.of_checkAll checked
  · exact absurd further not_yields_throw

/-! ### Conditions -/

namespace Condition

/-- The values that a condition has of its own; those of a query are found by building it. -/
inductive Brings : Condition → List Value → Prop
  | text (text : Wording) : Brings (.text text) []
  | predicate (predicate : Predicate) : Brings (.predicate predicate) predicate.values
  | chain (chain : Chain) : Brings (.chain chain) chain.values
  | query {query : Query} {built : BuiltQuery} (yields : (query.build (some false) none).Yields built) :
      Brings (.query query) built.values

/-- The further values that a condition takes. -/
def taken (further : List Value) : Condition → List Value
  | query _ => []
  | _ => further

/-- The values that a condition is turned into a predicate with are its own and the further ones that it takes. -/
def Supplies (condition : Condition) (further values : List Value) : Prop :=
  ∃ own, condition.Brings own ∧ Copies (own ++ condition.taken further) values

variable {condition : Condition} {further : List Value}

theorem supplies_toPredicate {predicate : Predicate} (made : (condition.toPredicate further).Yields predicate) :
    condition.Supplies further predicate.values := by
  cases condition with
  | text t => exact ⟨_, .text t, Predicate.copies_of_make .refl made⟩
  | predicate p =>
    rw [toPredicate] at made
    split at made
    · next none =>
      obtain rfl := List.isEmpty_iff.mp none
      obtain rfl := yields_pure.mp made
      exact ⟨_, .predicate p, by simpa [taken] using Copies.refl⟩
    · exact absurd made not_yields_throw
  | chain c =>
    obtain ⟨collapsed, first, ending⟩ := Yields.bind made
    split at ending
    · next none =>
      obtain rfl := yields_pure.mp ending
      obtain rfl := List.isEmpty_iff.mp none
      exact ⟨_, .chain c, by simpa [taken] using Predicate.copies_of_make .refl first⟩
    · exact absurd ending not_yields_throw
  | query q =>
    obtain ⟨built, yields, made⟩ := Yields.bind made
    obtain ⟨fragment, _, made⟩ := Yields.bind made
    obtain ⟨text, _, made⟩ := Yields.bind made
    exact ⟨_, .query yields, by simpa [taken] using Predicate.copies_of_make .refl made⟩
  | unbuildable => exact absurd made not_yields_throw
  | unusable =>
    obtain ⟨_, _, made⟩ := Yields.bind made
    exact absurd made not_yields_throw

theorem supplies_predicate {predicate : Predicate} {values : List Value} :
    (Condition.predicate predicate).Supplies [] values ↔ Copies predicate.values values := by
  constructor
  · rintro ⟨_, ⟨⟩, copied⟩
    simpa [taken] using copied
  · exact fun copied => ⟨_, .predicate predicate, by simpa [taken] using copied⟩

/-- An empty chain without further values supplies nothing. -/
theorem supplies_of_isVacant (vacant : condition.isVacant further = true) : condition.Supplies further [] := by
  cases condition with
  | chain c =>
    obtain ⟨empty, none⟩ := Bool.and_eq_true_iff.mp vacant
    obtain rfl := List.isEmpty_iff.mp none
    have own : c.values = [] := by rw [Chain.values, List.isEmpty_iff.mp empty, List.flatMap_nil]
    exact ⟨_, .chain c, by simpa [taken, own] using Copies.refl⟩
  | _ => cases vacant

end Condition

/-! ### Chains -/

namespace Chain

variable {chain chain' : Chain} {condition : Condition} {further : List Value}

theorem values_append (chain : Chain) (connective : Connective) (predicate : Predicate) :
    (chain.append connective predicate).values = chain.values ++ predicate.values := by
  simp [values, append]

theorem supplies_link {connective : Value} (done : (chain.link connective condition further).Yields chain') :
    ∃ values, chain'.values = chain.values ++ values ∧ condition.Supplies further values := by
  unfold link at done
  split at done
  · next vacant =>
    obtain rfl := yields_pure.mp done
    exact ⟨[], (List.append_nil _).symm, Condition.supplies_of_isVacant vacant⟩
  · obtain ⟨connective', _, done⟩ := done.bind
    obtain ⟨predicate, made, same⟩ := done.bind
    obtain rfl := yields_pure.mp same
    exact ⟨_, values_append .., Condition.supplies_toPredicate made⟩

theorem supplies_existence {negated : Bool} {predicate : Predicate}
    (done : (existence negated condition further).Yields predicate) : condition.Supplies further predicate.values := by
  obtain ⟨inner, made, done⟩ := Yields.bind done
  obtain ⟨own, brings, copied⟩ := Condition.supplies_toPredicate made
  exact ⟨own, brings, Predicate.copies_of_make copied done⟩

end Chain

/-! ### Statements -/

namespace Restriction

theorem values_chain (held : Held Chain) : (chain held).values = held.item.values := by
  rw [values, predicates, List.flatMap_map]
  rfl

theorem values_of_isVacant {restriction : Restriction} (vacant : restriction.isVacant = true) : restriction.values = [] := by
  cases restriction with
  | chain held =>
    rw [values_chain, Chain.values, List.isEmpty_iff.mp vacant, List.flatMap_nil]
  | predicate p => cases vacant
  | unusable _ _ => rfl

end Restriction

namespace Statement

variable {condition : Condition} {further : List Value} {filter filter' : Restriction} {connective : Connective}

theorem supplies_linkTo (done : (linkTo connective condition further filter).Yields filter') :
    ∃ values, filter'.values = filter.values ++ values ∧ condition.Supplies further values := by
  cases filter with
  | chain held =>
    obtain ⟨chain, linked, same⟩ := Yields.bind done
    obtain rfl := yields_pure.mp same
    simpa only [Restriction.values_chain] using Chain.supplies_link linked
  | predicate p => exact absurd done not_yields_throw
  | unusable _ _ => exact absurd done not_yields_throw

/-- A chain that is adopted as it is supplies its own values; all else is linked. -/
theorem supplies_restrict (done : (restrict connective condition further filter).Yields filter') :
    ∃ values, filter'.values = filter.values ++ values ∧ condition.Supplies further values := by
  cases condition with
  | chain c =>
    rw [restrict] at done
    by_cases adopted : (connective = .and && further.isEmpty && filter.isVacant) = true
    · simp only [adopted, if_true] at done
      obtain rfl := yields_pure.mp done
      simp only [Bool.and_eq_true] at adopted
      obtain rfl := List.isEmpty_iff.mp adopted.1.2
      refine ⟨c.values, ?_, _, .chain c, by simpa [Condition.taken] using Copies.refl⟩
      rw [Restriction.values_of_isVacant adopted.2, List.nil_append, Restriction.values_chain]
    · simp only [adopted] at done
      exact supplies_linkTo done
  | _ => exact supplies_linkTo done

end Statement

/-! ### Ways in -/

/-- The ways in which a condition with further values is taken: as a predicate of its own, as a link of a chain, in an `EXISTS`, among the conditions on the rows or on the groups of a statement, and as the `ON` of a join. -/
inductive Entry where
  | predicate
  | link (connective : Value) (chain : Chain)
  | existence (negated : Bool) (connective : Value) (chain : Chain)
  | rows (connective : Connective) (statement : Statement Query)
  | groups (statement : Statement Query)
  | join (kind : JoinKind) (source : JoinSource Query) (statement : Statement Query)

namespace Entry

open Statement (Edit)

/-- The values of the conditions on the rows, on the groups, and of the joins of a statement. -/
def rowValues (statement : Statement Query) : List Value :=
  statement.filter?.toList.flatMap Restriction.values

def groupValues (statement : Statement Query) : List Value :=
  statement.having?.toList.flatMap Restriction.values

def joinValues (statement : Statement Query) : List Value :=
  (statement.joins.filterMap (·.condition)).flatMap (·.values)

/-- The values there before the condition comes in. -/
def held : Entry → List Value
  | predicate => []
  | link _ chain | existence _ _ chain => chain.values
  | rows _ statement => rowValues statement
  | groups statement => groupValues statement
  | join _ _ statement => joinValues statement

/-- Takes a condition with further values, and gives the values that are there afterwards. -/
def take (condition : Condition) (further : List Value) : Entry → Build (List Value)
  | predicate => do return (← condition.toPredicate further).values
  | link connective chain => do return (← (Chain.Edit.link connective condition further).apply chain).values
  | existence negated connective chain => do
    return (← (Chain.Edit.existence negated connective condition further).apply chain).values
  | rows connective statement => do return rowValues (← (Edit.where connective condition further).apply statement)
  | groups statement => do return groupValues (← (Edit.having condition further).apply statement)
  | join kind source statement => do
    let on ← condition.toPredicate further
    return joinValues (← (Edit.join ⟨kind, source, some on⟩).apply statement)

private theorem rowValues_of_changeFilter {statement after : Statement Query} {change : Restriction → Build Restriction}
    (done : (statement.changeFilter change).Yields after) :
    ∃ filter filter', rowValues statement = filter.values ∧ rowValues after = filter'.values ∧ (change filter).Yields filter' := by
  cases statement with
  | select s | compound s | update s | delete s =>
    obtain ⟨filter', changed, same⟩ := Yields.bind done
    obtain rfl := yields_pure.mp same
    exact ⟨_, filter', List.append_nil _, List.append_nil _, changed⟩
  | built _ | insert _ | unbuildable => exact absurd done not_yields_throw

private theorem groupValues_of_changeHaving {statement after : Statement Query} {change : Restriction → Build Restriction}
    (done : (statement.changeHaving change).Yields after) :
    ∃ filter filter', groupValues statement = filter.values ∧ groupValues after = filter'.values ∧ (change filter).Yields filter' := by
  cases statement with
  | select s | compound s =>
    obtain ⟨filter', changed, same⟩ := Yields.bind done
    obtain rfl := yields_pure.mp same
    exact ⟨_, filter', List.append_nil _, List.append_nil _, changed⟩
  | built _ | insert _ | update _ | delete _ | unbuildable => exact absurd done not_yields_throw

private theorem joinValues_of_addJoin {statement after : Statement Query} {kind : JoinKind} {source : JoinSource Query}
    {on : Predicate} (done : (statement.addJoin ⟨kind, source, some on⟩).Yields after) :
    joinValues after = joinValues statement ++ on.values := by
  cases statement with
  | select s | update s =>
    obtain rfl := yields_pure.mp done
    simp [joinValues, Statement.joins]
  | built _ | compound _ | insert _ | delete _ | unbuildable => exact absurd done not_yields_throw

/-- Whichever way a condition comes in, its own values and the further ones that it takes are put behind those that are there. -/
private theorem supplies_take {entry : Entry} {condition : Condition} {further after : List Value}
    (done : (entry.take condition further).Yields after) :
    ∃ values, after = entry.held ++ values ∧ condition.Supplies further values := by
  cases entry with
  | predicate =>
    obtain ⟨made, yields, same⟩ := Yields.bind done
    obtain rfl := yields_pure.mp same
    exact ⟨_, rfl, Condition.supplies_toPredicate yields⟩
  | link connective chain =>
    obtain ⟨chain', linked, same⟩ := Yields.bind done
    obtain rfl := yields_pure.mp same
    exact Chain.supplies_link linked
  | existence negated connective chain =>
    obtain ⟨chain', changed, same⟩ := Yields.bind done
    obtain rfl := yields_pure.mp same
    obtain ⟨exists', made, linked⟩ := Yields.bind changed
    obtain ⟨own, brings, copied⟩ := Chain.supplies_existence made
    obtain ⟨values, same, supplied⟩ := Chain.supplies_link linked
    exact ⟨values, same, own, brings, copied.trans (Condition.supplies_predicate.mp supplied)⟩
  | rows connective statement =>
    obtain ⟨statement', changed, same⟩ := Yields.bind done
    obtain rfl := yields_pure.mp same
    obtain ⟨filter, filter', before, behind, restricted⟩ := rowValues_of_changeFilter changed
    rw [behind, held, before]
    exact Statement.supplies_restrict restricted
  | groups statement =>
    obtain ⟨statement', changed, same⟩ := Yields.bind done
    obtain rfl := yields_pure.mp same
    obtain ⟨filter, filter', before, behind, linked⟩ := groupValues_of_changeHaving changed
    rw [behind, held, before]
    exact Statement.supplies_linkTo linked
  | join kind source statement =>
    obtain ⟨on, made, added⟩ := Yields.bind done
    obtain ⟨statement', changed, same⟩ := Yields.bind added
    obtain rfl := yields_pure.mp same
    exact ⟨_, joinValues_of_addJoin changed, Condition.supplies_toPredicate made⟩

/-- The `ON` of a join is read as a condition, and supplies what any condition supplies. -/
private theorem supplies_joinCondition {session after : Session} {given : Value} {further : List Value} {on : Predicate}
    (run : (Act.joinCondition given further).Runs session (.ok (some on)) after) :
    ∃ condition between, (Act.condition given).Runs session (.ok condition) between ∧ condition.Supplies further on.values := by
  have read : given ≠ .null := by
    rintro rfl
    cases (Act.runs_pure.mp run).1
  have run : (Act.predicate given further >>= fun on => pure (some on)).Runs session (.ok (some on)) after := by
    cases given with
    | null => exact absurd rfl read
    | _ => exact run
  obtain ⟨made, later, run, same⟩ := run.bind_ok
  obtain rfl := Option.some.inj (Except.ok.inj (Act.runs_pure.mp same).1)
  obtain ⟨condition, between, isCondition, built⟩ := run.bind_ok
  exact ⟨condition, between, isCondition, Condition.supplies_toPredicate built.yields⟩

/-- Whichever way a condition comes in with further values, there are afterwards the values held before, and behind them copies of its own and of the further ones, all of them unless the condition is a query; a query takes no further values and refuses none. So it is for the `ON` of a join that is read in a session. -/
theorem supplied_values (further : List Value) :
    (∀ (entry : Entry) (condition : Condition) (after : List Value), (entry.take condition further).Yields after →
      ∃ values own, after = entry.held ++ values ∧ condition.Brings own ∧ Copies (own ++ condition.taken further) values) ∧
    (∀ (session after : Session) (given : Value) (on : Predicate),
      (Act.joinCondition given further).Runs session (.ok (some on)) after →
      ∃ condition between own, (Act.condition given).Runs session (.ok condition) between ∧ condition.Brings own ∧
        Copies (own ++ condition.taken further) on.values) := by
  constructor
  · intro entry condition after done
    obtain ⟨values, same, own, brings, copied⟩ := supplies_take done
    exact ⟨values, own, same, brings, copied⟩
  · intro session after given on run
    obtain ⟨condition, between, isCondition, own, brings, copied⟩ := supplies_joinCondition run
    exact ⟨condition, between, own, isCondition, brings, copied⟩

private def unrestricted : Statement Query :=
  .select { table := .text "t" }

/-- Two values for two markers, among the conditions on the rows. -/
theorem supplied_values_to_rows : ∃ values own, [.int 1, .int 2] = (Entry.rows .and unrestricted).held ++ values ∧
    (Condition.text (.plain "a = ? AND b = ?")).Brings own ∧ Copies (own ++ [.int 1, .int 2]) values :=
  (supplied_values [.int 1, .int 2]).1 (.rows .and unrestricted) (.text (.plain "a = ? AND b = ?")) _ ⟨{}, _, rfl⟩

/-- A value that is given with a finished query in an `EXISTS` is not refused, and is not there afterwards. -/
theorem lost_with_query : ∃ (entry : Entry) (condition : Condition) (further after : List Value),
    (entry.take condition further).Yields after ∧
      ¬ ∃ values own, after = entry.held ++ values ∧ condition.Brings own ∧ Copies (own ++ further) values := by
  refine ⟨.existence false (.text "AND") {}, .query (.of (.built ⟨.text "SELECT 1", []⟩)), [.int 5], [], ⟨{}, _, rfl⟩, ?_⟩
  rintro ⟨values, own, none, -, copied⟩
  obtain rfl : [] = values := none
  have length := copied.length_eq
  rw [List.length_append] at length
  cases length

end Entry

end SqlCompose
