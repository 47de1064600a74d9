import Mathlib
import SqlCompose.Proofs.BuiltValues
import SqlCompose.Query.Edit

/-!
# What changes bring in

A change of a chain or of a statement leaves it under the rules that it was under, widened by the values that were copied in the course of the change: these are the only values that a change binds besides those that predicates bring along. Everything else that it puts in was given to it.

A change never puts a chain into other hands; only giving a statement other conditions does, and then these are asked to be in the right hands.
-/

namespace SqlCompose

open Build

namespace Rules

/-- The rules, with values bound that can be and have containers made from a first label on. -/
def grown (rules : Rules) (first next : Label) : Rules :=
  { rules with bound := fun value => rules.bound value ∨ value.Made first next }

variable {rules : Rules} {first next next' : Label}

theorem implies_grown : rules.Implies (rules.grown first next) :=
  ⟨fun _ good => .inl good, fun _ good => good, fun _ good => good, fun _ good => good⟩

theorem grown_implies (after : next ≤ next') : (rules.grown first next).Implies (rules.grown first next') :=
  ⟨fun _ good => good.imp_right (·.later after), fun _ good => good, fun _ good => good, fun _ good => good⟩

theorem Within.grown {holds : Value → Prop} (free : Value.OfHandles holds) (within : rules.Within holds) :
    (rules.grown first next).Within holds :=
  ⟨fun value good => good.elim (within.bound value) fun made => Value.everywhere_of_bindable free value made.bindable,
    within.other, within.finished⟩

end Rules

variable {holds : Value → Prop} {rules : Rules} {first stage : Label}

/-! ### Conditions -/

/-- What a condition brings along is under the rules; whoever else holds a part of it does not matter. -/
def Condition.Under (rules : Rules) : Condition → Prop
  | .text _ | .unbuildable | .unusable => True
  | .predicate p => p.Under rules
  | .chain c => c.Under rules
  | .query q => q.Under rules.lax

theorem Condition.Under.mono {rules' : Rules} {condition : Condition} (under : condition.Under rules)
    (weaker : rules.Implies rules') : condition.Under rules' := by
  cases condition with
  | predicate p => exact Predicate.Under.mono under weaker
  | chain c => exact Chain.Under.mono under weaker
  | query q => exact Query.Under.mono under ⟨weaker.bound, weaker.other, weaker.finished, fun _ _ => trivial⟩
  | _ => trivial

section Conditions

variable (free : Value.OfHandles holds) (within : rules.Within holds) (ahead : first ≤ stage)

include ahead in
theorem Predicate.gives_makeUnder (rules : Rules) (text : Wording) (values : List Value) :
    Gives stage (make text values) fun next predicate => predicate.Under (rules.grown first next) :=
  ((gives_make text values).mono ahead).imp fun _ _ _ made value member => .inr (made value member)

include free within ahead

theorem Condition.gives_toPredicate {condition : Condition} (under : condition.Under (rules.grown first stage))
    (values : List Value) :
    Gives stage (condition.toPredicate values) fun next predicate => predicate.Under (rules.grown first next) := by
  cases condition with
  | text t => exact Predicate.gives_makeUnder ahead rules t values
  | predicate p =>
    rw [toPredicate]
    split
    · exact Keeps.pure fun _ further => Predicate.Under.mono under (Rules.grown_implies further)
    · exact Keeps.throw _
  | chain c =>
    have whole := Predicate.gives_makeUnder ahead rules (.plain (c.text true)) c.values
    refine whole.bind fun _ _ predicate good => ?_
    split
    · exact Keeps.pure fun _ further => good.mono (Rules.grown_implies further)
    · exact Keeps.throw _
  | query q =>
    have inside : (rules.grown first stage).lax.Within holds := ⟨(within.grown free).bound, within.other, within.finished⟩
    refine (Query.gives_buildPart free inside under (some false) none).bind fun _ further _ _ => ?_
    refine Keeps.after fun _ _ => Keeps.after fun _ _ => ?_
    exact Predicate.gives_makeUnder (ahead.trans further) rules _ _
  | unbuildable => exact Keeps.throw _
  | unusable => exact (Value.gives_checkAll values).bind fun _ _ _ _ => Keeps.throw _

namespace Chain

omit free within ahead in
theorem Under.append {chain : Chain} (under : chain.Under rules) {predicate : Predicate} (good : predicate.Under rules)
    (connective : Connective) : (chain.append connective predicate).Under rules :=
  List.forall_mem_append.mpr ⟨under, List.forall_mem_singleton.mpr good⟩

theorem gives_link {chain : Chain} (under : chain.Under (rules.grown first stage)) {condition : Condition}
    (given : condition.Under (rules.grown first stage)) (connective : Value) (values : List Value) :
    Gives stage (chain.link connective condition values) fun next changed => changed.Under (rules.grown first next) := by
  unfold link
  split
  · exact Keeps.pure fun _ further => under.mono (Rules.grown_implies further)
  · refine Keeps.after fun connective _ => ?_
    refine (Condition.gives_toPredicate free within ahead given values).bind fun _ further predicate good => ?_
    exact Keeps.pure fun _ further' =>
      ((under.mono (Rules.grown_implies further)).append good connective).mono (Rules.grown_implies further')

theorem gives_existence {condition : Condition} (given : condition.Under (rules.grown first stage)) (negated : Bool)
    (values : List Value) :
    Gives stage (existence negated condition values) fun next predicate => predicate.Under (rules.grown first next) :=
  (Condition.gives_toPredicate free within ahead given values).bind fun _ further _ _ =>
    Predicate.gives_makeUnder (ahead.trans further) rules _ _

namespace Edit

/-- What a change of a chain puts into it is under the rules. -/
def Under (rules : Rules) : Edit → Prop
  | link _ condition _ | existence _ _ condition _ => condition.Under rules
  | clear => True

omit free within ahead in
theorem Under.mono {rules' : Rules} {edit : Edit} (under : edit.Under rules) (weaker : rules.Implies rules') : edit.Under rules' := by
  cases edit with
  | link _ _ _ | existence _ _ _ _ => exact Condition.Under.mono under weaker
  | clear => trivial

theorem gives_apply {chain : Chain} (under : chain.Under (rules.grown first stage)) {edit : Edit}
    (given : edit.Under (rules.grown first stage)) :
    Gives stage (edit.apply chain) fun next changed => changed.Under (rules.grown first next) := by
  cases edit with
  | link connective condition values => exact gives_link free within ahead under given connective values
  | existence negated connective condition values =>
    refine (gives_existence free within ahead given negated values).bind fun _ further predicate good => ?_
    have given : (Condition.predicate predicate).Under _ := good
    exact gives_link free within (ahead.trans further) (under.mono (Rules.grown_implies further)) given connective []
  | clear => exact Keeps.pure fun _ _ => forall_nothing

theorem gives_applyAll {edits : List Edit} {chain : Chain} (under : chain.Under (rules.grown first stage))
    (given : ∀ edit ∈ edits, edit.Under (rules.grown first stage)) :
    Gives stage (applyAll chain edits) fun next changed => changed.Under (rules.grown first next) := by
  induction edits generalizing stage chain with
  | nil => exact Keeps.pure fun _ further => under.mono (Rules.grown_implies further)
  | cons edit edits ih =>
    rw [List.forall_mem_cons] at given
    rw [applyAll, List.foldlM_cons]
    refine (gives_apply free within ahead under given.1).bind fun _ further changed good => ?_
    exact ih (ahead.trans further) good fun edit member => (given.2 edit member).mono (Rules.grown_implies further)

theorem gives_similar (field query threshold connective : Value) :
    Gives stage (similar field query threshold connective) fun next edit => edit.Under (rules.grown first next) := by
  refine Keeps.after fun field _ => ?_
  have blank : Chain.Under (rules.grown first stage) {} := forall_nothing
  refine (gives_applyAll free within ahead blank ?_).bind fun _ _ both good =>
    Keeps.pure fun _ further => good.mono (Rules.grown_implies further)
  simp [ofText, Under, Condition.Under]

end Edit

end Chain

namespace Statement

theorem gives_linkTo {restriction : Restriction} (under : restriction.Under (rules.grown first stage)) {condition : Condition}
    (given : condition.Under (rules.grown first stage)) (connective : Connective) (values : List Value) :
    Gives stage (linkTo connective condition values restriction) fun next changed => changed.Under (rules.grown first next) := by
  cases restriction with
  | chain held =>
    refine (Chain.gives_link free within ahead under.1 given _ values).bind fun _ _ chain good => Keeps.pure fun _ further => ?_
    exact ⟨good.mono (Rules.grown_implies further), under.2⟩
  | predicate _ | unusable _ _ => exact Keeps.throw _

theorem gives_restrict {restriction : Restriction} (under : restriction.Under (rules.grown first stage)) {condition : Condition}
    (given : condition.Under (rules.grown first stage)) (connective : Connective) (values : List Value) :
    Gives stage (restrict connective condition values restriction) fun next changed => changed.Under (rules.grown first next) := by
  unfold restrict
  dsimp only
  split
  · next chain adopted =>
    refine Keeps.pure fun _ further => ⟨?_, by rintro _ ⟨⟩⟩
    cases condition with
    | chain c =>
      dsimp only at adopted
      split at adopted
      · cases adopted
        exact Chain.Under.mono given (Rules.grown_implies further)
      · cases adopted
    | _ => cases adopted
  · exact gives_linkTo free within ahead under given connective values

end Statement

end Conditions

/-! ### Parts of a statement -/

/-- What a column is assigned is under the rules. -/
def Assigned.Under (rules : Rules) : Assigned → Prop
  | .value bound => rules.bound bound
  | .expression written => rules.other written

theorem Query.under_of {statement : Statement Query} :
    (Query.of statement).Under rules ↔ statement.Under rules ∧ ∀ child ∈ statement.children, child.Under rules.closed :=
  ⟨fun ⟨own, parts⟩ => ⟨own, parts⟩, fun ⟨own, parts⟩ => .of own parts⟩

namespace Statement

/-- A statement that can be worked on: it is no finished query, and under the rules with all that is in it. -/
abbrev Workable (rules : Rules) (statement : Statement Query) : Prop :=
  (Object.query (.of statement)).Under rules

/-- The statements inside a statement are those of its expressions, those that are joined, and others. -/
private theorem forall_children {property : Query → Prop} {ctes : List (Cte Query)} {joins : List (Join Query)} {others : List Query} :
    (∀ child ∈ ctes.filterMap (·.query) ++ joins.filterMap Join.child? ++ others, property child) ↔
      (∀ cte ∈ ctes, ∀ query ∈ cte.query, property query) ∧ (∀ join ∈ joins, ∀ query ∈ join.child?, property query) ∧
        ∀ query ∈ others, property query := by
  have within {α : Type} {f : α → Option Query} {items : List α} :
      (∀ query ∈ items.filterMap f, property query) ↔ ∀ item ∈ items, ∀ query ∈ f item, property query :=
    ⟨fun all item member query given => all query (List.mem_filterMap.mpr ⟨item, member, given⟩), fun all query member => by
      obtain ⟨item, inside, given⟩ := List.mem_filterMap.mp member
      exact all item inside query given⟩
  rw [List.forall_mem_append, List.forall_mem_append, within, within, and_assoc]

section Parts

variable {statement : Statement Query} (workable : statement.Workable rules)
include workable

private theorem gives_changeSettings {change : Settings → Settings}
    (changed : ∀ settings : Settings, settings.Under rules → (change settings).Under rules) :
    Gives stage (statement.changeSettings change) fun _ after => after.Workable rules := by
  obtain ⟨⟨own, parts⟩, _⟩ := workable
  have settings : ∀ settings ∈ statement.settings?.map change, settings.Under rules := by
    intro _ member
    obtain ⟨given, inside, rfl⟩ := Option.mem_map.mp member
    exact changed given (own.settings given inside)
  cases statement with
  | built _ | unbuildable => exact Keeps.throw _
  | select s => exact Keeps.pure fun _ _ => ⟨.of { own with settings, leaf := by rintro _ ⟨⟩ } parts, by rintro _ ⟨⟩⟩
  | compound s => exact Keeps.pure fun _ _ => ⟨.of { own with settings, leaf := by rintro _ ⟨⟩ } parts, by rintro _ ⟨⟩⟩
  | insert s => exact Keeps.pure fun _ _ => ⟨.of { own with settings, leaf := by rintro _ ⟨⟩ } parts, by rintro _ ⟨⟩⟩
  | update s => exact Keeps.pure fun _ _ => ⟨.of { own with settings, leaf := by rintro _ ⟨⟩ } parts, by rintro _ ⟨⟩⟩
  | delete s => exact Keeps.pure fun _ _ => ⟨.of { own with settings, leaf := by rintro _ ⟨⟩ } parts, by rintro _ ⟨⟩⟩

private theorem gives_setCtes {given : Option (List (Cte Query))} (good : ∀ cte ∈ given.getD [], cte.UnderAll rules) :
    Gives stage (statement.setCtes given) fun _ after => after.Workable rules := by
  obtain ⟨⟨own, parts⟩, _⟩ := workable
  have ctes : ∀ cte ∈ given.getD [], cte.Under rules := fun cte member => (good cte member).toUnder
  have inside := (forall_children.mp parts).2
  have parts := forall_children.mpr ⟨fun cte member => (good cte member).query, inside⟩
  cases statement with
  | built _ | unbuildable => exact Keeps.throw _
  | select s => exact Keeps.pure fun _ _ => ⟨.of { own with ctes, leaf := by rintro _ ⟨⟩ } parts, by rintro _ ⟨⟩⟩
  | compound s => exact Keeps.pure fun _ _ => ⟨.of { own with ctes, leaf := by rintro _ ⟨⟩ } parts, by rintro _ ⟨⟩⟩
  | insert s => exact Keeps.pure fun _ _ => ⟨.of { own with ctes, leaf := by rintro _ ⟨⟩ } parts, by rintro _ ⟨⟩⟩
  | update s => exact Keeps.pure fun _ _ => ⟨.of { own with ctes, leaf := by rintro _ ⟨⟩ } parts, by rintro _ ⟨⟩⟩
  | delete s => exact Keeps.pure fun _ _ => ⟨.of { own with ctes, leaf := by rintro _ ⟨⟩ } parts, by rintro _ ⟨⟩⟩

private theorem gives_setTable {table name : Value} (first : rules.other table) (second : rules.other name) :
    Gives stage (statement.setTable table name) fun _ after => after.Workable rules := by
  obtain ⟨⟨own, parts⟩, _⟩ := workable
  cases statement with
  | built _ | compound _ | unbuildable => exact Keeps.throw _
  | select s =>
    have ownNames := List.forall_mem_cons.mpr ⟨first, List.forall_mem_cons.mpr ⟨second,
      (List.forall_mem_cons.mp (List.forall_mem_cons.mp own.ownNames).2).2⟩⟩
    exact Keeps.pure fun _ _ => ⟨.of { own with ownNames, leaf := by rintro _ ⟨⟩ } parts, by rintro _ ⟨⟩⟩
  | insert s =>
    have ownNames := List.forall_mem_cons.mpr ⟨first, (List.forall_mem_cons.mp own.ownNames).2⟩
    exact Keeps.pure fun _ _ => ⟨.of { own with ownNames, leaf := by rintro _ ⟨⟩ } parts, by rintro _ ⟨⟩⟩
  | update s =>
    have ownNames := List.forall_mem_cons.mpr ⟨first, List.forall_mem_cons.mpr ⟨second,
      (List.forall_mem_cons.mp (List.forall_mem_cons.mp own.ownNames).2).2⟩⟩
    exact Keeps.pure fun _ _ => ⟨.of { own with ownNames, leaf := by rintro _ ⟨⟩ } parts, by rintro _ ⟨⟩⟩
  | delete s =>
    have ownNames := List.forall_mem_cons.mpr ⟨first, List.forall_mem_cons.mpr ⟨second,
      (List.forall_mem_cons.mp (List.forall_mem_cons.mp own.ownNames).2).2⟩⟩
    exact Keeps.pure fun _ _ => ⟨.of { own with ownNames, leaf := by rintro _ ⟨⟩ } parts, by rintro _ ⟨⟩⟩

private theorem gives_addOther {table name : Value} (first : rules.other table) (second : rules.other name) :
    Gives stage (statement.addOther table name) fun _ after => after.Workable rules := by
  obtain ⟨⟨own, parts⟩, _⟩ := workable
  cases statement with
  | update s =>
    obtain ⟨table, own', assigned, _⟩ : rules.other s.table ∧ rules.other s.name ∧
        (∀ column ∈ s.assignments.map (·.1), rules.other column) ∧ True := by
      have all := own.ownNames
      simp only [ownNames, List.forall_mem_cons, List.forall_mem_append] at all
      exact ⟨all.1, all.2.1, all.2.2.1, trivial⟩
    refine Keeps.pure fun _ _ => ⟨.of { own with ownNames := ?_, leaf := by rintro _ ⟨⟩ } parts, by rintro _ ⟨⟩⟩
    simp only [ownNames, Option.toList_some, List.flatMap_singleton, List.forall_mem_cons, List.forall_mem_append]
    exact ⟨table, own', assigned, first, second, forall_nothing⟩
  | delete s =>
    refine Keeps.pure fun _ _ => ⟨.of { own with ownNames := ?_, leaf := by rintro _ ⟨⟩ } parts, by rintro _ ⟨⟩⟩
    have all := own.ownNames
    simp only [ownNames, List.flatMap_append, List.flatMap_singleton, List.forall_mem_cons, List.forall_mem_append] at all ⊢
    exact ⟨all.1, all.2.1, all.2.2, first, second, forall_nothing⟩
  | _ => exact Keeps.throw _

private theorem gives_changeFields {change : List Field → List Field}
    (changed : ∀ fields : List Field, (∀ field ∈ fields, rules.other field.value) → ∀ field ∈ change fields, rules.other field.value) :
    Gives stage (statement.changeFields change) fun _ after => after.Workable rules := by
  obtain ⟨⟨own, parts⟩, _⟩ := workable
  cases statement with
  | select s => exact Keeps.pure fun _ _ => ⟨.of { own with fields := changed _ own.fields, leaf := by rintro _ ⟨⟩ } parts, by rintro _ ⟨⟩⟩
  | compound s => exact Keeps.pure fun _ _ => ⟨.of { own with fields := changed _ own.fields, leaf := by rintro _ ⟨⟩ } parts, by rintro _ ⟨⟩⟩
  | _ => exact Keeps.throw _

private theorem gives_changeReturning {change : List Field → List Field}
    (changed : ∀ fields : List Field, (∀ field ∈ fields, rules.other field.value) → ∀ field ∈ change fields, rules.other field.value) :
    Gives stage (statement.changeReturning change) fun _ after => after.Workable rules := by
  obtain ⟨⟨own, parts⟩, _⟩ := workable
  cases statement with
  | insert s => exact Keeps.pure fun _ _ => ⟨.of { own with fields := changed _ own.fields, leaf := by rintro _ ⟨⟩ } parts, by rintro _ ⟨⟩⟩
  | update s => exact Keeps.pure fun _ _ => ⟨.of { own with fields := changed _ own.fields, leaf := by rintro _ ⟨⟩ } parts, by rintro _ ⟨⟩⟩
  | delete s => exact Keeps.pure fun _ _ => ⟨.of { own with fields := changed _ own.fields, leaf := by rintro _ ⟨⟩ } parts, by rintro _ ⟨⟩⟩
  | _ => exact Keeps.throw _

private theorem gives_changeGroups {change : List Value → List Value}
    (changed : ∀ groups : List Value, (∀ group ∈ groups, rules.other group) → ∀ group ∈ change groups, rules.other group) :
    Gives stage (statement.changeGroups change) fun _ after => after.Workable rules := by
  obtain ⟨⟨own, parts⟩, _⟩ := workable
  have all := own.ownNames
  cases statement with
  | select s =>
    refine Keeps.pure fun _ _ => ⟨.of { own with ownNames := ?_, leaf := by rintro _ ⟨⟩ } parts, by rintro _ ⟨⟩⟩
    simp only [ownNames, List.forall_mem_cons, List.forall_mem_append] at all ⊢
    exact ⟨all.1, all.2.1, changed _ all.2.2.1, all.2.2.2⟩
  | compound s =>
    refine Keeps.pure fun _ _ => ⟨.of { own with ownNames := ?_, leaf := by rintro _ ⟨⟩ } parts, by rintro _ ⟨⟩⟩
    simp only [ownNames, List.forall_mem_cons, List.forall_mem_append] at all ⊢
    exact ⟨all.1, changed _ all.2.1, all.2.2⟩
  | _ => exact Keeps.throw _

private theorem gives_changeOrders {change : List OrderBy → List OrderBy}
    (changed : ∀ orders : List OrderBy, (∀ order ∈ orders, rules.other order.field) → ∀ order ∈ change orders, rules.other order.field) :
    Gives stage (statement.changeOrders change) fun _ after => after.Workable rules := by
  obtain ⟨⟨own, parts⟩, _⟩ := workable
  have all := own.ownNames
  cases statement with
  | select s =>
    refine Keeps.pure fun _ _ => ⟨.of { own with ownNames := ?_, leaf := by rintro _ ⟨⟩ } parts, by rintro _ ⟨⟩⟩
    simp only [ownNames, List.forall_mem_cons, List.forall_mem_append, List.forall_mem_map] at all ⊢
    exact ⟨all.1, all.2.1, all.2.2.1, changed _ all.2.2.2⟩
  | compound s =>
    refine Keeps.pure fun _ _ => ⟨.of { own with ownNames := ?_, leaf := by rintro _ ⟨⟩ } parts, by rintro _ ⟨⟩⟩
    simp only [ownNames, List.forall_mem_cons, List.forall_mem_append, List.forall_mem_map] at all ⊢
    exact ⟨all.1, all.2.1, changed _ all.2.2⟩
  | _ => exact Keeps.throw _

private theorem gives_changePaging (change : Paging → Paging) :
    Gives stage (statement.changePaging change) fun _ after => after.Workable rules := by
  obtain ⟨⟨own, parts⟩, _⟩ := workable
  cases statement with
  | select s => exact Keeps.pure fun _ _ => ⟨.of { own with leaf := by rintro _ ⟨⟩ } parts, by rintro _ ⟨⟩⟩
  | compound s => exact Keeps.pure fun _ _ => ⟨.of { own with leaf := by rintro _ ⟨⟩ } parts, by rintro _ ⟨⟩⟩
  | _ => exact Keeps.throw _

private theorem gives_addJoin {join : Join Query} (good : join.Under rules) (inside : ∀ query ∈ join.child?, query.Under rules.closed) :
    Gives stage (statement.addJoin join) fun _ after => after.Workable rules := by
  obtain ⟨⟨own, parts⟩, _⟩ := workable
  have joins : ∀ join' ∈ statement.joins ++ [join], join'.Under rules :=
    List.forall_mem_append.mpr ⟨own.joins, List.forall_mem_singleton.mpr good⟩
  obtain ⟨first, second, third⟩ := forall_children.mp parts
  have parts := forall_children.mpr
    ⟨first, List.forall_mem_append.mpr ⟨second, List.forall_mem_singleton.mpr inside⟩, third⟩
  cases statement with
  | select s => exact Keeps.pure fun _ _ => ⟨.of { own with joins, leaf := by rintro _ ⟨⟩ } parts, by rintro _ ⟨⟩⟩
  | update s => exact Keeps.pure fun _ _ => ⟨.of { own with joins, leaf := by rintro _ ⟨⟩ } parts, by rintro _ ⟨⟩⟩
  | _ => exact Keeps.throw _

private theorem gives_changeSelect {change : Select Query → Select Query}
    (changed : ∀ s, (Statement.select s).Workable rules → (Statement.select (change s)).Workable rules) :
    Gives stage (statement.changeSelect change) fun _ after => after.Workable rules := by
  cases statement with
  | select s => exact Keeps.pure fun _ _ => changed s workable
  | _ => exact Keeps.throw _

private theorem gives_changeCompound {change : Compound Query → Compound Query}
    (changed : ∀ s, (Statement.compound s).Workable rules → (Statement.compound (change s)).Workable rules) :
    Gives stage (statement.changeCompound change) fun _ after => after.Workable rules := by
  cases statement with
  | compound s => exact Keeps.pure fun _ _ => changed s workable
  | _ => exact Keeps.throw _

private theorem gives_changeInsert {change : Insert Query → Insert Query}
    (changed : ∀ s, (Statement.insert s).Workable rules → (Statement.insert (change s)).Workable rules) :
    Gives stage (statement.changeInsert change) fun _ after => after.Workable rules := by
  cases statement with
  | insert s => exact Keeps.pure fun _ _ => changed s workable
  | _ => exact Keeps.throw _

private theorem gives_changeUpdate {change : Update Query → Update Query}
    (changed : ∀ s, (Statement.update s).Workable rules → (Statement.update (change s)).Workable rules) :
    Gives stage (statement.changeUpdate change) fun _ after => after.Workable rules := by
  cases statement with
  | update s => exact Keeps.pure fun _ _ => changed s workable
  | _ => exact Keeps.throw _

end Parts

section Restricting

variable {statement : Statement Query} (workable : statement.Workable (rules.grown first stage))
  {change : Restriction → Build Restriction}
  (changed : ∀ restriction : Restriction, restriction.Under (rules.grown first stage) →
    Gives stage (change restriction) fun next after => after.Under (rules.grown first next))

private theorem Workable.later {next next' : Label} {s : Statement Query} (good : s.Workable (rules.grown first next))
    (further : next ≤ next') : s.Workable (rules.grown first next') :=
  good.mono (Rules.grown_implies further)

include workable changed

private theorem gives_changeFilter :
    Gives stage (statement.changeFilter change) fun next after => after.Workable (rules.grown first next) := by
  have started := (Query.under_of.mp workable.1).1.restrictions
  cases statement with
  | select s =>
    refine (changed s.filter (List.forall_mem_cons.mp started).1).bind fun _ ahead filter good => Keeps.pure fun _ further => ?_
    obtain ⟨own, parts⟩ := Query.under_of.mp (workable.later ahead).1
    have restrictions := List.forall_mem_cons.mpr ⟨good, (List.forall_mem_cons.mp own.restrictions).2⟩
    exact Workable.later ⟨.of { own with restrictions, leaf := by rintro _ ⟨⟩ } parts, by rintro _ ⟨⟩⟩ further
  | compound s =>
    refine (changed s.filter (List.forall_mem_cons.mp started).1).bind fun _ ahead filter good => Keeps.pure fun _ further => ?_
    obtain ⟨own, parts⟩ := Query.under_of.mp (workable.later ahead).1
    have restrictions := List.forall_mem_cons.mpr ⟨good, (List.forall_mem_cons.mp own.restrictions).2⟩
    exact Workable.later ⟨.of { own with restrictions, leaf := by rintro _ ⟨⟩ } parts, by rintro _ ⟨⟩⟩ further
  | update s =>
    refine (changed s.filter (List.forall_mem_cons.mp started).1).bind fun _ ahead filter good => Keeps.pure fun _ further => ?_
    obtain ⟨own, parts⟩ := Query.under_of.mp (workable.later ahead).1
    have restrictions := List.forall_mem_singleton.mpr good
    exact Workable.later ⟨.of { own with restrictions, leaf := by rintro _ ⟨⟩ } parts, by rintro _ ⟨⟩⟩ further
  | delete s =>
    refine (changed s.filter (List.forall_mem_cons.mp started).1).bind fun _ ahead filter good => Keeps.pure fun _ further => ?_
    obtain ⟨own, parts⟩ := Query.under_of.mp (workable.later ahead).1
    have restrictions := List.forall_mem_singleton.mpr good
    exact Workable.later ⟨.of { own with restrictions, leaf := by rintro _ ⟨⟩ } parts, by rintro _ ⟨⟩⟩ further
  | _ => exact Keeps.throw _

private theorem gives_changeHaving :
    Gives stage (statement.changeHaving change) fun next after => after.Workable (rules.grown first next) := by
  have started := (Query.under_of.mp workable.1).1.restrictions
  cases statement with
  | select s =>
    refine (changed s.having ((List.forall_mem_cons.mp started).2 _ (by simp))).bind fun _ ahead having good =>
      Keeps.pure fun _ further => ?_
    obtain ⟨own, parts⟩ := Query.under_of.mp (workable.later ahead).1
    have restrictions := List.forall_mem_cons.mpr ⟨(List.forall_mem_cons.mp own.restrictions).1, List.forall_mem_singleton.mpr good⟩
    exact Workable.later ⟨.of { own with restrictions, leaf := by rintro _ ⟨⟩ } parts, by rintro _ ⟨⟩⟩ further
  | compound s =>
    refine (changed s.having ((List.forall_mem_cons.mp started).2 _ (by simp))).bind fun _ ahead having good =>
      Keeps.pure fun _ further => ?_
    obtain ⟨own, parts⟩ := Query.under_of.mp (workable.later ahead).1
    have restrictions := List.forall_mem_cons.mpr ⟨(List.forall_mem_cons.mp own.restrictions).1, List.forall_mem_singleton.mpr good⟩
    exact Workable.later ⟨.of { own with restrictions, leaf := by rintro _ ⟨⟩ } parts, by rintro _ ⟨⟩⟩ further
  | _ => exact Keeps.throw _

end Restricting

/-! ### Changes -/

/-- What a change of a statement puts into it is under the rules. -/
def Edit.Under (rules : Rules) : Edit → Prop
  | .flavor _ | .noOrder | .limit _ | .offset _ | .noPaging | .reset => True
  | .schemas names | .moreSchemas names => ∀ name ∈ names, rules.other name
  | .compaction compact deep => rules.other compact ∧ rules.other deep
  | .ctes list => ∀ cte ∈ list.getD [], cte.UnderAll rules
  | .table reference shortName | .other reference shortName => rules.other reference ∧ rules.other shortName
  | .name value | .distinct value | .groupBySelected value => rules.other value
  | .where _ condition _ | .having condition _ => condition.Under rules
  | .filter restriction | .groupFilter restriction => restriction.Under rules
  | .fields list | .moreFields list | .returning list | .moreReturning list => ∀ field ∈ list, rules.other field.value
  | .join joined => joined.Under rules ∧ ∀ query ∈ joined.child?, query.Under rules.closed
  | .groups list | .moreGroups list | .columns list => ∀ column ∈ list, rules.other column
  | .order entry => rules.other entry.field
  | .member added => added.query.Under rules.closed
  | .rows list => ∀ row ∈ list, rules.other row.1 ∧ rules.bound row.2
  | .row column value => rules.other column ∧ rules.bound value
  | .source query => query.Under rules.closed
  | .assignments list => ∀ assignment ∈ list, rules.other assignment.1 ∧ assignment.2.Under rules
  | .assignment column assigned => rules.other column ∧ assigned.Under rules

section Kinds

variable (within : rules.Within holds) (free : Value.OfHandles holds)

private theorem Workable.selecting {s s' : Select Query} (workable : (Statement.select s).Workable rules)
    (switches : ∀ switch ∈ [s'.distinct, s'.groupBySelected], rules.other switch)
    (same : s' = { s with distinct := s'.distinct, groupBySelected := s'.groupBySelected }) : (Statement.select s').Workable rules := by
  obtain ⟨⟨own, parts⟩, _⟩ := workable
  rw [same]
  exact ⟨.of { own with switches, leaf := by rintro _ ⟨⟩ } parts, by rintro _ ⟨⟩⟩

include within free in
private theorem Workable.cleared {s : Select Query} (workable : (Statement.select s).Workable rules) :
    (Statement.select s.cleared).Workable rules := by
  obtain ⟨⟨own, _⟩, _⟩ := workable
  have off : rules.other (.bool false) := within.other _ (List.forall_mem_singleton.mpr (free.other rfl))
  have settings := own.settings _ rfl
  have names := own.ownNames
  simp only [ownNames, List.forall_mem_cons] at names
  refine ⟨.of ⟨?_, forall_nothing, forall_nothing, forall_nothing, ?_, ?_, ?_, forall_nothing, forall_nothing, by rintro _ ⟨⟩⟩ forall_nothing, by rintro _ ⟨⟩⟩
  · rintro _ ⟨⟩
    exact ⟨forall_nothing, settings.compact, settings.deep⟩
  · exact List.forall_mem_cons.mpr ⟨⟨forall_nothing, by rintro _ ⟨⟩⟩, List.forall_mem_singleton.mpr ⟨forall_nothing, by rintro _ ⟨⟩⟩⟩
  · exact List.forall_mem_cons.mpr ⟨names.1, List.forall_mem_cons.mpr ⟨names.2.1, forall_nothing⟩⟩
  · exact List.forall_mem_cons.mpr ⟨off, List.forall_mem_singleton.mpr off⟩

private theorem Workable.renamed {s : Compound Query} (workable : (Statement.compound s).Workable rules) {name : Value}
    (good : rules.other name) : (Statement.compound { s with name }).Workable rules := by
  obtain ⟨⟨own, parts⟩, _⟩ := workable
  have ownNames := List.forall_mem_cons.mpr ⟨good, (List.forall_mem_cons.mp own.ownNames).2⟩
  exact ⟨.of { own with ownNames, leaf := by rintro _ ⟨⟩ } parts, by rintro _ ⟨⟩⟩

private theorem Workable.joined {s : Compound Query} (workable : (Statement.compound s).Workable rules) {member : Member Query}
    (good : member.query.Under rules.closed) :
    (Statement.compound { s with members := s.members ++ [member] }).Workable rules := by
  obtain ⟨⟨own, parts⟩, _⟩ := workable
  obtain ⟨first, second, third⟩ := forall_children.mp parts
  have members : ∀ query ∈ (s.members ++ [member]).map (·.query), query.Under rules.closed := by
    rw [List.map_append]
    exact List.forall_mem_append.mpr ⟨third, List.forall_mem_singleton.mpr good⟩
  exact ⟨.of { own with leaf := by rintro _ ⟨⟩ } (forall_children.mpr ⟨first, second, members⟩), by rintro _ ⟨⟩⟩

private theorem Workable.filled {s : Insert Query} (workable : (Statement.insert s).Workable rules) {rows : List (Value × Value)}
    (good : ∀ row ∈ rows, rules.other row.1 ∧ rules.bound row.2) : (Statement.insert { s with rows }).Workable rules := by
  obtain ⟨⟨own, parts⟩, _⟩ := workable
  have names := own.ownNames
  simp only [ownNames, List.forall_mem_cons, List.forall_mem_append] at names
  refine ⟨.of { own with ownNames := ?_, entries := ?_, leaf := by rintro _ ⟨⟩ } parts, by rintro _ ⟨⟩⟩
  · simp only [ownNames, List.forall_mem_cons, List.forall_mem_append, List.forall_mem_map]
    exact ⟨names.1, fun row member => (good row member).1, names.2.2⟩
  · exact List.forall_mem_map.mpr fun row member => (good row member).2

private theorem Workable.targeting {s : Insert Query} (workable : (Statement.insert s).Workable rules) {columns : List Value}
    (good : ∀ column ∈ columns, rules.other column) : (Statement.insert { s with columns }).Workable rules := by
  obtain ⟨⟨own, parts⟩, _⟩ := workable
  have names := own.ownNames
  simp only [ownNames, List.forall_mem_cons, List.forall_mem_append] at names
  refine ⟨.of { own with ownNames := ?_, leaf := by rintro _ ⟨⟩ } parts, by rintro _ ⟨⟩⟩
  simp only [ownNames, List.forall_mem_cons, List.forall_mem_append]
  exact ⟨names.1, names.2.1, good⟩

private theorem Workable.sourced {s : Insert Query} (workable : (Statement.insert s).Workable rules) {query : Query}
    (good : query.Under rules.closed) : (Statement.insert { s with source := some query }).Workable rules := by
  obtain ⟨⟨own, parts⟩, _⟩ := workable
  obtain ⟨first, second, _⟩ := forall_children.mp parts
  exact ⟨.of { own with leaf := by rintro _ ⟨⟩ } (forall_children.mpr ⟨first, second, List.forall_mem_singleton.mpr good⟩), by rintro _ ⟨⟩⟩

private theorem Workable.assigning {s : Update Query} (workable : (Statement.update s).Workable rules)
    {assignments : List (Value × Assigned)}
    (good : ∀ assignment ∈ assignments, rules.other assignment.1 ∧ assignment.2.Under rules) :
    (Statement.update { s with assignments }).Workable rules := by
  obtain ⟨⟨own, parts⟩, _⟩ := workable
  have names := own.ownNames
  simp only [ownNames, List.forall_mem_cons, List.forall_mem_append] at names
  refine ⟨.of { own with ownNames := ?_, expressions := ?_, entries := ?_, leaf := by rintro _ ⟨⟩ } parts, by rintro _ ⟨⟩⟩
  · simp only [ownNames, List.forall_mem_cons, List.forall_mem_append, List.forall_mem_map]
    exact ⟨names.1, names.2.1, fun assignment member => (good assignment member).1, names.2.2.2⟩
  · intro expression member
    obtain ⟨⟨column, assigned⟩, inside, given⟩ := List.mem_filterMap.mp member
    cases assigned <;> cases given
    exact (good _ inside).2
  · intro value member
    obtain ⟨⟨column, assigned⟩, inside, given⟩ := List.mem_filterMap.mp member
    cases assigned <;> cases given
    exact (good _ inside).2

private theorem Workable.assigned {s : Update Query} (workable : (Statement.update s).Workable rules) :
    ∀ assignment ∈ s.assignments, rules.other assignment.1 ∧ assignment.2.Under rules := by
  obtain ⟨⟨own, _⟩, _⟩ := workable
  rintro ⟨column, assigned⟩ member
  have names := own.ownNames
  simp only [ownNames, List.forall_mem_cons, List.forall_mem_append, List.forall_mem_map] at names
  refine ⟨names.2.2.1 _ member, ?_⟩
  cases assigned with
  | value value => exact own.entries value (List.mem_filterMap.mpr ⟨_, member, rfl⟩)
  | expression expression => exact own.expressions expression (List.mem_filterMap.mpr ⟨_, member, rfl⟩)

private theorem Workable.rowed {s : Insert Query} (workable : (Statement.insert s).Workable rules) :
    ∀ row ∈ s.rows, rules.other row.1 ∧ rules.bound row.2 := by
  obtain ⟨⟨own, _⟩, _⟩ := workable
  intro row member
  have names := own.ownNames
  simp only [ownNames, List.forall_mem_cons, List.forall_mem_append, List.forall_mem_map] at names
  exact ⟨names.2.1 _ member, own.entries _ (List.mem_map_of_mem member)⟩

include free within

/-- A change leaves a statement under the rules, widened by what was copied in the course of it. -/
theorem gives_apply (ahead : first ≤ stage) {statement : Statement Query} (workable : statement.Workable (rules.grown first stage))
    {edit : Edit} (given : edit.Under (rules.grown first stage)) :
    Gives stage (edit.apply statement) fun next after => after.Workable (rules.grown first next) := by
  have settled {action : Build (Statement Query)}
      (gives : Gives stage action fun _ after => after.Workable (rules.grown first stage)) :
      Gives stage action fun next after => after.Workable (rules.grown first next) :=
    gives.imp fun _ further _ good => good.later further
  cases edit with
  | flavor f => exact settled (gives_changeSettings workable fun s good => ⟨good.schemas, good.compact, good.deep⟩)
  | schemas names => exact settled (gives_changeSettings workable fun s good => ⟨given, good.compact, good.deep⟩)
  | moreSchemas names =>
    exact settled (gives_changeSettings workable fun s good =>
      ⟨List.forall_mem_append.mpr ⟨good.schemas, given⟩, good.compact, good.deep⟩)
  | compaction compact deep => exact settled (gives_changeSettings workable fun s good => ⟨good.schemas, given.1, given.2⟩)
  | ctes list => exact settled (gives_setCtes workable given)
  | table reference name => exact settled (gives_setTable workable given.1 given.2)
  | name value => exact settled (gives_changeCompound workable fun s good => good.renamed given)
  | «where» connective condition values =>
    exact gives_changeFilter workable fun restriction good => gives_restrict free within ahead good given connective values
  | filter restriction =>
    exact gives_changeFilter workable fun _ _ => Keeps.pure fun _ further => given.mono (Rules.grown_implies further)
  | having condition values =>
    exact gives_changeHaving workable fun restriction good => gives_linkTo free within ahead good given .and values
  | groupFilter restriction =>
    exact gives_changeHaving workable fun _ _ => Keeps.pure fun _ further => given.mono (Rules.grown_implies further)
  | fields list => exact settled (gives_changeFields workable fun _ _ => given)
  | moreFields list => exact settled (gives_changeFields workable fun _ good => List.forall_mem_append.mpr ⟨good, given⟩)
  | distinct enabled =>
    exact settled (gives_changeSelect workable fun s good => good.selecting
      (List.forall_mem_cons.mpr ⟨given, (List.forall_mem_cons.mp (Query.under_of.mp good.1).1.switches).2⟩) rfl)
  | join joined => exact settled (gives_addJoin workable given.1 given.2)
  | groups list => exact settled (gives_changeGroups workable fun _ _ => given)
  | moreGroups list => exact settled (gives_changeGroups workable fun _ good => List.forall_mem_append.mpr ⟨good, given⟩)
  | groupBySelected enabled =>
    exact settled (gives_changeSelect workable fun s good => good.selecting
      (List.forall_mem_cons.mpr ⟨(List.forall_mem_cons.mp (Query.under_of.mp good.1).1.switches).1,
        List.forall_mem_singleton.mpr given⟩) rfl)
  | order entry =>
    exact settled (gives_changeOrders workable fun _ good => List.forall_mem_append.mpr ⟨good, List.forall_mem_singleton.mpr given⟩)
  | noOrder => exact settled (gives_changeOrders workable fun _ _ => forall_nothing)
  | limit count => exact settled (gives_changePaging workable _)
  | offset count => exact settled (gives_changePaging workable _)
  | noPaging => exact settled (gives_changePaging workable _)
  | member added => exact settled (gives_changeCompound workable fun s good => good.joined given)
  | rows list => exact settled (gives_changeInsert workable fun s good => good.filled given)
  | row column value =>
    exact settled (gives_changeInsert workable fun s good =>
      good.filled (List.forall_mem_append.mpr ⟨good.rowed, List.forall_mem_singleton.mpr given⟩))
  | columns list => exact settled (gives_changeInsert workable fun s good => good.targeting given)
  | source query => exact settled (gives_changeInsert workable fun s good => good.sourced given)
  | assignments list => exact settled (gives_changeUpdate workable fun s good => good.assigning given)
  | assignment column assigned =>
    exact settled (gives_changeUpdate workable fun s good =>
      good.assigning (List.forall_mem_append.mpr ⟨good.assigned, List.forall_mem_singleton.mpr given⟩))
  | other reference name => exact settled (gives_addOther workable given.1 given.2)
  | returning list => exact settled (gives_changeReturning workable fun _ _ => given)
  | moreReturning list => exact settled (gives_changeReturning workable fun _ good => List.forall_mem_append.mpr ⟨good, given⟩)
  | reset => exact settled (gives_changeSelect workable fun s good => good.cleared (within.grown free) free)

end Kinds

end Statement

end SqlCompose
