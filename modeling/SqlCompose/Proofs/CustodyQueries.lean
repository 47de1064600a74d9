import Mathlib
import SqlCompose.Proofs.CustodyMethods
import SqlCompose.Session.QueryMethods

/-!
# Methods of queries in custody

One table serves all kinds of statement. Whatever a change puts into a statement may be held, and when it puts a link into a chain that somebody else holds, that chain is in the same custody as the statement.
-/

namespace SqlCompose

open Build

namespace Statement

variable {Q : Type} {rules : Rules} {statement : Statement Q}

private theorem mem_restrictions_of_filter {filter : Restriction} (given : statement.filter? = some filter) :
    filter ∈ statement.restrictions := by
  cases statement <;> cases given <;> simp [restrictions]

private theorem mem_restrictions_of_having {having : Restriction} (given : statement.having? = some having) :
    having ∈ statement.restrictions := by
  cases statement <;> cases given <;> simp [restrictions]

private theorem heldChain_under {restriction : Restriction} (under : restriction.Under rules) {holder : Label} {chain : Chain}
    (held : Edit.heldChain? restriction = some (holder, chain)) : rules.hands holder ∧ chain.Under rules := by
  unfold Edit.heldChain? at held
  split at held
  · obtain ⟨_, given, same⟩ := Option.map_eq_some_iff.mp held
    cases same
    exact ⟨under.2 _ given, under.1⟩
  · cases held

/-- The chain that a change has put a link into is in the right hands. -/
theorem linked_under {statement : Statement Query} (under : statement.Under rules) {edit : Edit} {holder : Label} {chain : Chain}
    (linked : edit.linked? statement = some (holder, chain)) : rules.hands holder ∧ chain.Under rules := by
  unfold Edit.linked? at linked
  split at linked
  · obtain ⟨restriction, given, held⟩ := Option.bind_eq_some_iff.mp linked
    exact heldChain_under (under.restrictions _ (mem_restrictions_of_filter given)) held
  · obtain ⟨restriction, given, held⟩ := Option.bind_eq_some_iff.mp linked
    exact heldChain_under (under.restrictions _ (mem_restrictions_of_having given)) held
  · cases linked

end Statement

namespace Custody

variable {custody : Custody} {stage : Stage}

/-- What a change of a statement puts in is under the rules. -/
abbrev StatementChange (custody : Custody) (stage : Stage) (edit : Statement.Edit) : Prop :=
  edit.Under (custody.rules stage custody.mine)

theorem statementChange_mono {rules rules' : Rules} (weaker : rules.Implies rules') {edit : Statement.Edit} (under : edit.Under rules) :
    edit.Under rules' := by
  cases edit with
  | schemas _ | moreSchemas _ | groups _ | moreGroups _ | columns _ => exact fun name member => weaker.other _ (under name member)
  | compaction _ _ | table _ _ | other _ _ => exact ⟨weaker.other _ under.1, weaker.other _ under.2⟩
  | ctes _ => exact fun cte member => (under cte member).mono weaker
  | name _ | distinct _ | groupBySelected _ | order _ => exact weaker.other _ under
  | «where» _ _ _ | having _ _ => exact Condition.Under.mono under weaker
  | filter _ | groupFilter _ => exact Restriction.Under.mono under weaker
  | fields _ | moreFields _ | returning _ | moreReturning _ => exact fun field member => weaker.other _ (under field member)
  | join _ => exact ⟨under.1.mono weaker, fun query member => (under.2 query member).mono weaker.closed⟩
  | member _ | source _ => exact Query.Under.mono under weaker.closed
  | rows _ => exact fun row member => ⟨weaker.other _ (under row member).1, weaker.bound _ (under row member).2⟩
  | row _ _ => exact ⟨weaker.other _ under.1, weaker.bound _ under.2⟩
  | assignments _ =>
    intro assignment member
    obtain ⟨column, assigned⟩ := assignment
    have good := under _ member
    cases assigned with
    | value _ => exact ⟨weaker.other _ good.1, weaker.bound _ good.2⟩
    | expression _ => exact ⟨weaker.other _ good.1, weaker.other _ good.2⟩
  | assignment _ assigned =>
    cases assigned with
    | value _ => exact ⟨weaker.other _ under.1, weaker.bound _ under.2⟩
    | expression _ => exact ⟨weaker.other _ under.1, weaker.other _ under.2⟩
  | flavor _ | noOrder | limit _ | offset _ | noPaging | reset => trivial

variable {label : Label} (mine : custody.mine label)

include mine in
theorem allows_editStatement {edit : Statement.Edit} (good : custody.StatementChange stage edit) :
    custody.Allows stage (Session.editStatement label edit) fun _ _ => True := by
  refine (allows_object label).bind fun between ahead object found => ?_
  have under := found.2.2 mine
  split
  · next statement =>
    have changes : custody.Allows between (Act.build (edit.apply statement)) fun after changed =>
        changed.Workable (custody.rules after custody.mine) :=
      allows_grown Statement.Workable (fun weaker _ good => good.mono weaker) fun _ further =>
        Statement.gives_apply within free le_rfl (under.mono (later_grown further)) (statementChange_mono (later_grown (ahead.trans further)) good)
    refine changes.bind fun after further changed workable => ?_
    refine (allows_put mine (found.1.trans_le further.1) (.query (.of changed)) workable).bind fun last onward _ _ => ?_
    split
    · next holder chain linked =>
      obtain ⟨own, _⟩ := Query.under_of.mp workable.1
      obtain ⟨held, chained⟩ := Statement.linked_under own linked
      exact allows_put held.1 (held.2.trans_le onward.1) (.chain chain) (Chain.Under.mono chained (rules_later onward))
    · exact Keeps.pure fun _ _ => trivial
  · exact Keeps.throw _

/-! ### Changes from arguments -/

section Changes

variable {arguments : Arguments} (accepts : custody.Accepts stage arguments)

private theorem orderEntry_allowed {direction value : Value} (all : value.Everywhere (custody.Admits stage)) :
    custody.Allows stage (do return .order (← OrderBy.ofEntry direction value)) custody.StatementChange :=
  Keeps.after fun _ read => Keeps.pure fun _ further => admits_later (OrderBy.everywhere_ofEntry free all read) further

include accepts in
private theorem orderEntries_allowed : ∀ change ∈ Session.orderEntries arguments, custody.Allows stage change custody.StatementChange := by
  have all := accepts.get "field"
  unfold Session.orderEntries
  dsimp only
  split
  · next given =>
    rw [given] at all
    exact List.forall_mem_map.mpr fun value member => orderEntry_allowed ((Value.everywhere_list.mp all).2 value member)
  · exact List.forall_mem_singleton.mpr (orderEntry_allowed all)

private theorem limitTo_allowed (value : Value) : custody.Allows stage (Session.limitTo value) custody.StatementChange :=
  Keeps.after fun _ _ => Keeps.pure fun _ _ => trivial

private theorem startAfter_allowed (value : Value) : custody.Allows stage (Session.startAfter value) custody.StatementChange :=
  Keeps.after fun _ _ => Keeps.pure fun _ _ => trivial

private theorem limitAndOffset_allowed :
    ∀ change ∈ Session.limitAndOffset arguments, custody.Allows stage change custody.StatementChange := by
  unfold Session.limitAndOffset
  refine List.forall_mem_cons.mpr ⟨limitTo_allowed _, ?_⟩
  split
  · exact forall_nothing
  · exact List.forall_mem_singleton.mpr (startAfter_allowed _)

theorem memberEdit_allowed {query operator : Value} (takes : custody.Takes stage query) :
    custody.Allows stage (Session.memberEdit query operator) custody.StatementChange :=
  takes.query.bind fun _ _ _ good => Keeps.after fun _ _ => Keeps.pure fun _ further =>
    good.mono (rules_later further).closed

theorem memberEntry_allowed {holds : Value → Prop} (takes : ∀ value, value.Everywhere holds → custody.Takes stage value) {value : Value}
    (all : value.Everywhere holds) : custody.Allows stage (Session.memberEntry value) custody.StatementChange := by
  unfold Session.memberEntry
  split
  · next given => exact memberEdit_allowed (takes _ (Value.everywhere_tuple? all given _ (by simp)))
  · next given => exact memberEdit_allowed (takes _ (Value.everywhere_tuple? all given _ (by simp)))
  · exact Keeps.throw _
  · split
    · exact Keeps.throw _
    · next query found => exact memberEdit_allowed (takes _ (Value.everywhere_entry? all found))
  · exact memberEdit_allowed (takes _ all)

private theorem takeOver_allowed {value : Value} (all : value.Everywhere (custody.Admits stage)) :
    custody.Allows stage (Act.build (Value.takeOverPairs value)) fun after pairs => ∀ pair ∈ pairs,
      pair.1.Everywhere (custody.Admits after) ∧ custody.Binds after pair.2 :=
  allows_build (fun _ => .bound) _ (fun _ ahead => Value.gives_takeOverPairs free (admits_later all ahead))
    (fun _ _ _ _ => (by rintro _ ⟨⟩)) fun _ _ _ grown good _ _ pair member => ⟨admits_later (good pair member).1 Stage.le_advance,
      binds_of_made grown (good pair member).2⟩

private theorem check_allowed (value : Value) : custody.Allows stage (Act.build value.check) custody.Binds :=
  allows_build (fun _ => .bound) _ (fun _ _ => Value.gives_check value) (fun _ _ _ _ => (by rintro _ ⟨⟩))
    fun _ _ _ grown good _ _ => binds_of_made grown good

end Changes

/-! ### Tables of methods -/

section Tables

private theorem fieldList_permitted (raw : Bool) {edit : List Field → Statement.Edit}
    (good : ∀ rules list, (∀ field ∈ list, rules.other field.value) → (edit list).Under rules) :
    custody.PermitsChanges stage custody.StatementChange (Session.fieldList raw edit) :=
  ⟨rfl, fun _ _ _ accepts => changes_one (Keeps.after fun list read => Keeps.pure fun _ further =>
    good _ list fun field member => admits_later (accepts.fields read field member) further)⟩

private theorem fieldSpread_permitted (raw : Bool) {edit : List Field → Statement.Edit}
    (good : ∀ rules list, (∀ field ∈ list, rules.other field.value) → (edit list).Under rules) :
    custody.PermitsChanges stage custody.StatementChange (Session.fieldSpread raw edit) :=
  ⟨rfl, fun _ _ _ accepts => changes_given (List.forall_mem_singleton.mpr fun _ further =>
    good _ _ fun field member => admits_later (accepts.furtherFields raw field member) further)⟩

private theorem valueSpread_permitted {edit : List Value → Statement.Edit}
    (good : ∀ rules list, (∀ value ∈ list, rules.other value) → (edit list).Under rules) :
    custody.PermitsChanges stage custody.StatementChange (Session.valueSpread edit) :=
  ⟨rfl, fun _ _ _ accepts => changes_given (List.forall_mem_singleton.mpr fun _ further =>
    good _ _ fun value member => admits_later (accepts.rest value member) further)⟩

private theorem groupList_permitted {edit : List Value → Statement.Edit}
    (good : ∀ rules list, (∀ value ∈ list, rules.other value) → (edit list).Under rules) :
    custody.PermitsChanges stage custody.StatementChange (Session.groupList edit) :=
  ⟨rfl, fun _ _ _ accepts => changes_one (Keeps.after fun list read => Keeps.pure fun _ further =>
    good _ list fun value member => admits_later (Value.everywhere_asList free (accepts.get "fields") read value member) further)⟩

private theorem switching_permitted {edit : Value → Statement.Edit}
    (good : ∀ rules value, rules.other value → (edit value).Under rules) :
    custody.PermitsChanges stage custody.StatementChange (Session.switching edit) :=
  ⟨rfl, fun _ _ _ accepts => changes_given (List.forall_mem_singleton.mpr fun _ further =>
    good _ _ (admits_later (accepts.get "enabled") further))⟩

private theorem restricting_permitted (connective : Connective) :
    custody.PermitsChanges stage custody.StatementChange (Session.restricting connective) :=
  ⟨rfl, fun _ _ _ accepts => changes_one ((allows_condition (accepts.get "condition")).bind fun _ _ _ good =>
    Keeps.pure fun _ further => good.mono (rules_later further))⟩

private theorem columnAndValue_permitted {edit : Value → Value → Statement.Edit}
    (good : ∀ rules column value, rules.other column → rules.bound value → (edit column value).Under rules) :
    custody.PermitsChanges stage custody.StatementChange (Session.columnAndValue edit) :=
  ⟨rfl, fun _ _ _ accepts => changes_one ((check_allowed _).bind fun _ ahead _ bound => Keeps.pure fun _ further =>
    good _ _ _ (admits_later (accepts.get "column") (ahead.trans further)) (bound.later further))⟩

theorem settingEdits_permitted : ∀ entry ∈ Session.settingEdits, custody.PermitsChanges stage custody.StatementChange entry.2 := by
  simp only [Session.settingEdits, List.forall_mem_cons]
  refine ⟨?flavor, valueSpread_permitted fun _ _ all => all, valueSpread_permitted fun _ _ all => all, ?defaults, ?ctes, forall_nothing⟩
  case flavor => exact ⟨rfl, fun _ _ _ _ => changes_one (Keeps.after fun _ _ => Keeps.pure fun _ _ => trivial)⟩
  case defaults =>
    exact ⟨rfl, fun _ _ _ accepts => changes_given (List.forall_mem_singleton.mpr fun _ further =>
      ⟨admits_later (accepts.get "compact") further, admits_later (accepts.get "deep_compare") further⟩)⟩
  case ctes =>
    exact ⟨rfl, fun _ _ _ accepts => changes_one ((allows_attachedCtes (accepts.get "ctes")).bind fun _ _ _ good =>
      Keeps.pure fun _ further cte member => (good cte member).mono (rules_later further))⟩

theorem clauseEdits_permitted : ∀ entry ∈ Session.clauseEdits, custody.PermitsChanges stage custody.StatementChange entry.2 := by
  simp only [Session.clauseEdits, List.forall_mem_cons]
  refine ⟨?table, ?into, ?name, restricting_permitted .and, restricting_permitted .or, ?noFilter, ?having,
    fieldList_permitted false fun _ _ all => all, fieldList_permitted true fun _ _ all => all,
    fieldSpread_permitted false fun _ _ all => all, fieldSpread_permitted true fun _ _ all => all,
    switching_permitted fun _ _ good => good, ?join, ?subquery, groupList_permitted fun _ _ all => all,
    switching_permitted fun _ _ good => good, ?order, ?noOrder, ?limit, ?offset, ?both, ?noPaging, ?reset, forall_nothing⟩
  case table =>
    exact ⟨rfl, fun _ _ _ accepts => changes_given (List.forall_mem_singleton.mpr fun _ further =>
      ⟨admits_later (accepts.get "table") further, admits_later (accepts.get "alias") further⟩)⟩
  case into =>
    exact ⟨rfl, fun _ _ _ accepts => changes_given (List.forall_mem_singleton.mpr fun _ further =>
      ⟨admits_later (accepts.get "table") further, Value.everywhere_null free⟩)⟩
  case name =>
    exact ⟨rfl, fun _ _ _ accepts => changes_given (List.forall_mem_singleton.mpr fun _ further => admits_later (accepts.get "alias") further)⟩
  case noFilter => exact ⟨rfl, fun _ _ _ _ => changes_given (List.forall_mem_singleton.mpr fun _ _ => ⟨forall_nothing, by rintro _ ⟨⟩⟩)⟩
  case having =>
    exact ⟨rfl, fun _ _ _ accepts => changes_one ((allows_condition (accepts.get "condition")).bind fun _ _ _ good =>
      Keeps.pure fun _ further => good.mono (rules_later further))⟩
  case join =>
    exact ⟨rfl, fun _ _ _ accepts => changes_one ((allows_tableJoin (takes_of_admits (accepts.get "on")) (accepts.get "alias") (accepts.get "table")).bind fun _ _ _ good => Keeps.pure fun _ further =>
      ⟨good.1.mono (rules_later further), fun query member => (good.2 query member).mono (rules_later further).closed⟩)⟩
  case subquery =>
    exact ⟨rfl, fun _ _ _ accepts => changes_one ((allows_queryJoin (takes_of_admits (accepts.get "on")) (accepts.get "alias") (takes_of_admits (accepts.get "query"))).bind fun _ _ _ good => Keeps.pure fun _ further =>
      ⟨good.1.mono (rules_later further), fun query member => (good.2 query member).mono (rules_later further).closed⟩)⟩
  case order =>
    exact ⟨rfl, fun _ _ _ accepts => Keeps.pure fun _ further change member => (orderEntries_allowed accepts change member).mono further⟩
  case noOrder => exact ⟨rfl, fun _ _ _ _ => changes_given (List.forall_mem_singleton.mpr fun _ _ => trivial)⟩
  case limit => exact ⟨rfl, fun _ _ _ _ => changes_one (limitTo_allowed _)⟩
  case offset => exact ⟨rfl, fun _ _ _ _ => changes_one (startAfter_allowed _)⟩
  case both => exact ⟨rfl, fun _ _ _ _ => Keeps.pure fun _ further change member => (limitAndOffset_allowed change member).mono further⟩
  case noPaging => exact ⟨rfl, fun _ _ _ _ => changes_given (List.forall_mem_singleton.mpr fun _ _ => trivial)⟩
  case reset => exact ⟨rfl, fun _ _ _ _ => changes_given (List.forall_mem_singleton.mpr fun _ _ => trivial)⟩

theorem writingEdits_permitted : ∀ entry ∈ Session.writingEdits, custody.PermitsChanges stage custody.StatementChange entry.2 := by
  simp only [Session.writingEdits, List.forall_mem_cons]
  refine ⟨?rows, columnAndValue_permitted fun _ _ _ first second => ⟨first, second⟩, valueSpread_permitted fun _ _ all => all, ?source,
    ?assignments, columnAndValue_permitted fun _ _ _ first second => ⟨first, second⟩, ?expression, ?other,
    fieldList_permitted false fun _ _ all => all, fieldSpread_permitted false fun _ _ all => all,
    fieldList_permitted true fun _ _ all => all, fieldSpread_permitted true fun _ _ all => all, ?everything, forall_nothing⟩
  case rows =>
    exact ⟨rfl, fun _ _ _ accepts => changes_one ((takeOver_allowed (accepts.get "values")).bind fun _ _ _ good =>
      Keeps.pure fun _ further pair member => ⟨admits_later (good pair member).1 further, (good pair member).2.later further⟩)⟩
  case source =>
    exact ⟨rfl, fun _ _ _ accepts => changes_one ((allows_query (accepts.get "query")).bind fun _ _ _ good =>
      Keeps.pure fun _ further => good.mono (rules_later further).closed)⟩
  case assignments =>
    exact ⟨rfl, fun _ _ _ accepts => changes_one ((takeOver_allowed (accepts.get "values")).bind fun _ _ _ good =>
      Keeps.pure fun _ further => List.forall_mem_map.mpr fun pair member =>
        ⟨admits_later (good pair member).1 further, (good pair member).2.later further⟩)⟩
  case expression =>
    exact ⟨rfl, fun _ _ _ accepts => changes_given (List.forall_mem_singleton.mpr fun _ further =>
      ⟨admits_later (accepts.get "column") further, admits_later (accepts.get "expression") further⟩)⟩
  case other =>
    exact ⟨rfl, fun _ _ _ accepts => changes_given (List.forall_mem_singleton.mpr fun _ further =>
      ⟨admits_later (accepts.get "table") further, admits_later (accepts.get "alias") further⟩)⟩
  case everything =>
    exact ⟨rfl, fun _ _ _ _ => changes_given (List.forall_mem_singleton.mpr fun _ _ =>
      List.forall_mem_singleton.mpr (Value.everywhere_text free _))⟩

theorem compoundEdits_permitted : ∀ entry ∈ Session.compoundEdits, custody.PermitsChanges stage custody.StatementChange entry.2 := by
  simp only [Session.compoundEdits, List.forall_mem_cons]
  refine ⟨?add, ?many, ?typed, groupList_permitted fun _ _ all => all, groupList_permitted fun _ _ all => all, ?order, ?moreOrder, forall_nothing⟩
  case add => exact ⟨rfl, fun _ _ _ accepts => changes_one (memberEdit_allowed (takes_of_admits (accepts.get "query")))⟩
  case many =>
    refine ⟨rfl, fun _ _ _ accepts => Keeps.after fun items read => Keeps.pure fun _ further => List.forall_mem_map.mpr fun item member => ?_⟩
    exact memberEntry_allowed (fun _ => takes_of_admits) (admits_later (Value.everywhere_items free (accepts.get "members") read item member) further)
  case typed =>
    refine ⟨rfl, fun _ _ _ accepts => Keeps.after fun items read => Keeps.pure fun _ further => List.forall_mem_map.mpr fun item member => ?_⟩
    exact memberEdit_allowed (takes_of_admits (admits_later (Value.everywhere_items free (accepts.get "queries") read item member) further))
  case order =>
    exact ⟨rfl, fun _ _ _ accepts => Keeps.pure fun _ further => List.forall_mem_cons.mpr ⟨Keeps.pure fun _ _ => trivial,
      fun change member => (orderEntries_allowed accepts change member).mono further⟩⟩
  case moreOrder =>
    exact ⟨rfl, fun _ _ _ accepts => Keeps.pure fun _ further change member => (orderEntries_allowed accepts change member).mono further⟩

end Tables

/-! ### Results -/

section Results

variable {query : Query} (under : (Object.query query).Under (custody.rules stage custody.mine))

theorem gives_queryBuild {hands : Label → Prop} {first : Label} (under : (Object.query query).Under (custody.rules stage hands))
    (compact deep : Option Bool) : Gives first (query.build compact deep) (BuiltQuery.Fresh (custody.Admits stage) first) :=
  Query.gives_build free within under.1 under.2 compact deep

/-- The settings of a statement, without schemas and with those of a new statement if it has none. -/
private theorem settings_under {rules : Rules} {statement : Statement Query} (own : statement.Under rules)
    (standard : ∀ flag, rules.other (.bool flag)) :
    ({ (statement.settings?.getD {}) with schemas := [] } : Settings).Under rules := by
  cases given : statement.settings? with
  | none => exact ⟨forall_nothing, standard false, standard false⟩
  | some settings => exact ⟨forall_nothing, (own.settings settings given).compact, (own.settings settings given).deep⟩

/-- A compound of two statements is under the rules that these are under. -/
private theorem compound_under {rules : Rules} {settings : Settings} {name : Value} {members : List (Member Query)}
    (good : settings.Under rules) (named : rules.other name) (inside : ∀ member ∈ members, member.query.Under rules.closed) :
    (Query.of (.compound { settings, name, members })).Under rules := by
  refine .of ⟨?_, forall_nothing, forall_nothing, forall_nothing, ?_, ?_, forall_nothing, forall_nothing, forall_nothing, by rintro _ ⟨⟩⟩ ?_
  · rintro _ ⟨⟩
    exact good
  · exact List.forall_mem_cons.mpr ⟨⟨forall_nothing, by rintro _ ⟨⟩⟩, List.forall_mem_singleton.mpr ⟨forall_nothing, by rintro _ ⟨⟩⟩⟩
  · exact List.forall_mem_singleton.mpr named
  · exact List.forall_mem_map.mpr inside

include under

theorem allows_unite (operator : SetOperator) {arguments : Arguments} (takes : custody.Takes stage (arguments.get "other"))
    (name : (arguments.get "alias").Everywhere (custody.Admits stage)) :
    custody.Allows stage ((Session.unite query operator).run arguments) custody.Grants := by
  refine (allows_copy (under.1.mono (Rules.implies_lax _))).bind fun copying ahead first copied => ?_
  refine (takes.later ahead).query.bind fun between further other good => ?_
  refine allows_newResult (.query _) ⟨compound_under ?_ ?_ ?_, by rintro _ ⟨⟩⟩
  · obtain ⟨own, _⟩ := under.1.mono (rules_later (ahead.trans further))
    exact settings_under own fun flag => Value.everywhere_bool free flag
  · exact admits_later name (ahead.trans further)
  · exact List.forall_mem_cons.mpr ⟨copied.1.mono (rules_later further).closed, List.forall_mem_singleton.mpr good⟩

private theorem unite_permitted (operator : SetOperator) : custody.Permits stage (Session.unite query operator) :=
  ⟨rfl, fun _ ahead _ accepts => allows_unite (under.mono (rules_later ahead)) operator (takes_of_admits (accepts.get "other")) (accepts.get "alias")⟩

private theorem queryResults_permitted : ∀ entry ∈ Session.queryResults query, custody.Permits stage entry.2 := by
  simp only [Session.queryResults, List.forall_mem_cons]
  refine ⟨?build, ?explain, ?clone, forall_nothing⟩
  case build =>
    exact ⟨rfl, fun _ ahead _ _ => allows_queryResult fun _ further => gives_queryBuild (under.mono (rules_later (ahead.trans further))) _ _⟩
  case explain =>
    refine ⟨rfl, fun _ ahead _ _ => allows_queryResult fun before further => ?_⟩
    refine (gives_queryBuild (under.mono (rules_later (ahead.trans further))) _ none).bind fun _ onward built fresh => ?_
    exact (gives_prepend (Value.everywhere_text free _) fresh.sound).mono onward
  case clone =>
    refine ⟨rfl, fun _ ahead _ _ => ?_⟩
    refine (allows_copy ((under.1.mono (rules_later ahead)).mono (Rules.implies_lax _))).bind fun _ _ copied good => ?_
    exact allows_newResult (.query copied) ⟨good.1.mono (Rules.closed_implies _), good.2 under.2⟩

omit under in
private theorem populatingResults_permitted (statement : Statement Query) :
    ∀ entry ∈ Session.populatingResults statement, custody.Permits stage entry.2 := by
  have refused : custody.Permits stage Session.populating := ⟨rfl, fun _ _ _ _ => Keeps.throw _⟩
  refine List.forall_mem_append.mpr ⟨?_, ?_⟩
  all_goals
    split
    · exact List.forall_mem_singleton.mpr refused
    · exact forall_nothing

omit under in
private theorem compoundResults_permitted {compound : Compound Query}
    (under : (Query.of (.compound compound)).Under (custody.rules stage custody.mine)) :
    ∀ entry ∈ Session.compoundResults compound, custody.Permits stage entry.2 := by
  refine List.forall_mem_singleton.mpr ⟨rfl, fun _ ahead _ _ => allows_queryResult fun _ further => ?_⟩
  refine Compound.gives_buildMembers free ?_
  have children : (Statement.compound (compound.map Query.toChild)).children = (Statement.compound compound).children.map Query.toChild :=
    Statement.children_map Query.toChild (.compound compound)
  rw [children]
  refine List.forall_mem_map.mpr fun child member => ?_
  exact ((Query.under_of.mp (under.mono (rules_later (ahead.trans further)))).2 child member).sound free within.closed

variable (mine : custody.mine label)

omit under in
include mine in
private theorem changing_permitted {methods : Methods (Changes Statement.Edit)}
    (permits : ∀ entry ∈ methods, custody.PermitsChanges stage custody.StatementChange entry.2) :
    ∀ entry ∈ methods.changing (Session.editStatement label), custody.Permits stage entry.2 :=
  permits_changing (fun _ _ _ good => allows_editStatement mine good) permits

omit under in
private theorem sharedEdits_permitted (statement : Statement Query) : ∀ entry ∈ Session.sharedEdits statement,
    custody.PermitsChanges stage custody.StatementChange entry.2 :=
  Session.forall_mem_sharedEdits
    (List.forall_mem_append.mpr ⟨List.forall_mem_append.mpr ⟨settingEdits_permitted, clauseEdits_permitted⟩, writingEdits_permitted⟩)
    statement

include mine in
theorem queryMethods_permitted : ∀ entry ∈ Session.queryMethods label query, custody.Permits stage entry.2 := by
  have common := List.forall_mem_append.mpr ⟨List.forall_mem_append.mpr
    ⟨changing_permitted mine (sharedEdits_permitted query.statement), queryResults_permitted under⟩, populatingResults_permitted query.statement⟩
  have united : ∀ entry ∈ Session.selectResults query, custody.Permits stage entry.2 :=
    List.forall_mem_cons.mpr ⟨unite_permitted under .union, List.forall_mem_singleton.mpr (unite_permitted under .unionAll)⟩
  have only {compound : Compound Query} (same : query.statement = .compound compound) :
      ∀ entry ∈ Session.compoundResults compound, custody.Permits stage entry.2 := by
    obtain ⟨statement⟩ := query
    cases same
    exact compoundResults_permitted under.1
  unfold Session.queryMethods
  split
  · next compound same =>
    exact List.forall_mem_append.mpr ⟨List.forall_mem_append.mpr ⟨changing_permitted mine compoundEdits_permitted, only same⟩, common⟩
  · exact List.forall_mem_append.mpr ⟨united, common⟩
  · exact common

end Results

end Custody

end SqlCompose
