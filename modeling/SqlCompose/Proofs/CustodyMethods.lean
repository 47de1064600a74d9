import Mathlib
import SqlCompose.Proofs.CustodyReading
import SqlCompose.Session.ChainMethods
import SqlCompose.Session.CteMethods

/-!
# Methods in custody

A method is permitted if, whatever it is given that may be held, it does no more than the custody allows and gives what may be held. Most methods only make changes; they are permitted if the changes put in what may be put in, and if making such a change is allowed. This module deals with chains, with records, and with common table expressions.
-/

namespace SqlCompose

open Build

namespace Custody

variable {custody : Custody} {stage : Stage}

/-! ### Methods -/

/-- With whatever may be held, from a stage on, the method does what is allowed and gives what may be held. -/
structure Permits (custody : Custody) (stage : Stage) (method : Method (Act Outcome)) : Prop where
  standard : method.signature.Standard
  run : ∀ after, stage ≤ after → ∀ arguments, custody.Accepts after arguments → custody.Allows after (method.run arguments) custody.Grants

/-- Changes, each of which is as it should be when its turn comes. -/
def AllowsChanges {E : Type} (custody : Custody) (stage : Stage) (good : Stage → E → Prop) (changes : Changes E) : Prop :=
  custody.Allows stage changes.list fun after list => ∀ change ∈ list, custody.Allows after change good

/-- A method that makes changes which are as they should be. -/
structure PermitsChanges {E : Type} (custody : Custody) (stage : Stage) (good : Stage → E → Prop) (method : Method (Changes E)) :
    Prop where
  standard : method.signature.Standard
  run : ∀ after, stage ≤ after → ∀ arguments, custody.Accepts after arguments → custody.AllowsChanges after good (method.run arguments)

section Changes

variable {E : Type} {good : Stage → E → Prop}

theorem changes_one {change : Act E} (allows : custody.Allows stage change good) : custody.AllowsChanges stage good (.one change) :=
  Keeps.pure fun _ further => List.forall_mem_singleton.mpr (allows.mono further)

theorem changes_given {list : List E} (all : ∀ change ∈ list, ∀ after, stage ≤ after → good after change) :
    custody.AllowsChanges stage good (.given list) :=
  Keeps.pure fun _ further => List.forall_mem_map.mpr fun change member =>
    Keeps.pure fun after ahead => all change member after (further.trans ahead)

theorem allows_makeAll {make : E → Act Unit} (made : ∀ after, stage ≤ after → ∀ change, good after change →
      custody.Allows after (make change) fun _ _ => True) {changes : Changes E} (allows : custody.AllowsChanges stage good changes) :
    custody.Allows stage (changes.makeAll make) fun _ _ => True := by
  refine allows.bind fun between ahead list all => Keeps.forM fun change member => ?_
  exact (all change member).bind fun after further value ready => made after (ahead.trans further) value ready

theorem permits_changing {make : E → Act Unit} (made : ∀ after, stage ≤ after → ∀ change, good after change →
      custody.Allows after (make change) fun _ _ => True) {methods : Methods (Changes E)}
    (permits : ∀ entry ∈ methods, custody.PermitsChanges stage good entry.2) :
    ∀ entry ∈ methods.changing make, custody.Permits stage entry.2 :=
  List.forall_mem_map.mpr fun entry member => ⟨(permits entry member).standard, fun after ahead arguments accepts =>
    (allows_makeAll (fun between further => made between (ahead.trans further)) ((permits entry member).run after ahead arguments accepts)).bind
      fun _ _ _ _ => Keeps.pure fun _ _ => trivial⟩

end Changes

theorem allows_call {methods : Methods (Act Outcome)} (permits : ∀ entry ∈ methods, custody.Permits stage entry.2) (name : Text)
    {values : List Value} (all : Value.AllEverywhere (custody.Admits stage) values) {named : List (Text × Value)}
    (allNamed : ∀ entry ∈ named, entry.2.Everywhere (custody.Admits stage)) :
    custody.Allows stage (methods.call name values named) custody.Grants := by
  unfold Methods.call
  split
  · exact Keeps.throw _
  · next method found =>
    have permitted := permits _ (mem_of_lookup found)
    exact Keeps.after fun arguments bound =>
      permitted.run stage le_rfl arguments (accepts_of_bind permitted.standard all allNamed bound)

/-! ### Changes of a chain -/

section Chains

variable {label : Label} (mine : custody.mine label)

include mine in
theorem allows_editChain {edit : Chain.Edit} (good : edit.Under (custody.rules stage custody.mine)) :
    custody.Allows stage (Session.editChain label edit) fun _ _ => True := by
  refine (allows_object label).bind fun between ahead object found => ?_
  have under := found.2.2 mine
  split
  · next c =>
    have changes : custody.Allows between (Act.build (edit.apply c)) fun after changed => changed.Under (custody.rules after custody.mine) :=
      allows_grown Chain.Under (fun weaker _ good => good.mono weaker) fun _ further =>
        Chain.Edit.gives_apply free within le_rfl (Chain.Under.mono under (later_grown further)) (good.mono (later_grown (ahead.trans further)))
    refine changes.bind fun after further changed good => ?_
    exact allows_put mine (found.1.trans_le further.1) (.chain changed) good
  · exact Keeps.throw _

end Chains

/-! ### Edits from arguments -/

section Edits

variable {rules : Rules} {column low high connective : Value} {edit : Chain.Edit}

private theorem ofText_under (connective : Value) (text : Text) (values : List Value) :
    (Chain.Edit.ofText connective text values).Under rules := trivial

private theorem membership_under {negated : Bool} {values : List Value}
    (read : Chain.Edit.membership negated column values connective = .ok edit) : edit.Under rules := by
  unfold Chain.Edit.membership at read
  split at read
  · cases read
    exact ofText_under _ _ _
  · obtain ⟨text, _, same⟩ := Outcome.bind_eq_ok.mp read
    cases same
    exact ofText_under _ _ _

private theorem range_under {negated : Bool} (read : Chain.Edit.range negated column low high connective = .ok edit) :
    edit.Under rules := by
  obtain ⟨text, _, same⟩ := Outcome.bind_eq_ok.mp read
  cases same
  exact ofText_under _ _ _

private theorem absence_under {negated : Bool} (read : Chain.Edit.absence negated column connective = .ok edit) : edit.Under rules := by
  obtain ⟨text, _, same⟩ := Outcome.bind_eq_ok.mp read
  cases same
  exact ofText_under _ _ _

private theorem pattern_under {negated anyCase : Bool} {given : Value}
    (read : Chain.Edit.pattern negated anyCase column given connective = .ok edit) : edit.Under rules := by
  obtain ⟨text, _, same⟩ := Outcome.bind_eq_ok.mp read
  cases same
  exact ofText_under _ _ _

private theorem containing_under {anyCase : Bool} {query : Value}
    (read : Chain.Edit.containing anyCase column query connective = .ok edit) : edit.Under rules := by
  obtain ⟨text, _, further⟩ := Outcome.bind_eq_ok.mp read
  exact pattern_under further

private theorem matchingWords_under {query configuration : Value}
    (read : Chain.Edit.matchingWords column query configuration connective = .ok edit) : edit.Under rules := by
  obtain ⟨words, _, further⟩ := Outcome.bind_eq_ok.mp read
  obtain ⟨beginnings, _, further⟩ := Outcome.bind_eq_ok.mp further
  obtain ⟨text, _, same⟩ := Outcome.bind_eq_ok.mp further
  cases same
  exact ofText_under _ _ _

end Edits

/-- What a change of a chain puts in is under the rules. -/
abbrev ChainChange (custody : Custody) (stage : Stage) (edit : Chain.Edit) : Prop :=
  edit.Under (custody.rules stage custody.mine)

/-! ### Methods of chains -/

section ChainMethods

private theorem onColumn_allowed {edit : Arguments → Value → Value → Except Error Chain.Edit} {arguments : Arguments}
    (under : ∀ rules change, edit arguments (arguments.get "column") (arguments.get "kind") = .ok change → change.Under rules) :
    custody.AllowsChanges stage custody.ChainChange (Session.onColumn edit arguments) :=
  changes_one (Keeps.lift fun change read _ _ => under _ change read)

private theorem membership_permitted (negated : Bool) : custody.PermitsChanges stage custody.ChainChange (Session.membership negated) :=
  ⟨rfl, fun _ _ _ _ => onColumn_allowed fun _ _ read => by
    obtain ⟨values, _, further⟩ := Outcome.bind_eq_ok.mp read
    exact membership_under further⟩

private theorem range_permitted (negated : Bool) : custody.PermitsChanges stage custody.ChainChange (Session.range negated) :=
  ⟨rfl, fun _ _ _ _ => onColumn_allowed fun _ _ read => range_under read⟩

private theorem absence_permitted (negated : Bool) : custody.PermitsChanges stage custody.ChainChange (Session.absence negated) :=
  ⟨rfl, fun _ _ _ _ => onColumn_allowed fun _ _ read => absence_under read⟩

private theorem pattern_permitted (negated anyCase : Bool) :
    custody.PermitsChanges stage custody.ChainChange (Session.pattern negated anyCase) :=
  ⟨rfl, fun _ _ _ _ => onColumn_allowed fun _ _ read => pattern_under read⟩

private theorem linking_permitted (word : Text) : custody.PermitsChanges stage custody.ChainChange (Session.linking word) :=
  ⟨rfl, fun _ _ _ accepts => changes_one ((allows_condition (accepts.get "condition")).bind fun _ _ _ good =>
    Keeps.pure fun _ further => good.mono (rules_later further))⟩

private theorem existence_permitted (negated : Bool) : custody.PermitsChanges stage custody.ChainChange (Session.existence negated) :=
  ⟨rfl, fun _ _ _ accepts => changes_one ((allows_condition (accepts.get "subquery")).bind fun _ _ _ good =>
    Keeps.pure fun _ further => good.mono (rules_later further))⟩

theorem chainEdits_permitted : ∀ entry ∈ Session.chainEdits, custody.PermitsChanges stage custody.ChainChange entry.2 := by
  simp only [Session.chainEdits, List.forall_mem_cons]
  refine ⟨linking_permitted "AND", linking_permitted "OR", ?raw, membership_permitted false, membership_permitted true,
    range_permitted false, range_permitted true, absence_permitted false, absence_permitted true, pattern_permitted false false,
    pattern_permitted false true, pattern_permitted true false, pattern_permitted true true, existence_permitted false,
    existence_permitted true, ?reset, ?text, ?words, ?vector, ?fuzzy, forall_nothing⟩
  case raw =>
    exact ⟨rfl, fun _ _ _ accepts => changes_one ((allows_condition (accepts.get "template")).bind fun _ _ _ good =>
      Keeps.pure fun _ further => good.mono (rules_later further))⟩
  case reset => exact ⟨rfl, fun _ _ _ _ => changes_given (List.forall_mem_singleton.mpr fun _ _ => trivial)⟩
  case text => exact ⟨rfl, fun _ _ _ _ => changes_one (Keeps.lift fun _ read _ _ => containing_under read)⟩
  case words =>
    refine ⟨rfl, fun _ _ arguments _ => Keeps.after fun edits read => Keeps.pure fun _ _ => List.forall_mem_map.mpr fun edit member => ?_⟩
    obtain ⟨words, _, same⟩ := Outcome.bind_eq_ok.mp read
    cases same
    obtain ⟨word, _, rfl⟩ := List.mem_map.mp member
    exact Keeps.lift fun _ read _ _ => containing_under read
  case vector => exact ⟨rfl, fun _ _ _ _ => changes_one (Keeps.lift fun _ read _ _ => matchingWords_under read)⟩
  case fuzzy =>
    exact ⟨rfl, fun after _ arguments _ => changes_one (allows_grown Chain.Edit.Under (fun weaker _ good => good.mono weaker) fun _ _ =>
      Chain.Edit.gives_similar free within le_rfl _ _ _ _)⟩

variable {label : Label} (mine : custody.mine label) {chain : Chain} (under : chain.Under (custody.rules stage custody.mine))

theorem statementLink_allowed {word value : Value} (takes : custody.Takes stage value) :
    custody.Allows stage (Session.statementLink? word value) fun after edit => ∀ change ∈ edit, custody.ChainChange after change := by
  refine takes.object.bind fun between ahead found good => ?_
  split
  · next label c =>
    refine Keeps.pure fun _ further change member => ?_
    split at member
    · cases member
    · cases member
      exact condition_unhanded (.chain c) ((good label _ rfl).mono (rules_later further).lax)
  · exact Keeps.throw _
  · split
    · refine Keeps.pure fun _ further change member => ?_
      split at member
      · cases member
        exact (takes.later (ahead.trans further)).recordCondition_under
      · cases member
    · exact Keeps.throw _

include mine in
/-- Statements are linked to a chain one after another. -/
theorem allows_joining {items : List Value} (word : Value) (takes : ∀ item ∈ items, custody.Takes stage item) :
    custody.Allows stage (items.forM fun value => do
      match ← Session.statementLink? word value with
      | none => return ()
      | some edit => Session.editChain label edit) fun _ _ => True := by
  refine Keeps.forM fun value member => (statementLink_allowed (takes value member)).bind fun between _ edit good => ?_
  cases edit with
  | none => exact Keeps.pure fun _ _ => trivial
  | some edit => exact allows_editChain mine (good edit rfl)

include mine in
private theorem joining_permitted : custody.Permits stage (Session.joining label) := by
  refine ⟨rfl, fun after _ arguments accepts => Keeps.after fun items read => ?_⟩
  have all := Value.everywhere_items free (accepts.get "statements") read
  exact (allows_joining mine _ fun item member => takes_of_admits (all item member)).bind fun _ _ _ _ => Keeps.pure fun _ _ => trivial

theorem gives_chainBuild (chain : Chain) (start : Value) (withWhere newLine : Bool) {first : Label} :
    Gives first (chain.build start withWhere newLine) (BuiltQuery.Fresh (custody.Admits stage) first) := by
  unfold Chain.build
  split
  · exact BuiltQuery.gives_make free _ Value.allEverywhere_nil
  · refine (chain.gives_toPredicate newLine).bind fun _ ahead predicate made => Keeps.after fun _ _ => ?_
    exact (BuiltQuery.gives_make free _ fun value member => Value.everywhere_of_bindable free value (made value member).bindable).mono ahead

private theorem gives_chainRender {start : Value} (all : start.Everywhere (custody.Admits stage)) (newLine : Bool) {first : Label} :
    Gives first (chain.renderFrom start newLine) fun _ value => value.Everywhere (custody.Admits stage) := by
  unfold Chain.renderFrom
  split
  · exact Value.gives_renderedValue free (Value.everywhere_text free _) Value.allEverywhere_nil all
  · refine (chain.gives_toPredicate newLine).bind fun _ _ predicate made => ?_
    exact Value.gives_renderFrom free (fun value member => Value.everywhere_of_bindable free value (made value member).bindable) all

include mine under in
theorem chainMethods_permitted : ∀ entry ∈ Session.chainMethods label chain, custody.Permits stage entry.2 := by
  refine List.forall_mem_append.mpr ⟨permits_changing (fun after _ change good => allows_editChain mine good) chainEdits_permitted, ?_⟩
  simp only [Session.chainResults, List.forall_mem_cons]
  refine ⟨joining_permitted mine, ?build, ?render, ?predicate, ?clone, forall_nothing⟩
  case build => exact ⟨rfl, fun _ _ _ _ => allows_queryResult fun _ _ => gives_chainBuild _ _ _ _⟩
  case render => exact ⟨rfl, fun _ _ _ accepts => allows_builtResult fun _ => gives_chainRender (accepts.get "start_index") _⟩
  case predicate =>
    exact ⟨rfl, fun _ _ _ _ => allows_predicateResult fun _ _ => (chain.gives_toPredicate _).imp fun _ _ _ made value member =>
      .inr (made value member)⟩
  case clone => exact ⟨rfl, fun _ ahead _ _ => allows_newResult (.chain chain) (Chain.Under.mono under (rules_later ahead))⟩

end ChainMethods

/-! ### Methods of records -/

section RecordMethods

variable {predicate : Predicate}

private theorem combined_allowed (word : Value) {other : Value} (all : other.Everywhere (custody.Admits stage)) :
    custody.Allows stage (Session.combined predicate word other) custody.Grants := by
  refine (allows_predicate all []).bind fun _ _ other _ => Keeps.after fun connective _ => ?_
  exact allows_predicateResult fun _ _ => (predicate.gives_combine connective other).imp fun _ _ _ made value member =>
    .inr (made value member)

private theorem combining_permitted (word : Text) : custody.Permits stage (Session.combining word predicate) :=
  ⟨rfl, fun _ _ _ accepts => combined_allowed _ (accepts.get "other")⟩

private theorem predicateMethods_permitted (under : predicate.Under (custody.rules stage custody.seen)) :
    ∀ entry ∈ Session.predicateMethods predicate, custody.Permits stage entry.2 := by
  simp only [Session.predicateMethods, List.forall_mem_cons]
  refine ⟨⟨rfl, fun _ _ _ accepts => combined_allowed _ (accepts.get "other")⟩, combining_permitted "AND", combining_permitted "OR",
    ⟨rfl, fun _ ahead _ accepts => allows_builtResult fun _ => ?_⟩, forall_nothing⟩
  exact Value.gives_renderFrom free (fun value member => admits_later (under value member).everywhere ahead) (accepts.get "start_index")

/-- The name of a type is that of the record it is read from. -/
private theorem admits_typeName {value : Value} (all : value.Everywhere (custody.Admits stage)) {type : ColumnType}
    (read : ColumnType.ofValue? value = some type) : type.name.Everywhere (custody.Admits stage) := by
  unfold ColumnType.ofValue? at read
  split at read
  · next name _ arguments =>
    cases made : ColumnType.make name arguments with
    | error _ =>
      rw [made] at read
      cases read
    | ok given =>
      rw [made] at read
      cases read
      obtain ⟨_, _, rfl⟩ := Outcome.map_eq_ok.mp made
      exact (Value.everywhere_record.mp all).2 name (by simp)
  · cases read

theorem admits_build? {value : Value} (all : value.Everywhere (custody.Admits stage)) {result : Except Error Value}
    (built : value.build? = some result) {given : Value} (done : result = .ok given) : given.Everywhere (custody.Admits stage) := by
  subst done
  unfold Value.build? at built
  split at built
  · next type _ read =>
    have done := Option.some.inj built
    unfold ColumnType.build at done
    split at done
    · cases done
      exact admits_typeName all read
    · obtain ⟨_, _, further⟩ := Outcome.bind_eq_ok.mp done
      obtain ⟨_, _, same⟩ := Outcome.bind_eq_ok.mp further
      cases same
      exact Value.everywhere_text free _
  · next key _ _ =>
    obtain ⟨_, _, rfl⟩ := Outcome.map_eq_ok.mp (Option.some.inj built)
    exact Value.everywhere_text free _
  · cases built

theorem gives_joined {opening rest : Value} (all : opening.Everywhere (custody.Admits stage)) (all' : rest.Everywhere (custody.Admits stage))
    {first : Label} : Gives first (BuiltQuery.joined opening rest) fun _ value => value.Everywhere (custody.Admits stage) := by
  unfold BuiltQuery.joined
  split
  · exact gives_freshLabel.bind fun _ _ label _ => Keeps.pure fun _ _ => Value.everywhere_newList free label
      (List.forall_mem_append.mpr ⟨(Value.everywhere_list.mp all).2, (Value.everywhere_list.mp all').2⟩)
  · exact gives_freshLabel.bind fun _ _ label _ => Keeps.pure fun _ _ => Value.everywhere_newTuple free label
      (List.forall_mem_append.mpr ⟨(Value.everywhere_tuple.mp all).2, (Value.everywhere_tuple.mp all').2⟩)
  · exact Keeps.pure fun _ _ => Value.everywhere_bytes free _
  · exact Keeps.pure fun _ _ => Value.everywhere_int free _
  · exact Keeps.after fun _ _ => Keeps.after fun _ _ => Keeps.pure fun _ _ => Value.everywhere_text free _

theorem gives_prepend {opening : Value} {query : BuiltQuery} (all : opening.Everywhere (custody.Admits stage))
    (sound : query.Sound (custody.Admits stage)) {first : Label} :
    Gives first (query.prepend opening) (BuiltQuery.Fresh (custody.Admits stage) first) :=
  (gives_joined all sound.text).bind fun _ ahead _ readable => (BuiltQuery.gives_ofParts free readable sound.values).mono ahead

theorem recordMethods_permitted {value : Value} (all : value.Everywhere (custody.Admits stage)) :
    ∀ entry ∈ Session.recordMethods value, custody.Permits stage entry.2 := by
  unfold Session.recordMethods
  split
  · next read => exact predicateMethods_permitted (predicate_under all read)
  · next query _ read =>
    refine List.forall_mem_singleton.mpr ⟨rfl, fun after ahead _ accepts => allows_queryResult fun before further => ?_⟩
    exact gives_prepend (admits_later (accepts.get "prefix") further) ((query_finishes all read).later (ahead.trans further)).sound
  · next result built =>
    refine List.forall_mem_singleton.mpr ⟨rfl, fun _ ahead _ _ => allows_builtResult fun _ => Keeps.lift fun value done _ _ => ?_⟩
    exact admits_later (admits_build? all built done) ahead
  · exact forall_nothing

end RecordMethods

/-! ### Methods of common table expressions -/

section CteMethods

variable {label : Label} (mine : custody.mine label)

include mine in
theorem allows_changeCte {change : Cte Query → Cte Query} (changed : ∀ after, stage ≤ after → ∀ cte : Cte Query,
      cte.UnderAll (custody.rules after custody.mine) → (change cte).UnderAll (custody.rules after custody.mine)) :
    custody.Allows stage (Session.changeCte label change) custody.Grants := by
  refine (allows_object label).bind fun between ahead object found => ?_
  have under := found.2.2 mine
  split
  · next cte =>
    exact (allows_put mine found.1 (.cte (change cte)) (changed between ahead cte under)).bind fun _ _ _ _ =>
      Keeps.pure fun _ _ => trivial
  · exact Keeps.throw _

/-- An expression builds a query over copies of its own. -/
theorem gives_cteBuild {hands : Label → Prop} {cte : Cte Query} (under : cte.UnderAll (custody.rules stage hands)) {first : Label} :
    Gives first (cte.map Query.toChild).build (BuiltQuery.Fresh (custody.Admits stage) first) := by
  refine Cte.gives_build free fun child member => ?_
  obtain ⟨query, given, rfl⟩ := Option.mem_map.mp member
  exact (under.query query given).sound free within.closed

/-- Several expressions build a query over copies of its own. -/
theorem gives_ctesBuild {hands : Label → Prop} {ctes : List (Cte Query)} (under : ∀ cte ∈ ctes, cte.UnderAll (custody.rules stage hands))
    {first : Label} : Gives first (Cte.buildAll (ctes.map (Cte.map Query.toChild))) (BuiltQuery.Fresh (custody.Admits stage) first) := by
  refine Cte.gives_buildAll free (List.forall_mem_map.mpr fun cte member child inside => ?_)
  obtain ⟨query, given, rfl⟩ := Option.mem_map.mp inside
  exact ((under cte member).query query given).sound free within.closed

include mine in
theorem cteMethods_permitted {cte : Cte Query} (under : cte.UnderAll (custody.rules stage custody.mine)) :
    ∀ entry ∈ Session.cteMethods label cte, custody.Permits stage entry.2 := by
  simp only [Session.cteMethods, List.forall_mem_cons]
  refine ⟨?name, ?recursive, ?query, ?build, ?clone, forall_nothing⟩
  case name =>
    exact ⟨rfl, fun _ _ _ accepts => allows_changeCte mine fun _ further _ good =>
      ⟨⟨admits_later (accepts.get "name") further, good.recursive⟩, good.query⟩⟩
  case recursive =>
    exact ⟨rfl, fun _ _ _ accepts => allows_changeCte mine fun _ further _ good =>
      ⟨⟨good.name, admits_later (accepts.get "enabled") further⟩, good.query⟩⟩
  case query =>
    refine ⟨rfl, fun _ _ _ accepts => (allows_query (accepts.get "query")).bind fun _ _ query taken => ?_⟩
    refine allows_changeCte mine fun _ further _ good => ⟨⟨good.name, good.recursive⟩, ?_⟩
    rintro _ ⟨⟩
    exact taken.mono (rules_later further).closed
  case build => exact ⟨rfl, fun _ ahead _ _ => allows_queryResult fun _ further => gives_cteBuild (under.mono (rules_later (ahead.trans further)))⟩
  case clone => exact ⟨rfl, fun _ ahead _ _ => allows_newResult (.cte cte) (under.mono (rules_later ahead))⟩

/-- An expression with its statement is under the rules. -/
abbrev CteChange (custody : Custody) (stage : Stage) (cte : Cte Query) : Prop :=
  cte.UnderAll (custody.rules stage custody.mine)

theorem Takes.makeCte {arguments : Arguments} (takes : custody.Takes stage (arguments.get "query"))
    (name : (arguments.get "name").Everywhere (custody.Admits stage)) (recursive : (arguments.get "recursive").Everywhere (custody.Admits stage)) :
    custody.Allows stage (Session.makeCte arguments) custody.CteChange := by
  refine takes.optionalQuery.bind fun _ ahead query good => Keeps.pure fun _ further => ?_
  exact ⟨⟨admits_later name (ahead.trans further), admits_later recursive (ahead.trans further)⟩,
    fun given member => (good given member).mono (rules_later further).closed⟩

theorem allows_makeCte {arguments : Arguments} (accepts : custody.Accepts stage arguments) :
    custody.Allows stage (Session.makeCte arguments) custody.CteChange :=
  (takes_of_admits (accepts.get "query")).makeCte (accepts.get "name") (accepts.get "recursive")

include mine in
theorem allows_addCte {cte : Cte Query} (good : custody.CteChange stage cte) :
    custody.Allows stage (Session.addCte label cte) fun _ _ => True := by
  refine (allows_object label).bind fun between ahead object found => ?_
  have under := found.2.2 mine
  split
  · next ctes =>
    exact allows_put mine found.1 (.ctes (ctes ++ [cte]))
      (List.forall_mem_append.mpr ⟨under, List.forall_mem_singleton.mpr (good.mono (rules_later ahead))⟩)
  · exact Keeps.throw _

include mine in
theorem cteSetMethods_permitted {ctes : List (Cte Query)} (under : ∀ cte ∈ ctes, cte.UnderAll (custody.rules stage custody.mine)) :
    ∀ entry ∈ Session.cteSetMethods label ctes, custody.Permits stage entry.2 := by
  refine List.forall_mem_append.mpr ⟨permits_changing (fun _ _ _ good => allows_addCte mine good) ?_, ?_⟩
  · simp only [Session.cteSetEdits, List.forall_mem_cons]
    refine ⟨⟨rfl, fun _ _ _ accepts => ?_⟩, ⟨rfl, fun _ _ _ accepts => changes_one (allows_makeCte accepts)⟩, forall_nothing⟩
    refine (allows_ctesIn accepts.rest).bind fun _ _ found good => Keeps.pure fun _ further => List.forall_mem_map.mpr fun entry member => ?_
    exact Keeps.lift fun cte read _ ahead => (good entry member cte read).mono (rules_later (further.trans ahead))
  · simp only [Session.cteSetResults, List.forall_mem_cons]
    refine ⟨⟨rfl, fun _ ahead _ _ => allows_queryResult fun _ further => ?_⟩,
      ⟨rfl, fun _ ahead _ _ => allows_newResult (.ctes ctes) fun cte member => (under cte member).mono (rules_later ahead)⟩, forall_nothing⟩
    exact gives_ctesBuild fun cte member => (under cte member).mono (rules_later (ahead.trans further))

end CteMethods

end Custody

end SqlCompose
