import Mathlib
import SqlCompose.Proofs.PlainObjects
import SqlCompose.Proofs.SharedMethods

/-!
# Objects handed over

Some methods take over what they are given for some of their parameters: statements, expressions, sets of expressions and chains. Only copies are taken over, of what these hold at the time, or a predicate that has been built from them. So a party may be given objects of the other party there, as long as these refer to nothing themselves, and what it has afterwards refers to nothing of the other party's.
-/

namespace SqlCompose

open Build

/-! ### What is taken over -/

/-- The parameters whose values are taken over, and whether the further values are. -/
structure Intake where
  names : List Text
  further : Bool := false

/-- What a method is given: some things where it takes them over, others for its other parameters. -/
structure Arguments.Fits (arguments : Arguments) (intake : Intake) (offered kept : Value → Prop) : Prop where
  taken : ∀ name ∈ intake.names, (arguments.get name).Everywhere offered
  kept : ∀ name, name ∉ intake.names → (arguments.get name).Everywhere kept
  further : intake.further = true → Value.AllEverywhere offered arguments.rest

theorem Arguments.Fits.imp {arguments : Arguments} {intake : Intake} {offered offered' kept kept' : Value → Prop}
    (fits : arguments.Fits intake offered kept) (more : ∀ value, offered value → offered' value) (more' : ∀ value, kept value → kept' value) :
    arguments.Fits intake offered' kept' :=
  ⟨fun name member => (fits.taken name member).imp more, fun name other => (fits.kept name other).imp more',
    fun further value member => (fits.further further value member).imp more⟩

namespace Session

/-- The methods that take over what they are given, of the objects that have them. -/
inductive TakesOver : Object → Text → Intake → Prop
  | conditions (query : Query) {name : Text} (named : name ∈ (["where", "or_where", "having"] : List Text)) :
      TakesOver (.query query) name ⟨["condition"], false⟩
  | attached (query : Query) : TakesOver (.query query) "with_" ⟨["ctes"], false⟩
  | join (query : Query) : TakesOver (.query query) "join" ⟨["on"], false⟩
  | subquery (query : Query) : TakesOver (.query query) "join_subquery" ⟨["query", "on"], false⟩
  | source (query : Query) : TakesOver (.query query) "from_select" ⟨["query"], false⟩
  | member (query : Query) : TakesOver (.query query) "add" ⟨["query"], false⟩
  | members (query : Query) : TakesOver (.query query) "add_many" ⟨["members"], false⟩
  | membersOfType (query : Query) : TakesOver (.query query) "add_many_of_type" ⟨["queries"], false⟩
  | union (query : Query) {name : Text} (named : name ∈ (["union", "union_all"] : List Text)) : TakesOver (.query query) name ⟨["other"], false⟩
  | links (chain : Chain) {name : Text} (named : name ∈ (["and_", "or_"] : List Text)) : TakesOver (.chain chain) name ⟨["condition"], false⟩
  | existence (chain : Chain) {name : Text} (named : name ∈ (["exists", "not_exists"] : List Text)) :
      TakesOver (.chain chain) name ⟨["subquery"], false⟩
  | statements (chain : Chain) : TakesOver (.chain chain) "join_statements" ⟨["statements"], false⟩
  | query (cte : Cte Query) : TakesOver (.cte cte) "with_query" ⟨["query"], false⟩
  | expressions (ctes : List (Cte Query)) : TakesOver (.ctes ctes) "add" ⟨[], true⟩
  | expression (ctes : List (Cte Query)) : TakesOver (.ctes ctes) "add_cte" ⟨["query"], false⟩
  | newCte (defaults : Defaults) : TakesOver (.queryMaker defaults) "cte" ⟨["query"], false⟩
  | newCtes (defaults : Defaults) : TakesOver (.queryMaker defaults) "ctes" ⟨[], true⟩

/-- The kinds of object that take over what they are created with. -/
inductive CreatedOver : Text → Intake → Prop
  | cte : CreatedOver "Cte" ⟨["query"], false⟩
  | ctes : CreatedOver "CteMaker" ⟨[], true⟩

end Session

/-! ### Taking over in custody -/

namespace Custody

variable {custody : Custody} {lent : Label → Prop} {stage : Stage}

/-- Whatever is done in a custody, some objects stay as they are, and refer to no others. -/
def Lends (custody : Custody) (lent : Label → Prop) : Prop :=
  ∀ stage session, custody.Reached stage session → ∀ label, lent label → ∃ object, session.object? label = some object ∧ object.Under Rules.plain

/-- What may lie in a value that is taken over. -/
structure Offers (custody : Custody) (lent : Label → Prop) (stage : Stage) (part : Value) : Prop where
  object : ∀ label face, part = .object label face → lent label ∨ custody.seen label ∧ label < stage.next
  record : ∀ label kind fields, part = .record label kind fields → kind = .predicate ∨ kind = .builtQuery → part.Everywhere (custody.Admits stage)

theorem Offers.later {part : Value} (offers : custody.Offers lent stage part) {stage' : Stage} (ahead : stage ≤ stage') :
    custody.Offers lent stage' part :=
  ⟨fun label face same => (offers.object label face same).imp_right fun seen => ⟨seen.1, seen.2.trans_le ahead.1⟩,
    fun label kind fields same taken => admits_later (offers.record label kind fields same taken) ahead⟩

theorem offers_free : Value.OfHandles (custody.Offers lent stage) := by
  refine fun value noObject noPredicate noQuery => ⟨fun label face same => absurd same (noObject label face), ?_⟩
  rintro label _ fields same (rfl | rfl)
  · exact absurd same (noPredicate label fields)
  · exact absurd same (noQuery label fields)

theorem plain_implies (untracked : ¬ custody.tracked) (hands : Label → Prop) : Rules.plain.Implies (custody.rules stage hands).lax := by
  have admits (value : Value) (plain : value.Plain) : value.Everywhere (custody.Admits stage) :=
    plain.imp fun _ none => ⟨fun label face same => (none label face same).elim, fun tracked => absurd tracked untracked,
      fun tracked => absurd tracked untracked⟩
  have binds (value : Value) (plain : value.Plain) : custody.Binds stage value :=
    ⟨admits value plain, fun tracked => absurd tracked untracked, fun tracked => absurd tracked untracked⟩
  exact ⟨binds, admits, fun query sound => ⟨⟨admits _ sound.text, fun value member => admits value (sound.values value member)⟩,
    fun tracked => absurd tracked untracked⟩, fun _ _ => trivial⟩

/-- With what is lent where it is taken over, the method does what is allowed and gives what may be held. -/
def PermitsLent (custody : Custody) (lent : Label → Prop) (stage : Stage) (intake : Intake) (method : Method (Act Outcome)) : Prop :=
  ∀ arguments, arguments.Fits intake (custody.Offers lent stage) (custody.Admits stage) → custody.Allows stage (method.run arguments) custody.Grants

section Lending

variable (lends : custody.Lends lent) (untracked : ¬ custody.tracked)
include lends untracked

private theorem allows_lent {label : Label} (given : lent label) :
    custody.Allows stage (Act.object label) fun after object => object.Under (custody.rules after custody.mine).lax := by
  refine allows_get.bind fun between _ session reached => ?_
  obtain ⟨object, shown, plain⟩ := lends between session reached label given
  rw [shown]
  exact Keeps.pure fun _ _ => plain.mono (plain_implies untracked _)

theorem takes_of_offers {value : Value} (all : value.Everywhere (custody.Offers lent stage)) : custody.Takes stage value := by
  refine ⟨?_, all.self.record⟩
  cases value with
  | object label face =>
    obtain given | ⟨seen, made⟩ := all.self.object label face rfl
    · refine (allows_lent lends untracked given).bind fun _ _ _ under => Keeps.pure fun _ further => ?_
      rintro _ _ ⟨⟩
      exact under.mono (rules_later further).lax
    · exact (takes_of_admits (admits_object face seen made)).object
  | _ =>
    refine Keeps.pure fun _ _ => ?_
    rintro _ _ ⟨⟩

theorem ctesIn_of_offers {values : List Value} (all : Value.AllEverywhere (custody.Offers lent stage) values) :
    custody.Allows stage (Act.ctesIn values) custody.FoundCtes := by
  refine ctesIn_found all fun after _ session reached label face offers object found => ?_
  obtain given | ⟨seen, _⟩ := offers.object label face rfl
  · obtain ⟨_, shown, plain⟩ := lends after session reached label given
    cases shown.symm.trans found
    exact plain.mono (plain_implies untracked _)
  · exact ((reached.object found).2.1 seen).mono (Rules.implies_lax _)

/-! ### Methods that take over -/

variable {label : Label} {intake : Intake} {method : Method (Act Outcome)}

omit lends untracked in
private theorem permitsLent_changing {E : Type} {make : E → Act Unit} {good : Stage → E → Prop} (made : ∀ after, stage ≤ after → ∀ change,
      good after change → custody.Allows after (make change) fun _ _ => True) {method : Method (Changes E)}
    (run : ∀ arguments, arguments.Fits intake (custody.Offers lent stage) (custody.Admits stage) →
      custody.AllowsChanges stage good (method.run arguments)) :
    custody.PermitsLent lent stage intake ⟨method.signature, fun arguments => do
      (method.run arguments).makeAll make
      return .itself⟩ :=
  fun arguments fits => (allows_makeAll made (run arguments fits)).bind fun _ _ _ _ => Keeps.pure fun _ _ => trivial

section Queries

variable (mine : custody.mine label) {query : Query} (under : (Object.query query).Under (custody.rules stage custody.mine))

omit lends untracked in
include mine in
/-- A method that changes statements of several kinds, with what is lent. -/
private theorem permitsLent_statement {name : Text} (changes : Method (Changes Statement.Edit))
    (listed : (Session.settingEdits ++ (Session.clauseEdits ++ Session.writingEdits)).lookup name = some changes)
    (shared : name ∉ Session.unsharedNames) (found : (Session.queryMethods label query).lookup name = some method)
    (run : ∀ arguments, arguments.Fits intake (custody.Offers lent stage) (custody.Admits stage) →
      custody.AllowsChanges stage custody.StatementChange (changes.run arguments)) : custody.PermitsLent lent stage intake method := by
  obtain own | missing := Session.lookup_shared label query listed shared
  · cases own.symm.trans found
    exact permitsLent_changing (fun _ _ _ good => allows_editStatement mine good) run
  · cases missing.symm.trans found

include mine in
private theorem conditions_lent {name : Text} (named : name ∈ (["where", "or_where", "having"] : List Text))
    (found : (Session.queryMethods label query).lookup name = some method) :
    custody.PermitsLent lent stage ⟨["condition"], false⟩ method := by
  have linking (link : Condition → List Value → Statement.Edit)
      (good : ∀ rules condition values, condition.Under rules → (link condition values).Under rules) (arguments : Arguments)
      (fits : arguments.Fits ⟨["condition"], false⟩ (custody.Offers lent stage) (custody.Admits stage)) :
      custody.AllowsChanges stage custody.StatementChange
        (.one do return link (← Act.condition (arguments.get "condition")) arguments.rest) :=
    changes_one ((takes_of_offers lends untracked (fits.taken _ List.mem_cons_self)).condition.bind fun _ _ _ under =>
      Keeps.pure fun _ further => good _ _ _ (under.mono (rules_later further)))
  simp only [List.mem_cons, List.not_mem_nil, or_false] at named
  obtain rfl | rfl | rfl := named
  · exact permitsLent_statement mine (Session.restricting .and) rfl (by decide) found (linking _ fun _ _ _ good => good)
  · exact permitsLent_statement mine (Session.restricting .or) rfl (by decide) found (linking _ fun _ _ _ good => good)
  · exact permitsLent_statement mine (⟨.spread ["condition"], fun arguments => .one do
      return .having (← Act.condition (arguments.get "condition")) arguments.rest⟩) rfl (by decide) found (linking _ fun _ _ _ good => good)

include mine in
private theorem attached_lent (found : (Session.queryMethods label query).lookup ("with_" : Text) = some method) :
    custody.PermitsLent lent stage ⟨["ctes"], false⟩ method := by
  refine permitsLent_statement mine ⟨.plain ["ctes"] [], fun arguments => .one do return .ctes (← Act.attachedCtes (arguments.get "ctes"))⟩
    rfl (by decide) found fun arguments fits => changes_one ?_
  have offers := fits.taken _ List.mem_cons_self
  refine ((takes_of_offers lends untracked offers).attachedCtes (ctesIn_of_offers lends untracked (List.forall_mem_singleton.mpr offers))).bind
    fun _ _ _ under => Keeps.pure fun _ further cte member => ?_
  exact (under cte member).mono (rules_later further)

include mine in
private theorem join_lent (found : (Session.queryMethods label query).lookup ("join" : Text) = some method) :
    custody.PermitsLent lent stage ⟨["on"], false⟩ method := by
  refine permitsLent_statement mine ⟨Session.joinSignature ["table"] [("alias", .null)], fun arguments => .one do
      return .join (← Act.tableJoin arguments)⟩ rfl (by decide) found fun arguments fits => changes_one ?_
  refine (allows_tableJoin (takes_of_offers lends untracked (fits.taken _ List.mem_cons_self)) (fits.kept _ (by decide)) (fits.kept _ (by decide))).bind
    fun _ _ _ under => Keeps.pure fun _ further => ?_
  exact ⟨under.1.mono (rules_later further), fun query member => (under.2 query member).mono (rules_later further).closed⟩

include mine in
private theorem subquery_lent (found : (Session.queryMethods label query).lookup ("join_subquery" : Text) = some method) :
    custody.PermitsLent lent stage ⟨["query", "on"], false⟩ method := by
  refine permitsLent_statement mine ⟨Session.joinSignature ["query", "alias"] [], fun arguments => .one do
      return .join (← Act.queryJoin arguments)⟩ rfl (by decide) found fun arguments fits => changes_one ?_
  have takes {name : Text} (taken : name ∈ (["query", "on"] : List Text)) : custody.Takes stage (arguments.get name) :=
    takes_of_offers lends untracked (fits.taken name taken)
  refine (allows_queryJoin (takes (by decide)) (fits.kept _ (by decide)) (takes (by decide))).bind fun _ _ _ under => Keeps.pure fun _ further => ?_
  exact ⟨under.1.mono (rules_later further), fun query member => (under.2 query member).mono (rules_later further).closed⟩

include mine in
private theorem source_lent (found : (Session.queryMethods label query).lookup ("from_select" : Text) = some method) :
    custody.PermitsLent lent stage ⟨["query"], false⟩ method := by
  refine permitsLent_statement mine ⟨.plain ["query"] [], fun arguments => .one do
      return .source (← Act.query (arguments.get "query"))⟩ rfl (by decide) found fun arguments fits => changes_one ?_
  exact (takes_of_offers lends untracked (fits.taken _ List.mem_cons_self)).query.bind fun _ _ _ under =>
    Keeps.pure fun _ further => under.mono (rules_later further).closed

include mine in
private theorem member_lent (found : (Session.queryMethods label query).lookup ("add" : Text) = some method) :
    custody.PermitsLent lent stage ⟨["query"], false⟩ method := by
  rw [Session.lookup_unshared label query (by decide)] at found
  obtain ⟨statement⟩ := query
  cases statement with
  | compound compound =>
    cases found
    exact permitsLent_changing (fun _ _ _ good => allows_editStatement mine good) fun arguments fits =>
      changes_one (memberEdit_allowed (takes_of_offers lends untracked (fits.taken _ List.mem_cons_self)))
  | _ => cases found

include mine in
private theorem members_lent (found : (Session.queryMethods label query).lookup ("add_many" : Text) = some method) :
    custody.PermitsLent lent stage ⟨["members"], false⟩ method := by
  rw [Session.lookup_unshared label query (by decide)] at found
  obtain ⟨statement⟩ := query
  cases statement with
  | compound compound =>
    cases found
    refine permitsLent_changing (fun _ _ _ good => allows_editStatement mine good) fun arguments fits => ?_
    have offers := fits.taken _ List.mem_cons_self
    refine Keeps.after fun items read => Keeps.pure fun after further => List.forall_mem_map.mpr fun item member => ?_
    have later : item.Everywhere (custody.Offers lent after) := (Value.everywhere_items offers_free offers read item member).imp fun _ part => part.later further
    exact memberEntry_allowed (fun _ => takes_of_offers lends untracked) later
  | _ => cases found

include mine in
private theorem membersOfType_lent (found : (Session.queryMethods label query).lookup ("add_many_of_type" : Text) = some method) :
    custody.PermitsLent lent stage ⟨["queries"], false⟩ method := by
  rw [Session.lookup_unshared label query (by decide)] at found
  obtain ⟨statement⟩ := query
  cases statement with
  | compound compound =>
    cases found
    refine permitsLent_changing (fun _ _ _ good => allows_editStatement mine good) fun arguments fits => ?_
    have offers := fits.taken _ List.mem_cons_self
    refine Keeps.after fun items read => Keeps.pure fun after further => List.forall_mem_map.mpr fun item member => ?_
    have takes := takes_of_offers lends untracked (Value.everywhere_items offers_free offers read item member)
    exact memberEdit_allowed (takes.later further)
  | _ => cases found

include under in
private theorem union_lent {name : Text} (named : name ∈ (["union", "union_all"] : List Text))
    (found : (Session.queryMethods label query).lookup name = some method) : custody.PermitsLent lent stage ⟨["other"], false⟩ method := by
  have unites (operator : SetOperator) : custody.PermitsLent lent stage ⟨["other"], false⟩ (Session.unite query operator) := fun arguments fits =>
    allows_unite under operator (takes_of_offers lends untracked (fits.taken _ List.mem_cons_self)) (fits.kept _ (by decide))
  simp only [List.mem_cons, List.not_mem_nil, or_false] at named
  obtain ⟨statement⟩ := query
  obtain rfl | rfl := named
  · rw [Session.lookup_unshared label _ (by decide)] at found
    cases statement with
    | select s =>
      cases found
      exact unites .union
    | _ => cases found
  · rw [Session.lookup_unshared label _ (by decide)] at found
    cases statement with
    | select s =>
      cases found
      exact unites .unionAll
    | _ => cases found

end Queries

section Chains

variable (mine : custody.mine label) {chain : Chain}
include mine

private theorem links_lent {name : Text} (named : name ∈ (["and_", "or_"] : List Text))
    (found : (Session.chainMethods label chain).lookup name = some method) : custody.PermitsLent lent stage ⟨["condition"], false⟩ method := by
  have linking (word : Text) (arguments : Arguments)
      (fits : arguments.Fits ⟨["condition"], false⟩ (custody.Offers lent stage) (custody.Admits stage)) :
      custody.AllowsChanges stage custody.ChainChange ((Session.linking word).run arguments) :=
    changes_one ((takes_of_offers lends untracked (fits.taken _ List.mem_cons_self)).condition.bind fun _ _ _ under =>
      Keeps.pure fun _ further => under.mono (rules_later further))
  simp only [List.mem_cons, List.not_mem_nil, or_false] at named
  obtain rfl | rfl := named
  all_goals
    cases found
    exact permitsLent_changing (fun _ _ _ good => allows_editChain mine good) (linking _)

private theorem existence_lent {name : Text} (named : name ∈ (["exists", "not_exists"] : List Text))
    (found : (Session.chainMethods label chain).lookup name = some method) : custody.PermitsLent lent stage ⟨["subquery"], false⟩ method := by
  have existing (negated : Bool) (arguments : Arguments)
      (fits : arguments.Fits ⟨["subquery"], false⟩ (custody.Offers lent stage) (custody.Admits stage)) :
      custody.AllowsChanges stage custody.ChainChange ((Session.existence negated).run arguments) :=
    changes_one ((takes_of_offers lends untracked (fits.taken _ List.mem_cons_self)).condition.bind fun _ _ _ under =>
      Keeps.pure fun _ further => under.mono (rules_later further))
  simp only [List.mem_cons, List.not_mem_nil, or_false] at named
  obtain rfl | rfl := named
  all_goals
    cases found
    exact permitsLent_changing (fun _ _ _ good => allows_editChain mine good) (existing _)

private theorem statements_lent (found : (Session.chainMethods label chain).lookup ("join_statements" : Text) = some method) :
    custody.PermitsLent lent stage ⟨["statements"], false⟩ method := by
  cases found
  intro arguments fits
  have offers := fits.taken _ List.mem_cons_self
  refine Keeps.after fun items read => ?_
  have takes (item : Value) (member : item ∈ items) : custody.Takes stage item :=
    takes_of_offers lends untracked (Value.everywhere_items offers_free offers read item member)
  exact (allows_joining mine _ takes).bind fun _ _ _ _ => Keeps.pure fun _ _ => trivial

end Chains

section Expressions

variable (mine : custody.mine label)

private theorem makeCte_lent {arguments : Arguments} (fits : arguments.Fits ⟨["query"], false⟩ (custody.Offers lent stage) (custody.Admits stage)) :
    custody.Allows stage (Session.makeCte arguments) custody.CteChange :=
  (takes_of_offers lends untracked (fits.taken _ List.mem_cons_self)).makeCte (fits.kept _ (by decide)) (fits.kept _ (by decide))

private theorem newCte_lent : custody.PermitsLent lent stage ⟨["query"], false⟩ Session.newCte :=
  fun _ fits => (makeCte_lent lends untracked fits).bind fun _ _ cte made => allows_newResult (.cte cte) made

private theorem newCtes_lent : custody.PermitsLent lent stage ⟨[], true⟩ Session.newCtes :=
  fun _ fits => (ctesIn_of_offers lends untracked (fits.further rfl)).bind fun _ _ _ found => Keeps.after fun ctes read =>
    allows_newResult (.ctes ctes) (allOf_under found read)

include mine

private theorem query_lent {cte : Cte Query} (found : (Session.cteMethods label cte).lookup ("with_query" : Text) = some method) :
    custody.PermitsLent lent stage ⟨["query"], false⟩ method := by
  cases found
  intro arguments fits
  refine (takes_of_offers lends untracked (fits.taken _ List.mem_cons_self)).query.bind fun _ _ query taken => ?_
  refine allows_changeCte mine fun _ further _ good => ⟨⟨good.name, good.recursive⟩, ?_⟩
  rintro _ ⟨⟩
  exact taken.mono (rules_later further).closed

private theorem expressions_lent {ctes : List (Cte Query)} (found : (Session.cteSetMethods label ctes).lookup ("add" : Text) = some method) :
    custody.PermitsLent lent stage ⟨[], true⟩ method := by
  cases found
  refine permitsLent_changing (fun _ _ _ good => allows_addCte mine good) fun arguments fits => ?_
  refine (ctesIn_of_offers lends untracked (fits.further rfl)).bind fun _ _ _ found => Keeps.pure fun _ further =>
    List.forall_mem_map.mpr fun entry member => ?_
  exact Keeps.lift fun cte read _ ahead => (found entry member cte read).mono (rules_later (further.trans ahead))

private theorem expression_lent {ctes : List (Cte Query)} (found : (Session.cteSetMethods label ctes).lookup ("add_cte" : Text) = some method) :
    custody.PermitsLent lent stage ⟨["query"], false⟩ method := by
  cases found
  exact permitsLent_changing (fun _ _ _ good => allows_addCte mine good) fun arguments fits => changes_one (makeCte_lent lends untracked fits)

end Expressions

/-- All methods that take over what they are given permit what is lent. -/
theorem methods_lent (mine : custody.mine label) {object : Object} (under : object.Under (custody.rules stage custody.mine)) {name : Text}
    (takes : Session.TakesOver object name intake) (found : (Session.objectMethods label object).lookup name = some method) :
    custody.PermitsLent lent stage intake method := by
  cases takes with
  | conditions query named => exact conditions_lent lends untracked mine named found
  | attached query => exact attached_lent lends untracked mine found
  | join query => exact join_lent lends untracked mine found
  | subquery query => exact subquery_lent lends untracked mine found
  | source query => exact source_lent lends untracked mine found
  | member query => exact member_lent lends untracked mine found
  | members query => exact members_lent lends untracked mine found
  | membersOfType query => exact membersOfType_lent lends untracked mine found
  | union query named => exact union_lent lends untracked under named found
  | links chain named => exact links_lent lends untracked mine named found
  | existence chain named => exact existence_lent lends untracked mine named found
  | statements chain => exact statements_lent lends untracked mine found
  | query cte => exact query_lent lends untracked mine found
  | expressions ctes => exact expressions_lent lends untracked mine found
  | expression ctes => exact expression_lent lends untracked mine found
  | newCte defaults =>
    cases found
    exact newCte_lent lends untracked
  | newCtes defaults =>
    cases found
    exact newCtes_lent lends untracked

/-- Whatever takes over what it is created with permits what is lent. -/
theorem creators_lent {kind : Text} (takes : Session.CreatedOver kind intake) (found : Session.creators.lookup kind = some method) :
    custody.PermitsLent lent stage intake method := by
  cases takes with
  | cte =>
    cases found
    exact newCte_lent lends untracked
  | ctes =>
    cases found
    exact newCtes_lent lends untracked

end Lending

end Custody

end SqlCompose
