import Mathlib
import SqlCompose.Proofs.CustodyQueries
import SqlCompose.Proofs.CustodyTables
import SqlCompose.Session.Step

/-!
# Creating and calling in custody

What is created may be held, and so may everything that is read off an object. With the methods of all kinds of objects permitted, any call is allowed whose target is one's own, with whatever it is given that may be held.
-/

namespace SqlCompose

open Build

namespace Custody

variable {custody : Custody} {stage : Stage} {arguments : Arguments}

/-! ### Records -/

section Records

variable (accepts : custody.Accepts stage arguments)
include accepts

omit accepts in
private theorem allows_newPredicate : custody.Allows stage (Session.newPredicate arguments) custody.Grants := by
  refine Keeps.after fun values _ => allows_predicateResult fun before _ => ?_
  split
  · exact Predicate.gives_makeUnder le_rfl _ _ _
  · exact (Value.gives_checkAll values).bind fun _ _ _ _ => Keeps.throw _

private theorem allows_predicateOf : custody.Allows stage (Session.predicateOf arguments) custody.Grants := by
  have all := accepts.get "condition"
  unfold Session.predicateOf
  dsimp only
  split
  · exact Keeps.pure fun _ further => admits_later all further
  · refine (allows_predicate all arguments.rest).bind fun between _ predicate good => allows_predicateResult fun before further => ?_
    have later : predicate.Under (custody.rules before custody.mine) := good.mono (rules_later further)
    exact Keeps.pure fun _ _ value member => .inl (later value member)

private theorem allows_newBuiltQuery : custody.Allows stage (Session.newBuiltQuery arguments) custody.Grants := by
  refine Keeps.after fun values read => allows_queryResult fun before further => ?_
  have sound := Value.everywhere_items free (accepts.get "values") read
  exact BuiltQuery.gives_ofParts free (admits_later (accepts.get "text") further) fun value member => admits_later (sound value member) further

private theorem allows_newOrder : custody.Allows stage (Session.newOrder arguments) custody.Grants := by
  refine allows_builtResult fun _ => Keeps.after fun order made => gives_freshLabel.bind fun _ _ label _ => Keeps.pure fun _ _ => ?_
  refine Value.everywhere_record.mpr ⟨free.other rfl, List.forall_mem_cons.mpr ⟨?_, ?_⟩⟩
  · rw [OrderBy.field_of_make made]
    exact accepts.get "field"
  · exact List.forall_mem_singleton.mpr (Value.everywhere_entry free _)

omit accepts in
private theorem allows_typeResult {name : Value} (all : name.Everywhere (custody.Admits stage)) {type : Except Error ColumnType}
    (named : ∀ given, type = .ok given → given.name = name) : custody.Allows stage (Session.typeResult type) custody.Grants := by
  refine allows_builtResult fun _ => Keeps.after fun given done => gives_freshLabel.bind fun _ _ held _ =>
    gives_freshLabel.bind fun _ _ label _ => Keeps.pure fun _ _ => ?_
  refine Value.everywhere_record.mpr ⟨free.other rfl, List.forall_mem_cons.mpr ⟨?_, ?_⟩⟩
  · rwa [named given done]
  · exact List.forall_mem_singleton.mpr (Value.everywhere_newTuple free held (List.forall_mem_map.mpr fun n _ => Value.everywhere_int free _))

omit accepts in
private theorem name_of_make {name : Value} {values : List Value} (type : ColumnType) (made : ColumnType.make name values = .ok type) :
    type.name = name := by
  obtain ⟨_, _, rfl⟩ := Outcome.map_eq_ok.mp made
  rfl

private theorem allows_newType : custody.Allows stage (Session.newType arguments) custody.Grants :=
  Keeps.after fun _ _ => allows_typeResult (accepts.get "name") name_of_make

omit accepts in
private theorem sizedType_permitted (name : Text) : custody.Permits stage (Session.sizedType name) :=
  ⟨rfl, fun _ _ _ _ => allows_typeResult (Value.everywhere_text free name) name_of_make⟩

omit accepts in
private theorem scaledType_permitted (name : Text) : custody.Permits stage (Session.scaledType name) := by
  refine ⟨rfl, fun _ _ _ _ => allows_typeResult (Value.everywhere_text free name) fun type made => ?_⟩
  unfold ColumnType.withScale at made
  split at made
  · exact name_of_make type made
  · exact name_of_make type made

end Records

/-! ### Statements -/

section Statements

/-- New settings are under the rules if the standard ones are. -/
private theorem settingsOf_under {rules : Rules} {defaults : Defaults} (good : rules.other defaults.compact ∧ rules.other defaults.deep) :
    (Session.settingsOf defaults).Under rules :=
  ⟨forall_nothing, good.1, good.2⟩

private theorem standard_under : ({} : Settings).Under (custody.rules stage custody.mine) :=
  ⟨forall_nothing, Value.everywhere_bool free false, Value.everywhere_bool free false⟩

private theorem allows_newStatement {statement : Statement Query} (own : statement.Under (custody.rules stage custody.mine))
    (parts : ∀ child ∈ statement.children, child.Under (custody.rules stage custody.mine).closed)
    (unfinished : ∀ built, statement ≠ .built built) : custody.Allows stage (Session.newStatement statement) custody.Grants :=
  allows_newResult (.query (.of statement)) ⟨.of own parts, unfinished⟩

variable {settings : Settings} (good : settings.Under (custody.rules stage custody.mine))
include good

private theorem newSelect_permitted : custody.Permits stage (Session.newSelect settings) := by
  refine ⟨rfl, fun _ ahead _ accepts => allows_newStatement
    ⟨?_, forall_nothing, forall_nothing, forall_nothing, ?_, ?_, ?_, forall_nothing, forall_nothing, by rintro _ ⟨⟩⟩
    forall_nothing (by rintro _ ⟨⟩)⟩
  · rintro _ ⟨⟩
    exact good.mono (rules_later ahead)
  · exact List.forall_mem_cons.mpr ⟨⟨forall_nothing, by rintro _ ⟨⟩⟩, List.forall_mem_singleton.mpr ⟨forall_nothing, by rintro _ ⟨⟩⟩⟩
  · exact List.forall_mem_cons.mpr ⟨accepts.get "table", List.forall_mem_singleton.mpr (accepts.get "alias")⟩
  · exact List.forall_mem_cons.mpr ⟨Value.everywhere_bool free false, List.forall_mem_singleton.mpr (Value.everywhere_bool free false)⟩

private theorem newCompound_permitted : custody.Permits stage (Session.newCompound settings) := by
  refine ⟨rfl, fun _ ahead _ accepts => allows_newStatement
    ⟨?_, forall_nothing, forall_nothing, forall_nothing, ?_, ?_, forall_nothing, forall_nothing, forall_nothing, by rintro _ ⟨⟩⟩
    forall_nothing (by rintro _ ⟨⟩)⟩
  · rintro _ ⟨⟩
    exact good.mono (rules_later ahead)
  · exact List.forall_mem_cons.mpr ⟨⟨forall_nothing, by rintro _ ⟨⟩⟩, List.forall_mem_singleton.mpr ⟨forall_nothing, by rintro _ ⟨⟩⟩⟩
  · exact List.forall_mem_singleton.mpr (accepts.get "alias")

private theorem newInsert_permitted : custody.Permits stage (Session.newInsert settings) := by
  refine ⟨rfl, fun _ ahead _ accepts => allows_newStatement
    ⟨?_, forall_nothing, forall_nothing, forall_nothing, forall_nothing, ?_, forall_nothing, forall_nothing, forall_nothing, by rintro _ ⟨⟩⟩
    forall_nothing (by rintro _ ⟨⟩)⟩
  · rintro _ ⟨⟩
    exact good.mono (rules_later ahead)
  · exact List.forall_mem_singleton.mpr (accepts.get "table")

private theorem newUpdate_permitted : custody.Permits stage (Session.newUpdate settings) := by
  refine ⟨rfl, fun _ ahead _ accepts => allows_newStatement
    ⟨?_, forall_nothing, forall_nothing, forall_nothing, ?_, ?_, forall_nothing, forall_nothing, forall_nothing, by rintro _ ⟨⟩⟩
    forall_nothing (by rintro _ ⟨⟩)⟩
  · rintro _ ⟨⟩
    exact good.mono (rules_later ahead)
  · exact List.forall_mem_singleton.mpr ⟨forall_nothing, by rintro _ ⟨⟩⟩
  · exact List.forall_mem_cons.mpr ⟨accepts.get "table", List.forall_mem_singleton.mpr (accepts.get "alias")⟩

private theorem newDelete_permitted : custody.Permits stage (Session.newDelete settings) := by
  refine ⟨rfl, fun _ ahead _ accepts => allows_newStatement
    ⟨?_, forall_nothing, forall_nothing, forall_nothing, ?_, ?_, forall_nothing, forall_nothing, forall_nothing, by rintro _ ⟨⟩⟩
    forall_nothing (by rintro _ ⟨⟩)⟩
  · rintro _ ⟨⟩
    exact good.mono (rules_later ahead)
  · exact List.forall_mem_singleton.mpr ⟨forall_nothing, by rintro _ ⟨⟩⟩
  · exact List.forall_mem_cons.mpr ⟨accepts.get "table", List.forall_mem_singleton.mpr (accepts.get "alias")⟩

omit good

private theorem newCte_permitted : custody.Permits stage Session.newCte :=
  ⟨rfl, fun _ _ _ accepts => (allows_makeCte accepts).bind fun _ _ cte made => allows_newResult (.cte cte) made⟩

private theorem newCtes_permitted : custody.Permits stage Session.newCtes :=
  ⟨rfl, fun _ _ _ accepts => (allows_ctesIn accepts.rest).bind fun _ _ _ found => Keeps.after fun ctes read =>
    allows_newResult (.ctes ctes) (allOf_under found read)⟩

private theorem newChain_permitted : custody.Permits stage Session.newChain :=
  ⟨rfl, fun _ _ _ _ => allows_newResult (.chain {}) forall_nothing⟩

end Statements

/-! ### Tables -/

section Tables

private theorem allows_newColumn (accepts : custody.Accepts stage arguments) :
    custody.Allows stage (Session.newColumn arguments) custody.Grants := by
  refine allows_newResult _ fun value member => ?_
  simp only [Column.values, Option.toList_none, List.flatMap_nil, List.append_nil, List.mem_cons, List.not_mem_nil, or_false] at member
  obtain rfl | rfl | rfl | rfl := member
  · exact accepts.get "name"
  · exact accepts.get "column_type"
  · exact Value.everywhere_null free
  · exact Value.everywhere_null free

private theorem allows_newCreate (flavor : Flavor) {name : Value} (all : name.Everywhere (custody.Admits stage)) {columns : List Value}
    (columnsAll : Value.AllEverywhere (custody.Admits stage) columns) :
    custody.Allows stage (Session.newCreate flavor name columns) custody.Grants :=
  allows_newResult _ ⟨List.forall_mem_cons.mpr ⟨all, List.forall_mem_singleton.mpr (Value.everywhere_bool free false)⟩, columnsAll⟩

private theorem allows_newAlter (flavor : Flavor) {name : Value} (all : name.Everywhere (custody.Admits stage)) :
    custody.Allows stage (Session.newAlter flavor name) custody.Grants :=
  allows_newResult _ ⟨List.forall_mem_singleton.mpr all, forall_nothing⟩

private theorem allows_newDrop (flavor : Flavor) {name : Value} (all : name.Everywhere (custody.Admits stage)) :
    custody.Allows stage (Session.newDrop flavor name) custody.Grants :=
  allows_newResult _ ⟨List.forall_mem_cons.mpr ⟨all, List.forall_mem_singleton.mpr (Value.everywhere_bool free false)⟩, forall_nothing⟩

end Tables

/-! ### Makers -/

section Makers

private theorem allows_givenFlavor (value : Value) : custody.Allows stage (Session.givenFlavor value) fun _ _ => True := by
  unfold Session.givenFlavor
  split
  · exact allows_get.bind fun _ _ _ _ => Keeps.pure fun _ _ => trivial
  · exact Keeps.lift fun _ _ _ _ => trivial

private theorem allows_newQueryMaker (accepts : custody.Accepts stage arguments) :
    custody.Allows stage (Session.newQueryMaker arguments) custody.Grants := by
  refine allows_get.bind fun between ahead session reached => (allows_givenFlavor _).bind fun between' ahead' flavor _ => ?_
  have quiet : Quiet (do
      log Session.makerLogger .debug ("Query factory ready (flavor=" ++ Keyword.word flavor ++ ", compact=" ++
        (← (Value.orElse session.defaults.compact (arguments.get "compact_params")).printed) ++ ")")) :=
    quiet_after fun _ => quiet_of_gives fun _ => gives_log _ _ _
  refine (allows_quiet (fun first => quiet first) fun _ _ _ good => good).bind fun after ahead'' _ _ => allows_newResult _ ⟨?_, ?_⟩
  · exact Value.everywhere_orElse (Value.everywhere_of_single free reached.defaults.1)
      (admits_later (accepts.get "compact_params") (ahead.trans (ahead'.trans ahead'')))
  · exact Value.everywhere_orElse (Value.everywhere_of_single free reached.defaults.2)
      (admits_later (accepts.get "deep_compare") (ahead.trans (ahead'.trans ahead'')))

theorem queryMakerMethods_permitted {defaults : Defaults} (under : (Object.queryMaker defaults).Under (custody.rules stage custody.mine)) :
    ∀ entry ∈ Session.queryMakerMethods defaults, custody.Permits stage entry.2 := by
  have good : (Session.settingsOf defaults).Under (custody.rules stage custody.mine) := settingsOf_under under
  simp only [Session.queryMakerMethods, List.forall_mem_cons]
  exact ⟨newSelect_permitted good, newInsert_permitted good, newUpdate_permitted good, newDelete_permitted good, newCompound_permitted good,
    newCte_permitted, newCtes_permitted, newChain_permitted, forall_nothing⟩

theorem tableMakerMethods_permitted (flavor : Flavor) : ∀ entry ∈ Session.tableMakerMethods flavor, custody.Permits stage entry.2 := by
  simp only [Session.tableMakerMethods, List.forall_mem_cons]
  exact ⟨⟨rfl, fun _ _ _ accepts => allows_newCreate flavor (accepts.get "name") accepts.rest⟩,
    ⟨rfl, fun _ _ _ accepts => allows_newAlter flavor (accepts.get "name")⟩,
    ⟨rfl, fun _ _ _ accepts => allows_newDrop flavor (accepts.get "name")⟩, ⟨rfl, fun _ _ _ accepts => allows_newColumn accepts⟩, forall_nothing⟩

end Makers

theorem creators_permitted : ∀ entry ∈ Session.creators, custody.Permits stage entry.2 := by
  simp only [Session.creators, List.forall_mem_cons]
  refine ⟨⟨rfl, fun _ _ _ _ => allows_newPredicate⟩, ⟨rfl, fun _ _ _ accepts => allows_predicateOf accepts⟩, newChain_permitted,
    ⟨rfl, fun _ _ _ accepts => allows_newBuiltQuery accepts⟩, newSelect_permitted standard_under, newCompound_permitted standard_under,
    newInsert_permitted standard_under, newUpdate_permitted standard_under, newDelete_permitted standard_under, newCte_permitted,
    newCtes_permitted, ⟨rfl, fun _ _ _ accepts => allows_newOrder accepts⟩, ⟨rfl, fun _ _ _ accepts => allows_newType accepts⟩,
    sizedType_permitted _, sizedType_permitted _, sizedType_permitted _, sizedType_permitted _, scaledType_permitted _, scaledType_permitted _,
    ⟨rfl, fun _ _ _ accepts => allows_newColumn accepts⟩, ⟨rfl, fun _ _ _ accepts => allows_newColumn accepts⟩, ?create,
    ⟨rfl, fun _ _ _ accepts => allows_newAlter _ (accepts.get "table")⟩, ⟨rfl, fun _ _ _ accepts => allows_newDrop _ (accepts.get "table")⟩,
    ⟨rfl, fun _ _ _ accepts => allows_newQueryMaker accepts⟩, ?table, forall_nothing⟩
  case create =>
    exact ⟨rfl, fun _ _ _ accepts => Keeps.after fun _ read =>
      allows_newCreate _ (accepts.get "table") (Value.everywhere_items free (accepts.get "columns") read)⟩
  case table =>
    exact ⟨rfl, fun _ _ _ _ => (allows_givenFlavor _).bind fun _ _ flavor _ => allows_newResult (.tableMaker flavor) trivial⟩

end Custody

end SqlCompose
