import Mathlib
import SqlCompose.Proofs.Custody
import SqlCompose.Session.Reading

/-!
# Reading arguments in custody

What a call is given may be held, and so may what is read off it: conditions, queries, columns and common table expressions. A query is read as a copy, of which nobody holds a part; so it does not matter whose it was.
-/

namespace SqlCompose

open Build

/-- The standard values of a signature can be bound, so there is nothing in them to be held. -/
def Signature.Standard (signature : Signature) : Prop :=
  ((signature.optional ++ signature.named).all fun entry => entry.2.fault?.isNone) = true

/-! ### Records -/

theorem Predicate.exists_record {value : Value} {predicate : Predicate} (read : ofValue? value = some predicate) :
    ∃ label text held, value = .record label .predicate [text, .tuple held predicate.values] := by
  unfold ofValue? at read
  split at read
  · obtain ⟨_, _, rfl⟩ := Option.map_eq_some_iff.mp read
    exact ⟨_, _, _, rfl⟩
  · cases read

theorem BuiltQuery.exists_record {value : Value} {query : BuiltQuery} (read : ofValue? value = some query) :
    ∃ label held, value = .record label .builtQuery [query.text, .tuple held query.values] := by
  unfold ofValue? at read
  split at read
  · cases read
    exact ⟨_, _, rfl⟩
  · cases read

namespace Custody

variable {custody : Custody} {stage : Stage} {hands : Label → Prop}

theorem predicate_under {value : Value} (all : value.Everywhere (custody.Admits stage)) {predicate : Predicate}
    (read : Predicate.ofValue? value = some predicate) : predicate.Under (custody.rules stage hands) := by
  obtain ⟨label, text, held, rfl⟩ := Predicate.exists_record read
  have values := (Value.everywhere_tuple.mp ((Value.everywhere_record.mp all).2 (.tuple held predicate.values) (by simp))).2
  exact fun value member => ⟨values value member,
    fun tracked => (all.self.predicate tracked label text held _ rfl value member).1,
    fun tracked => (all.self.predicate tracked label text held _ rfl value member).2⟩

theorem query_finishes {value : Value} (all : value.Everywhere (custody.Admits stage)) {query : BuiltQuery}
    (read : BuiltQuery.ofValue? value = some query) : custody.Finishes stage query := by
  obtain ⟨label, held, rfl⟩ := BuiltQuery.exists_record read
  have fields := (Value.everywhere_record.mp all).2
  exact ⟨⟨fields query.text (by simp), (Value.everywhere_tuple.mp (fields (.tuple held query.values) (by simp))).2⟩,
    fun tracked => ⟨label, all.self.query tracked label _ held _ rfl⟩⟩

theorem built_under {rules : Rules} {query : BuiltQuery} (finished : rules.finished query) : (Query.of (.built query)).Under rules :=
  .of ⟨by rintro _ ⟨⟩, forall_nothing, forall_nothing, forall_nothing, forall_nothing, forall_nothing, forall_nothing,
    forall_nothing, forall_nothing, fun _ same => by cases same; exact finished⟩ forall_nothing

theorem unbuildable_under {rules : Rules} : (Query.of .unbuildable).Under rules :=
  .of ⟨by rintro _ ⟨⟩, forall_nothing, forall_nothing, forall_nothing, forall_nothing, forall_nothing, forall_nothing,
    forall_nothing, forall_nothing, by rintro _ ⟨⟩⟩ forall_nothing

/-! ### What is taken over -/

/-- What a value refers to, and the record that it may be, are under the rules. Only copies are taken over, so it does not matter who holds a part. -/
structure Takes (custody : Custody) (stage : Stage) (value : Value) : Prop where
  object : custody.Allows stage (Act.object? value) fun after found => ∀ label object, found = some (label, object) →
    object.Under (custody.rules after custody.mine).lax
  record : ∀ label kind fields, value = .record label kind fields → kind = .predicate ∨ kind = .builtQuery → value.Everywhere (custody.Admits stage)

theorem takes_of_admits {value : Value} (all : value.Everywhere (custody.Admits stage)) : custody.Takes stage value :=
  ⟨(allows_object? all).imp fun _ _ _ good label object same => (good label object same).2.2.2.1.mono (Rules.implies_lax _),
    fun _ _ _ _ _ => all⟩

theorem Takes.later {stage' : Stage} {value : Value} (takes : custody.Takes stage value) (ahead : stage ≤ stage') : custody.Takes stage' value :=
  ⟨takes.object.mono ahead, fun label kind fields same read => admits_later (takes.record label kind fields same read) ahead⟩

/-! ### Conditions -/

theorem objectCondition_under {rules : Rules} {object : Object} (under : object.Under rules) : (Act.objectCondition object).Under rules := by
  cases object with
  | chain c => exact under
  | query q => exact under.1.mono (Rules.implies_lax _)
  | _ => trivial

theorem Takes.recordCondition_under {value : Value} (takes : custody.Takes stage value) :
    (Act.recordCondition value).Under (custody.rules stage hands) := by
  unfold Act.recordCondition
  split
  · next read =>
    obtain ⟨_, _, _, same⟩ := Predicate.exists_record read
    exact predicate_under (takes.record _ _ _ same (.inl rfl)) read
  · next read =>
    obtain ⟨_, _, same⟩ := BuiltQuery.exists_record read
    exact built_under (query_finishes (takes.record _ _ _ same (.inr rfl)) read)
  · split <;> trivial

/-- It does not matter to a condition who holds a part of it. -/
theorem condition_unhanded {rules : Rules} (condition : Condition) (under : condition.Under rules.lax) : condition.Under rules := by
  cases condition <;> exact under

theorem cte_unhanded {rules : Rules} {cte : Cte Query} (under : cte.UnderAll rules.lax) : cte.UnderAll rules :=
  ⟨⟨under.name, under.recursive⟩, under.query⟩

theorem Takes.condition {value : Value} (takes : custody.Takes stage value) :
    custody.Allows stage (Act.condition value) fun after condition => condition.Under (custody.rules after custody.mine) := by
  refine takes.object.bind fun between ahead found good => ?_
  cases found with
  | some found =>
    obtain ⟨label, object⟩ := found
    refine Keeps.pure fun _ further => ?_
    exact condition_unhanded _ (objectCondition_under ((good label object rfl).mono (rules_later further).lax))
  | none =>
    refine Keeps.pure fun _ further => ?_
    cases wording : Wording.ofValue? value with
    | some wording => trivial
    | none => exact (takes.later (ahead.trans further)).recordCondition_under

theorem allows_condition {value : Value} (all : value.Everywhere (custody.Admits stage)) :
    custody.Allows stage (Act.condition value) fun after condition => condition.Under (custody.rules after custody.mine) :=
  (takes_of_admits all).condition

theorem Takes.predicate {value : Value} (takes : custody.Takes stage value) (values : List Value) :
    custody.Allows stage (Act.predicate value values) fun after predicate => predicate.Under (custody.rules after custody.mine) := by
  refine takes.condition.bind fun between ahead condition good => ?_
  exact allows_grown Predicate.Under (fun weaker _ good => good.mono weaker) fun _ further =>
    Condition.gives_toPredicate free within le_rfl (good.mono (later_grown further)) values

theorem allows_predicate {value : Value} (all : value.Everywhere (custody.Admits stage)) (values : List Value) :
    custody.Allows stage (Act.predicate value values) fun after predicate => predicate.Under (custody.rules after custody.mine) :=
  (takes_of_admits all).predicate values

/-! ### Queries -/

theorem unfinished_detached {query : Query} (unfinished : ∀ built, query.statement ≠ .built built) (built : BuiltQuery) :
    query.detached.statement ≠ .built built := by
  obtain ⟨statement⟩ := query
  cases statement with
  | built given => exact absurd rfl (unfinished given)
  | _ => rintro ⟨⟨⟩, _⟩

theorem allows_copy {query : Query} (under : query.Under (custody.rules stage custody.mine).lax) :
    custody.Allows stage (Act.copy query) fun after copied => copied.Under (custody.rules after custody.mine).closed ∧
      ((∀ built, query.statement ≠ .built built) → ∀ built, copied.statement ≠ .built built) :=
  allows_get.bind fun _ ahead _ _ => Keeps.after fun _ _ => Keeps.pure fun _ further =>
    ⟨under.detached.mono (rules_later (ahead.trans further)).closed, unfinished_detached⟩

theorem Takes.query {value : Value} (takes : custody.Takes stage value) :
    custody.Allows stage (Act.query value) fun after query => query.Under (custody.rules after custody.mine).closed := by
  refine takes.object.bind fun between ahead found good => ?_
  cases found with
  | some found =>
    obtain ⟨label, object⟩ := found
    have under := good label object rfl
    cases object with
    | query q => exact (allows_copy under.1).imp fun _ _ _ copied => copied.1
    | queryMaker _ | tableMaker _ => exact Keeps.throw _
    | _ => exact Keeps.pure fun _ _ => unbuildable_under
  | none =>
    cases read : BuiltQuery.ofValue? value with
    | some query =>
      obtain ⟨_, _, same⟩ := BuiltQuery.exists_record read
      exact Keeps.pure fun _ further => built_under (query_finishes ((takes.later (ahead.trans further)).record _ _ _ same (.inr rfl)) read)
    | none => exact Keeps.throw _

theorem allows_query {value : Value} (all : value.Everywhere (custody.Admits stage)) :
    custody.Allows stage (Act.query value) fun after query => query.Under (custody.rules after custody.mine).closed :=
  (takes_of_admits all).query

theorem Takes.optionalQuery {value : Value} (takes : custody.Takes stage value) :
    custody.Allows stage (Act.optionalQuery value) fun after query => ∀ given ∈ query, given.Under (custody.rules after custody.mine).closed := by
  unfold Act.optionalQuery
  split
  · exact Keeps.pure fun _ _ => (by rintro _ ⟨⟩)
  · refine takes.query.bind fun _ _ query good => Keeps.pure fun _ further => ?_
    rintro _ ⟨⟩
    exact good.mono (rules_later further).closed

/-! ### Columns -/

theorem growing_admits : Growing fun after (values : List Value) => Value.AllEverywhere (custody.Admits after) values :=
  fun _ _ ahead _ all value member => admits_later (all value member) ahead

theorem allows_columns {values : List Value} (all : Value.AllEverywhere (custody.Admits stage) values) :
    custody.Allows stage (Act.columns values) fun after columns => Value.AllEverywhere (custody.Admits after) columns := by
  unfold Act.columns
  refine (Keeps.mapM (@growing_admits custody) fun value member => ?_).bind fun _ _ groups good => Keeps.pure fun _ further value member => ?_
  · refine (allows_object? (all value member)).bind fun between ahead found _ => ?_
    split
    · exact Keeps.pure fun _ further => List.forall_mem_singleton.mpr (admits_later (all value member) (ahead.trans further))
    · exact Keeps.lift fun items read _ further =>
        Value.everywhere_items free (admits_later (all value member) (ahead.trans further)) read
  obtain ⟨group, inside, there⟩ := List.mem_flatten.mp member
  exact admits_later (good group inside value there) further

/-! ### Common table expressions -/

section Ctes

private theorem not_ok_mem_textEntries {text : Text} {cte : Cte Query} : .ok cte ∉ Act.textEntries text := by
  unfold Act.textEntries
  split
  · exact List.not_mem_nil
  · exact fun member => absurd (List.mem_singleton.mp member) (by rintro ⟨⟩)

variable {objectAt : Label → Option Object} {holds : Value → Prop} {good : Cte Query → Prop}

mutual

/-- The expressions in a value are those that the objects in it are. -/
theorem cteEntries_good (known : ∀ label face, holds (.object label face) → ∀ cte, objectAt label = some (.cte cte) → good cte) :
    (value : Value) → value.Everywhere holds → ∀ cte, .ok cte ∈ Act.cteEntries objectAt value → good cte
  | .object label face, all, cte, member => by
    rw [Act.cteEntries] at member
    split at member
    · next given =>
      obtain rfl := Except.ok.inj (List.mem_singleton.mp member)
      exact known label face all.self _ given
    · cases List.mem_singleton.mp member
  | .list _ items, all, cte, member => cteEntriesOfAll_good known items (Value.everywhere_list.mp all).2 cte member
  | .tuple _ items, all, cte, member => cteEntriesOfAll_good known items (Value.everywhere_tuple.mp all).2 cte member
  | .record _ .builtQuery items, all, cte, member => cteEntriesOfAll_good known items (Value.everywhere_record.mp all).2 cte member
  | .record _ .rendered items, all, cte, member => cteEntriesOfAll_good known items (Value.everywhere_record.mp all).2 cte member
  | .dict _ entries, all, cte, member => cteEntriesOfKeys_good known entries (Value.everywhere_dict.mp all).2 cte member
  | .text _, _, _, member | .entry _, _, _, member => absurd member not_ok_mem_textEntries
  | .null, _, _, member | .bool _, _, _, member | .int _, _, _, member | .float _, _, _, member | .floatNaN _, _, _, member
  | .decimal _, _, _, member | .decimalNaN _ _, _, _, member | .bytes _, _, _, member | .byteArray _ _, _, _, member
  | .date _, _, _, member | .dateTime _, _, _, member | .time _, _, _, member | .duration _ _ _, _, _, member
  | .uuid _, _, _, member | .unbindable _ _, _, _, member | .record _ .predicate _, _, _, member
  | .record _ .orderBy _, _, _, member | .record _ .columnType _, _, _, member | .record _ .foreignKey _, _, _, member => by
    rw [Act.cteEntries] at member
    · split at member
      · exact absurd member List.not_mem_nil
      · exact absurd (List.mem_singleton.mp member) (by rintro ⟨⟩)
    all_goals (intros; contradiction)

theorem cteEntriesOfAll_good (known : ∀ label face, holds (.object label face) → ∀ cte, objectAt label = some (.cte cte) → good cte) :
    (items : List Value) → Value.AllEverywhere holds items → ∀ cte, .ok cte ∈ Act.cteEntriesOfAll objectAt items → good cte
  | [], _, _, member => by cases member
  | item :: items, all, cte, member => by
    rw [Value.AllEverywhere, List.forall_mem_cons] at all
    rw [Act.cteEntriesOfAll, List.mem_append] at member
    exact member.elim (cteEntries_good known item all.1 cte) (cteEntriesOfAll_good known items all.2 cte)

theorem cteEntriesOfKeys_good (known : ∀ label face, holds (.object label face) → ∀ cte, objectAt label = some (.cte cte) → good cte) :
    (entries : List (Value × Value)) → (∀ entry ∈ entries, entry.1.Everywhere holds ∧ entry.2.Everywhere holds) →
      ∀ cte, .ok cte ∈ Act.cteEntriesOfKeys objectAt entries → good cte
  | [], _, _, member => by cases member
  | (key, _) :: entries, all, cte, member => by
    rw [List.forall_mem_cons] at all
    rw [Act.cteEntriesOfKeys, List.mem_append] at member
    exact member.elim (cteEntries_good known key all.1.1 cte) (cteEntriesOfKeys_good known entries all.2 cte)

end

end Ctes

/-- The expressions that are found in some values, with failures between them. -/
def FoundCtes (custody : Custody) (stage : Stage) (found : List (Except Error (Cte Query))) : Prop :=
  ∀ entry ∈ found, ∀ cte, entry = .ok cte → cte.UnderAll (custody.rules stage custody.mine)

/-- The expressions in values whose objects are under the rules, wherever they have been made. -/
theorem ctesIn_found {holds : Value → Prop} {values : List Value} (all : Value.AllEverywhere holds values)
    (known : ∀ after, stage ≤ after → ∀ session, custody.Reached after session → ∀ label face, holds (.object label face) →
      ∀ object, session.object? label = some object → object.Under (custody.rules after custody.mine).lax) :
    custody.Allows stage (Act.ctesIn values) custody.FoundCtes := by
  refine allows_get.bind fun between ahead session reached => Keeps.pure fun after further => ?_
  rintro _ member cte rfl
  obtain ⟨value, inside, there⟩ := List.mem_flatMap.mp member
  have under := cteEntries_good (fun label face here _ found => known between ahead session reached label face here _ found) value (all value inside) cte there
  exact cte_unhanded (under.mono (rules_later further).lax)

theorem allows_ctesIn {values : List Value} (all : Value.AllEverywhere (custody.Admits stage) values) :
    custody.Allows stage (Act.ctesIn values) custody.FoundCtes :=
  ctesIn_found all fun _ _ _ reached label face admits _ found =>
    ((reached.object found).2.1 (admits.object label face rfl).1).mono (Rules.implies_lax _)

theorem allOf_under {found : List (Except Error (Cte Query))} (good : custody.FoundCtes stage found) {ctes : List (Cte Query)}
    (read : Act.allOf found = .ok ctes) : ∀ cte ∈ ctes, cte.UnderAll (custody.rules stage custody.mine) :=
  Outcome.forall_of_mapM read fun entry member cte same => good entry member cte same

theorem Takes.attachedCtes {value : Value} (takes : custody.Takes stage value)
    (found : custody.Allows stage (Act.ctesIn [value]) custody.FoundCtes) :
    custody.Allows stage (Act.attachedCtes value) fun after ctes =>
      ∀ cte ∈ ctes.getD [], cte.UnderAll (custody.rules after custody.mine) := by
  unfold Act.attachedCtes
  split
  · exact Keeps.pure fun _ _ => forall_nothing
  · refine takes.object.bind fun between ahead _ good => ?_
    split
    · next label ctes =>
      refine Keeps.pure fun _ further cte member => ?_
      exact cte_unhanded ((good label _ rfl cte member).mono (rules_later further).lax)
    · refine (found.mono ahead).bind fun _ _ found good => ?_
      exact Keeps.after fun ctes read => Keeps.pure fun _ further cte member =>
        (allOf_under good read cte member).mono (rules_later further)

theorem allows_attachedCtes {value : Value} (all : value.Everywhere (custody.Admits stage)) :
    custody.Allows stage (Act.attachedCtes value) fun after ctes =>
      ∀ cte ∈ ctes.getD [], cte.UnderAll (custody.rules after custody.mine) :=
  (takes_of_admits all).attachedCtes (allows_ctesIn (List.forall_mem_singleton.mpr all))

/-! ### Joins -/

theorem Takes.joinCondition {condition : Value} (takes : custody.Takes stage condition) (values : List Value) :
    custody.Allows stage (Act.joinCondition condition values) fun after given =>
      ∀ predicate ∈ given, predicate.Under (custody.rules after custody.mine) := by
  unfold Act.joinCondition
  split
  · exact Keeps.pure fun _ _ => (by rintro _ ⟨⟩)
  · refine (takes.predicate values).bind fun _ _ predicate good => Keeps.pure fun _ further => ?_
    rintro _ ⟨⟩
    exact good.mono (rules_later further)

/-! ### Arguments -/

/-- Everything that a call is given may be held. -/
structure Accepts (custody : Custody) (stage : Stage) (arguments : Arguments) : Prop where
  given : ∀ entry ∈ arguments.given, entry.2.Everywhere (custody.Admits stage)
  rest : Value.AllEverywhere (custody.Admits stage) arguments.rest

namespace Accepts

variable {arguments : Arguments} (accepts : custody.Accepts stage arguments)
include accepts

theorem get (name : Text) : (arguments.get name).Everywhere (custody.Admits stage) := by
  unfold Arguments.get
  cases found : arguments.given.lookup name with
  | none => exact Value.everywhere_null free
  | some value =>
    exact accepts.given _ (mem_of_lookup found)

theorem fields {raw : Bool} {fields : List Field} (read : arguments.fields raw = .ok fields) :
    ∀ field ∈ fields, field.value.Everywhere (custody.Admits stage) := by
  obtain ⟨values, given, rfl⟩ := Outcome.map_eq_ok.mp read
  exact List.forall_mem_map.mpr (Value.everywhere_asList free (accepts.get "fields") given)

theorem furtherFields (raw : Bool) : ∀ field ∈ arguments.furtherFields raw, field.value.Everywhere (custody.Admits stage) :=
  List.forall_mem_map.mpr accepts.rest

end Accepts

theorem accepts_of_bind {signature : Signature} (standard : signature.Standard) {values : List Value}
    (all : Value.AllEverywhere (custody.Admits stage) values) {named : List (Text × Value)}
    (allNamed : ∀ entry ∈ named, entry.2.Everywhere (custody.Admits stage)) {arguments : Arguments}
    (bound : signature.bind values named = .ok arguments) : custody.Accepts stage arguments := by
  unfold Signature.bind at bound
  dsimp only at bound
  split at bound
  · cases bound
    have standards : ∀ entry ∈ signature.optional ++ signature.named, entry.2.Everywhere (custody.Admits stage) := by
      intro entry member
      exact Value.everywhere_of_bindable free entry.2 (Option.isNone_iff_eq_none.mp (List.all_eq_true.mp standard entry member))
    refine ⟨?_, fun value member => all value (List.mem_of_mem_drop member)⟩
    rw [List.append_assoc]
    refine List.forall_mem_append.mpr ⟨List.forall_mem_append.mpr ⟨?_, allNamed⟩, standards⟩
    rintro ⟨name, value⟩ member
    exact all value (List.of_mem_zip member).2
  · cases bound

/-! ### Joins -/

section Joins

variable {arguments : Arguments} (condition : custody.Takes stage (arguments.get "on")) (name : (arguments.get "alias").Everywhere (custody.Admits stage))
include condition name

/-- A join with what it joins is under the rules. -/
abbrev JoinUnder (custody : Custody) (stage : Stage) (join : Join Query) : Prop :=
  join.Under (custody.rules stage custody.mine) ∧ ∀ query ∈ join.child?, query.Under (custody.rules stage custody.mine).closed

theorem allows_tableJoin (table : (arguments.get "table").Everywhere (custody.Admits stage)) :
    custody.Allows stage (Act.tableJoin arguments) custody.JoinUnder := by
  refine (condition.joinCondition arguments.rest).bind fun between ahead condition good => ?_
  refine Keeps.after fun kind _ => Keeps.pure fun after further => ⟨⟨?_, ?_⟩, by rintro _ ⟨⟩⟩
  · exact List.forall_mem_cons.mpr ⟨admits_later table (ahead.trans further),
      List.forall_mem_singleton.mpr (admits_later name (ahead.trans further))⟩
  · exact fun predicate member => (good predicate member).mono (rules_later further)

theorem allows_queryJoin (query : custody.Takes stage (arguments.get "query")) :
    custody.Allows stage (Act.queryJoin arguments) custody.JoinUnder := by
  refine (condition.joinCondition arguments.rest).bind fun between ahead condition good => Keeps.after fun kind _ => ?_
  refine (query.later ahead).query.bind fun between' ahead' query inside => ?_
  refine Keeps.pure fun after further => ⟨⟨?_, ?_⟩, ?_⟩
  · exact List.forall_mem_singleton.mpr (admits_later name (ahead.trans (ahead'.trans further)))
  · exact fun predicate member => (good predicate member).mono (rules_later (ahead'.trans further))
  · rintro _ ⟨⟩
    exact inside.mono (rules_later further).closed

end Joins

end Custody

end SqlCompose
