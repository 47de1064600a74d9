import Mathlib
import SqlCompose.Proofs.PartMethods
import SqlCompose.Proofs.RepeatedBuilds

/-!
# The order of configuration

A statement is configured part by part, and it does not matter in which order the parts come: calls that are the same for each part, taken by itself, leave queries that are built alike. The values of a condition are copied when it is linked, so they get their labels then. The labels have no part in building, since the values are copied once more.
-/

namespace SqlCompose

open Build
open Value (SameContent)

/-! ### Values with the same content -/

namespace Value

private theorem copyItems_content (next : Label) (items : List Value) : copyItems next (items.map content) = copyItems next items := by
  induction items generalizing next with
  | nil => rfl
  | cons item items ih => simp only [List.map_cons, copyItems, content, copyFrom_copyFrom, ih]

/-- Of values with the same content the same copies are made. -/
theorem SameContent.checkAll_eq {values values' : List Value} (same : SameContent values values') : checkAll values = checkAll values' := by
  have copies : copyAll values = copyAll values' := by
    have each (next : Label) : copyItems next values = copyItems next values' := by
      rw [← copyItems_content, same, copyItems_content]
    simp only [copyAll, each]
  rw [checkAll, checkAll, same.faults, copies]

end Value

theorem Predicate.make_eq (text : Wording) {values values' : List Value} (same : SameContent values values') :
    make text values = make text values' := by
  rw [make, make, same.checkAll_eq]

/-! ### Conditions -/

namespace Chain

/-- The same links up to the labels of their values. -/
def Repeats (left right : Chain) : Prop :=
  List.Forall₂ (fun link link' => link.1 = link'.1 ∧ link.2.Repeats link'.2) left.links right.links

variable {left right : Chain}

theorem Repeats.refl (chain : Chain) : chain.Repeats chain :=
  List.forall₂_same.mpr fun _ _ => ⟨rfl, rfl, .refl _⟩

theorem Repeats.append (repeats : left.Repeats right) (connective : Connective) {predicate predicate' : Predicate}
    (both : predicate.Repeats predicate') : (left.append connective predicate).Repeats (right.append connective predicate') :=
  List.rel_append repeats (.cons ⟨rfl, both⟩ .nil)

theorem Repeats.isEmpty_eq (repeats : left.Repeats right) : left.isEmpty = right.isEmpty := by
  obtain ⟨links⟩ := left
  obtain ⟨links'⟩ := right
  cases (repeats : List.Forall₂ _ links links') with
  | nil | cons => rfl

theorem Repeats.text_eq (repeats : left.Repeats right) (newLine : Bool) : left.text newLine = right.text newLine := by
  have later {links links' : List (Connective × Predicate)}
      (all : List.Forall₂ (fun link link' => link.1 = link'.1 ∧ link.2.Repeats link'.2) links links') :
      links.map laterLink = links'.map laterLink := by
    induction all with
    | nil => rfl
    | cons here _ ih => rw [List.map_cons, List.map_cons, ih, laterLink, laterLink, here.1, here.2.text]
  have texts : linkTexts left.links = linkTexts right.links := by
    obtain ⟨links⟩ := left
    obtain ⟨links'⟩ := right
    cases (repeats : List.Forall₂ _ links links') with
    | nil => rfl
    | cons here rest => rw [linkTexts, linkTexts, here.2.text, later rest]
  rw [text, text, texts]

theorem Repeats.values (repeats : left.Repeats right) : SameContent left.values right.values := by
  have bound {links links' : List (Connective × Predicate)}
      (all : List.Forall₂ (fun link link' => link.1 = link'.1 ∧ link.2.Repeats link'.2) links links') :
      SameContent (links.flatMap (·.2.values)) (links'.flatMap (·.2.values)) := by
    induction all with
    | nil => exact .refl _
    | cons here _ ih => exact here.2.values.append ih
  exact bound repeats

theorem Repeats.render_eq (repeats : left.Repeats right) (start : Int) (newLine : Bool) :
    left.render start newLine = right.render start newLine := by
  rw [render, render, repeats.isEmpty_eq, toPredicate, toPredicate, repeats.text_eq, Predicate.make_eq _ repeats.values]

theorem link_repeats (repeats : left.Repeats right) (connective : Value) (condition : Condition) (values : List Value) :
    Alike Repeats (left.link connective condition values) (right.link connective condition values) := by
  unfold link
  split
  · exact alike_pure repeats
  · exact .after _ fun connective => (condition.repeats_toPredicate values).bind fun _ _ both => alike_pure (repeats.append connective both)

end Chain

namespace Restriction

/-- The same conditions up to the labels of their values, whoever holds them. -/
inductive Repeats : Restriction → Restriction → Prop
  | chain {left right : Held Chain} (both : left.item.Repeats right.item) : Repeats (chain left) (chain right)
  | predicate (predicate : Predicate) : Repeats (.predicate predicate) (.predicate predicate)
  | unusable (value : Value) (copied : Bool) : Repeats (.unusable value copied) (.unusable value copied)

variable {left right : Restriction}

theorem Repeats.refl (restriction : Restriction) : restriction.Repeats restriction := by
  cases restriction with
  | chain held => exact .chain (.refl _)
  | predicate p => exact .predicate p
  | unusable value copied => exact .unusable value copied

theorem Repeats.isVacant_eq (repeats : left.Repeats right) : left.isVacant = right.isVacant := by
  cases repeats with
  | chain both => exact both.isEmpty_eq
  | predicate | unusable => rfl

theorem Repeats.conditions_eq (repeats : left.Repeats right) (keyword : Text) :
    Clause.conditions keyword left = Clause.conditions keyword right := by
  have rendered (start : Int) : left.render start = right.render start := by
    cases repeats with
    | chain both => exact both.render_eq start true
    | predicate | unusable => rfl
  funext start
  rw [Clause.conditions, Clause.conditions, rendered]

end Restriction

namespace Statement

theorem linkTo_repeats {left right : Restriction} (repeats : left.Repeats right) (connective : Connective) (condition : Condition)
    (values : List Value) : Alike Restriction.Repeats (linkTo connective condition values left) (linkTo connective condition values right) := by
  cases repeats with
  | chain both => exact (Chain.link_repeats both _ condition values).bind fun _ _ both => alike_pure (.chain both)
  | predicate | unusable => exact alike_throw _

theorem restrict_repeats {left right : Restriction} (repeats : left.Repeats right) (connective : Connective) (condition : Condition)
    (values : List Value) : Alike Restriction.Repeats (restrict connective condition values left) (restrict connective condition values right) := by
  cases condition with
  | chain chain =>
    simp only [restrict, repeats.isVacant_eq]
    split
    · exact alike_pure (.refl _)
    · exact linkTo_repeats repeats connective (.chain chain) values
  | _ => exact linkTo_repeats repeats connective _ values

/-! ### Statements up to the labels in their conditions -/

def Repeats : Statement Query → Statement Query → Prop
  | select l, select r =>
    l = { r with filter := l.filter, having := l.having } ∧ l.filter.Repeats r.filter ∧ l.having.Repeats r.having
  | compound l, compound r =>
    l = { r with filter := l.filter, having := l.having } ∧ l.filter.Repeats r.filter ∧ l.having.Repeats r.having
  | update l, update r => l = { r with filter := l.filter } ∧ l.filter.Repeats r.filter
  | delete l, delete r => l = { r with filter := l.filter } ∧ l.filter.Repeats r.filter
  | left, right => left = right

theorem Repeats.refl (statement : Statement Query) : statement.Repeats statement := by
  cases statement with
  | select | compound => exact ⟨rfl, .refl _, .refl _⟩
  | update | delete => exact ⟨rfl, .refl _⟩
  | built | insert | unbuildable => rfl

variable {left right left' right' : Statement Query}

theorem changeFilter_repeats {change : Restriction → Build Restriction}
    (alike : ∀ {filter filter'}, filter.Repeats filter' → Alike Restriction.Repeats (change filter) (change filter'))
    (repeats : left.Repeats right) (made : (changeFilter change left).Yields left') (made' : (changeFilter change right).Yields right') :
    left'.Repeats right' := by
  cases left with
  | built | insert | unbuildable => exact absurd made not_yields_throw
  | select l =>
    cases right with
    | select r =>
      obtain ⟨same, filter, having⟩ := repeats
      obtain ⟨restriction, first, done⟩ := Yields.bind made
      obtain ⟨restriction', first', done'⟩ := Yields.bind made'
      obtain rfl := yields_pure.mp done
      obtain rfl := yields_pure.mp done'
      exact ⟨congrArg (fun s : Select Query => { s with filter := restriction }) same, (alike filter).of_yields first first', having⟩
    | _ => cases repeats
  | compound l =>
    cases right with
    | compound r =>
      obtain ⟨same, filter, having⟩ := repeats
      obtain ⟨restriction, first, done⟩ := Yields.bind made
      obtain ⟨restriction', first', done'⟩ := Yields.bind made'
      obtain rfl := yields_pure.mp done
      obtain rfl := yields_pure.mp done'
      exact ⟨congrArg (fun s : Compound Query => { s with filter := restriction }) same, (alike filter).of_yields first first', having⟩
    | _ => cases repeats
  | update l =>
    cases right with
    | update r =>
      obtain ⟨same, filter⟩ := repeats
      obtain ⟨restriction, first, done⟩ := Yields.bind made
      obtain ⟨restriction', first', done'⟩ := Yields.bind made'
      obtain rfl := yields_pure.mp done
      obtain rfl := yields_pure.mp done'
      exact ⟨congrArg (fun s : Update Query => { s with filter := restriction }) same, (alike filter).of_yields first first'⟩
    | _ => cases repeats
  | delete l =>
    cases right with
    | delete r =>
      obtain ⟨same, filter⟩ := repeats
      obtain ⟨restriction, first, done⟩ := Yields.bind made
      obtain ⟨restriction', first', done'⟩ := Yields.bind made'
      obtain rfl := yields_pure.mp done
      obtain rfl := yields_pure.mp done'
      exact ⟨congrArg (fun s : Delete Query => { s with filter := restriction }) same, (alike filter).of_yields first first'⟩
    | _ => cases repeats

theorem changeHaving_repeats {change : Restriction → Build Restriction}
    (alike : ∀ {having having'}, having.Repeats having' → Alike Restriction.Repeats (change having) (change having'))
    (repeats : left.Repeats right) (made : (changeHaving change left).Yields left') (made' : (changeHaving change right).Yields right') :
    left'.Repeats right' := by
  cases left with
  | built | insert | update | delete | unbuildable => exact absurd made not_yields_throw
  | select l =>
    cases right with
    | select r =>
      obtain ⟨same, filter, having⟩ := repeats
      obtain ⟨restriction, first, done⟩ := Yields.bind made
      obtain ⟨restriction', first', done'⟩ := Yields.bind made'
      obtain rfl := yields_pure.mp done
      obtain rfl := yields_pure.mp done'
      exact ⟨congrArg (fun s : Select Query => { s with having := restriction }) same, filter, (alike having).of_yields first first'⟩
    | _ => cases repeats
  | compound l =>
    cases right with
    | compound r =>
      obtain ⟨same, filter, having⟩ := repeats
      obtain ⟨restriction, first, done⟩ := Yields.bind made
      obtain ⟨restriction', first', done'⟩ := Yields.bind made'
      obtain rfl := yields_pure.mp done
      obtain rfl := yields_pure.mp done'
      exact ⟨congrArg (fun s : Compound Query => { s with having := restriction }) same, filter, (alike having).of_yields first first'⟩
    | _ => cases repeats

/-- A change of the conditions does the same to statements that differ in labels there. -/
private theorem condition_repeats {edit : Edit} (conditions : edit.part? = some .filter ∨ edit.part? = some .having)
    (repeats : left.Repeats right) (made : (Edit.apply left edit).Yields left') (made' : (Edit.apply right edit).Yields right') :
    left'.Repeats right' := by
  cases edit with
  | «where» connective condition values =>
    exact changeFilter_repeats (fun both => restrict_repeats both connective condition values) repeats made made'
  | filter restriction => exact changeFilter_repeats (fun _ => alike_pure (.refl restriction)) repeats made made'
  | having condition values =>
    exact changeHaving_repeats (fun both => linkTo_repeats both .and condition values) repeats made made'
  | groupFilter restriction => exact changeHaving_repeats (fun _ => alike_pure (.refl restriction)) repeats made made'
  | _ => simp [Edit.part?] at conditions

private theorem apply_pure {edit : Edit} (filter : edit.part? ≠ some .filter) (having : edit.part? ≠ some .having)
    (statement : Statement Query) :
    (∃ after, Edit.apply statement edit = pure after) ∨ Edit.apply statement edit = throw .attributeMissing := by
  cases edit with
  | «where» | filter => exact absurd rfl filter
  | having | groupFilter => exact absurd rfl having
  | _ => cases statement <;> first | exact .inl ⟨_, rfl⟩ | exact .inr rfl

theorem Configured.repeats {part : Part} {edits : List Edit} (own : ∀ edit ∈ edits, edit.part? = some part)
    (run : Configured left edits left') (run' : Configured right edits right') (same : left.Repeats right)
    (equal : part = .filter ∨ part = .having ∨ left = right) : left'.Repeats right' ∧ (part = .filter ∨ part = .having ∨ left' = right') := by
  induction run generalizing right with
  | refl =>
    cases run' with
    | refl => exact ⟨same, equal⟩
  | @step before between after edit edits first rest ih =>
    cases run' with
    | step first' rest' =>
      obtain ⟨here, there⟩ := List.forall_mem_cons.mp own
      by_cases conditions : part = .filter ∨ part = .having
      · have next := condition_repeats (conditions.imp (· ▸ here) (· ▸ here)) same first first'
        exact ih there rest' next (conditions.elim .inl fun having => .inr (.inl having))
      · obtain ⟨filter, having⟩ := not_or.mp conditions
        obtain rfl := (equal.resolve_left filter).resolve_left having
        have neither : edit.part? ≠ some .filter ∧ edit.part? ≠ some .having := by simpa [here] using conditions
        obtain ⟨made, done⟩ | fails := apply_pure neither.1 neither.2 before
        · rw [done, yields_pure] at first first'
          obtain rfl := first
          obtain rfl := first'
          exact ih there rest' (.refl _) (.inr (.inr rfl))
        · rw [fails] at first
          exact absurd first not_yields_throw

/-! ### A statement from its parts -/

private theorem Settings.ext_only {left right : Settings} (all : ∀ part, left.only part = right.only part) : left = right := by
  have flavor : left.flavor = right.flavor := (congrArg Settings.flavor (all .flavor) :)
  have schemas : left.schemas = right.schemas := (congrArg Settings.schemas (all .schemas) :)
  have compact : left.compact = right.compact := (congrArg Settings.compact (all .compaction) :)
  have deep : left.deep = right.deep := (congrArg Settings.deep (all .compaction) :)
  cases left
  cases right
  simp_all

theorem repeats_of_only (all : ∀ part, (left.only part).Repeats (right.only part)) : left.Repeats right := by
  cases left with
  | built | unbuildable =>
    cases right with
    | built | unbuildable => exact all .target
    | _ => cases all .target
  | select l =>
    cases right with
    | select r =>
      have settings : l.settings = r.settings := Settings.ext_only fun part => (congrArg Select.settings (all part).1 :)
      refine ⟨?_, (all .filter).2.1, (all .having).2.2⟩
      have ctes : l.ctes = r.ctes := (congrArg Select.ctes (all .ctes).1 :)
      have table : l.table = r.table := (congrArg Select.table (all .target).1 :)
      have name : l.name = r.name := (congrArg Select.name (all .target).1 :)
      have fields : l.fields = r.fields := (congrArg Select.fields (all .fields).1 :)
      have distinct : l.distinct = r.distinct := (congrArg Select.distinct (all .distinct).1 :)
      have joins : l.joins = r.joins := (congrArg Select.joins (all .joins).1 :)
      have groups : l.groups = r.groups := (congrArg Select.groups (all .groups).1 :)
      have groupBySelected : l.groupBySelected = r.groupBySelected := (congrArg Select.groupBySelected (all .groupBySelected).1 :)
      have orders : l.orders = r.orders := (congrArg Select.orders (all .orders).1 :)
      have paging : l.paging = r.paging := (congrArg Select.paging (all .paging).1 :)
      rw [← settings, ← ctes, ← table, ← name, ← fields, ← distinct, ← joins, ← groups, ← groupBySelected, ← orders, ← paging]
    | _ => cases all .target
  | compound l =>
    cases right with
    | compound r =>
      have settings : l.settings = r.settings := Settings.ext_only fun part => (congrArg Compound.settings (all part).1 :)
      refine ⟨?_, (all .filter).2.1, (all .having).2.2⟩
      have ctes : l.ctes = r.ctes := (congrArg Compound.ctes (all .ctes).1 :)
      have name : l.name = r.name := (congrArg Compound.name (all .name).1 :)
      have members : l.members = r.members := (congrArg Compound.members (all .members).1 :)
      have fields : l.fields = r.fields := (congrArg Compound.fields (all .fields).1 :)
      have groups : l.groups = r.groups := (congrArg Compound.groups (all .groups).1 :)
      have orders : l.orders = r.orders := (congrArg Compound.orders (all .orders).1 :)
      have paging : l.paging = r.paging := (congrArg Compound.paging (all .paging).1 :)
      rw [← settings, ← ctes, ← name, ← members, ← fields, ← groups, ← orders, ← paging]
    | _ => cases all .target
  | insert l =>
    cases right with
    | insert r =>
      have own (part : Part) : l.only part = r.only part := insert.inj (all part)
      have settings : l.settings = r.settings := Settings.ext_only fun part => (congrArg Insert.settings (own part) :)
      have ctes : l.ctes = r.ctes := (congrArg Insert.ctes (own .ctes) :)
      have table : l.table = r.table := (congrArg Insert.table (own .target) :)
      have rows : l.rows = r.rows := (congrArg Insert.rows (own .content) :)
      have columns : l.columns = r.columns := (congrArg Insert.columns (own .source) :)
      have source : l.source = r.source := (congrArg Insert.source (own .source) :)
      have returning : l.returning = r.returning := (congrArg Insert.returning (own .returning) :)
      change insert l = insert r
      cases l
      cases r
      simp_all only
    | _ => cases all .target
  | update l =>
    cases right with
    | update r =>
      have settings : l.settings = r.settings := Settings.ext_only fun part => (congrArg Update.settings (all part).1 :)
      refine ⟨?_, (all .filter).2⟩
      have ctes : l.ctes = r.ctes := (congrArg Update.ctes (all .ctes).1 :)
      have table : l.table = r.table := (congrArg Update.table (all .target).1 :)
      have name : l.name = r.name := (congrArg Update.name (all .target).1 :)
      have assignments : l.assignments = r.assignments := (congrArg Update.assignments (all .content).1 :)
      have origin : l.origin = r.origin := (congrArg Update.origin (all .others).1 :)
      have joins : l.joins = r.joins := (congrArg Update.joins (all .joins).1 :)
      have returning : l.returning = r.returning := (congrArg Update.returning (all .returning).1 :)
      rw [← settings, ← ctes, ← table, ← name, ← assignments, ← origin, ← joins, ← returning]
    | _ => cases all .target
  | delete l =>
    cases right with
    | delete r =>
      have settings : l.settings = r.settings := Settings.ext_only fun part => (congrArg Delete.settings (all part).1 :)
      refine ⟨?_, (all .filter).2⟩
      have ctes : l.ctes = r.ctes := (congrArg Delete.ctes (all .ctes).1 :)
      have table : l.table = r.table := (congrArg Delete.table (all .target).1 :)
      have name : l.name = r.name := (congrArg Delete.name (all .target).1 :)
      have others : l.others = r.others := (congrArg Delete.others (all .others).1 :)
      have returning : l.returning = r.returning := (congrArg Delete.returning (all .returning).1 :)
      rw [← settings, ← ctes, ← table, ← name, ← others, ← returning]
    | _ => cases all .target

/-! ### Building -/

theorem Repeats.build_eq (repeats : left.Repeats right) (compact deep : Option Bool) :
    (Query.of left).build compact deep = (Query.of right).build compact deep := by
  cases left with
  | built | insert | unbuildable =>
    cases right with
    | built | insert | unbuildable => exact congrArg (fun s => (Query.of s).build compact deep) repeats
    | _ => cases repeats
  | select l =>
    cases right with
    | select r =>
      obtain ⟨same, filter, having⟩ := repeats
      change (l.map Query.toChild).build compact deep = (r.map Query.toChild).build compact deep
      rw [same]
      simp only [Select.build, Select.render, Select.map, filter.conditions_eq, having.conditions_eq]
      rfl
    | _ => cases repeats
  | compound l =>
    cases right with
    | compound r =>
      obtain ⟨same, filter, having⟩ := repeats
      change (l.map Query.toChild).build compact deep = (r.map Query.toChild).build compact deep
      rw [same]
      simp only [Compound.build, Compound.render, Compound.map, filter.conditions_eq, having.conditions_eq]
      rfl
    | _ => cases repeats
  | update l =>
    cases right with
    | update r =>
      obtain ⟨same, filter⟩ := repeats
      change (l.map Query.toChild).build compact deep = (r.map Query.toChild).build compact deep
      rw [same]
      simp only [Update.build, Update.render, Update.map, filter.conditions_eq]
      rfl
    | _ => cases repeats
  | delete l =>
    cases right with
    | delete r =>
      obtain ⟨same, filter⟩ := repeats
      change (l.map Query.toChild).build compact deep = (r.map Query.toChild).build compact deep
      rw [same]
      simp only [Delete.build, Delete.render, Delete.map, filter.conditions_eq]
      rfl
    | _ => cases repeats

/-! ### Calls -/

/-- A configuration call, as the changes it makes: all are of one part. A label names an object, so what a call has read from its arguments goes by the same labels wherever in the order the call is made. -/
structure Call where
  part : Part
  edits : List Edit
  own : ∀ edit ∈ edits, edit.part? = some part

namespace Call

/-- The changes of a part are those of the calls about it. -/
theorem filter_edits (calls : List Call) (part : Part) :
    (calls.flatMap Call.edits).filter (fun edit => edit.part? = some part) = (calls.filter (·.part = part)).flatMap Call.edits := by
  induction calls with
  | nil => rfl
  | cons call calls ih =>
    rw [List.flatMap_cons, List.filter_append, ih]
    by_cases same : call.part = part
    · rw [List.filter_cons_of_pos (by simpa using same), List.flatMap_cons,
        List.filter_eq_self.mpr fun edit member => by simpa [same] using call.own edit member]
    · rw [List.filter_cons_of_neg (by simpa using same),
        List.filter_eq_nil_iff.mpr fun edit member => by simpa [call.own edit member] using same, List.nil_append]

theorem proper (calls : List Call) : ∀ edit ∈ calls.flatMap Call.edits, edit.part? ≠ none := by
  intro edit member
  obtain ⟨call, _, inside⟩ := List.mem_flatMap.mp member
  rw [call.own edit inside]
  exact Option.some_ne_none _

theorem own_filter (calls : List Call) (part : Part) :
    ∀ edit ∈ (calls.filter (·.part = part)).flatMap Call.edits, edit.part? = some part := by
  intro edit member
  obtain ⟨call, listed, inside⟩ := List.mem_flatMap.mp member
  obtain ⟨_, about⟩ := List.mem_filter.mp listed
  rw [call.own edit inside, of_decide_eq_true about]

end Call

end Statement

open Statement (Configured Call)

private def conditioned : Call :=
  ⟨.filter, [.where .and (.text (.plain "a = ANY(?)")) [.list 7 [.int 1, .int 2]]], by decide⟩

private def targeted : Call :=
  ⟨.target, [.table (.text "t") .null], by decide⟩

private def limited : Call :=
  ⟨.paging, [.limit 3, .offset 4], by decide⟩

end SqlCompose
