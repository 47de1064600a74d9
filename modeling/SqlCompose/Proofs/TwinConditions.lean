import Mathlib
import SqlCompose.Proofs.ConditionForms
import SqlCompose.Proofs.FreshCopies
import SqlCompose.Proofs.TwinBuilding

/-!
# Conditions that differ in their values

Two conditions of one form, with values of their own, become twin predicates, and linked to twin chains they give twin chains. The text of a condition is fixed before a value is looked at: the number of values decides whether a predicate can be made at all, and what the values are plays no role beyond that.

Only what succeeds on both sides is compared.
-/

namespace SqlCompose

open Build

/-! ### Predicates -/

namespace Predicate

/-- Two predicates that are made with one text: its markers decide how many values each has. -/
theorem twin_of_make {text : Wording} {values values' : List Value} {left right : Predicate}
    (made : (make text values).Yields left) (made' : (make text values').Yields right) : left.Twin right := by
  obtain ⟨same, length, counted⟩ := of_make made
  obtain ⟨same', length', counted'⟩ := of_make made'
  exact ⟨same.trans same'.symm, by omega, (sound_of_make made).trans (sound_of_make made').symm⟩

theorem twin_of_combine {connective : Connective} {left right left' right' whole whole' : Predicate}
    (first : left.Twin left') (second : right.Twin right') (made : (combine connective left right).Yields whole)
    (made' : (combine connective left' right').Yields whole') : whole.Twin whole' := by
  unfold combine at made made'
  rw [first.text, second.text] at made
  exact twin_of_make made made'

end Predicate

/-! ### Queries as parts -/

/-- Queries that are twins as parts of other statements. -/
def Query.PartTwin (left right : Query) : Prop :=
  Child.Twin left.toChild right.toChild

/-- Queries over parts that are twins. -/
def Query.Twin (left right : Query) : Prop :=
  left.statement.Twin PartTwin right.statement

namespace Query

variable {left right : Query}

/-- With their parts as children, twins are twins over children. -/
theorem Twin.children (twin : left.Twin right) :
    (left.statement.map toChild).Twin Child.Twin (right.statement.map toChild) := by
  have parts : ∀ part part' : Query, part.PartTwin part' → Child.Twin part.toChild part'.toChild := fun _ _ both => both
  exact Statement.Twin.map parts twin

theorem Twin.part (twin : left.Twin right) : left.PartTwin right := by
  obtain ⟨statement⟩ := left
  obtain ⟨statement'⟩ := right
  unfold PartTwin toChild
  rw [fold_of, fold_of]
  exact twin.children.toChild

theorem Twin.build (twin : left.Twin right) (deep : Option Bool) :
    Alike BuiltQuery.Twin (left.build (some false) deep) (right.build (some false) deep) :=
  twin.children.build deep

private theorem detached_restriction {left right : Restriction} (twin : left.Twin right) : left.detached.Twin right.detached := by
  cases twin with
  | chain twin => exact .chain twin
  | predicate twin => exact .predicate twin
  | unusable value _ => exact .unusable value true

theorem Twin.detached (twin : left.Twin right) : left.detached.Twin right.detached := by
  obtain ⟨statement⟩ := left
  obtain ⟨statement'⟩ := right
  cases (twin : Statement.Twin PartTwin statement statement') with
  | built twin => exact .built twin
  | select twin =>
    exact .select { twin with filter := detached_restriction twin.filter, having := detached_restriction twin.having }
  | compound twin =>
    exact .compound { twin with filter := detached_restriction twin.filter, having := detached_restriction twin.having }
  | insert twin => exact .insert twin
  | update twin => exact .update { twin with filter := detached_restriction twin.filter }
  | delete twin => exact .delete { twin with filter := detached_restriction twin.filter }
  | unbuildable => exact .unbuildable

end Query

/-- The markers of a fragment take the place of numbers by its text and by how many values it has. -/
theorem Fragment.Twin.unbind {left right : Fragment} (twin : left.Twin right) : left.unbind = right.unbind := by
  simp only [Fragment.unbind, Fragment.misfit, twin.text, twin.length]

theorem BuiltQuery.Twin.toPredicate {left right : BuiltQuery} (twin : left.Twin right) {predicate predicate' : Predicate}
    (made : left.toPredicate.Yields predicate) (made' : right.toPredicate.Yields predicate') : predicate.Twin predicate' := by
  obtain ⟨fragment, read, made⟩ := made.bind
  obtain ⟨fragment', read', made'⟩ := made'.bind
  obtain ⟨text, unbound, made⟩ := made.bind
  obtain ⟨text', unbound', made'⟩ := made'.bind
  have both : fragment.Twin fragment' := (alike_lift twin.toFragment).of_yields read read'
  rw [both.unbind, yields_lift] at unbound
  rw [yields_lift] at unbound'
  obtain rfl := Except.ok.inj (unbound.symm.trans unbound')
  exact Predicate.twin_of_make made made'

/-! ### Conditions -/

/-- Conditions of one form. Those that become no predicate are left out. -/
inductive Condition.Twin : Condition → Condition → Prop
  | text (text : Wording) : Twin (.text text) (.text text)
  | predicate {left right : Predicate} (twin : left.Twin right) : Twin (.predicate left) (.predicate right)
  | chain {left right : Chain} (twin : left.Twin right) : Twin (.chain left) (.chain right)
  | query {left right : Query} (twin : left.Twin right) : Twin (.query left) (.query right)

theorem isEmpty_eq_of_length {values values' : List Value} (length : values.length = values'.length) :
    values.isEmpty = values'.isEmpty := by
  rw [Bool.eq_iff_iff, List.isEmpty_iff_length_eq_zero, List.isEmpty_iff_length_eq_zero, length]

namespace Condition

variable {left right : Condition} {values values' : List Value}

theorem Twin.toPredicate (twin : left.Twin right) {predicate predicate' : Predicate}
    (made : (left.toPredicate values).Yields predicate) (made' : (right.toPredicate values').Yields predicate') :
    predicate.Twin predicate' := by
  cases twin with
  | text text => exact Predicate.twin_of_make made made'
  | predicate twin =>
    rw [Condition.toPredicate] at made made'
    split at made
    · split at made'
      · rw [← yields_pure.mp made, ← yields_pure.mp made']
        exact twin
      · exact absurd made' not_yields_throw
    · exact absurd made not_yields_throw
  | chain twin =>
    obtain ⟨collapsed, first, made⟩ := made.bind
    obtain ⟨collapsed', first', made'⟩ := made'.bind
    split at made
    · split at made'
      · rw [← yields_pure.mp made, ← yields_pure.mp made']
        exact (twin.toPredicate true).of_yields first first'
      · exact absurd made' not_yields_throw
    · exact absurd made not_yields_throw
  | query twin =>
    obtain ⟨built, first, made⟩ := made.bind
    obtain ⟨built', first', made'⟩ := made'.bind
    exact ((twin.build none).of_yields first first').toPredicate made made'

theorem Twin.isVacant (twin : left.Twin right) (length : values.length = values'.length) :
    left.isVacant values = right.isVacant values' := by
  cases twin with
  | chain twin => rw [Condition.isVacant, Condition.isVacant, twin.isEmpty, isEmpty_eq_of_length length]
  | text _ | predicate _ | query _ => rfl

end Condition

/-! ### Chains -/

namespace Chain

variable {left right linked linked' : Chain} {condition condition' : Condition} {values values' : List Value}

theorem Twin.link (twin : left.Twin right) (connective : Value) (conditions : condition.Twin condition')
    (length : values.length = values'.length) (done : (left.link connective condition values).Yields linked)
    (done' : (right.link connective condition' values').Yields linked') : linked.Twin linked' := by
  unfold Chain.link at done done'
  rw [conditions.isVacant length] at done
  split at done
  · next vacant =>
    rw [if_pos vacant] at done'
    rw [← yields_pure.mp done, ← yields_pure.mp done']
    exact twin
  · next given =>
    rw [if_neg given] at done'
    obtain ⟨word, read, further⟩ := done.bind
    obtain ⟨word', read', further'⟩ := done'.bind
    obtain rfl := Except.ok.inj ((yields_lift.mp read).symm.trans (yields_lift.mp read'))
    obtain ⟨predicate, made, same⟩ := further.bind
    obtain ⟨predicate', made', same'⟩ := further'.bind
    rw [← yields_pure.mp same, ← yields_pure.mp same']
    exact List.rel_append twin (.cons ⟨rfl, conditions.toPredicate made made'⟩ .nil)

theorem twin_of_existence {negated : Bool} (conditions : condition.Twin condition') {predicate predicate' : Predicate}
    (made : (existence negated condition values).Yields predicate)
    (made' : (existence negated condition' values').Yields predicate') : predicate.Twin predicate' := by
  obtain ⟨inner, first, made⟩ := made.bind
  obtain ⟨inner', first', made'⟩ := made'.bind
  rw [(conditions.toPredicate first first').text] at made
  exact Predicate.twin_of_make made made'

/-- On twins, two changes of a chain give twins. -/
def Edit.Agree (edit edit' : Edit) : Prop :=
  ∀ left right, left.Twin right → ∀ changed, (edit.apply left).Yields changed →
    ∀ changed', (edit'.apply right).Yields changed' → changed.Twin changed'

namespace Edit

theorem agree_link (connective : Value) (conditions : condition.Twin condition') (length : values.length = values'.length) :
    Agree (.link connective condition values) (.link connective condition' values') :=
  fun _ _ twin _ done _ done' => twin.link connective conditions length done done'

theorem agree_existence (negated : Bool) (connective : Value) (conditions : condition.Twin condition') :
    Agree (.existence negated connective condition values) (.existence negated connective condition' values') := by
  intro left right twin changed done changed' done'
  obtain ⟨predicate, made, done⟩ := done.bind
  obtain ⟨predicate', made', done'⟩ := done'.bind
  exact twin.link connective (.predicate (twin_of_existence conditions made made')) rfl done done'

theorem agree_clear : Agree .clear .clear := by
  intro left right _ changed done changed' done'
  rw [← yields_pure.mp done, ← yields_pure.mp done']
  exact .nil

theorem agree_ofText (connective : Value) (text : Text) (values values' : List Value) (length : values.length = values'.length) :
    Agree (ofText connective text values) (ofText connective text values') :=
  agree_link connective (.text _) length

end Edit

/-! ### Forms of condition -/

/-- Forms on one column, with values of their own. -/
inductive Form.Twin : Form → Form → Prop
  | membership (negated : Bool) (column : Value) {values values' : List Value} (length : values.length = values'.length) :
      Twin (.membership negated column values) (.membership negated column values')
  | range (negated : Bool) (column low low' high high' : Value) :
      Twin (.range negated column low high) (.range negated column low' high')
  | absence (negated : Bool) (column : Value) : Twin (.absence negated column) (.absence negated column)
  | pattern (negated anyCase : Bool) (column shape shape' : Value) :
      Twin (.pattern negated anyCase column shape) (.pattern negated anyCase column shape')
  | containing (anyCase : Bool) (field query query' : Value) :
      Twin (.containing anyCase field query) (.containing anyCase field query')
  | matchingWords (field query query' configuration configuration' : Value) :
      Twin (.matchingWords field query configuration) (.matchingWords field query' configuration')
  | similar (field query query' threshold threshold' : Value) :
      Twin (.similar field query threshold) (.similar field query' threshold')

/-- The same words around a column, and the values behind them. -/
private theorem agree_of_printed {column connective : Value} {around : Text → Text} {edit edit' : Edit}
    (values values' : List Value) (length : values.length = values'.length)
    (written : (do return Edit.ofText connective (around (← column.printed)) values : Except Error Edit) = .ok edit)
    (written' : (do return Edit.ofText connective (around (← column.printed)) values' : Except Error Edit) = .ok edit') :
    edit.Agree edit' := by
  obtain ⟨name, printed, same⟩ := Outcome.bind_eq_ok.mp written
  obtain ⟨name', printed', same'⟩ := Outcome.bind_eq_ok.mp written'
  obtain rfl := Except.ok.inj (printed.symm.trans printed')
  rw [← Except.ok.inj same, ← Except.ok.inj same']
  exact Edit.agree_ofText connective _ values values' length

private theorem agree_of_pattern {negated anyCase : Bool} {column shape shape' connective : Value} {edit edit' : Edit}
    (written : Edit.pattern negated anyCase column shape connective = .ok edit)
    (written' : Edit.pattern negated anyCase column shape' connective = .ok edit') : edit.Agree edit' :=
  agree_of_printed [shape] [shape'] rfl written written'

private theorem agree_of_similar {field query query' threshold threshold' connective : Value} {edit edit' : Edit}
    (written : (Edit.similar field query threshold connective).Yields edit)
    (written' : (Edit.similar field query' threshold' connective).Yields edit') : edit.Agree edit' := by
  obtain ⟨name, printed, further⟩ := written.bind
  obtain ⟨name', printed', further'⟩ := written'.bind
  obtain rfl := Except.ok.inj ((yields_lift.mp printed).symm.trans (yields_lift.mp printed'))
  obtain ⟨both, linked, same⟩ := further.bind
  obtain ⟨both', linked', same'⟩ := further'.bind
  rw [← yields_pure.mp same, ← yields_pure.mp same']
  rw [Edit.applyAll, List.foldlM_cons] at linked linked'
  obtain ⟨single, first, linked⟩ := linked.bind
  obtain ⟨single', first', linked'⟩ := linked'.bind
  rw [List.foldlM_cons] at linked linked'
  obtain ⟨double, second, linked⟩ := linked.bind
  obtain ⟨double', second', linked'⟩ := linked'.bind
  rw [List.foldlM_nil, yields_pure] at linked linked'
  subst linked linked'
  have indexed : single.Twin single' :=
    Edit.agree_ofText _ _ [query] [query'] rfl {} {} .nil single first single' first'
  have above : double.Twin double' :=
    Edit.agree_ofText _ _ [query, threshold] [query', threshold'] rfl single single' indexed double second double' second'
  exact Edit.agree_link connective (.chain above) rfl

/-- The changes that forms with other values come to agree. -/
theorem Form.Twin.agree {form form' : Form} (twin : form.Twin form') {connective : Value} {edit edit' : Edit}
    (written : (form.edit connective).Yields edit) (written' : (form'.edit connective).Yields edit') : edit.Agree edit' := by
  cases twin with
  | @membership negated column values values' length =>
    have done := yields_lift.mp written
    have done' := yields_lift.mp written'
    have listed : values.map (fun _ : Value => ("?" : Text)) = values'.map (fun _ : Value => ("?" : Text)) := by
      rw [List.map_const', List.map_const', length]
    unfold Edit.membership at done done'
    rw [isEmpty_eq_of_length length] at done
    split at done
    · next none =>
      rw [if_pos none] at done'
      rw [← Except.ok.inj done, ← Except.ok.inj done']
      exact Edit.agree_ofText connective _ [] [] rfl
    · next some =>
      rw [if_neg some] at done'
      rw [listed] at done
      exact agree_of_printed values values' length done done'
  | range negated column low low' high high' =>
    exact agree_of_printed [low, high] [low', high'] rfl (yields_lift.mp written) (yields_lift.mp written')
  | absence negated column => exact agree_of_printed [] [] rfl (yields_lift.mp written) (yields_lift.mp written')
  | pattern negated anyCase column shape shape' => exact agree_of_pattern (yields_lift.mp written) (yields_lift.mp written')
  | containing anyCase field query query' =>
    obtain ⟨text, -, done⟩ := Outcome.bind_eq_ok.mp (yields_lift.mp written)
    obtain ⟨text', -, done'⟩ := Outcome.bind_eq_ok.mp (yields_lift.mp written')
    exact agree_of_pattern done done'
  | matchingWords field query query' configuration configuration' =>
    obtain ⟨words, -, further⟩ := Outcome.bind_eq_ok.mp (yields_lift.mp written)
    obtain ⟨words', -, further'⟩ := Outcome.bind_eq_ok.mp (yields_lift.mp written')
    obtain ⟨beginnings, -, done⟩ := Outcome.bind_eq_ok.mp further
    obtain ⟨beginnings', -, done'⟩ := Outcome.bind_eq_ok.mp further'
    exact agree_of_printed [configuration, configuration, .text (Text.join " & " beginnings)]
      [configuration', configuration', .text (Text.join " & " beginnings')] rfl done done'
  | similar field query query' threshold threshold' => exact agree_of_similar written written'

end Chain

end SqlCompose
