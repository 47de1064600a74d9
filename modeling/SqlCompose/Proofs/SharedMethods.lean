import Mathlib
import SqlCompose.Proofs.Lookup
import SqlCompose.Session.QueryMethods

/-!
# Shared methods

Statements of several kinds have changes in common. They are listed once, and each kind says which of them it has; so what a statement answers to under the name of such a change follows from the list, whatever the kind of the statement.
-/

namespace SqlCompose

theorem Methods.lookup_changing {E : Type} (make : E → Act Unit) (methods : Methods (Changes E)) (name : Text) :
    (methods.changing make).lookup name = (methods.lookup name).map fun method => ⟨method.signature, fun arguments => do
      (method.run arguments).makeAll make
      return .itself⟩ :=
  lookup_mapValues (fun method : Method (Changes E) => (⟨method.signature, fun arguments => do
    (method.run arguments).makeAll make
    return .itself⟩ : Method (Act Outcome))) name methods

namespace Session

private theorem lookup_sharedEdits_of_unlisted (statement : Statement Query) {name : Text}
    (unlisted : (settingEdits ++ (clauseEdits ++ writingEdits)).lookup name = none) : (sharedEdits statement).lookup name = none := by
  rw [List.lookup_append, Option.or_eq_none_iff] at unlisted
  rw [sharedEdits, List.lookup_append, lookup_filter (sharedNames statement).contains, unlisted.1, unlisted.2, ite_self]
  rfl

private theorem lookup_sharedEdits (statement : Statement Query) {name : Text} {changes : Method (Changes Statement.Edit)}
    (listed : (settingEdits ++ (clauseEdits ++ writingEdits)).lookup name = some changes) :
    (sharedEdits statement).lookup name = some changes ∨ (sharedEdits statement).lookup name = none := by
  rw [List.lookup_append] at listed
  rw [sharedEdits, List.lookup_append, lookup_filter (sharedNames statement).contains]
  cases setting : settingEdits.lookup name with
  | some _ =>
    rw [setting] at listed
    exact .inl listed
  | none =>
    rw [setting, Option.none_or] at listed
    rw [Option.none_or, listed]
    cases (sharedNames statement).contains name with
    | true => exact .inl rfl
    | false => exact .inr rfl

/-- The methods of a query besides the shared changes. -/
def unsharedMethods (label : Label) (query : Query) : Methods (Act Outcome) :=
  let common := queryResults query ++ populatingResults query.statement
  match query.statement with
  | .compound compound => compoundEdits.changing (editStatement label) ++ compoundResults compound ++ common
  | .select _ => selectResults query ++ common
  | _ => common

/-- The shared changes stand between the other methods. -/
private theorem queryMethods_eq (label : Label) (query : Query) : ∃ front back, unsharedMethods label query = front ++ back ∧
    queryMethods label query = front ++ ((sharedEdits query.statement).changing (editStatement label) ++ back) := by
  let back := queryResults query ++ populatingResults query.statement
  unfold unsharedMethods queryMethods
  cases kind : query.statement with
  | compound compound =>
    exact ⟨compoundEdits.changing (editStatement label) ++ compoundResults compound, back, by simp only [back, kind],
      by simp only [back, kind, List.append_assoc]⟩
  | select select => exact ⟨selectResults query, back, by simp only [back, kind], by simp only [back, kind, List.append_assoc]⟩
  | _ => exact ⟨[], back, by simp only [back, kind, List.nil_append], by simp only [back, kind, List.append_assoc, List.nil_append]⟩

/-- Under a name that no shared change has, a query answers to its other methods. -/
theorem lookup_unshared (label : Label) (query : Query) {name : Text}
    (unlisted : name ∉ (settingEdits ++ (clauseEdits ++ writingEdits)).map (·.1)) :
    (queryMethods label query).lookup name = (unsharedMethods label query).lookup name := by
  obtain ⟨front, back, unshared, all⟩ := queryMethods_eq label query
  rw [unshared, all, List.lookup_append, List.lookup_append, List.lookup_append, Methods.lookup_changing,
    lookup_sharedEdits_of_unlisted query.statement (lookup_eq_none unlisted)]
  rfl

/-- The names of the methods that are no shared changes. -/
def unsharedNames : List Text :=
  compoundEdits.map (·.1) ++
    (["raw_union", "union", "union_all", "build", "build_explain", "clone", "use_statement", "use_having_statement"] : List Text)

private theorem unsharedMethods_named (label : Label) (query : Query) : (unsharedMethods label query).map (·.1) ⊆ unsharedNames := by
  have common : (["build", "build_explain", "clone", "use_statement", "use_having_statement"] : List Text) ⊆ unsharedNames := by decide
  obtain ⟨statement⟩ := query
  cases statement with
  | compound compound =>
    have own : compoundEdits.map (·.1) ++ (["raw_union"] : List Text) ⊆ unsharedNames := by decide
    exact List.append_subset.mpr ⟨own, common⟩
  | select select =>
    have own : (["union", "union_all"] : List Text) ⊆ unsharedNames := by decide
    exact List.append_subset.mpr ⟨own, common⟩
  | update update | delete delete => exact fun _ member => common (List.take_subset 4 _ member)
  | _ => exact fun _ member => common (List.take_subset 3 _ member)

/-- A query answers to the shared change that is listed under a name, or to nothing. -/
theorem lookup_shared (label : Label) (query : Query) {name : Text} {changes : Method (Changes Statement.Edit)}
    (listed : (settingEdits ++ (clauseEdits ++ writingEdits)).lookup name = some changes) (shared : name ∉ unsharedNames) :
    (queryMethods label query).lookup name = some ⟨changes.signature, fun arguments => do
      (changes.run arguments).makeAll (editStatement label)
      return .itself⟩ ∨ (queryMethods label query).lookup name = none := by
  obtain ⟨front, back, unshared, all⟩ := queryMethods_eq label query
  have none : (front ++ back).lookup name = none := by
    rw [← unshared]
    exact lookup_eq_none fun member => shared (unsharedMethods_named label query member)
  rw [List.lookup_append, Option.or_eq_none_iff] at none
  rw [all, List.lookup_append, List.lookup_append, none.1, none.2, Methods.lookup_changing]
  obtain found | missing := lookup_sharedEdits query.statement listed
  · exact .inl (by rw [found]; rfl)
  · exact .inr (by rw [missing]; rfl)

end Session

end SqlCompose
