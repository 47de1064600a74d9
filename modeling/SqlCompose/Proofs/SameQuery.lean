import Mathlib
import SqlCompose.Proofs.StatementParts
import SqlCompose.Proofs.TwinBuilding

/-!
# One query, built twice

A query is its own twin, so the text that it is built to does not depend on the trace: neither on the labels that have been given out before nor on what has been logged. Built with compaction it is built from the same text as without.
-/

namespace SqlCompose

open Build

/-! ### Parts -/

theorem Predicate.Twin.refl (predicate : Predicate) : predicate.Twin predicate :=
  ⟨rfl, rfl, rfl⟩

theorem Restriction.Twin.refl (restriction : Restriction) : restriction.Twin restriction := by
  cases restriction with
  | chain held => exact .chain (List.forall₂_same.mpr fun link _ => ⟨rfl, .refl link.2⟩)
  | predicate predicate => exact .predicate (.refl predicate)
  | unusable value copied => exact .unusable value copied

namespace Statement

variable {Q : Type} {related : Q → Q → Prop}

private theorem option_refl {part : Option Q} (parts : ∀ query ∈ part, related query query) : Option.Rel related part part := by
  cases part with
  | none => exact .none
  | some query => exact .some (parts query rfl)

private theorem ctes_refl {ctes : Option (List (Cte Q))} (parts : ∀ part ∈ (ctes.getD []).filterMap (·.query), related part part) :
    Option.Rel (List.Forall₂ (Cte.Twin related)) ctes ctes := by
  cases ctes with
  | none => exact .none
  | some ctes =>
    refine .some (List.forall₂_same.mpr fun cte member => ⟨rfl, option_refl fun query given => ?_, rfl⟩)
    exact parts query (List.mem_filterMap.mpr ⟨cte, member, given⟩)

private theorem joins_refl {joins : List (Join Q)} (parts : ∀ part ∈ joins.filterMap Join.child?, related part part) :
    List.Forall₂ (Join.Twin related) joins joins := by
  refine List.forall₂_same.mpr fun join member => ⟨rfl, ?_, ?_⟩
  · obtain ⟨kind, source, condition⟩ := join
    cases source with
    | table reference name => exact .table reference name
    | subquery query name => exact .subquery (parts query (List.mem_filterMap.mpr ⟨_, member, rfl⟩)) name
  · cases join.condition with
    | none => exact .none
    | some predicate => exact .some (.refl predicate)

/-- A statement whose parts are related to themselves is its own twin. -/
theorem Twin.refl (statement : Statement Q) (parts : ∀ part ∈ statement.children, related part part) :
    statement.Twin related statement := by
  obtain ⟨either, own⟩ := List.forall_mem_append.mp parts
  obtain ⟨inCtes, inJoins⟩ := List.forall_mem_append.mp either
  cases statement with
  | built query => exact .built ⟨rfl, rfl⟩
  | select s =>
    exact .select ⟨rfl, ctes_refl inCtes, rfl, rfl, rfl, rfl, joins_refl inJoins, .refl _, rfl, rfl, .refl _, rfl, rfl⟩
  | compound s =>
    refine .compound ⟨rfl, ctes_refl inCtes, rfl, ?_, rfl, .refl _, rfl, .refl _, rfl, rfl⟩
    exact List.forall₂_same.mpr fun member inside => ⟨own _ (List.mem_map_of_mem inside), rfl⟩
  | insert s =>
    exact .insert ⟨rfl, ctes_refl inCtes, rfl, rfl, rfl, option_refl fun query given => own query (Option.mem_toList.mpr given), rfl⟩
  | update s =>
    refine .update ⟨rfl, ctes_refl inCtes, rfl, rfl, ?_, rfl, joins_refl inJoins, .refl _, rfl⟩
    refine List.forall₂_same.mpr fun assignment _ => ⟨rfl, ?_⟩
    cases assignment.2 with
    | value value => exact .value value value
    | expression expression => exact .expression expression
  | delete s => exact .delete ⟨rfl, ctes_refl inCtes, rfl, rfl, rfl, .refl _, rfl⟩
  | unbuildable => exact .unbuildable

end Statement

namespace Query

theorem twin_toChild (query : Query) : Child.Twin query.toChild query.toChild := by
  induction query using Query.induct with
  | step statement parts =>
    rw [toChild, fold_of]
    refine (Statement.Twin.refl _ ?_).toChild
    rw [Statement.children_map]
    exact List.forall_mem_map.mpr parts

/-- Without compaction a query is built to one text, from whatever trace. -/
theorem alike_build (query : Query) (deep : Option Bool) :
    Alike BuiltQuery.Twin (query.build (some false) deep) (query.build (some false) deep) := by
  refine Statement.Twin.build (Statement.Twin.refl _ ?_) deep
  rw [Statement.children_map]
  exact List.forall_mem_map.mpr fun part _ => part.twin_toChild

end Query

/-! ### With compaction and without -/

/-- A text that is another one, or what compaction makes of it. -/
def CompactedFrom (text plain : Text) : Prop :=
  text = plain ∨ ∃ sameness values compacted,
    Fragment.compact sameness ⟨.plain plain, values⟩ = .ok compacted ∧ compacted.text = .plain text

namespace Settings

variable {settings : Settings} {kind : StatementKind} {render : Build Fragment}

private theorem finish_uncompacted {fragment : Fragment} (rendered : render.Yields fragment) {plain : Text}
    (substituted : Identifier.substituteSchemas settings.schemas fragment.text.content = .ok plain) :
    ∃ base, (settings.finish kind render (some false) none).Yields base ∧ base.text = .text plain := by
  unfold finish
  refine rendered.andThen fun trace => ?_
  rw [substituted]
  exact ⟨_, _, rfl, rfl⟩

/-- A statement that is finished in some way can also be finished without compaction. -/
theorem uncompacted {compact deep : Option Bool} {built : BuiltQuery} (done : (settings.finish kind render compact deep).Yields built) :
    ∃ base text plain, (settings.finish kind render (some false) none).Yields base ∧ built.text = .text text ∧
      base.text = .text plain ∧ CompactedFrom text plain := by
  obtain ⟨fragment, rendered, further⟩ := done.bind
  obtain ⟨plain, substituted, further⟩ := further.bind
  obtain ⟨base, finished, isText⟩ := finish_uncompacted rendered (yields_lift.mp substituted)
  have written (final : Fragment) (last : Yields (do
      log Clause.queryLogger .debug
        ("Built " ++ Keyword.word kind ++ " query with " ++ Text.ofNat final.values.length ++ " parameter(s)")
      BuiltQuery.ofParts final.text.toValue final.values) built) : built.text = final.text.toValue := by
    obtain ⟨_, -, made⟩ := last.bind
    exact (BuiltQuery.of_ofParts made).1
  simp only at further
  split at further
  · obtain ⟨compacted, compaction, last⟩ := further.bind
    have compaction := yields_lift.mp compaction
    obtain ⟨indices, -, given⟩ := Outcome.bind_eq_ok.mp compaction
    obtain ⟨state, -, same⟩ := Outcome.bind_eq_ok.mp given
    obtain rfl := Except.ok.inj same
    exact ⟨base, _, plain, finished, written _ last, isText, .inr ⟨_, _, _, compaction, rfl⟩⟩
  · obtain ⟨final, same, last⟩ := further.bind
    obtain rfl := yields_pure.mp same
    exact ⟨base, plain, plain, finished, written _ last, isText, .inl rfl⟩

end Settings

/-- However a query is built, its text is that of the query built without compaction, or what compaction makes of it. -/
theorem Query.compactedFrom_of_build {query : Query} {compact deep : Option Bool} {built base : BuiltQuery}
    (done : (query.build compact deep).Yields built) (plainly : (query.build (some false) none).Yields base) {text : Text}
    (isText : built.text = .text text) : ∃ plain, base.text = .text plain ∧ CompactedFrom text plain := by
  have finished {settings : Settings} {kind : StatementKind} {render : Build Fragment}
      (done : (settings.finish kind render compact deep).Yields built)
      (same : ∀ other, (settings.finish kind render (some false) none).Yields other → other.text = base.text) :
      ∃ plain, base.text = .text plain ∧ CompactedFrom text plain := by
    obtain ⟨other, text', plain, found, shown, isPlain, from'⟩ := Settings.uncompacted done
    obtain rfl := Value.text.inj (isText.symm.trans shown)
    exact ⟨plain, (same other found).symm.trans isPlain, from'⟩
  have one : ∀ other, (query.build (some false) none).Yields other → other.text = base.text := fun other found =>
    ((query.alike_build none).of_yields found plainly).text
  obtain ⟨statement⟩ := query
  cases statement with
  | built given =>
    obtain rfl := yields_pure.mp done
    obtain rfl := yields_pure.mp plainly
    exact ⟨text, isText, .inl rfl⟩
  | select s | compound s | insert s | update s | delete s => exact finished done one
  | unbuildable => exact absurd done not_yields_throw

end SqlCompose
