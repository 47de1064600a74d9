import Mathlib
import SqlCompose.Proofs.FreshCopies
import SqlCompose.Proofs.Merging
import SqlCompose.Proofs.Rules

/-!
# The values of what is built

What holds everywhere in the values that a statement may bind, and in the finished queries in it, holds everywhere in the values of what it builds; and these are copies, in containers of their own. Each clause gathers values from what it is made of, and `Statement.gives_build` puts the clauses of each kind together.
-/

namespace SqlCompose

open Build

/-- Rules under which something holds everywhere in all values that are bound and in all finished queries, and which ask no more of other values. -/
structure Rules.Within (rules : Rules) (holds : Value → Prop) : Prop where
  bound : ∀ value, rules.bound value → value.Everywhere holds
  other : ∀ value, value.Everywhere holds → rules.other value
  finished : ∀ query, rules.finished query → query.Sound holds

theorem Rules.Within.closed {rules : Rules} {holds : Value → Prop} (within : rules.Within holds) : rules.closed.Within holds :=
  ⟨within.bound, within.other, within.finished⟩

variable {holds : Value → Prop} {rules : Rules} {first : Label}

/-! ### Conditions -/

theorem Predicate.Under.everywhere {predicate : Predicate} (under : predicate.Under rules) (within : rules.Within holds) :
    Value.AllEverywhere holds predicate.values :=
  fun value member => within.bound value (under value member)

namespace Chain

theorem gives_toPredicate (chain : Chain) (newLine : Bool) :
    Gives first (chain.toPredicate newLine) fun next predicate => ∀ value ∈ predicate.values, value.Made first next :=
  Predicate.gives_make _ _

theorem gives_render (free : Value.OfHandles holds) (chain : Chain) (start : Int) (newLine : Bool) :
    Gives first (chain.render start newLine) fun _ numbered => Value.AllEverywhere holds numbered.values := by
  unfold render
  split
  · exact Keeps.pure fun _ _ => Value.allEverywhere_nil
  · refine (chain.gives_toPredicate newLine).bind fun _ _ predicate made => Keeps.lift fun numbered rendered _ _ value member => ?_
    obtain rfl := Predicate.eq_numbered_of_render rendered
    exact Value.everywhere_of_bindable free value (made value member).bindable

end Chain

theorem Restriction.gives_render (free : Value.OfHandles holds) (within : rules.Within holds) {restriction : Restriction}
    (under : restriction.Under rules) (start : Int) :
    Gives first (restriction.render start) fun _ numbered => Value.AllEverywhere holds numbered.values := by
  cases restriction with
  | chain held => exact held.item.gives_render free start true
  | predicate p =>
    refine Keeps.lift fun numbered rendered _ _ => ?_
    obtain rfl := Predicate.eq_numbered_of_render rendered
    exact Predicate.Under.everywhere under within
  | unusable _ _ => exact Keeps.throw _

/-! ### Finished queries as parts -/

theorem BuiltQuery.values_of_toFragment {query : BuiltQuery} {fragment : Fragment} (read : query.toFragment = .ok fragment) :
    fragment.values = query.values := by
  obtain ⟨_, _, rfl⟩ := Outcome.map_eq_ok.mp read
  rfl

namespace Fragment

theorem values_of_renumber {fragment : Fragment} {start : Int} {numbered : Numbered Wording}
    (done : fragment.renumber start = .ok numbered) : numbered.values = fragment.values := by
  obtain ⟨-, -, rfl⟩ := renumber_eq_ok.mp done
  rfl

theorem everywhere_of_mergeFrom {queries : List BuiltQuery} (sound : ∀ query ∈ queries, Value.AllEverywhere holds query.values)
    {start : Int} {merged : Merged} (done : mergeFrom BuiltQuery.toFragment start queries = .ok merged) :
    Value.AllEverywhere holds merged.values := by
  induction queries generalizing start merged with
  | nil =>
    cases done
    exact Value.allEverywhere_nil
  | cons query queries ih =>
    rw [List.forall_mem_cons] at sound
    obtain ⟨fragment, read, further⟩ := Outcome.bind_eq_ok.mp done
    obtain ⟨numbered, here, further⟩ := Outcome.bind_eq_ok.mp further
    obtain ⟨others, there, same⟩ := Outcome.bind_eq_ok.mp further
    rw [← Except.ok.inj same]
    refine List.forall_mem_append.mpr ⟨?_, ih sound.2 there⟩
    rw [values_of_renumber here, BuiltQuery.values_of_toFragment read]
    exact sound.1

end Fragment

/-! ### Clauses -/

namespace Clause

/-- From any start, the values of the clause are sound. -/
def Sound (holds : Value → Prop) (clause : Clause) : Prop :=
  ∀ (first : Label) (start : Int), Gives first (clause start) fun _ numbered =>
    ∀ some ∈ numbered, Value.AllEverywhere holds some.values

theorem sound_plain {text : Build Text} (quiet : Quiet text) : Sound holds (.plain text) :=
  fun first _ => (quiet first).bind fun _ _ _ _ => Keeps.pure fun _ _ some member => by
    obtain rfl := Option.some.inj member
    exact Value.allEverywhere_nil

theorem sound_optional {text : Build (Option Text)} (quiet : Quiet text) : Sound holds (.optional text) :=
  fun first _ => (quiet first).bind fun _ _ text _ => Keeps.pure fun _ _ some member => by
    obtain ⟨_, _, rfl⟩ := Option.map_eq_some_iff.mp member
    exact Value.allEverywhere_nil

theorem sound_conditions (free : Value.OfHandles holds) (within : rules.Within holds) (keyword : Text)
    {restriction : Restriction} (under : restriction.Under rules) : Sound holds (.conditions keyword restriction) := by
  intro first start
  refine (Restriction.gives_render free within under start).bind fun _ _ rendered sound => ?_
  split
  · exact Keeps.pure fun _ _ some member => by cases member
  · exact Keeps.pure fun _ _ some member => by
      obtain rfl := Option.some.inj member
      exact sound

theorem gives_sequence {clauses : List Clause} (sound : ∀ clause ∈ clauses, clause.Sound holds) (start : Int) :
    Gives first (sequence start clauses) fun _ result => Value.AllEverywhere holds result.2 := by
  induction clauses generalizing first start with
  | nil => exact Keeps.pure fun _ _ => Value.allEverywhere_nil
  | cons clause clauses ih =>
    rw [List.forall_mem_cons] at sound
    refine (sound.1 first start).bind fun between _ numbered here => ?_
    cases numbered with
    | none => exact ih sound.2 start
    | some numbered =>
      refine (ih sound.2 numbered.next).bind fun _ _ result there => Keeps.pure fun _ _ => ?_
      exact List.forall_mem_append.mpr ⟨here numbered rfl, there⟩

theorem gives_assemble {clauses : List Clause} (sound : ∀ clause ∈ clauses, clause.Sound holds) :
    Gives first (assemble clauses) fun _ fragment => Value.AllEverywhere holds fragment.values :=
  (gives_sequence sound 1).bind fun _ _ _ there => Keeps.pure fun _ _ => there

theorem sound_returning (flavor : Flavor) (fields : List Field) : Sound holds (.returning flavor fields) := by
  refine sound_optional ?_
  split
  · exact quiet_pure _
  · exact quiet_after fun _ => quiet_pure _

theorem sound_orderBy (flavor : Flavor) (orders : List OrderBy) : Sound holds (.orderBy flavor orders) := by
  refine sound_optional ?_
  split
  · exact quiet_pure _
  · exact quiet_after fun _ => quiet_pure _

end Clause

/-- A statement inside another builds a sound query. -/
def Child.Sound (holds : Value → Prop) (child : Child) : Prop :=
  ∀ first, Gives first child.build fun _ built => built.Sound holds

/-! ### Common table expressions and joins -/

namespace Cte

theorem gives_build (free : Value.OfHandles holds) {cte : Cte Child} (sound : ∀ child ∈ cte.query, child.Sound holds) :
    Gives first cte.build (BuiltQuery.Fresh holds first) := by
  refine (gives_require _ _ _).bind fun between ahead _ _ => ?_
  split
  · exact Keeps.after fun _ _ => gives_failFor _ _
  · next child given =>
    refine (sound child given between).bind fun _ ahead' built values => ?_
    refine Keeps.after fun _ _ => Keeps.after fun _ _ => ?_
    exact (BuiltQuery.gives_make free _ values.values).mono (ahead.trans ahead')

theorem gives_buildAll (free : Value.OfHandles holds) {ctes : List (Cte Child)}
    (sound : ∀ cte ∈ ctes, ∀ child ∈ cte.query, child.Sound holds) :
    Gives first (buildAll ctes) (BuiltQuery.Fresh holds first) := by
  unfold buildAll
  split
  · exact BuiltQuery.gives_make free _ Value.allEverywhere_nil
  · have each : ∀ cte ∈ ctes, Gives first cte.build fun _ built => Value.AllEverywhere holds built.values := fun cte member =>
      (gives_build free (sound cte member)).imp fun _ _ _ fresh => fresh.values.sound
    refine (Keeps.mapM (fun _ _ _ _ good => good) each).bind fun _ ahead built values => ?_
    refine Keeps.after fun merged done => (gives_log _ _ _).bind fun _ ahead' _ _ => ?_
    exact (BuiltQuery.gives_make free _ (Fragment.everywhere_of_mergeFrom values done)).mono (ahead.trans ahead')

end Cte

theorem Clause.sound_with (free : Value.OfHandles holds) {ctes : Option (List (Cte Child))}
    (sound : ∀ cte ∈ ctes.getD [], ∀ child ∈ cte.query, child.Sound holds) : Sound holds (.with ctes) := by
  intro first start
  unfold Clause.with
  split
  · exact Keeps.pure fun _ _ some member => by cases member
  · refine (Cte.gives_buildAll free sound).bind fun _ _ built fresh => Keeps.after fun _ _ => ?_
    dsimp only
    split
    · exact Keeps.pure fun _ _ some member => by cases member
    · exact Keeps.pure fun _ _ some member => by
        obtain rfl := Option.some.inj member
        exact fresh.values.sound

namespace Join

theorem gives_renderSource {flavor : Flavor} {source : JoinSource Child} {kind : JoinKind} {condition : Option Predicate}
    (sound : ∀ child ∈ (Join.mk kind source condition).child?, child.Sound holds) (start : Int) :
    Gives first (renderSource flavor source start) fun _ numbered => Value.AllEverywhere holds numbered.values := by
  cases source with
  | table reference name =>
    exact Keeps.after fun _ _ => Keeps.after fun _ _ => Keeps.pure fun _ _ => Value.allEverywhere_nil
  | subquery child name =>
    refine (sound child rfl first).bind fun _ _ built values => ?_
    refine Keeps.after fun fragment read => Keeps.after fun inner done => Keeps.after fun _ _ => Keeps.pure fun _ _ => ?_
    rw [Fragment.values_of_renumber done, BuiltQuery.values_of_toFragment read]
    exact values.values

theorem sound_render (within : rules.Within holds) {join : Join Child} (under : join.Under rules)
    (sound : ∀ child ∈ join.child?, child.Sound holds) (flavor : Flavor) : Clause.Sound holds (join.render flavor) := by
  obtain ⟨kind, source, condition⟩ := join
  intro first start
  refine (gives_renderSource sound start).bind fun _ _ numbered values => ?_
  dsimp only
  split
  · exact Keeps.pure fun _ _ some member => by
      obtain rfl := Option.some.inj member
      exact values
  · next predicate =>
    refine Keeps.after fun condition rendered => Keeps.pure fun _ _ some member => ?_
    obtain rfl := Option.some.inj member
    obtain rfl := Predicate.eq_numbered_of_render rendered
    exact List.forall_mem_append.mpr ⟨values, (under.condition predicate rfl).everywhere within⟩

end Join

/-! ### Finishing -/

namespace Compaction

private theorem kept_of_step {sameness : Sameness} {fragment : Fragment} {state state' : State} {old : Nat}
    (done : step sameness fragment state old = .ok state') (given : ∀ value ∈ state.kept, value ∈ fragment.values) :
    ∀ value ∈ state'.kept, value ∈ fragment.values := by
  unfold step at done
  split at done
  · cases done
    exact given
  · split at done
    · cases done
    · split at done
      · cases done
      · next value here =>
        obtain ⟨place, _, further⟩ := Outcome.bind_eq_ok.mp done
        cases place with
        | some place =>
          cases further
          exact given
        | none =>
          cases further
          exact List.forall_mem_append.mpr ⟨given, List.forall_mem_singleton.mpr (List.mem_of_getElem? here)⟩

theorem mem_of_compact {sameness : Sameness} {fragment result : Fragment} (done : fragment.compact sameness = .ok result) :
    ∀ value ∈ result.values, value ∈ fragment.values := by
  obtain ⟨indices, _, further⟩ := Outcome.bind_eq_ok.mp done
  obtain ⟨state, run, same⟩ := Outcome.bind_eq_ok.mp further
  cases same
  have all : ∀ (indices : List Nat) (start : State), (∀ value ∈ start.kept, value ∈ fragment.values) →
      indices.foldlM (step sameness fragment) start = .ok state → ∀ value ∈ state.kept, value ∈ fragment.values := by
    intro indices
    induction indices with
    | nil =>
      intro start given run
      cases run
      exact given
    | cons old rest ih =>
      intro start given run
      obtain ⟨next, here, further⟩ := Outcome.bind_eq_ok.mp run
      exact ih next (kept_of_step here given) further
  exact all indices {} (by simp) run

end Compaction

theorem Settings.gives_finish (free : Value.OfHandles holds) (settings : Settings) (kind : StatementKind)
    {render : Build Fragment}
    (rendered : Gives first render fun _ fragment => Value.AllEverywhere holds fragment.values) (compact deep : Option Bool) :
    Gives first (settings.finish kind render compact deep) (BuiltQuery.Fresh holds first) := by
  refine rendered.bind fun between ahead fragment sound => Keeps.after fun text _ => ?_
  have finished : ∀ final : Fragment, Value.AllEverywhere holds final.values → Gives between (do
      log Clause.queryLogger .debug
        ("Built " ++ Keyword.word kind ++ " query with " ++ Text.ofNat final.values.length ++ " parameter(s)")
      BuiltQuery.ofParts final.text.toValue final.values) (BuiltQuery.Fresh holds first) := by
    intro final sound
    have readable : final.text.toValue.Everywhere holds := by
      cases final.text <;> exact List.forall_mem_singleton.mpr (free.other rfl)
    exact (gives_log _ _ _).bind fun _ further _ _ =>
      (BuiltQuery.gives_ofParts free readable sound).mono (ahead.trans further)
  dsimp only
  split
  · exact Keeps.after fun final done => finished final fun value member => sound value (Compaction.mem_of_compact done value member)
  · exact finished _ sound

/-! ### Kinds of statement -/

section Kinds

variable (free : Value.OfHandles holds) (within : rules.Within holds)

namespace Statement

variable {statement : Statement Child} (sound : ∀ child ∈ statement.children, child.Sound holds)
include sound

private theorem ctes_sound : ∀ cte ∈ statement.ctes, ∀ child ∈ cte.query, child.Sound holds := fun cte member child inside =>
  sound child (List.mem_append_left _ (List.mem_append_left _ (List.mem_filterMap.mpr ⟨cte, member, inside⟩)))

private theorem joins_sound : ∀ join ∈ statement.joins, ∀ child ∈ join.child?, child.Sound holds := fun join member child inside =>
  sound child (List.mem_append_left _ (List.mem_append_right _ (List.mem_filterMap.mpr ⟨join, member, inside⟩)))

include within in
private theorem sound_joins (under : statement.Under rules) (flavor : Flavor) :
    ∀ clause ∈ statement.joins.map (Join.render flavor), clause.Sound holds :=
  List.forall_mem_map.mpr fun join member =>
    Join.sound_render within (under.joins join member) (joins_sound sound join member) flavor

end Statement

namespace Select

include free within in
theorem gives_build {select : Select Child} (under : (Statement.select select).Under rules)
    (sound : ∀ child ∈ (Statement.select select).children, child.Sound holds) (compact deep : Option Bool) :
    Gives first (select.build compact deep) (BuiltQuery.Fresh holds first) := by
  refine select.settings.gives_finish free _ ?_ compact deep
  refine (gives_require _ _ _).bind fun between _ _ _ => Clause.gives_assemble ?_
  have restricted : Clause.Sound holds (.conditions "WHERE" select.filter) ∧ Clause.Sound holds (.conditions "HAVING" select.having) :=
    ⟨Clause.sound_conditions free within _ (under.restrictions _ (by simp [Statement.restrictions])),
      Clause.sound_conditions free within _ (under.restrictions _ (by simp [Statement.restrictions]))⟩
  have named : Quiet select.fromClause := quiet_after fun _ => quiet_after fun _ => quiet_pure _
  have listed : Quiet select.selectClause := quiet_after fun _ => quiet_pure _
  have grouped : Quiet select.groupClause := quiet_after fun _ => quiet_pure _
  simp only [List.forall_mem_append, List.forall_mem_cons]
  exact ⟨⟨⟨Clause.sound_with free (Statement.ctes_sound sound), Clause.sound_plain listed, Clause.sound_plain named, forall_nothing⟩,
    Statement.sound_joins within sound under _⟩, restricted.1, Clause.sound_optional grouped, restricted.2,
    Clause.sound_orderBy _ _, Clause.sound_optional (quiet_after fun _ => quiet_pure _), forall_nothing⟩

end Select

namespace Compound

variable {compound : Compound Child} (sound : ∀ child ∈ (Statement.compound compound).children, child.Sound holds)
include sound

private theorem gives_renderMembers (start : Int) :
    Gives first (compound.renderMembers start) fun _ merged => Value.AllEverywhere holds merged.values := by
  have members : ∀ member ∈ compound.members, member.query.Sound holds := fun member inside =>
    sound member.query (List.mem_append_right _ (List.mem_map_of_mem inside))
  refine (gives_require _ _ _).bind fun between _ _ _ => ?_
  refine (Keeps.mapM (fun _ _ _ _ good => good) fun member inside => members member inside between).bind fun _ _ built good => ?_
  exact Keeps.lift fun merged done _ _ => Fragment.everywhere_of_mergeFrom (fun query member => (good query member).values) done

private theorem sound_tableClause : Clause.Sound holds compound.tableClause := fun first start =>
  (gives_renderMembers sound start).bind fun _ _ merged good => Keeps.after fun _ _ => Keeps.after fun _ _ =>
    Keeps.pure fun _ _ some member => by
      obtain rfl := Option.some.inj member
      exact good

include free within in
theorem gives_build (under : (Statement.compound compound).Under rules) (compact deep : Option Bool) :
    Gives first (compound.build compact deep) (BuiltQuery.Fresh holds first) := by
  refine compound.settings.gives_finish free _ ?_ compact deep
  refine (gives_require _ _ _).bind fun _ _ _ _ => (gives_require _ _ _).bind fun _ _ _ _ => Clause.gives_assemble ?_
  have restricted :
      Clause.Sound holds (.conditions "WHERE" compound.filter) ∧ Clause.Sound holds (.conditions "HAVING" compound.having) :=
    ⟨Clause.sound_conditions free within _ (under.restrictions _ (by simp [Statement.restrictions])),
      Clause.sound_conditions free within _ (under.restrictions _ (by simp [Statement.restrictions]))⟩
  have grouped : Quiet compound.groupClause := by
    unfold groupClause
    split
    · exact quiet_pure _
    · exact quiet_after fun _ => quiet_pure _
  simp only [List.forall_mem_append, List.forall_mem_cons, List.forall_mem_map]
  exact ⟨⟨Clause.sound_with free (Statement.ctes_sound sound), sound_tableClause sound, restricted.1,
    Clause.sound_optional grouped, restricted.2, Clause.sound_orderBy _ _, forall_nothing⟩,
    fun line _ => Clause.sound_plain (quiet_lift line)⟩

include free in
theorem gives_buildMembers : Gives first compound.buildMembers (BuiltQuery.Fresh holds first) := by
  refine (Clause.sound_with free (Statement.ctes_sound sound) first 1).bind fun _ ahead head good => ?_
  refine (gives_renderMembers sound _).bind fun _ ahead' merged values => ?_
  cases head with
  | none => exact Keeps.after fun text _ => (BuiltQuery.gives_make free text values).mono (ahead.trans ahead')
  | some head =>
    refine Keeps.after fun text _ => (BuiltQuery.gives_make free text ?_).mono (ahead.trans ahead')
    exact List.forall_mem_append.mpr ⟨good head rfl, values⟩

end Compound

namespace Insert

variable {insert : Insert Child} (under : (Statement.insert insert).Under rules)

include within under in
private theorem sound_rowClause : Clause.Sound holds insert.rowClause := fun _ _ =>
  Keeps.after fun _ _ => Keeps.after fun _ _ => Keeps.after fun _ _ => Keeps.pure fun _ _ some member => by
    obtain rfl := Option.some.inj member
    exact fun value inside => within.bound value (under.entries value inside)

private theorem sound_sourceClause {source : Child} (sound : source.Sound holds) : Clause.Sound holds (insert.sourceClause source) :=
  fun first _ => Keeps.after fun _ _ => Keeps.after fun _ _ => (sound first).bind fun _ _ built good =>
    Keeps.after fun fragment read => Keeps.after fun inner done => Keeps.pure fun _ _ some member => by
      obtain rfl := Option.some.inj member
      rw [Fragment.values_of_renumber done, BuiltQuery.values_of_toFragment read]
      exact good.values

include free within under in
theorem gives_build (sound : ∀ child ∈ (Statement.insert insert).children, child.Sound holds) (compact deep : Option Bool) :
    Gives first (insert.build compact deep) (BuiltQuery.Fresh holds first) := by
  refine insert.settings.gives_finish free _ ?_ compact deep
  refine (gives_require _ _ _).bind fun between _ _ _ => ?_
  have assembled : ∀ clause : Clause, clause.Sound holds → Gives between
      (Clause.assemble [.with insert.ctes, clause, .returning insert.settings.flavor insert.returning])
      fun _ fragment => Value.AllEverywhere holds fragment.values := by
    intro clause good
    refine Clause.gives_assemble ?_
    simp only [List.forall_mem_cons]
    exact ⟨Clause.sound_with free (Statement.ctes_sound sound), good, Clause.sound_returning _ _, forall_nothing⟩
  dsimp only
  split
  · exact (gives_failFor _ _).bind fun _ _ clause good => (assembled clause good).mono ‹_›
  · next source _ given =>
    exact assembled _ (sound_sourceClause (sound source (List.mem_append_right _ (by simp [given]))))
  · exact assembled _ (sound_rowClause within under)

end Insert

namespace Update

variable {update : Update Child} (under : (Statement.update update).Under rules)

private theorem values_of_assign {flavor : Flavor} {assignments : List (Value × Assigned)} {start : Int} {result : List Text × List Value}
    (done : assign flavor start assignments = .ok result) :
    result.2 = assignments.filterMap fun
      | (_, .value value) => some value
      | (_, .expression _) => none := by
  induction assignments generalizing start result with
  | nil =>
    cases done
    rfl
  | cons assignment rest ih =>
    obtain ⟨column, assigned⟩ := assignment
    obtain ⟨quoted, _, further⟩ := Outcome.bind_eq_ok.mp done
    cases assigned with
    | expression expression =>
      obtain ⟨_, _, further⟩ := Outcome.bind_eq_ok.mp further
      obtain ⟨others, there, same⟩ := Outcome.bind_eq_ok.mp further
      cases same
      change others.2 = _
      exact ih there
    | value value =>
      obtain ⟨_, -, further⟩ := Outcome.bind_eq_ok.mp further
      obtain ⟨others, there, same⟩ := Outcome.bind_eq_ok.mp further
      cases same
      exact congrArg (value :: ·) (ih there)

include within under in
private theorem sound_setClause : Clause.Sound holds update.setClause := fun _ _ =>
  Keeps.after fun result done => Keeps.pure fun _ _ some member => by
    obtain rfl := Option.some.inj member
    intro value inside
    refine within.bound value (under.entries value ?_)
    rwa [values_of_assign done] at inside

include free within under in
theorem gives_build (sound : ∀ child ∈ (Statement.update update).children, child.Sound holds) (compact deep : Option Bool) :
    Gives first (update.build compact deep) (BuiltQuery.Fresh holds first) := by
  refine update.settings.gives_finish free _ ?_ compact deep
  refine (gives_require _ _ _).bind fun _ _ _ _ => (gives_require _ _ _).bind fun _ _ _ _ =>
    (gives_require _ _ _).bind fun _ _ _ _ => Clause.gives_assemble ?_
  have restricted : Clause.Sound holds (.conditions "WHERE" update.filter) :=
    Clause.sound_conditions free within _ (under.restrictions _ (by simp [Statement.restrictions]))
  have target : Quiet update.targetClause := quiet_after fun _ => quiet_after fun _ => quiet_pure _
  have origin : Quiet update.fromClause := by
    unfold fromClause
    split
    · exact quiet_pure _
    · exact quiet_after fun _ => quiet_after fun _ => quiet_pure _
  simp only [List.forall_mem_append, List.forall_mem_cons]
  exact ⟨⟨⟨Clause.sound_with free (Statement.ctes_sound sound), Clause.sound_plain target, sound_setClause within under,
    Clause.sound_optional origin, forall_nothing⟩, Statement.sound_joins within sound under _⟩, restricted,
    Clause.sound_returning _ _, forall_nothing⟩

end Update

namespace Delete

variable {delete : Delete Child}

include free within in
theorem gives_build (under : (Statement.delete delete).Under rules)
    (sound : ∀ child ∈ (Statement.delete delete).children, child.Sound holds) (compact deep : Option Bool) :
    Gives first (delete.build compact deep) (BuiltQuery.Fresh holds first) := by
  refine delete.settings.gives_finish free _ ?_ compact deep
  refine (gives_require _ _ _).bind fun _ _ _ _ => Clause.gives_assemble ?_
  have restricted : Clause.Sound holds (.conditions "WHERE" delete.filter) :=
    Clause.sound_conditions free within _ (under.restrictions _ (by simp [Statement.restrictions]))
  have target : Quiet delete.targetClause := quiet_after fun _ => quiet_after fun _ => quiet_pure _
  have others : Quiet delete.othersClause := by
    unfold othersClause
    split
    · exact quiet_pure _
    · exact quiet_after fun _ => quiet_pure _
  simp only [List.forall_mem_cons]
  exact ⟨Clause.sound_with free (Statement.ctes_sound sound), Clause.sound_plain target, Clause.sound_optional others, restricted,
    Clause.sound_returning _ _, forall_nothing⟩

end Delete

include free within

/-- What a statement builds is over copies of its own, and sound if all that it is made of is. -/
theorem Statement.gives_build {statement : Statement Child} (under : statement.Under rules)
    (sound : ∀ child ∈ statement.children, child.Sound holds) (unfinished : ∀ query, statement ≠ .built query)
    (compact deep : Option Bool) : Gives first (statement.build compact deep) (BuiltQuery.Fresh holds first) := by
  cases statement with
  | built query => exact absurd rfl (unfinished query)
  | select s => exact Select.gives_build free within under sound compact deep
  | compound s => exact Compound.gives_build free within sound under compact deep
  | insert s => exact Insert.gives_build free within under sound compact deep
  | update s => exact Update.gives_build free within under sound compact deep
  | delete s => exact Delete.gives_build free within under sound compact deep
  | unbuildable => exact Keeps.throw _

theorem Statement.gives_buildPart {statement : Statement Child} (under : statement.Under rules)
    (sound : ∀ child ∈ statement.children, child.Sound holds) (compact deep : Option Bool) :
    Gives first (statement.build compact deep) fun _ built => built.Sound holds := by
  by_cases finished : ∃ query, statement = .built query
  · obtain ⟨query, rfl⟩ := finished
    exact Keeps.pure fun _ _ => within.finished query (under.leaf query rfl)
  · exact (gives_build free within under sound (fun query same => finished ⟨query, same⟩) compact deep).imp
      fun _ _ _ fresh => fresh.sound

namespace Query

theorem Under.sound {query : Query} (under : query.Under rules) : query.toChild.Sound holds := by
  induction under with
  | of own _ ih =>
    rw [toChild, fold_of]
    refine fun first => Statement.gives_buildPart free within (own.map _) ?_ _ _
    rw [Statement.children_map]
    exact List.forall_mem_map.mpr fun child member => ih child member within.closed

variable {query : Query} (under : query.Under rules)
include under

private theorem children_sound : ∀ child ∈ (query.statement.map toChild).children, child.Sound holds := by
  obtain ⟨own, parts⟩ := under
  rw [Statement.children_map]
  exact List.forall_mem_map.mpr fun child member => (parts child member).sound free within.closed

theorem gives_build (unfinished : ∀ built, query.statement ≠ .built built) (compact deep : Option Bool) :
    Gives first (query.build compact deep) (BuiltQuery.Fresh holds first) := by
  have parts := children_sound free within under
  obtain ⟨own, _⟩ := under
  refine Statement.gives_build free within (own.map _) parts (fun built same => ?_) compact deep
  rename_i statement _
  cases statement with
  | built given => exact unfinished given rfl
  | _ => cases same

theorem gives_buildPart (compact deep : Option Bool) :
    Gives first (query.build compact deep) fun _ built => built.Sound holds := by
  have parts := children_sound free within under
  obtain ⟨own, _⟩ := under
  exact Statement.gives_buildPart free within (own.map _) parts compact deep

end Query

end Kinds

end SqlCompose
