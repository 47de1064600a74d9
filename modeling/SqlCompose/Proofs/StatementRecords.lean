import Mathlib
import SqlCompose.Proofs.BuildRecords
import SqlCompose.Proofs.Merging

/-!
# Records of statements

Clause by clause, a statement builds the passages inside it; clauses without statements in them are wordless. From the clauses follow the kinds of statement, and by induction over queries every build: `Passage.logs_build`.
-/

namespace SqlCompose

open Outcome Build

namespace Passage

variable {logger : Text} {passages : List Passage}

/-! ### Clauses -/

/-- The clause builds the passages, from whatever number on. -/
abbrev ClauseNarrates (logger : Text) (passages : List Passage) (clause : Clause) : Prop :=
  ∀ start, Narrates logger passages (clause start)

/-- The clauses in order build the passages. -/
def ClausesNarrate (logger : Text) (passages : List Passage) (clauses : List Clause) : Prop :=
  ∀ start, Narrates logger passages (Clause.sequence start clauses)

theorem clausesNarrate_nil : ClausesNarrate logger [] [] :=
  fun _ => narrates_of_wordless (wordless_pure _)

theorem ClauseNarrates.cons {clause : Clause} {further : List Passage} {rest : List Clause}
    (narrates : ClauseNarrates logger passages clause) (others : ClausesNarrate logger further rest) :
    ClausesNarrate logger (passages ++ further) (clause :: rest) := by
  intro start
  rw [Clause.sequence]
  refine (narrates start).bind fun given => ?_
  cases given with
  | none => exact others start
  | some first => exact (others first.next).andThen fun _ => wordless_pure _

/-- A clause without statements in it, in front of other clauses. -/
theorem ClauseNarrates.skip {clause : Clause} {rest : List Clause} (narrates : ClauseNarrates logger [] clause)
    (others : ClausesNarrate logger passages rest) : ClausesNarrate logger passages (clause :: rest) :=
  narrates.cons others

/-- The clauses of a list, one for each of its items, in front of other clauses. -/
theorem clausesNarrate_map {β : Type} {clause : β → Clause} {inside : β → List Passage} {items : List β} {rest : List Clause}
    (each : ∀ item ∈ items, ClauseNarrates logger (inside item) (clause item)) (others : ClausesNarrate logger passages rest) :
    ClausesNarrate logger (items.flatMap inside ++ passages) (items.map clause ++ rest) := by
  induction items with
  | nil => exact others
  | cons item items ih =>
    rw [List.forall_mem_cons] at each
    rw [List.flatMap_cons, List.append_assoc]
    exact each.1.cons (ih each.2)

theorem ClausesNarrate.assemble {clauses : List Clause} (narrate : ClausesNarrate logger passages clauses) :
    Narrates logger passages (Clause.assemble clauses) :=
  (narrate 1).andThen fun _ => wordless_pure _

theorem narrates_plain {text : Build Text} (wordless : text.Wordless) : ClauseNarrates logger [] (.plain text) :=
  fun _ => narrates_of_wordless (wordless.bind fun _ => wordless_pure _)

theorem narrates_optional {text : Build (Option Text)} (wordless : text.Wordless) : ClauseNarrates logger [] (.optional text) :=
  fun _ => narrates_of_wordless (wordless.bind fun _ => wordless_pure _)

theorem narrates_conditions (keyword : Text) (restriction : Restriction) :
    ClauseNarrates logger [] (.conditions keyword restriction) := by
  intro start
  refine narrates_of_wordless ((wordless_restriction restriction start).bind fun rendered => ?_)
  split
  · exact wordless_pure _
  · exact wordless_pure _

theorem narrates_returning (flavor : Flavor) (fields : List Field) : ClauseNarrates logger [] (.returning flavor fields) := by
  refine narrates_optional ?_
  split
  · exact wordless_pure _
  · exact (wordless_lift (Field.ordinary_renderAll flavor fields)).bind fun _ => wordless_pure _

theorem narrates_orderBy (flavor : Flavor) (orders : List OrderBy) : ClauseNarrates logger [] (.orderBy flavor orders) := by
  refine narrates_optional ?_
  split
  · exact wordless_pure _
  · exact (wordless_lift (OrderBy.ordinary_renderAll flavor orders)).bind fun _ => wordless_pure _

/-- A table and what it is called, read one after the other. -/
private theorem wordless_reference {α : Type} (flavor : Flavor) (between : Text) (table name : Value) (written : Text → Text → α) :
    Wordless (do
      let quoted ← (liftM (Identifier.quoteTableValue flavor table) : Build Text)
      let called ← (liftM (behind between name) : Build Text)
      return written quoted called) :=
  (wordless_lift (Identifier.ordinary_quoteTableValue flavor table)).bind fun _ =>
    (wordless_lift (ordinary_behind between name)).bind fun _ => wordless_pure _

theorem narrates_join {flavor : Flavor} {join : Join Query} (inside : ∀ query ∈ join.child?, (inner query).Tells) :
    ClauseNarrates logger (ofJoin join) (Join.render flavor (join.map Query.toChild)) := by
  intro start
  have source : Narrates logger (ofJoin join) (Join.renderSource flavor (join.map Query.toChild).source start) := by
    obtain ⟨kind, source, condition⟩ := join
    cases source with
    | table reference name =>
      exact narrates_of_wordless (wordless_reference flavor " " reference name _)
    | subquery query name =>
      have told : (inner query).Tells := inside query rfl
      refine Narrates.andThen (?_ : Narrates logger [inner query] query.toChild.build) fun built => ?_
      · rw [Query.build_toChild]
        exact told.narrates
      · refine (wordless_lift built.ordinary_toFragment).bind fun fragment => ?_
        refine (wordless_lift (fragment.ordinary_renumber start)).bind fun _ => ?_
        exact (wordless_lift name.ordinary_printed).bind fun _ => wordless_pure _
  refine source.andThen fun given => ?_
  dsimp only
  split
  · exact wordless_pure _
  · exact (wordless_renderPredicate _ _).bind fun _ => wordless_pure _

/-! ### Common table expressions -/

theorem tells_cte {cte : Cte Query} (inside : ∀ query ∈ cte.query, (inner query).Tells) : (Passage.cte cte).Tells := by
  obtain ⟨name, query, recursive⟩ := cte
  refine Completes.tells (completes_after (narrates_require name.truthy _) fun _ _ => ?_)
  cases query with
  | none =>
    refine completes_lift name.ordinary_printed fun text _ trace => ?_
    exact ⟨[⟨Cte.logger, .error, (Omission.cteQuery text).message⟩], rfl, .fails⟩
  | some query =>
    change Completes _ ([inner query] ++ []) (query.toChild.build >>= _)
    refine Narrates.completes ?_ fun built _ => ?_
    · rw [Query.build_toChild]
      exact (inside query rfl).narrates
    · refine completes_lift name.ordinary_printed fun text _ => ?_
      refine completes_lift built.text.ordinary_printed fun inner _ trace => ?_
      exact ⟨[], rfl, [], .done, rfl⟩

theorem tells_ctes {ctes : List (Cte Query)} (inside : ∀ cte ∈ ctes, (Passage.cte cte).Tells) : (Passage.ctes ctes).Tells := by
  refine Completes.tells ?_
  cases ctes with
  | nil => exact fun trace => ⟨[], rfl, [], .done, rfl⟩
  | cons cte ctes =>
    have each : Narrates Cte.logger (Passage.ctes (cte :: ctes)).parts (((cte :: ctes).map (Cte.map Query.toChild)).mapM Cte.build) := by
      rw [List.mapM_map, parts, List.map_eq_flatMap]
      exact narrates_mapM fun cte member => (inside cte member).narrates
    rw [← List.append_nil (Passage.ctes (cte :: ctes)).parts]
    refine Narrates.completes each fun built given => ?_
    refine completes_lift (Fragment.ordinary_mergeFrom BuiltQuery.ordinary_toFragment 1 built) fun merged done => ?_
    have many : merged.texts.length = (cte :: ctes).length := by
      rw [Fragment.length_of_mergeFrom done, ← given.mapM.length_eq, List.length_map]
    refine completes_announced _ merged.values _ fun result length => ?_
    rw [announcement, length, many]
    rfl

theorem narrates_with {ctes : Option (List (Cte Query))} (inside : ∀ cte ∈ ctes.getD [], ∀ query ∈ cte.query, (inner query).Tells) :
    ClauseNarrates logger (ofWith ctes) (.with (ctes.map (·.map (Cte.map Query.toChild)))) := by
  intro start
  cases ctes with
  | none => exact narrates_of_wordless (wordless_pure _)
  | some ctes =>
    have set : (Passage.ctes ctes).Tells := tells_ctes fun cte member => tells_cte (inside cte member)
    refine Narrates.andThen set.narrates fun built => ?_
    refine (wordless_lift built.ordinary_wording).bind fun wording => ?_
    dsimp only
    split
    · exact wordless_pure _
    · exact wordless_pure _

/-! ### Statements -/

section Statements

variable {compact deep : Option Bool}

/-- A statement that is rendered from its passages is finished without further ones, and announced. -/
theorem completes_finish {statement : Statement Query} {kind : StatementKind} (isKind : statement.kind? = some kind)
    (settings : Settings) {render : Build Fragment} (narrates : Narrates Clause.queryLogger passages render) :
    Completes (.query (.of statement) compact deep) passages (settings.finish kind render compact deep) := by
  rw [← List.append_nil passages]
  refine Narrates.completes narrates fun fragment _ => ?_
  refine completes_lift (Identifier.ordinary_substituteSchemas settings.schemas _) fun text _ => ?_
  have announced : ∀ final : Fragment, Completes (.query (.of statement) compact deep) [] (do
      log Clause.queryLogger .debug
        ("Built " ++ Keyword.word kind ++ " query with " ++ Text.ofNat final.values.length ++ " parameter(s)")
      BuiltQuery.ofParts final.text.toValue final.values) := by
    intro final
    refine completes_announced _ final.values _ fun result length => ?_
    rw [announcement, Query.statement, isKind, length]
    rfl
  dsimp only
  split
  · exact completes_lift (Fragment.ordinary_compact _ _) fun final _ => announced final
  · exact announced _

/-- Every statement inside, as a passage, logs what it should. -/
def InsideTell (statement : Statement Query) : Prop :=
  ∀ query ∈ statement.children, (inner query).Tells

namespace InsideTell

variable {statement : Statement Query}

theorem cte (tell : InsideTell statement) : ∀ cte ∈ statement.ctes, ∀ query ∈ cte.query, (inner query).Tells :=
  fun cte member query given => tell query
    (List.mem_append_left _ (List.mem_append_left _ (List.mem_filterMap.mpr ⟨cte, member, given⟩)))

theorem join (tell : InsideTell statement) : ∀ join ∈ statement.joins, ∀ query ∈ join.child?, (inner query).Tells :=
  fun join member query given => tell query
    (List.mem_append_left _ (List.mem_append_right _ (List.mem_filterMap.mpr ⟨join, member, given⟩)))

/-- The joins of a statement, in front of clauses without statements in them. -/
private theorem joins (tell : InsideTell statement) (flavor : Flavor) {rest : List Clause} (others : ClausesNarrate logger [] rest) :
    ClausesNarrate logger (statement.joins.flatMap ofJoin)
      ((statement.joins.map (Join.map Query.toChild)).map (Join.render flavor) ++ rest) := by
  rw [List.map_map, ← List.append_nil (statement.joins.flatMap ofJoin)]
  exact clausesNarrate_map (fun join member => narrates_join (tell.join join member)) others

theorem select {s : Select Query} (tell : InsideTell (.select s)) : (Passage.query (.of (.select s)) compact deep).Tells := by
  have tail : ClausesNarrate Clause.queryLogger [] [.conditions "WHERE" s.filter, .optional s.groupClause,
      .conditions "HAVING" s.having, .orderBy s.settings.flavor s.orders, .optional (Select.pagingClause s.paging)] := by
    refine (narrates_conditions _ _).skip (ClauseNarrates.skip (narrates_optional ?_) ((narrates_conditions _ _).skip
      ((narrates_orderBy _ _).skip ((narrates_optional ?_).skip clausesNarrate_nil))))
    · exact (wordless_lift s.ordinary_grouping).bind fun _ => wordless_pure _
    · exact (wordless_lift s.paging.ordinary_lines).bind fun _ => wordless_pure _
  refine Completes.tells (completes_finish rfl s.settings ?_)
  refine Narrates.before (narrates_require s.table.truthy _) fun _ => ClausesNarrate.assemble ?_
  refine (narrates_with tell.cte).cons ?_
  refine ClauseNarrates.skip (narrates_plain ?_) (ClauseNarrates.skip (narrates_plain ?_) (tell.joins s.settings.flavor tail))
  · exact (wordless_lift (Select.ordinary_selected _)).bind fun _ => wordless_pure _
  · exact wordless_reference _ _ _ _ _

theorem update {s : Update Query} (tell : InsideTell (.update s)) : (Passage.query (.of (.update s)) compact deep).Tells := by
  have tail : ClausesNarrate Clause.queryLogger [] [.conditions "WHERE" s.filter, .returning s.settings.flavor s.returning] :=
    (narrates_conditions _ _).skip ((narrates_returning _ _).skip clausesNarrate_nil)
  refine Completes.tells (completes_finish rfl s.settings ?_)
  refine Narrates.before (narrates_require s.table.truthy _) fun _ => ?_
  refine Narrates.before (narrates_require _ _) fun _ => ?_
  refine Narrates.before (narrates_require _ _) fun _ => ClausesNarrate.assemble ?_
  refine (narrates_with tell.cte).cons ?_
  refine ClauseNarrates.skip (narrates_plain ?_) (ClauseNarrates.skip ?_ (ClauseNarrates.skip (narrates_optional ?_)
    (tell.joins s.settings.flavor tail)))
  · exact wordless_reference _ _ _ _ _
  · intro start
    exact narrates_of_wordless ((wordless_lift (Update.ordinary_assign _ start _)).bind fun _ => wordless_pure _)
  · unfold Update.fromClause
    split
    · exact wordless_pure _
    · exact wordless_reference _ _ _ _ _

theorem delete {s : Delete Query} (tell : InsideTell (.delete s)) : (Passage.query (.of (.delete s)) compact deep).Tells := by
  refine Completes.tells (completes_finish rfl s.settings ?_)
  refine Narrates.before (narrates_require s.table.truthy _) fun _ => ClausesNarrate.assemble ?_
  change ClausesNarrate _ (ofWith s.ctes) _
  rw [← List.append_nil (ofWith s.ctes)]
  refine (narrates_with tell.cte).cons ?_
  refine ClauseNarrates.skip (narrates_plain ?_) (ClauseNarrates.skip (narrates_optional ?_)
    ((narrates_conditions _ _).skip ((narrates_returning _ _).skip clausesNarrate_nil)))
  · exact wordless_reference _ _ _ _ _
  · unfold Delete.othersClause
    split
    · exact wordless_pure _
    · exact (wordless_lift (Delete.ordinary_usedTables _)).bind fun _ => wordless_pure _

theorem compound {s : Compound Query} (tell : InsideTell (.compound s)) :
    (Passage.query (.of (.compound s)) compact deep).Tells := by
  have member : ∀ member ∈ s.members, (inner member.query).Tells := fun member given => tell member.query
    (List.mem_append_right _ (List.mem_map_of_mem given))
  have members : ∀ start, Narrates Clause.queryLogger (s.members.map fun member => inner member.query)
      ((s.map Query.toChild).renderMembers start) := by
    intro start
    refine Narrates.before (narrates_require _ _) fun _ => Narrates.andThen ?_ fun built =>
      wordless_lift (Fragment.ordinary_mergeFrom BuiltQuery.ordinary_toFragment start built)
    change Narrates _ _ ((s.members.map _).mapM _)
    rw [List.mapM_map, List.map_eq_flatMap]
    refine narrates_mapM fun one given => ?_
    change Narrates _ _ one.query.toChild.build
    rw [Query.build_toChild]
    exact (member one given).narrates
  have table : ClauseNarrates Clause.queryLogger (s.members.map fun member => inner member.query)
      (s.map Query.toChild).tableClause := by
    intro start
    refine (members start).andThen fun merged => ?_
    refine (wordless_lift (Compound.ordinary_opening _)).bind fun _ => ?_
    exact (wordless_lift (Value.ordinary_printed _)).bind fun _ => wordless_pure _
  have tail : ClausesNarrate Clause.queryLogger [] ([.conditions "WHERE" s.filter, .optional s.groupClause,
      .conditions "HAVING" s.having, .orderBy s.settings.flavor s.orders] ++
        s.paging.render.map fun line => .plain (liftM line)) := by
    refine (narrates_conditions _ _).skip (ClauseNarrates.skip (narrates_optional ?_) ((narrates_conditions _ _).skip
      ((narrates_orderBy _ _).skip ?_)))
    · unfold Compound.groupClause
      split
      · exact wordless_pure _
      · exact (wordless_lift (Identifier.ordinary_quoteColumns _ _)).bind fun _ => wordless_pure _
    · have each : ∀ line ∈ s.paging.render, Ordinary line := fun line member => (Paging.written_of_mem_render member).ordinary
      generalize s.paging.render = lines at each
      induction lines with
      | nil => exact clausesNarrate_nil
      | cons line lines ih =>
        obtain ⟨here, there⟩ := List.forall_mem_cons.mp each
        exact (narrates_plain (wordless_lift here)).skip (ih there)
  refine Completes.tells (completes_finish rfl s.settings ?_)
  refine Narrates.before (narrates_require _ _) fun _ => ?_
  refine Narrates.before (narrates_require _ _) fun _ => ClausesNarrate.assemble ?_
  refine (narrates_with tell.cte).cons ?_
  rw [← List.append_nil (List.map _ _)]
  exact table.cons tail

/-- What an INSERT writes between the clause in front and the columns that it returns. -/
private theorem insertion {s : Insert Query} (tell : InsideTell (.insert s)) {body : Clause}
    (narrates : ClauseNarrates Clause.queryLogger passages body) :
    Narrates Clause.queryLogger (ofWith s.ctes ++ passages) (Clause.assemble
      [.with (s.map Query.toChild).ctes, body, .returning s.settings.flavor s.returning]) := by
  refine ClausesNarrate.assemble ((narrates_with tell.cte).cons ?_)
  rw [← List.append_nil passages]
  exact narrates.cons ((narrates_returning _ _).skip clausesNarrate_nil)

theorem insert {s : Insert Query} (tell : InsideTell (.insert s)) : (Passage.query (.of (.insert s)) compact deep).Tells := by
  have target : (liftM (Identifier.quoteTableValue s.settings.flavor s.table) : Build Text).Wordless :=
    wordless_lift (Identifier.ordinary_quoteTableValue _ _)
  refine Completes.tells (completes_finish rfl s.settings ?_)
  refine Narrates.before (narrates_require s.table.truthy _) fun _ => ?_
  obtain ⟨settings, ctes, table, rows, columns, source, more⟩ := s
  cases rows with
  | cons row rows =>
    refine tell.insertion (?_ : ClauseNarrates _ [] _)
    refine fun start => narrates_of_wordless (target.bind fun _ => ?_)
    refine (wordless_lift (Identifier.ordinary_quoteColumns _ _)).bind fun _ => ?_
    exact (wordless_lift (Numeral.ordinary_check _)).bind fun _ => wordless_pure _
  | nil =>
    cases source with
    | none => exact narrates_failFor _
    | some source =>
      have told : (inner source).Tells := tell source (List.mem_append_right _ (by simp))
      refine tell.insertion (?_ : ClauseNarrates _ [inner source] _)
      intro start
      refine Narrates.before (narrates_of_wordless target) fun _ => ?_
      refine Narrates.before (narrates_of_wordless (wordless_lift (Insert.ordinary_targetColumns _ ?_))) fun _ => ?_
      · obtain ⟨statement⟩ := source
        rw [Query.toChild, Query.fold_of]
        exact Statement.ordinary_columns _
      refine Narrates.andThen ?_ fun built => ?_
      · rw [Query.build_toChild]
        exact told.narrates
      · refine (wordless_lift built.ordinary_toFragment).bind fun fragment => ?_
        exact (wordless_lift (fragment.ordinary_renumber start)).bind fun _ => wordless_pure _

end InsideTell

end Statements

theorem tells (passage : Passage) : passage.Tells := by
  have query : ∀ query compact deep, (Passage.query query compact deep).Tells := by
    intro query
    induction query using Query.induct with
    | step statement ih =>
      intro compact deep
      have tell : InsideTell statement := fun part member => ih part member (some false) none
      cases statement with
      | built given => exact fun trace => ⟨[], rfl, @Logs.finished _ given [] ⟨trace, trace, rfl⟩ .done⟩
      | unbuildable => exact fun trace => ⟨[], rfl, .failed ⟨trace, trace, rfl⟩ .fails⟩
      | select s => exact tell.select
      | compound s => exact tell.compound
      | insert s => exact tell.insert
      | update s => exact tell.update
      | delete s => exact tell.delete
  cases passage with
  | query q compact deep => exact query q compact deep
  | cte c => exact tells_cte fun q _ => query q _ _
  | ctes cs => exact tells_ctes fun c _ => tells_cte fun q _ => query q _ _

end Passage

end SqlCompose
