import Mathlib
import SqlCompose.Proofs.WrittenNumbers
import SqlCompose.Proofs.Yields
import SqlCompose.Query

/-!
# Failures other than for want of a part

That a part is missing is found out in a few places, and only there is a record of level error logged. Whatever else fails, in reading, quoting, numbering, compacting or copying, fails in another way. An outcome is ordinary if it is no failure for want of a part; what is built without a record, and fails in ordinary ways only, is wordless.
-/

namespace SqlCompose

open Outcome

/-- Whether a failure says that a part is missing. -/
def Error.isOmission : Error → Bool
  | incomplete _ => true
  | _ => false

namespace Outcome

variable {α β : Type}

/-- A success, or a failure of another kind than for want of a part. -/
def Ordinary (outcome : Except Error α) : Prop :=
  ∀ error, outcome = .error error → error.isOmission = false

theorem ordinary_ok (value : α) : Ordinary (.ok value : Except Error α) :=
  fun _ same => nomatch same

theorem ordinary_error {error : Error} (other : error.isOmission = false) : Ordinary (.error error : Except Error α) := by
  rintro _ ⟨⟩
  exact other

theorem Ordinary.bind {first : Except Error α} {next : α → Except Error β} (ordinary : Ordinary first)
    (further : ∀ value, Ordinary (next value)) : Ordinary (first >>= next) := by
  cases first with
  | error error => exact ordinary_error (ordinary error rfl)
  | ok value => exact further value

theorem Ordinary.map {first : Except Error α} (ordinary : Ordinary first) (f : α → β) : Ordinary (first.map f) := by
  cases first with
  | error error => exact ordinary_error (ordinary error rfl)
  | ok value => exact ordinary_ok (f value)

theorem ordinary_mapM {f : α → Except Error β} (each : ∀ item, Ordinary (f item)) (items : List α) : Ordinary (items.mapM f) := by
  induction items with
  | nil => exact ordinary_ok []
  | cons item items ih =>
    rw [List.mapM_cons]
    exact (each item).bind fun _ => ih.bind fun _ => ordinary_ok _

theorem ordinary_foldlM {f : β → α → Except Error β} (each : ∀ state item, Ordinary (f state item)) (items : List α) (state : β) :
    Ordinary (items.foldlM f state) := by
  induction items generalizing state with
  | nil => exact ordinary_ok state
  | cons item items ih => exact (each state item).bind ih

theorem ordinary_forM {f : α → Except Error PUnit} (each : ∀ item, Ordinary (f item)) (items : List α) :
    Ordinary (items.forM f) := by
  induction items with
  | nil => exact ordinary_ok _
  | cons item items ih => exact (each item).bind fun _ => ih

/-- What cannot be written is too long, and not missing. -/
theorem Written.ordinary {outcome : Except Error α} (written : Written outcome) : Ordinary outcome := by
  intro error failed
  rw [written error failed]
  rfl

end Outcome

theorem Numeral.ordinary_check (numbers : List Int) : Ordinary (check numbers) := by
  rcases check_cases numbers with ⟨-, checked⟩ | ⟨-, checked⟩
  · rw [checked]
    exact ordinary_ok _
  · rw [checked]
    exact ordinary_error rfl

/-! ### Values -/

namespace Value

theorem ordinary_contentOfFirst (fields : List Value) : Ordinary (contentOfFirst fields) := by
  unfold contentOfFirst
  split
  · split
    · exact ordinary_ok _
    · exact ordinary_error rfl
  · exact ordinary_error rfl

theorem ordinary_printed (value : Value) : Ordinary value.printed := by
  refine printed.induct (fun value => Ordinary value.printed) (fun fields => Ordinary (printedType fields))
    (fun _ => ordinary_ok _) (fun _ => ordinary_ok _) (fun _ => ordinary_ok _) (fun _ _ => ordinary_ok _)
    (fun _ => ordinary_ok _) (fun _ => ordinary_ok _) (fun _ => ordinary_ok _) (fun _ _ _ => ordinary_ok _)
    (fun _ => ordinary_ok _) (fun _ fields => ordinary_contentOfFirst fields) (fun _ _ sized => sized) ?_ ?_ ?_ ?_ value
  · intro other
    intros
    rw [printed] <;> first | exact (written_shown _).ordinary | assumption
  · intro name label arguments none
    rw [printedType, if_pos none]
    exact ordinary_contentOfFirst [name]
  · intro name label arguments some named
    rw [printedType, if_neg some]
    exact named.bind fun _ => (written_shownItems arguments).ordinary.bind fun _ => ordinary_ok _
  · intro fields other
    rw [printedType] <;> first | exact ordinary_error rfl | assumption

theorem ordinary_asText (value : Value) : Ordinary value.asText := by
  unfold asText
  split
  · exact ordinary_ok _
  · exact ordinary_error rfl

theorem ordinary_asTexts (values : List Value) : Ordinary (asTexts values) :=
  ordinary_mapM ordinary_asText values

theorem ordinary_asReference (value : Value) : Ordinary value.asReference := by
  unfold asReference
  split
  · exact ordinary_ok _
  · exact ordinary_ok _
  · exact ordinary_error rfl
  · exact ordinary_error rfl
  · exact ordinary_error rfl

private theorem faultItems?_eq (item : Value) (items : List Value) :
    faultItems? (item :: items) = item.fault?.or (faultItems? items) := by
  rw [faultItems?]
  cases item.fault? <;> rfl

private theorem faultEntries?_eq (key value : Value) (entries : List (Value × Value)) :
    faultEntries? ((key, value) :: entries) = value.fault?.or (faultEntries? entries) := by
  rw [faultEntries?]
  cases value.fault? <;> rfl

private theorem fault?_dict (label : Label) (entries : List (Value × Value)) :
    (dict label entries).fault? = (faultKeys? entries).or (faultEntries? entries) := by
  rw [fault?]
  cases faultKeys? entries <;> rfl

private theorem ordinary_or {first next : Option Error} (here : ∀ fault, first = some fault → fault.isOmission = false)
    (there : ∀ fault, next = some fault → fault.isOmission = false) :
    ∀ fault, first.or next = some fault → fault.isOmission = false := by
  cases first with
  | some _ => exact here
  | none => exact there

private theorem ordinary_faultKeys (entries : List (Value × Value)) :
    ∀ fault, faultKeys? entries = some fault → fault.isOmission = false := by
  induction entries with
  | nil => exact fun _ same => nomatch same
  | cons entry entries ih =>
    intro fault found
    rw [faultKeys?] at found
    split at found
    · exact ih fault found
    · cases found
      rfl

private theorem ordinary_kindRefusal (kind : Text) (value : Value) : (kindRefusal kind value.shown).isOmission = false := by
  rcases kindRefusal_cases kind value with ⟨_, quoted⟩ | ⟨long, -⟩
  · rw [quoted]
    rfl
  · rw [long]
    rfl

mutual

/-- That a value cannot be bound is a failure of its own kind. -/
theorem ordinary_fault (value : Value) : ∀ fault, value.fault? = some fault → fault.isOmission = false := by
  intro fault found
  cases value with
  | list label items | tuple label items => exact ordinary_faultItems items fault (by simpa [fault?] using found)
  | dict label entries =>
    rw [fault?_dict] at found
    exact ordinary_or (ordinary_faultKeys entries) (ordinary_faultEntries entries) fault found
  | record label kind fields =>
    cases kind with
    | rendered => exact ordinary_faultItems fields fault (by simpa [fault?] using found)
    | _ =>
      obtain rfl := Option.some.inj found
      exact ordinary_kindRefusal _ _
  | unbindable =>
    cases found
    rfl
  | object =>
    obtain rfl := Option.some.inj found
    exact ordinary_kindRefusal _ _
  | _ => cases found

theorem ordinary_faultItems (items : List Value) : ∀ fault, faultItems? items = some fault → fault.isOmission = false := by
  intro fault found
  cases items with
  | nil => cases found
  | cons item items =>
    rw [faultItems?_eq] at found
    exact ordinary_or (ordinary_fault item) (ordinary_faultItems items) fault found

theorem ordinary_faultEntries (entries : List (Value × Value)) :
    ∀ fault, faultEntries? entries = some fault → fault.isOmission = false := by
  intro fault found
  cases entries with
  | nil => cases found
  | cons entry entries =>
    obtain ⟨key, value⟩ := entry
    rw [faultEntries?_eq] at found
    exact ordinary_or (ordinary_fault value) (ordinary_faultEntries entries) fault found

end

end Value

/-! ### Names -/

namespace Identifier

theorem ordinary_segments (reference : Text) : Ordinary (segments reference) := by
  unfold segments
  dsimp only
  split
  · exact ordinary_error rfl
  · exact ordinary_ok _

theorem ordinary_quoteTable (flavor : Flavor) (reference : Text) : Ordinary (quoteTable flavor reference) :=
  (ordinary_segments reference).map _

theorem ordinary_quoteColumn (flavor : Flavor) (reference : Text) : Ordinary (quoteColumn flavor reference) := by
  unfold quoteColumn
  split
  · exact (ordinary_quoteTable flavor _).map _
  · exact ordinary_quoteTable flavor _

theorem ordinary_quoteTableValue (flavor : Flavor) (reference : Value) : Ordinary (quoteTableValue flavor reference) :=
  reference.ordinary_asReference.bind fun _ => ordinary_quoteTable flavor _

theorem ordinary_quoteColumnValue (flavor : Flavor) (reference : Value) : Ordinary (quoteColumnValue flavor reference) :=
  reference.ordinary_asReference.bind fun _ => ordinary_quoteColumn flavor _

theorem ordinary_quoteColumns (flavor : Flavor) (references : List Value) : Ordinary (quoteColumns flavor references) :=
  ordinary_mapM (ordinary_quoteColumnValue flavor) references

theorem ordinary_number (digits : Text) : Ordinary (Numeral.read digits) := by
  unfold Numeral.read
  split
  · exact ordinary_ok _
  · exact ordinary_error rfl

theorem ordinary_withSchemas (schemas : List Value) (token : Token) : Ordinary (withSchemas schemas token) := by
  unfold withSchemas
  split
  · refine (ordinary_number _).bind fun index => ?_
    split
    · exact ordinary_ok _
    · exact (Value.written_shown _).ordinary.bind fun _ => ordinary_error rfl
  · exact ordinary_ok _

theorem ordinary_schemaText (schema : Value) : Ordinary (schemaText schema) := by
  unfold schemaText
  split
  · exact ordinary_ok _
  · exact Value.ordinary_asText _

theorem ordinary_substituteSchemas (schemas : List Value) (text : Text) : Ordinary (substituteSchemas schemas text) := by
  refine (ordinary_mapM (fun segment => ?_) _).bind fun _ => ordinary_ok _
  split
  · exact ordinary_ok _
  · refine (ordinary_mapM (ordinary_withSchemas schemas) _).bind fun pieces => ?_
    exact (ordinary_mapM ordinary_schemaText pieces).bind fun _ => ordinary_ok _

end Identifier

theorem ordinary_behind (opening : Text) (name : Value) : Ordinary (behind opening name) := by
  unfold behind
  split
  · exact name.ordinary_printed.map _
  · exact ordinary_ok _

theorem Field.ordinary_renderAll (flavor : Flavor) (fields : List Field) : Ordinary (renderAll flavor fields) := by
  refine (ordinary_mapM (fun field => ?_) fields).bind Value.ordinary_asTexts
  unfold render
  split
  · exact ordinary_ok _
  · exact (Identifier.ordinary_quoteColumnValue flavor _).map _

theorem OrderBy.ordinary_renderAll (flavor : Flavor) (orders : List OrderBy) : Ordinary (renderAll flavor orders) :=
  ordinary_mapM (f := render flavor) (fun order => (Identifier.ordinary_quoteColumnValue flavor order.field).map _) orders

/-! ### Fragments -/

namespace Fragment

theorem ordinary_readPlaceholders (text : Text) : Ordinary (Token.readPlaceholders text) := by
  refine (ordinary_forM (fun token => ?_) _).bind fun _ => ordinary_ok _
  split
  · exact (Identifier.ordinary_number _).map _
  · exact ordinary_ok _

theorem ordinary_renumber (fragment : Fragment) (start : Int) : Ordinary (fragment.renumber start) := by
  refine (ordinary_readPlaceholders _).bind fun indices => ?_
  dsimp only
  split
  · exact (Numeral.ordinary_check _).bind fun _ => ordinary_ok _
  · exact ordinary_error rfl

theorem ordinary_mergeFrom {α : Type} {fragment : α → Except Error Fragment} (each : ∀ source, Ordinary (fragment source))
    (start : Int) (sources : List α) : Ordinary (mergeFrom fragment start sources) := by
  induction sources generalizing start with
  | nil => exact ordinary_ok _
  | cons source rest ih =>
    rw [mergeFrom]
    refine (each source).bind fun given => ?_
    exact (ordinary_renumber given start).bind fun first => (ih first.next).bind fun _ => ordinary_ok _

theorem ordinary_place (sameness : Sameness) (value : Value) (kept : List Value) : Ordinary (sameness.place? value kept) := by
  induction kept with
  | nil => exact ordinary_ok _
  | cons first rest ih =>
    rw [Sameness.place?]
    split
    · exact ordinary_error rfl
    · exact ordinary_ok _
    · exact ih.map _

theorem ordinary_compact (sameness : Sameness) (fragment : Fragment) : Ordinary (fragment.compact sameness) := by
  refine (ordinary_readPlaceholders _).bind fun indices => ?_
  refine (ordinary_foldlM (fun state old => ?_) indices _).bind fun _ => ordinary_ok _
  unfold Compaction.step
  split
  · exact ordinary_ok _
  · split
    · exact ordinary_error rfl
    · split
      · exact ordinary_error rfl
      · refine (ordinary_place sameness _ _).bind fun place => ?_
        split
        · exact ordinary_ok _
        · exact ordinary_ok _

end Fragment

theorem BuiltQuery.ordinary_wording (query : BuiltQuery) : Ordinary query.wording := by
  unfold wording
  split
  · exact ordinary_ok _
  · exact ordinary_error rfl

theorem BuiltQuery.ordinary_toFragment (query : BuiltQuery) : Ordinary query.toFragment :=
  query.ordinary_wording.map _

/-! ### Clauses -/

theorem Paging.ordinary_lines (paging : Paging) : Ordinary (paging.render.mapM id) := by
  have each : ∀ line ∈ paging.render, Ordinary line := fun line member => (written_of_mem_render member).ordinary
  generalize paging.render = lines at each
  induction lines with
  | nil => exact ordinary_ok []
  | cons line lines ih =>
    obtain ⟨here, there⟩ := List.forall_mem_cons.mp each
    rw [List.mapM_cons]
    exact here.bind fun _ => (ih there).bind fun _ => ordinary_ok _

theorem Select.ordinary_selected {Q : Type} (select : Select Q) : Ordinary select.selected := by
  unfold selected
  split
  · exact ordinary_ok _
  · exact Field.ordinary_renderAll _ _

theorem Select.ordinary_grouping {Q : Type} (select : Select Q) : Ordinary select.grouping := by
  refine (Identifier.ordinary_quoteColumns _ _).bind fun given => ?_
  dsimp only
  split
  · exact select.ordinary_selected.bind fun _ => ordinary_ok _
  · exact ordinary_ok _

theorem Compound.ordinary_opening {Q : Type} (compound : Compound Q) : Ordinary compound.opening := by
  unfold opening
  split
  · exact ordinary_ok _
  · exact (Field.ordinary_renderAll _ _).map _

/-- The columns that a statement is known to give are listed, or there is no telling. -/
theorem Statement.ordinary_columns {Q : Type} (statement : Statement Q) : Ordinary statement.columns := by
  unfold columns
  split
  · exact ordinary_ok _
  · exact ordinary_error rfl
  · exact ordinary_ok _

theorem Insert.ordinary_targetColumns {Q : Type} (insert : Insert Q) {source : Child} (listed : Ordinary source.columns) :
    Ordinary (insert.targetColumns source) := by
  unfold targetColumns
  split
  · exact listed.bind fun columns => ordinary_mapM (fun column => column.ordinary_asText.map _) columns
  · exact Identifier.ordinary_quoteColumns _ _

theorem Update.ordinary_assign (flavor : Flavor) (start : Int) (assignments : List (Value × Assigned)) :
    Ordinary (assign flavor start assignments) := by
  induction assignments generalizing start with
  | nil => exact ordinary_ok _
  | cons assignment rest ih =>
    obtain ⟨column, assigned⟩ := assignment
    refine (Identifier.ordinary_quoteColumnValue flavor column).bind fun quoted => ?_
    cases assigned with
    | value value => exact (Numeral.ordinary_check _).bind fun _ => (ih _).bind fun _ => ordinary_ok _
    | expression expression => exact expression.ordinary_printed.bind fun _ => (ih _).bind fun _ => ordinary_ok _

theorem Delete.ordinary_usedTables {Q : Type} (delete : Delete Q) : Ordinary delete.usedTables := by
  refine ordinary_mapM (fun used => ?_) _
  exact (Identifier.ordinary_quoteTableValue _ _).bind fun _ => (ordinary_behind _ _).bind fun _ => ordinary_ok _

end SqlCompose
