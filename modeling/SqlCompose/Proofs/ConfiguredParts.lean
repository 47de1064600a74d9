import Mathlib
import SqlCompose.Proofs.Yields
import SqlCompose.Query.Edit

/-!
# Parts that are configured

A change of a statement is a change of one part of it: it reads nothing else and leaves all else as it is. So what a run of changes makes of one part is what the changes of this part make of it, one after another, in a statement that has nothing else (`Configured.only`).
-/

namespace SqlCompose

open Build

namespace Statement

/-- What a configuration can be about. -/
inductive Part where
  | target
  | fields
  | distinct
  | joins
  | filter
  | groups
  | groupBySelected
  | having
  | orders
  | paging
  | content
  | source
  | others
  | returning
  | members
  | name
  | flavor
  | schemas
  | ctes
  | compaction
  deriving DecidableEq

/-- The part that a change is about; a statement that is reset changes in many. -/
def Edit.part? : Edit → Option Part
  | .flavor _ => some .flavor
  | .schemas _ | .moreSchemas _ => some .schemas
  | .compaction _ _ => some .compaction
  | .ctes _ => some .ctes
  | .table _ _ => some .target
  | .name _ => some .name
  | .where _ _ _ | .filter _ => some .filter
  | .having _ _ | .groupFilter _ => some .having
  | .fields _ | .moreFields _ => some .fields
  | .distinct _ => some .distinct
  | .join _ => some .joins
  | .groups _ | .moreGroups _ => some .groups
  | .groupBySelected _ => some .groupBySelected
  | .order _ | .noOrder => some .orders
  | .limit _ | .offset _ | .noPaging => some .paging
  | .member _ => some .members
  | .rows _ | .row _ _ | .assignments _ | .assignment _ _ => some .content
  | .columns _ | .source _ => some .source
  | .other _ _ => some .others
  | .returning _ | .moreReturning _ => some .returning
  | .reset => none

end Statement

open Statement (Part)

/-! ### A statement with one part only -/

section Only

variable (part : Part)

def Settings.only (settings : Settings) : Settings where
  flavor := if part = .flavor then settings.flavor else .postgres
  schemas := if part = .schemas then settings.schemas else []
  compact := if part = .compaction then settings.compact else .null
  deep := if part = .compaction then settings.deep else .null

def Select.only (select : Select Query) : Select Query where
  settings := select.settings.only part
  ctes := if part = .ctes then select.ctes else none
  table := if part = .target then select.table else .null
  name := if part = .target then select.name else .null
  fields := if part = .fields then select.fields else []
  distinct := if part = .distinct then select.distinct else .null
  joins := if part = .joins then select.joins else []
  filter := if part = .filter then select.filter else .none
  groups := if part = .groups then select.groups else []
  groupBySelected := if part = .groupBySelected then select.groupBySelected else .null
  having := if part = .having then select.having else .none
  orders := if part = .orders then select.orders else []
  paging := if part = .paging then select.paging else {}

def Compound.only (compound : Compound Query) : Compound Query where
  settings := compound.settings.only part
  ctes := if part = .ctes then compound.ctes else none
  name := if part = .name then compound.name else .null
  members := if part = .members then compound.members else []
  fields := if part = .fields then compound.fields else []
  filter := if part = .filter then compound.filter else .none
  groups := if part = .groups then compound.groups else []
  having := if part = .having then compound.having else .none
  orders := if part = .orders then compound.orders else []
  paging := if part = .paging then compound.paging else {}

def Insert.only (insert : Insert Query) : Insert Query where
  settings := insert.settings.only part
  ctes := if part = .ctes then insert.ctes else none
  table := if part = .target then insert.table else .null
  rows := if part = .content then insert.rows else []
  columns := if part = .source then insert.columns else []
  source := if part = .source then insert.source else none
  returning := if part = .returning then insert.returning else []

def Update.only (update : Update Query) : Update Query where
  settings := update.settings.only part
  ctes := if part = .ctes then update.ctes else none
  table := if part = .target then update.table else .null
  name := if part = .target then update.name else .null
  assignments := if part = .content then update.assignments else []
  origin := if part = .others then update.origin else none
  joins := if part = .joins then update.joins else []
  filter := if part = .filter then update.filter else .none
  returning := if part = .returning then update.returning else []

def Delete.only (delete : Delete Query) : Delete Query where
  settings := delete.settings.only part
  ctes := if part = .ctes then delete.ctes else none
  table := if part = .target then delete.table else .null
  name := if part = .target then delete.name else .null
  others := if part = .others then delete.others else []
  filter := if part = .filter then delete.filter else .none
  returning := if part = .returning then delete.returning else []

def Statement.only : Statement Query → Statement Query
  | select s => select (s.only part)
  | compound s => compound (s.only part)
  | insert s => insert (s.only part)
  | update s => update (s.only part)
  | delete s => delete (s.only part)
  | other => other

end Only

namespace Statement

/-! ### Changes of one part -/

/-- What the change makes of the part is the same in a statement that has nothing else, and all other parts stay. -/
def Confined (part : Part) (change : Statement Query → Build (Statement Query)) : Prop :=
  ∀ before after, (change before).Yields after →
    (change (before.only part)).Yields (after.only part) ∧ ∀ other, other ≠ part → after.only other = before.only other

section Changes

variable {part : Part}

/-- A change that takes no computing is confined if it is for each kind of statement. -/
private theorem confined_of_pure {change : Statement Query → Build (Statement Query)}
    (plain : ∀ before, (∃ after, change before = pure after ∧ change (before.only part) = pure (after.only part) ∧
      ∀ other, other ≠ part → after.only other = before.only other) ∨ change before = throw .attributeMissing) : Confined part change := by
  intro before after yields
  obtain ⟨made, done, alone, others⟩ | fails := plain before
  · rw [done, yields_pure] at yields
    obtain rfl := yields
    exact ⟨by rw [alone, yields_pure], others⟩
  · rw [fails] at yields
    exact absurd yields not_yields_throw

theorem confined_changeSettings (change : Settings → Settings) (own : ∀ settings, change (settings.only part) = (change settings).only part)
    (rest : ∀ settings other, other ≠ part → (change settings).only other = settings.only other) :
    Confined part (changeSettings change) := by
  refine confined_of_pure fun before => ?_
  cases before with
  | built | unbuildable => exact .inr rfl
  | select s | compound s | insert s | update s | delete s =>
    refine .inl ⟨_, rfl, ?_, fun other ne => ?_⟩
    · simp only [only, changeSettings, Select.only, Compound.only, Insert.only, Update.only, Delete.only, own]
    · simp only [only, Select.only, Compound.only, Insert.only, Update.only, Delete.only, rest _ _ ne]

theorem confined_changeSelect (change : Select Query → Select Query) (own : ∀ s, change (s.only part) = (change s).only part)
    (rest : ∀ s other, other ≠ part → (change s).only other = s.only other) : Confined part (changeSelect change) := by
  refine confined_of_pure fun before => ?_
  cases before with
  | select s => exact .inl ⟨_, rfl, congrArg (pure ∘ select) (own s), fun other ne => congrArg select (rest s other ne)⟩
  | _ => exact .inr rfl

theorem confined_changeCompound (change : Compound Query → Compound Query) (own : ∀ s, change (s.only part) = (change s).only part)
    (rest : ∀ s other, other ≠ part → (change s).only other = s.only other) : Confined part (changeCompound change) := by
  refine confined_of_pure fun before => ?_
  cases before with
  | compound s => exact .inl ⟨_, rfl, congrArg (pure ∘ compound) (own s), fun other ne => congrArg compound (rest s other ne)⟩
  | _ => exact .inr rfl

theorem confined_changeInsert (change : Insert Query → Insert Query) (own : ∀ s, change (s.only part) = (change s).only part)
    (rest : ∀ s other, other ≠ part → (change s).only other = s.only other) : Confined part (changeInsert change) := by
  refine confined_of_pure fun before => ?_
  cases before with
  | insert s => exact .inl ⟨_, rfl, congrArg (pure ∘ insert) (own s), fun other ne => congrArg insert (rest s other ne)⟩
  | _ => exact .inr rfl

theorem confined_changeUpdate (change : Update Query → Update Query) (own : ∀ s, change (s.only part) = (change s).only part)
    (rest : ∀ s other, other ≠ part → (change s).only other = s.only other) : Confined part (changeUpdate change) := by
  refine confined_of_pure fun before => ?_
  cases before with
  | update s => exact .inl ⟨_, rfl, congrArg (pure ∘ update) (own s), fun other ne => congrArg update (rest s other ne)⟩
  | _ => exact .inr rfl

end Changes

theorem confined_setCtes (ctes : Option (List (Cte Query))) : Confined .ctes (setCtes ctes) := by
  refine confined_of_pure fun before => ?_
  cases before with
  | built | unbuildable => exact .inr rfl
  | select s | compound s | insert s | update s | delete s =>
    refine .inl ⟨_, rfl, rfl, fun other ne => ?_⟩
    simp only [only, Select.only, Compound.only, Insert.only, Update.only, Delete.only, if_neg ne]

theorem confined_setTable (table name : Value) : Confined .target (setTable table name) := by
  refine confined_of_pure fun before => ?_
  cases before with
  | select s | insert s | update s | delete s =>
    refine .inl ⟨_, rfl, rfl, fun other ne => ?_⟩
    simp only [only, Select.only, Insert.only, Update.only, Delete.only, if_neg ne]
  | _ => exact .inr rfl

theorem confined_changeFields (change : List Field → List Field) : Confined .fields (changeFields change) := by
  refine confined_of_pure fun before => ?_
  cases before with
  | select s | compound s =>
    exact .inl ⟨_, rfl, rfl, fun other ne => by simp only [only, Select.only, Compound.only, if_neg ne]⟩
  | _ => exact .inr rfl

theorem confined_changeGroups (change : List Value → List Value) : Confined .groups (changeGroups change) := by
  refine confined_of_pure fun before => ?_
  cases before with
  | select s | compound s =>
    exact .inl ⟨_, rfl, rfl, fun other ne => by simp only [only, Select.only, Compound.only, if_neg ne]⟩
  | _ => exact .inr rfl

theorem confined_changeOrders (change : List OrderBy → List OrderBy) : Confined .orders (changeOrders change) := by
  refine confined_of_pure fun before => ?_
  cases before with
  | select s | compound s =>
    exact .inl ⟨_, rfl, rfl, fun other ne => by simp only [only, Select.only, Compound.only, if_neg ne]⟩
  | _ => exact .inr rfl

theorem confined_changePaging (change : Paging → Paging) : Confined .paging (changePaging change) := by
  refine confined_of_pure fun before => ?_
  cases before with
  | select s | compound s =>
    exact .inl ⟨_, rfl, rfl, fun other ne => by simp only [only, Select.only, Compound.only, if_neg ne]⟩
  | _ => exact .inr rfl

theorem confined_addJoin (join : Join Query) : Confined .joins (addJoin join) := by
  refine confined_of_pure fun before => ?_
  cases before with
  | select s | update s =>
    exact .inl ⟨_, rfl, rfl, fun other ne => by simp only [only, Select.only, Update.only, if_neg ne]⟩
  | _ => exact .inr rfl

theorem confined_addOther (table name : Value) : Confined .others (addOther table name) := by
  refine confined_of_pure fun before => ?_
  cases before with
  | update s | delete s =>
    exact .inl ⟨_, rfl, rfl, fun other ne => by simp only [only, Update.only, Delete.only, if_neg ne]⟩
  | _ => exact .inr rfl

theorem confined_changeReturning (change : List Field → List Field) : Confined .returning (changeReturning change) := by
  refine confined_of_pure fun before => ?_
  cases before with
  | insert s | update s | delete s =>
    exact .inl ⟨_, rfl, rfl, fun other ne => by simp only [only, Insert.only, Update.only, Delete.only, if_neg ne]⟩
  | _ => exact .inr rfl

/-! ### Changes of conditions -/

private theorem yields_map {α β : Type} {first : Build α} {value : α} (f : α → β) (made : first.Yields value) :
    (first >>= fun value => pure (f value)).Yields (f value) := by
  obtain ⟨trace, after, done⟩ := made
  exact ⟨trace, after, by rw [runFrom_bind, done]; rfl⟩

theorem confined_changeFilter (change : Restriction → Build Restriction) : Confined .filter (changeFilter change) := by
  intro before after yields
  cases before with
  | built | insert | unbuildable => exact absurd yields not_yields_throw
  | select s =>
    obtain ⟨filter, made, done⟩ := Yields.bind yields
    obtain rfl := yields_pure.mp done
    exact ⟨yields_map (fun filter => select { s.only .filter with filter }) made,
      fun other ne => by simp only [only, Select.only, if_neg ne]⟩
  | compound s =>
    obtain ⟨filter, made, done⟩ := Yields.bind yields
    obtain rfl := yields_pure.mp done
    exact ⟨yields_map (fun filter => compound { s.only .filter with filter }) made,
      fun other ne => by simp only [only, Compound.only, if_neg ne]⟩
  | update s =>
    obtain ⟨filter, made, done⟩ := Yields.bind yields
    obtain rfl := yields_pure.mp done
    exact ⟨yields_map (fun filter => update { s.only .filter with filter }) made,
      fun other ne => by simp only [only, Update.only, if_neg ne]⟩
  | delete s =>
    obtain ⟨filter, made, done⟩ := Yields.bind yields
    obtain rfl := yields_pure.mp done
    exact ⟨yields_map (fun filter => delete { s.only .filter with filter }) made,
      fun other ne => by simp only [only, Delete.only, if_neg ne]⟩

theorem confined_changeHaving (change : Restriction → Build Restriction) : Confined .having (changeHaving change) := by
  intro before after yields
  cases before with
  | built | insert | update | delete | unbuildable => exact absurd yields not_yields_throw
  | select s =>
    obtain ⟨having, made, done⟩ := Yields.bind yields
    obtain rfl := yields_pure.mp done
    exact ⟨yields_map (fun having => select { s.only .having with having }) made,
      fun other ne => by simp only [only, Select.only, if_neg ne]⟩
  | compound s =>
    obtain ⟨having, made, done⟩ := Yields.bind yields
    obtain rfl := yields_pure.mp done
    exact ⟨yields_map (fun having => compound { s.only .having with having }) made,
      fun other ne => by simp only [only, Compound.only, if_neg ne]⟩

theorem Edit.confined {edit : Edit} {part : Part} (own : edit.part? = some part) : Confined part (Edit.apply · edit) := by
  cases edit with
  | reset => cases own
  | flavor f =>
    obtain rfl := Option.some.inj own
    exact confined_changeSettings ({ · with flavor := f }) (fun _ => rfl) fun _ _ ne => by simp only [Settings.only, if_neg ne]
  | schemas names =>
    obtain rfl := Option.some.inj own
    exact confined_changeSettings ({ · with schemas := names }) (fun _ => rfl) fun _ _ ne => by simp only [Settings.only, if_neg ne]
  | moreSchemas names =>
    obtain rfl := Option.some.inj own
    exact confined_changeSettings (fun s => { s with schemas := s.schemas ++ names }) (fun _ => rfl) fun _ _ ne => by simp only [Settings.only, if_neg ne]
  | compaction on deeply =>
    obtain rfl := Option.some.inj own
    exact confined_changeSettings ({ · with compact := on, deep := deeply }) (fun _ => rfl) fun _ _ ne => by simp only [Settings.only, if_neg ne]
  | distinct enabled =>
    obtain rfl := Option.some.inj own
    exact confined_changeSelect ({ · with distinct := enabled }) (fun _ => rfl) fun _ _ ne => by simp only [Select.only, if_neg ne]
  | groupBySelected enabled =>
    obtain rfl := Option.some.inj own
    exact confined_changeSelect ({ · with groupBySelected := enabled }) (fun _ => rfl) fun _ _ ne => by simp only [Select.only, if_neg ne]
  | name shortName =>
    obtain rfl := Option.some.inj own
    exact confined_changeCompound ({ · with name := shortName }) (fun _ => rfl) fun _ _ ne => by simp only [Compound.only, if_neg ne]
  | member added =>
    obtain rfl := Option.some.inj own
    exact confined_changeCompound (fun c => { c with members := c.members ++ [added] }) (fun _ => rfl) fun _ _ ne => by simp only [Compound.only, if_neg ne]
  | rows list =>
    obtain rfl := Option.some.inj own
    exact confined_changeInsert ({ · with rows := list }) (fun _ => rfl) fun _ _ ne => by simp only [Insert.only, if_neg ne]
  | row column value =>
    obtain rfl := Option.some.inj own
    exact confined_changeInsert (fun i => { i with rows := i.rows ++ [(column, value)] }) (fun _ => rfl) fun _ _ ne => by simp only [Insert.only, if_neg ne]
  | columns list =>
    obtain rfl := Option.some.inj own
    exact confined_changeInsert ({ · with columns := list }) (fun _ => rfl) fun _ _ ne => by simp only [Insert.only, if_neg ne]
  | source query =>
    obtain rfl := Option.some.inj own
    exact confined_changeInsert ({ · with source := some query }) (fun _ => rfl) fun _ _ ne => by simp only [Insert.only, if_neg ne]
  | assignments list =>
    obtain rfl := Option.some.inj own
    exact confined_changeUpdate ({ · with assignments := list }) (fun _ => rfl) fun _ _ ne => by simp only [Update.only, if_neg ne]
  | assignment column assigned =>
    obtain rfl := Option.some.inj own
    exact confined_changeUpdate (fun u => { u with assignments := u.assignments ++ [(column, assigned)] }) (fun _ => rfl) fun _ _ ne => by simp only [Update.only, if_neg ne]
  | ctes list => exact Option.some.inj own ▸ confined_setCtes list
  | table reference shortName => exact Option.some.inj own ▸ confined_setTable reference shortName
  | «where» connective condition values => exact Option.some.inj own ▸ confined_changeFilter (restrict connective condition values)
  | filter restriction => exact Option.some.inj own ▸ confined_changeFilter fun _ => return restriction
  | having condition values => exact Option.some.inj own ▸ confined_changeHaving (linkTo .and condition values)
  | groupFilter restriction => exact Option.some.inj own ▸ confined_changeHaving fun _ => return restriction
  | fields list => exact Option.some.inj own ▸ confined_changeFields fun _ => list
  | moreFields more => exact Option.some.inj own ▸ confined_changeFields (· ++ more)
  | groups list => exact Option.some.inj own ▸ confined_changeGroups fun _ => list
  | moreGroups more => exact Option.some.inj own ▸ confined_changeGroups (· ++ more)
  | order entry => exact Option.some.inj own ▸ confined_changeOrders (· ++ [entry])
  | noOrder => exact Option.some.inj own ▸ confined_changeOrders fun _ => []
  | limit count => exact Option.some.inj own ▸ confined_changePaging ({ · with limit := some count })
  | offset count => exact Option.some.inj own ▸ confined_changePaging ({ · with offset := some count })
  | noPaging => exact Option.some.inj own ▸ confined_changePaging fun _ => {}
  | join joined => exact Option.some.inj own ▸ confined_addJoin joined
  | other reference shortName => exact Option.some.inj own ▸ confined_addOther reference shortName
  | returning list => exact Option.some.inj own ▸ confined_changeReturning fun _ => list
  | moreReturning more => exact Option.some.inj own ▸ confined_changeReturning (· ++ more)

/-! ### Runs of changes -/

/-- The changes are made one after another, each with success, whatever is built between them. -/
inductive Configured : Statement Query → List Edit → Statement Query → Prop
  | refl (statement : Statement Query) : Configured statement [] statement
  | step {before between after : Statement Query} {edit : Edit} {edits : List Edit} (first : (Edit.apply before edit).Yields between)
      (rest : Configured between edits after) : Configured before (edit :: edits) after

/-- What becomes of a part is what the changes of this part make of it. -/
theorem Configured.only {before after : Statement Query} {edits : List Edit} (run : Configured before edits after)
    (proper : ∀ edit ∈ edits, edit.part? ≠ none) (part : Part) :
    Configured (before.only part) (edits.filter fun edit => edit.part? = some part) (after.only part) := by
  induction run with
  | refl => exact .refl _
  | @step before between after edit edits first rest ih =>
    obtain ⟨here, there⟩ := List.forall_mem_cons.mp proper
    obtain ⟨own, found⟩ := Option.ne_none_iff_exists'.mp here
    obtain ⟨alone, others⟩ := Edit.confined found _ _ first
    by_cases same : own = part
    · subst same
      rw [List.filter_cons_of_pos (by simpa using found)]
      exact .step alone (ih there)
    · rw [List.filter_cons_of_neg (by simpa [found] using same), ← others part (Ne.symm same)]
      exact ih there

end Statement

end SqlCompose
