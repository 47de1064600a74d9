import Mathlib
import SqlCompose.Proofs.PartDefaults
import SqlCompose.Proofs.Rules
import SqlCompose.Session.State

/-!
# Reading what has been read

A map over all values of an object behind another one is one map. So what a session has shown and another session shows again looks as if only the second one had shown it, provided that the second knows all the objects that the first has known.
-/

namespace SqlCompose

/-! ### Maps over values -/

section Composite

variable {f g h : Value → Value} (composite : ∀ value, g (f value) = h value)

include composite

private theorem values_again (values : List Value) : (values.map f).map g = values.map h := by
  rw [List.map_map]
  exact List.map_congr_left fun value _ => composite value

theorem Predicate.mapValues_mapValues (predicate : Predicate) : (predicate.mapValues f).mapValues g = predicate.mapValues h :=
  congrArg (Predicate.mk predicate.text) (values_again composite predicate.values)

theorem Chain.mapValues_mapValues (chain : Chain) : (chain.mapValues f).mapValues g = chain.mapValues h := by
  refine congrArg Chain.mk ?_
  rw [mapValues, List.map_map]
  exact List.map_congr_left fun link _ => congrArg (Prod.mk link.1) (Predicate.mapValues_mapValues composite link.2)

theorem Restriction.mapValues_mapValues (restriction : Restriction) :
    (restriction.mapValues f).mapValues g = restriction.mapValues h := by
  cases restriction with
  | chain held =>
    obtain ⟨chain, holder⟩ := held
    exact congrArg (fun chain => Restriction.chain ⟨chain, holder⟩) (Chain.mapValues_mapValues composite chain)
  | predicate p => exact congrArg Restriction.predicate (Predicate.mapValues_mapValues composite p)
  | unusable value copied => exact congrArg (Restriction.unusable · copied) (composite value)

private theorem settings_again (settings : Settings) : (settings.mapValues f).mapValues g = settings.mapValues h := by
  simp only [Settings.mapValues, values_again composite, composite]

private theorem fields_again (fields : List Field) :
    (fields.map (Field.mapValues f)).map (Field.mapValues g) = fields.map (Field.mapValues h) := by
  rw [List.map_map]
  exact List.map_congr_left fun field _ => congrArg (Field.mk · field.raw) (composite field.value)

private theorem orders_again (orders : List OrderBy) :
    (orders.map (OrderBy.mapValues f)).map (OrderBy.mapValues g) = orders.map (OrderBy.mapValues h) := by
  rw [List.map_map]
  exact List.map_congr_left fun order _ => congrArg (OrderBy.mk · order.direction) (composite order.field)

private theorem pairs_again (pairs : List (Value × Value)) :
    (pairs.map fun (first, second) => (f first, f second)).map (fun (first, second) => (g first, g second)) =
      pairs.map fun (first, second) => (h first, h second) := by
  rw [List.map_map]
  exact List.map_congr_left fun pair _ => Prod.ext (composite pair.1) (composite pair.2)

variable {Q : Type}

theorem Cte.mapValues_mapValues (cte : Cte Q) : (cte.mapValues f).mapValues g = cte.mapValues h := by
  simp only [mapValues, composite]

private theorem ctes_again (ctes : Option (List (Cte Q))) :
    (ctes.map (·.map (Cte.mapValues f))).map (·.map (Cte.mapValues g)) = ctes.map (·.map (Cte.mapValues h)) := by
  cases ctes with
  | none => rfl
  | some ctes =>
    refine congrArg some (List.map_map.trans ?_)
    exact List.map_congr_left fun cte _ => Cte.mapValues_mapValues composite cte

private theorem joins_again (joins : List (Join Q)) :
    (joins.map (Join.mapValues f)).map (Join.mapValues g) = joins.map (Join.mapValues h) := by
  rw [List.map_map]
  refine List.map_congr_left fun join _ => ?_
  obtain ⟨kind, source, condition⟩ := join
  have conditions : (condition.map (Predicate.mapValues f)).map (Predicate.mapValues g) = condition.map (Predicate.mapValues h) := by
    rw [Option.map_map]
    exact congrArg (Option.map · condition) (funext (Predicate.mapValues_mapValues composite))
  cases source <;> simp only [Function.comp, Join.mapValues, composite, conditions]

private theorem assignments_again (assignments : List (Value × Assigned)) :
    (assignments.map fun (column, assigned) => (f column, assigned.mapValues f)).map (fun (column, assigned) =>
        (g column, assigned.mapValues g)) = assignments.map fun (column, assigned) => (h column, assigned.mapValues h) := by
  rw [List.map_map]
  refine List.map_congr_left fun pair _ => Prod.ext (composite pair.1) ?_
  obtain ⟨column, assigned⟩ := pair
  cases assigned with
  | value value => exact congrArg Assigned.value (composite value)
  | expression text => exact congrArg Assigned.expression (composite text)

private theorem origin_again (origin : Option (Value × Value)) :
    (origin.map fun (table, name) => (f table, f name)).map (fun (table, name) => (g table, g name)) =
      origin.map fun (table, name) => (h table, h name) := by
  cases origin with
  | none => rfl
  | some pair => exact congrArg some (Prod.ext (composite pair.1) (composite pair.2))

theorem Statement.mapValues_mapValues (statement : Statement Q) :
    (statement.mapValues f).mapValues g = statement.mapValues h := by
  have restrictions := Restriction.mapValues_mapValues composite
  cases statement with
  | built query => simp only [mapValues, BuiltQuery.mapValues, composite, values_again composite]
  | unbuildable => rfl
  | _ =>
    simp only [mapValues, settings_again composite, ctes_again composite, fields_again composite, joins_again composite, restrictions,
      values_again composite, orders_again composite, pairs_again composite, assignments_again composite, origin_again composite, composite]

end Composite

/-- What a map over values does is done to a statement, and not to what it is made of. -/
theorem Statement.map_mapValues {Q R : Type} (f : Value → Value) (part : Q → R) (statement : Statement Q) :
    (statement.mapValues f).map part = (statement.map part).mapValues f := by
  have ctes (ctes : Option (List (Cte Q))) : (ctes.map (·.map (Cte.mapValues f))).map (·.map (Cte.map part)) =
      (ctes.map (·.map (Cte.map part))).map (·.map (Cte.mapValues f)) := by
    cases ctes with
    | none => rfl
    | some ctes =>
      refine congrArg some (List.map_map.trans (Eq.trans ?_ List.map_map.symm))
      exact List.map_congr_left fun cte _ => rfl
  have joins (joins : List (Join Q)) : (joins.map (Join.mapValues f)).map (Join.map part) =
      (joins.map (Join.map part)).map (Join.mapValues f) := by
    rw [List.map_map, List.map_map]
    refine List.map_congr_left fun join _ => ?_
    obtain ⟨kind, source, condition⟩ := join
    cases source <;> rfl
  cases statement with
  | built query => rfl
  | unbuildable => rfl
  | select s => simp only [mapValues, map, Select.map, ctes, joins]
  | compound s => simp only [mapValues, map, Compound.map, ctes]
  | insert s => simp only [mapValues, map, Insert.map, ctes]
  | update s => simp only [mapValues, map, Update.map, ctes, joins]
  | delete s => simp only [mapValues, map, Delete.map, ctes]

theorem Query.mapValues_mapValues {f g h : Value → Value} (composite : ∀ value, g (f value) = h value) (query : Query) :
    (query.mapValues f).mapValues g = query.mapValues h := by
  induction query using Query.induct with
  | step statement ih =>
    rw [mapValues_of, mapValues_of, mapValues_of, Statement.map_mapValues, Statement.map_map,
      Statement.mapValues_mapValues composite]
    exact congrArg (fun parts => Query.of (Statement.mapValues h parts)) (Statement.map_congr ih)

theorem Cte.mapAllValues_mapAllValues {f g h : Value → Value} (composite : ∀ value, g (f value) = h value) (cte : Cte Query) :
    (cte.mapAllValues f).mapAllValues g = cte.mapAllValues h := by
  obtain ⟨name, query, recursive⟩ := cte
  have inside : (query.map (Query.mapValues f)).map (Query.mapValues g) = query.map (Query.mapValues h) := by
    rw [Option.map_map]
    exact congrArg (Option.map · query) (funext (Query.mapValues_mapValues composite))
  simp only [mapAllValues, mapValues, map, composite, inside]

/-! ### Faces shown again -/

namespace Value

variable {faceOf faceOf' : Label → Option ObjectFace}

mutual

/-- Faces are shown as the last one knows them who shows them, if he knows as many objects. -/
theorem refaced_refaced (known : ∀ label, (faceOf label).isSome → (faceOf' label).isSome) :
    (value : Value) → (value.refaced faceOf).refaced faceOf' = value.refaced faceOf'
  | .object label face => by
    rw [refaced, refaced, refaced]
    cases here : faceOf label with
    | none => rfl
    | some shown =>
      obtain ⟨shown', there⟩ := Option.isSome_iff_exists.mp (known label (here ▸ rfl))
      rw [there]
      rfl
  | .list _ items | .tuple _ items | .record _ _ items => by
    rw [refaced, refaced, refaced, refacedItems_refacedItems known items]
  | .dict _ entries => by
    rw [refaced, refaced, refaced, refacedEntries_refacedEntries known entries]
  | .byteArray _ _ | .null | .bool _ | .int _ | .float _ | .floatNaN _ | .decimal _ | .decimalNaN _ _ | .text _ | .entry _
  | .bytes _ | .date _ | .dateTime _ | .time _ | .duration _ _ _ | .uuid _ | .unbindable _ _ => rfl

theorem refacedItems_refacedItems (known : ∀ label, (faceOf label).isSome → (faceOf' label).isSome) :
    (items : List Value) → refacedItems faceOf' (refacedItems faceOf items) = refacedItems faceOf' items
  | [] => rfl
  | item :: items => by
    rw [refacedItems, refacedItems, refacedItems, refaced_refaced known item, refacedItems_refacedItems known items]

theorem refacedEntries_refacedEntries (known : ∀ label, (faceOf label).isSome → (faceOf' label).isSome) :
    (entries : List (Value × Value)) → refacedEntries faceOf' (refacedEntries faceOf entries) = refacedEntries faceOf' entries
  | [] => rfl
  | (key, value) :: entries => by
    rw [refacedEntries, refacedEntries, refacedEntries, refaced_refaced known key, refaced_refaced known value,
      refacedEntries_refacedEntries known entries]

end

end Value

namespace Session

variable {session after : Session}

/-- The session knows the objects that are stored in it. -/
theorem isSome_faceWithin (session : Session) (label : Label) :
    (session.faceWithin session.depth label).isSome = (session.stored? label).isSome := by
  rw [depth, faceWithin, Option.isSome_map]

/-- A session shows what another one has shown as if it had not been shown before, if it has all objects of the other one. -/
theorem current_current (grown : ∀ label, (session.stored? label).isSome → (after.stored? label).isSome) (value : Value) :
    after.current (session.current value) = after.current value :=
  Value.refaced_refaced (fun label known => by rw [isSome_faceWithin] at known ⊢; exact grown label known) value

end Session

end SqlCompose
