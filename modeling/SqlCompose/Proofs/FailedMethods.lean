import Mathlib
import SqlCompose.Proofs.HarmlessFailures
import SqlCompose.Proofs.SharedMethods

/-!
# Methods that fail

A call that configures an object and fails leaves the object as it was. Only a call on several entries may have done something before it fails: it leaves what the same call on the entries in front of the first bad one would have left. The tables of methods are gone through once more, and the few methods that take several entries one by one.
-/

namespace SqlCompose

/-! ### Calls on several entries -/

/-- The arguments that a call comes down to, if there is such a method and they fit. -/
def Methods.arguments? (methods : Methods (Act Outcome)) (name : Text) (values : List Value) (named : List (Text × Value)) :
    Option Arguments :=
  (methods.lookup name).bind fun method => (method.signature.bind values named).toOption

/-- A call of a method is done, if there is one. -/
def Methods.again (methods : Methods (Act Outcome)) : Option (Text × List Value) → Act Outcome
  | none => return .itself
  | some (name, values) => methods.call name values []

/-- A call that goes through entries, and the call that goes through others in their place. On no entries at all there may be nothing to call. -/
structure SeveralCall where
  entries : List Value
  on : List Value → Option (Text × List Value)

/-- What a failed call leaves: the session as it was, or, of several entries, what the same call on those in front of the first bad one leaves. With this one added, the call fails as the whole call does. -/
def Session.Remains (methods : Methods (Act Outcome)) (session : Session) (error : Error) (after : Session) : Option SeveralCall → Prop
  | none => session.SameState after
  | some several => ∃ front entry back between failed, several.entries = front ++ entry :: back ∧
      (methods.again (several.on front)).Runs session (.ok .itself) between ∧ between.SameState after ∧
      (methods.again (several.on (front ++ [entry]))).Runs session (.error error) failed

mutual

/-- What is found when a value is gone through at every depth. -/
def Value.leaves : Value → List Value
  | .list _ items | .tuple _ items | .record _ .builtQuery items | .record _ .rendered items => leavesOfAll items
  | .dict _ entries => leavesOfKeys entries
  | other => [other]

def Value.leavesOfAll : List Value → List Value
  | [] => []
  | item :: items => item.leaves ++ leavesOfAll items

def Value.leavesOfKeys : List (Value × Value) → List Value
  | [] => []
  | (key, _) :: entries => key.leaves ++ leavesOfKeys entries

end

namespace Session

/-- The entries of an order: those of a list, or the one that is given. -/
def ordered : Value → List Value
  | .list _ items => items
  | value => [value]

/-- A value, unless it is left out. -/
def unlessNull : Value → List Value
  | .null => []
  | value => [value]

/-- The calls on queries that go through several entries. What is left of a limit and a bad offset is the limit. -/
def severalInQuery? (name : Text) (arguments : Arguments) : Option SeveralCall :=
  if name = "order_by" ∨ name = "add_order_by" then
    some ⟨ordered (arguments.get "field"), fun front => some (name, [.list 0 front, arguments.get "direction"])⟩
  else if name = "limit_and_offset" then
    some ⟨arguments.get "limit" :: unlessNull (arguments.get "offset"), fun
      | [] => none
      | [limit] => some ("limit", [limit])
      | both => some (name, both)⟩
  else if name = "add_many" then
    (arguments.get "members").items.toOption.map (⟨·, fun front => some (name, [.list 0 front])⟩)
  else if name = "add_many_of_type" then
    (arguments.get "queries").items.toOption.map (⟨·, fun front => some (name, [.list 0 front, arguments.get "operator"])⟩)
  else none

/-- The calls on an object that go through several entries. -/
def severalCall? (object : Object) (name : Text) (arguments : Arguments) : Option SeveralCall :=
  match object with
  | .query _ => severalInQuery? name arguments
  | .chain _ =>
    if name = "join_statements" then
      (arguments.get "statements").items.toOption.map (⟨·, fun front => some (name, [.list 0 front, arguments.get "kind"])⟩)
    else none
  | .ctes _ =>
    if name = "add" then some ⟨arguments.rest.flatMap Value.leaves, fun front => some (name, front)⟩
    else none
  | _ => none

/-- The methods that configure a query. -/
def configuringQueries : List Text :=
  (compoundEdits ++ settingEdits ++ clauseEdits ++ writingEdits).map (·.1)

/-- The methods that configure an object. -/
def configuring : Object → List Text
  | .chain _ => chainEdits.map (·.1) ++ [("join_statements" : Text)]
  | .query _ => configuringQueries
  | .cte _ => ["as_", "recursive", "with_query"]
  | .ctes _ => cteSetEdits.map (·.1)
  | .column _ => columnEdits.map (·.1)
  | .table _ => tableEdits.map (·.1)
  | .queryMaker _ | .tableMaker _ => []

open Act

/-! ### Several changes -/

section Several

variable {methods : Methods (Act Outcome)} {session after : Session} {error : Error} {name : Text} {values : List Value}

theorem again_eq {method : Method (Act Outcome)} (arguments : Arguments) (found : methods.lookup name = some method)
    (bound : method.signature.bind values [] = .ok arguments) : methods.again (some (name, values)) = method.run arguments := by
  simp only [Methods.again, Methods.call, found, bound]
  rfl

/-- A method that goes through entries leaves, if it fails, what it leaves on those in front of the bad one. -/
theorem remains {opening : Act Unit} {step : Value → Act Unit} {several : SeveralCall} {opened : Session}
    (harmless : ∀ entry ∈ several.entries, Harmless (step entry)) (start : opening.Runs session (.ok ()) opened)
    (goes : ∀ front outcome after, (do opening; front.forM step; return Outcome.itself).Runs session outcome after →
      (methods.again (several.on front)).Runs session outcome after)
    (run : (do opening; several.entries.forM step; return Outcome.itself).Runs session (.error error) after) :
    session.Remains methods error after (some several) := by
  obtain ⟨front, entry, back, between, failed, parts, done, same, last⟩ := stops harmless start run
  exact ⟨front, entry, back, between, failed, parts, goes _ _ _ done, same, goes _ _ _ last⟩

end Several

section Queries

variable {label : Label} {query : Query} {session after : Session} {error : Error} {arguments : Arguments}

/-- Adds one entry to an order. -/
def addOrder (label : Label) (direction entry : Value) : Act Unit := do
  editStatement label (← (do return .order (← OrderBy.ofEntry direction entry) : Act Statement.Edit))

theorem harmless_addOrder (label : Label) (direction entry : Value) : Harmless (addOrder label direction entry) := by
  have reads : Reads (do return .order (← OrderBy.ofEntry direction entry) : Act Statement.Edit) fun _ => True :=
    reads_after fun _ _ => reads_pure trivial
  exact reads.harmless_bind (harmless_editStatement label)

theorem orderEntries_eq (arguments : Arguments) : orderEntries arguments = (ordered (arguments.get "field")).map
    fun value => do return .order (← OrderBy.ofEntry (arguments.get "direction") value) := by
  unfold orderEntries
  dsimp only
  generalize arguments.get "field" = field
  cases field <;> rfl

theorem makeAll_orders (label : Label) (arguments : Arguments) : (⟨pure (orderEntries arguments)⟩ : Changes Statement.Edit).makeAll
    (editStatement label) = (ordered (arguments.get "field")).forM (addOrder label (arguments.get "direction")) := by
  rw [orderEntries_eq]
  exact makeAll_map _ _ _

variable {methods : Methods (Act Outcome)} {method : Method (Act Outcome)} {name : Text}

theorem remains_orders (label : Label) {opening : Act Unit} {opened : Session} (given : name = "order_by" ∨ name = "add_order_by")
    (found : methods.lookup name = some method) (signature : method.signature = withDirection)
    (goes : ∀ arguments, method.run arguments = (do
      opening
      (ordered (arguments.get "field")).forM (addOrder label (arguments.get "direction"))
      return .itself))
    (start : opening.Runs session (.ok ()) opened) (run : (method.run arguments).Runs session (.error error) after) :
    session.Remains methods error after (severalInQuery? name arguments) := by
  rw [severalInQuery?, if_pos given]
  rw [goes] at run
  refine remains (fun entry _ => harmless_addOrder _ _ entry) start (fun front outcome after done => ?_) run
  have bound : method.signature.bind [.list 0 front, arguments.get "direction"] [] = .ok
      ⟨[("field", .list 0 front), ("direction", arguments.get "direction"), ("direction", .text "ASC")], []⟩ := by
    rw [signature]
    rfl
  rw [again_eq _ found bound, goes]
  exact done

theorem remains_items {parameter : Text} {step : Value → Act Unit} {on : List Value → Option (Text × List Value)}
    (harmless : ∀ entry, Harmless (step entry)) (goes : ∀ list, methods.again (on list) = (do list.forM step; return Outcome.itself))
    (run : (do (← (liftM (arguments.get parameter).items : Act (List Value))).forM step; return Outcome.itself).Runs session
      (.error error) after) :
    session.Remains methods error after ((arguments.get parameter).items.toOption.map (⟨·, on⟩)) := by
  cases given : (arguments.get parameter).items with
  | error _ =>
    rw [given] at run
    exact (runs_throw.mp run).2 ▸ .refl _
  | ok list =>
    rw [given, lift_ok_bind] at run
    have start : (pure () : Act Unit).Runs session (.ok ()) session := runs_pure.mpr ⟨rfl, rfl⟩
    refine remains (fun entry _ => harmless entry) start (fun front outcome after done => ?_) run
    rw [goes]
    exact done

/-- Makes one change that is read when its turn comes. -/
def makeRead (label : Label) (change : Act Statement.Edit) : Act Unit := do
  editStatement label (← change)

theorem harmless_limit (label : Label) (count : Value) : Harmless (makeRead label (limitTo count)) := by
  have reads : Reads (limitTo count) fun _ => True := reads_after fun _ _ => reads_pure trivial
  exact reads.harmless_bind (harmless_editStatement label)

theorem harmless_offset (label : Label) (count : Value) : Harmless (makeRead label (startAfter count)) := by
  have reads : Reads (startAfter count) fun _ => True := reads_after fun _ _ => reads_pure trivial
  exact reads.harmless_bind (harmless_editStatement label)

theorem makeAll_cons (label : Label) (edit : Statement.Edit) (rest : List (Act Statement.Edit)) :
    (⟨pure (pure edit :: rest)⟩ : Changes Statement.Edit).makeAll (editStatement label) =
      (do editStatement label edit; (⟨pure rest⟩ : Changes Statement.Edit).makeAll (editStatement label)) := by
  unfold Changes.makeAll
  rw [pure_bind, pure_bind]
  change (do editStatement label (← pure edit); rest.forM fun change => do editStatement label (← change)) = _
  rw [pure_bind]

theorem makeAll_one (label : Label) (change : Act Statement.Edit) :
    (Changes.one change).makeAll (editStatement label) = makeRead label change := by
  unfold Changes.makeAll Changes.one
  rw [pure_bind]
  change (makeRead label change >>= fun _ => pure ()) = _
  exact bind_pure_unit

theorem makeAll_paging (label : Label) (arguments : Arguments) :
    (⟨pure (limitAndOffset arguments)⟩ : Changes Statement.Edit).makeAll (editStatement label) = (do
      makeRead label (limitTo (arguments.get "limit"))
      (unlessNull (arguments.get "offset")).forM fun offset => makeRead label (startAfter offset)) := by
  unfold Changes.makeAll limitAndOffset
  rw [pure_bind]
  generalize arguments.get "offset" = offset
  cases offset <;> rfl

theorem unlessNull_parts {value item : Value} {front back : List Value} (parts : unlessNull value = front ++ item :: back) :
    front = [] ∧ item = value ∧ unlessNull value = [value] := by
  cases value with
  | null => simp [unlessNull] at parts
  | _ =>
    obtain ⟨rfl, same⟩ | ⟨_, _, same⟩ := List.cons_eq_append_iff.mp parts
    · exact ⟨rfl, (List.cons.inj same).1, rfl⟩
    · simp at same

/-- A bad limit changes nothing, and of a bad offset the limit is left. -/
theorem remains_paging {paging limiting : Method (Act Outcome)} (found : methods.lookup ("limit_and_offset" : Text) = some paging)
    (foundLimit : methods.lookup ("limit" : Text) = some limiting) (signature : paging.signature = .plain ["limit"] [("offset", .null)])
    (signatureLimit : limiting.signature = .plain ["count"] [])
    (goes : ∀ arguments, paging.run arguments = (do
      makeRead label (limitTo (arguments.get "limit"))
      (unlessNull (arguments.get "offset")).forM fun offset => makeRead label (startAfter offset)
      return .itself))
    (goesLimit : ∀ arguments, limiting.run arguments = (do
      makeRead label (limitTo (arguments.get "count"))
      return .itself))
    (run : (paging.run arguments).Runs session (.error error) after) :
    session.Remains methods error after (severalInQuery? "limit_and_offset" arguments) := by
  have limit (count : Value) : methods.again (some ("limit", [count])) = (do makeRead label (limitTo count); return .itself) := by
    rw [again_eq _ foundLimit (by rw [signatureLimit]; rfl), goesLimit]
    rfl
  rw [goes] at run
  obtain ⟨_, between, limited, rest⟩ | ⟨_, failed, ⟨⟩⟩ := run.bind
  · obtain ⟨_, _, _, last⟩ | ⟨_, stopped, ⟨⟩⟩ := rest.bind
    · exact absurd last pure_sure
    · obtain ⟨front, offset, _, _, parts, before, failed⟩ := forM_failed stopped
      obtain ⟨rfl, rfl, alone⟩ := unlessNull_parts parts
      obtain ⟨-, rfl⟩ := runs_pure.mp before
      refine ⟨[arguments.get "limit"], arguments.get "offset", [], _, after, congrArg _ alone, ?_, harmless_offset _ _ _ _ _ failed, ?_⟩
      · exact (limit _).symm ▸ limited.andThen (runs_pure.mpr ⟨rfl, rfl⟩)
      · change (methods.again (some ("limit_and_offset", [arguments.get "limit", arguments.get "offset"]))).Runs session _ after
        have bound : paging.signature.bind [arguments.get "limit", arguments.get "offset"] [] = .ok
            ⟨[("limit", arguments.get "limit"), ("offset", arguments.get "offset"), ("offset", .null)], []⟩ := by
          rw [signature]
          rfl
        rw [again_eq _ found bound, goes]
        exact limited.andThen stopped.orFail
  · exact ⟨[], arguments.get "limit", _, session, after, rfl, runs_pure.mpr ⟨rfl, rfl⟩, harmless_limit _ _ _ _ _ failed, by
      rw [List.nil_append]
      exact (limit _).symm ▸ failed.orFail⟩

/-- No method that gives a result is one that configures. -/
private theorem results_other : ∀ name ∈ (["build", "build_explain", "clone", "use_statement", "use_having_statement", "union",
    "union_all", "raw_union"] : List Text), name ∉ configuringQueries := by
  decide

theorem queryMethods_harmless : ∀ entry ∈ queryMethods label query, entry.1 ∈ configuringQueries → entry.1 ∉ severalEntries →
    ∀ arguments, Harmless (entry.2.run arguments) := by
  have edits : ∀ arguments, ∀ entry ∈ settingEdits ++ clauseEdits ++ writingEdits, ReadsEdits arguments entry := fun arguments =>
    List.forall_mem_append.mpr ⟨List.forall_mem_append.mpr ⟨settingEdits_read arguments, clauseEdits_read arguments⟩,
      writingEdits_read arguments⟩
  have changes {methods : Methods (Changes Statement.Edit)} (read : ∀ arguments, ∀ entry ∈ methods, ReadsEdits arguments entry) :
      ∀ entry ∈ methods.changing (editStatement label), entry.1 ∈ configuringQueries → entry.1 ∉ severalEntries →
        ∀ arguments, Harmless (entry.2.run arguments) :=
    fun entry member _ => harmless_changing (· ∉ severalEntries) (fun name edit => name ∉ settingDefaults → edit.keepsDefaults = true)
      (harmless_editStatement label) read entry member
  have others {entries : Methods (Act Outcome)} (names : ∀ entry ∈ entries, entry.1 ∉ configuringQueries) :
      ∀ entry ∈ entries, entry.1 ∈ configuringQueries → entry.1 ∉ severalEntries → ∀ arguments, Harmless (entry.2.run arguments) :=
    fun entry member named => absurd named (names entry member)
  have results : ∀ entry ∈ queryResults query, entry.1 ∉ configuringQueries := by
    simp only [queryResults, List.forall_mem_cons]
    exact ⟨results_other _ (by simp), results_other _ (by simp), results_other _ (by simp), List.forall_mem_nil _⟩
  have populated : ∀ entry ∈ populatingResults query.statement, entry.1 ∉ configuringQueries := by
    refine List.forall_mem_append.mpr ⟨?_, ?_⟩
    all_goals
      split
      · exact List.forall_mem_singleton.mpr (results_other _ (by simp))
      · exact List.forall_mem_nil _
  have united : ∀ entry ∈ selectResults query, entry.1 ∉ configuringQueries :=
    List.forall_mem_cons.mpr ⟨results_other _ (by simp), List.forall_mem_singleton.mpr (results_other _ (by simp))⟩
  have shared := changes fun arguments => forall_mem_sharedEdits (edits arguments) query.statement
  have common := List.forall_mem_append.mpr ⟨List.forall_mem_append.mpr ⟨shared, others results⟩, others populated⟩
  unfold queryMethods
  split
  · exact List.forall_mem_append.mpr ⟨List.forall_mem_append.mpr ⟨changes compoundEdits_read,
      others (List.forall_mem_singleton.mpr (results_other _ (by simp)))⟩, common⟩
  · exact List.forall_mem_append.mpr ⟨others united, common⟩
  · exact common

theorem runs_noOrder {compound : Compound Query} (shown : session.object? label = some (.query (.of (.compound compound)))) :
    ∃ opened, (editStatement label .noOrder).Runs session (.ok ()) opened :=
  ⟨_, (runs_object shown).andThen ((runs_build.mpr ⟨_, rfl, rfl⟩).andThen ((runs_put.mpr ⟨rfl, rfl⟩).andThen (runs_pure.mpr ⟨rfl, rfl⟩)))⟩

private theorem remains_orderBy (shown : session.object? label = some (.query query))
    (found : (queryMethods label query).lookup ("order_by" : Text) = some method)
    (run : (method.run arguments).Runs session (.error error) after) :
    session.Remains (queryMethods label query) error after (severalInQuery? "order_by" arguments) := by
  obtain ⟨statement⟩ := query
  cases statement with
  | compound compound =>
    obtain rfl : _ = method := Option.some.inj found
    obtain ⟨opened, start⟩ := runs_noOrder shown
    refine remains_orders label (.inl rfl) found rfl (fun arguments => ?_) start run
    change (do
      (⟨pure (pure .noOrder :: orderEntries arguments)⟩ : Changes Statement.Edit).makeAll (editStatement label)
      return Outcome.itself) = _
    rw [← makeAll_orders, makeAll_cons, bind_assoc]
  | select select =>
    obtain rfl : _ = method := Option.some.inj found
    have start : (pure () : Act Unit).Runs session (.ok ()) session := runs_pure.mpr ⟨rfl, rfl⟩
    refine remains_orders label (.inl rfl) found rfl (fun arguments => ?_) start run
    rw [← makeAll_orders]
    rfl
  | _ => cases (show none = some method from found)

private theorem remains_addOrderBy (found : (queryMethods label query).lookup ("add_order_by" : Text) = some method)
    (run : (method.run arguments).Runs session (.error error) after) :
    session.Remains (queryMethods label query) error after (severalInQuery? "add_order_by" arguments) := by
  have unshared := (lookup_unshared label query (by decide)).symm.trans found
  obtain ⟨statement⟩ := query
  cases statement with
  | compound compound =>
    obtain rfl : _ = method := Option.some.inj found
    have start : (pure () : Act Unit).Runs session (.ok ()) session := runs_pure.mpr ⟨rfl, rfl⟩
    refine remains_orders label (.inr rfl) found rfl (fun arguments => ?_) start run
    rw [← makeAll_orders]
    rfl
  | _ => cases unshared

private theorem remains_limitAndOffset (found : (queryMethods label query).lookup ("limit_and_offset" : Text) = some method)
    (run : (method.run arguments).Runs session (.error error) after) :
    session.Remains (queryMethods label query) error after (severalInQuery? "limit_and_offset" arguments) := by
  have goes (arguments : Arguments) : (do
      (⟨pure (limitAndOffset arguments)⟩ : Changes Statement.Edit).makeAll (editStatement label)
      return Outcome.itself) = (do
      makeRead label (limitTo (arguments.get "limit"))
      (unlessNull (arguments.get "offset")).forM fun offset => makeRead label (startAfter offset)
      return .itself) := by
    rw [makeAll_paging, bind_assoc]
  have goesLimit (arguments : Arguments) : (do
      (Changes.one (limitTo (arguments.get "count"))).makeAll (editStatement label)
      return Outcome.itself) = (do
      makeRead label (limitTo (arguments.get "count"))
      return .itself) := by
    rw [makeAll_one]
  obtain ⟨statement⟩ := query
  cases statement with
  | select _ =>
    obtain rfl : _ = method := Option.some.inj found
    exact remains_paging found rfl rfl rfl goes goesLimit run
  | compound _ =>
    obtain rfl : _ = method := Option.some.inj found
    exact remains_paging found rfl rfl rfl goes goesLimit run
  | _ => cases (show none = some method from found)

/-- Changes for the items of something are made as the items are gone through. -/
theorem makeAll_items (label : Label) (read : Value → Act Statement.Edit) (items : Except Error (List Value)) :
    (do
      (⟨do return (← items).map read⟩ : Changes Statement.Edit).makeAll (editStatement label)
      return Outcome.itself) = (do
      (← (liftM items : Act (List Value))).forM fun item => makeRead label (read item)
      return .itself) := by
  cases items with
  | error _ => rfl
  | ok list =>
    change (do
      (⟨pure (list.map read)⟩ : Changes Statement.Edit).makeAll (editStatement label)
      return Outcome.itself) = _
    rw [makeAll_map]
    rfl

theorem harmless_makeRead {change : Act Statement.Edit} (reads : Reads change fun edit => edit.keepsDefaults = true) :
    Harmless (makeRead label change) :=
  reads.harmless_bind (harmless_editStatement label)

private theorem remains_addMany (found : (queryMethods label query).lookup ("add_many" : Text) = some method)
    (run : (method.run arguments).Runs session (.error error) after) :
    session.Remains (queryMethods label query) error after (severalInQuery? "add_many" arguments) := by
  have unshared := (lookup_unshared label query (by decide)).symm.trans found
  obtain ⟨statement⟩ := query
  cases statement with
  | compound compound =>
    obtain rfl : _ = method := Option.some.inj found
    have goes (list : List Value) : (queryMethods label (.of (.compound compound))).again (some ("add_many", [.list 0 list])) = (do
        list.forM fun item => makeRead label (memberEntry item)
        return .itself) :=
      (again_eq ⟨[("members", .list 0 list)], []⟩ found rfl).trans (makeAll_items label memberEntry (.ok list))
    exact remains_items (fun item => harmless_makeRead (memberEntry_reads item)) goes
      (makeAll_items label memberEntry _ ▸ run)
  | _ => cases unshared

private theorem remains_addManyOfType (found : (queryMethods label query).lookup ("add_many_of_type" : Text) = some method)
    (run : (method.run arguments).Runs session (.error error) after) :
    session.Remains (queryMethods label query) error after (severalInQuery? "add_many_of_type" arguments) := by
  have unshared := (lookup_unshared label query (by decide)).symm.trans found
  obtain ⟨statement⟩ := query
  cases statement with
  | compound compound =>
    obtain rfl : _ = method := Option.some.inj found
    have goes (list : List Value) : (queryMethods label (.of (.compound compound))).again
        (some ("add_many_of_type", [.list 0 list, arguments.get "operator"])) = (do
        list.forM fun item => makeRead label (memberEdit item (arguments.get "operator"))
        return .itself) :=
      (again_eq ⟨[("queries", .list 0 list), ("operator", arguments.get "operator"), ("operator", unionAll)], []⟩ found rfl).trans
        (makeAll_items label (memberEdit · (arguments.get "operator")) (.ok list))
    exact remains_items (fun item => harmless_makeRead (memberEdit_reads item _)) goes
      (makeAll_items label (memberEdit · (arguments.get "operator")) _ ▸ run)
  | _ => cases unshared

/-- What a failed call of a configuring method leaves of a query. -/
theorem remains_query {name : Text} (shown : session.object? label = some (.query query))
    (found : (queryMethods label query).lookup name = some method) (configures : name ∈ configuringQueries)
    (run : (method.run arguments).Runs session (.error error) after) :
    session.Remains (queryMethods label query) error after (severalInQuery? name arguments) := by
  by_cases several : name ∈ severalEntries
  · obtain rfl | rfl | rfl | rfl | rfl : name = "order_by" ∨ name = "add_order_by" ∨ name = "limit_and_offset" ∨ name = "add_many" ∨
        name = "add_many_of_type" := by
      simpa only [severalEntries, List.mem_cons, List.not_mem_nil, or_false] using several
    · exact remains_orderBy shown found run
    · exact remains_addOrderBy found run
    · exact remains_limitAndOffset found run
    · exact remains_addMany found run
    · exact remains_addManyOfType found run
  · have none : severalInQuery? name arguments = none := by
      obtain ⟨orderBy, addOrderBy, both, many, typed⟩ : name ≠ "order_by" ∧ name ≠ "add_order_by" ∧ name ≠ "limit_and_offset" ∧
          name ≠ "add_many" ∧ name ≠ "add_many_of_type" := by
        simpa only [severalEntries, List.mem_cons, List.not_mem_nil, or_false, not_or] using several
      rw [severalInQuery?, if_neg (not_or.mpr ⟨orderBy, addOrderBy⟩), if_neg both, if_neg many, if_neg typed]
    rw [none]
    exact queryMethods_harmless _ (mem_of_lookup found) configures several arguments _ _ _ run

end Queries

/-! ### Chains and other objects -/

section Others

variable {label : Label} {session after : Session} {error : Error} {arguments : Arguments} {method : Method (Act Outcome)} {name : Text}

/-- Links one of several statements. -/
def linkStatement (label : Label) (word value : Value) : Act Unit := do
  match ← statementLink? word value with
  | none => return ()
  | some edit => editChain label edit

theorem reads_statementLink (word value : Value) : Reads (statementLink? word value) fun _ => True :=
  (reads_object? value).bind fun found _ => by
    split
    · exact reads_pure trivial
    · exact reads_throw _
    · split
      · exact reads_pure trivial
      · exact reads_throw _

theorem harmless_linkStatement (word value : Value) : Harmless (linkStatement label word value) :=
  (reads_statementLink word value).harmless_bind fun edit => by
    cases edit with
    | none => exact fun _ _ _ run => absurd run pure_sure
    | some edit => exact harmless_editChain label edit

private theorem chainResults_other : ∀ name ∈ (["build", "render", "to_predicate", "clone"] : List Text),
    name ∉ chainEdits.map (·.1) ++ [("join_statements" : Text)] := by
  decide

theorem remains_chain {chain : Chain} (found : (chainMethods label chain).lookup name = some method)
    (configures : name ∈ configuring (.chain chain)) (run : (method.run arguments).Runs session (.error error) after) :
    session.Remains (chainMethods label chain) error after (severalCall? (.chain chain) name arguments) := by
  by_cases joins : name = "join_statements"
  · subst joins
    obtain rfl : _ = method := Option.some.inj found
    have goes (list : List Value) : (chainMethods label chain).again (some ("join_statements", [.list 0 list, arguments.get "kind"])) = (do
        list.forM (linkStatement label (arguments.get "kind"))
        return .itself) :=
      again_eq ⟨[("statements", .list 0 list), ("kind", arguments.get "kind"), ("kind", .text "AND")], []⟩ found rfl
    exact remains_items (harmless_linkStatement _) goes run
  · rw [severalCall?, if_neg joins]
    by_cases words : name = "search.word_by_word"
    · subst words
      obtain rfl : _ = method := Option.some.inj found
      exact harmless_words label _ _ _ _ run
    · obtain edit | result := List.mem_append.mp (mem_of_lookup found)
      · exact harmless_changing (· ≠ "search.word_by_word") (fun _ _ => True) (harmless_editChain label) chainEdits_read _ edit words
          arguments _ _ _ run
      · have others : ∀ entry ∈ chainResults label chain, entry.1 = "join_statements" ∨ entry.1 ∉ configuring (.chain chain) := by
          simp only [chainResults, List.forall_mem_cons]
          exact ⟨.inl trivial, .inr (chainResults_other _ (by simp)), .inr (chainResults_other _ (by simp)),
            .inr (chainResults_other _ (by simp)), .inr (chainResults_other _ (by simp)), List.forall_mem_nil _⟩
        exact absurd configures ((others _ result).resolve_left joins)

theorem remains_cte {cte : Cte Query} (found : (cteMethods label cte).lookup name = some method)
    (configures : name ∈ configuring (.cte cte)) (run : (method.run arguments).Runs session (.error error) after) :
    session.SameState after := by
  have harmless : ∀ entry ∈ cteMethods label cte, entry.1 ∈ configuring (.cte cte) → Harmless (entry.2.run arguments) := by
    have names : ∀ name ∈ (["build", "clone"] : List Text), name ∉ (["as_", "recursive", "with_query"] : List Text) := by
      decide
    simp only [cteMethods, List.forall_mem_cons]
    exact ⟨fun _ => harmless_changeCte label _, fun _ => harmless_changeCte label _,
      fun _ => (reads_query _).harmless_bind fun _ => harmless_changeCte label _, fun named => absurd named (names _ (by simp)),
      fun named => absurd named (names _ (by simp)), List.forall_mem_nil _⟩
  exact harmless _ (mem_of_lookup found) configures _ _ _ run

theorem remains_column {column : Column} (found : (columnMethods label column).lookup name = some method)
    (configures : name ∈ configuring (.column column)) (run : (method.run arguments).Runs session (.error error) after) :
    session.SameState after := by
  obtain edit | result := List.mem_append.mp (mem_of_lookup found)
  · exact harmless_changing (fun _ => True) (fun _ _ => True) (harmless_editColumn label) columnEdits_read _ edit trivial arguments _ _ _ run
  · have others : ∀ entry ∈ columnResults column, entry.1 ∉ configuring (.column column) := by
      have names : ∀ name ∈ (["build", "build_to_add", "build_to_alter", "clone"] : List Text), name ∉ columnEdits.map (·.1) := by
        decide
      simp only [columnResults, List.forall_mem_cons]
      exact ⟨names _ (by simp), names _ (by simp), names _ (by simp), names _ (by simp), List.forall_mem_nil _⟩
    exact absurd configures (others _ result)

theorem remains_table {statement : TableStatement Value} (found : (tableMethods label statement).lookup name = some method)
    (configures : name ∈ configuring (.table statement)) (run : (method.run arguments).Runs session (.error error) after) :
    session.SameState after := by
  obtain edit | result := List.mem_append.mp (mem_of_lookup found)
  · exact harmless_changing (fun _ => True) (fun _ _ => True) (harmless_editTable label) tableEdits_read _ edit trivial arguments _ _ _ run
  · have others : ∀ entry ∈ tableResults statement, entry.1 ∉ configuring (.table statement) := by
      have names : ∀ name ∈ (["build", "clone"] : List Text), name ∉ tableEdits.map (·.1) := by
        decide
      simp only [tableResults, List.forall_mem_cons]
      exact ⟨names _ (by simp), names _ (by simp), List.forall_mem_nil _⟩
    exact absurd configures (others _ result)

mutual

/-- The expressions in a value are those in its leaves. -/
theorem cteEntries_leaves (objectAt : Label → Option Object) (value : Value) :
    cteEntries objectAt value = value.leaves.flatMap (cteEntries objectAt) := by
  cases value with
  | list _ items | tuple _ items => rw [cteEntries, Value.leaves, cteEntriesOfAll_leaves objectAt items]
  | dict _ entries => rw [cteEntries, Value.leaves, cteEntriesOfKeys_leaves objectAt entries]
  | record _ kind fields =>
    cases kind with
    | builtQuery | rendered => rw [cteEntries, Value.leaves, cteEntriesOfAll_leaves objectAt fields]
    | _ => simp [Value.leaves]
  | _ => simp [Value.leaves]

theorem cteEntriesOfAll_leaves (objectAt : Label → Option Object) (items : List Value) :
    cteEntriesOfAll objectAt items = (Value.leavesOfAll items).flatMap (cteEntries objectAt) := by
  cases items with
  | nil => rfl
  | cons item items =>
    rw [cteEntriesOfAll, Value.leavesOfAll, List.flatMap_append, ← cteEntries_leaves objectAt item,
      ← cteEntriesOfAll_leaves objectAt items]

theorem cteEntriesOfKeys_leaves (objectAt : Label → Option Object) (entries : List (Value × Value)) :
    cteEntriesOfKeys objectAt entries = (Value.leavesOfKeys entries).flatMap (cteEntries objectAt) := by
  match entries with
  | [] => rfl
  | (key, _) :: entries =>
    rw [cteEntriesOfKeys, Value.leavesOfKeys, List.flatMap_append, ← cteEntries_leaves objectAt key,
      ← cteEntriesOfKeys_leaves objectAt entries]

end

private theorem length_textEntries (text : Text) : (textEntries text).length ≤ 1 := by
  unfold textEntries
  split
  · exact Nat.zero_le 1
  · exact le_rfl

mutual

/-- A leaf is one expression, or none, or no expression at all. -/
theorem length_of_leaf (objectAt : Label → Option Object) (value : Value) :
    ∀ leaf ∈ value.leaves, (cteEntries objectAt leaf).length ≤ 1 := by
  cases value with
  | list _ items | tuple _ items => exact length_of_leafAll objectAt items
  | dict _ entries => exact length_of_leafKeys objectAt entries
  | record label kind fields =>
    cases kind with
    | builtQuery | rendered => exact length_of_leafAll objectAt fields
    | _ => exact List.forall_mem_singleton.mpr le_rfl
  | object label face =>
    refine List.forall_mem_singleton.mpr ?_
    rw [cteEntries]
    split <;> exact le_rfl
  | text t | entry t => exact List.forall_mem_singleton.mpr (length_textEntries _)
  | _ =>
    refine List.forall_mem_singleton.mpr ?_
    unfold cteEntries
    split
    · exact Nat.zero_le 1
    · exact le_rfl

theorem length_of_leafAll (objectAt : Label → Option Object) (items : List Value) :
    ∀ leaf ∈ Value.leavesOfAll items, (cteEntries objectAt leaf).length ≤ 1 := by
  match items with
  | [] => exact List.forall_mem_nil _
  | item :: items => exact List.forall_mem_append.mpr ⟨length_of_leaf objectAt item, length_of_leafAll objectAt items⟩

theorem length_of_leafKeys (objectAt : Label → Option Object) (entries : List (Value × Value)) :
    ∀ leaf ∈ Value.leavesOfKeys entries, (cteEntries objectAt leaf).length ≤ 1 := by
  match entries with
  | [] => exact List.forall_mem_nil _
  | (key, _) :: entries => exact List.forall_mem_append.mpr ⟨length_of_leaf objectAt key, length_of_leafKeys objectAt entries⟩

end

/-- Adds the expressions of a leaf, as a session shows them. -/
def addLeaf (label : Label) (objectAt : Label → Option Object) (leaf : Value) : Act Unit :=
  (cteEntries objectAt leaf).forM fun entry => do addCte label (← (liftM entry : Act (Cte Query)))

theorem harmless_addLeaf {objectAt : Label → Option Object} {leaf : Value} (single : (cteEntries objectAt leaf).length ≤ 1) :
    Harmless (addLeaf label objectAt leaf) := by
  have add (entry : Except Error (Cte Query)) : Harmless (do addCte label (← (liftM entry : Act (Cte Query)))) := by
    have reads : Reads (liftM entry : Act (Cte Query)) fun _ => True := reads_lift fun _ _ => trivial
    exact reads.harmless_bind (harmless_addCte label)
  unfold addLeaf
  match cteEntries objectAt leaf, single with
  | [], _ => exact fun _ _ _ run => absurd run pure_sure
  | [entry], _ => exact (add entry).andThen fun _ _ _ _ run => pure_sure run

theorem forM_flatMap {α β : Type} (items : List α) (f : α → List β) (g : β → Act Unit) :
    (items.flatMap f).forM g = items.forM fun item => (f item).forM g := by
  induction items with
  | nil => rfl
  | cons item items ih =>
    have parts : (f item ++ items.flatMap f).forM g = (do (f item).forM g; (items.flatMap f).forM g) := List.forM_append
    rw [List.flatMap_cons, parts, ih]
    rfl

/-- The expressions are read in the beginning, and added leaf by leaf. -/
theorem runs_addCtes (values : List Value) {outcome : Except Error Outcome} : Act.Runs (do
      (⟨do return (← Act.ctesIn values).map fun entry => (liftM entry : Act (Cte Query))⟩ : Changes (Cte Query)).makeAll (addCte label)
      return Outcome.itself) session outcome after ↔ Act.Runs (do
      values.forM (addLeaf label session.object?)
      return Outcome.itself) session outcome after := by
  have read : (Act.ctesIn values).Runs session (.ok (values.flatMap (cteEntries session.object?))) session :=
    runs_get.andThen (runs_pure.mpr ⟨rfl, rfl⟩)
  have listed : Act.Runs (do return (← Act.ctesIn values).map fun entry => (liftM entry : Act (Cte Query))) session
      (.ok ((values.flatMap (cteEntries session.object?)).map fun entry => (liftM entry : Act (Cte Query)))) session :=
    read.andThen (runs_pure.mpr ⟨rfl, rfl⟩)
  have added : (⟨pure ((values.flatMap (cteEntries session.object?)).map fun entry => (liftM entry : Act (Cte Query)))⟩ :
      Changes (Cte Query)).makeAll (addCte label) = values.forM (addLeaf label session.object?) :=
    (makeAll_map _ _ _).trans (forM_flatMap _ _ _)
  unfold Changes.makeAll at added ⊢
  rw [pure_bind] at added
  rw [bind_assoc, listed.bind_iff, added]

theorem remains_ctes {ctes : List (Cte Query)} (found : (cteSetMethods label ctes).lookup name = some method)
    (configures : name ∈ configuring (.ctes ctes)) (run : (method.run arguments).Runs session (.error error) after) :
    session.Remains (cteSetMethods label ctes) error after (severalCall? (.ctes ctes) name arguments) := by
  by_cases several : name = "add"
  · subst several
    obtain rfl : _ = method := Option.some.inj found
    have start : (pure () : Act Unit).Runs session (.ok ()) session := runs_pure.mpr ⟨rfl, rfl⟩
    have harmless : ∀ leaf ∈ arguments.rest.flatMap Value.leaves, Harmless (addLeaf label session.object? leaf) := by
      intro leaf member
      obtain ⟨value, _, inside⟩ := List.mem_flatMap.mp member
      exact harmless_addLeaf (length_of_leaf _ value leaf inside)
    have leaves : arguments.rest.forM (addLeaf label session.object?) =
        (arguments.rest.flatMap Value.leaves).forM (addLeaf label session.object?) := by
      have each (value : Value) : addLeaf label session.object? value = value.leaves.forM (addLeaf label session.object?) := by
        unfold addLeaf
        rw [← forM_flatMap, ← cteEntries_leaves]
      rw [forM_flatMap]
      exact congrArg _ (funext each)
    have goes (front : List Value) (outcome : Except Error Outcome) (after : Session)
        (done : Act.Runs (do front.forM (addLeaf label session.object?); return Outcome.itself) session outcome after) :
        ((cteSetMethods label ctes).again (some ("add", front))).Runs session outcome after := by
      rw [again_eq ⟨[], front⟩ found (by simp [Signature.bind, Signature.spread, Signature.fits, Signature.inOrder])]
      exact (runs_addCtes front).mpr done
    have done := (runs_addCtes _).mp run
    rw [leaves] at done
    exact remains harmless start goes done
  · rw [severalCall?, if_neg several]
    obtain edit | result := List.mem_append.mp (mem_of_lookup found)
    · exact harmless_changing (· ≠ "add") (fun _ _ => True) (harmless_addCte label) cteSetEdits_read _ edit several arguments _ _ _ run
    · have others : ∀ entry ∈ cteSetResults ctes, entry.1 ∉ configuring (.ctes ctes) := by
        have names : ∀ name ∈ (["build", "clone"] : List Text), name ∉ cteSetEdits.map (·.1) := by
          decide
        simp only [cteSetResults, List.forall_mem_cons]
        exact ⟨names _ (by simp), names _ (by simp), List.forall_mem_nil _⟩
      exact absurd configures (others _ result)

end Others

end Session

end SqlCompose
