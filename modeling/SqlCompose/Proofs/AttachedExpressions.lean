import Mathlib
import SqlCompose.Proofs.FailedMethods
import SqlCompose.Proofs.RepeatedReading

/-!
# Attached expressions

Common table expressions are given to a set in any nest of lists, tuples and dictionaries. What is attached are the expressions among the leaves of the nest, in order, up to the first leaf that is no expression and not empty, at which the call fails.

Such a leaf should be refused as something of the wrong type, and so is all but a text: the characters of a text are texts again, so going through it never ends. Everything else ends, with as many calls open at once as the nest is deep.
-/

namespace SqlCompose

open Act

/-- What comes of going through values: the expressions that were found, and the failure behind them, if there is one. -/
structure Attached where
  found : List (Cte Query)
  failure : Option Error

namespace Attached

def nothing : Attached :=
  ⟨[], none⟩

def one (cte : Cte Query) : Attached :=
  ⟨[cte], none⟩

def failed (error : Error) : Attached :=
  ⟨[], some error⟩

/-- What comes of going on, which is done only if nothing has failed. -/
def andThen (first second : Attached) : Attached :=
  match first.failure with
  | none => ⟨first.found ++ second.found, second.failure⟩
  | some _ => first

def all (parts : List Attached) : Attached :=
  parts.foldr andThen nothing

/-- The failure, or else a result. -/
def outcome {α : Type} (attached : Attached) (result : α) : Except Error α :=
  match attached.failure with
  | none => .ok result
  | some error => .error error

theorem andThen_nothing (attached : Attached) : attached.andThen nothing = attached := by
  obtain ⟨found, _ | error⟩ := attached
  · exact congrArg (Attached.mk · none) found.append_nil
  · rfl

theorem andThen_assoc (first second third : Attached) : (first.andThen second).andThen third = first.andThen (second.andThen third) := by
  obtain ⟨found, _ | error⟩ := first
  · obtain ⟨found', _ | error'⟩ := second
    · simp only [andThen, List.append_assoc]
    · rfl
  · rfl

end Attached

/-! ### Leaves -/

/-- The expression that a value refers to. -/
def Value.expression? (objectAt : Label → Option Object) : Value → Option (Cte Query)
  | .object label _ =>
    match objectAt label with
    | some (.cte c) => some c
    | _ => none
  | _ => none

/-- Whether a leaf stops nothing: it is an expression, or there is nothing in it. -/
def Value.passes (objectAt : Label → Option Object) (leaf : Value) : Bool :=
  (leaf.expression? objectAt).isSome || leaf.items?.any List.isEmpty

/-- How any other leaf is refused. -/
def Value.refusal (leaf : Value) : Error :=
  if leaf.isText then .endlessNesting else .badArgument

/-- The expressions among the leaves in front of the first one that is refused. -/
def attachedOf (objectAt : Label → Option Object) (leaves : List Value) : Attached :=
  ⟨(leaves.takeWhile (Value.passes objectAt)).filterMap (Value.expression? objectAt),
    (leaves.find? fun leaf => !leaf.passes objectAt).map Value.refusal⟩

/-- What comes of attaching values. -/
def attached (objectAt : Label → Option Object) (values : List Value) : Attached :=
  attachedOf objectAt (values.flatMap Value.leaves)

/-- Going through values as a call that calls itself: it keeps an expression, and for anything else it makes a further call with the items of it. Each call takes one place of those that there are for open calls. -/
def goThrough (objectAt : Label → Option Object) : Nat → List Value → Attached
  | 0, _ => .failed .endlessNesting
  | room + 1, values => .all (values.map fun value =>
    match value.expression? objectAt, value.items? with
    | some cte, _ => .one cte
    | none, some items => goThrough objectAt room items
    | none, none => .failed .badArgument)

mutual

/-- How many calls are open at once when a value is gone through. -/
def Value.nesting : Value → Nat
  | .list _ items | .tuple _ items | .record _ .builtQuery items | .record _ .rendered items => nestingOfAll items + 1
  | .dict _ entries => nestingOfKeys entries + 1
  | _ => 1

def Value.nestingOfAll : List Value → Nat
  | [] => 0
  | item :: items => max item.nesting (nestingOfAll items)

def Value.nestingOfKeys : List (Value × Value) → Nat
  | [] => 0
  | (key, _) :: entries => max key.nesting (nestingOfKeys entries)

end

section Leaves

variable {objectAt : Label → Option Object}

theorem attachedOf_cons (leaf : Value) (leaves : List Value) :
    attachedOf objectAt (leaf :: leaves) = (attachedOf objectAt [leaf]).andThen (attachedOf objectAt leaves) := by
  cases passed : leaf.passes objectAt with
  | true =>
    cases found : leaf.expression? objectAt <;>
      simp [attachedOf, Attached.andThen, passed, found]
  | false => simp [attachedOf, Attached.andThen, passed]

theorem attachedOf_append (leaves others : List Value) :
    attachedOf objectAt (leaves ++ others) = (attachedOf objectAt leaves).andThen (attachedOf objectAt others) := by
  induction leaves with
  | nil => rfl
  | cons leaf leaves ih => rw [List.cons_append, attachedOf_cons, ih, attachedOf_cons leaf leaves, Attached.andThen_assoc]

theorem attached_cons (value : Value) (values : List Value) :
    attached objectAt (value :: values) = (attachedOf objectAt value.leaves).andThen (attached objectAt values) :=
  attachedOf_append _ _

theorem leavesOfAll_eq (items : List Value) : Value.leavesOfAll items = items.flatMap Value.leaves := by
  induction items with
  | nil => rfl
  | cons item items ih => rw [Value.leavesOfAll, ih, List.flatMap_cons]

/-! ### Going through -/

theorem goThrough_single (room : Nat) (value : Value) :
    goThrough objectAt (room + 1) [value] =
      match value.expression? objectAt, value.items? with
      | some cte, _ => .one cte
      | none, some items => goThrough objectAt room items
      | none, none => .failed .badArgument :=
  Attached.andThen_nothing _

theorem goThrough_cons (room : Nat) (value : Value) (values : List Value) :
    goThrough objectAt (room + 1) (value :: values) =
      (goThrough objectAt (room + 1) [value]).andThen (goThrough objectAt (room + 1) values) := by
  rw [goThrough_single]
  rfl

/-- With any number of open calls, going through characters ends for want of a further one. -/
theorem goThrough_characters (room : Nat) (c : Char) (values : List Value) :
    goThrough objectAt room (.text [c] :: values) = .failed .endlessNesting := by
  induction room generalizing values with
  | zero => rfl
  | succ room ih =>
    have inner : goThrough objectAt (room + 1) [.text [c]] = .failed .endlessNesting := (goThrough_single room _).trans (ih [])
    rw [goThrough_cons, inner]
    rfl

theorem goThrough_numbers (room : Nat) (n : Int) (values : List Value) :
    goThrough objectAt (room + 1) (.int n :: values) = .failed .badArgument := by
  rw [goThrough_cons, goThrough_single]
  rfl

theorem goThrough_text {room : Nat} (enough : 0 < room) (value : Value) (text : Text) (whole : value.text? = some text)
    (characters : value.items? = some (text.map fun c => .text [c])) (none : value.expression? objectAt = none) :
    goThrough objectAt (room + 1) [value] = attachedOf objectAt [value] := by
  obtain ⟨room, rfl⟩ := Nat.exists_eq_add_one_of_ne_zero enough.ne'
  rw [goThrough_single, none, characters]
  cases text with
  | nil => simp [attachedOf, Value.passes, characters, none, goThrough, Attached.all, Attached.nothing]
  | cons c text =>
    rw [List.map_cons]
    refine (goThrough_characters _ c _).trans ?_
    simp [attachedOf, Value.passes, Value.refusal, Value.isText, characters, none, whole, Attached.failed]

theorem goThrough_flat {room : Nat} (enough : 0 < room) (value : Value) (numbers : List Int) (plain : value.text? = none)
    (items : value.items? = some (numbers.map .int)) (none : value.expression? objectAt = none) :
    goThrough objectAt (room + 1) [value] = attachedOf objectAt [value] := by
  obtain ⟨room, rfl⟩ := Nat.exists_eq_add_one_of_ne_zero enough.ne'
  rw [goThrough_single, none, items]
  cases numbers with
  | nil => simp [attachedOf, Value.passes, items, none, goThrough, Attached.all, Attached.nothing]
  | cons n numbers =>
    rw [List.map_cons]
    refine (goThrough_numbers _ n _).trans ?_
    simp [attachedOf, Value.passes, Value.refusal, Value.isText, items, none, plain, Attached.failed]

theorem goThrough_whole (room : Nat) (value : Value) (plain : value.text? = none) (whole : value.items? = none) :
    goThrough objectAt (room + 1) [value] = attachedOf objectAt [value] := by
  rw [goThrough_single, whole]
  cases found : value.expression? objectAt <;>
    simp [attachedOf, Value.passes, Value.refusal, Value.isText, whole, found, plain, Attached.one, Attached.failed]

mutual

/-- With as many calls as the value is deep, going through it finds its leaves. -/
theorem goThrough_value (room : Nat) : (value : Value) → value.nesting ≤ room →
    goThrough objectAt (room + 1) [value] = attachedOf objectAt value.leaves
  | .list _ items, enough | .tuple _ items, enough => by
    rw [goThrough_single]
    exact goThrough_items room items enough
  | .record label kind fields, enough => by
    cases kind with
    | builtQuery | rendered =>
      rw [goThrough_single]
      exact goThrough_items room fields enough
    | _ => exact goThrough_whole room _ rfl rfl
  | .dict _ entries, enough => by
    rw [goThrough_single]
    exact goThrough_keys room entries enough
  | .text t, enough => goThrough_text enough _ t rfl rfl rfl
  | .entry e, enough => goThrough_text enough _ e.word rfl rfl rfl
  | .bytes content, enough => goThrough_flat enough _ (content.map fun byte => (byte.toNat : Int)) rfl (by simp [Value.items?]) rfl
  | .byteArray _ content, enough => goThrough_flat enough _ (content.map fun byte => (byte.toNat : Int)) rfl (by simp [Value.items?]) rfl
  | .unbindable label kind, enough => by
    cases kind with
    | range => exact goThrough_flat enough _ [0, 1, 2] rfl rfl rfl
    | set => exact goThrough_flat enough _ [1] rfl rfl rfl
    | frozenset => exact goThrough_flat enough _ [] rfl rfl rfl
    | _ => exact goThrough_whole room _ rfl rfl
  | .object _ _, _ | .null, _ | .bool _, _ | .int _, _ | .float _, _ | .floatNaN _, _ | .decimal _, _ | .decimalNaN _ _, _
  | .date _, _ | .dateTime _, _ | .time _, _ | .duration _ _ _, _ | .uuid _, _ => goThrough_whole room _ rfl rfl

theorem goThrough_items (room : Nat) : (items : List Value) → Value.nestingOfAll items < room →
    goThrough objectAt room items = attachedOf objectAt (Value.leavesOfAll items)
  | [], enough => by
    obtain ⟨room, rfl⟩ := Nat.exists_eq_add_one_of_ne_zero enough.ne'
    rfl
  | item :: items, enough => by
    obtain ⟨room, rfl⟩ := Nat.exists_eq_add_one_of_ne_zero (Nat.zero_lt_of_lt enough).ne'
    obtain ⟨first, rest⟩ := max_lt_iff.mp enough
    rw [goThrough_cons, goThrough_value room item (Nat.le_of_lt_succ first), goThrough_items (room + 1) items rest, ← attachedOf_append]
    rfl

theorem goThrough_keys (room : Nat) : (entries : List (Value × Value)) → Value.nestingOfKeys entries < room →
    goThrough objectAt room (entries.map (·.1)) = attachedOf objectAt (Value.leavesOfKeys entries)
  | [], enough => by
    obtain ⟨room, rfl⟩ := Nat.exists_eq_add_one_of_ne_zero enough.ne'
    rfl
  | (key, _) :: entries, enough => by
    obtain ⟨room, rfl⟩ := Nat.exists_eq_add_one_of_ne_zero (Nat.zero_lt_of_lt enough).ne'
    obtain ⟨first, rest⟩ := max_lt_iff.mp enough
    rw [List.map_cons, goThrough_cons, goThrough_value room key (Nat.le_of_lt_succ first), goThrough_keys (room + 1) entries rest,
      ← attachedOf_append]
    rfl

end

/-! ### Entries -/

/-- The expressions in front of the first failure. -/
def Attached.ofEntries (entries : List (Except Error (Cte Query))) : Attached :=
  .all (entries.map fun
    | .ok cte => .one cte
    | .error error => .failed error)

theorem Attached.ofEntries_nil : ofEntries [] = nothing :=
  rfl

theorem Attached.ofEntries_error (error : Error) (entries : List (Except Error (Cte Query))) :
    ofEntries (.error error :: entries) = failed error :=
  rfl

theorem Attached.ofEntries_ok (cte : Cte Query) (entries : List (Except Error (Cte Query))) :
    ofEntries (.ok cte :: entries) = ⟨cte :: (ofEntries entries).found, (ofEntries entries).failure⟩ :=
  rfl

theorem Attached.ofEntries_append (entries others : List (Except Error (Cte Query))) :
    ofEntries (entries ++ others) = (ofEntries entries).andThen (ofEntries others) := by
  induction entries with
  | nil => rfl
  | cons entry entries ih =>
    have parts (entries : List (Except Error (Cte Query))) : ofEntries (entry :: entries) = (ofEntries [entry]).andThen (ofEntries entries) := by
      cases entry <;> rfl
    rw [List.cons_append, parts, ih, parts entries, andThen_assoc]

private theorem entries_text (value : Value) (text : Text) (whole : value.text? = some text)
    (characters : value.items? = some (text.map fun c => .text [c])) (none : value.expression? objectAt = none) :
    .ofEntries (textEntries text) = attachedOf objectAt [value] := by
  cases text <;>
    simp [textEntries, Attached.ofEntries, Attached.all, Attached.andThen, Attached.nothing, Attached.failed, attachedOf, Value.passes,
      Value.refusal, Value.isText, characters, none, whole]

mutual

/-- The entries that are read from a value are its leaves. -/
theorem ofEntries_value : (value : Value) → .ofEntries (cteEntries objectAt value) = attachedOf objectAt value.leaves
  | .list _ items | .tuple _ items => ofEntries_items items
  | .record _ kind fields => by
    cases kind with
    | builtQuery | rendered => exact ofEntries_items fields
    | _ => rfl
  | .dict _ entries => ofEntries_keys entries
  | .text t => entries_text _ t rfl rfl rfl
  | .entry e => entries_text _ e.word rfl rfl rfl
  | .bytes content | .byteArray _ content => by cases content <;> rfl
  | .unbindable _ kind => by cases kind <;> rfl
  | .object label face => by
    have whole : attachedOf objectAt [.object label face] =
        match (Value.object label face).expression? objectAt with
        | some cte => .one cte
        | none => .failed .badArgument := by
      rw [← goThrough_whole 0 _ rfl rfl, goThrough_single]
      cases (Value.object label face).expression? objectAt <;> rfl
    refine Eq.trans ?_ whole.symm
    rw [cteEntries, Value.expression?]
    cases objectAt label with
    | none => rfl
    | some object => cases object <;> rfl
  | .null | .bool _ | .int _ | .float _ | .floatNaN _ | .decimal _ | .decimalNaN _ _
  | .date _ | .dateTime _ | .time _ | .duration _ _ _ | .uuid _ => rfl

theorem ofEntries_items : (items : List Value) →
    .ofEntries (cteEntriesOfAll objectAt items) = attachedOf objectAt (Value.leavesOfAll items)
  | [] => rfl
  | item :: items => by
    rw [cteEntriesOfAll, Attached.ofEntries_append, ofEntries_value item, ofEntries_items items, ← attachedOf_append]
    rfl

theorem ofEntries_keys : (entries : List (Value × Value)) →
    .ofEntries (cteEntriesOfKeys objectAt entries) = attachedOf objectAt (Value.leavesOfKeys entries)
  | [] => rfl
  | (key, _) :: entries => by
    rw [cteEntriesOfKeys, Attached.ofEntries_append, ofEntries_value key, ofEntries_keys entries, ← attachedOf_append]
    rfl

end

theorem ofEntries_values (values : List Value) :
    .ofEntries (values.flatMap (cteEntries objectAt)) = attached objectAt values := by
  induction values with
  | nil => rfl
  | cons value values ih => rw [List.flatMap_cons, Attached.ofEntries_append, ih, ofEntries_value, attached_cons]

theorem allOf_eq (entries : List (Except Error (Cte Query))) :
    allOf entries = (Attached.ofEntries entries).outcome (Attached.ofEntries entries).found := by
  induction entries with
  | nil => rfl
  | cons entry entries ih =>
    cases entry with
    | error error => rfl
    | ok cte =>
      have rest : allOf (.ok cte :: entries) = (allOf entries).map (cte :: ·) := by
        unfold allOf
        rw [List.mapM_cons]
        rfl
      rw [rest, ih, Attached.ofEntries_ok]
      obtain ⟨found, _ | error⟩ := Attached.ofEntries entries <;> rfl

end Leaves

/-! ### Sessions -/

namespace Session

/-- The session shows the object under the label, as its values are now. -/
def Shows (session : Session) (label : Label) (object : Object) : Prop :=
  session.object? label = some (object.mapValues session.current)

/-- Nothing has changed but what is stored under one label. -/
structure OnlyAt (label : Label) (session after : Session) : Prop where
  stored : ∀ other, other ≠ label → after.stored? other = session.stored? other
  rest : after = { session with objects := after.objects }

variable {session after : Session} {label : Label} {ctes : List (Cte Query)}

theorem OnlyAt.refl (label : Label) (session : Session) : OnlyAt label session session :=
  ⟨fun _ _ => rfl, rfl⟩

theorem OnlyAt.trans {between : Session} (first : OnlyAt label session between) (second : OnlyAt label between after) :
    OnlyAt label session after where
  stored other different := (second.stored other different).trans (first.stored other different)
  rest := by
    rw [second.rest, first.rest]

theorem onlyAt_put (session : Session) (label : Label) (object : Object) : OnlyAt label session (session.put label object) where
  stored other different := by rw [stored?_put, if_neg different]
  rest := rfl

theorem shows_put_ctes (session : Session) (label : Label) (ctes : List (Cte Query)) :
    (session.put label (.ctes ctes)).Shows label (.ctes ctes) := by
  unfold Shows object?
  rw [stored?_put, if_pos rfl]
  rfl

theorem Shows.of_object? (shown : session.object? label = some (.ctes ctes)) : session.Shows label (.ctes ctes) := by
  obtain ⟨object, -, same⟩ := Option.map_eq_some_iff.mp shown
  cases object with
  | ctes given =>
    obtain rfl := Object.ctes.inj same
    refine shown.trans (congrArg (some ∘ Object.ctes) ?_)
    rw [List.map_map]
    exact List.map_congr_left fun cte _ => (Cte.mapAllValues_mapAllValues (current_current fun _ => id) cte).symm
  | _ => cases same

/-- One more expression is shown behind the others, and all of them as the values in them are then. -/
theorem runs_addCte (shows : session.Shows label (.ctes ctes)) (cte : Cte Query) :
    ∃ after, (addCte label cte).Runs session (.ok ()) after ∧ after.Shows label (.ctes (ctes ++ [cte])) ∧ OnlyAt label session after := by
  refine ⟨_, (runs_object shows).andThen (runs_put.mpr ⟨rfl, rfl⟩), ?_, onlyAt_put _ _ _⟩
  have grown (other : Label) (there : (session.stored? other).isSome) :
      ((session.put label (.ctes (ctes.map (Cte.mapAllValues session.current) ++ [cte]))).stored? other).isSome := by
    rw [stored?_put]
    split
    · rfl
    · exact there
  refine (shows_put_ctes _ _ _).trans (congrArg (some ∘ Object.ctes) ?_)
  rw [List.map_append, List.map_append, List.map_map]
  refine congrArg (· ++ _) (List.map_congr_left fun given _ => ?_)
  exact Cte.mapAllValues_mapAllValues (current_current grown) given

theorem runs_addEntries (entries : List (Except Error (Cte Query))) (shows : session.Shows label (.ctes ctes)) :
    ∃ after, (entries.forM fun entry => do addCte label (← (liftM entry : Act (Cte Query)))).Runs session
        ((Attached.ofEntries entries).outcome ()) after ∧
      after.Shows label (.ctes (ctes ++ (Attached.ofEntries entries).found)) ∧ OnlyAt label session after := by
  induction entries generalizing session ctes with
  | nil =>
    refine ⟨session, runs_pure.mpr ⟨rfl, rfl⟩, ?_, .refl _ _⟩
    rwa [Attached.ofEntries_nil, Attached.nothing, List.append_nil]
  | cons entry entries ih =>
    cases entry with
    | error error =>
      have failed : (liftM (Except.error error : Except Error (Cte Query)) : Act (Cte Query)).Runs session (.error error) session :=
        runs_lift.mpr ⟨rfl, rfl⟩
      refine ⟨session, failed.orFail.orFail, ?_, .refl _ _⟩
      rwa [Attached.ofEntries_error, Attached.failed, List.append_nil]
    | ok cte =>
      obtain ⟨between, added, shows, only⟩ := runs_addCte shows cte
      obtain ⟨after, run, shows, further⟩ := ih shows
      rw [Attached.ofEntries_ok]
      refine ⟨after, added.andThen run, ?_, only.trans further⟩
      rwa [List.append_assoc] at shows

theorem runs_itself {attached : Attached} {action : Act Unit} (run : action.Runs session (attached.outcome ()) after) :
    (do action; return Outcome.itself : Act Outcome).Runs session (attached.outcome .itself) after := by
  obtain ⟨found, _ | error⟩ := attached
  · exact run.andThen (runs_pure.mpr ⟨rfl, rfl⟩)
  · exact run.orFail

theorem runs_ctesIn (session : Session) (values : List Value) :
    (ctesIn values).Runs session (.ok (values.flatMap (cteEntries session.object?))) session :=
  runs_get.andThen (runs_pure.mpr ⟨rfl, rfl⟩)

/-- The expressions are read in the beginning, and then added one by one. -/
theorem runs_add (shown : session.object? label = some (.ctes ctes)) (values : List Value) :
    ∃ after, ((objectMethods label (.ctes ctes)).call "add" values []).Runs session
        ((attached session.object? values).outcome .itself) after ∧
      after.Shows label (.ctes (ctes ++ (attached session.object? values).found)) ∧ OnlyAt label session after := by
  obtain ⟨after, run, shows, only⟩ := runs_addEntries (values.flatMap (cteEntries session.object?)) (Shows.of_object? shown)
  rw [ofEntries_values] at run shows
  refine ⟨after, ?_, shows, only⟩
  have called : (cteSetMethods label ctes).again (some ("add", values)) = _ :=
    again_eq ⟨[], values⟩ rfl (by simp [Signature.bind, Signature.spread, Signature.fits, Signature.inOrder])
  change ((cteSetMethods label ctes).again (some ("add", values))).Runs _ _ _
  rw [called]
  have listed : Act.Runs (do return (← ctesIn values).map fun entry => (liftM entry : Act (Cte Query))) session
      (.ok ((values.flatMap (cteEntries session.object?)).map fun entry => (liftM entry : Act (Cte Query)))) session :=
    (runs_ctesIn session values).andThen (runs_pure.mpr ⟨rfl, rfl⟩)
  have added := makeAll_map (addCte label) (fun entry => (liftM entry : Act (Cte Query))) (values.flatMap (cteEntries session.object?))
  unfold Changes.makeAll at added
  rw [pure_bind] at added
  exact runs_itself (listed.andThen (added ▸ run))

theorem runs_allOf (session : Session) (values : List Value) :
    (do allOf (← ctesIn values) : Act (List (Cte Query))).Runs session
      ((attached session.object? values).outcome (attached session.object? values).found) session := by
  refine (runs_ctesIn session values).andThen ?_
  rw [allOf_eq, ofEntries_values]
  exact runs_lift.mpr ⟨rfl, rfl⟩

/-- A new set has the expressions that were found, or there is none. -/
theorem runs_newCtes (session : Session) (values : List Value) :
    match (attached session.object? values).failure with
    | some error => (creators.call "CteMaker" values []).Runs session (.error error) session
    | none => ∃ label face after, (creators.call "CteMaker" values []).Runs session (.ok (.value (.object label face))) after ∧
        after.Shows label (.ctes (attached session.object? values).found) := by
  have found : creators.lookup ("CteMaker" : Text) = some newCtes := rfl
  have called : creators.call "CteMaker" values [] = (do allOf (← ctesIn values) : Act (List (Cte Query))) >>= (newResult ∘ Object.ctes) := by
    refine (again_eq ⟨[], values⟩ found (by simp [Signature.bind, Signature.spread, Signature.fits, Signature.inOrder, newCtes])).trans ?_
    rw [bind_assoc]
    rfl
  have read := runs_allOf session values
  rw [called]
  generalize attached session.object? values = result at read ⊢
  obtain ⟨found, _ | error⟩ := result
  · have numbered : (Act.build Build.freshLabel).Runs session (.ok session.trace.nextLabel)
        { session with trace := { session.trace with nextLabel := session.trace.nextLabel + 1 } } := runs_build.mpr ⟨_, rfl, rfl⟩
    have made : (Act.new (.ctes found)).Runs session _ _ :=
      numbered.andThen ((runs_put.mpr ⟨rfl, rfl⟩).andThen (runs_pure.mpr ⟨rfl, rfl⟩))
    exact ⟨_, _, _, read.andThen (made.andThen (runs_pure.mpr ⟨rfl, rfl⟩)), shows_put_ctes _ _ _⟩
  · exact read.orFail

/-- What a statement is given is nothing, or a set, or else all that is found in it. -/
theorem runs_attachedCtes {value : Value} (given : value ≠ .null)
    (noSet : ∀ other face, value = .object other face → ∃ object, session.object? other = some object ∧ ∀ ctes, object ≠ .ctes ctes) :
    (attachedCtes value).Runs session
      ((attached session.object? [value]).outcome (some (attached session.object? [value]).found)) session := by
  have seen : ∃ seen, (Act.object? value).Runs session (.ok seen) session ∧ ∀ other ctes, seen ≠ some (other, .ctes ctes) := by
    cases value with
    | object other face =>
      obtain ⟨object, there, different⟩ := noSet other face rfl
      refine ⟨some (other, object), (runs_object there).andThen (runs_pure.mpr ⟨rfl, rfl⟩), fun _ ctes same => different ctes ?_⟩
      exact (Prod.mk.inj (Option.some.inj same)).2
    | _ => exact ⟨none, runs_pure.mpr ⟨rfl, rfl⟩, by rintro _ _ ⟨⟩⟩
  have kept : (do return some (← (do allOf (← ctesIn [value]) : Act (List (Cte Query)))) : Act (Option (List (Cte Query)))).Runs session
      ((attached session.object? [value]).outcome (some (attached session.object? [value]).found)) session := by
    have read := runs_allOf session [value]
    generalize attached session.object? [value] = result at read ⊢
    obtain ⟨found, _ | error⟩ := result
    · exact read.andThen (runs_pure.mpr ⟨rfl, rfl⟩)
    · exact read.orFail
  obtain ⟨seen, looked, different⟩ := seen
  unfold attachedCtes
  split
  · exact absurd rfl given
  · refine looked.andThen ?_
    split
    · exact absurd rfl (different _ _)
    · rwa [bind_assoc] at kept

/-- A statement is given the expressions that were found, or is left as it is. -/
theorem runs_with {statement : Statement Query} (shown : session.object? label = some (.query (.of statement)))
    (writes : statement.settings?.isSome) {value : Value} (given : value ≠ .null)
    (noSet : ∀ other face, value = .object other face → ∃ object, session.object? other = some object ∧ ∀ ctes, object ≠ .ctes ctes) :
    match (attached session.object? [value]).failure with
    | some error => ((objectMethods label (.query (.of statement))).call "with_" [value] []).Runs session (.error error) session
    | none => ∃ changed, statement.setCtes (some (attached session.object? [value]).found) = pure changed ∧
        ((objectMethods label (.query (.of statement))).call "with_" [value] []).Runs session (.ok .itself)
          (session.put label (.query (.of changed))) := by
  have found : (queryMethods label (.of statement)).lookup ("with_" : Text) = some ⟨.plain ["ctes"] [], fun arguments => do
      (Changes.one (do return Statement.Edit.ctes (← attachedCtes (arguments.get "ctes")))).makeAll (editStatement label)
      return .itself⟩ := by
    cases statement <;> rfl
  have called : (objectMethods label (.query (.of statement))).call "with_" [value] [] = _ :=
    again_eq ⟨[("ctes", value)], []⟩ found (by simp [Signature.bind, Signature.plain, Signature.fits, Signature.inOrder])
  rw [called]
  have listed := runs_attachedCtes given noSet
  generalize attached session.object? [value] = result at listed ⊢
  obtain ⟨found, _ | error⟩ := result
  · have settled : ∃ changed, statement.setCtes (some found) = pure changed := by
      cases statement with
      | built | unbuildable => cases writes
      | _ => exact ⟨_, rfl⟩
    obtain ⟨changed, settled⟩ := settled
    have read : (do return Statement.Edit.ctes (← attachedCtes value) : Act Statement.Edit).Runs session (.ok (.ctes (some found))) session :=
      listed.andThen (runs_pure.mpr ⟨rfl, rfl⟩)
    have applied : (Act.build (Statement.Edit.apply statement (.ctes (some found)))).Runs session (.ok changed) session :=
      runs_build.mpr ⟨session.trace, congrArg (Build.runFrom session.trace) settled, rfl⟩
    have edited : (editStatement label (.ctes (some found))).Runs session (.ok ()) (session.put label (.query (.of changed))) :=
      (runs_object shown).andThen (applied.andThen ((runs_put.mpr ⟨rfl, rfl⟩).andThen (runs_pure.mpr ⟨rfl, rfl⟩)))
    have made : ((Changes.one (do return Statement.Edit.ctes (← attachedCtes value))).makeAll (editStatement label)).Runs session
        (.ok ()) (session.put label (.query (.of changed))) := by
      rw [makeAll_one]
      exact read.andThen edited
    exact ⟨changed, settled, made.andThen (runs_pure.mpr ⟨rfl, rfl⟩)⟩
  · have read : (do return Statement.Edit.ctes (← attachedCtes value) : Act Statement.Edit).Runs session (.error error) session := listed.orFail
    have made : ((Changes.one (do return Statement.Edit.ctes (← attachedCtes value))).makeAll (editStatement label)).Runs session
        (.error error) session := by
      rw [makeAll_one]
      exact read.orFail
    exact made.orFail

/-- Going through values finds the expressions among their leaves, up to the first leaf that is refused, and needs as many calls as the values are deep. A set gets exactly these expressions, and fails as the leaf is refused: as something of the wrong type, or, if it is a text, for want of room, however much of it there is. A new set and a statement get all expressions or, on the same failure, none. -/
theorem attaching (session : Session) (values : List Value) :
    (∀ room, Value.nestingOfAll values < room → goThrough session.object? room values = attached session.object? values) ∧
    (∀ label ctes, session.object? label = some (.ctes ctes) →
      ∃ after, ((objectMethods label (.ctes ctes)).call "add" values []).Runs session
          ((attached session.object? values).outcome .itself) after ∧
        after.Shows label (.ctes (ctes ++ (attached session.object? values).found)) ∧ OnlyAt label session after) ∧
    (match (attached session.object? values).failure with
      | some error => (creators.call "CteMaker" values []).Runs session (.error error) session
      | none => ∃ label face after, (creators.call "CteMaker" values []).Runs session (.ok (.value (.object label face))) after ∧
          after.Shows label (.ctes (attached session.object? values).found)) ∧
    ∀ label statement value, session.object? label = some (.query (.of statement)) → statement.settings?.isSome → values = [value] →
      value ≠ .null → (∀ other face, value = .object other face → ∃ object, session.object? other = some object ∧ ∀ ctes, object ≠ .ctes ctes) →
      match (attached session.object? values).failure with
      | some error => ((objectMethods label (.query (.of statement))).call "with_" values []).Runs session (.error error) session
      | none => ∃ changed, statement.setCtes (some (attached session.object? values).found) = pure changed ∧
          ((objectMethods label (.query (.of statement))).call "with_" values []).Runs session (.ok .itself)
            (session.put label (.query (.of changed))) := by
  refine ⟨fun room enough => ?_, fun label ctes shown => runs_add shown values, runs_newCtes session values, ?_⟩
  · rw [goThrough_items room values enough, leavesOfAll_eq]
    rfl
  · rintro label statement value shown writes rfl given noSet
    exact runs_with shown writes given noSet

/-- A session with an empty set and an expression. -/
private def setAndExpression : Session :=
  (({} : Session).put 0 (.ctes [])).put 1 (.cte ⟨.text "active", none, .bool false⟩)

/-- The expression is attached once for each time that it stands in a nest of tuples and lists, and the empty list in between is passed over. -/
theorem attaching_nested :
    Value.nestingOfAll [.tuple 2 [.object 1 ⟨"Cte", "<Cte>", true⟩, .list 3 []], .object 1 ⟨"Cte", "<Cte>", true⟩] < 3 ∧
    setAndExpression.object? 0 = some (.ctes []) ∧
    ∃ after, ((objectMethods 0 (.ctes [])).call "add"
        [.tuple 2 [.object 1 ⟨"Cte", "<Cte>", true⟩, .list 3 []], .object 1 ⟨"Cte", "<Cte>", true⟩] []).Runs setAndExpression (.ok .itself) after ∧
      after.Shows 0 (.ctes [⟨.text "active", none, .bool false⟩, ⟨.text "active", none, .bool false⟩]) := by
  have shown : setAndExpression.object? 0 = some (.ctes []) := rfl
  obtain ⟨after, run, shows, -⟩ := (attaching setAndExpression
    [.tuple 2 [.object 1 ⟨"Cte", "<Cte>", true⟩, .list 3 []], .object 1 ⟨"Cte", "<Cte>", true⟩]).2.1 0 [] shown
  exact ⟨by decide, shown, after, run, shows⟩

/-- The name of an expression in place of the expression is no failure of type: whatever room there is, going through it needs more. -/
theorem text_never_ends :
    (∀ room, goThrough setAndExpression.object? room [.text "active"] = .failed .endlessNesting) ∧
    ((objectMethods 0 (.ctes [])).call "add" [.text "active"] []).Runs setAndExpression (.error .endlessNesting) setAndExpression := by
  refine ⟨fun room => ?_, rfl⟩
  cases room with
  | zero => rfl
  | succ room => exact (goThrough_single room _).trans (goThrough_characters room _ _)

end Session

end SqlCompose
