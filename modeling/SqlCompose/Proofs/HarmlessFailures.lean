import Mathlib
import SqlCompose.Proofs.ReadChanges
import SqlCompose.Session.Step

/-!
# Failures without effect

Each change of an object is made at the very end, after everything that can fail has been done. So a single change that fails has changed nothing, and of several changes those in front of the first that fails have been made.

A search for every word of a text makes several changes, but whether they are accepted does not depend on the words. So it fails at the first word or not at all.
-/

namespace SqlCompose

namespace Session

/-- The sessions differ in the labels that have been given out and in what has been logged, and in nothing else. -/
def SameState (session after : Session) : Prop :=
  ∃ trace, after = { session with trace }

namespace SameState

theorem refl (session : Session) : session.SameState session :=
  ⟨session.trace, rfl⟩

theorem trans {session between after : Session} (first : session.SameState between) (second : between.SameState after) :
    session.SameState after := by
  obtain ⟨_, rfl⟩ := first
  obtain ⟨trace, rfl⟩ := second
  exact ⟨trace, rfl⟩

end SameState

end Session

namespace Act

open Session

variable {α β : Type} {action : Act α} {next : α → Act β} {good : α → Prop}

/-! ### Computations that fail without effect -/

/-- Where the computation fails, it has changed nothing. -/
def Harmless (action : Act α) : Prop :=
  ∀ session error after, action.Runs session (.error error) after → session.SameState after

theorem harmless_throw (error : Error) : Harmless (throw error : Act α) := by
  intro session _ after run
  obtain ⟨-, rfl⟩ := runs_throw.mp run
  exact .refl _

theorem Reads.harmless_bind (first : Reads action good) (second : ∀ value, Harmless (next value)) : Harmless (action >>= next) := by
  intro session error after run
  obtain ⟨value, between, read, rest⟩ | ⟨error, failed, -⟩ := run.bind
  · exact SameState.trans (first.runs read).1 (second value _ _ _ rest)
  · exact (first.runs failed).1

theorem Harmless.andThen (first : Harmless action) (sure : ∀ value session error after, ¬ (next value).Runs session (.error error) after) :
    Harmless (action >>= next) := by
  intro session error after run
  obtain ⟨value, between, _, rest⟩ | ⟨error, failed, -⟩ := run.bind
  · exact absurd rest (sure value _ _ _)
  · exact first _ _ _ failed

theorem put_sure {label : Label} {object : Object} {session after : Session} {error : Error} :
    ¬ (put label object).Runs session (.error error) after := by
  intro run
  cases (runs_put.mp run).1

theorem pure_sure {value : α} {session after : Session} {error : Error} : ¬ (pure value : Act α).Runs session (.error error) after := by
  intro run
  cases (runs_pure.mp run).1

theorem harmless_put (label : Label) (object : Object) : Harmless (put label object) :=
  fun _ _ _ run => absurd run put_sure

/-! ### One step after another -/

/-- Of steps that fail, those in front of some step have been done, and this one has failed. -/
theorem forM_failed {f : β → Act Unit} {items : List β} {session after : Session} {error : Error}
    (run : (items.forM f).Runs session (.error error) after) :
    ∃ front item back between, items = front ++ item :: back ∧ (front.forM f).Runs session (.ok ()) between ∧
      (f item).Runs between (.error error) after := by
  induction items generalizing session with
  | nil => exact absurd run pure_sure
  | cons item items ih =>
    obtain ⟨_, between, done, rest⟩ | ⟨_, failed, ⟨⟩⟩ := run.bind
    · obtain ⟨front, last, back, between', rfl, before, failed⟩ := ih rest
      exact ⟨item :: front, last, back, between', rfl, done.andThen before, failed⟩
    · exact ⟨[], item, items, session, rfl, runs_pure.mpr ⟨rfl, rfl⟩, failed⟩

/-- If the steps have no effect where they fail, then such steps leave the state in which those in front of the failing one have left it. -/
theorem stops {opening : Act Unit} {step : β → Act Unit} {items : List β} {session opened after : Session} {error : Error}
    (harmless : ∀ item ∈ items, Harmless (step item)) (start : opening.Runs session (.ok ()) opened)
    (run : (do opening; items.forM step; return Outcome.itself).Runs session (.error error) after) :
    ∃ front item back between failed, items = front ++ item :: back ∧
      (do opening; front.forM step; return Outcome.itself).Runs session (.ok .itself) between ∧ between.SameState after ∧
      (do opening; (front ++ [item]).forM step; return Outcome.itself).Runs session (.error error) failed := by
  obtain ⟨_, opened', done, rest⟩ | ⟨_, failed, -⟩ := run.bind
  · obtain ⟨-, rfl⟩ := start.unique done
    obtain ⟨_, _, _, last⟩ | ⟨_, stopped, ⟨⟩⟩ := rest.bind
    · exact absurd last pure_sure
    · obtain ⟨front, item, back, between, rfl, before, failed⟩ := forM_failed stopped
      have again : ((front ++ [item]).forM step).Runs opened (.error error) after := by
        have parts : (front ++ [item]).forM step = (do front.forM step; [item].forM step) := List.forM_append
        rw [parts]
        exact before.andThen failed.orFail
      exact ⟨front, item, back, between, after, rfl, start.andThen (before.andThen (runs_pure.mpr ⟨rfl, rfl⟩)),
        harmless item (by simp) _ _ _ failed, start.andThen again.orFail⟩
  · cases (start.unique failed).1

end Act

namespace Session

open Act

/-! ### Single changes -/

theorem harmless_editStatement (label : Label) (edit : Statement.Edit) : Harmless (editStatement label edit) :=
  (reads_object label).harmless_bind fun object => by
    split
    · refine (reads_build _).harmless_bind fun changed => ?_
      refine (harmless_put _ _).andThen fun _ session error after run => ?_
      split at run
      · exact put_sure run
      · exact pure_sure run
    · exact harmless_throw _

theorem harmless_editChain (label : Label) (edit : Chain.Edit) : Harmless (editChain label edit) :=
  (reads_object label).harmless_bind fun object => by
    split
    · exact (reads_build _).harmless_bind fun changed => harmless_put _ _
    · exact harmless_throw _

theorem harmless_editColumn (label : Label) (edit : Column.Edit) : Harmless (editColumn label edit) :=
  (reads_object label).harmless_bind fun object => by
    split
    · exact harmless_put _ _
    · exact harmless_throw _

theorem harmless_editTable (label : Label) (edit : TableStatement.Edit Value) : Harmless (editTable label edit) :=
  (reads_object label).harmless_bind fun object => by
    split
    · exact (reads_build _).harmless_bind fun changed => harmless_put _ _
    · exact harmless_throw _

theorem harmless_addCte (label : Label) (cte : Cte Query) : Harmless (addCte label cte) :=
  (reads_object label).harmless_bind fun object => by
    split
    · exact harmless_put _ _
    · exact harmless_throw _

theorem harmless_changeCte (label : Label) (change : Cte Query → Cte Query) : Harmless (changeCte label change) :=
  (reads_object label).harmless_bind fun object => by
    split
    · exact (harmless_put _ _).andThen fun _ _ _ _ run => pure_sure run
    · exact harmless_throw _

section Tables

variable {E : Type} {few : Prop} {good : E → Prop} {make : E → Act Unit}

/-- Where one change is made at most, a failure has no effect. -/
theorem harmless_makeAll (harmless : ∀ change, Harmless (make change)) {changes : Changes E} (reads : ReadsChanges few good changes)
    (single : few) : Harmless (changes.makeAll make) := by
  intro session error after run
  obtain ⟨list, between, read, rest⟩ | ⟨error, failed, -⟩ := run.bind
  · obtain ⟨same, each⟩ := Reads.runs reads read
    obtain ⟨front, change, back, between', rfl, before, failed⟩ := forM_failed rest
    have none : front = [] := by
      have few := (each _ rfl).1 single
      rw [List.length_append, List.length_cons] at few
      exact List.length_eq_zero_iff.mp (by omega)
    subst none
    obtain ⟨-, rfl⟩ := runs_pure.mp before
    have last : Harmless (do make (← change)) := ((each _ rfl).2 change (by simp)).harmless_bind harmless
    exact SameState.trans same (last _ _ _ failed)
  · exact (Reads.runs reads failed).1

theorem harmless_changing (few : Text → Prop) (good : Text → E → Prop) (harmless : ∀ change, Harmless (make change))
    {methods : Methods (Changes E)}
    (reads : ∀ arguments, ∀ entry ∈ methods, ReadsChanges (few entry.1) (good entry.1) (entry.2.run arguments)) :
    ∀ entry ∈ methods.changing make, few entry.1 → ∀ arguments, Harmless (entry.2.run arguments) :=
  List.forall_mem_map.mpr fun entry member single arguments =>
    (harmless_makeAll harmless (reads arguments entry member) single).andThen fun _ _ _ _ run => pure_sure run

theorem lift_ok_bind {α β : Type} (value : α) (next : α → Act β) : (liftM (Except.ok value : Except Error α) : Act α) >>= next = next value :=
  rfl

theorem makeAll_map {I E : Type} (make : E → Act Unit) (read : I → Act E) (items : List I) :
    (⟨pure (items.map read)⟩ : Changes E).makeAll make = items.forM (fun item => do make (← read item)) := by
  unfold Changes.makeAll
  rw [pure_bind]
  exact List.forM_map

end Tables

/-! ### Searching for words -/

section Words

variable {label : Label} {session after : Session} {anyCase : Bool} {field connective : Value}

/-- The template of the condition that a field contains a text. -/
private def containment (anyCase : Bool) (column : Text) : Text :=
  column ++ if anyCase then " ILIKE ?" else " LIKE ?"

/-- A search for words is accepted: the field can be printed, the template has one marker, and the connective is one. Nothing depends on the words. -/
private def Accepted (anyCase : Bool) (field connective : Value) : Prop :=
  ∃ column word, field.printed = .ok column ∧ Connective.ofValue connective = .ok word ∧
    Token.countMarkers (containment anyCase column) = 1

/-- Searches for one word. -/
private def searchWord (label : Label) (anyCase : Bool) (field connective word : Value) : Act Unit := do
  editChain label (← (liftM (Chain.Edit.containing anyCase field word connective) : Act Chain.Edit))

private theorem harmless_searchWord (word : Value) : Harmless (searchWord label anyCase field connective word) := by
  have reads : Reads (liftM (Chain.Edit.containing anyCase field word connective) : Act Chain.Edit) fun _ => True :=
    reads_lift fun _ _ => trivial
  exact reads.harmless_bind (harmless_editChain label)

private theorem containing_eq {word : Value} {text column : Text} (printed : word.printed = .ok text) (named : field.printed = .ok column) :
    Chain.Edit.containing anyCase field word connective =
      .ok (.link connective (.text (.plain (containment anyCase column))) [.text ("%" ++ text ++ "%")]) := by
  simp only [Chain.Edit.containing, Chain.Edit.pattern, printed, named]
  cases anyCase <;> rfl

private theorem apply_link (chain : Chain) (template text : Text) {word : Connective} (named : Connective.ofValue connective = .ok word)
    (one : Token.countMarkers template = 1) :
    Chain.Edit.apply chain (.link connective (.text (.plain template)) [.text text]) =
      pure (chain.append word ⟨.plain template, [.text text]⟩) := by
  have made : Predicate.make (.plain template) [.text text] = pure ⟨.plain template, [.text text]⟩ := by
    change (if Token.countMarkers template = 1 then (pure _ : Build Predicate) else throw _) = _
    rw [if_pos one]
  change (do
    let word ← (liftM (Connective.ofValue connective) : Build Connective)
    return chain.append word (← Predicate.make (.plain template) [.text text])) = _
  rw [named, made]
  rfl

private theorem accepted_of_apply {chain changed : Chain} {template text : Text}
    (done : (Chain.Edit.apply chain (.link connective (.text (.plain template)) [.text text])).Yields changed) :
    (∃ word, Connective.ofValue connective = .ok word) ∧ Token.countMarkers template = 1 := by
  change Build.Yields (do
    let word ← (liftM (Connective.ofValue connective) : Build Connective)
    return chain.append word (← Predicate.make (.plain template) [.text text])) _ at done
  obtain ⟨word, named, done⟩ := done.bind
  obtain ⟨_, made, -⟩ := done.bind
  refine ⟨⟨word, Build.yields_lift.mp named⟩, ?_⟩
  change (if Token.countMarkers template = 1 then pure _ else throw _ : Build Predicate).Yields _ at made
  by_contra other
  rw [if_neg other] at made
  exact Build.not_yields_throw made

/-- The object is a chain. -/
private def IsChain (label : Label) (session : Session) : Prop :=
  ∃ chain, session.object? label = some (.chain chain)

private theorem isChain_put (session : Session) (chain : Chain) : IsChain label (session.put label (.chain chain)) := by
  refine ⟨chain.mapValues (session.put label (.chain chain)).current, ?_⟩
  rw [object?, stored?_put, if_pos rfl]
  rfl

private theorem runs_searchWord {word : Value} {text : Text} (accepted : Accepted anyCase field connective)
    (printed : word.printed = .ok text) (here : IsChain label session) :
    ∃ after, (searchWord label anyCase field connective word).Runs session (.ok ()) after ∧ IsChain label after := by
  obtain ⟨column, connected, named, connects, one⟩ := accepted
  obtain ⟨chain, shown⟩ := here
  refine ⟨_, ?_, isChain_put session (chain.append connected ⟨.plain (containment anyCase column), [.text ("%" ++ text ++ "%")]⟩)⟩
  unfold searchWord
  rw [containing_eq printed named, lift_ok_bind]
  refine (runs_object shown).andThen ?_
  change (do Act.put label (.chain (← Act.build _))).Runs _ _ _
  rw [apply_link chain _ _ connects one]
  exact (runs_build.mpr ⟨session.trace, rfl, rfl⟩).andThen (runs_put.mpr ⟨rfl, rfl⟩)

private theorem accepted_of_searchWord {word : Value} {text : Text} (printed : word.printed = .ok text)
    (run : (searchWord label anyCase field connective word).Runs session (.ok ()) after) :
    Accepted anyCase field connective ∧ IsChain label session := by
  obtain ⟨edit, _, read, made⟩ := run.bind_ok
  obtain ⟨given, rfl⟩ := runs_lift.mp read
  cases named : field.printed with
  | error _ =>
    simp only [Chain.Edit.containing, Chain.Edit.pattern, printed, named] at given
    cases given
  | ok column =>
    rw [containing_eq printed named] at given
    obtain rfl := Except.ok.inj given
    obtain ⟨object, _, found, changed⟩ := made.bind_ok
    obtain ⟨rfl, shown⟩ := found.object
    split at changed
    · next chain =>
      obtain ⟨_, _, built, -⟩ := changed.bind_ok
      obtain ⟨⟨word, connects⟩, one⟩ := accepted_of_apply built.yields
      exact ⟨⟨column, word, named, connects, one⟩, chain, shown _ rfl⟩
    · cases (runs_throw.mp changed).1

private theorem runs_searchWords {words : List Value} (printed : ∀ word ∈ words, ∃ text, word.printed = .ok text)
    (accepted : Accepted anyCase field connective) (here : IsChain label session) :
    ∃ after, (words.forM (searchWord label anyCase field connective)).Runs session (.ok ()) after := by
  induction words generalizing session with
  | nil => exact ⟨session, runs_pure.mpr ⟨rfl, rfl⟩⟩
  | cons word words ih =>
    obtain ⟨⟨text, first⟩, others⟩ := List.forall_mem_cons.mp printed
    obtain ⟨between, done, here⟩ := runs_searchWord accepted first here
    obtain ⟨after, rest⟩ := ih others here
    exact ⟨after, done.andThen rest⟩

private theorem harmless_searchWords {words : List Value} (printed : ∀ word ∈ words, ∃ text, word.printed = .ok text) :
    Harmless (words.forM (searchWord label anyCase field connective)) := by
  cases words with
  | nil => exact fun _ _ _ run => absurd run pure_sure
  | cons word words =>
    obtain ⟨⟨text, first⟩, others⟩ := List.forall_mem_cons.mp printed
    intro session error after run
    obtain ⟨_, between, done, rest⟩ | ⟨_, failed, -⟩ := run.bind
    · obtain ⟨accepted, here⟩ := accepted_of_searchWord first done
      obtain ⟨_, done', here⟩ := runs_searchWord accepted first here
      obtain ⟨-, rfl⟩ := done.unique done'
      obtain ⟨_, further⟩ := runs_searchWords others accepted here
      cases (rest.unique further).1
    · exact harmless_searchWord word _ _ _ failed

private theorem printed_of_words {query : Value} {words : List Value} (read : query.words = .ok words) :
    ∀ word ∈ words, ∃ text, word.printed = .ok text := by
  have texts (list : List Text) : ∀ word ∈ list.map Value.text, ∃ text, word.printed = .ok text :=
    List.forall_mem_map.mpr fun text _ => ⟨text, rfl⟩
  cases query with
  | text _ | entry _ => exact Except.ok.inj read ▸ texts _
  | bytes _ | byteArray _ _ => exact Except.ok.inj read ▸ List.forall_mem_map.mpr fun content _ => ⟨_, rfl⟩
  | _ => cases read

/-- The changes of a search for words are made word by word. -/
private theorem makeAll_words (label : Label) (query : Value) :
    (⟨do
      let edits ← (liftM (Chain.Edit.containingWords anyCase field query connective) : Act (List (Except Error Chain.Edit)))
      return edits.map fun edit => (liftM edit : Act Chain.Edit)⟩ : Changes Chain.Edit).makeAll (editChain label) = (do
      (← (liftM query.words : Act (List Value))).forM (searchWord label anyCase field connective)) := by
  unfold Chain.Edit.containingWords
  cases query.words with
  | error _ => rfl
  | ok words =>
    change (⟨pure ((words.map fun word => Chain.Edit.containing anyCase field word connective).map
      fun edit => (liftM edit : Act Chain.Edit))⟩ : Changes Chain.Edit).makeAll (editChain label) = _
    rw [List.map_map, makeAll_map]
    rfl

theorem harmless_words (label : Label) (query : Value) : Harmless (do
    (⟨do
      let edits ← (liftM (Chain.Edit.containingWords anyCase field query connective) : Act (List (Except Error Chain.Edit)))
      return edits.map fun edit => (liftM edit : Act Chain.Edit)⟩ : Changes Chain.Edit).makeAll (editChain label)
    return Outcome.itself) := by
  rw [makeAll_words]
  refine Harmless.andThen ?_ fun _ _ _ _ run => pure_sure run
  cases read : query.words with
  | error _ => exact harmless_throw _
  | ok words => exact harmless_searchWords (printed_of_words read)

end Words

end Session

end SqlCompose
