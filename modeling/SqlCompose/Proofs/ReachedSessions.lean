import Mathlib
import SqlCompose.Proofs.CustodyCalls

/-!
# Reached sessions

Scripts begin with an empty session, and every step leads on from where the last one has come, whether it fails or not. All that is known of such a session is that everything in it may be held: each object that is referred to has been made, and, as long as nobody has changed a container in place, it is kept track of whose the containers are.
-/

namespace SqlCompose

open Build

/-! ### Scripts -/

mutual

/-- A literal whose leaves contain no other values. -/
def Literal.Sound : Literal → Prop
  | .leaf value => value.Single
  | .list items | .tuple items => Literal.SoundAll items
  | .dict entries => Literal.SoundEntries entries
  | .reference _ => True

def Literal.SoundAll : List Literal → Prop
  | [] => True
  | item :: items => item.Sound ∧ Literal.SoundAll items

def Literal.SoundEntries : List (Literal × Literal) → Prop
  | [] => True
  | (key, item) :: entries => key.Sound ∧ item.Sound ∧ Literal.SoundEntries entries

end

mutual

/-- A step with sound literals, which may change a container in place only if that is asked for. -/
def Step.Sound (changing : Prop) : Step → Prop
  | .create _ values named _ | .call _ _ values named _ => (∀ literal ∈ values, literal.Sound) ∧ ∀ entry ∈ named, entry.2.Sound
  | .populate _ _ _ steps _ _ => Step.SoundAll changing steps
  | .read _ _ index _ => ∀ literal ∈ index, literal.Sound
  | .assign _ literal => literal.Sound
  | .change _ key literal => changing ∧ (∀ given ∈ key, given.Sound) ∧ literal.Sound
  | .equal _ _ | .print _ | .quote _ | .length _ | .unpack _ => True

def Step.SoundAll (changing : Prop) : List Step → Prop
  | [] => True
  | step :: steps => step.Sound changing ∧ Step.SoundAll changing steps

end

/-- The sessions that scripts lead to, with changes of containers in place or without. -/
inductive Session.Reachable (changing : Prop) : Session → Prop
  | start (defaults : Defaults) (compact : defaults.compact.Single) (deep : defaults.deep.Single) : Reachable changing { defaults }
  | step {session : Session} (reachable : Reachable changing session) (quiet : Bool) {step : Step} (sound : step.Sound changing) :
      Reachable changing (session.answer quiet step).2

/-! ### Entries of dictionaries -/

namespace Value

variable {holds : Value → Prop}

/-- Something holds everywhere in keys and values. -/
abbrev EntriesEverywhere (holds : Value → Prop) (entries : List (Value × Value)) : Prop :=
  ∀ entry ∈ entries, entry.1.Everywhere holds ∧ entry.2.Everywhere holds

theorem everywhere_setEntry {key item : Value} (keyed : key.Everywhere holds) (good : item.Everywhere holds) {entries : List (Value × Value)}
    (all : EntriesEverywhere holds entries) : EntriesEverywhere holds (setEntry key item entries) := by
  induction entries with
  | nil => exact List.forall_mem_singleton.mpr ⟨keyed, good⟩
  | cons entry entries ih =>
    obtain ⟨key', value'⟩ := entry
    rw [EntriesEverywhere, List.forall_mem_cons] at all
    rw [setEntry]
    split
    · exact List.forall_mem_cons.mpr ⟨⟨all.1.1, good⟩, all.2⟩
    · exact List.forall_mem_cons.mpr ⟨all.1, ih all.2⟩

end Value

/-! ### Literals -/

namespace Literal

variable {holds : Value → Prop}

private theorem everywhere_dictionary {given entries : List (Value × Value)} (all : Value.EntriesEverywhere holds given)
    (done : dictionary given = .ok entries) : Value.EntriesEverywhere holds entries := by
  unfold dictionary at done
  have nothing : Value.EntriesEverywhere holds [] := forall_nothing
  generalize ([] : List (Value × Value)) = start at done nothing
  induction given generalizing start with
  | nil =>
    cases done
    exact nothing
  | cons entry given ih =>
    obtain ⟨key, value⟩ := entry
    rw [Value.EntriesEverywhere, List.forall_mem_cons] at all
    obtain ⟨next, here, further⟩ := Outcome.bind_eq_ok.mp done
    refine ih all.2 next further ?_
    dsimp only at here
    split at here
    · cases here
      exact Value.everywhere_setEntry all.1.1 all.1.2 nothing
    · cases here

private theorem single_relabelled {value : Value} (single : value.Single) (label : Label) : (relabelled label value).Single := by
  cases value <;> exact single

variable {known : Text → Option Value}

mutual

/-- What a literal stands for holds what its names stand for, and nothing else that could be held. -/
theorem gives_evaluate (free : Value.OfHandles holds) (sound : ∀ name value, known name = some value → value.Everywhere holds) (first : Label) : (literal : Literal) → literal.Sound →
    Gives first (literal.evaluate known) fun _ value => value.Everywhere holds
  | .leaf value, single => by
    rw [evaluate]
    exact gives_freshLabel.bind fun _ _ label _ => Keeps.pure fun _ _ =>
      Value.everywhere_of_single free (single_relabelled single label)
  | .list items, good => by
    rw [evaluate]
    exact gives_freshLabel.bind fun between _ label _ => (gives_evaluateAll free sound between items good).bind fun _ _ values all =>
      Keeps.pure fun _ _ => Value.everywhere_newList free label all
  | .tuple items, good => by
    rw [evaluate]
    exact gives_freshLabel.bind fun between _ label _ => (gives_evaluateAll free sound between items good).bind fun _ _ values all =>
      Keeps.pure fun _ _ => Value.everywhere_newTuple free label all
  | .dict entries, good => by
    rw [evaluate]
    refine gives_freshLabel.bind fun between _ label _ => (gives_evaluateEntries free sound between entries good).bind fun _ _ values all =>
      Keeps.after fun given done => Keeps.pure fun _ _ => ?_
    exact Value.everywhere_dict.mpr ⟨free.other rfl, everywhere_dictionary all done⟩
  | .reference name, _ => by
    rw [evaluate]
    split
    · next value found => exact Keeps.pure fun _ _ => sound name value found
    · exact Keeps.throw _

theorem gives_evaluateAll (free : Value.OfHandles holds) (sound : ∀ name value, known name = some value → value.Everywhere holds) (first : Label) : (items : List Literal) → Literal.SoundAll items →
    Gives first (evaluateAll known items) fun _ values => Value.AllEverywhere holds values
  | [], _ => by
    rw [evaluateAll]
    exact Keeps.pure fun _ _ => Value.allEverywhere_nil
  | item :: items, good => by
    rw [evaluateAll]
    exact (gives_evaluate free sound first item good.1).bind fun between _ value here => (gives_evaluateAll free sound between items good.2).bind fun _ _ values all =>
      Keeps.pure fun _ _ => List.forall_mem_cons.mpr ⟨here, all⟩

theorem gives_evaluateEntries (free : Value.OfHandles holds) (sound : ∀ name value, known name = some value → value.Everywhere holds) (first : Label) : (entries : List (Literal × Literal)) → Literal.SoundEntries entries →
    Gives first (evaluateEntries known entries) fun _ values => Value.EntriesEverywhere holds values
  | [], _ => by
    rw [evaluateEntries]
    exact Keeps.pure fun _ _ => forall_nothing
  | (key, item) :: entries, good => by
    rw [evaluateEntries]
    exact (gives_evaluate free sound first key good.1).bind fun between _ value here => (gives_evaluate free sound between item good.2.1).bind fun between' _ value' there =>
      (gives_evaluateEntries free sound between' entries good.2.2).bind fun _ _ values all =>
        Keeps.pure fun _ _ => List.forall_mem_cons.mpr ⟨⟨here, there⟩, all⟩

end

end Literal

/-! ### Changes in place -/

namespace Value

variable {holds : Value → Prop}

private theorem everywhere_extended (plain : ∀ value : Value, (∀ label face, value ≠ .object label face) → holds value) {key : Option Value} {item value after : Value} (done : extended key item value = .ok after)
    (keyed : ∀ given ∈ key, given.Everywhere holds) (good : item.Everywhere holds) (all : value.Everywhere holds) :
    after.Everywhere holds := by
  have free : OfHandles holds := fun value noObject _ _ => plain value noObject
  cases key with
  | none =>
    change appended item value = .ok after at done
    unfold appended at done
    split at done
    · cases done
      exact everywhere_newList free _ (List.forall_mem_append.mpr ⟨(everywhere_list.mp all).2, List.forall_mem_singleton.mpr good⟩)
    · obtain ⟨_, _, rfl⟩ := Outcome.map_eq_ok.mp done
      exact everywhere_byteArray free _ _
    · cases done
  | some key =>
    change replaced key item value = .ok after at done
    unfold replaced at done
    split at done
    · obtain ⟨position, _, further⟩ := Outcome.bind_eq_ok.mp done
      obtain ⟨offset, _, same⟩ := Outcome.bind_eq_ok.mp further
      cases same
      refine everywhere_newList free _ fun value member => ?_
      rcases List.mem_or_eq_of_mem_set member with inside | rfl
      · exact (everywhere_list.mp all).2 value inside
      · exact good
    · obtain ⟨position, _, further⟩ := Outcome.bind_eq_ok.mp done
      obtain ⟨byte, _, further⟩ := Outcome.bind_eq_ok.mp further
      obtain ⟨offset, _, same⟩ := Outcome.bind_eq_ok.mp further
      cases same
      exact everywhere_byteArray free _ _
    · split at done
      · cases done
        exact everywhere_dict.mpr ⟨plain _ (by rintro _ _ ⟨⟩), everywhere_setEntry (keyed key rfl) good (everywhere_dict.mp all).2⟩
      · cases done
    · cases done

variable {label : Label} {change : Value → Value}

mutual

/-- A change in place that puts in what may be there leaves a value as it should be. -/
theorem Everywhere.changed (plain : ∀ value : Value, (∀ label face, value ≠ .object label face) → holds value)
    (kept : ∀ value : Value, value.Everywhere holds → (change value).Everywhere holds) :
     (value : Value) → value.Everywhere holds → (value.changed label change).Everywhere holds
  | .list l items, all => by
    rw [Value.changed]
    split
    · exact kept _ all
    · exact everywhere_list.mpr ⟨plain _ (by rintro _ _ ⟨⟩), Everywhere.changedItems plain kept items (everywhere_list.mp all).2⟩
  | .tuple l items, all => everywhere_tuple.mpr ⟨plain _ (by rintro _ _ ⟨⟩), Everywhere.changedItems plain kept items (everywhere_tuple.mp all).2⟩
  | .record l kind fields, all => everywhere_record.mpr ⟨plain _ (by rintro _ _ ⟨⟩), Everywhere.changedItems plain kept fields (everywhere_record.mp all).2⟩
  | .dict l entries, all => by
    rw [Value.changed]
    split
    · exact kept _ all
    · exact everywhere_dict.mpr ⟨plain _ (by rintro _ _ ⟨⟩), Everywhere.changedEntries plain kept entries (everywhere_dict.mp all).2⟩
  | .byteArray l content, all => by
    rw [Value.changed]
    split
    · exact kept _ all
    · exact all
  | .object _ _, all | .null, all | .bool _, all | .int _, all | .float _, all | .floatNaN _, all | .decimal _, all
  | .decimalNaN _ _, all | .text _, all | .entry _, all | .bytes _, all | .date _, all | .dateTime _, all | .time _, all
  | .duration _ _ _, all | .uuid _, all | .unbindable _ _, all => all

theorem Everywhere.changedItems (plain : ∀ value : Value, (∀ label face, value ≠ .object label face) → holds value)
    (kept : ∀ value : Value, value.Everywhere holds → (change value).Everywhere holds) :
     (items : List Value) → AllEverywhere holds items → AllEverywhere holds (changedItems label change items)
  | [], _ => by
    rw [Value.changedItems]
    exact allEverywhere_nil
  | item :: items, all => by
    rw [AllEverywhere, List.forall_mem_cons] at all
    rw [Value.changedItems, AllEverywhere, List.forall_mem_cons]
    exact ⟨Everywhere.changed plain kept item all.1, Everywhere.changedItems plain kept items all.2⟩

theorem Everywhere.changedEntries (plain : ∀ value : Value, (∀ label face, value ≠ .object label face) → holds value)
    (kept : ∀ value : Value, value.Everywhere holds → (change value).Everywhere holds) :
     (entries : List (Value × Value)) → EntriesEverywhere holds entries →
    EntriesEverywhere holds (changedEntries label change entries)
  | [], _ => by
    rw [Value.changedEntries]
    exact forall_nothing
  | (key, value) :: entries, all => by
    rw [EntriesEverywhere, List.forall_mem_cons] at all
    rw [Value.changedEntries, EntriesEverywhere, List.forall_mem_cons]
    exact ⟨⟨all.1.1, Everywhere.changed plain kept value all.1.2⟩, Everywhere.changedEntries plain kept entries all.2⟩

end

end Value

namespace Session

variable (session : Session) (label : Label) (change : Value → Value)

theorem stored?_change (other : Label) :
    (session.change label change).stored? other = (session.stored? other).map (Object.mapValues (Value.changed label change)) :=
  lookup_mapValues _ other session.objects

theorem binding_change (name : Text) :
    (session.change label change).bindings.lookup name = (session.bindings.lookup name).map (Value.changed label change) :=
  lookup_mapValues _ name session.bindings

end Session

/-! ### Steps in custody -/

namespace Custody

variable {custody : Custody} {stage : Stage}

section Steps

variable (named : custody.named)
include named

theorem allows_valueOf (name : Text) : custody.Allows stage (Act.valueOf name) fun after value => value.Everywhere (custody.Admits after) := by
  refine allows_get.bind fun between _ session reached => ?_
  split
  · next value found =>
    have all := reached.bindings named name value found
    exact Keeps.pure fun _ further => admits_later (all.refaced _ faceless value) further
  · exact Keeps.throw _

theorem allows_evaluate {literal : Literal} (good : literal.Sound) :
    custody.Allows stage (Session.evaluate literal) fun after value => value.Everywhere (custody.Admits after) := by
  refine allows_get.bind fun between _ session reached => ?_
  have known : ∀ name value, (session.bindings.lookup name).map session.current = some value →
      value.Everywhere (custody.Admits between) := by
    intro name value found
    obtain ⟨given, here, rfl⟩ := Option.map_eq_some_iff.mp found
    exact (reached.bindings named name given here).refaced _ faceless given
  exact allows_quiet (fun first => Literal.gives_evaluate free known first literal good)
    fun _ further _ all => admits_later all further

theorem allows_evaluateAll {literals : List Literal} (good : ∀ literal ∈ literals, literal.Sound) :
    custody.Allows stage (literals.mapM Session.evaluate) fun after values => Value.AllEverywhere (custody.Admits after) values :=
  Keeps.mapM growing_value fun literal member => allows_evaluate named (good literal member)

theorem allows_evaluateNamed {entries : List (Text × Literal)} (good : ∀ entry ∈ entries, entry.2.Sound) :
    custody.Allows stage (Session.evaluateNamed entries) fun after values => ∀ entry ∈ values, entry.2.Everywhere (custody.Admits after) :=
  Keeps.mapM (fun _ _ further _ all => admits_later all further) fun entry member =>
    (allows_evaluate named (good entry member)).bind fun _ _ _ all => Keeps.pure fun _ further => admits_later all further

omit named in
theorem allows_bind (name : Text) {value : Value} (all : value.Everywhere (custody.Admits stage)) :
    custody.Allows stage (Act.bind name value) fun _ _ => True := by
  refine fun before ahead session reached => ⟨before, le_rfl, ⟨reached.next, reached.started, reached.made, reached.objects, reached.own,
    reached.others, reached.defaults, fun named other given found => ?_⟩, fun _ _ => trivial⟩
  have entry : (if other = name then some value else session.bindings.lookup other) = some given :=
    (lookup_putEntry name other value session.bindings).symm.trans found
  split at entry
  · cases entry
    exact admits_later all ahead
  · exact reached.bindings named other given entry

omit named in
theorem allows_bindResult (binding : Option Text) {target : Value} (all : target.Everywhere (custody.Admits stage)) {outcome : Outcome}
    (granted : custody.Grants stage outcome) : custody.Allows stage (Session.bindResult binding target outcome) fun _ _ => True := by
  unfold Session.bindResult
  split
  · exact Keeps.pure fun _ _ => trivial
  · exact allows_bind _ all
  · exact allows_bind _ granted

end Steps

/-! ### Changes in place, when it is not kept track of containers -/

section Changing

variable (untracked : ¬ custody.tracked)
include untracked

private theorem admits_untracked {value : Value} (noObject : ∀ label face, value ≠ .object label face) : custody.Admits stage value :=
  ⟨fun label face same => absurd same (noObject label face), fun tracked => absurd tracked untracked, fun tracked => absurd tracked untracked⟩

variable {label : Label} {change : Value → Value}
  (kept : ∀ value : Value, value.Everywhere (custody.Admits stage) → (change value).Everywhere (custody.Admits stage))
include kept

private theorem through_changed {hands : Label → Prop} :
    Rules.Through (Value.changed label change) (custody.rules stage hands) (custody.rules stage hands) := by
  have changed (value : Value) (all : value.Everywhere (custody.Admits stage)) :
      (value.changed label change).Everywhere (custody.Admits stage) :=
    Value.Everywhere.changed (fun _ noObject => admits_untracked untracked noObject) kept value all
  refine ⟨fun value binds => ⟨changed value binds.everywhere, fun tracked => absurd tracked untracked, fun tracked => absurd tracked untracked⟩,
    changed, fun query finishes => ⟨⟨changed _ finishes.sound.text, ?_⟩, fun tracked => absurd tracked untracked⟩, fun _ held => held⟩
  exact List.forall_mem_map.mpr fun value member => changed value (finishes.sound.values value member)

variable (named : custody.named)
include named

private theorem Reached.changed {session : Session} (reached : custody.Reached stage session) :
    custody.Reached stage (session.change label change) := by
  refine ⟨reached.next, reached.started, fun other object given => ?_, fun other object given seen => ?_, fun other object given mine => ?_,
    fun other foreign => absurd (custody.mine_of_named named other) foreign, reached.defaults, fun _ name value given => ?_⟩
  · rw [Session.stored?_change] at given
    obtain ⟨before, here, _⟩ := Option.map_eq_some_iff.mp given
    exact reached.made other before here
  · rw [Session.stored?_change] at given
    obtain ⟨before, here, rfl⟩ := Option.map_eq_some_iff.mp given
    exact (reached.objects other before here seen).mapValues (through_changed untracked kept)
  · rw [Session.stored?_change] at given
    obtain ⟨before, here, rfl⟩ := Option.map_eq_some_iff.mp given
    exact (reached.own other before here mine).mapValues (through_changed untracked kept)
  · rw [Session.binding_change] at given
    obtain ⟨before, here, rfl⟩ := Option.map_eq_some_iff.mp given
    exact Value.Everywhere.changed (fun _ noObject => admits_untracked untracked noObject) kept before
      (reached.bindings named name before here)

omit named kept in
private theorem extended_admitted {target item after : Value} {key : Option Value} (all : target.Everywhere (custody.Admits stage))
    (keyed : ∀ given ∈ key, given.Everywhere (custody.Admits stage)) (good : item.Everywhere (custody.Admits stage))
    (done : Value.extended key item target = .ok after) : after.Everywhere (custody.Admits stage) :=
  Value.everywhere_extended (fun _ noObject => admits_untracked untracked noObject) done keyed good all

omit kept in
theorem allows_extend {target item : Value} {key : Option Value} (all : target.Everywhere (custody.Admits stage))
    (keyed : ∀ given ∈ key, given.Everywhere (custody.Admits stage)) (good : item.Everywhere (custody.Admits stage)) :
    custody.Allows stage (Session.extend target key item) fun after value => value.Everywhere (custody.Admits after) := by
  refine Keeps.after fun after done => ?_
  have whole := extended_admitted untracked all keyed good done
  split
  · next label _ =>
    split
    · exact Keeps.throw _
    · have changes : custody.Allows stage (modify (Session.change · label fun value => ((Value.extended key item value).toOption).getD value) :
          Act PUnit) fun _ _ => True := by
        refine fun before ahead session reached => ⟨before, le_rfl, reached.changed untracked (fun value all => ?_) named, fun _ _ => trivial⟩
        cases done : Value.extended key item value with
        | ok after =>
          exact extended_admitted untracked all (fun given member => admits_later (keyed given member) ahead) (admits_later good ahead) done
        | error _ => exact all
      refine changes.bind fun between ahead _ _ => allows_get.bind fun between' ahead' session _ => Keeps.pure fun _ further => ?_
      exact (admits_later whole (ahead.trans (ahead'.trans further))).refaced _ faceless after
  · exact Keeps.throw _

end Changing

/-! ### Whole scripts -/

section Scripts

-- The equations of `perform` are made here once; each step below needs one of them.
attribute [local simp] Session.perform

variable (named : custody.named)
include named

private theorem allows_create {kind : Text} {values : List Literal} {entries : List (Text × Literal)} (binding : Option Text)
    (good : ∀ literal ∈ values, literal.Sound) (goodNamed : ∀ entry ∈ entries, entry.2.Sound) :
    custody.Allows stage (Session.perform (.create kind values entries binding)) custody.Grants := by
  rw [Session.perform]
  refine (allows_evaluateAll named good).bind fun _ _ given all => (allows_evaluateNamed named goodNamed).bind fun _ ahead givenNamed allNamed => ?_
  refine (allows_call creators_permitted kind (fun value member => admits_later (all value member) ahead) allNamed).bind
    fun _ _ outcome granted => ?_
  refine (allows_bindResult binding (Value.everywhere_null free) granted).bind fun _ further _ _ => Keeps.pure fun _ further' => ?_
  exact granted.later (further.trans further')

private theorem allows_callStep {target method : Text} {values : List Literal} {entries : List (Text × Literal)} (binding : Option Text)
    (good : ∀ literal ∈ values, literal.Sound) (goodNamed : ∀ entry ∈ entries, entry.2.Sound) :
    custody.Allows stage (Session.perform (.call target method values entries binding)) custody.Grants := by
  rw [Session.perform]
  refine (allows_valueOf named target).bind fun _ _ about allAbout => ?_
  refine (allows_evaluateAll named good).bind fun _ ahead given all => (allows_evaluateNamed named goodNamed).bind fun _ ahead' givenNamed allNamed => ?_
  have here := admits_later allAbout (ahead.trans ahead')
  refine (allows_invoke here (fun label _ _ => custody.mine_of_named named label) method
    (fun value member => admits_later (all value member) ahead') allNamed).bind fun _ ahead'' outcome granted => ?_
  refine (allows_bindResult binding (admits_later here ahead'') granted).bind fun _ further _ _ => Keeps.pure fun _ further' => ?_
  exact granted.later (further.trans further')

private theorem allows_read {target name : Text} {index : Option Literal} (binding : Option Text) (good : ∀ literal ∈ index, literal.Sound) :
    custody.Allows stage (Session.perform (.read target name index binding)) custody.Grants := by
  rw [Session.perform]
  refine (allows_valueOf named target).bind fun _ _ about allAbout => (allows_readAttribute allAbout name).bind fun between ahead value all => ?_
  have finished (found : Value) {between' : Stage} (further : between ≤ between') (there : found.Everywhere (custody.Admits between')) :
      custody.Allows between' (do Session.bindResult binding about (.value found); return .value found) custody.Grants :=
    have granted : custody.Grants between' (.value found) := there
    (allows_bindResult binding (admits_later allAbout (ahead.trans further)) granted).bind fun _ ahead' _ _ =>
      Keeps.pure fun _ further' => granted.later (ahead'.trans further')
  cases index with
  | none => exact finished value le_rfl all
  | some index =>
    refine (allows_evaluate named (good index rfl)).bind fun between' further position _ => Keeps.after fun found read => ?_
    exact finished found further (Value.everywhere_item free (admits_later all further) read)

omit named in
private theorem allows_question {α : Type} {action : Act α} (quiet : custody.Allows stage action fun _ _ => True) {answer : α → Value}
    (single : ∀ value, (answer value).Single) : custody.Allows stage (do return .value (answer (← action))) custody.Grants :=
  quiet.bind fun _ _ value _ => Keeps.pure fun _ _ => Value.everywhere_of_single free (single value)

private theorem allows_assign (name : Text) {literal : Literal} (good : literal.Sound) :
    custody.Allows stage (Session.perform (.assign name literal)) custody.Grants := by
  rw [Session.perform]
  refine (allows_evaluate named good).bind fun _ _ value all => (allows_bind name all).bind fun _ further _ _ => ?_
  exact Keeps.pure fun _ further' => admits_later all (further.trans further')

private theorem allows_change (untracked : ¬ custody.tracked) (target : Text) {key : Option Literal} {literal : Literal}
    (keySound : ∀ given ∈ key, given.Sound) (good : literal.Sound) :
    custody.Allows stage (Session.perform (.change target key literal)) custody.Grants := by
  rw [Session.perform]
  refine (allows_valueOf named target).bind fun between _ about allAbout => ?_
  have read : custody.Allows between (key.mapM Session.evaluate) fun after key => ∀ given ∈ key, given.Everywhere (custody.Admits after) := by
    cases key with
    | none => exact Keeps.pure fun _ _ => (by rintro _ ⟨⟩)
    | some literal =>
      refine (allows_evaluate named (keySound literal rfl)).bind fun _ _ _ all => Keeps.pure fun _ further => ?_
      rintro _ ⟨⟩
      exact admits_later all further
  refine read.bind fun _ ahead key keyed => (allows_evaluate named good).bind fun _ ahead' item all => ?_
  refine (allows_extend untracked named (admits_later allAbout (ahead.trans ahead'))
    (fun given member => admits_later (keyed given member) ahead') all).bind fun _ _ _ whole => ?_
  exact Keeps.pure fun _ further => admits_later whole further

private theorem allows_equal (left right : Text) : custody.Allows stage (Session.perform (.equal left right)) custody.Grants := by
  rw [Session.perform]
  refine (allows_valueOf named left).bind fun _ _ _ _ => (allows_valueOf named right).bind fun _ _ _ _ => ?_
  exact allows_question (Keeps.lift fun _ _ _ _ => trivial) fun _ => trivial

private theorem allows_print (target : Text) : custody.Allows stage (Session.perform (.print target)) custody.Grants := by
  rw [Session.perform]
  refine (allows_valueOf named target).bind fun _ _ about all => Keeps.after fun written done => Keeps.pure fun _ further => ?_
  exact admits_later (Value.everywhere_worded free all done) further

private theorem allows_quote (target : Text) : custody.Allows stage (Session.perform (.quote target)) custody.Grants := by
  rw [Session.perform]
  exact (allows_valueOf named target).bind fun _ _ _ _ => allows_question (Keeps.lift fun _ _ _ _ => trivial) fun _ => trivial

private theorem allows_length (target : Text) : custody.Allows stage (Session.perform (.length target)) custody.Grants := by
  rw [Session.perform]
  refine (allows_valueOf named target).bind fun _ _ about all => allows_question ?_ fun _ => trivial
  refine (allows_object? all).bind fun _ _ found _ => ?_
  split
  all_goals
    refine Keeps.bind (show custody.Allows _ _ fun _ (_ : Option Nat) => True from Keeps.pure fun _ _ => trivial) fun _ _ length? _ => ?_
    cases length?
    · exact Keeps.throw _
    · exact Keeps.pure fun _ _ => trivial

private theorem allows_unpack (target : Text) : custody.Allows stage (Session.perform (.unpack target)) custody.Grants := by
  rw [Session.perform]
  refine (allows_valueOf named target).bind fun _ _ about all => ?_
  refine Keeps.bind (Keeps.after fun pair read => ?_) fun _ _ _ whole => Keeps.pure fun _ further => admits_later whole further
  have both := Value.everywhere_asPair free all read
  exact allows_label fun _ label ahead _ _ => Keeps.pure fun _ further =>
    Value.everywhere_newList free label (List.forall_mem_cons.mpr ⟨admits_later both.1 (ahead.trans further),
      List.forall_mem_singleton.mpr (admits_later both.2 (ahead.trans further))⟩)

private theorem allows_populate (target : Text) (groups : Bool) (parameter : Text) (steps : List Step) (returns binding : Option Text)
    (performed : ∀ {stage : Stage}, custody.Allows stage (Session.performAll steps) fun _ _ => True) :
    custody.Allows stage (Session.perform (.populate target groups parameter steps returns binding)) custody.Grants := by
  rw [Session.perform]
  have own (value : Value) : custody.OwnsHandle value := fun label _ _ => custody.mine_of_named named label
  refine (allows_valueOf named target).bind fun _ _ about allAbout => ?_
  refine (allows_populatedStatement allAbout (own about) groups).bind fun _ ahead label good => ?_
  refine (allows_new (.chain {}) forall_nothing).bind fun _ ahead' fresh allFresh => (allows_bind parameter allFresh).bind fun _ ahead'' _ _ => ?_
  refine performed.bind fun after further _ _ => ?_
  have adopted {between : Stage} (further' : after ≤ between) {returned : Value} (allReturned : returned.Everywhere (custody.Admits between)) :
      custody.Allows between (do
        let conditions ← Session.populated fresh returned
        Session.editStatement label (if groups then .groupFilter conditions else .filter conditions)
        Session.bindResult binding about .itself
        return .itself) custody.Grants := by
    refine (allows_populated (admits_later allFresh (ahead''.trans (further.trans further'))) allReturned (own fresh)
      (own returned)).bind fun between' further'' conditions under => ?_
    have change : custody.StatementChange between' (if groups then .groupFilter conditions else .filter conditions) := by
      split <;> exact under
    refine (allows_editStatement good.1 change).bind fun _ later _ _ => ?_
    have here := admits_later allAbout
      (ahead.trans (ahead'.trans (ahead''.trans (further.trans (further'.trans (further''.trans later))))))
    have granted {after : Stage} : custody.Grants after .itself := trivial
    exact (allows_bindResult binding here granted).bind fun _ _ _ _ => Keeps.pure fun _ _ => trivial
  cases returns with
  | none => exact adopted le_rfl (Value.everywhere_null free)
  | some name => exact (allows_valueOf named name).bind fun _ further' _ allReturned => adopted further' allReturned

end Scripts

mutual

/-- Every step is allowed when everything is one's own, a change in place only if it is not kept track of containers. -/
theorem allows_perform {changing : Prop} (named : custody.named) (untracked : changing → ¬ custody.tracked) : (step : Step) → step.Sound changing →
    {stage : Stage} → custody.Allows stage (Session.perform step) custody.Grants
  | .create _ _ _ binding, sound, _ => allows_create named binding sound.1 sound.2
  | .call _ _ _ _ binding, sound, _ => allows_callStep named binding sound.1 sound.2
  | .populate target groups parameter steps returns binding, sound, _ =>
    allows_populate named target groups parameter steps returns binding fun {_} => allows_performAll named untracked steps sound
  | .read _ _ _ binding, sound, _ => allows_read named binding sound
  | .assign name _, sound, _ => allows_assign named name sound
  | .change target _ _, sound, _ => allows_change named (untracked sound.1) target sound.2.1 sound.2.2
  | .equal left right, _, _ => allows_equal named left right
  | .print target, _, _ => allows_print named target
  | .quote target, _, _ => allows_quote named target
  | .length target, _, _ => allows_length named target
  | .unpack target, _, _ => allows_unpack named target

theorem allows_performAll {changing : Prop} (named : custody.named) (untracked : changing → ¬ custody.tracked) : (steps : List Step) →
    Step.SoundAll changing steps → {stage : Stage} → custody.Allows stage (Session.performAll steps) fun _ _ => True
  | [], _, _ => by
    unfold Session.performAll
    exact Keeps.pure fun _ _ => trivial
  | step :: steps, sound, _ => by
    unfold Session.performAll
    exact (allows_perform named untracked step sound.1).bind fun _ _ _ _ =>
      allows_performAll named untracked steps sound.2

end

/-- Everything is one's own. -/
def whole (tracked : Prop) : Custody where
  mine _ := True
  seen _ := True
  seen_of_mine _ _ := trivial
  first := 0
  new _ _ := trivial
  others _ := none
  tracked := tracked
  named := True
  mine_of_named _ _ := trivial

/-- An answer leaves the session where its step has led. -/
theorem exists_reached_answer {changing : Prop} (named : custody.named) (untracked : changing → ¬ custody.tracked) {session : Session}
    (reached : custody.Reached stage session) (quiet : Bool) {step : Step} (sound : step.Sound changing) :
    ∃ after, stage ≤ after ∧ custody.Reached after (session.answer quiet step).2 := by
  have here : custody.Reached stage { session with trace := { session.trace with latest := [] } } := reached.later le_rfl reached.next
  obtain ⟨after, ahead, there, _⟩ := allows_perform named untracked step sound stage le_rfl _ here
  refine ⟨after, ahead, ?_⟩
  unfold Session.answer
  dsimp only
  split
  · next same => rwa [same] at there
  · next same => rwa [same] at there

/-- Everything in a session that is reached may be held. -/
theorem exists_reached {changing : Prop} {session : Session} (reachable : session.Reachable changing) {tracked : Prop}
    (untracked : changing → ¬ tracked) : ∃ stage, (whole tracked).Reached stage session := by
  induction reachable with
  | start defaults compact deep =>
    refine ⟨⟨0, fun _ => none, by rintro _ ⟨⟩⟩, rfl, le_rfl, by rintro _ _ ⟨⟩, by rintro _ _ ⟨⟩, by rintro _ _ ⟨⟩, fun _ foreign => absurd trivial foreign, ?_, by rintro _ _ _ ⟨⟩⟩
    exact ⟨compact, deep⟩
  | step _ quiet sound ih =>
    obtain ⟨stage, reached⟩ := ih
    obtain ⟨after, _, there⟩ := exists_reached_answer trivial untracked reached quiet sound
    exact ⟨after, there⟩

end Custody

end SqlCompose
