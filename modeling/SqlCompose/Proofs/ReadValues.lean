import Mathlib
import SqlCompose.Numbering
import SqlCompose.Proofs.FreshCopies
import SqlCompose.Session.Container
import SqlCompose.Statement.OrderEntry

/-!
# What is read off a value

Items, pairs, words and entries of a value are parts of it, or they are made anew and are neither objects nor records. So what holds of all objects and records that lie in a value holds of those in everything that is read off it.
-/

namespace SqlCompose

open Build

namespace Value

/-- A value that contains no other. -/
def Single : Value → Prop
  | list _ _ | tuple _ _ | dict _ _ | record _ _ _ | object _ _ => False
  | _ => True

variable {holds : Value → Prop} (free : OfHandles holds)

theorem everywhere_of_single (free : OfHandles holds) {value : Value} (single : value.Single) : value.Everywhere holds := by
  have alone : value.parts = [value] := by
    cases value <;> first | rfl | exact absurd single id
  intro part member
  rw [alone, List.mem_singleton] at member
  subst member
  refine free part ?_ ?_ ?_
  all_goals
    intros
    rintro rfl
    exact single

/-! ### Items -/

include free

theorem everywhere_int (n : Int) : (int n).Everywhere holds :=
  List.forall_mem_singleton.mpr (free.other rfl)

theorem everywhere_bool (b : Bool) : (bool b).Everywhere holds :=
  List.forall_mem_singleton.mpr (free.other rfl)

theorem everywhere_null : null.Everywhere holds :=
  List.forall_mem_singleton.mpr (free.other rfl)

theorem everywhere_entry (e : ListEntry) : (entry e).Everywhere holds :=
  List.forall_mem_singleton.mpr (free.other rfl)

theorem everywhere_bytes (content : List UInt8) : (bytes content).Everywhere holds :=
  List.forall_mem_singleton.mpr (free.other rfl)

theorem everywhere_byteArray (label : Label) (content : List UInt8) : (byteArray label content).Everywhere holds :=
  List.forall_mem_singleton.mpr (free.other rfl)

theorem everywhere_newList (label : Label) {items : List Value} (all : AllEverywhere holds items) :
    (list label items).Everywhere holds :=
  everywhere_list.mpr ⟨free.other rfl, all⟩

theorem everywhere_newTuple (label : Label) {items : List Value} (all : AllEverywhere holds items) :
    (tuple label items).Everywhere holds :=
  everywhere_tuple.mpr ⟨free.other rfl, all⟩

theorem everywhere_items? {value : Value} (all : value.Everywhere holds) {items : List Value} (read : value.items? = some items) :
    AllEverywhere holds items := by
  unfold items? at read
  split at read
  · cases read
    exact List.forall_mem_map.mpr fun c _ => everywhere_text free _
  · cases read
    exact List.forall_mem_map.mpr fun c _ => everywhere_text free _
  · cases read
    exact List.forall_mem_map.mpr fun byte _ => everywhere_int free _
  · cases read
    exact List.forall_mem_map.mpr fun byte _ => everywhere_int free _
  · cases read
    exact (everywhere_list.mp all).2
  · cases read
    exact (everywhere_tuple.mp all).2
  · cases read
    exact List.forall_mem_map.mpr fun entry member => ((everywhere_dict.mp all).2 entry member).1
  · cases read
    exact (everywhere_record.mp all).2
  · cases read
    exact (everywhere_record.mp all).2
  · cases read
    simp only [AllEverywhere, List.forall_mem_cons]
    exact ⟨everywhere_int free 0, everywhere_int free 1, everywhere_int free 2, by rintro _ ⟨⟩⟩
  · cases read
    exact List.forall_mem_singleton.mpr (everywhere_int free 1)
  · cases read
    exact allEverywhere_nil
  · cases read

theorem everywhere_items {value : Value} (all : value.Everywhere holds) {items : List Value} (read : value.items = .ok items) :
    AllEverywhere holds items := by
  unfold Value.items at read
  split at read
  · next given =>
    cases read
    exact everywhere_items? free all given
  · cases read

theorem everywhere_asList {value : Value} (all : value.Everywhere holds) {items : List Value} (read : value.asList = .ok items) :
    AllEverywhere holds items := by
  unfold asList at read
  split at read
  · cases read
    exact List.forall_mem_singleton.mpr all
  · exact everywhere_items free all read

omit free in
theorem everywhere_tuple? {value : Value} (all : value.Everywhere holds) {items : List Value} (read : value.tuple? = some items) :
    AllEverywhere holds items := by
  unfold tuple? at read
  split at read
  · cases read
    exact (everywhere_tuple.mp all).2
  · cases read
    exact (everywhere_record.mp all).2
  · cases read

theorem everywhere_asPair {value : Value} (all : value.Everywhere holds) {pair : Value × Value} (read : value.asPair = .ok pair) :
    pair.1.Everywhere holds ∧ pair.2.Everywhere holds := by
  obtain ⟨items, given, further⟩ := Outcome.bind_eq_ok.mp read
  have each := everywhere_items free all given
  split at further
  · cases further
    exact ⟨each _ (by simp), each _ (by simp)⟩
  · cases further
  · cases further
  · cases further

omit free in
theorem everywhere_entry? {label : Label} {entries : List (Value × Value)} (all : (dict label entries).Everywhere holds) {key found : Value}
    (read : entry? key entries = some found) : found.Everywhere holds := by
  obtain ⟨pair, here, rfl⟩ := Option.map_eq_some_iff.mp read
  exact ((everywhere_dict.mp all).2 pair (List.mem_of_find?_eq_some here)).2

theorem everywhere_item {value key found : Value} (all : value.Everywhere holds) (read : value.item key = .ok found) :
    found.Everywhere holds := by
  unfold item at read
  split at read
  · split at read
    · split at read
      · next given =>
        cases read
        exact everywhere_entry? all given
      · cases read
    · cases read
  · split at read
    · cases read
    · next items given =>
      have each : AllEverywhere holds items := by
        unfold sequence? at given
        split at given
        · cases given
        · cases given
        · cases given
        · cases given
        · exact everywhere_items? free all given
      obtain ⟨position, _, further⟩ := Outcome.bind_eq_ok.mp read
      obtain ⟨place, _, further⟩ := Outcome.bind_eq_ok.mp further
      split at further
      · next here =>
        cases further
        exact each _ (List.mem_of_getElem? here)
      · cases further

theorem everywhere_worded {value given : Value} (all : value.Everywhere holds) (read : value.worded = .ok given) :
    given.Everywhere holds := by
  unfold worded at read
  split at read
  · split at read
    · cases read
      exact (everywhere_record.mp all).2 _ (by simp)
    · cases read
  · split at read
    · cases read
      exact (everywhere_record.mp all).2 _ (by simp)
    · cases read
  · obtain ⟨t, _, rfl⟩ := Outcome.map_eq_ok.mp read
    exact everywhere_text free t

omit free in
theorem everywhere_orElse {standard value : Value} (all : standard.Everywhere holds) (all' : value.Everywhere holds) :
    (orElse standard value).Everywhere holds := by
  cases value <;> assumption

theorem everywhere_plus {value given : Value} (all : value.Everywhere holds) {n : Int} (read : value.plus n = .ok given) :
    given.Everywhere holds := by
  unfold plus at read
  split at read
  · cases read
    exact everywhere_int free _
  · cases read
    exact everywhere_int free _
  · cases read
    exact List.forall_mem_singleton.mpr (free.other rfl)
  · cases read
    exact List.forall_mem_singleton.mpr (free.other rfl)
  · cases read
    exact List.forall_mem_singleton.mpr (free.other rfl)
  · split at read
    · cases read
    · split at read
      · cases read
        exact all
      · cases read

theorem everywhere_bindFrom {text : Text} {start : Value} (all : start.Everywhere holds) {result : Text × Value}
    (read : bindFrom text start = .ok result) : result.2.Everywhere holds := by
  have each : ∀ (tokens : List Token) (start : Value), start.Everywhere holds → ∀ result : Text × Value,
      Token.bindFrom start tokens = .ok result → result.2.Everywhere holds := by
    intro tokens
    induction tokens with
    | nil =>
      intro start all result read
      cases read
      exact all
    | cons token rest ih =>
      intro start all result read
      unfold Token.bindFrom at read
      split at read
      · cases read
        exact all
      · next same =>
        cases same
        obtain ⟨after, added, read⟩ := Outcome.bind_eq_ok.mp read
        obtain ⟨_, _, read⟩ := Outcome.bind_eq_ok.mp read
        obtain ⟨others, there, read⟩ := Outcome.bind_eq_ok.mp read
        cases read
        exact ih after (everywhere_plus free all added) others there
      · next same =>
        cases same
        obtain ⟨others, there, read⟩ := Outcome.bind_eq_ok.mp read
        cases read
        exact ih start all others there
  exact each (Token.read text) start all result read

theorem gives_renderedValue {first : Label} {text next : Value} (readable : text.Everywhere holds) {values : List Value}
    (sound : AllEverywhere holds values) (index : next.Everywhere holds) :
    Gives first (renderedValue text values next) fun _ value => value.Everywhere holds := by
  refine gives_freshLabel.bind fun _ _ held _ => gives_freshLabel.bind fun _ _ label _ => Keeps.pure fun _ _ => ?_
  refine everywhere_record.mpr ⟨free.other rfl, List.forall_mem_cons.mpr ⟨readable, List.forall_mem_cons.mpr
    ⟨everywhere_newList free held sound, List.forall_mem_singleton.mpr index⟩⟩⟩

theorem gives_renderFrom {first : Label} {predicate : Predicate} (sound : AllEverywhere holds predicate.values) {start : Value}
    (all : start.Everywhere holds) : Gives first (predicate.renderFrom start) fun _ value => value.Everywhere holds :=
  Keeps.after fun _ read => gives_renderedValue free (everywhere_text free _) sound (everywhere_bindFrom free all read)

/-! ### Columns with values -/

omit free in
theorem gives_takeOver {first : Label} {pair : Value × Value} (all : pair.1.Everywhere holds) :
    Gives first (takeOver pair) fun next taken => taken.1.Everywhere holds ∧ taken.2.Made first next :=
  (gives_check pair.2).bind fun _ _ _ made => Keeps.pure fun _ further => ⟨all, made.later further⟩

theorem gives_takeOverPairs {first : Label} {value : Value} (all : value.Everywhere holds) :
    Gives first (takeOverPairs value) fun next pairs => ∀ pair ∈ pairs, pair.1.Everywhere holds ∧ pair.2.Made first next := by
  have growing : Growing fun next (taken : Value × Value) => taken.1.Everywhere holds ∧ taken.2.Made first next :=
    fun _ _ further _ good => ⟨good.1, good.2.later further⟩
  unfold takeOverPairs
  split
  · exact Keeps.mapM growing fun entry member => gives_takeOver ((everywhere_dict.mp all).2 entry member).1
  · refine Keeps.after fun items read => Keeps.mapM growing fun item member => Keeps.after fun pair given => ?_
    exact gives_takeOver (everywhere_asPair free (everywhere_items free all read item member) given).1

end Value

/-! ### Entries of an order -/

namespace OrderBy

variable {holds : Value → Prop} (free : Value.OfHandles holds)

theorem field_of_make {field direction : Value} {order : OrderBy} (done : make field direction = .ok order) : order.field = field := by
  obtain ⟨_, _, rfl⟩ := Outcome.map_eq_ok.mp done
  rfl

include free

theorem everywhere_ofEntry {direction value : Value} (all : value.Everywhere holds) {order : OrderBy}
    (read : ofEntry direction value = .ok order) : order.field.Everywhere holds := by
  unfold ofEntry at read
  split at read
  · next order' given =>
    cases read
    unfold ofValue? at given
    split at given
    · obtain ⟨_, _, rfl⟩ := Option.map_eq_some_iff.mp given
      exact (Value.everywhere_record.mp all).2 _ (by simp)
    · cases given
  · next items _ given =>
    have each := Value.everywhere_tuple? all given
    unfold ofItems at read
    split at read
    · rw [field_of_make read]
      exact each _ (by simp)
    · rw [field_of_make read]
      exact each _ (by simp)
    · cases read
  · split at read
    · next entries _ _ =>
      have field : (fieldOf entries).Everywhere holds := by
        unfold fieldOf
        split
        · next given => exact Value.everywhere_entry? all given
        · cases given : Value.entry? (.text "column") entries with
          | none => exact Value.everywhere_null free
          | some field => exact Value.everywhere_entry? all given
      dsimp only at read
      split at read
      · rwa [field_of_make read]
      · obtain ⟨_, _, refused⟩ := Outcome.bind_eq_ok.mp read
        cases refused
    · rwa [field_of_make read]

end OrderBy

end SqlCompose
