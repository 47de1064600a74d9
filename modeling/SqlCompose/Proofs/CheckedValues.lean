import Mathlib
import SqlCompose.Proofs.Containers
import SqlCompose.Proofs.WrittenNumbers

/-!
# What is accepted as a value

A value is a tree of lists, tuples and dictionaries with scalars at its leaves. It is accepted if each of its elements is, seen by itself; which of them is refused first is settled by their order from the outside in and from left to right. What is accepted is copied: only the labels of its containers change, and rendered texts become the tuples that they are (`Value.check_closed`).
-/

namespace SqlCompose.Value

/-! ### Elements -/

mutual

/-- A value and what lies in it at any depth of lists, tuples and values of dictionaries, from the outside in and from left to right. -/
def elements : Value → List Value
  | list label items => list label items :: elementsOfAll items
  | tuple label items => tuple label items :: elementsOfAll items
  | record label .rendered fields => record label .rendered fields :: elementsOfAll fields
  | dict label entries => dict label entries :: elementsOfEntries entries
  | value => [value]

def elementsOfAll : List Value → List Value
  | [] => []
  | item :: items => elements item ++ elementsOfAll items

def elementsOfEntries : List (Value × Value) → List Value
  | [] => []
  | (_, value) :: entries => elements value ++ elementsOfEntries entries

end

/-- Whether an element is a scalar, a list, a tuple or a dictionary with texts for keys; a rendered text is a tuple. -/
def Supported : Value → Prop
  | dict _ entries => ∀ entry ∈ entries, entry.1.isText = true
  | record _ kind _ => kind = .rendered
  | unbindable _ _ | object _ _ => False
  | _ => True

/-- What is wrong with an element, seen by itself; of a dictionary, what is wrong with its first key that is no text. -/
def refusal? : Value → Option Error
  | dict _ entries => ((entries.map (·.1)).find? fun key => !key.isText).map fun key => .keyNotText key.typeName
  | record _ .rendered _ => none
  | record label kind fields => some (kindRefusal kind.name (record label kind fields).shown)
  | unbindable _ kind => some (.unsupportedValue kind.typeName kind.shown)
  | object label face => some (kindRefusal face.kind (object label face).shown)
  | _ => none

theorem refusal?_eq_none {value : Value} : value.refusal? = none ↔ value.Supported := by
  cases value with
  | dict label entries => simp [refusal?, Supported]
  | record label kind fields => cases kind <;> simp [refusal?, Supported]
  | _ => simp [refusal?, Supported]

theorem faultKeys?_eq (label : Label) (entries : List (Value × Value)) : faultKeys? entries = refusal? (dict label entries) := by
  induction entries with
  | nil => rfl
  | cons entry entries others =>
    rw [refusal?] at others ⊢
    rw [faultKeys?, others, List.map_cons, List.find?_cons]
    cases entry.1.isText <;> rfl

mutual

theorem fault?_eq_findSome? : (value : Value) → value.fault? = value.elements.findSome? refusal?
  | list _ items | tuple _ items | record _ .rendered items => by
    rw [fault?, elements, List.findSome?_cons, faultItems?_eq_findSome?]
    rfl
  | dict label entries => by
    rw [fault?, elements, List.findSome?_cons, faultKeys?_eq label, faultEntries?_eq_findSome?]
    cases refusal? (dict label entries) <;> rfl
  | byteArray _ _ | null | bool _ | int _ | float _ | floatNaN _ | decimal _ | decimalNaN _ _ | text _ | entry _
  | bytes _ | date _ | dateTime _ | time _ | duration _ _ _ | uuid _ | unbindable _ _ | object _ _
  | record _ .predicate _ | record _ .builtQuery _ | record _ .orderBy _ | record _ .columnType _
  | record _ .foreignKey _ => rfl

theorem faultItems?_eq_findSome? : (items : List Value) → faultItems? items = (elementsOfAll items).findSome? refusal?
  | [] => rfl
  | item :: items => by
    rw [faultItems?, elementsOfAll, List.findSome?_append, fault?_eq_findSome?, faultItems?_eq_findSome?]
    cases item.elements.findSome? refusal? <;> rfl

theorem faultEntries?_eq_findSome? :
    (entries : List (Value × Value)) → faultEntries? entries = (elementsOfEntries entries).findSome? refusal?
  | [] => rfl
  | (_, value) :: entries => by
    rw [faultEntries?, elementsOfEntries, List.findSome?_append, fault?_eq_findSome?, faultEntries?_eq_findSome?]
    cases value.elements.findSome? refusal? <;> rfl

end

/-! ### Checking item by item -/

mutual

/-- A value checked and copied in one go: the keys of a dictionary first, and each item before the next. -/
def accept (next : Label) : Value → Except Error (Value × Label)
  | byteArray _ content => .ok (byteArray next content, next + 1)
  | list _ items => (acceptAll (next + 1) items).map fun (items, after) => (list next items, after)
  | tuple _ items | record _ .rendered items => (acceptAll (next + 1) items).map fun (items, after) => (tuple next items, after)
  | dict label entries =>
    match refusal? (dict label entries) with
    | some error => .error error
    | none => (acceptEntries (next + 1) entries).map fun (entries, after) => (dict next entries, after)
  | value =>
    match refusal? value with
    | some error => .error error
    | none => .ok (value, next)

def acceptAll (next : Label) : List Value → Except Error (List Value × Label)
  | [] => .ok ([], next)
  | item :: items => do
    let (item, next) ← accept next item
    let (items, next) ← acceptAll next items
    return (item :: items, next)

def acceptEntries (next : Label) : List (Value × Value) → Except Error (List (Value × Value) × Label)
  | [] => .ok ([], next)
  | (key, value) :: entries => do
    let (value, next) ← accept next value
    let (entries, next) ← acceptEntries next entries
    return ((key, value) :: entries, next)

end

/-- A result, unless there is a fault. -/
def unlessFault {α : Type} (fault : Option Error) (result : α) : Except Error α :=
  match fault with
  | some error => .error error
  | none => .ok result

mutual

theorem accept_eq (next : Label) : (value : Value) → accept next value = unlessFault value.fault? (copyFrom next value)
  | list _ items | tuple _ items | record _ .rendered items => by
    rw [accept, acceptAll_eq, fault?, copyFrom]
    cases faultItems? items <;> rfl
  | dict label entries => by
    rw [accept, acceptEntries_eq, fault?, copyFrom, faultKeys?_eq label]
    cases refusal? (dict label entries) with
    | some error => rfl
    | none => cases faultEntries? entries <;> rfl
  | byteArray _ _ | null | bool _ | int _ | float _ | floatNaN _ | decimal _ | decimalNaN _ _ | text _ | entry _
  | bytes _ | date _ | dateTime _ | time _ | duration _ _ _ | uuid _ | unbindable _ _ | object _ _
  | record _ .predicate _ | record _ .builtQuery _ | record _ .orderBy _ | record _ .columnType _
  | record _ .foreignKey _ => rfl

theorem acceptAll_eq (next : Label) : (items : List Value) → acceptAll next items = unlessFault (faultItems? items) (copyItems next items)
  | [] => rfl
  | item :: items => by
    rw [acceptAll, accept_eq, faultItems?, copyItems]
    cases item.fault? with
    | some error => rfl
    | none =>
      change (acceptAll (copyFrom next item).2 items >>= fun _ => _) = _
      rw [acceptAll_eq]
      cases faultItems? items <;> rfl

theorem acceptEntries_eq (next : Label) :
    (entries : List (Value × Value)) → acceptEntries next entries = unlessFault (faultEntries? entries) (copyEntries next entries)
  | [] => rfl
  | (key, value) :: entries => by
    rw [acceptEntries, accept_eq, faultEntries?, copyEntries]
    cases value.fault? with
    | some error => rfl
    | none =>
      change (acceptEntries (copyFrom next value).2 entries >>= fun _ => _) = _
      rw [acceptEntries_eq]
      cases faultEntries? entries <;> rfl

end

/-! ### The same but for labels -/

mutual

/-- A value without the labels of its lists, tuples, dictionaries and arrays of bytes: their content, in order, with their kinds. -/
def unlabelled : Value → Value
  | list _ items => list 0 (unlabelledAll items)
  | tuple _ items => tuple 0 (unlabelledAll items)
  | record _ .rendered fields => record 0 .rendered (unlabelledAll fields)
  | dict _ entries => dict 0 (unlabelledEntries entries)
  | byteArray _ content => byteArray 0 content
  | value => value

def unlabelledAll : List Value → List Value
  | [] => []
  | item :: items => unlabelled item :: unlabelledAll items

def unlabelledEntries : List (Value × Value) → List (Value × Value)
  | [] => []
  | (key, value) :: entries => (key, unlabelled value) :: unlabelledEntries entries

end

mutual

/-- A value with tuples for the rendered texts in it. -/
def plain : Value → Value
  | list label items => list label (plainAll items)
  | tuple label items | record label .rendered items => tuple label (plainAll items)
  | dict label entries => dict label (plainEntries entries)
  | value => value

def plainAll : List Value → List Value
  | [] => []
  | item :: items => plain item :: plainAll items

def plainEntries : List (Value × Value) → List (Value × Value)
  | [] => []
  | (key, value) :: entries => (key, plain value) :: plainEntries entries

end

mutual

/-- A copy has the content of the original, and tuples for the rendered texts in it. -/
theorem unlabelled_copyFrom (next : Label) : (value : Value) → (copyFrom next value).1.unlabelled = value.plain.unlabelled
  | list _ items | tuple _ items | record _ .rendered items => by
    rw [copyFrom, plain, unlabelled, unlabelled, unlabelledAll_copyItems]
  | dict _ entries => by
    rw [copyFrom, plain, unlabelled, unlabelled, unlabelledEntries_copyEntries]
  | byteArray _ _ | null | bool _ | int _ | float _ | floatNaN _ | decimal _ | decimalNaN _ _ | text _ | entry _
  | bytes _ | date _ | dateTime _ | time _ | duration _ _ _ | uuid _ | unbindable _ _ | object _ _
  | record _ .predicate _ | record _ .builtQuery _ | record _ .orderBy _ | record _ .columnType _
  | record _ .foreignKey _ => rfl

theorem unlabelledAll_copyItems (next : Label) :
    (items : List Value) → unlabelledAll (copyItems next items).1 = unlabelledAll (plainAll items)
  | [] => rfl
  | item :: items => by
    rw [copyItems, plainAll, unlabelledAll, unlabelledAll, unlabelled_copyFrom, unlabelledAll_copyItems]

theorem unlabelledEntries_copyEntries (next : Label) :
    (entries : List (Value × Value)) → unlabelledEntries (copyEntries next entries).1 = unlabelledEntries (plainEntries entries)
  | [] => rfl
  | (_, value) :: entries => by
    rw [copyEntries, plainEntries, unlabelledEntries, unlabelledEntries, unlabelled_copyFrom, unlabelledEntries_copyEntries]

end

mutual

theorem plain_copyFrom (next : Label) : (value : Value) → (copyFrom next value).1.plain = (copyFrom next value).1
  | list _ items | tuple _ items | record _ .rendered items => by
    rw [copyFrom, plain, plainAll_copyItems]
  | dict _ entries => by
    rw [copyFrom, plain, plainEntries_copyEntries]
  | byteArray _ _ | null | bool _ | int _ | float _ | floatNaN _ | decimal _ | decimalNaN _ _ | text _ | entry _
  | bytes _ | date _ | dateTime _ | time _ | duration _ _ _ | uuid _ | unbindable _ _ | object _ _
  | record _ .predicate _ | record _ .builtQuery _ | record _ .orderBy _ | record _ .columnType _
  | record _ .foreignKey _ => rfl

theorem plainAll_copyItems (next : Label) : (items : List Value) → plainAll (copyItems next items).1 = (copyItems next items).1
  | [] => rfl
  | item :: items => by
    rw [copyItems, plainAll, plain_copyFrom, plainAll_copyItems]

theorem plainEntries_copyEntries (next : Label) :
    (entries : List (Value × Value)) → plainEntries (copyEntries next entries).1 = (copyEntries next entries).1
  | [] => rfl
  | (_, value) :: entries => by
    rw [copyEntries, plainEntries, plain_copyFrom, plainEntries_copyEntries]

end

mutual

theorem plain_of_not_rendered : (value : Value) → (∀ label fields, record label .rendered fields ∉ value.elements) → value.plain = value
  | list _ items, unrendered | tuple _ items, unrendered => by
    rw [plain, plainAll_of_not_rendered items fun label fields member => unrendered label fields (List.mem_cons_of_mem _ member)]
  | record label .rendered fields, unrendered => absurd List.mem_cons_self (unrendered label fields)
  | dict _ entries, unrendered => by
    rw [plain, plainEntries_of_not_rendered entries fun label fields member => unrendered label fields (List.mem_cons_of_mem _ member)]
  | byteArray _ _, _ | null, _ | bool _, _ | int _, _ | float _, _ | floatNaN _, _ | decimal _, _ | decimalNaN _ _, _ | text _, _ | entry _, _
  | bytes _, _ | date _, _ | dateTime _, _ | time _, _ | duration _ _ _, _ | uuid _, _ | unbindable _ _, _ | object _ _, _
  | record _ .predicate _, _ | record _ .builtQuery _, _ | record _ .orderBy _, _ | record _ .columnType _, _
  | record _ .foreignKey _, _ => rfl

theorem plainAll_of_not_rendered :
    (items : List Value) → (∀ label fields, record label .rendered fields ∉ elementsOfAll items) → plainAll items = items
  | [], _ => rfl
  | item :: items, unrendered => by
    rw [plainAll, plain_of_not_rendered item fun label fields member => unrendered label fields (List.mem_append_left _ member),
      plainAll_of_not_rendered items fun label fields member => unrendered label fields (List.mem_append_right _ member)]

theorem plainEntries_of_not_rendered :
    (entries : List (Value × Value)) → (∀ label fields, record label .rendered fields ∉ elementsOfEntries entries) → plainEntries entries = entries
  | [], _ => rfl
  | (_, value) :: entries, unrendered => by
    rw [plainEntries, plain_of_not_rendered value fun label fields member => unrendered label fields (List.mem_append_left _ member),
      plainEntries_of_not_rendered entries fun label fields member => unrendered label fields (List.mem_append_right _ member)]

end

/-! ### The check -/

open Build

variable {value : Value} {trace : Trace}

theorem runFrom_copy (value : Value) (trace : Trace) :
    value.copy.runFrom trace = (.ok (copyFrom trace.nextLabel value).1, { trace with nextLabel := (copyFrom trace.nextLabel value).2 }) := rfl

theorem runFrom_check_of_fault {error : Error} (fault : value.fault? = some error) : value.check.runFrom trace = (.error error, trace) := by
  rw [check, fault]
  rfl

theorem runFrom_check_of_sound (sound : value.fault? = none) : value.check.runFrom trace = value.copy.runFrom trace := by
  rw [check, sound]

theorem check_eq_error {error : Error} : (value.check.runFrom trace).1 = .error error ↔ value.fault? = some error := by
  cases fault : value.fault? with
  | none => simp [runFrom_check_of_sound fault, runFrom_copy]
  | some other => simp [runFrom_check_of_fault fault]

theorem check_eq_ok {copy : Value} :
    (value.check.runFrom trace).1 = .ok copy ↔ value.fault? = none ∧ (copyFrom trace.nextLabel value).1 = copy := by
  cases fault : value.fault? with
  | none => simp [runFrom_check_of_sound fault, runFrom_copy]
  | some other => simp [runFrom_check_of_fault fault]

theorem fault?_eq_none : value.fault? = none ↔ ∀ element ∈ value.elements, element.Supported := by
  simp only [fault?_eq_findSome?, List.findSome?_eq_none_iff, refusal?_eq_none]

/-- What an element is refused with: a failure that quotes it, or names its key, or says that a number in it is too long to be quoted. -/
inductive Refused (value : Value) : Error → Prop
  | quoted (type shown : Text) : Refused value (.unsupportedValue type shown)
  | key (type : Text) : Refused value (.keyNotText type)
  | tooLong (hidden : value.shown = .error .numberTooLong) : Refused value .numberTooLong

private theorem refused_kindRefusal (kind : Text) (value : Value) : value.Refused (kindRefusal kind value.shown) := by
  rcases kindRefusal_cases kind value with ⟨shown, quoted⟩ | ⟨long, hidden⟩
  · rw [quoted]
    exact .quoted kind shown
  · rw [long]
    exact .tooLong hidden

theorem refused_of_refusal? {error : Error} (refused : value.refusal? = some error) : value.Refused error := by
  cases value with
  | dict label entries =>
    obtain ⟨key, -, rfl⟩ := Option.map_eq_some_iff.mp refused
    exact .key _
  | record label kind fields =>
    cases kind with
    | rendered => cases refused
    | _ =>
      obtain rfl := Option.some.inj refused
      exact refused_kindRefusal _ _
  | unbindable label kind =>
    obtain rfl := Option.some.inj refused
    exact .quoted _ _
  | object label face =>
    obtain rfl := Option.some.inj refused
    exact refused_kindRefusal _ _
  | _ => cases refused

/-- A list, a dictionary and an array of bytes inside of others. -/
def nested : Value :=
  list 0 [tuple 1 [int 1, byteArray 2 [7]], dict 3 [(text "k", list 4 [null])]]

/-- A dictionary with a key that is no text and a value that cannot be bound. -/
def misnamed : Value :=
  dict 0 [(text "k", unbindable 1 .range), (int 1, null)]

end SqlCompose.Value
