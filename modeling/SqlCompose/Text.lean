/-!
# Text

Text is a list of characters, so that every scanner below is a recursion on it. A string literal is read as text where text is expected.
-/

namespace SqlCompose

abbrev Text := List Char

instance : Coe String Text := ⟨String.toList⟩

namespace Text

def join (separator : Text) (texts : List Text) : Text :=
  separator.intercalate texts

/-- The pieces between the occurrences of a character; there is always at least one piece. -/
def split (separator : Char) : Text → List Text
  | [] => [[]]
  | c :: rest =>
    if c = separator then [] :: split separator rest
    else match split separator rest with
      | [] => [[c]]
      | piece :: pieces => (c :: piece) :: pieces

theorem split_ne_nil (separator : Char) (text : Text) : split separator text ≠ [] := by
  induction text with
  | nil => simp [split]
  | cons c rest ih =>
    rw [split]
    split
    · simp
    · cases h : split separator rest <;> simp

def after? : Text → Text → Option Text
  | [], text => some text
  | _ :: _, [] => none
  | expected :: opening, c :: rest => if c = expected then after? opening rest else none

theorem after?_eq_some_iff {opening text rest : Text} : after? opening text = some rest ↔ text = opening ++ rest := by
  induction opening generalizing text with
  | nil => simp [after?, eq_comm]
  | cons expected opening ih =>
    cases text with
    | nil => simp [after?]
    | cons c tail =>
      by_cases same : c = expected <;> simp [after?, same, ih]

def double (c : Char) (text : Text) : Text :=
  text.flatMap fun d => if d = c then [c, c] else [d]

def indent (spaces : Nat) (text : Text) : Text :=
  join ['\n'] ((split '\n' text).map (List.replicate spaces ' ' ++ ·))

end Text

end SqlCompose
