import Mathlib
import SqlCompose.Token

/-!
# How an unquoted text reads

The tokens of an unquoted text are found from left to right, each as long as it can be. `Reads` says this as a relation between a text and its tokens, with the condition under which each token ends where it does, and `reads_iff` says that it is what the scanner computes.

A plain dollar sign is the one token that depends on more than the next character. It looks no further than to the next marker or dollar sign (`afterDollar?_plainRun`), which is why putting another placeholder or marker in the place of one leaves all other tokens as they are.
-/

namespace SqlCompose

/-- The text is empty, or its first character is none of some kind. -/
def Text.BeginsOutside (kind : Char → Bool) (text : Text) : Prop :=
  ∀ c ∈ text.head?, kind c = false

namespace Text.BeginsOutside

variable {kind : Char → Bool}

theorem nil : BeginsOutside kind [] := by
  simp [BeginsOutside]

theorem cons {c : Char} {rest : Text} (outside : kind c = false) : BeginsOutside kind (c :: rest) := by
  simpa [BeginsOutside] using outside

theorem takeWhile_eq_nil {rest : Text} (outside : BeginsOutside kind rest) : rest.takeWhile kind = [] := by
  cases rest with
  | nil => rfl
  | cons c rest => simp [outside c (by simp)]

theorem takeWhile_append {run rest : Text} (outside : BeginsOutside kind rest) (all : ∀ c ∈ run, kind c) :
    (run ++ rest).takeWhile kind = run := by
  rw [List.takeWhile_append_of_pos all, outside.takeWhile_eq_nil, List.append_nil]

theorem dropWhile (text : Text) : BeginsOutside kind (text.dropWhile kind) := by
  intro c head
  cases rest : text.dropWhile kind with
  | nil => simp [rest] at head
  | cons d tail =>
    obtain rfl : d = c := by simpa [rest] using head
    have nonempty : text.dropWhile kind ≠ [] := by simp [rest]
    have first := List.head_dropWhile_not kind nonempty
    simpa [rest] using first

end Text.BeginsOutside

namespace Token

theorem isDigit_question : Text.isDigit '?' = false := by decide

theorem isDigit_dollar : Text.isDigit '$' = false := by decide

/-- The characters that begin a token of more than one character, or a marker. -/
def isSign (c : Char) : Bool :=
  c == '?' || c == '$'

theorem not_isSign_of_isDigit {c : Char} (digit : Text.isDigit c) : isSign c = false := by
  have question : c ≠ '?' := fun same => by simp [same, isDigit_question] at digit
  have dollar : c ≠ '$' := fun same => by simp [same, isDigit_dollar] at digit
  simp [isSign, question, dollar]

/-! ### What a dollar sign begins -/

theorem afterDollar?_placeholder {digits rest : Text} (some : digits ≠ []) (all : ∀ c ∈ digits, Text.isDigit c)
    (stop : rest.BeginsOutside Text.isDigit) :
    afterDollar? (digits ++ rest) = .some (placeholder digits, digits.length) := by
  have run : (digits ++ rest).takeWhile Text.isDigit = digits := stop.takeWhile_append all
  have nonempty : digits.isEmpty = false := by simpa using some
  simp only [afterDollar?, run, nonempty]
  rfl

private theorem plain_schema : ∀ c ∈ ("schema" : Text), isSign c = false := by
  have all : ("schema" : Text).all (fun c => !isSign c) = true := rfl
  intro c member
  simpa using List.all_eq_true.mp all c member

private theorem takeWhile_schema (rest : Text) : (("schema" : Text) ++ rest).takeWhile Text.isDigit = [] := by
  have head : Text.isDigit 's' = false := by decide
  change ('s' :: (_ ++ rest)).takeWhile Text.isDigit = []
  rw [List.takeWhile_cons_of_neg (by simp [head])]

theorem afterDollar?_schema {digits rest : Text} (all : ∀ c ∈ digits, Text.isDigit c)
    (stop : rest.BeginsOutside Text.isDigit) (apart : rest.BeginsOutside Text.isWord) :
    afterDollar? ("schema" ++ (digits ++ rest)) = .some (schema digits, 6 + digits.length) := by
  have found : Text.after? "schema" ("schema" ++ (digits ++ rest)) = .some (digits ++ rest) :=
    Text.after?_eq_some_iff.mpr rfl
  have run : (digits ++ rest).takeWhile Text.isDigit = digits := stop.takeWhile_append all
  simp only [afterDollar?, takeWhile_schema, found, run, List.drop_left, List.isEmpty_nil, if_true]
  cases rest with
  | nil => rfl
  | cons c rest => simp [apart c (by simp)]

/-- What a dollar sign begins, if it begins anything, with the text behind it and what ends it. -/
theorem afterDollar?_eq_some {rest : Text} {token : Token} {taken : Nat} (found : afterDollar? rest = some (token, taken)) :
    (∃ digits tail, token = placeholder digits ∧ rest = digits ++ tail ∧ taken = digits.length ∧ digits ≠ [] ∧
      (∀ c ∈ digits, Text.isDigit c) ∧ tail.BeginsOutside Text.isDigit) ∨
    (∃ digits tail, token = schema digits ∧ rest = "schema" ++ (digits ++ tail) ∧ taken = 6 + digits.length ∧
      (∀ c ∈ digits, Text.isDigit c) ∧ tail.BeginsOutside Text.isDigit ∧ tail.BeginsOutside Text.isWord) := by
  have digitsOf : ∀ text : Text, ∀ c ∈ text.takeWhile Text.isDigit, Text.isDigit c := fun text c member =>
    List.mem_takeWhile_imp member
  simp only [afterDollar?] at found
  split at found
  · next empty =>
    cases after : Text.after? "schema" rest with
    | none =>
      rw [after] at found
      cases found
    | some tail =>
      obtain rfl := Text.after?_eq_some_iff.mp after
      right
      have pieces : tail.takeWhile Text.isDigit ++ tail.dropWhile Text.isDigit = tail := List.takeWhile_append_dropWhile
      have dropped : tail.drop (tail.takeWhile Text.isDigit).length = tail.dropWhile Text.isDigit := calc
        _ = (tail.takeWhile Text.isDigit ++ tail.dropWhile Text.isDigit).drop (tail.takeWhile Text.isDigit).length := by
          rw [pieces]
        _ = _ := List.drop_left
      have answer : Text.BeginsOutside Text.isWord (tail.dropWhile Text.isDigit) ∧
          (schema (tail.takeWhile Text.isDigit), 6 + (tail.takeWhile Text.isDigit).length) = (token, taken) := by
        rw [after] at found
        simp only [dropped] at found
        cases next : tail.dropWhile Text.isDigit with
        | nil => exact ⟨.nil, by simpa [next] using found⟩
        | cons c further =>
          rw [next] at found
          by_cases word : Text.isWord c
          · simp [word] at found
          · exact ⟨.cons (by simpa using word), by simpa [word] using found⟩
      obtain ⟨apart, same⟩ := answer
      obtain ⟨rfl, rfl⟩ := Prod.mk.inj same
      exact ⟨_, _, rfl, by rw [pieces], rfl, digitsOf tail, .dropWhile tail, apart⟩
  · next some =>
    obtain ⟨rfl, rfl⟩ := Prod.mk.inj (Option.some.inj found)
    left
    exact ⟨_, _, rfl, List.takeWhile_append_dropWhile.symm, rfl, by simpa using some, digitsOf rest, .dropWhile rest⟩

/-- The text up to the next marker or dollar sign. -/
def plainRun (text : Text) : Text :=
  text.takeWhile fun c => !isSign c

theorem plainRun_append {run rest : Text} (plain : ∀ c ∈ run, isSign c = false) :
    plainRun (run ++ rest) = run ++ plainRun rest :=
  List.takeWhile_append_of_pos fun c member => by simp [plain c member]

theorem plainRun_cons {c : Char} {rest : Text} (plain : isSign c = false) : plainRun (c :: rest) = c :: plainRun rest := by
  simp [plainRun, plain]

theorem plainRun_sign {c : Char} {rest : Text} (sign : isSign c) : plainRun (c :: rest) = [] := by
  simp [plainRun, sign]

theorem plainRun_beginsOutside {kind : Char → Bool} {rest : Text} (outside : rest.BeginsOutside kind) :
    (plainRun rest).BeginsOutside kind := by
  cases rest with
  | nil => exact .nil
  | cons c rest =>
    by_cases sign : isSign c
    · rw [plainRun_sign sign]
      exact .nil
    · rw [plainRun_cons (by simpa using sign)]
      exact .cons (outside c (by simp))

theorem beginsOutside_of_plainRun {kind : Char → Bool} {rest : Text} (signs : ∀ c, isSign c → kind c = false)
    (outside : (plainRun rest).BeginsOutside kind) : rest.BeginsOutside kind := by
  cases rest with
  | nil => exact .nil
  | cons c rest =>
    by_cases sign : isSign c
    · exact .cons (signs c sign)
    · rw [plainRun_cons (by simpa using sign)] at outside
      exact .cons (outside c (by simp))

theorem not_isDigit_of_isSign {c : Char} (sign : isSign c) : Text.isDigit c = false := by
  rcases (by simpa [isSign] using sign : c = '?' ∨ c = '$') with rfl | rfl
  · exact isDigit_question
  · exact isDigit_dollar

theorem not_isWord_of_isSign {c : Char} (sign : isSign c) : Text.isWord c = false := by
  rcases (by simpa [isSign] using sign : c = '?' ∨ c = '$') with rfl | rfl <;> decide

private theorem exists_of_plainRun_eq {text run tail : Text} (same : plainRun text = run ++ tail) :
    ∃ rest, text = run ++ rest ∧ plainRun rest = tail := by
  induction run generalizing text with
  | nil => exact ⟨text, rfl, same⟩
  | cons c run ih =>
    cases text with
    | nil => simp [plainRun] at same
    | cons d text =>
      by_cases sign : isSign d
      · rw [plainRun_sign sign] at same
        simp at same
      · rw [plainRun_cons (by simpa using sign)] at same
        obtain ⟨rfl, further⟩ := List.cons.inj same
        obtain ⟨rest, rfl, remaining⟩ := ih further
        exact ⟨rest, rfl, remaining⟩

/-- A dollar sign looks no further than to the next marker or dollar sign. -/
theorem afterDollar?_plainRun (rest : Text) : afterDollar? (plainRun rest) = afterDollar? rest := by
  cases found : afterDollar? rest with
  | some answer =>
    obtain ⟨token, taken⟩ := answer
    rcases afterDollar?_eq_some found with ⟨digits, tail, rfl, rfl, rfl, some, all, stop⟩ |
      ⟨digits, tail, rfl, rfl, rfl, all, stop, apart⟩
    · rw [plainRun_append fun c member => not_isSign_of_isDigit (all c member)]
      exact afterDollar?_placeholder some all (plainRun_beginsOutside stop)
    · rw [plainRun_append plain_schema, plainRun_append fun c member => not_isSign_of_isDigit (all c member)]
      exact afterDollar?_schema all (plainRun_beginsOutside stop) (plainRun_beginsOutside apart)
  | none =>
    by_contra something
    obtain ⟨⟨token, taken⟩, shown⟩ := Option.ne_none_iff_exists'.mp something
    rcases afterDollar?_eq_some shown with ⟨digits, tail, rfl, pieces, rfl, some, all, stop⟩ |
      ⟨digits, tail, rfl, pieces, rfl, all, stop, apart⟩
    · obtain ⟨further, rfl, rfl⟩ := exists_of_plainRun_eq pieces
      rw [afterDollar?_placeholder some all (beginsOutside_of_plainRun (fun _ => not_isDigit_of_isSign) stop)] at found
      cases found
    · rw [← List.append_assoc] at pieces
      obtain ⟨further, rfl, rfl⟩ := exists_of_plainRun_eq pieces
      rw [List.append_assoc, afterDollar?_schema all (beginsOutside_of_plainRun (fun _ => not_isDigit_of_isSign) stop)
        (beginsOutside_of_plainRun (fun _ => not_isWord_of_isSign) apart)] at found
      cases found

/-! ### Tokens as a relation -/

/-- An unquoted text and its tokens. -/
inductive Reads : Text → List Token → Prop
  | nil : Reads [] []
  | marker {rest : Text} {tokens : List Token} (others : Reads rest tokens) : Reads ('?' :: rest) (marker :: tokens)
  | placeholder {digits rest : Text} {tokens : List Token} (some : digits ≠ []) (all : ∀ c ∈ digits, Text.isDigit c)
      (stop : rest.BeginsOutside Text.isDigit) (others : Reads rest tokens) :
      Reads ('$' :: (digits ++ rest)) (placeholder digits :: tokens)
  | schema {digits rest : Text} {tokens : List Token} (all : ∀ c ∈ digits, Text.isDigit c)
      (stop : rest.BeginsOutside Text.isDigit) (apart : rest.BeginsOutside Text.isWord) (others : Reads rest tokens) :
      Reads ('$' :: ("schema" ++ (digits ++ rest))) (schema digits :: tokens)
  | dollar {rest : Text} {tokens : List Token} (nothing : afterDollar? rest = none) (others : Reads rest tokens) :
      Reads ('$' :: rest) (plain '$' :: tokens)
  | plain {c : Char} {rest : Text} {tokens : List Token} (ordinary : isSign c = false) (others : Reads rest tokens) :
      Reads (c :: rest) (.plain c :: tokens)

-- The equations of `ofUnquoted` are made here once; the lemmas below need them.
attribute [local simp] ofUnquoted

theorem ofUnquoted_plain {c : Char} {rest : Text} (ordinary : isSign c = false) :
    ofUnquoted (c :: rest) = plain c :: ofUnquoted rest := by
  have question : c ≠ '?' := by rintro rfl; simp [isSign] at ordinary
  have dollar : c ≠ '$' := by rintro rfl; simp [isSign] at ordinary
  rw [ofUnquoted]
  · simpa using question
  · simpa using dollar

theorem ofUnquoted_append_plain {run rest : Text} (ordinary : ∀ c ∈ run, isSign c = false) :
    ofUnquoted (run ++ rest) = run.map plain ++ ofUnquoted rest := by
  induction run with
  | nil => rfl
  | cons c run ih =>
    rw [List.cons_append, ofUnquoted_plain (ordinary c (by simp)), ih fun d member => ordinary d (by simp [member])]
    rfl

private theorem ofUnquoted_token {taken rest : Text} {token : Token}
    (found : afterDollar? (taken ++ rest) = some (token, taken.length)) (ordinary : ∀ c ∈ taken, isSign c = false) :
    ofUnquoted ('$' :: (taken ++ rest)) = token :: ofUnquoted rest := by
  rw [ofUnquoted, found, ofUnquoted_append_plain ordinary]
  simp

theorem ofUnquoted_placeholder {digits rest : Text} (some : digits ≠ []) (all : ∀ c ∈ digits, Text.isDigit c)
    (stop : rest.BeginsOutside Text.isDigit) :
    ofUnquoted ('$' :: (digits ++ rest)) = placeholder digits :: ofUnquoted rest :=
  ofUnquoted_token (afterDollar?_placeholder some all stop) fun c member => not_isSign_of_isDigit (all c member)

theorem ofUnquoted_schema {digits rest : Text} (all : ∀ c ∈ digits, Text.isDigit c)
    (stop : rest.BeginsOutside Text.isDigit) (apart : rest.BeginsOutside Text.isWord) :
    ofUnquoted ('$' :: ("schema" ++ (digits ++ rest))) = schema digits :: ofUnquoted rest := by
  have found := afterDollar?_schema all stop apart
  have length : (("schema" : Text) ++ digits).length = 6 + digits.length := by
    rw [List.length_append]
    rfl
  rw [← List.append_assoc]
  rw [← List.append_assoc, ← length] at found
  refine ofUnquoted_token found ?_
  intro c member
  rcases List.mem_append.mp member with letter | digit
  · exact plain_schema c letter
  · exact not_isSign_of_isDigit (all c digit)

theorem ofUnquoted_dollar {rest : Text} (nothing : afterDollar? rest = none) :
    ofUnquoted ('$' :: rest) = plain '$' :: ofUnquoted rest := by
  rw [ofUnquoted, nothing]

theorem reads_ofUnquoted (text : Text) : Reads text (ofUnquoted text) := by
  -- A token may take several characters, so the induction is on the length of the text.
  induction length : text.length using Nat.strong_induction_on generalizing text with
  | _ n ih =>
    subst length
    cases text with
    | nil => exact .nil
    | cons c rest =>
      by_cases sign : isSign c
      · rcases (by simpa [isSign] using sign : c = '?' ∨ c = '$') with rfl | rfl
        · rw [ofUnquoted]
          exact .marker (ih _ (by simp) rest rfl)
        · cases found : afterDollar? rest with
          | none =>
            rw [ofUnquoted_dollar found]
            exact .dollar found (ih _ (by simp) rest rfl)
          | some answer =>
            obtain ⟨token, taken⟩ := answer
            rcases afterDollar?_eq_some found with ⟨digits, tail, rfl, rfl, rfl, some, all, stop⟩ |
              ⟨digits, tail, rfl, rfl, rfl, all, stop, apart⟩
            · rw [ofUnquoted_placeholder some all stop]
              exact .placeholder some all stop (ih _ (by simp only [List.length_cons, List.length_append]; omega) tail rfl)
            · rw [ofUnquoted_schema all stop apart]
              exact .schema all stop apart (ih _ (by simp only [List.length_cons, List.length_append]; omega) tail rfl)
      · rw [ofUnquoted_plain (by simpa using sign)]
        exact .plain (by simpa using sign) (ih _ (by simp) rest rfl)

theorem Reads.ofUnquoted_eq {text : Text} {tokens : List Token} (reads : Reads text tokens) : ofUnquoted text = tokens := by
  induction reads with
  | nil => rfl
  | marker _ ih => rw [ofUnquoted, ih]
  | placeholder some all stop _ ih => rw [ofUnquoted_placeholder some all stop, ih]
  | schema all stop apart _ ih => rw [ofUnquoted_schema all stop apart, ih]
  | dollar nothing _ ih => rw [ofUnquoted_dollar nothing, ih]
  | plain ordinary _ ih => rw [ofUnquoted_plain ordinary, ih]

theorem reads_iff {text : Text} {tokens : List Token} : Reads text tokens ↔ ofUnquoted text = tokens :=
  ⟨Reads.ofUnquoted_eq, fun same => same ▸ reads_ofUnquoted text⟩

@[simp] theorem source_quoted (text : Text) : source (quoted text) = text := rfl

@[simp] theorem source_marker : source marker = ['?'] := rfl

@[simp] theorem source_placeholder (digits : Text) : source (placeholder digits) = '$' :: digits := rfl

theorem source_schema (digits : Text) : source (schema digits) = '$' :: (("schema" : Text) ++ digits) := rfl

@[simp] theorem source_plain (c : Char) : source (.plain c) = [c] := rfl

@[simp] theorem write_nil : write [] = [] := rfl

@[simp] theorem write_cons (token : Token) (tokens : List Token) : write (token :: tokens) = token.source ++ write tokens := by
  simp [write]

theorem write_append (left right : List Token) : write (left ++ right) = write left ++ write right := by
  simp [write]

/-- Writing the tokens of an unquoted text gives the text back. -/
theorem Reads.write_eq {text : Text} {tokens : List Token} (reads : Reads text tokens) : write tokens = text := by
  induction reads with
  | nil => rfl
  | marker _ ih => rw [write_cons, ih, source_marker, List.singleton_append]
  | placeholder _ _ _ _ ih => rw [write_cons, ih, source_placeholder, List.cons_append]
  | schema _ _ _ _ ih => rw [write_cons, ih, source_schema, List.cons_append, List.append_assoc]
  | dollar _ _ ih => rw [write_cons, ih, source_plain, List.singleton_append]
  | plain _ _ ih => rw [write_cons, ih, source_plain, List.singleton_append]

end Token

end SqlCompose
