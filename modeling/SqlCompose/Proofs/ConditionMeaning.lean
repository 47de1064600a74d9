import Mathlib
import SqlCompose.Proofs.ClauseNumbers
import SqlCompose.Proofs.ConditionReading
import SqlCompose.Proofs.Juxtaposition

/-!
# What a condition means

A condition is a text with values: where a marker or a placeholder stands, its value is meant. `reading` puts the values in the place of the markers and reads the words and signs of the text, and `Numbered.lexemes` does the same for a text whose placeholders are numbered from a start. Copying values does not change what they say, so a value counts by its content.

A legible text leaves nothing open, and what is put together from legible texts reads like its parts: a predicate reads the same whatever its numbers begin with (`Predicate.lexemes_render`), two predicates combined are a group with the connective between them (`Predicate.lexemes_combine`), and a chain is its links in parentheses (`Chain.lexemes_render`).
-/

namespace SqlCompose

open Token Build

/-! ### The content of values -/

namespace Value

mutual

theorem copyFrom_copyFrom (first second : Label) :
    (value : Value) → copyFrom second (copyFrom first value).1 = copyFrom second value
  | list _ items => by simp only [copyFrom, copyItems_copyItems (first + 1) (second + 1) items]
  | tuple _ items => by simp only [copyFrom, copyItems_copyItems (first + 1) (second + 1) items]
  | dict _ entries => by simp only [copyFrom, copyEntries_copyEntries (first + 1) (second + 1) entries]
  | record _ .rendered fields => by simp only [copyFrom, copyItems_copyItems (first + 1) (second + 1) fields]
  | record _ .predicate _ | record _ .builtQuery _ | record _ .orderBy _ | record _ .columnType _
  | record _ .foreignKey _ => rfl
  | byteArray _ _ | null | bool _ | int _ | float _ | floatNaN _ | decimal _ | decimalNaN _ _ | text _ | entry _
  | bytes _ | date _ | dateTime _ | time _ | duration _ _ _ | uuid _ | unbindable _ _ | object _ _ => rfl

theorem copyItems_copyItems (first second : Label) :
    (items : List Value) → copyItems second (copyItems first items).1 = copyItems second items
  | [] => rfl
  | item :: items => by
    simp only [copyItems, copyFrom_copyFrom first second item, copyItems_copyItems _ _ items]

theorem copyEntries_copyEntries (first second : Label) :
    (entries : List (Value × Value)) → copyEntries second (copyEntries first entries).1 = copyEntries second entries
  | [] => rfl
  | (_, value) :: entries => by
    simp only [copyEntries, copyFrom_copyFrom first second value, copyEntries_copyEntries _ _ entries]

end

/-- What a value is apart from which objects it is made of: its copy with the first labels. -/
def content (value : Value) : Value :=
  (copyFrom 0 value).1

theorem content_copyItems (next : Label) (items : List Value) :
    (copyItems next items).1.map content = items.map content := by
  induction items generalizing next with
  | nil => rfl
  | cons item items ih =>
    simp only [copyItems, List.map_cons, ih, content, copyFrom_copyFrom]

theorem content_of_copyAll {values copies : List Value} (yields : (copyAll values).Yields copies) :
    copies.map content = values.map content := by
  obtain ⟨trace, after, done⟩ := yields
  cases done
  exact content_copyItems trace.nextLabel values

theorem content_of_checkAll {values copies : List Value} (yields : (checkAll values).Yields copies) :
    copies.map content = values.map content := by
  unfold checkAll at yields
  split at yields
  · exact absurd yields not_yields_throw
  · exact content_of_copyAll yields

end Value

/-- The values of a predicate that is made are those it was made from, as far as their content goes. -/
theorem Predicate.content_of_make {text : Wording} {values : List Value} {predicate : Predicate}
    (made : (make text values).Yields predicate) : predicate.values.map Value.content = values.map Value.content := by
  obtain ⟨copies, copied, further⟩ := made.bind
  simp only at further
  split at further
  · rw [yields_pure] at further
    rw [← further]
    exact Value.content_of_checkAll copied
  · exact absurd further not_yields_throw

/-! ### From tokens to lexemes -/

/-- A token, or a value in the place of one. -/
inductive Filling where
  | token (token : Token)
  | value (content : Value)

namespace Filling

/-- Values in the place of markers, in order. -/
def filled (values : List Value) : List Token → List Filling
  | [] => []
  | .marker :: rest =>
    match values with
    | [] => token .marker :: filled [] rest
    | first :: others => value first.content :: filled others rest
  | other :: rest => token other :: filled values rest

/-- The value in the place of a placeholder, when the values are numbered from a start. -/
def resolved (start : Nat) (values : List Value) : Token → Filling
  | .placeholder digits =>
    match values[Text.numeralValue digits - start]? with
    | some found => if start ≤ Text.numeralValue digits then value found.content else token (.placeholder digits)
    | none => token (.placeholder digits)
  | other => token other

/-- The lexeme that a word is; letter case makes no difference to a keyword. -/
def ofWord (letters : Text) : List Lexeme :=
  if letters = [] then []
  else if letters.map Char.toUpper = ("AND" : Text) then [.connective .and]
  else if letters.map Char.toUpper = ("OR" : Text) then [.connective .or]
  else if letters.map Char.toUpper = ("BETWEEN" : Text) then [.range]
  else [.word letters]

/-- The lexeme that a character is which belongs to no word; blanks mean nothing. -/
def ofSign (c : Char) : List Lexeme :=
  if c = '(' then [.opening]
  else if c = ')' then [.closing]
  else if Text.isBlank c then []
  else [.other (.plain c)]

/-- The lexemes of fillings, behind the letters of a word that may go on. -/
def lexemesFrom (letters : Text) : List Filling → List Lexeme
  | [] => ofWord letters
  | token (.plain c) :: rest =>
    if Text.isWord c then lexemesFrom (letters ++ [c]) rest
    else ofWord letters ++ (ofSign c ++ lexemesFrom [] rest)
  | token other :: rest => ofWord letters ++ .other other :: lexemesFrom [] rest
  | value found :: rest => ofWord letters ++ .value found :: lexemesFrom [] rest

def lexemes (fillings : List Filling) : List Lexeme :=
  lexemesFrom [] fillings

/-- Characters as fillings. -/
def literal (run : Text) : List Filling :=
  run.map fun c => token (.plain c)

theorem lexemesFrom_append_sign {c : Char} (sign : Text.isWord c = false) (letters : Text) (front back : List Filling) :
    lexemesFrom letters (front ++ token (.plain c) :: back) = lexemesFrom letters front ++ (ofSign c ++ lexemes back) := by
  induction front generalizing letters with
  | nil => simp [lexemesFrom, sign, lexemes]
  | cons filling front ih =>
    cases filling with
    | value found => simp [lexemesFrom, ih]
    | token other =>
      cases other with
      | plain d =>
        by_cases word : Text.isWord d
        · simp [lexemesFrom, word, ih]
        · simp [lexemesFrom, word, ih]
      | _ => simp [lexemesFrom, ih]

theorem lexemes_sign {c : Char} (sign : Text.isWord c = false) (back : List Filling) :
    lexemes (token (.plain c) :: back) = ofSign c ++ lexemes back :=
  lexemesFrom_append_sign sign [] [] back

theorem lexemesFrom_word {run : Text} (word : ∀ c ∈ run, Text.isWord c = true) (letters : Text) (back : List Filling) :
    lexemesFrom letters (literal run ++ back) = lexemesFrom (letters ++ run) back := by
  induction run generalizing letters with
  | nil => simp [literal]
  | cons c run ih =>
    have others := ih (fun d member => word d (List.mem_cons_of_mem c member)) (letters ++ [c])
    simp only [literal, List.map_cons, List.cons_append, lexemesFrom, word c List.mem_cons_self, if_true] at others ⊢
    rw [others, List.append_assoc, List.singleton_append]

theorem filled_append {left : List Token} {values : List Value} (enough : left.countP isMarker = values.length)
    (others : List Value) (right : List Token) :
    filled (values ++ others) (left ++ right) = filled values left ++ filled others right := by
  induction left generalizing values with
  | nil =>
    obtain rfl := List.eq_nil_of_length_eq_zero enough.symm
    rfl
  | cons token left ih =>
    cases token with
    | marker =>
      cases values with
      | nil => simp [isMarker] at enough
      | cons value values =>
        rw [List.countP_cons_of_pos rfl, List.length_cons, Nat.succ_inj] at enough
        simp [filled, ih enough]
    | _ => simpa [filled] using ih (by simpa [isMarker] using enough)

theorem filled_literal (run : Text) (values : List Value) (rest : List Token) :
    filled values (run.map .plain ++ rest) = literal run ++ filled values rest := by
  induction run with
  | nil => rfl
  | cons c run ih => simpa [filled, literal] using ih

/-- What stands in the place of markers is known from the content of the values. -/
theorem filled_congr {values values' : List Value} (same : values.map Value.content = values'.map Value.content)
    (tokens : List Token) : filled values tokens = filled values' tokens := by
  induction tokens generalizing values values' with
  | nil => rfl
  | cons token rest ih =>
    cases token with
    | marker =>
      cases values with
      | nil =>
        cases values' with
        | nil => rfl
        | cons _ _ => simp at same
      | cons value values =>
        cases values' with
        | nil => simp at same
        | cons value' values' =>
          obtain ⟨first, others⟩ := List.cons.inj same
          simp only [filled, first, ih others]
    | _ => simp only [filled, ih same]

end Filling

/-! ### Texts -/

/-- How a text with markers reads when the values stand in their places. -/
def reading (values : List Value) (text : Text) : List Lexeme :=
  Filling.lexemes (Filling.filled values (read text))

/-- A text with a marker for each value that leaves no quote, no parenthesis and no range open. -/
structure Legible (text : Text) (values : List Value) : Prop where
  awaits : Awaits text values.length
  even : Lexeme.Even (reading values text)

theorem reading_congr {values values' : List Value} (same : values.map Value.content = values'.map Value.content)
    (text : Text) : reading values text = reading values' text := by
  rw [reading, Filling.filled_congr same, reading]

namespace Legible

variable {text text' : Text} {values values' : List Value}

theorem congr (legible : Legible text values) (same : values.map Value.content = values'.map Value.content) :
    Legible text values' := by
  have length : values.length = values'.length := by simpa using congrArg List.length same
  refine ⟨?_, ?_⟩
  · rw [← length]
    exact legible.awaits
  · rw [← reading_congr same]
    exact legible.even

theorem of_clean (clean : Clean text) (counted : countMarkers text = values.length)
    (even : Lexeme.Even (reading values text)) : Legible text values := by
  refine ⟨?_, even⟩
  rw [← counted]
  exact clean.slotted

theorem balanced (legible : Legible text values) : Slotted.Balanced text :=
  (Slotted.found legible.awaits).balanced

theorem countP_isMarker (legible : Legible text values) : (read text).countP isMarker = values.length :=
  countMarkers_of_replicate legible.awaits

theorem reading_group (legible : Legible text values) :
    reading values ("(" ++ text ++ ")") = Lexeme.group (reading values text) := by
  have closing : SetOff (")" : Text) := ⟨.cons (by decide), .cons (by decide), .cons (by decide)⟩
  have last : read (")" : Text) = [.plain ')'] := read_literal ")" rfl []
  have tokens : read ("(" ++ text ++ ")") = .plain '(' :: (read text ++ [.plain ')']) := by
    rw [List.append_assoc, read_literal "(" rfl, read_append legible.balanced closing, last]
    rfl
  have filled : Filling.filled values (.plain '(' :: (read text ++ [.plain ')'])) =
      .token (.plain '(') :: (Filling.filled values (read text) ++ .token (.plain ')') :: []) := by
    have inner := Filling.filled_append legible.countP_isMarker [] [.plain ')']
    rw [List.append_nil] at inner
    simp only [Filling.filled, inner]
  have inner := Filling.lexemesFrom_append_sign (c := ')') (by decide) [] (Filling.filled values (read text)) []
  rw [reading, tokens, filled, Filling.lexemes_sign (by decide), Filling.lexemes, inner]
  rfl

theorem group (legible : Legible text values) : Legible ("(" ++ text ++ ")") values := by
  refine ⟨?_, ?_⟩
  · rw [List.append_assoc]
    exact .literal "(" rfl (.behind ")" rfl rfl legible.awaits)
  · rw [legible.reading_group]
    exact legible.even.group

end Legible

/-- Blanks to set a connective off with. -/
def Spacing (separator : Text) : Prop :=
  separator = "\n " ∨ separator = " "

private theorem lexemes_connective {separator : Text} (spacing : Spacing separator) (connective : Connective)
    (front back : List Filling) :
    Filling.lexemes (front ++ (Filling.literal (separator ++ (Keyword.word connective ++ " ")) ++ back)) =
      Lexeme.joined connective (Filling.lexemes front) (Filling.lexemes back) := by
  have letters : ∀ c ∈ (Keyword.word connective : Text), Text.isWord c = true := by
    have all : (Keyword.word connective : Text).all Text.isWord = true := by cases connective <;> decide
    exact List.all_eq_true.mp all
  have keyword : Filling.ofWord (Keyword.word connective) = [.connective connective] := by cases connective <;> rfl
  have blank : Text.isWord ' ' = false := by decide
  have newLine : Text.isWord '\n' = false := by decide
  have word : Filling.lexemes (Filling.literal (Keyword.word connective) ++ .token (.plain ' ') :: back) =
      .connective connective :: Filling.lexemes back := by
    have ended := Filling.lexemesFrom_append_sign blank (Keyword.word connective) [] back
    rw [Filling.lexemes, Filling.lexemesFrom_word letters, List.nil_append]
    rw [List.nil_append] at ended
    rw [ended, Filling.lexemesFrom, keyword]
    rfl
  have spaced : ∀ front, Filling.lexemes (front ++ .token (.plain ' ') ::
      (Filling.literal (Keyword.word connective) ++ .token (.plain ' ') :: back)) =
      Lexeme.joined connective (Filling.lexemes front) (Filling.lexemes back) := by
    intro front
    rw [Filling.lexemes, Filling.lexemesFrom_append_sign blank, word]
    rfl
  rcases spacing with rfl | rfl
  · have line : Filling.lexemes (front ++ [.token (.plain '\n')]) = Filling.lexemes front := by
      rw [Filling.lexemes, Filling.lexemesFrom_append_sign newLine]
      exact List.append_nil _
    rw [← line, ← spaced]
    simp [Filling.literal]
  · rw [← spaced]
    simp [Filling.literal]

namespace Legible

variable {text text' : Text} {values values' : List Value}

/-- A connective between two texts joins what they read as. -/
theorem reading_joined {separator : Text} (spacing : Spacing separator) (connective : Connective)
    (legible : Legible text values) (values' : List Value) (text' : Text) :
    reading (values ++ values') (text ++ (separator ++ (Keyword.word connective ++ " ") ++ text')) =
      Lexeme.joined connective (reading values text) (reading values' text') := by
  have set : SetOff (separator ++ (Keyword.word connective ++ " ") ++ text') := by
    rcases spacing with rfl | rfl <;> exact ⟨.cons (by decide), .cons (by decide), .cons (by decide)⟩
  have plainly : (separator ++ ((Keyword.word connective : Text) ++ (" " : Text))).all isPlain = true := by
    rw [List.all_append, List.all_append, all_isPlain_word]
    rcases spacing with rfl | rfl <;> rfl
  rw [reading, read_append legible.balanced set, read_literal _ plainly, Filling.filled_append legible.countP_isMarker,
    Filling.filled_literal, lexemes_connective spacing, reading, reading]

theorem joined {separator : Text} (spacing : Spacing separator) (connective : Connective) (first : Legible text values)
    (second : Legible text' values') :
    Legible (text ++ (separator ++ (Keyword.word connective ++ " ") ++ text')) (values ++ values') := by
  refine ⟨?_, ?_⟩
  · have plainly : (separator ++ ((Keyword.word connective : Text) ++ (" " : Text))).all isPlain = true := by
      rw [List.all_append, List.all_append, all_isPlain_word]
      rcases spacing with rfl | rfl <;> rfl
    rw [Awaits, List.length_append, ← List.replicate_append_replicate]
    refine Slotted.append first.awaits (.literal _ plainly second.awaits) ?_
    rcases spacing with rfl | rfl <;> exact .cons (by decide)
  · rw [reading_joined spacing connective first]
    exact first.even.joined second.even connective

end Legible

/-! ### Numbered texts -/

/-- How a numbered text reads: the values stand where the placeholders with their numbers do. -/
def Numbered.lexemes (numbered : Numbered) (start : Nat) : List Lexeme :=
  Filling.lexemes ((read numbered.text).map (Filling.resolved start numbered.values))

/-- Markers with numbers in a row. -/
def Token.bound (start : Nat) : List Token → List Token
  | [] => []
  | marker :: rest => placeholder (Text.ofNat start) :: bound (start + 1) rest
  | token :: rest => token :: bound start rest

theorem write_bound (start : Nat) (tokens : List Token) : write (bound start tokens) = Token.bind start tokens := by
  induction tokens generalizing start with
  | nil => rfl
  | cons token rest ih =>
    cases token with
    | marker =>
      have further := ih (start + 1)
      rw [Nat.cast_add, Nat.cast_one] at further
      rw [bound, write_cons, further]
      rfl
    | _ =>
      rw [bound, write_cons, ih]
      · rfl
      · simp

theorem exchanged_bound {tokens : List Token} (firm : Slotted.Firm tokens) (start : Nat) :
    Exchanged tokens (bound start tokens) := by
  induction tokens generalizing start with
  | nil => exact .nil
  | cons token rest ih =>
    cases token with
    | marker => exact .bound (Text.ofNat_ne_nil start) (fun _ => Text.isDigit_of_mem_ofNat) firm.1 (ih firm.2 (start + 1))
    | _ => exact .kept _ (ih firm start)

/-- The numbered markers are found again, and nothing else has changed. -/
theorem read_bind_of_firm {text : Text} (firm : Slotted.Firm (read text)) (start : Nat) :
    read (Token.bind start (read text)) = bound start (read text) := by
  rw [← write_bound]
  exact read_write_exchanged (exchanged_bound firm start)

theorem read_boundMarkers {text : Text} {count : Nat} (awaits : Awaits text count) (start : Nat) :
    read (boundMarkers text start).1 = bound start (read text) :=
  read_bind_of_firm ((Slotted.found awaits).firmly trivial) start

private theorem resolved_bound {tokens : List Token} {values : List Value}
    (markers : tokens.filterMap slot? = List.replicate values.length .free) (start : Nat) (before : List Value) :
    (bound (start + before.length) tokens).map (Filling.resolved start (before ++ values)) = Filling.filled values tokens := by
  induction tokens generalizing before values with
  | nil => rfl
  | cons token rest ih =>
    cases token with
    | marker =>
      cases values with
      | nil => cases markers
      | cons value values =>
        have others := ih (List.cons.inj markers).2 (before ++ [value])
        rw [List.length_append, List.length_singleton, ← Nat.add_assoc, List.append_assoc, List.singleton_append] at others
        have here : Filling.resolved start (before ++ value :: values) (.placeholder (Text.ofNat (start + before.length))) =
            .value value.content := by
          simp [Filling.resolved, Text.numeralValue_ofNat]
        rw [bound, List.map_cons, here, others, Filling.filled]
    | placeholder digits =>
      cases values with
      | nil => cases markers
      | cons value values => cases markers
    | _ => simpa [bound, Filling.filled, Filling.resolved] using ih markers before

/-! ### Predicates -/

namespace Predicate

/-- How a predicate reads. -/
def lexemes (predicate : Predicate) : List Lexeme :=
  reading predicate.values predicate.text.content

/-- A predicate whose text is printed as it is read, with nothing left open. -/
structure Readable (predicate : Predicate) : Prop where
  printed : predicate.text.printed = predicate.text.content
  legible : Legible predicate.text.content predicate.values

theorem Readable.even {predicate : Predicate} (readable : predicate.Readable) : Lexeme.Even predicate.lexemes :=
  readable.legible.even

/-- A predicate reads the same from whatever number its placeholders begin. -/
theorem lexemes_render {predicate : Predicate} (readable : predicate.Readable) {start : Nat} {rendered : Numbered}
    (done : predicate.render start = .ok rendered) : rendered.lexemes start = predicate.lexemes := by
  obtain rfl := eq_numbered_of_render done
  have awaits := readable.legible.awaits
  have values := resolved_bound (Slotted.found awaits).slots_eq start []
  change Filling.lexemes ((read (boundMarkers predicate.text.content start).1).map (Filling.resolved start predicate.values)) = _
  rw [read_boundMarkers awaits, lexemes, reading, ← values]
  rfl

/-- A predicate that is made from a legible text reads like it. -/
theorem readable_of_make {text : Wording} {values : List Value} {predicate : Predicate}
    (made : (make text values).Yields predicate) (printed : text.printed = text.content)
    (legible : Legible text.content values) :
    predicate.Readable ∧ predicate.lexemes = reading values text.content := by
  obtain ⟨same, -, -⟩ := of_make made
  have content := content_of_make made
  refine ⟨⟨?_, ?_⟩, ?_⟩
  · rw [same, printed]
  · rw [same]
    exact legible.congr content.symm
  · rw [lexemes, same]
    exact reading_congr content _

/-- Two predicates combined are a group in which the connective joins them. -/
theorem lexemes_combine {connective : Connective} {left right predicate : Predicate} (first : left.Readable)
    (second : right.Readable) (made : (combine connective left right).Yields predicate) :
    predicate.Readable ∧ predicate.lexemes = Lexeme.group (Lexeme.joined connective left.lexemes right.lexemes) := by
  have joined := first.legible.joined (.inr rfl) connective second.legible
  have shape : "(" ++ left.text.printed ++ " " ++ Keyword.word connective ++ " " ++ right.text.printed ++ ")" =
      ("(" : Text) ++ (left.text.content ++ (" " ++ (Keyword.word connective ++ " ") ++ right.text.content)) ++ ")" := by
    rw [first.printed, second.printed]
    simp
  rw [combine, shape] at made
  obtain ⟨readable, same⟩ := readable_of_make made rfl joined.group
  refine ⟨readable, ?_⟩
  rw [same, Wording.content_plain, joined.reading_group, first.legible.reading_joined (.inr rfl)]
  rfl

end Predicate

/-! ### Chains -/

namespace Chain

/-- How a chain reads: its links in parentheses, joined in order. -/
def lexemes (chain : Chain) : List Lexeme :=
  Lexeme.linked (chain.links.map fun link => (link.1, link.2.lexemes))

/-- Nothing but readable predicates in a chain. -/
def Readable (chain : Chain) : Prop :=
  ∀ link ∈ chain.links, link.2.Readable

private theorem join_linkTexts (separator front : Text) (links : List (Connective × Predicate)) :
    Text.join separator (front :: links.map laterLink) =
      links.foldl (fun front link => front ++ (separator ++ laterLink link)) front := by
  induction links generalizing front with
  | nil => simp [Text.join]
  | cons link rest ih =>
    rw [List.foldl_cons, ← ih, Text.join, Text.join, List.map_cons, List.intercalate_cons_cons]
    cases rest with
    | nil => simp
    | cons next rest => simp [List.intercalate_cons_cons]

private theorem legible_links {separator : Text} (spacing : Spacing separator) {front : Text} {values : List Value}
    (legible : Legible front values) {links : List (Connective × Predicate)} (all : ∀ link ∈ links, link.2.Readable) :
    Legible (links.foldl (fun front link => front ++ (separator ++ laterLink link)) front)
        (values ++ links.flatMap (·.2.values)) ∧
      reading (values ++ links.flatMap (·.2.values))
          (links.foldl (fun front link => front ++ (separator ++ laterLink link)) front) =
        Lexeme.linkedTo (reading values front) (links.map fun link => (link.1, link.2.lexemes)) := by
  induction links generalizing front values with
  | nil => simpa [Lexeme.linkedTo] using legible
  | cons link rest ih =>
    obtain ⟨printed, content⟩ := all link (by simp)
    have shape : front ++ (separator ++ laterLink link) =
        front ++ (separator ++ (Keyword.word link.1 ++ " ") ++ ("(" ++ link.2.text.content ++ ")")) := by
      simp [laterLink, printed]
    have longer := ih (legible.joined spacing link.1 content.group) fun other member => all other (List.mem_cons_of_mem _ member)
    rw [List.foldl_cons, List.flatMap_cons, shape, ← List.append_assoc values, List.map_cons]
    refine ⟨longer.1, ?_⟩
    rw [longer.2, legible.reading_joined spacing, content.reading_group]
    rfl

/-- A chain of readable predicates is legible, on several lines or on one, and reads as its links do. -/
theorem legible_text {chain : Chain} (readable : chain.Readable) (some : chain.links ≠ []) (newLine : Bool) :
    Legible (chain.text newLine) chain.values ∧ reading chain.values (chain.text newLine) = chain.lexemes := by
  obtain ⟨links⟩ := chain
  obtain ⟨first, rest, rfl⟩ := List.exists_cons_of_ne_nil some
  obtain ⟨printed, content⟩ := readable first (by simp)
  have spacing : Spacing (if newLine then "\n " else " ") := by
    cases newLine
    · exact .inr rfl
    · exact .inl rfl
  have whole := legible_links spacing content.group fun link member => readable link (List.mem_cons_of_mem _ member)
  rw [content.reading_group, ← join_linkTexts] at whole
  simp only [text, linkTexts, printed]
  exact whole

theorem even_lexemes {chain : Chain} (readable : chain.Readable) : Lexeme.Even chain.lexemes := by
  by_cases some : chain.links = []
  · rw [lexemes, some]
    rfl
  · obtain ⟨legible, same⟩ := legible_text readable some true
    rw [← same]
    exact legible.even

theorem lexemes_append {chain : Chain} (some : chain.links ≠ []) (connective : Connective) (predicate : Predicate) :
    (chain.append connective predicate).lexemes =
      Lexeme.joined connective chain.lexemes (Lexeme.group predicate.lexemes) := by
  obtain ⟨links⟩ := chain
  obtain ⟨first, rest, rfl⟩ := List.exists_cons_of_ne_nil some
  simp [append, lexemes, Lexeme.linked, Lexeme.linkedTo]

/-- A chain that stands as one predicate reads as its links do. -/
theorem lexemes_toPredicate {chain : Chain} (readable : chain.Readable) (some : chain.links ≠ []) {newLine : Bool}
    {predicate : Predicate} (made : (chain.toPredicate newLine).Yields predicate) :
    predicate.Readable ∧ predicate.lexemes = chain.lexemes := by
  obtain ⟨legible, same⟩ := legible_text readable some newLine
  rw [← same]
  exact Predicate.readable_of_make made rfl legible

/-- The clause of a chain reads as its links do, from whatever number its placeholders begin. -/
theorem lexemes_render {chain : Chain} (readable : chain.Readable) (some : chain.links ≠ []) {start : Nat} {newLine : Bool}
    {numbered : Numbered} (rendered : (chain.render start newLine).Yields numbered) :
    numbered.lexemes start = chain.lexemes := by
  have nonempty : chain.isEmpty = false := by simpa [isEmpty] using some
  rw [render, nonempty] at rendered
  obtain ⟨predicate, made, same⟩ := Yields.bind rendered
  obtain ⟨readably, lexemes⟩ := lexemes_toPredicate readable some made
  rw [Predicate.lexemes_render readably (yields_lift.mp same), lexemes]

/-- A chain that can stand as one predicate is rendered where there is room for its numbers. -/
theorem yields_render {chain : Chain} {newLine : Bool} {predicate : Predicate} (made : (chain.toPredicate newLine).Yields predicate)
    (some : chain.links ≠ []) {start : Int} (low : 0 ≤ start)
    (room : start + countMarkers predicate.text.content ≤ 10 ^ Numeral.digitLimit) :
    (chain.render start newLine).Yields (predicate.numbered start) := by
  obtain ⟨trace, after, done⟩ := made
  refine ⟨trace, after, ?_⟩
  rw [render, if_neg (by simpa [isEmpty] using some), runFrom_bind, done]
  change runFrom after (liftM (predicate.render start)) = _
  rw [Predicate.render_of_bound low room]
  rfl

end Chain

end SqlCompose
