import Mathlib
import SqlCompose.NamedBinds
import SqlCompose.Query
import SqlCompose.Proofs.Merging
import SqlCompose.Proofs.Yields

/-!
# Values bound by name

The text with named parameters is read without regard to quotes, so what is found in it depends on the characters around each colon. `mem_bindable_iff` says where a name has to stand to be found. A placeholder that becomes a name is found if it stands apart from words and colons, and nothing else is found if no other colon begins a word. `Fragment.toNamed_binds` puts this together: under these conditions each value is bound to its own name and no other name is left.
-/

namespace SqlCompose

namespace NamedClause

variable {text name : Text}

/-! ### Where names are found -/

/-- What stands before a text stands before its rest, after the first character. -/
private theorem getLast?_or_cons (c : Char) (front : Text) (before : Option Char) :
    (c :: front).getLast?.or before = front.getLast?.or (some c) := by
  rw [List.getLast?_cons]
  cases front.getLast? <;> rfl

theorem mem_namesAfter {mayFollow : Option Char → Bool} {name? : Text → Option Text} {before : Option Char} :
    name ∈ namesAfter mayFollow name? before text ↔
      ∃ front rest, text = front ++ ':' :: rest ∧ mayFollow (front.getLast?.or before) = true ∧ name? rest = some name := by
  induction text generalizing before with
  | nil => simp [namesAfter]
  | cons c text ih =>
    rw [namesAfter, List.mem_append, ih, Option.mem_toList]
    constructor
    · rintro (here | ⟨front, rest, rfl, follows, named⟩)
      · split at here
        · next found =>
          simp only [Bool.and_eq_true, decide_eq_true_eq] at found
          obtain ⟨rfl, follows⟩ := found
          exact ⟨[], text, rfl, follows, here⟩
        · cases here
      · exact ⟨c :: front, rest, rfl, by rwa [getLast?_or_cons], named⟩
    · rintro ⟨front, rest, same, follows, named⟩
      cases front with
      | nil =>
        obtain ⟨rfl, rfl⟩ := List.cons.inj same
        exact .inl (by rwa [if_pos (by simpa using follows)])
      | cons d front =>
        obtain ⟨rfl, rfl⟩ := List.cons.inj same
        exact .inr ⟨front, rest, rfl, by rwa [getLast?_or_cons] at follows, named⟩

/-- A character that a colon may not follow to begin a name. -/
def Blocks (c : Char) : Prop :=
  c = ':' ∨ c = '\\' ∨ Text.isWord c

/-- A name is found behind a colon that follows no colon, no backslash and no word. It is the whole word there, but for the last character if a second colon comes behind. -/
def Found (text name : Text) : Prop :=
  ∃ front word behind, text = front ++ ':' :: (word ++ behind) ∧ (∀ c ∈ front.getLast?, ¬ Blocks c) ∧
    (∀ c ∈ word, Text.isWord c) ∧ Text.BeginsOutside Text.isWord behind ∧
    (if behind.head? = some ':' then word.dropLast else word) = name ∧ name ≠ []

private theorem run_append {kind : Char → Bool} {run behind : Text} (all : ∀ c ∈ run, kind c)
    (outside : Text.BeginsOutside kind behind) :
    (run ++ behind).takeWhile kind = run ∧ (run ++ behind).drop run.length = behind :=
  ⟨outside.takeWhile_append all, List.drop_left⟩

private theorem exists_run (kind : Char → Bool) (rest : Text) : ∃ run behind, rest = run ++ behind ∧
    (∀ c ∈ run, kind c) ∧ Text.BeginsOutside kind behind :=
  ⟨rest.takeWhile kind, rest.dropWhile kind, List.takeWhile_append_dropWhile.symm,
    fun _ member => List.mem_takeWhile_imp member, .dropWhile rest⟩

private theorem all_not_blocks (last : Option Char) :
    (last.all fun c => !(c = ':' || c = '\\' || Text.isWord c)) = true ↔ ∀ c ∈ last, ¬ Blocks c := by
  cases last with
  | none => simp
  | some c => simp [Blocks, and_assoc]

theorem mem_bindable_iff : name ∈ bindable text ↔ Found text name := by
  rw [bindable, mem_namesAfter]
  constructor
  · rintro ⟨front, rest, rfl, follows, named⟩
    obtain ⟨word, behind, rfl, letters, outside⟩ := exists_run Text.isWord rest
    obtain ⟨first, second⟩ := run_append letters outside
    rw [Option.or_none, all_not_blocks] at follows
    simp only [first, second, beq_iff_eq, Option.ite_none_left_eq_some, Option.some.injEq, List.isEmpty_iff] at named
    obtain ⟨some, rfl⟩ := named
    exact ⟨front, word, behind, rfl, follows, letters, outside, rfl, some⟩
  · rintro ⟨front, word, behind, rfl, follows, letters, outside, rfl, some⟩
    obtain ⟨first, second⟩ := run_append letters outside
    refine ⟨front, word ++ behind, rfl, by rwa [Option.or_none, all_not_blocks], ?_⟩
    simp only [first, second, beq_iff_eq, Option.ite_none_left_eq_some, List.isEmpty_iff]
    exact ⟨some, trivial⟩

/-! ### Names in the place of placeholders -/

/-- A character of a text that was put together from items comes from one of them. -/
private theorem exists_of_flatMap_eq {α : Type} {piece : α → Text} {items : List α} {front rest : Text} {c : Char}
    (whole : items.flatMap piece = front ++ c :: rest) :
    ∃ before item after left right, items = before ++ item :: after ∧ piece item = left ++ c :: right ∧
      front = before.flatMap piece ++ left ∧ rest = right ++ after.flatMap piece := by
  induction items generalizing front with
  | nil => simp at whole
  | cons item items ih =>
    rw [List.flatMap_cons] at whole
    rcases List.append_eq_append_iff.mp whole with ⟨further, rfl, same⟩ | ⟨right, same, others⟩
    · obtain ⟨before, item', after, left, right, rfl, inside, rfl, rfl⟩ := ih same
      exact ⟨item :: before, item', after, left, right, rfl, inside, by rw [List.flatMap_cons, List.append_assoc], rfl⟩
    · cases right with
      | nil =>
        obtain ⟨before, item', after, left, right, rfl, inside, none, rfl⟩ := ih (others.symm.trans (List.nil_append _).symm)
        refine ⟨item :: before, item', after, left, right, rfl, inside, ?_, rfl⟩
        rw [List.flatMap_cons, same, List.append_nil, List.append_assoc, ← none, List.append_nil]
      | cons d right =>
        obtain ⟨rfl, rfl⟩ := List.cons.inj others
        exact ⟨[], item, items, front, right, rfl, same, rfl, rfl⟩

/-- The text with its placeholders named. -/
def nameAll (tokens : List Token) : Text :=
  tokens.flatMap named

theorem getLast?_nameAll {tokens : List Token} (numerals : Token.Numerals tokens) :
    (nameAll tokens).getLast? = (Token.write tokens).getLast? := by
  induction tokens with
  | nil => rfl
  | cons token rest ih =>
    rw [nameAll, List.flatMap_cons, ← nameAll, Token.write_cons, List.getLast?_append, List.getLast?_append, ih numerals.tail]
    congr 1
    cases token with
    | placeholder digits =>
      obtain ⟨c, digits, rfl⟩ := List.exists_cons_of_ne_nil (numerals digits (by simp)).1
      rfl
    | _ => rfl

/-- A name begins otherwise than its placeholder, and nothing else does. -/
theorem head?_nameAll (tokens : List Token) : (nameAll tokens).head? = (Token.write tokens).head? ∨
    ((nameAll tokens).head? = some ':' ∧ (Token.write tokens).head? = some '$') := by
  induction tokens with
  | nil => exact .inl rfl
  | cons token rest ih =>
    rw [nameAll, List.flatMap_cons, ← nameAll, Token.write_cons]
    cases token with
    | placeholder digits => exact .inr ⟨rfl, rfl⟩
    | quoted text =>
      cases text with
      | nil => exact ih
      | cons c text => exact .inl rfl
    | _ => exact .inl rfl

/-- A colon of the named text belongs to a name or is one of the text itself. -/
theorem exists_of_colon {front rest : Text} (whole : nameAll (Token.read text) = front ++ ':' :: rest) :
    (∃ before digits after, Token.read text = before ++ .placeholder digits :: after ∧ front = nameAll before ∧
      rest = 'p' :: (digits ++ nameAll after)) ∨
    ∃ front' right after, text = front' ++ ':' :: (right ++ Token.write after) ∧ front.getLast? = front'.getLast? ∧
      rest = right ++ nameAll after := by
  obtain ⟨before, token, after, left, right, tokens, inside, rfl, rfl⟩ := exists_of_flatMap_eq whole
  have numerals : Token.Numerals before := fun digits member =>
    Token.numerals_read text digits (by rw [tokens]; exact List.mem_append_left _ member)
  by_cases placed : ∃ digits, token = .placeholder digits
  · obtain ⟨digits, rfl⟩ := placed
    refine .inl ⟨before, digits, after, tokens, ?_⟩
    cases left with
    | nil =>
      obtain rfl : 'p' :: digits = right := (List.cons.inj inside).2
      exact ⟨by rw [List.append_nil]; rfl, rfl⟩
    | cons c left =>
      have tail : 'p' :: digits = left ++ ':' :: right := (List.cons.inj inside).2
      have colon : ':' ∈ 'p' :: digits := by rw [tail]; simp
      rcases List.mem_cons.mp colon with same | digit
      · exact absurd same (by decide)
      · have numeral := (Token.numerals_read text digits (by simp [tokens])).2 ':' digit
        exact absurd numeral (by decide)
  · have own : named token = token.source := by
      cases token with
      | placeholder digits => exact absurd ⟨digits, rfl⟩ placed
      | _ => rfl
    refine .inr ⟨Token.write before ++ left, right, after, ?_, ?_, rfl⟩
    · calc text = Token.write (Token.read text) := (Token.write_read text).symm
        _ = Token.write before ++ (token.source ++ Token.write after) := by rw [tokens, Token.write_append, Token.write_cons]
        _ = _ := by rw [← own, inside]; simp only [List.append_assoc, List.cons_append]
    · rw [List.getLast?_append, List.getLast?_append, ← nameAll, getLast?_nameAll numerals]

/-- A placeholder can be named among the tokens around it: it is written as its number is, and no word, colon or dollar sign touches it, nor a backslash from the left. -/
def Apart (before : List Token) (digits : Text) (after : List Token) : Prop :=
  Text.ofNat (Text.numeralValue digits) = digits ∧ (∀ c ∈ (Token.write before).getLast?, ¬ Blocks c ∧ c ≠ '$') ∧
    ∀ c ∈ (Token.write after).head?, c ≠ ':' ∧ isNamePart c = false

/-- A colon between the texts around it begins no name, and no backslash protects it. -/
def Silent (front rest : Text) : Prop :=
  (∃ c ∈ front.getLast?, c = ':' ∨ Text.isWord c) ∨ ((∀ c ∈ front.getLast?, c ≠ '\\') ∧ Text.BeginsOutside Text.isWord rest)

/-- All placeholders of a text can be named, and none of its own colons begins a name. -/
structure Separated (text : Text) : Prop where
  apart : ∀ before digits after, Token.read text = before ++ Token.placeholder digits :: after → Apart before digits after
  silent : ∀ front rest, text = front ++ ':' :: rest → Silent front rest

instance : DecidablePred Blocks := fun _ => inferInstanceAs (Decidable (_ ∨ _ ∨ _))

private theorem all_iff {last : Option Char} {holds : Char → Prop} [DecidablePred holds] :
    (last.all fun c => holds c) = true ↔ ∀ c ∈ last, holds c := by
  cases last <;> simp

instance (before : List Token) (digits : Text) (after : List Token) : Decidable (Apart before digits after) :=
  decidable_of_iff (Text.ofNat (Text.numeralValue digits) = digits ∧
    ((Token.write before).getLast?.all fun c => ¬ Blocks c ∧ c ≠ '$') = true ∧
    ((Token.write after).head?.all fun c => c ≠ ':' ∧ isNamePart c = false) = true) <| by
      rw [all_iff, all_iff, Apart]

instance (front rest : Text) : Decidable (Silent front rest) :=
  decidable_of_iff ((front.getLast?.any fun c => c = ':' ∨ Text.isWord c) = true ∨
    (front.getLast?.all fun c => c ≠ '\\') = true ∧ (rest.head?.all fun c => Text.isWord c = false) = true) <| by
      rw [all_iff, all_iff, Option.any_eq_true, Silent, Text.BeginsOutside]
      simp

/-- What holds at every place of a list holds for every way to split it there. -/
private theorem forall_split_iff {α : Type} {items : List α} {holds : List α → α → List α → Prop} :
    (∀ before item after, items = before ++ item :: after → holds before item after) ↔
      ∀ i : Fin items.length, holds (items.take i) items[i] (items.drop (i + 1)) := by
  constructor
  · intro all i
    exact all _ _ _ (by rw [Fin.getElem_fin, ← List.drop_eq_getElem_cons i.isLt, List.take_append_drop])
  · rintro each before item after rfl
    have here := each ⟨before.length, by simp⟩
    simpa using here

/-- What is asked of a token. -/
private def ApartAt (before : List Token) (token : Token) (after : List Token) : Prop :=
  ∀ digits, token = .placeholder digits → Apart before digits after

private instance (before : List Token) (token : Token) (after : List Token) : Decidable (ApartAt before token after) :=
  match token with
  | .placeholder digits => decidable_of_iff (Apart before digits after)
      ⟨fun apart _ same => Token.placeholder.inj same ▸ apart, fun all => all digits rfl⟩
  | .quoted _ | .marker | .schema _ | .plain _ => isTrue nofun

instance (text : Text) : Decidable (Separated text) :=
  decidable_of_iff
    ((∀ i : Fin (Token.read text).length,
        ApartAt ((Token.read text).take i) (Token.read text)[i] ((Token.read text).drop (i + 1))) ∧
      ∀ i : Fin text.length, text[i] = ':' → Silent (text.take i) (text.drop (i + 1))) <| by
    have places := @forall_split_iff _ (Token.read text) ApartAt
    have colons := @forall_split_iff _ text fun front c rest => c = ':' → Silent front rest
    rw [← places, ← colons]
    constructor
    · rintro ⟨apart, silent⟩
      exact ⟨fun before digits after split => apart before _ after split digits rfl,
        fun front rest split => silent front ':' rest split rfl⟩
    · rintro ⟨apart, silent⟩
      exact ⟨fun before token after split digits same => apart before digits after (same ▸ split),
        fun front c rest split same => silent front rest (same ▸ split)⟩

namespace Separated

theorem written (separated : Separated text) {digits : Text} (member : .placeholder digits ∈ Token.read text) :
    Text.ofNat (Text.numeralValue digits) = digits := by
  obtain ⟨before, after, tokens⟩ := List.append_of_mem member
  exact (separated.apart before digits after tokens).1

private theorem not_found_of_silent {front front' word behind right : Text} {after : List Token} (separated : Separated text)
    (colon : text = front' ++ ':' :: (right ++ Token.write after)) (last : front.getLast? = front'.getLast?)
    (rest : word ++ behind = right ++ nameAll after) (follows : ∀ c ∈ front.getLast?, ¬ Blocks c)
    (letters : ∀ c ∈ word, Text.isWord c) : word = [] := by
  rcases separated.silent _ _ colon with ⟨c, member, blocks⟩ | ⟨-, outside⟩
  · refine absurd ?_ (follows c (last ▸ member))
    exact blocks.imp_right .inr
  · cases word with
    | nil => rfl
    | cons c word =>
      exfalso
      have letter : Text.isWord c = true := letters c List.mem_cons_self
      cases right with
      | cons d right =>
        obtain ⟨rfl, -⟩ := List.cons.inj rest
        rw [outside c (by simp)] at letter
        cases letter
      | nil =>
        have head : (nameAll after).head? = some c := by rw [← List.nil_append (nameAll after), ← rest]; rfl
        rcases head?_nameAll after with same | ⟨colon, -⟩
        · rw [outside c (by rw [List.nil_append, ← same, head]; rfl)] at letter
          cases letter
        · obtain rfl : ':' = c := Option.some.inj (colon.symm.trans head)
          exact absurd letter (by decide)

private theorem isWord_of_ascii {c : Char} (digit : c.isDigit) : Text.isWord c = true := by
  have bounds : 48 ≤ c.toNat ∧ c.toNat ≤ 57 := by
    simp only [Char.isDigit, Bool.and_eq_true, decide_eq_true_eq] at digit
    exact digit
  rw [Text.isWord, if_pos (by omega), Char.isAlphanum, digit, Bool.or_true, Bool.true_or]

section Placed

variable {before after : List Token} {digits : Text}

theorem letters (separated : Separated text) (tokens : Token.read text = before ++ .placeholder digits :: after) :
    ∀ c ∈ 'p' :: digits, Text.isWord c := by
  intro c member
  rcases List.mem_cons.mp member with rfl | digit
  · decide
  · rw [← (separated.apart before digits after tokens).1] at digit
    exact isWord_of_ascii (Nat.isDigit_of_mem_toDigits (by decide) (by decide) digit)

/-- What is behind a name neither continues it nor is a colon. -/
theorem ends (separated : Separated text) (tokens : Token.read text = before ++ .placeholder digits :: after) :
    (nameAll after).head? ≠ some ':' ∧ Text.BeginsOutside isNamePart (nameAll after) := by
  have apart := (separated.apart before digits after tokens).2.2
  have same : (nameAll after).head? = (Token.write after).head? := by
    rcases head?_nameAll after with same | ⟨-, dollar⟩
    · exact same
    · have free := (apart '$' dollar).2
      exact absurd free (by decide)
  unfold Text.BeginsOutside
  rw [same]
  exact ⟨fun colon => (apart ':' colon).1 rfl, fun c head => (apart c head).2⟩

theorem follows (separated : Separated text) (tokens : Token.read text = before ++ .placeholder digits :: after) :
    ∀ c ∈ (nameAll before).getLast?, ¬ Blocks c ∧ c ≠ '$' := by
  have numerals : Token.Numerals before := fun digits member =>
    Token.numerals_read text digits (by rw [tokens]; exact List.mem_append_left _ member)
  rw [getLast?_nameAll numerals]
  exact (separated.apart before digits after tokens).2.1

end Placed

theorem nameAll_eq {before after : List Token} {digits : Text} (tokens : Token.read text = before ++ .placeholder digits :: after) :
    nameAll (Token.read text) = nameAll before ++ ':' :: (('p' :: digits) ++ nameAll after) := by
  rw [tokens, nameAll, List.flatMap_append, List.flatMap_cons]
  rfl

/-- In the named text just the names of the placeholders are found. -/
theorem found_iff (separated : Separated text) :
    Found (nameAll (Token.read text)) name ↔ ∃ digits, .placeholder digits ∈ Token.read text ∧ name = 'p' :: digits := by
  constructor
  · rintro ⟨front, word, behind, whole, apart, letters, outside, rfl, some⟩
    rcases exists_of_colon whole with ⟨before, digits, after, tokens, rfl, rest⟩ |
      ⟨front', right, after, colon, last, rest⟩
    · obtain ⟨free, ended⟩ := separated.ends tokens
      have ended' : Text.BeginsOutside Text.isWord (nameAll after) := fun c head => by
        have none := ended c head
        rw [isNamePart, Bool.or_eq_false_iff] at none
        exact none.1
      have same : word = 'p' :: digits := calc
        word = (word ++ behind).takeWhile Text.isWord := (outside.takeWhile_append letters).symm
        _ = (('p' :: digits) ++ nameAll after).takeWhile Text.isWord := by rw [rest]; rfl
        _ = _ := ended'.takeWhile_append (separated.letters tokens)
      obtain rfl : behind = nameAll after := by
        rw [same, ← List.cons_append] at rest
        exact List.append_cancel_left rest
      refine ⟨digits, by simp [tokens], ?_⟩
      rw [if_neg free, same]
    · have none := not_found_of_silent separated colon last rest apart letters
      subst none
      simp at some
  · rintro ⟨digits, member, rfl⟩
    obtain ⟨before, after, tokens⟩ := List.append_of_mem member
    obtain ⟨free, ended⟩ := separated.ends tokens
    refine ⟨nameAll before, 'p' :: digits, nameAll after, nameAll_eq tokens, fun c last => (separated.follows tokens c last).1,
      separated.letters tokens, fun c head => ?_, if_neg free, by simp⟩
    have none := ended c head
    rw [isNamePart, Bool.or_eq_false_iff] at none
    exact none.1

theorem mem_used (separated : Separated text) {digits : Text} (member : .placeholder digits ∈ Token.read text) :
    'p' :: digits ∈ used (nameAll (Token.read text)) := by
  obtain ⟨before, after, tokens⟩ := List.append_of_mem member
  obtain ⟨free, ended⟩ := separated.ends tokens
  have parts : ∀ c ∈ 'p' :: digits, isNamePart c := fun c inside => by
    rw [isNamePart, separated.letters tokens c inside, Bool.true_or]
  obtain ⟨first, second⟩ := run_append parts ended
  refine mem_namesAfter.mpr ⟨nameAll before, _, nameAll_eq tokens, ?_, ?_⟩
  · cases last : (nameAll before).getLast? with
    | none => rfl
    | some c =>
      obtain ⟨apart, dollar⟩ := separated.follows tokens c last
      simp only [Blocks, not_or] at apart
      simp [isNamePart, apart, dollar]
  · simp only [first, second]
    simp [free]

theorem unescape_eq (separated : Separated text) :
    unescape (nameAll (Token.read text)) = nameAll (Token.read text) := by
  have kept : ∀ whole : Text, (∀ front rest, whole ≠ front ++ '\\' :: ':' :: rest) → unescape whole = whole := by
    intro whole bare
    fun_induction unescape whole with
    | case1 rest => exact absurd rfl (bare [] rest)
    | case2 rest => exact absurd rfl (bare [] rest)
    | case3 c rest _ ih => rw [ih fun front rest' same => bare (c :: front) rest' (by rw [same]; rfl)]
    | case4 => rfl
  refine kept _ fun front rest whole => ?_
  have colon : nameAll (Token.read text) = (front ++ ['\\']) ++ ':' :: rest := by rw [whole]; simp
  rcases exists_of_colon colon with ⟨before, digits, after, tokens, same, -⟩ | ⟨front', right, after, own, last, -⟩
  · have blocks := (separated.follows tokens '\\' (by rw [← same, List.getLast?_append]; rfl)).1
    exact blocks (.inr (.inl rfl))
  · rw [List.getLast?_append] at last
    obtain ⟨front'', rfl⟩ := List.getLast?_eq_some_iff.mp last.symm
    rcases separated.silent _ _ own with ⟨c, member, blocks⟩ | ⟨bare, -⟩
    · obtain rfl : '\\' = c := by simpa using member
      exact absurd blocks (by decide)
    · exact bare '\\' (by simp) rfl

end Separated

/-! ### The values of names -/

theorem mem_inOrder {names : List Text} : name ∈ inOrder names ↔ name ∈ names := by
  rw [inOrder, (List.mergeSort_perm _ _).mem_iff, List.mem_eraseDups]

private theorem nodup_eraseDups (names : List Text) : names.eraseDups.Nodup := by
  -- Erasing takes later names out of the rest, so the induction is on the length.
  induction length : names.length using Nat.strong_induction_on generalizing names with
  | _ n ih =>
    subst length
    cases names with
    | nil => exact List.nodup_nil
    | cons name rest =>
      rw [List.eraseDups_cons, List.nodup_cons]
      refine ⟨by simp [List.mem_eraseDups], ih _ ?_ _ rfl⟩
      exact Nat.lt_succ_of_le (List.length_filter_le _ rest)

theorem nodup_inOrder (names : List Text) : (inOrder names).Nodup :=
  (List.mergeSort_perm _ _).nodup_iff.mpr (nodup_eraseDups names)

/-- The name of the k-th value, counted from nought. -/
def nameOf (k : Nat) : Text :=
  'p' :: Text.ofNat (k + 1)

theorem nameOf_inj {j k : Nat} : nameOf j = nameOf k ↔ j = k := by
  constructor
  · intro same
    have numerals := congrArg Text.numeralValue (List.cons.inj same).2
    rw [Text.numeralValue_ofNat, Text.numeralValue_ofNat] at numerals
    omega
  · rintro rfl
    rfl

/-- The values with their names. -/
def bindings (values : List Value) : List (Text × Value) :=
  values.mapIdx fun k value => (nameOf k, value)

theorem lookup_bindings (values : List Value) (k : Nat) : (bindings values).lookup (nameOf k) = values[k]? := by
  have later : ∀ (values : List Value) (first k : Nat),
      (values.mapIdx fun i value => (nameOf (i + first), value)).lookup (nameOf (k + first)) = values[k]? := by
    intro values
    induction values with
    | nil => exact fun _ _ => rfl
    | cons value rest ih =>
      intro first k
      rw [List.mapIdx_cons, List.lookup_cons]
      cases k with
      | zero => simp
      | succ k =>
        have other : (nameOf (k + 1 + first) == nameOf (0 + first)) = false := by simp [nameOf_inj]
        have step : ∀ i, i + 1 + first = i + (first + 1) := fun i => by omega
        rw [other, List.getElem?_cons_succ, ← ih (first + 1) k]
        simp only [step]
  exact later values 0 k

end NamedClause

namespace Fragment

open NamedClause

variable {fragment : Fragment}

/-- The text in which a name with its number stands for every placeholder. -/
def namedText (fragment : Fragment) : Text :=
  (Token.read fragment.text.content).flatMap fun
    | .placeholder digits => ":p" ++ Text.ofNat (Text.numeralValue digits)
    | token => token.source

private theorem namedText_eq (separated : Separated fragment.text.content) :
    nameAll (Token.read fragment.text.content) = fragment.namedText := by
  refine List.flatMap_congr fun token member => ?_
  cases token with
  | placeholder digits => simp only [named, separated.written member]
  | _ => rfl

/-- The names that are found and stand for values, each with its own value. -/
def parameters (fragment : Fragment) (text : Text) : List (Text × Value) :=
  (inOrder ((used text).filter (bindable text).contains)).map fun name =>
    (name, ((bindings fragment.values).lookup name).getD .null)

theorem toNamed_eq_ok {clause : NamedClause} : fragment.toNamed = .ok clause ↔
    (∀ k < fragment.values.length, Found (nameAll (Token.read fragment.text.content)) (nameOf k)) ∧
      clause = ⟨unescape (nameAll (Token.read fragment.text.content)),
        fragment.parameters (nameAll (Token.read fragment.text.content))⟩ := by
  have bound (text : Text) : ((bindings fragment.values).all fun entry => (bindable text).contains entry.1) = true ↔
      ∀ k < fragment.values.length, Found text (nameOf k) := by
    rw [List.all_eq_true]
    constructor
    · intro all k small
      have member : (nameOf k, fragment.values[k]) ∈ bindings fragment.values :=
        List.mem_mapIdx.mpr ⟨k, small, rfl⟩
      exact mem_bindable_iff.mp (by simpa using all _ member)
    · intro found entry member
      obtain ⟨k, small, rfl⟩ := List.mem_mapIdx.mp member
      simpa using mem_bindable_iff.mpr (found k small)
  have outcome : fragment.toNamed =
      if ((bindings fragment.values).all fun entry =>
          (bindable (nameAll (Token.read fragment.text.content))).contains entry.1) = true then
        .ok ⟨unescape (nameAll (Token.read fragment.text.content)),
          fragment.parameters (nameAll (Token.read fragment.text.content))⟩
      else .error .bindNameMissing := rfl
  rw [← bound, outcome]
  split
  · next all => exact ⟨fun same => ⟨all, (Except.ok.inj same).symm⟩, fun found => by rw [found.2]⟩
  · next missing => exact ⟨nofun, fun found => absurd found.1 missing⟩

theorem mem_parameters {text name : Text} {value : Value} : (name, value) ∈ fragment.parameters text ↔
    name ∈ used text ∧ Found text name ∧ value = ((bindings fragment.values).lookup name).getD .null := by
  rw [parameters, List.mem_map]
  constructor
  · rintro ⟨name, member, same⟩
    obtain ⟨rfl, rfl⟩ := Prod.mk.inj same
    obtain ⟨stands, found⟩ := List.mem_filter.mp (mem_inOrder.mp member)
    exact ⟨stands, mem_bindable_iff.mp (by simpa using found), rfl⟩
  · rintro ⟨stands, found, rfl⟩
    exact ⟨name, mem_inOrder.mpr (List.mem_filter.mpr ⟨stands, by simpa using mem_bindable_iff.mpr found⟩), rfl⟩

/-- The placeholders of a separated text, by the values they belong to. -/
private theorem placeholder_iff (separated : Separated fragment.text.content)
    (exactly : ∀ n, n ∈ fragment.indices ↔ 1 ≤ n ∧ n ≤ fragment.values.length) {name : Text} :
    (∃ digits, Token.placeholder digits ∈ Token.read fragment.text.content ∧ name = 'p' :: digits) ↔
      ∃ k < fragment.values.length, name = nameOf k := by
  have number {digits : Text} (member : Token.placeholder digits ∈ Token.read fragment.text.content) :
      Text.numeralValue digits ∈ fragment.indices := List.mem_filterMap.mpr ⟨_, member, rfl⟩
  constructor
  · rintro ⟨digits, member, rfl⟩
    obtain ⟨low, high⟩ := (exactly _).mp (number member)
    refine ⟨Text.numeralValue digits - 1, by omega, ?_⟩
    rw [nameOf, Nat.sub_add_cancel low, separated.written member]
  · rintro ⟨k, small, rfl⟩
    obtain ⟨token, member, same⟩ := List.mem_filterMap.mp ((exactly (k + 1)).mpr ⟨by omega, by omega⟩)
    cases token with
    | placeholder digits =>
      have value : Text.numeralValue digits = k + 1 := Option.some.inj same
      exact ⟨digits, member, by rw [nameOf, ← value, separated.written member]⟩
    | _ => cases same

/-- A fragment has a clause if the name of every value is found, and then no value goes to the name of another. If its placeholders are the numbers of its values and can be named, the names are all found, there is no other name, and each is bound to its value. -/
theorem toNamed_binds (fragment : Fragment)
    (exactly : ∀ n, n ∈ fragment.indices ↔ 1 ≤ n ∧ n ≤ fragment.values.length) :
    ((∃ clause, fragment.toNamed = .ok clause) ↔
      ∀ k < fragment.values.length, Found (nameAll (Token.read fragment.text.content)) (nameOf k)) ∧
    (∀ clause, fragment.toNamed = .ok clause → ∀ k < fragment.values.length, ∀ value,
      (nameOf k, value) ∈ clause.parameters → fragment.values[k]? = some value) ∧
    (Separated fragment.text.content → ∃ clause, fragment.toNamed = .ok clause ∧ clause.text = fragment.namedText ∧
      (clause.parameters.map Prod.fst).Nodup ∧
      ∀ name value, (name, value) ∈ clause.parameters ↔ ∃ k, name = nameOf k ∧ fragment.values[k]? = some value) := by
  have own {k : Nat} (small : k < fragment.values.length) {value : Value} :
      value = ((bindings fragment.values).lookup (nameOf k)).getD .null ↔ fragment.values[k]? = some value := by
    rw [lookup_bindings, List.getElem?_eq_getElem small, Option.getD_some, Option.some.injEq]
    exact eq_comm
  refine ⟨?_, ?_, fun separated => ?_⟩
  · simp only [toNamed_eq_ok, exists_and_left, exists_eq, and_true]
  · intro clause done k small value member
    obtain ⟨-, rfl⟩ := toNamed_eq_ok.mp done
    exact (own small).mp (mem_parameters.mp member).2.2
  · have found {name : Text} : Found (nameAll (Token.read fragment.text.content)) name ↔
        ∃ k < fragment.values.length, name = nameOf k :=
      separated.found_iff.trans (placeholder_iff separated exactly)
    refine ⟨_, toNamed_eq_ok.mpr ⟨fun k small => found.mpr ⟨k, small, rfl⟩, rfl⟩, ?_, ?_, ?_⟩
    · exact separated.unescape_eq.trans (namedText_eq separated)
    · have names : (fragment.parameters (nameAll (Token.read fragment.text.content))).map Prod.fst =
          inOrder ((used (nameAll (Token.read fragment.text.content))).filter
            (bindable (nameAll (Token.read fragment.text.content))).contains) := by
        rw [parameters, List.map_map]
        exact List.map_id _
      rw [names]
      exact nodup_inOrder _
    · intro name value
      rw [mem_parameters]
      constructor
      · rintro ⟨-, there, same⟩
        obtain ⟨k, small, rfl⟩ := found.mp there
        exact ⟨k, rfl, (own small).mp same⟩
      · rintro ⟨k, rfl, same⟩
        have small : k < fragment.values.length := (List.getElem?_eq_some_iff.mp same).1
        obtain ⟨digits, member, written⟩ := (placeholder_iff separated exactly).mpr ⟨k, small, rfl⟩
        refine ⟨?_, found.mpr ⟨k, small, rfl⟩, (own small).mpr same⟩
        rw [written]
        exact separated.mem_used member

/-- A cast beside a placeholder. -/
theorem toNamed_binds_cast :
    (∀ n, n ∈ indices ⟨.plain "x::int = $1", [.int 7]⟩ ↔ 1 ≤ n ∧ n ≤ [Value.int 7].length) ∧
    Separated "x::int = $1" ∧ ∃ clause, toNamed ⟨.plain "x::int = $1", [.int 7]⟩ = .ok clause ∧
      clause.text = "x::int = :p1" ∧ ∀ name value, (name, value) ∈ clause.parameters ↔
        ∃ k, name = nameOf k ∧ [Value.int 7][k]? = some value := by
  have exactly : ∀ n, n ∈ indices ⟨.plain "x::int = $1", [.int 7]⟩ ↔ 1 ≤ n ∧ n ≤ [Value.int 7].length := by
    have numbers : indices ⟨.plain "x::int = $1", [.int 7]⟩ = [1] := by decide +kernel
    intro n
    rw [numbers, List.mem_singleton]
    exact ⟨fun same => by simp [same], fun bounds => Nat.le_antisymm bounds.2 bounds.1⟩
  have separated : Separated "x::int = $1" := by decide +kernel
  obtain ⟨clause, done, text, -, bound⟩ := (toNamed_binds ⟨.plain "x::int = $1", [.int 7]⟩ exactly).2.2 separated
  exact ⟨exactly, separated, clause, done, text.trans (by decide +kernel), bound⟩

/-- A statement whose condition casts its value. -/
private def castValue : Query :=
  .of (.select { table := .text "t", filter := .chain ⟨⟨[(.and, ⟨.plain "a = ?::int", [.int 1]⟩)]⟩, .none⟩ })

private def castText : Text := "SELECT\n *\nFROM \"t\"\nWHERE (a = $1::int)"

private def textOfOne : Except Error BuiltQuery → Option Text
  | .ok ⟨.text text, [.int 1]⟩ => some text
  | _ => none

private theorem castValue_yields : (castValue.build none none).Yields ⟨.text castText, [.int 1]⟩ := by
  have made : textOfOne (Build.runFrom {} (castValue.build none none)).1 = some castText := by decide +kernel
  cases done : Build.runFrom {} (castValue.build none none) with
  | mk outcome after =>
    rw [done] at made
    match outcome, made with
    | .ok ⟨.text text, [.int 1]⟩, made =>
      obtain rfl := Option.some.inj made
      exact ⟨{}, after, done⟩

/-- A colon behind a placeholder takes the last digit of its name away, and the value has none. -/
theorem not_named_before_cast : (castValue.build none none).Yields ⟨.text castText, [.int 1]⟩ ∧
    indices ⟨.plain castText, [.int 1]⟩ = [1] ∧ ¬ ∃ clause, toNamed ⟨.plain castText, [.int 1]⟩ = .ok clause := by
  refine ⟨castValue_yields, by decide +kernel, ?_⟩
  rintro ⟨clause, done⟩
  have found := mem_bindable_iff.mpr ((toNamed_eq_ok.mp done).1 0 (by decide))
  have missing : nameOf 0 ∉ bindable (nameAll (Token.read castText)) := by decide +kernel
  exact missing found

end Fragment

end SqlCompose
