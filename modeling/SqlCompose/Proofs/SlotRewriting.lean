import Mathlib
import SqlCompose.Identifier
import SqlCompose.Proofs.Merging
import SqlCompose.Proofs.Outcome
import SqlCompose.Proofs.Slots

/-!
# Rewriting texts with slots

Numbering, renumbering and unnumbering, putting in schemas, and setting a text in go through its tokens or its characters one by one. What this does to the slots is said once for all rewritings of tokens: `Rewritten` lists what may become of a token, and `Rewritten.slotted` gives the slots of the new text, whose tokens need not be found for it.
-/

namespace SqlCompose

open Token

namespace Slotted

/-! ### Texts whose quotes are closed, token by token -/

/-- A text whose quotes are all closed, and its tokens, with what is known of the text behind each. -/
inductive Parsed : Text → List Token → Prop
  | nil : Parsed [] []
  | quoted {quote : Char} (inner : Text) {rest : Text} {tokens : List Token} (isQuote : Quoted.isQuote quote = true)
      (others : Parsed rest tokens) : Parsed (quote :: (Text.double quote inner ++ [quote]) ++ rest)
        (.quoted (quote :: (Text.double quote inner ++ [quote])) :: tokens)
  | marker {rest : Text} {tokens : List Token} (others : Parsed rest tokens) : Parsed ('?' :: rest) (.marker :: tokens)
  | placeholder {digits rest : Text} {tokens : List Token} (some : digits ≠ []) (all : ∀ c ∈ digits, Text.isDigit c)
      (stop : rest.BeginsOutside Text.isDigit) (others : Parsed rest tokens) :
      Parsed ('$' :: (digits ++ rest)) (.placeholder digits :: tokens)
  | schema {digits rest : Text} {tokens : List Token} (all : ∀ c ∈ digits, Text.isDigit c)
      (others : Parsed rest tokens) : Parsed ('$' :: ("schema" ++ (digits ++ rest))) (.schema digits :: tokens)
  | dollar {rest : Text} {tokens : List Token} (stop : rest.BeginsOutside Text.isDigit) (others : Parsed rest tokens) :
      Parsed ('$' :: rest) (.plain '$' :: tokens)
  | plain {c : Char} {rest : Text} {tokens : List Token} (ordinary : isPlain c = true) (others : Parsed rest tokens) :
      Parsed (c :: rest) (.plain c :: tokens)

theorem Parsed.write_eq {text : Text} {tokens : List Token} (parsed : Parsed text tokens) : write tokens = text := by
  induction parsed with
  | nil => rfl
  | quoted inner _ _ ih => rw [write_cons, ih, source_quoted]
  | marker _ ih => rw [write_cons, ih, source_marker, List.singleton_append]
  | placeholder _ _ _ _ ih => rw [write_cons, ih, source_placeholder, List.cons_append]
  | schema _ _ ih => rw [write_cons, ih, source_schema, List.cons_append, List.append_assoc]
  | dollar _ _ ih => rw [write_cons, ih, source_plain, List.singleton_append]
  | plain _ _ ih => rw [write_cons, ih, source_plain, List.singleton_append]

theorem stop_of_nothing {rest : Text} (nothing : afterDollar? rest = none) :
    rest.BeginsOutside Text.isDigit := by
  by_contra digit
  have run : rest.takeWhile Text.isDigit ≠ [] := by
    cases rest with
    | nil => exact absurd .nil digit
    | cons c rest =>
      have first : Text.isDigit c = true := by
        by_contra other
        exact digit (.cons (by simpa using other))
      rw [List.takeWhile_cons_of_pos first]
      simp
  have begun := afterDollar?_placeholder run (fun c member => List.mem_takeWhile_imp member) (.dropWhile rest)
  rw [List.takeWhile_append_dropWhile, nothing] at begun
  cases begun

private theorem Parsed.of_reads {text rest : Text} {tokens others : List Token} (reads : Reads text tokens)
    (none : ∀ c ∈ text, Quoted.isQuote c = false) (behind : Parsed rest others)
    (apart : rest.BeginsOutside Text.isDigit) : Parsed (text ++ rest) (tokens ++ others) := by
  induction reads with
  | nil => exact behind
  | marker _ ih => exact .marker (ih fun c member => none c (List.mem_cons_of_mem _ member))
  | placeholder some all stop _ ih =>
    rw [List.cons_append, List.append_assoc]
    refine .placeholder some all (stop.append apart) (ih fun c member => none c ?_)
    exact List.mem_cons_of_mem _ (List.mem_append_right _ member)
  | schema all _ _ _ ih =>
    rw [List.cons_append, List.append_assoc, List.append_assoc]
    refine .schema all (ih fun c member => none c ?_)
    exact List.mem_cons_of_mem _ (List.mem_append_right _ (List.mem_append_right _ member))
  | dollar nothing _ ih =>
    exact .dollar ((stop_of_nothing nothing).append apart) (ih fun c member => none c (List.mem_cons_of_mem _ member))
  | plain ordinary _ ih =>
    refine .plain ?_ (ih fun c member => none c (List.mem_cons_of_mem _ member))
    simp [isPlain, ordinary, none _ (List.mem_cons_self ..)]

/-- Between two unquoted segments there is a quoted one, so what follows an unquoted segment is no digit. -/
theorem apart_of_separate {pieces : List Segment} (separate : ∀ piece ∈ pieces.head?, piece.quoted = true)
    (wellCut : Quoted.WellCut pieces) : (Quoted.whole pieces).BeginsOutside Text.isDigit := by
  cases wellCut with
  | nil => exact .nil
  | unquoted _ _ _ _ => exact absurd (separate _ rfl) (by simp)
  | quoted inner isQuote _ _ =>
    refine .cons ?_
    by_contra digit
    rw [not_isQuote_of_isDigit (by simpa using digit)] at isQuote
    cases isQuote

private theorem parsed_of_wellCut {pieces : List Segment} (wellCut : Quoted.WellCut pieces)
    (none : ∀ piece ∈ pieces, piece.quoted = false → ∀ c ∈ piece.text, Quoted.isQuote c = false) :
    Parsed (Quoted.whole pieces) (pieces.flatMap ofSegment) := by
  induction wellCut with
  | nil => exact .nil
  | @unquoted text rest _ separate _ others ih =>
    rw [Quoted.whole_cons, List.flatMap_cons]
    exact .of_reads (reads_ofUnquoted text) (none _ (by simp) rfl)
      (ih fun piece member => none piece (List.mem_cons_of_mem _ member)) (apart_of_separate separate others)
  | quoted inner isQuote _ _ ih =>
    rw [Quoted.whole_cons, List.flatMap_cons]
    exact .quoted inner isQuote (ih fun piece member => none piece (List.mem_cons_of_mem _ member))

theorem parsed_read {text : Text} (balanced : Balanced text) : Parsed text (read text) := by
  have parsed := parsed_of_wellCut (Quoted.wellCut_segments text) balanced
  rwa [Quoted.whole_segments] at parsed

/-! ### What may become of tokens -/

/-- A text that can take the place of a schema token. -/
structure IsName (name : Text) : Prop where
  nonempty : name ≠ []
  stop : name.BeginsOutside Text.isDigit
  ordinary : ∀ c ∈ name, isPlain c = true

/-- Tokens, a text that they may become, and the slots of that text. -/
inductive Rewritten (firm : Prop) : List Token → Text → List Slot → Prop
  | nil : Rewritten firm [] [] []
  | kept {token : Token} (slotless : token.slot? = none) {rest : List Token} {out : Text} {slots : List Slot}
      (others : Rewritten firm rest out slots) : Rewritten firm (token :: rest) (token.source ++ out) slots
  | marker {rest : List Token} {out : Text} {slots : List Slot} (apart : firm → (write rest).BeginsOutside Text.isDigit)
      (others : Rewritten firm rest out slots) : Rewritten firm (.marker :: rest) ('?' :: out) (.free :: slots)
  | placeholder (digits : Text) {digits' : Text} (some : digits' ≠ []) (all : ∀ c ∈ digits', Text.isDigit c)
      {rest : List Token} {out : Text} {slots : List Slot} (others : Rewritten firm rest out slots) :
      Rewritten firm (.placeholder digits :: rest) ('$' :: (digits' ++ out)) (.numbered (Text.numeralValue digits') :: slots)
  | bound {digits' : Text} (some : digits' ≠ []) (all : ∀ c ∈ digits', Text.isDigit c) {rest : List Token} {out : Text}
      {slots : List Slot} (apart : (write rest).BeginsOutside Text.isDigit) (others : Rewritten firm rest out slots) :
      Rewritten firm (.marker :: rest) ('$' :: (digits' ++ out)) (.numbered (Text.numeralValue digits') :: slots)
  | unbound (digits : Text) {rest : List Token} {out : Text} {slots : List Slot} (others : Rewritten firm rest out slots) :
      Rewritten firm (.placeholder digits :: rest) ('?' :: out) (.free :: slots)
  | named (digits : Text) {name : Text} (isName : IsName name) {rest : List Token} {out : Text} {slots : List Slot}
      (others : Rewritten firm rest out slots) : Rewritten firm (.schema digits :: rest) (name ++ out) slots

variable {firm : Prop}

namespace Rewritten

theorem beginsOutside {tokens : List Token} {out : Text} {slots : List Slot} (rewritten : Rewritten firm tokens out slots)
    (outside : (write tokens).BeginsOutside Text.isDigit) : out.BeginsOutside Text.isDigit := by
  induction rewritten with
  | nil => exact .nil
  | @kept token _ _ _ _ _ ih =>
    rw [write_cons] at outside
    by_cases empty : token.source = []
    · rw [empty] at outside ⊢
      exact ih outside
    · exact outside.of_append.append_of_ne_nil empty _
  | marker _ _ _ => exact .cons isDigit_question
  | unbound _ _ _ => exact .cons isDigit_question
  | placeholder _ _ _ _ _ => exact .cons isDigit_dollar
  | bound _ _ _ _ _ => exact .cons isDigit_dollar
  | named _ isName _ _ => exact isName.stop.append_of_ne_nil isName.nonempty _

theorem slotted {text out : Text} {tokens : List Token} {slots : List Slot} (parsed : Parsed text tokens)
    (rewritten : Rewritten firm tokens out slots) : Slotted firm out slots := by
  induction parsed generalizing out slots with
  | nil =>
    cases rewritten
    exact .nil
  | quoted inner isQuote others ih =>
    cases rewritten with
    | kept _ further => exact .quoted inner isQuote (ih further)
  | marker others ih =>
    cases rewritten with
    | kept slotless _ => cases slotless
    | marker apart further => exact .marker (fun h => further.beginsOutside (apart h)) (ih further)
    | bound some all apart further => exact .placeholder some all (further.beginsOutside apart) (ih further)
  | placeholder _ _ stop others ih =>
    rw [← others.write_eq] at stop
    cases rewritten with
    | kept slotless _ => cases slotless
    | placeholder _ some all further => exact .placeholder some all (further.beginsOutside stop) (ih further)
    | unbound _ further => exact .marker (fun _ => further.beginsOutside stop) (ih further)
  | schema all others ih =>
    cases rewritten with
    | kept _ further =>
      rw [source_schema, List.cons_append]
      refine .dollar (.cons (by decide)) (.literal _ (List.all_eq_true.mpr ?_) (ih further))
      intro c member
      rcases List.mem_append.mp member with letter | digit
      · have plainly : ("schema" : Text).all isPlain = true := rfl
        exact List.all_eq_true.mp plainly c letter
      · simp [isPlain, not_isSign_of_isDigit (all c digit), not_isQuote_of_isDigit (all c digit)]
    | named _ isName further => exact .literal _ (List.all_eq_true.mpr isName.ordinary) (ih further)
  | dollar stop others ih =>
    rw [← others.write_eq] at stop
    cases rewritten with
    | kept _ further => exact .dollar (further.beginsOutside stop) (ih further)
  | plain ordinary others ih =>
    cases rewritten with
    | kept _ further => exact .plain ordinary (ih further)

/-! ### Rewritings of the library -/

theorem write {tokens : List Token} (numerals : Numerals tokens) (firmly : firm → Firm tokens) :
    Rewritten firm tokens (Token.write tokens) (tokens.filterMap slot?) := by
  induction tokens with
  | nil => exact .nil
  | cons token rest ih =>
    rw [write_cons]
    cases token with
    | marker => exact .marker (fun h => (firmly h).1) (ih numerals.tail fun h => (firmly h).2)
    | placeholder digits =>
      obtain ⟨some, all⟩ := numerals digits (by simp)
      exact .placeholder digits some all (ih numerals.tail firmly)
    | _ => exact .kept rfl (ih numerals.tail firmly)

theorem withNumber (number : Nat → Nat) {tokens : List Token} (firmly : firm → Firm tokens) :
    Rewritten firm tokens (Token.write (tokens.map (Token.withNumber number)))
      ((tokens.filterMap slot?).map (Slot.renumber number)) := by
  induction tokens with
  | nil => exact .nil
  | cons token rest ih =>
    rw [List.map_cons, write_cons]
    cases token with
    | marker => exact .marker (fun h => (firmly h).1) (ih fun h => (firmly h).2)
    | placeholder digits =>
      have new := Text.numeralValue_ofNat (number (Text.numeralValue digits))
      have rewritten := Rewritten.placeholder digits (Text.ofNat_ne_nil (number (Text.numeralValue digits)))
        (fun _ => Text.isDigit_of_mem_ofNat) (ih firmly)
      rw [new] at rewritten
      exact rewritten
    | _ => exact .kept rfl (ih firmly)

theorem unnumbered {tokens : List Token} (firmly : firm → Firm tokens) :
    Rewritten firm tokens (tokens.flatMap Token.unnumbered) ((tokens.filterMap slot?).map fun _ => .free) := by
  induction tokens with
  | nil => exact .nil
  | cons token rest ih =>
    rw [List.flatMap_cons]
    cases token with
    | marker => exact .marker (fun h => (firmly h).1) (ih fun h => (firmly h).2)
    | placeholder digits => exact .unbound digits (ih firmly)
    | _ => exact .kept rfl (ih firmly)

/-- Markers alone become placeholders with numbers in a row. -/
theorem bind {tokens : List Token} {count : Nat} (markers : tokens.filterMap slot? = List.replicate count .free)
    (firmly : Firm tokens) (start : Nat) :
    Rewritten firm tokens (Token.bind start tokens) ((List.range' start count).map .numbered) := by
  induction tokens generalizing count start with
  | nil =>
    cases count with
    | zero => exact .nil
    | succ count => cases markers
  | cons token rest ih =>
    cases token with
    | marker =>
      cases count with
      | zero => cases markers
      | succ count =>
        have new := Text.numeralValue_ofNat start
        have rewritten := Rewritten.bound (Text.ofNat_ne_nil start) (fun _ => Text.isDigit_of_mem_ofNat) firmly.1
          (ih (List.cons.inj markers).2 firmly.2 (start + 1))
        rw [new] at rewritten
        exact rewritten
    | placeholder digits =>
      cases count with
      | zero => cases markers
      | succ count => cases markers
    | _ => exact .kept rfl (ih markers firmly start)

end Rewritten

theorem slotted_of_rewritten {text out : Text} {slots : List Slot} (balanced : Balanced text)
    (rewritten : Rewritten firm (read text) out slots) : Slotted firm out slots :=
  rewritten.slotted (parsed_read balanced)

/-- A text whose quotes are closed has the slots that are read in it. -/
theorem of_balanced {text : Text} (balanced : Balanced text) (firmly : firm → Firm (read text)) :
    Slotted firm text ((read text).filterMap slot?) := by
  have slotted := slotted_of_rewritten balanced (Rewritten.write (numerals_read text) firmly)
  rwa [write_read] at slotted

variable {text : Text} {slots : List Slot}

theorem withNumbers (slotted : Slotted firm text slots) (number : Nat → Nat) :
    Slotted firm (Token.withNumbers number text) (slots.map (Slot.renumber number)) := by
  have found := slotted.found
  rw [← found.slots_eq]
  exact slotted_of_rewritten found.balanced (Rewritten.withNumber number found.firmly)

theorem unnumbered (slotted : Slotted firm text slots) :
    Slotted firm ((read text).flatMap Token.unnumbered) (slots.map fun _ => .free) := by
  have found := slotted.found
  rw [← found.slots_eq]
  exact slotted_of_rewritten found.balanced (Rewritten.unnumbered found.firmly)

theorem boundMarkers {count : Nat} (slotted : Slotted True text (List.replicate count .free)) (start : Nat) :
    Slotted firm (boundMarkers text start).1 ((List.range' start count).map .numbered) := by
  have found := slotted.found
  exact slotted_of_rewritten found.balanced (Rewritten.bind found.slots_eq (found.firmly trivial) start)

/-! ### Counting -/

theorem placeholders_eq (slotted : Slotted firm text slots) : placeholders text = slots.filterMap Slot.number? := by
  rw [← slotted.found.slots_eq, List.filterMap_filterMap, placeholders]
  congr 1
  funext token
  cases token <;> rfl

theorem countMarkers_eq (slotted : Slotted firm text slots) : countMarkers text = slots.countP Slot.isFree := by
  rw [← slotted.found.slots_eq, countMarkers]
  induction read text with
  | nil => rfl
  | cons token rest ih =>
    rw [List.countP_cons, ih, List.filterMap_cons]
    cases token <;> simp [slot?, isMarker, Slot.isFree, List.countP_cons]

theorem of_numbered (slotted : Slotted False text slots) (numbered : ∀ slot ∈ slots, Slot.isFree slot = false) :
    Slotted firm text slots := by
  induction slotted with
  | nil => exact .nil
  | quoted inner isQuote _ ih => exact .quoted inner isQuote (ih numbered)
  | plain ordinary _ ih => exact .plain ordinary (ih numbered)
  | dollar stop _ ih => exact .dollar stop (ih numbered)
  | marker _ _ _ => cases numbered .free (by simp)
  | placeholder some all stop _ ih =>
    exact .placeholder some all stop (ih fun slot member => numbered slot (List.mem_cons_of_mem _ member))

/-! ### Schemas -/

/-- What a token is written as when the schemas are known, and nothing if its schema cannot be written. -/
def withSchema (schemas : List Value) : Token → Text
  | .schema digits => ((Identifier.schemaNamed schemas digits).bind Identifier.schemaText).toOption.getD []
  | token => token.source

/-- What every schema is written as can take the place of a schema token. -/
def NamedBy (schemas : List Value) : Prop :=
  ∀ schema ∈ schemas, ∀ name, Identifier.schemaText schema = .ok name → IsName name

private theorem schemaNamed_mem {schemas : List Value} {digits : Text} {schema : Value}
    (found : Identifier.schemaNamed schemas digits = .ok schema) : schema ∈ schemas := by
  obtain ⟨index, -, chosen⟩ := Outcome.bind_eq_ok.mp found
  cases here : schemas[index]? with
  | none =>
    rw [here] at chosen
    obtain ⟨_, -, refused⟩ := Outcome.bind_eq_ok.mp chosen
    cases refused
  | some other =>
    rw [here] at chosen
    obtain rfl := Except.ok.inj chosen
    exact List.mem_of_getElem? here

private theorem substituteUnquoted_ok {schemas : List Value} {text out : Text}
    (done : Identifier.substituteUnquoted schemas text = .ok out) :
    out = (ofUnquoted text).flatMap (withSchema schemas) ∧ ∀ digits, .schema digits ∈ ofUnquoted text →
      ∃ schema ∈ schemas, Identifier.schemaText schema = .ok (withSchema schemas (.schema digits)) := by
  obtain ⟨pieces, found, further⟩ := Outcome.bind_eq_ok.mp done
  obtain ⟨texts, written, same⟩ := Outcome.bind_eq_ok.mp further
  obtain rfl := Except.ok.inj same
  replace found := Outcome.mapM_eq_ok.mp found
  replace written := Outcome.mapM_eq_ok.mp written
  clear done further same
  generalize ofUnquoted text = tokens at found ⊢
  induction found generalizing texts with
  | nil =>
    cases written
    exact ⟨rfl, by simp⟩
  | @cons token piece tokens pieces named _ ih =>
    cases written with
    | @cons _ text _ texts here there =>
      obtain ⟨rest, others⟩ := ih texts there
      have whole : text = withSchema schemas token ∧ ∀ digits, token = .schema digits →
          ∃ schema ∈ schemas, Identifier.schemaText schema = .ok text := by
        cases token with
        | schema digits =>
          have named : Identifier.schemaNamed schemas digits = .ok piece := named
          refine ⟨?_, fun _ _ => ⟨piece, schemaNamed_mem named, here⟩⟩
          simp [withSchema, named, Except.bind, here, Except.toOption]
        | _ =>
          obtain rfl := Except.ok.inj named
          exact ⟨(Except.ok.inj here).symm, by simp⟩
      refine ⟨?_, ?_⟩
      · rw [List.flatMap_cons, List.flatten_cons, ← rest, ← whole.1]
      · intro digits member
        rcases List.mem_cons.mp member with same | further
        · obtain ⟨schema, given, shown⟩ := whole.2 digits same.symm
          rw [same, ← whole.1]
          exact ⟨schema, given, shown⟩
        · exact others digits further

theorem substituteSchemas_ok {schemas : List Value} {text out : Text}
    (done : Identifier.substituteSchemas schemas text = .ok out) :
    out = (read text).flatMap (withSchema schemas) ∧ ∀ digits, .schema digits ∈ read text →
      ∃ schema ∈ schemas, Identifier.schemaText schema = .ok (withSchema schemas (.schema digits)) := by
  obtain ⟨parts, found, same⟩ := Outcome.bind_eq_ok.mp done
  obtain rfl := Except.ok.inj same
  replace found := Outcome.mapM_eq_ok.mp found
  rw [read_eq]
  clear done same
  generalize Quoted.segments text = segments at found ⊢
  induction found with
  | nil => exact ⟨rfl, by simp⟩
  | @cons segment part segments parts here _ ih =>
    obtain ⟨rest, others⟩ := ih
    have whole : part = (ofSegment segment).flatMap (withSchema schemas) ∧ ∀ digits, .schema digits ∈ ofSegment segment →
        ∃ schema ∈ schemas, Identifier.schemaText schema = .ok (withSchema schemas (.schema digits)) := by
      obtain ⟨inside, isQuoted⟩ := segment
      cases isQuoted with
      | true =>
        obtain rfl := Except.ok.inj here
        simp [ofSegment, withSchema]
      | false => exact substituteUnquoted_ok here
    refine ⟨?_, ?_⟩
    · rw [List.flatMap_cons, List.flatMap_append, List.flatten_cons, ← rest, whole.1]
    · intro digits member
      rw [List.flatMap_cons] at member
      rcases List.mem_append.mp member with near | far
      · exact whole.2 digits near
      · exact others digits far

theorem Rewritten.withSchemas {schemas : List Value} {tokens : List Token} (numerals : Numerals tokens)
    (firmly : firm → Firm tokens) (named : ∀ digits, .schema digits ∈ tokens → IsName (withSchema schemas (.schema digits))) :
    Rewritten firm tokens (tokens.flatMap (withSchema schemas)) (tokens.filterMap slot?) := by
  induction tokens with
  | nil => exact .nil
  | cons token rest ih =>
    have others := fun digits member => named digits (List.mem_cons_of_mem token member)
    rw [List.flatMap_cons]
    cases token with
    | marker => exact .marker (fun h => (firmly h).1) (ih numerals.tail (fun h => (firmly h).2) others)
    | placeholder digits =>
      obtain ⟨some, all⟩ := numerals digits (by simp)
      exact .placeholder digits some all (ih numerals.tail firmly others)
    | schema digits => exact .named digits (named digits (by simp)) (ih numerals.tail firmly others)
    | _ => exact .kept rfl (ih numerals.tail firmly others)

theorem substituteSchemas {schemas : List Value} {out : Text} (slotted : Slotted firm text slots)
    (named : NamedBy schemas) (done : Identifier.substituteSchemas schemas text = .ok out) : Slotted firm out slots := by
  have found := slotted.found
  obtain ⟨rfl, all⟩ := substituteSchemas_ok done
  rw [← found.slots_eq]
  refine slotted_of_rewritten found.balanced (Rewritten.withSchemas (numerals_read text) found.firmly ?_)
  intro digits member
  obtain ⟨schema, given, shown⟩ := all digits member
  exact named schema given _ shown

/-! ### Characters -/

/-- Characters that mean nothing to the scanner may become texts of their kind; all others stay. -/
def Harmless (change : Char → Text) : Prop :=
  ∀ c, change c = [c] ∨ isPlain c = true ∧ Text.isDigit c = false ∧ IsName (change c)

namespace Harmless

variable {change : Char → Text}

theorem beginsOutside (harmless : Harmless change) {rest : Text} (stop : rest.BeginsOutside Text.isDigit) :
    Text.BeginsOutside Text.isDigit (rest.flatMap change) := by
  cases rest with
  | nil => exact .nil
  | cons c rest =>
    rw [List.flatMap_cons]
    rcases harmless c with same | ⟨-, -, isName⟩
    · rw [same]
      exact .cons (stop c (by simp))
    · exact isName.stop.append_of_ne_nil isName.nonempty _

theorem kept (harmless : Harmless change) {c : Char} (special : isPlain c = false ∨ Text.isDigit c = true) :
    change c = [c] := by
  rcases harmless c with same | ⟨ordinary, other, -⟩
  · exact same
  · rw [ordinary, other] at special
    simp at special

theorem digits (harmless : Harmless change) {digits : Text} (all : ∀ c ∈ digits, Text.isDigit c) :
    digits.flatMap change = digits := by
  induction digits with
  | nil => rfl
  | cons c digits ih =>
    rw [List.flatMap_cons, harmless.kept (.inr (all c (by simp))), ih fun d member => all d (List.mem_cons_of_mem _ member)]
    rfl

theorem double_of_not_mem {quote : Char} {text : Text} (absent : quote ∉ text) : Text.double quote text = text := by
  induction text with
  | nil => rfl
  | cons c text ih =>
    have other : c ≠ quote := fun same => absent (by simp [same])
    have rest := ih fun member => absent (List.mem_cons_of_mem _ member)
    rw [Text.double] at rest ⊢
    rw [List.flatMap_cons, rest, if_neg other]
    rfl

theorem double (harmless : Harmless change) {quote : Char} (isQuote : Quoted.isQuote quote = true) (inner : Text) :
    (Text.double quote inner).flatMap change = Text.double quote (inner.flatMap change) := by
  have special : isPlain quote = false := by simp [isPlain, isQuote]
  have fixed := harmless.kept (.inl special)
  rw [Text.double, Text.double, List.flatMap_assoc, List.flatMap_assoc]
  congr 1
  funext c
  by_cases same : c = quote
  · simp [same, fixed]
  · rw [if_neg same, List.flatMap_singleton]
    refine (double_of_not_mem ?_).symm
    rcases harmless c with kept | ⟨-, -, isName⟩
    · rw [kept]
      simpa using fun h : quote = c => same h.symm
    · intro member
      rw [isName.ordinary quote member] at special
      cases special

end Harmless

/-- A harmless change of characters leaves the slots as they are. -/
theorem flatMap {change : Char → Text} (harmless : Harmless change) (slotted : Slotted firm text slots) :
    Slotted firm (text.flatMap change) slots := by
  have sign : ∀ c, isSign c = true → change c = [c] := fun c sign => harmless.kept (.inl (by simp [isPlain, sign]))
  induction slotted with
  | nil => exact .nil
  | @quoted quote inner rest _ isQuote _ ih =>
    have fixed : change quote = [quote] := harmless.kept (.inl (by simp [isPlain, isQuote]))
    have shape : List.flatMap change (quote :: (Text.double quote inner ++ [quote]) ++ rest) =
        quote :: (Text.double quote (inner.flatMap change) ++ [quote]) ++ rest.flatMap change := by
      simp [fixed, ← harmless.double isQuote]
    rw [shape]
    exact .quoted _ isQuote ih
  | @plain c rest _ ordinary _ ih =>
    rw [List.flatMap_cons]
    rcases harmless c with same | ⟨-, -, isName⟩
    · rw [same]
      exact .plain ordinary ih
    · exact .literal _ (List.all_eq_true.mpr isName.ordinary) ih
  | dollar stop _ ih =>
    rw [List.flatMap_cons, sign '$' rfl]
    exact .dollar (harmless.beginsOutside stop) ih
  | marker apart _ ih =>
    rw [List.flatMap_cons, sign '?' rfl]
    exact .marker (fun h => harmless.beginsOutside (apart h)) ih
  | placeholder some all stop _ ih =>
    rw [List.flatMap_cons, sign '$' rfl, List.flatMap_append, harmless.digits all]
    exact .placeholder some all (harmless.beginsOutside stop) ih

/-! ### Setting a text in -/

/-- What becomes of a character when the lines are set in. -/
def setIn (spaces : Nat) (c : Char) : Text :=
  if c = '\n' then '\n' :: List.replicate spaces ' ' else [c]

private theorem indent_eq_split (spaces : Nat) (text : Text) :
    ∃ piece pieces, Text.split '\n' text = piece :: pieces ∧
      Text.join ['\n'] ((piece :: pieces).map (List.replicate spaces ' ' ++ ·)) =
        List.replicate spaces ' ' ++ text.flatMap (setIn spaces) := by
  induction text with
  | nil => exact ⟨[], [], rfl, by simp [Text.join]⟩
  | cons c rest ih =>
    obtain ⟨piece, pieces, cut, joined⟩ := ih
    by_cases line : c = '\n'
    · refine ⟨[], piece :: pieces, by rw [Text.split, if_pos line, cut], ?_⟩
      rw [List.map_cons, List.map_cons, Text.join, List.intercalate_cons_cons]
      rw [List.map_cons, Text.join] at joined
      rw [joined]
      simp [setIn, line]
    · refine ⟨c :: piece, pieces, by rw [Text.split, if_neg line, cut], ?_⟩
      cases pieces with
      | nil =>
        simp only [Text.join, List.map_cons, List.map_nil, List.intercalate_singleton, List.append_cancel_left_eq] at joined
        simp [Text.join, joined, setIn, line]
      | cons next pieces =>
        simp only [Text.join, List.map_cons, List.intercalate_cons_cons, List.append_assoc,
          List.append_cancel_left_eq] at joined
        simp [Text.join, List.intercalate_cons_cons, ← joined, setIn, line]

theorem indent_eq (spaces : Nat) (text : Text) :
    Text.indent spaces text = List.replicate spaces ' ' ++ text.flatMap (setIn spaces) := by
  obtain ⟨piece, pieces, cut, joined⟩ := indent_eq_split spaces text
  rw [Text.indent, cut, joined]

theorem harmless_setIn (spaces : Nat) : Harmless (setIn spaces) := by
  intro c
  by_cases line : c = '\n'
  · subst line
    refine .inr ⟨by decide, by decide, by simp [setIn], .cons (by decide), ?_⟩
    intro d member
    rcases List.mem_cons.mp (show d ∈ '\n' :: List.replicate spaces ' ' by simpa [setIn] using member) with rfl | blank
    · decide
    · rw [List.eq_of_mem_replicate blank]
      decide
  · exact .inl (by simp [setIn, line])

theorem indent (spaces : Nat) (slotted : Slotted firm text slots) : Slotted firm (Text.indent spaces text) slots := by
  rw [indent_eq]
  refine .literal _ (List.all_eq_true.mpr ?_) (slotted.flatMap (harmless_setIn spaces))
  intro c member
  rw [List.eq_of_mem_replicate member]
  decide

/-- A character that means nothing to the scanner may be written twice. -/
theorem double {c : Char} (ordinary : isPlain c = true) (other : Text.isDigit c = false) (slotted : Slotted firm text slots) :
    Slotted firm (Text.double c text) slots := by
  refine slotted.flatMap fun d => ?_
  by_cases same : d = c
  · subst same
    exact .inr ⟨ordinary, other, by simp, by simpa using .cons other, by simpa using ordinary⟩
  · exact .inl (by simp [same])

end Slotted

end SqlCompose
