import Mathlib
import SqlCompose.Proofs.SolidConditions

/-!
# Forms of condition

Chains have a method for each usual form of condition: membership in a list, a range, a pattern, a search. All forms print a column into a text that has a marker for each value; `Shaped` lists the texts that come about. If the column is an expression, the predicate made of it is ready, and solid if the column has no schema token: its markers are counted when it is made, so the column itself has none.
-/

namespace SqlCompose

open Token Build

namespace Chain

/-- A condition on a column that one method of a chain adds. -/
inductive Form where
  | membership (negated : Bool) (column : Value) (values : List Value)
  | range (negated : Bool) (column low high : Value)
  | absence (negated : Bool) (column : Value)
  | pattern (negated anyCase : Bool) (column shape : Value)
  | containing (anyCase : Bool) (field query : Value)
  | matchingWords (field query configuration : Value)
  | similar (field query threshold : Value)

namespace Form

def column : Form → Value
  | .membership _ column _ | .range _ column _ _ | .absence _ column | .pattern _ _ column _ => column
  | .containing _ field _ | .matchingWords field _ _ | .similar field _ _ => field

def edit (connective : Value) : Form → Build Edit
  | membership negated column values => liftM (Edit.membership negated column values connective)
  | range negated column low high => liftM (Edit.range negated column low high connective)
  | absence negated column => liftM (Edit.absence negated column connective)
  | pattern negated anyCase column shape => liftM (Edit.pattern negated anyCase column shape connective)
  | containing anyCase field query => liftM (Edit.containing anyCase field query connective)
  | matchingWords field query configuration => liftM (Edit.matchingWords field query configuration connective)
  | similar field query threshold => Edit.similar field query threshold connective

end Form

end Chain

/-! ### Ready conditions -/

/-- A condition that becomes a ready predicate, if it becomes one. -/
def Condition.Ready (condition : Condition) : Prop :=
  ∀ {values : List Value} {predicate : Predicate}, (condition.toPredicate values).Yields predicate → predicate.Ready

namespace Condition

theorem ready_text {text : Wording} (content : Clean text.content) (printed : Clean text.printed) : (Condition.text text).Ready :=
  fun made => Predicate.ready_of_make ⟨_, content.slotted⟩ ⟨_, printed.slotted⟩ made

theorem ready_predicate {predicate : Predicate} (ready : predicate.Ready) : (Condition.predicate predicate).Ready := by
  intro values other made
  rw [toPredicate] at made
  split at made
  · rw [← yields_pure.mp made]
    exact ready
  · exact absurd made not_yields_throw

theorem ready_chain {chain : Chain} (ready : chain.Ready) : (Condition.chain chain).Ready := by
  intro values predicate made
  obtain ⟨collapsed, first, made⟩ := Yields.bind made
  split at made
  · rw [← yields_pure.mp made]
    exact Chain.ready_toPredicate ready first
  · exact absurd made not_yields_throw

end Condition

/-! ### Predicates on a column -/

namespace Predicate

/-- Text in front of a column, with so many markers. -/
structure Lead (text : Text) (count : Nat) : Prop where
  slotted : ∀ {firm : Prop} {rest : Text} {slots : List Slot}, Slotted firm rest slots →
    Slotted firm (text ++ rest) (List.replicate count .free ++ slots)
  spans : ∀ {rest : Text}, Spans rest 0 0 → Spans (text ++ rest) 0 0

/-- Text behind a column, with so many markers; it begins with something apart. -/
structure Tail (text : Text) (count : Nat) : Prop where
  expects : Expects text count
  apart : SetOff text

theorem Lead.literal {run : Text} (ordinary : run.all isPlain = true) : Lead run 0 :=
  ⟨fun slotted => .literal run ordinary slotted, fun spans => .literal run ordinary spans⟩

theorem Lead.marker (run : Text) (ordinary : run.all isPlain = true) (run' : Text) (ordinary' : run'.all isPlain = true)
    (first : run'.head?.map Text.isDigit = some false) : Lead (run ++ '?' :: run') 1 := by
  refine ⟨fun {firm rest slots} slotted => ?_, fun {rest} spans => ?_⟩
  · rw [List.append_assoc]
    exact .literal run ordinary (.marker (fun _ => .of_head first rest) (.literal run' ordinary' slotted))
  · rw [List.append_assoc]
    exact .literal run ordinary (.marker (.literal run' ordinary' spans))

namespace Tail

theorem nil : Tail [] 0 :=
  ⟨.of_plain rfl, .nil⟩

theorem of_plain {text : Text} (ordinary : text.all isPlain = true) (first : text.head?.map setsOff = some true) : Tail text 0 :=
  ⟨.of_plain ordinary, by simpa using SetOff.literal first []⟩

theorem marker (run : Text) (ordinary : run.all isPlain = true) (first : run.head?.map setsOff = some true) {rest : Text}
    {count : Nat} (tail : Tail rest count) : Tail (run ++ '?' :: rest) (count + 1) :=
  ⟨.literal run ordinary (.marker tail.apart.digit tail.expects), .literal first _⟩

end Tail

/-- A predicate on a column: a text without it, one in which it stands between a lead and a tail, or several such texts in a chain. -/
inductive Shaped (column : Value) : Predicate → Prop
  | plain {text : Text} {values : List Value} {predicate : Predicate} (ordinary : text.all isPlain = true)
      (made : (make (.plain text) values).Yields predicate) : Shaped column predicate
  | around {front name back : Text} {before behind : Nat} {values : List Value} {predicate : Predicate} (lead : Lead front before)
      (printed : column.printed = .ok name) (tail : Tail back behind) (length : values.length = before + behind)
      (made : (make (.plain (front ++ (name ++ back))) values).Yields predicate) : Shaped column predicate
  | collapsed {chain : Chain} {values : List Value} {predicate : Predicate} (links : ∀ link ∈ chain.links, Shaped column link.2)
      (made : ((Condition.chain chain).toPredicate values).Yields predicate) : Shaped column predicate

namespace Shaped

variable {column : Value} {predicate : Predicate}

/-- Between a lead and a tail stands a column without markers, because all markers have been counted. -/
private theorem awaits_around {front name back : Text} {before behind : Nat} {values : List Value} (lead : Lead front before)
    (tail : Tail back behind) (expressible : Expressible name) (length : values.length = before + behind)
    (made : (make (.plain (front ++ (name ++ back))) values).Yields predicate) :
    Awaits (front ++ (name ++ back)) (before + behind) := by
  obtain ⟨-, -, counted⟩ := of_make made
  have loose := lead.slotted (expressible.slotted.append tail.expects.awaits.weaken tail.apart.digit)
  simp only [List.replicate_append_replicate] at loose
  have none : countMarkers name = 0 := by
    rw [Wording.content_plain, countMarkers_of_replicate loose] at counted
    omega
  have firm := lead.slotted ((expressible.unslotted none).append tail.expects.awaits tail.apart.digit)
  rwa [List.nil_append, List.replicate_append_replicate] at firm

theorem ready (shaped : Shaped column predicate) (isExpression : column.IsExpression) : predicate.Ready := by
  induction shaped with
  | plain ordinary made => exact ready_of_plain ⟨0, .of_plain ordinary⟩ made
  | around lead printed tail length made =>
    exact ready_of_plain ⟨_, awaits_around lead tail (isExpression _ (.inr (.inr printed))) length made⟩ made
  | collapsed _ made ih => exact Condition.ready_chain ih made

theorem solid (shaped : Shaped column predicate)
    (isPhrase : ∀ name, column.printed = .ok name → Expressible name ∧ Schemaless name) : predicate.Solid := by
  induction shaped with
  | plain ordinary made => exact solid_of_plain (.of_plain ordinary) made
  | around lead printed tail length made =>
    obtain ⟨expressible, schemaless⟩ := isPhrase _ printed
    have spans := lead.spans ((Spans.of_expressible expressible schemaless).append_bare tail.expects.spans tail.apart)
    exact solid_of_plain ⟨awaits_around lead tail expressible length made, spans⟩ made
  | collapsed _ made ih => exact Condition.solid_chain ih made

/-- What is linked to a chain of such predicates is one too. -/
private theorem link {chain linked : Chain} (links : ∀ link ∈ chain.links, Shaped column link.2) {connective : Value}
    {condition : Condition} {values : List Value}
    (becomes : ∀ {predicate : Predicate}, (condition.toPredicate values).Yields predicate → Shaped column predicate)
    (done : (chain.link connective condition values).Yields linked) : ∀ link ∈ linked.links, Shaped column link.2 := by
  unfold Chain.link at done
  split at done
  · rw [← yields_pure.mp done]
    exact links
  · obtain ⟨word, -, further⟩ := done.bind
    obtain ⟨predicate, made, same⟩ := further.bind
    rw [← yields_pure.mp same]
    intro link member
    rcases List.mem_append.mp member with before | last
    · exact links link before
    · rw [List.mem_singleton.mp last]
      exact becomes made

end Shaped

private theorem tail_range (negated : Bool) : Tail (if negated then " NOT BETWEEN ? AND ?" else " BETWEEN ? AND ?" : Text) 2 := by
  have bounds := Tail.nil.marker " AND " rfl (by decide)
  cases negated with
  | true => exact bounds.marker " NOT BETWEEN " rfl (by decide)
  | false => exact bounds.marker " BETWEEN " rfl (by decide)

private theorem tail_absence (negated : Bool) : Tail (if negated then " IS NOT NULL" else " IS NULL" : Text) 0 := by
  cases negated with
  | true => exact .of_plain rfl (by decide)
  | false => exact .of_plain rfl (by decide)

private theorem tail_pattern (negated anyCase : Bool) : Tail (match negated, anyCase with
    | false, false => " LIKE ?"
    | false, true => " ILIKE ?"
    | true, false => " NOT LIKE ?"
    | true, true => " NOT ILIKE ?" : Text) 1 := by
  cases negated with
  | true =>
    cases anyCase with
    | true => exact Tail.nil.marker " NOT ILIKE " rfl (by decide)
    | false => exact Tail.nil.marker " NOT LIKE " rfl (by decide)
  | false =>
    cases anyCase with
    | true => exact Tail.nil.marker " ILIKE " rfl (by decide)
    | false => exact Tail.nil.marker " LIKE " rfl (by decide)

private theorem expects_list (values : List Value) : Expects (Text.join ", " (values.map fun _ => "?")) values.length := by
  have marker : Expects "?" 1 := .marker .nil (.of_plain rfl)
  have all : List.Forall₂ Expects (values.map fun _ => ("?" : Text)) (values.map fun _ => 1) := by
    rw [List.forall₂_map_left_iff, List.forall₂_map_right_iff]
    exact List.forall₂_same.mpr fun _ _ => marker
  have joined := Expects.join ", " rfl (by decide) all
  simpa using joined

private theorem tail_membership (negated : Bool) (values : List Value) :
    Tail ((if negated then " NOT IN (" else " IN (" : Text) ++ (Text.join ", " (values.map fun _ => "?") ++ ")")) values.length := by
  have closed := (expects_list values).behind ")" rfl (by decide)
  cases negated with
  | true => exact ⟨.literal " NOT IN (" rfl closed, .literal (by decide) _⟩
  | false => exact ⟨.literal " IN (" rfl closed, .literal (by decide) _⟩

variable {values : List Value} {predicate : Predicate}

private theorem shaped_before {column : Value} {name back : Text} (printed : column.printed = .ok name) (tail : Tail back values.length)
    (made : (make (.plain (name ++ back)) values).Yields predicate) : Shaped column predicate :=
  @Shaped.around column [] name back 0 _ values predicate (.literal rfl) printed tail (Nat.zero_add _).symm made

private theorem shaped_pattern {negated anyCase : Bool} {column shape connective word : Value} {condition : Condition}
    (written : Chain.Edit.pattern negated anyCase column shape connective = .ok (.link word condition values))
    (made : (condition.toPredicate values).Yields predicate) : Shaped column predicate := by
  obtain ⟨name, printed, same⟩ := Outcome.bind_eq_ok.mp written
  obtain ⟨-, rfl, rfl⟩ := Chain.Edit.link.inj (Except.ok.inj same)
  exact shaped_before printed (tail_pattern negated anyCase) made

/-- What a form of condition becomes is a predicate on its column. -/
theorem shaped_of_form {form : Chain.Form} {connective word : Value} {condition : Condition}
    (written : (form.edit connective).Yields (.link word condition values))
    (made : (condition.toPredicate values).Yields predicate) : Shaped form.column predicate := by
  cases form with
  | membership negated column listed =>
    have done := yields_lift.mp written
    unfold Chain.Edit.membership at done
    split at done
    · obtain ⟨-, rfl, rfl⟩ := Chain.Edit.link.inj (Except.ok.inj done)
      cases negated <;> exact .plain rfl made
    · obtain ⟨name, printed, same⟩ := Outcome.bind_eq_ok.mp done
      obtain ⟨-, rfl, rfl⟩ := Chain.Edit.link.inj (Except.ok.inj same)
      simp only [List.append_assoc] at made
      exact shaped_before printed (tail_membership negated listed) made
  | range negated column low high =>
    obtain ⟨name, printed, same⟩ := Outcome.bind_eq_ok.mp (yields_lift.mp written)
    obtain ⟨-, rfl, rfl⟩ := Chain.Edit.link.inj (Except.ok.inj same)
    exact shaped_before printed (tail_range negated) made
  | absence negated column =>
    obtain ⟨name, printed, same⟩ := Outcome.bind_eq_ok.mp (yields_lift.mp written)
    obtain ⟨-, rfl, rfl⟩ := Chain.Edit.link.inj (Except.ok.inj same)
    exact shaped_before printed (tail_absence negated) made
  | pattern negated anyCase column shape => exact shaped_pattern (yields_lift.mp written) made
  | containing anyCase column query =>
    obtain ⟨text, -, same⟩ := Outcome.bind_eq_ok.mp (yields_lift.mp written)
    exact shaped_pattern same made
  | matchingWords column query configuration =>
    obtain ⟨words, -, further⟩ := Outcome.bind_eq_ok.mp (yields_lift.mp written)
    obtain ⟨beginnings, -, further⟩ := Outcome.bind_eq_ok.mp further
    obtain ⟨name, printed, same⟩ := Outcome.bind_eq_ok.mp further
    obtain ⟨-, rfl, rfl⟩ := Chain.Edit.link.inj (Except.ok.inj same)
    have tail : Tail ") @@ to_tsquery(?, ?)" 2 :=
      ((Tail.of_plain rfl (by decide) : Tail ")" 0).marker ", " rfl (by decide)).marker ") @@ to_tsquery(" rfl (by decide)
    have lead : Lead ("to_tsvector(" ++ '?' :: ", ") 1 := .marker "to_tsvector(" rfl ", " rfl rfl
    simp only [List.append_assoc] at made
    exact .around lead printed tail rfl made
  | similar column query threshold =>
    obtain ⟨name, printed, further⟩ := written.bind
    obtain ⟨both, linked, same⟩ := further.bind
    obtain ⟨-, rfl, rfl⟩ := Chain.Edit.link.inj (yields_pure.mp same)
    replace printed := yields_lift.mp printed
    rw [Chain.Edit.applyAll, List.foldlM_cons] at linked
    obtain ⟨single, first, linked⟩ := linked.bind
    rw [List.foldlM_cons] at linked
    obtain ⟨double, second, linked⟩ := linked.bind
    rw [List.foldlM_nil, yields_pure] at linked
    subst linked
    have indexed : ∀ link ∈ single.links, Shaped column link.2 := by
      rw [Chain.Edit.ofText, Chain.Edit.apply] at first
      refine Shaped.link (List.forall_mem_nil _) (fun made => ?_) first
      exact shaped_before printed (Tail.nil.marker " % " rfl (by decide)) made
    have both : ∀ link ∈ double.links, Shaped column link.2 := by
      rw [Chain.Edit.ofText, Chain.Edit.apply] at second
      refine Shaped.link indexed (fun made => ?_) second
      have tail : Tail ", ?) >= ?" 2 := (Tail.nil.marker ") >= " rfl (by decide)).marker ", " rfl (by decide)
      simp only [List.append_assoc] at made
      exact .around (.literal rfl : Lead "similarity(" 0) printed tail rfl made
    exact .collapsed both made

/-- What a form of condition becomes is ready if its column is an expression. -/
theorem ready_of_form {form : Chain.Form} {connective word : Value} {condition : Condition}
    (isExpression : form.column.IsExpression) (written : (form.edit connective).Yields (.link word condition values))
    (made : (condition.toPredicate values).Yields predicate) : predicate.Ready :=
  (shaped_of_form written made).ready isExpression

end Predicate

end SqlCompose
