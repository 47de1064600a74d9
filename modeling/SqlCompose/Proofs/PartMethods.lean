import Mathlib
import SqlCompose.Proofs.ReadChanges
import SqlCompose.Proofs.ConfiguredParts

/-!
# Methods by the part they configure

Every configuring method but `reset` is about one part of a statement: whatever the arguments, the changes that it reads are changes of this part.
-/

namespace SqlCompose.Session

open Statement (Part)

/-- The methods that are about each part. -/
def partMethods : Part → List Text
  | .target => ["from_", "into"]
  | .fields => ["select", "raw_select", "add_select", "add_raw_select"]
  | .distinct => ["distinct"]
  | .joins => ["join", "join_subquery"]
  | .filter => ["where", "or_where", "reset_where"]
  | .groups => ["group_by", "add_group_by"]
  | .groupBySelected => ["group_by_select_fields"]
  | .having => ["having"]
  | .orders => ["order_by", "add_order_by", "reset_order_by"]
  | .paging => ["limit", "offset", "limit_and_offset", "reset_limit_offset"]
  | .content => ["values", "add_value", "set", "add_set_value", "add_set"]
  | .source => ["columns", "from_select"]
  | .others => ["using"]
  | .returning => ["returning", "add_returning", "returning_raw", "add_returning_raw", "returning_all"]
  | .members => ["add", "add_many", "add_many_of_type"]
  | .name => ["as_"]
  | .flavor => ["sql_flavor"]
  | .schemas => ["schema", "add_schema"]
  | .ctes => ["with_"]
  | .compaction => ["set_build_defaults"]

/-- Whatever the arguments, the changes are read without effect and are changes of the part. -/
def Concerns (part : Part) (method : Method (Changes Statement.Edit)) : Prop :=
  ∀ arguments, Act.Reads (method.run arguments).list fun changes => ∀ change ∈ changes, Act.Reads change fun edit => edit.part? = some part

/-- The method is listed for a part, and concerns it. -/
def Placed (entry : Text × Method (Changes Statement.Edit)) : Prop :=
  ∃ part, entry.1 ∈ partMethods part ∧ Concerns part entry.2

section Tables

variable {part : Part} {signature : Signature}

private theorem concerns_one {change : Arguments → Act Statement.Edit}
    (reads : ∀ arguments, Act.Reads (change arguments) fun edit => edit.part? = some part) :
    Concerns part ⟨signature, fun arguments => .one (change arguments)⟩ :=
  fun arguments => Act.reads_pure (List.forall_mem_singleton.mpr (reads arguments))

private theorem concerns_given {edit : Arguments → Statement.Edit} (own : ∀ arguments, (edit arguments).part? = some part) :
    Concerns part ⟨signature, fun arguments => .given [edit arguments]⟩ :=
  fun arguments => Act.reads_pure (List.forall_mem_singleton.mpr (Act.reads_pure (own arguments)))

private theorem concerns_fieldList (raw : Bool) {edit : List Field → Statement.Edit} (own : ∀ list, (edit list).part? = some part) :
    Concerns part (fieldList raw edit) :=
  concerns_one fun _ => Act.reads_after fun list _ => Act.reads_pure (own list)

private theorem concerns_groupList {edit : List Value → Statement.Edit} (own : ∀ list, (edit list).part? = some part) :
    Concerns part (groupList edit) :=
  concerns_one fun _ => Act.reads_after fun list _ => Act.reads_pure (own list)

private theorem concerns_columnAndValue {edit : Value → Value → Statement.Edit} (own : ∀ column value, (edit column value).part? = some part) :
    Concerns part (columnAndValue edit) :=
  concerns_one fun _ => (Act.reads_build _).bind fun _ _ => Act.reads_pure (own _ _)

private theorem concerns_restricting (connective : Connective) : Concerns .filter (restricting connective) :=
  concerns_one fun _ => (Act.reads_condition _).bind fun _ _ => Act.reads_pure rfl

private theorem limitTo_part (value : Value) : Act.Reads (limitTo value) fun edit => edit.part? = some .paging :=
  Act.reads_after fun _ _ => Act.reads_pure rfl

private theorem startAfter_part (value : Value) : Act.Reads (startAfter value) fun edit => edit.part? = some .paging :=
  Act.reads_after fun _ _ => Act.reads_pure rfl

private theorem limitAndOffset_part (arguments : Arguments) :
    ∀ change ∈ limitAndOffset arguments, Act.Reads change fun edit => edit.part? = some .paging := by
  unfold limitAndOffset
  refine List.forall_mem_cons.mpr ⟨limitTo_part _, ?_⟩
  split
  · exact List.forall_mem_nil _
  · exact List.forall_mem_singleton.mpr (startAfter_part _)

private theorem orderEntries_part (arguments : Arguments) :
    ∀ change ∈ orderEntries arguments, Act.Reads change fun edit => edit.part? = some .orders := by
  have entry (direction value : Value) : Act.Reads (do return .order (← OrderBy.ofEntry direction value))
      fun edit : Statement.Edit => edit.part? = some .orders := Act.reads_after fun _ _ => Act.reads_pure rfl
  unfold orderEntries
  dsimp only
  split
  · exact List.forall_mem_map.mpr fun value _ => entry _ value
  · exact List.forall_mem_singleton.mpr (entry _ _)

private theorem memberEdit_part (query operator : Value) : Act.Reads (memberEdit query operator) fun edit => edit.part? = some .members :=
  (Act.reads_query _).bind fun _ _ => Act.reads_after fun _ _ => Act.reads_pure rfl

private theorem memberEntry_part (value : Value) : Act.Reads (memberEntry value) fun edit => edit.part? = some .members := by
  unfold memberEntry
  split
  · exact memberEdit_part _ _
  · exact memberEdit_part _ _
  · exact Act.reads_throw _
  · split
    · exact Act.reads_throw _
    · exact memberEdit_part _ _
  · exact memberEdit_part _ _

private theorem settingEdits_placed : ∀ entry ∈ settingEdits, Placed entry := by
  simp only [settingEdits, List.forall_mem_cons]
  refine ⟨⟨.flavor, by decide, ?flavor⟩, ⟨.schemas, by decide, concerns_given fun _ => rfl⟩, ⟨.schemas, by decide, concerns_given fun _ => rfl⟩,
    ⟨.compaction, by decide, concerns_given fun _ => rfl⟩, ⟨.ctes, by decide, ?ctes⟩, List.forall_mem_nil _⟩
  case flavor => exact concerns_one fun _ => Act.reads_after fun _ _ => Act.reads_pure rfl
  case ctes => exact concerns_one fun _ => (Act.reads_attachedCtes _).bind fun _ _ => Act.reads_pure rfl

private theorem clauseEdits_placed : ∀ entry ∈ clauseEdits, entry.1 ≠ "reset" → Placed entry := by
  simp only [clauseEdits, List.forall_mem_cons]
  refine ⟨fun _ => ⟨.target, by decide, concerns_given fun _ => rfl⟩, fun _ => ⟨.target, by decide, concerns_given fun _ => rfl⟩,
    fun _ => ⟨.name, by decide, concerns_given fun _ => rfl⟩, fun _ => ⟨.filter, by decide, concerns_restricting .and⟩,
    fun _ => ⟨.filter, by decide, concerns_restricting .or⟩, fun _ => ⟨.filter, by decide, concerns_given fun _ => rfl⟩,
    fun _ => ⟨.having, by decide, ?having⟩, fun _ => ⟨.fields, by decide, concerns_fieldList false fun _ => rfl⟩,
    fun _ => ⟨.fields, by decide, concerns_fieldList true fun _ => rfl⟩, fun _ => ⟨.fields, by decide, concerns_given fun _ => rfl⟩,
    fun _ => ⟨.fields, by decide, concerns_given fun _ => rfl⟩, fun _ => ⟨.distinct, by decide, concerns_given fun _ => rfl⟩,
    fun _ => ⟨.joins, by decide, ?join⟩, fun _ => ⟨.joins, by decide, ?subquery⟩, fun _ => ⟨.groups, by decide, concerns_groupList fun _ => rfl⟩,
    fun _ => ⟨.groupBySelected, by decide, concerns_given fun _ => rfl⟩,
    fun _ => ⟨.orders, by decide, fun arguments => Act.reads_pure (orderEntries_part arguments)⟩,
    fun _ => ⟨.orders, by decide, concerns_given fun _ => rfl⟩, fun _ => ⟨.paging, by decide, concerns_one fun _ => limitTo_part _⟩,
    fun _ => ⟨.paging, by decide, concerns_one fun _ => startAfter_part _⟩,
    fun _ => ⟨.paging, by decide, fun arguments => Act.reads_pure (limitAndOffset_part arguments)⟩,
    fun _ => ⟨.paging, by decide, concerns_given fun _ => rfl⟩, fun other => absurd rfl other, List.forall_mem_nil _⟩
  case having => exact concerns_one fun _ => (Act.reads_condition _).bind fun _ _ => Act.reads_pure rfl
  case join => exact concerns_one fun _ => (Act.reads_tableJoin _).bind fun _ _ => Act.reads_pure rfl
  case subquery => exact concerns_one fun _ => (Act.reads_queryJoin _).bind fun _ _ => Act.reads_pure rfl

private theorem writingEdits_placed : ∀ entry ∈ writingEdits, Placed entry := by
  simp only [writingEdits, List.forall_mem_cons]
  refine ⟨⟨.content, by decide, ?rows⟩, ⟨.content, by decide, concerns_columnAndValue fun _ _ => rfl⟩, ⟨.source, by decide, concerns_given fun _ => rfl⟩,
    ⟨.source, by decide, ?source⟩, ⟨.content, by decide, ?assignments⟩, ⟨.content, by decide, ?assigned⟩,
    ⟨.content, by decide, concerns_given fun _ => rfl⟩, ⟨.others, by decide, concerns_given fun _ => rfl⟩,
    ⟨.returning, by decide, concerns_fieldList false fun _ => rfl⟩, ⟨.returning, by decide, concerns_given fun _ => rfl⟩,
    ⟨.returning, by decide, concerns_fieldList true fun _ => rfl⟩, ⟨.returning, by decide, concerns_given fun _ => rfl⟩,
    ⟨.returning, by decide, concerns_given fun _ => rfl⟩, List.forall_mem_nil _⟩
  case rows => exact concerns_one fun _ => (Act.reads_build _).bind fun _ _ => Act.reads_pure rfl
  case source => exact concerns_one fun _ => (Act.reads_query _).bind fun _ _ => Act.reads_pure rfl
  case assigned => exact @concerns_columnAndValue _ (fun column value => .assignment column (.value value)) fun _ _ => rfl
  case assignments => exact concerns_one fun _ => (Act.reads_build _).bind fun _ _ => Act.reads_pure rfl

private theorem compoundEdits_placed : ∀ entry ∈ compoundEdits, Placed entry := by
  simp only [compoundEdits, List.forall_mem_cons]
  refine ⟨⟨.members, by decide, concerns_one fun _ => memberEdit_part _ _⟩, ⟨.members, by decide, ?many⟩, ⟨.members, by decide, ?typed⟩,
    ⟨.groups, by decide, concerns_groupList fun _ => rfl⟩, ⟨.groups, by decide, concerns_groupList fun _ => rfl⟩, ⟨.orders, by decide, ?order⟩,
    ⟨.orders, by decide, fun arguments => Act.reads_pure (orderEntries_part arguments)⟩, List.forall_mem_nil _⟩
  case many => exact fun _ => Act.reads_after fun _ _ => Act.reads_pure (List.forall_mem_map.mpr fun item _ => memberEntry_part item)
  case typed => exact fun _ => Act.reads_after fun _ _ => Act.reads_pure (List.forall_mem_map.mpr fun item _ => memberEdit_part item _)
  case order => exact fun arguments => Act.reads_pure (List.forall_mem_cons.mpr ⟨Act.reads_pure rfl, orderEntries_part arguments⟩)

/-- Every configuring method but `reset` concerns the part it is listed for. -/
theorem placed_of_mem {entry : Text × Method (Changes Statement.Edit)}
    (member : entry ∈ settingEdits ++ clauseEdits ++ writingEdits ++ compoundEdits) (proper : entry.1 ≠ "reset") : Placed entry := by
  simp only [List.mem_append] at member
  obtain ((setting | clause) | writing) | compound := member
  · exact settingEdits_placed entry setting
  · exact clauseEdits_placed entry clause proper
  · exact writingEdits_placed entry writing
  · exact compoundEdits_placed entry compound

end Tables

end SqlCompose.Session
