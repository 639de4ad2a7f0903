import Mathlib.Data.List.Chain
import Mathlib.Data.List.Nodup
import Mathlib.Logic.Relation
import Wireform.Proofs.Backend.Emission

/-! # Constructors that call each other

The constructor of a class gives each member its first value. This is a new object if the member is
a struct that is held by value, and so the constructor of that struct is called. Types may refer to
each other in a circle, and nothing keeps them from doing so by value: a struct that holds itself is
accepted.

The expressions for first values are read as `Wireform.Backend.Expression`, of which the written
texts are spellings (`Wireform.Backend.defaultValue_eq`), and `Wireform.Backend.construct` runs them
with a bound on the depth of calls. A constructor ends exactly if no circle of structs by value is
reached from its struct (`Wireform.Backend.constructors_end_iff`), and then the calls are not nested
deeper than there are structs: in a deeper nest some struct comes again, and closes a circle.
-/

namespace Wireform.Backend

/-! ### Expressions for first values -/

/-- The expression for the first value of a member. -/
inductive Expression where
  | literal (text : String)
  /-- A new object of the class of a struct. -/
  | object (type : String)
  | emptyList
  /-- A list of values that are made one by one by the same expression. -/
  | repeated (element : Expression) (count : Int)
  deriving DecidableEq, Repr

namespace Expression

/-- The spelling of an expression. -/
def text : Expression → String
  | literal text => text
  | object type => flatName type ++ "()"
  | emptyList => "[]"
  | repeated element count => "[" ++ element.text ++ " for _ in range(" ++ toString count ++ ")]"

/-- An expression calls the constructor of a struct. What would stand in an empty list is not
run. -/
def Calls (type : String) : Expression → Prop
  | literal _ => False
  | object other => other = type
  | emptyList => False
  | repeated element count => 0 < count ∧ element.Calls type

end Expression

/-- The first value of a scalar. -/
def firstScalar : FieldType → Expression
  | .compound type => .object type
  | type => .literal (defaultScalar type)

/-- The first value of a member. -/
def firstValue (type : FieldType) : List Dimension → Except Numeral.Fault Expression
  | [] => return firstScalar type
  | dimension :: rest =>
      if dimension.isConstant then do
        let element ← firstValue type rest
        return .repeated element (← dimension.extent)
      else return .emptyList

private theorem text_firstScalar (type : FieldType) :
    (firstScalar type).text = defaultScalar type := by
  cases type <;> rfl

/-- **The written text of a first value is the spelling of its expression.** -/
theorem defaultValue_eq (type : FieldType) (dimensions : List Dimension) :
    defaultValue type dimensions = (firstValue type dimensions).map Expression.text := by
  induction dimensions with
  | nil => exact congrArg Except.ok (text_firstScalar type).symm
  | cons dimension rest ih =>
      unfold defaultValue firstValue
      split
      · rw [ih]
        cases firstValue type rest with
        | error fault => rfl
        | ok element =>
            cases found : dimension.extent with
            | error fault => rfl
            | ok count =>
                have written := Numeral.write_of_lt (Numeral.lt_of_read found)
                simp only [Except.map, bind, Except.bind, pure, Except.pure, written,
                  Expression.text]
      · rfl

/-- Dimensions of an array that has elements from the beginning. -/
def AreFilled (dimensions : List Dimension) : Prop :=
  ∀ dimension ∈ dimensions, dimension.isConstant = true ∧
    ∃ extent, dimension.extent = .ok extent ∧ 1 ≤ extent

private theorem calls_firstScalar {type : FieldType} {name : String} :
    (firstScalar type).Calls name ↔ type = .compound name := by
  cases type with
  | primitive p => exact iff_of_false id nofun
  | compound other => exact ⟨congrArg _, FieldType.compound.inj⟩

/-- An expression calls the constructor of the type of its member, if the member has elements from
the beginning. -/
theorem calls_firstValue {type : FieldType} {dimensions : List Dimension}
    {expression : Expression} (found : firstValue type dimensions = .ok expression)
    {name : String} :
    expression.Calls name ↔ type = .compound name ∧ AreFilled dimensions := by
  induction dimensions generalizing expression with
  | nil =>
      obtain rfl := Outcome.pure_eq_ok.mp found
      simp [calls_firstScalar, AreFilled]
  | cons dimension rest ih =>
      unfold firstValue at found
      split at found
      · next constant =>
          obtain ⟨element, inner, found⟩ := Outcome.bind_eq_ok.mp found
          obtain ⟨count, read, rfl⟩ := Outcome.returning_eq_ok.mp found
          rw [Expression.Calls, ih inner]
          simp only [AreFilled, List.forall_mem_cons, constant, read, true_and, Except.ok.injEq,
            exists_eq_left']
          constructor
          · rintro ⟨positive, same, each⟩
            exact ⟨same, positive, each⟩
          · rintro ⟨same, positive, each⟩
            exact ⟨positive, same, each⟩
      · next dynamic =>
          obtain rfl := Outcome.pure_eq_ok.mp found
          refine iff_of_false id ?_
          rintro ⟨-, each⟩
          exact dynamic (each dimension List.mem_cons_self).1

/-! ### Running constructors -/

/-- What a constructor makes. -/
inductive Value where
  | literal (text : String)
  | list (elements : List Value)
  | object (type : String) (fields : List (String × Value))

/-- The value of an expression, with a function for the constructors that it calls. The elements of
a list are made one after the other and are all alike. -/
def evaluate (call : String → Option Value) : Expression → Option Value
  | .literal text => some (.literal text)
  | .object type => call type
  | .emptyList => some (.list [])
  | .repeated element count =>
      if 0 < count then
        (evaluate call element).map fun value => .list (List.replicate count.toNat value)
      else some (.list [])

/-- The first value of a member, under its name. -/
def firstField (call : String → Option Value) (member : Member) : Option (String × Value) := do
  let expression ← (firstValue member.type member.dimensions).toOption
  return (member.name, ← evaluate call expression)

/-- What the constructor of a struct makes, unless its calls are nested deeper than a bound. -/
def construct (schema : Schema) : Nat → String → Option Value
  | 0, _ => none
  | depth + 1, type => do
      let struct ← schema.lookup? type
      return .object type (← struct.members.mapM (firstField (construct schema depth)))

/-- An expression has a value if the constructors that it calls end. -/
theorem isSome_evaluate_iff (call : String → Option Value) (expression : Expression) :
    (evaluate call expression).isSome = true ↔
      ∀ type, expression.Calls type → (call type).isSome = true := by
  induction expression with
  | literal text => simp [evaluate, Expression.Calls]
  | object type => simp [evaluate, Expression.Calls]
  | emptyList => simp [evaluate, Expression.Calls]
  | repeated element count ih =>
      by_cases positive : 0 < count
      · simp [evaluate, Expression.Calls, positive, ih]
      · simp [evaluate, Expression.Calls, positive]

private theorem isSome_mapM_iff {α β : Type} {step : α → Option β} {entries : List α} :
    (entries.mapM step).isSome = true ↔ ∀ entry ∈ entries, (step entry).isSome = true := by
  induction entries with
  | nil => simp
  | cons entry entries ih =>
      rw [List.mapM_cons, List.forall_mem_cons, ← ih]
      cases step entry with
      | none => simp
      | some value => cases entries.mapM step <;> simp

/-! ### Structs by value -/

/-- The constant extents of a schema are numerals. -/
def HasNumerals (schema : Schema) : Prop :=
  ∀ struct ∈ schema.structs, ∀ member ∈ struct.members, ∀ dimension ∈ member.dimensions,
    dimension.isConstant = true → ∃ extent, dimension.extent = .ok extent

private theorem hasNumerals_iff {schema : Schema} :
    (schema.structs.all fun struct => struct.members.all fun member =>
      member.dimensions.all fun dimension => !dimension.isConstant || dimension.extent.isOk) =
        true ↔ HasNumerals schema := by
  have ok {dimension : Dimension} :
      dimension.extent.isOk = true ↔ ∃ extent, dimension.extent = .ok extent :=
    ⟨Outcome.exists_of_isOk, fun ⟨extent, found⟩ => by rw [found]; rfl⟩
  simp only [HasNumerals, List.all_eq_true, Bool.or_eq_true, Bool.not_eq_true',
    ← Bool.not_eq_true, ok, ← imp_iff_not_or]

instance (schema : Schema) : Decidable (HasNumerals schema) :=
  decidable_of_iff _ hasNumerals_iff

/-- A struct holds another by value from the beginning: it has a member of that type that is no
array, or an array with constant extents of at least one. -/
def Holds (schema : Schema) (first second : String) : Prop :=
  ∃ struct ∈ schema.structs, struct.name = first ∧ ∃ member ∈ struct.members,
    member.type = .compound second ∧ AreFilled member.dimensions

private theorem exists_firstValue (type : FieldType) {dimensions : List Dimension}
    (numerals : ∀ dimension ∈ dimensions, dimension.isConstant = true →
      ∃ extent, dimension.extent = .ok extent) :
    ∃ expression, firstValue type dimensions = .ok expression := by
  induction dimensions with
  | nil => exact ⟨_, rfl⟩
  | cons dimension rest ih =>
      obtain ⟨here, later⟩ := List.forall_mem_cons.mp numerals
      unfold firstValue
      split
      · next constant =>
          refine Outcome.exists_bind_eq_ok (ih later) fun element => ?_
          exact Outcome.exists_bind_eq_ok (here constant) fun count => ⟨_, rfl⟩
      · exact ⟨_, rfl⟩

private theorem isSome_firstField_iff {call : String → Option Value} {member : Member}
    (numerals : ∀ dimension ∈ member.dimensions, dimension.isConstant = true →
      ∃ extent, dimension.extent = .ok extent) :
    (firstField call member).isSome = true ↔
      ∀ type, member.type = .compound type ∧ AreFilled member.dimensions →
        (call type).isSome = true := by
  obtain ⟨expression, first⟩ := exists_firstValue member.type numerals
  have value : (firstField call member).isSome = (evaluate call expression).isSome := by
    rw [firstField, first]
    change (evaluate call expression >>= fun value => some (member.name, value)).isSome = _
    cases evaluate call expression <;> rfl
  simp only [value, isSome_evaluate_iff, calls_firstValue first]

section Running

variable {schema : Schema} {struct : Struct} {depth : Nat}

/-- One step of a constructor: it ends if the constructors of what its struct holds end. -/
theorem isSome_construct_succ_iff (distinct : schema.names.Nodup) (numerals : HasNumerals schema)
    (listed : struct ∈ schema.structs) :
    (construct schema (depth + 1) struct.name).isSome = true ↔
      ∀ type, Holds schema struct.name type → (construct schema depth type).isSome = true := by
  have found : schema.lookup? struct.name = some struct :=
    find?_of_nodup Struct.name distinct listed
  have fields : (construct schema (depth + 1) struct.name).isSome =
      (struct.members.mapM (firstField (construct schema depth))).isSome := by
    rw [construct, found]
    change (struct.members.mapM (firstField (construct schema depth)) >>= fun fields =>
      some (Value.object struct.name fields)).isSome = _
    cases struct.members.mapM (firstField (construct schema depth)) <;> rfl
  rw [fields, isSome_mapM_iff]
  constructor
  · rintro each type ⟨other, otherListed, same, member, present, held⟩
    obtain rfl := List.inj_on_of_nodup_map distinct otherListed listed same
    exact (isSome_firstField_iff (numerals other listed member present)).mp (each member present)
      type held
  · intro each member present
    refine (isSome_firstField_iff (numerals struct listed member present)).mpr fun type held => ?_
    exact each type ⟨struct, listed, rfl, member, present, held⟩

private theorem Holds.mem_names (valid : schema.validate = .ok ()) {first second : String}
    (holds : Holds schema first second) : second ∈ schema.names := by
  obtain ⟨struct, listed, -, member, present, compound, -⟩ := holds
  obtain ⟨-, sound⟩ := Schema.validate_eq_ok_iff.mp valid
  obtain ⟨declared, soundMember⟩ := (sound struct listed).exists_of_mem present
  exact soundMember.type second compound

/-- A constructor that does not end within some depth begins a chain of that many structs, each
held by the one before. -/
theorem exists_chain_of_none (valid : schema.validate = .ok ()) (numerals : HasNumerals schema)
    {type : String} (known : type ∈ schema.names) (endless : construct schema depth type = none) :
    ∃ path : List String, path.length = depth ∧ path ⊆ schema.names ∧
      List.IsChain (Holds schema) (type :: path) := by
  obtain ⟨distinct, -⟩ := Schema.validate_eq_ok_iff.mp valid
  induction depth generalizing type with
  | zero => exact ⟨[], rfl, List.nil_subset _, .singleton type⟩
  | succ depth ih =>
      obtain ⟨struct, listed, rfl⟩ := List.mem_map.mp known
      have stuck : ¬∀ type, Holds schema struct.name type →
          (construct schema depth type).isSome = true := by
        rw [← isSome_construct_succ_iff distinct numerals listed, endless]
        exact Bool.false_ne_true
      push Not at stuck
      obtain ⟨next, holds, stuck⟩ := stuck
      obtain ⟨path, length, inside, chain⟩ := ih (holds.mem_names valid) (by simpa using stuck)
      exact ⟨next :: path, by rw [List.length_cons, length],
        List.cons_subset.mpr ⟨holds.mem_names valid, inside⟩, .cons_cons holds chain⟩

/-- A chain that is longer than there are structs reaches a circle. -/
theorem exists_circle_of_chain {type : String} {path : List String} (known : type ∈ schema.names)
    (inside : path ⊆ schema.names) (long : schema.structs.length ≤ path.length)
    (chain : List.IsChain (Holds schema) (type :: path)) :
    ∃ other, Relation.ReflTransGen (Holds schema) type other ∧
      Relation.TransGen (Holds schema) other other := by
  have ordered : (type :: path).Pairwise (Relation.TransGen (Holds schema)) :=
    List.isChain_iff_pairwise.mp (chain.imp fun _ _ => .single)
  have repeats : ¬(type :: path).Nodup := by
    intro distinct
    have short := (List.subperm_of_subset distinct (List.cons_subset.mpr ⟨known, inside⟩)).length_le
    rw [Schema.names, List.length_map, List.length_cons] at short
    omega
  rw [List.nodup_iff_sublist] at repeats
  push Not at repeats
  obtain ⟨other, twice⟩ := repeats
  have circle : Relation.TransGen (Holds schema) other other := by
    simpa using ordered.sublist twice
  refine ⟨other, ?_, circle⟩
  rcases List.mem_cons.mp (twice.subset List.mem_cons_self) with rfl | later
  · exact .refl
  · exact ((List.pairwise_cons.mp ordered).1 other later).to_reflTransGen

/-- What a constructor calls, at one remove or more, ends before it. -/
theorem exists_less_of_transGen (distinct : schema.names.Nodup) (numerals : HasNumerals schema)
    {first second : String} (path : Relation.TransGen (Holds schema) first second)
    (ends : (construct schema depth first).isSome = true) :
    ∃ less < depth, (construct schema less second).isSome = true := by
  have step {depth : Nat} {first second : String} (holds : Holds schema first second)
      (ends : (construct schema depth first).isSome = true) :
      ∃ less < depth, (construct schema less second).isSome = true := by
    obtain ⟨struct, listed, rfl, -⟩ := id holds
    cases depth with
    | zero => cases ends
    | succ depth =>
        exact ⟨depth, Nat.lt_succ_self depth,
          (isSome_construct_succ_iff distinct numerals listed).mp ends second holds⟩
  induction path with
  | single holds => exact step holds ends
  | tail _ holds ih =>
      obtain ⟨less, below, reached⟩ := ih
      obtain ⟨least, lower, found⟩ := step holds reached
      exact ⟨least, by omega, found⟩

/-- A constructor on a circle does not end. -/
theorem construct_of_circle (distinct : schema.names.Nodup) (numerals : HasNumerals schema)
    {type : String} (circle : Relation.TransGen (Holds schema) type type) (depth : Nat) :
    construct schema depth type = none := by
  induction depth using Nat.strongRecOn with
  | ind depth ih =>
      rw [← Option.not_isSome_iff_eq_none]
      intro ends
      obtain ⟨less, below, again⟩ := exists_less_of_transGen distinct numerals circle ends
      rw [ih less below] at again
      cases again

/-- A circle of structs by value is reached from a struct. -/
def ReachesCircle (schema : Schema) (type : String) : Prop :=
  ∃ other, Relation.ReflTransGen (Holds schema) type other ∧
    Relation.TransGen (Holds schema) other other

private theorem construct_of_reachesCircle (distinct : schema.names.Nodup)
    (numerals : HasNumerals schema)
    {type : String} (reaches : ReachesCircle schema type) (depth : Nat) :
    construct schema depth type = none := by
  obtain ⟨other, path, circle⟩ := reaches
  rcases Relation.reflTransGen_iff_eq_or_transGen.mp path with rfl | path
  · exact construct_of_circle distinct numerals circle depth
  · rw [← Option.not_isSome_iff_eq_none]
    intro ends
    obtain ⟨less, -, reached⟩ := exists_less_of_transGen distinct numerals path ends
    rw [construct_of_circle distinct numerals circle less] at reached
    cases reached

private theorem isSome_construct_of_not_reachesCircle (valid : schema.validate = .ok ())
    (numerals : HasNumerals schema) {type : String} (known : type ∈ schema.names)
    (free : ¬ReachesCircle schema type) :
    (construct schema schema.structs.length type).isSome = true := by
  rw [Option.isSome_iff_ne_none]
  intro endless
  obtain ⟨path, length, inside, chain⟩ := exists_chain_of_none valid numerals known endless
  exact free (exists_circle_of_chain known inside length.ge chain)

/-! ### Written constructors -/

/-- The constructor of a struct is written with expressions that call the constructors of what the
struct holds, and no others. -/
def CallsWhatItHolds (schema : Schema) (struct : Struct) : Prop :=
  ∃ expressions,
    (struct.members.mapM fun member => firstValue member.type member.dimensions) =
      .ok expressions ∧
    initMethod struct = .ok (block "def __init__(self):"
      (List.zipWith (fun member expression =>
        plain ("self." ++ member.name ++ " = " ++ expression.text)) struct.members expressions) ++
      [Line.blank]) ∧
    ∀ type, (∃ expression ∈ expressions, expression.Calls type) ↔ Holds schema struct.name type

private theorem mapM_assignment {members : List Member} {expressions : List Expression}
    (found : (members.mapM fun member => firstValue member.type member.dimensions) =
      .ok expressions) :
    (members.mapM fun member => do
      return plain ("self." ++ member.name ++ " = "
        ++ (← defaultValue member.type member.dimensions))) =
      .ok (List.zipWith (fun member expression =>
        plain ("self." ++ member.name ++ " = " ++ expression.text)) members expressions) := by
  induction members generalizing expressions with
  | nil =>
      obtain rfl := Outcome.mapM_nil_eq_ok.mp found
      rfl
  | cons member members ih =>
      obtain ⟨first, rest, head, tail, rfl⟩ := Outcome.mapM_cons_eq_ok.mp found
      refine Outcome.mapM_cons_eq_ok.mpr ⟨_, _, ?_, ih tail, rfl⟩
      rw [defaultValue_eq, head]
      rfl

private theorem callsWhatItHolds (distinct : schema.names.Nodup) (numerals : HasNumerals schema)
    (listed : struct ∈ schema.structs) : CallsWhatItHolds schema struct := by
  obtain ⟨expressions, found⟩ : ∃ expressions,
      (struct.members.mapM fun member => firstValue member.type member.dimensions) =
        .ok expressions :=
    Outcome.exists_mapM_eq_ok fun member present =>
      exists_firstValue member.type (numerals struct listed member present)
  refine ⟨expressions, found, ?_, fun type => ?_⟩
  · exact Outcome.bind_eq_ok.mpr ⟨_, mapM_assignment found, rfl⟩
  · constructor
    · rintro ⟨expression, present, calls⟩
      obtain ⟨member, among, first⟩ := Outcome.exists_of_mem_mapM found present
      exact ⟨struct, listed, rfl, member, among, (calls_firstValue first).mp calls⟩
    · rintro ⟨other, otherListed, same, member, among, held⟩
      obtain rfl := List.inj_on_of_nodup_map distinct otherListed listed same
      obtain ⟨expression, present, first⟩ := Outcome.mem_of_mapM found among
      exact ⟨expression, present, (calls_firstValue first).mpr held⟩

/-- **A constructor ends exactly if no circle of structs by value is reached.** The constructors of
a schema are written, and each calls those of the structs that it holds. Where a circle is reached
no depth of calls is enough, and elsewhere there are no more nested calls than structs. So all
constructors end exactly if there is no circle. -/
theorem constructors_end_iff {texts : List String} (read : Schema.ofTexts texts = .ok schema)
    (numerals : HasNumerals schema) :
    (∀ struct ∈ schema.structs, CallsWhatItHolds schema struct ∧
      (ReachesCircle schema struct.name →
        ∀ depth, construct schema depth struct.name = none) ∧
      (¬ReachesCircle schema struct.name →
        (construct schema schema.structs.length struct.name).isSome = true)) ∧
    ((∀ struct ∈ schema.structs, ∃ depth, (construct schema depth struct.name).isSome = true) ↔
      ∀ type, ¬Relation.TransGen (Holds schema) type type) := by
  obtain ⟨-, valid⟩ := Schema.ofTexts_eq_ok_iff.mp read
  obtain ⟨distinct, -⟩ := Schema.validate_eq_ok_iff.mp valid
  refine ⟨fun struct listed => ⟨callsWhatItHolds distinct numerals listed,
    construct_of_reachesCircle distinct numerals,
    isSome_construct_of_not_reachesCircle valid numerals (List.mem_map_of_mem listed)⟩, ?_⟩
  constructor
  · intro all type circle
    obtain ⟨struct, listed, rfl⟩ : ∃ struct ∈ schema.structs, struct.name = type := by
      obtain ⟨_, ⟨struct, listed, same, -⟩, -⟩ := Relation.TransGen.head'_iff.mp circle
      exact ⟨struct, listed, same⟩
    obtain ⟨depth, ends⟩ := all struct listed
    rw [construct_of_circle distinct numerals circle depth] at ends
    cases ends
  · intro free struct listed
    exact ⟨schema.structs.length, isSome_construct_of_not_reachesCircle valid numerals
      (List.mem_map_of_mem listed) fun ⟨other, _, circle⟩ => free other circle⟩

/-- A tree holds its leaves by value, and other trees only in lists that are empty at first. -/
theorem constructors_end_iff_tree :
    let schema : Schema := ⟨[
      Struct.withSignatureHash ⟨"tree", [⟨"n", .primitive .int32, []⟩,
        ⟨"children", .compound "tree", [.dynamic "n"]⟩,
        ⟨"spare", .compound "tree", [.constant "2", .constant "0"]⟩,
        ⟨"leaves", .compound "leaf", [.constant "2"]⟩], 0⟩,
      Struct.withSignatureHash ⟨"leaf", [⟨"x", .primitive .double, []⟩], 0⟩]⟩
    Schema.ofTexts [
        "struct tree \x7b int32_t n; tree children[n]; tree spare[2][0]; leaf leaves[2]; \x7d",
        "struct leaf \x7b double x; \x7d"] = .ok schema ∧
      HasNumerals schema ∧ CallsWhatItHolds schema (schema.structs.head (by decide)) ∧
      ∀ type, ¬Relation.TransGen (Holds schema) type type := by
  intro schema
  have read : Schema.ofTexts [
      "struct tree \x7b int32_t n; tree children[n]; tree spare[2][0]; leaf leaves[2]; \x7d",
      "struct leaf \x7b double x; \x7d"] = .ok schema := by decide +kernel
  have numerals : HasNumerals schema := by decide +kernel
  have ends : ∀ struct ∈ schema.structs, (construct schema 2 struct.name).isSome = true := by
    decide +kernel
  obtain ⟨each, all⟩ := constructors_end_iff read numerals
  exact ⟨read, numerals, (each _ (List.head_mem _)).1,
    all.mp fun struct listed => ⟨2, ends struct listed⟩⟩

/-- A struct that holds itself is accepted, and its constructor does not end. -/
theorem endless_of_self_holding :
    let schema : Schema :=
      ⟨[Struct.withSignatureHash ⟨"node", [⟨"next", .compound "node", []⟩], 0⟩]⟩
    Schema.ofTexts ["struct node \x7b node next; \x7d"] = .ok schema ∧ HasNumerals schema ∧
      Relation.TransGen (Holds schema) "node" "node" ∧
      ∀ depth, construct schema depth "node" = none := by
  intro schema
  have numerals : HasNumerals schema := by decide +kernel
  have circle : Relation.TransGen (Holds schema) "node" "node" :=
    .single ⟨_, List.mem_cons_self, rfl, _, List.mem_cons_self, rfl,
      fun _ impossible => nomatch impossible⟩
  exact ⟨by decide +kernel, numerals, circle,
    construct_of_circle (by decide +kernel) numerals circle⟩

end Running

end Wireform.Backend
