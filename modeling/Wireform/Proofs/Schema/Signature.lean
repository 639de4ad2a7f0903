import Mathlib.Data.List.Forall2
import Wireform.Schema.BaseHash

/-! # Signatures read back from their bytes

A base hash takes in the low byte of each value of a signature
(`Wireform.Struct.signatureHash_eq_foldAll_lowBytes`). Where lengths and counts fit into a byte
these are the values themselves, and they can be read in one way only. A text says its length first
(`Wireform.textValues_append_inj`), and so does a list of dimensions, so each part of a signature
ends where it says. Only the type name has no mark of its own, since the names of compound types are
left out: after the member's name there stands either a type name or a number of dimensions. They
are told apart by what follows, the first letter of the type name or the mode of the first dimension
(`Wireform.Member.signature_append_inj`).
-/

namespace Wireform

open HashWord (textValues)

/-! ### Bytes of values -/

/-- The low byte of each value. -/
def lowBytes (values : List Int) : List Int := values.map (· % 256)

/-- A word takes in no more of a value than its low byte. -/
theorem HashWord.fold_emod (word : HashWord) (value : Int) :
    word.fold (value % 256) = word.fold value := by
  have sameByte : BitVec.ofInt 8 (value % 256) = BitVec.ofInt 8 value := by
    apply BitVec.eq_of_toNat_eq
    rw [BitVec.toNat_ofInt, BitVec.toNat_ofInt]
    exact congrArg Int.toNat (Int.emod_emod_of_dvd value (Int.dvd_refl _))
  rw [fold, sameByte, fold]

/-- So it is for a list of values. -/
theorem HashWord.foldAll_lowBytes (word : HashWord) (values : List Int) :
    word.foldAll (lowBytes values) = word.foldAll values := by
  induction values generalizing word with
  | nil => rfl
  | cons value values ih =>
      rw [lowBytes, List.map_cons, foldAll_cons, foldAll_cons, fold_emod]
      exact ih (word.fold value)

/-- The base hash is a hash of the bytes of a signature. -/
theorem Struct.signatureHash_eq_foldAll_lowBytes (struct : Struct) :
    struct.signatureHash = HashWord.foldAll hashSeed (lowBytes struct.signature) :=
  (HashWord.foldAll_lowBytes hashSeed struct.signature).symm

private theorem lowBytes_eq_self {values : List Int}
    (small : ∀ value ∈ values, 0 ≤ value ∧ value < 256) :
    lowBytes values = values := by
  have each : ∀ value ∈ values, value % 256 = id value :=
    fun value member => Int.emod_eq_of_lt (small value member).1 (small value member).2
  rw [lowBytes, List.map_congr_left each, List.map_id]

/-! ### Texts -/

private theorem toList_loop_eq_append (bytes : ByteArray) (index : Nat) (read : List UInt8) :
    ByteArray.toList.loop bytes index read = read.reverse ++ bytes.data.toList.drop index := by
  fun_induction ByteArray.toList.loop bytes index read with
  | case1 index read inside ih =>
      have bounded : index < bytes.data.toList.length := by simpa using inside
      rw [ih, List.drop_eq_getElem_cons bounded]
      simp [ByteArray.get!, inside]
  | case2 index read outside =>
      have short : bytes.data.toList.length ≤ index := by simpa using outside
      rw [List.drop_eq_nil_of_le short, List.append_nil]

private theorem toList_eq_data_toList (bytes : ByteArray) : bytes.toList = bytes.data.toList := by
  rw [ByteArray.toList, toList_loop_eq_append]
  rfl

private theorem length_toUTF8_toList (text : String) :
    text.toUTF8.toList.length = text.utf8ByteSize := by
  rw [toList_eq_data_toList]
  rfl

private theorem toUTF8_toList_injective : Function.Injective fun text :
    String => text.toUTF8.toList := by
  intro left right same
  dsimp only at same
  rw [toList_eq_data_toList, toList_eq_data_toList] at same
  exact String.toByteArray_inj.mp (ByteArray.ext (Array.toList_inj.mp same))

/-- **A text says how long it is.** Two texts that begin the same values are the same. -/
theorem textValues_append_inj {left right : String} {rest others : List Int}
    (same : textValues left ++ rest = textValues right ++ others) :
    left = right ∧ rest = others := by
  obtain ⟨lengths, values⟩ := List.cons.inj same
  have equalLengths : left.toUTF8.toList.length = right.toUTF8.toList.length :=
    Int.ofNat_inj.mp lengths
  obtain ⟨bytes, rests⟩ := List.append_inj values
    (by rw [List.length_map, List.length_map, equalLengths])
  have injective : Function.Injective fun byte : UInt8 => (byte.toNat : Int) :=
    fun first second equal => UInt8.toNat_inj.mp (Int.ofNat_inj.mp equal)
  exact ⟨toUTF8_toList_injective (List.map_injective_iff.mpr injective bytes), rests⟩

private theorem small_of_mem_textValues {text : String} (short : text.utf8ByteSize < 256) :
    ∀ value ∈ textValues text, 0 ≤ value ∧ value < 256 := by
  intro value member
  rcases List.mem_cons.mp member with rfl | listed
  · have bounded := length_toUTF8_toList text
    omega
  · obtain ⟨byte, -, rfl⟩ := List.mem_map.mp listed
    have bounded := byte.toNat_lt
    omega

/-! ### Dimensions -/

private theorem Dimension.signature_append_inj {left right : Dimension} {rest others : List Int}
    (same : left.signature ++ rest = right.signature ++ others) : left = right ∧ rest = others := by
  obtain ⟨modes, texts⟩ := List.cons.inj same
  obtain ⟨sizes, rests⟩ := textValues_append_inj texts
  cases left
  cases right
  cases modes
  cases sizes
  exact ⟨rfl, rests⟩

/-- The values that some dimensions contribute: their number, and each of them. -/
def dimensionValues (dimensions : List Dimension) : List Int :=
  (dimensions.length : Int) :: dimensions.flatMap Dimension.signature

private theorem dimensionValues_append_inj {left right : List Dimension} {rest others : List Int}
    (same : dimensionValues left ++ rest = dimensionValues right ++ others) :
    left = right ∧ rest = others := by
  obtain ⟨counts, tails⟩ := List.cons.inj same
  have lengths : left.length = right.length := Int.ofNat_inj.mp counts
  have values : left.flatMap Dimension.signature ++ rest =
      right.flatMap Dimension.signature ++ others := tails
  clear same counts tails
  induction left generalizing right with
  | nil =>
      obtain rfl := List.eq_nil_of_length_eq_zero lengths.symm
      exact ⟨rfl, values⟩
  | cons first left ih =>
      obtain ⟨second, right, rfl⟩ := List.exists_of_length_succ right lengths.symm
      rw [List.flatMap_cons, List.flatMap_cons, List.append_assoc, List.append_assoc] at values
      obtain ⟨rfl, later⟩ := Dimension.signature_append_inj values
      obtain ⟨rfl, rests⟩ := ih (Nat.succ.inj lengths) later
      exact ⟨rfl, rests⟩

/-! ### Members -/

/-- A member whose dimensions are constant or dynamic, and whose texts and number of dimensions fit
into a byte. -/
structure Member.Framed (member : Member) : Prop where
  name : member.name.utf8ByteSize < 256
  count : member.dimensions.length < 256
  mode : ∀ dimension ∈ member.dimensions, dimension.mode = 0 ∨ dimension.mode = 1
  size : ∀ dimension ∈ member.dimensions, dimension.size.utf8ByteSize < 256

instance (member : Member) : Decidable member.Framed :=
  decidable_of_iff (member.name.utf8ByteSize < 256 ∧ member.dimensions.length < 256 ∧
      (∀ dimension ∈ member.dimensions, dimension.mode = 0 ∨ dimension.mode = 1) ∧
      ∀ dimension ∈ member.dimensions, dimension.size.utf8ByteSize < 256)
    ⟨fun ⟨name, count, mode, size⟩ => ⟨name, count, mode, size⟩,
      fun framed => ⟨framed.name, framed.count, framed.mode, framed.size⟩⟩

/-- Two members of one name with the same dimensions, both of the same primitive type or both of a
compound type. -/
structure Member.SameSignature (left right : Member) : Prop where
  name : left.name = right.name
  type : (∃ primitive, left.type = .primitive primitive ∧ right.type = .primitive primitive) ∨
    ∃ type other, left.type = .compound type ∧ right.type = .compound other
  dimensions : left.dimensions = right.dimensions

private theorem Primitive.short_name (primitive : Primitive) :
    primitive.name.utf8ByteSize < 256 := by
  cases primitive <;> decide

private theorem Primitive.name_injective : Function.Injective Primitive.name := by
  intro left right same
  have found := congrArg Primitive.ofName? same
  rw [ofName?_name, ofName?_name] at found
  exact Option.some.inj found

/-- No letter of a primitive's name, and not the number of letters either, is a mode. -/
theorem Primitive.one_lt_of_mem_textValues (primitive : Primitive) :
    ∀ value ∈ textValues primitive.name, 1 < value := by
  cases primitive <;> decide +kernel

private theorem Member.signature_eq (member : Member) :
    member.signature =
      textValues member.name ++ (member.type.signature ++ dimensionValues member.dimensions) :=
  List.append_assoc _ _ _

/-- A type name is not read as the number of some dimensions. -/
theorem textValues_ne_dimensionValues {primitive : Primitive} {dimensions : List Dimension}
    (modes : ∀ dimension ∈ dimensions, dimension.mode = 0 ∨ dimension.mode = 1)
    (rest others : List Int) :
    textValues primitive.name ++ rest ≠ dimensionValues dimensions ++ others := by
  have high := primitive.one_lt_of_mem_textValues
  rw [textValues] at high ⊢
  intro same
  obtain ⟨count, values⟩ := List.cons.inj same
  have positive := high _ List.mem_cons_self
  cases letters : primitive.name.toUTF8.toList with
  | nil =>
      rw [letters, List.length_nil] at positive
      omega
  | cons letter letters =>
      cases dimensions with
      | nil =>
          rw [count, List.length_nil] at positive
          omega
      | cons dimension dimensions =>
          rw [letters] at high values
          have mode : (letter.toNat : Int) = dimension.mode := (List.cons.inj values).1
          have low := modes dimension List.mem_cons_self
          have above := high letter.toNat (List.mem_cons_of_mem _ List.mem_cons_self)
          omega

/-- **A member says where it ends.** Two members whose signatures begin the same values have the
same signature. -/
theorem Member.signature_append_inj {left right : Member} (framed : left.Framed)
    (framed' : right.Framed) {rest others : List Int}
    (same : left.signature ++ rest = right.signature ++ others) :
    left.SameSignature right ∧ rest = others := by
  rw [signature_eq, signature_eq] at same
  simp only [List.append_assoc] at same
  obtain ⟨names, values⟩ := textValues_append_inj same
  cases typed : left.type with
  | primitive primitive =>
      rw [typed] at values
      cases typed' : right.type with
      | primitive primitive' =>
          rw [typed'] at values
          obtain ⟨types, later⟩ := textValues_append_inj values
          obtain rfl := Primitive.name_injective types
          obtain ⟨dimensions, rests⟩ := dimensionValues_append_inj later
          exact ⟨⟨names, .inl ⟨primitive, typed, typed'⟩, dimensions⟩, rests⟩
      | compound type =>
          rw [typed'] at values
          exact absurd values (textValues_ne_dimensionValues framed'.mode _ _)
  | compound type =>
      rw [typed] at values
      cases typed' : right.type with
      | primitive primitive =>
          rw [typed'] at values
          exact absurd values.symm (textValues_ne_dimensionValues framed.mode _ _)
      | compound other =>
          rw [typed'] at values
          obtain ⟨dimensions, rests⟩ := dimensionValues_append_inj values
          exact ⟨⟨names, .inr ⟨type, other, typed, typed'⟩, dimensions⟩, rests⟩

private theorem Member.signature_ne_nil (member : Member) (rest : List Int) :
    member.signature ++ rest ≠ [] := by
  rw [signature_eq, textValues]
  exact List.cons_ne_nil _ _

private theorem sameSignature_of_flatMap {left right : List Member}
    (framed : ∀ member ∈ left, member.Framed)
    (framed' : ∀ member ∈ right, member.Framed)
    (same : left.flatMap Member.signature = right.flatMap Member.signature) :
    List.Forall₂ Member.SameSignature left right := by
  induction left generalizing right with
  | nil =>
      cases right with
      | nil => exact .nil
      | cons second right => exact absurd same.symm (second.signature_ne_nil _)
  | cons first left ih =>
      cases right with
      | nil => exact absurd same (first.signature_ne_nil _)
      | cons second right =>
          rw [List.flatMap_cons, List.flatMap_cons] at same
          obtain ⟨alike, later⟩ := Member.signature_append_inj
            (framed first List.mem_cons_self) (framed' second List.mem_cons_self) same
          refine .cons alike (ih ?_ ?_ later)
          · exact fun member listed => framed member (List.mem_cons_of_mem _ listed)
          · exact fun member listed => framed' member (List.mem_cons_of_mem _ listed)

/-! ### Structs -/

private theorem Member.Framed.small_of_mem_signature {member : Member} (framed : member.Framed) :
    ∀ value ∈ member.signature, 0 ≤ value ∧ value < 256 := by
  intro value listed
  rw [signature_eq, List.mem_append, List.mem_append, dimensionValues, List.mem_cons,
    List.mem_flatMap] at listed
  rcases listed with named | typed | rfl | ⟨dimension, listed, stated⟩
  · exact small_of_mem_textValues framed.name value named
  · cases type : member.type with
    | primitive primitive =>
        rw [type] at typed
        exact small_of_mem_textValues primitive.short_name value typed
    | compound name =>
        rw [type] at typed
        cases typed
  · have bounded := framed.count
    omega
  · rcases List.mem_cons.mp stated with rfl | sized
    · have modes := framed.mode dimension listed
      omega
    · exact small_of_mem_textValues (framed.size dimension listed) value sized

private theorem lowBytes_signature {struct : Struct}
    (framed : ∀ member ∈ struct.members, member.Framed) :
    lowBytes struct.signature = struct.signature := by
  apply lowBytes_eq_self
  intro value listed
  obtain ⟨member, inside, stated⟩ := List.mem_flatMap.mp listed
  exact (framed member inside).small_of_mem_signature value stated

/-- **Signatures are hashed without ambiguity.** Two structs whose texts and numbers of dimensions
fit into a byte are hashed as the same bytes only where their members have the same signatures, one
by one. So where members differ in their signatures and base hashes do not, the mixing takes two
sequences of bytes to one word. -/
theorem sameSignature_of_lowBytes {left right : Struct}
    (framed : ∀ member ∈ left.members, member.Framed)
    (framed' : ∀ member ∈ right.members, member.Framed) :
    (lowBytes left.signature = lowBytes right.signature →
      List.Forall₂ Member.SameSignature left.members right.members) ∧
    (¬ List.Forall₂ Member.SameSignature left.members right.members →
      left.signatureHash = right.signatureHash →
      lowBytes left.signature ≠ lowBytes right.signature ∧
        HashWord.foldAll Struct.hashSeed (lowBytes left.signature) =
          HashWord.foldAll Struct.hashSeed (lowBytes right.signature)) := by
  have unambiguous : lowBytes left.signature = lowBytes right.signature →
      List.Forall₂ Member.SameSignature left.members right.members := by
    intro same
    rw [lowBytes_signature framed, lowBytes_signature framed'] at same
    exact sameSignature_of_flatMap framed framed' same
  refine ⟨unambiguous, fun apart hashes => ⟨fun same => apart (unambiguous same), ?_⟩⟩
  rw [← Struct.signatureHash_eq_foldAll_lowBytes, hashes,
    Struct.signatureHash_eq_foldAll_lowBytes]

/-- A member may have as many dimensions as a type name has letters, here four. Two structs that
name other types in that place have the same bytes. -/
theorem sameSignature_of_lowBytes_block :
    let shape : List Dimension := [.dynamic "size", .constant "3", .constant "3", .constant "0x3"]
    let size : Member := ⟨"size", .primitive .int32, []⟩
    let block : Struct := ⟨"block", [size, ⟨"cells", .compound "cell", shape⟩], 0⟩
    let other : Struct := ⟨"other", [size, ⟨"cells", .compound "item", shape⟩], 7⟩
    (∀ member ∈ block.members, member.Framed) ∧ (∀ member ∈ other.members, member.Framed) ∧
      lowBytes block.signature = lowBytes other.signature ∧
      List.Forall₂ Member.SameSignature block.members other.members := by
  intro shape size block other
  have framed : ∀ member ∈ block.members, member.Framed := by decide
  have framed' : ∀ member ∈ other.members, member.Framed := by decide
  have same : lowBytes block.signature = lowBytes other.signature := rfl
  exact ⟨framed, framed', same, (sameSignature_of_lowBytes framed framed').1 same⟩

end Wireform
