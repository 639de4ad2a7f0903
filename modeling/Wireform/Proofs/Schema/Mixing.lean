import Mathlib.Data.FinEnum
import Wireform.Proofs.Schema.Sensitivity
import Wireform.Proofs.Schema.Signature

/-! # Changes of one byte in a signature

Taking a value into a word loses nothing of the word. Before the value is added, the bits of the
word have moved up by eight places, and the sign has turned them over or left them as they are;
below them stand the top bits, without the sign. So the word can be told from what the mixing makes
of it (`Wireform.HashWord.mix_injective`), and taking in a value permutes the words
(`Wireform.HashWord.fold_bijective`). Of the value, the low byte counts and all of it
(`Wireform.HashWord.fold_eq_fold_iff`). Two sequences that differ in one byte therefore lead to
different words behind this byte, and these stay different to the end
(`Wireform.HashWord.foldAll_ne_of_one_place`).
-/

namespace Wireform

namespace HashWord

/-! ### Taking in one value -/

/-- A word shifted up by a byte and mixed with its own top bits, to which a value is added. -/
def mix (word : HashWord) : HashWord := (word <<< 8) ^^^ word.sshiftRight 55

/-- Taking in a value mixes the word and adds the low byte of the value, with its sign. -/
theorem fold_eq_mix_add (word : HashWord) (value : Int) :
    word.fold value = word.mix + (BitVec.ofInt 8 value).signExtend 64 := rfl

/-- The lowest bits of a mixed word are the top bits of the word but the sign. -/
theorem getLsbD_mix_low (word : HashWord) {index : Nat} (low : index < 8) :
    word.mix.getLsbD index = word.getLsbD (55 + index) := by
  have inside : index < 64 := by omega
  have plain : 55 + index < 64 := by omega
  rw [mix, BitVec.getLsbD_xor, BitVec.getLsbD_shiftLeft, BitVec.getLsbD_sshiftRight, if_pos plain]
  simp [inside, low]

/-- Any other bit comes from eight places below, and the sign turns it over. -/
theorem getLsbD_mix_high (word : HashWord) {index : Nat} (inside : index < 56) :
    word.mix.getLsbD (index + 8) = (word.getLsbD index ^^ word.getLsbD 63) := by
  have below : index + 8 < 64 := by omega
  have notLow : ¬ index + 8 < 8 := by omega
  have notPast : ¬ 56 ≤ index := by omega
  have sign : (if 55 + (index + 8) < 64 then word.getLsbD (55 + (index + 8)) else word.msb) =
      word.getLsbD 63 := by
    rw [BitVec.msb_eq_getLsbD_last]
    split
    · next first =>
        have place : 55 + (index + 8) = 63 := by omega
        rw [place]
    · rfl
  rw [mix, BitVec.getLsbD_xor, BitVec.getLsbD_shiftLeft, BitVec.getLsbD_sshiftRight, sign]
  simp [below, notLow, notPast]

/-- The bits below the sign are found at the bottom of a mixed word. With one of them the top bit
gives the sign, and with the sign all bits can be told. -/
theorem mix_injective : Function.Injective mix := by
  intro left right same
  have high : ∀ index < 8, left.getLsbD (55 + index) = right.getLsbD (55 + index) := by
    intro index low
    rw [← getLsbD_mix_low left low, ← getLsbD_mix_low right low, same]
  have turned : ∀ index < 56, (left.getLsbD index ^^ left.getLsbD 63) =
      (right.getLsbD index ^^ right.getLsbD 63) := by
    intro index inside
    rw [← getLsbD_mix_high left inside, ← getLsbD_mix_high right inside, same]
  have sign : left.getLsbD 63 = right.getLsbD 63 := by
    have top := turned 55 (by omega)
    rw [high 0 (by omega)] at top
    exact Bool.xor_right_inj.mp top
  apply BitVec.eq_of_getLsbD_eq
  intro index inside
  by_cases low : index < 56
  · have bit := turned index low
    rw [sign] at bit
    exact Bool.xor_left_inj.mp bit
  · have place : index = 55 + (index - 55) := by omega
    by_cases top : index = 63
    · rw [top, sign]
    · rw [place]
      exact high _ (by omega)

private theorem fold_injective (value : Int) :
    Function.Injective fun word : HashWord => word.fold value := by
  intro left right same
  simp only [fold_eq_mix_add] at same
  exact mix_injective ((BitVec.add_left_inj _).mp same)

/-- Taking in a value permutes the words. -/
theorem fold_bijective (value : Int) :
    Function.Bijective fun word : HashWord => word.fold value :=
  Finite.injective_iff_bijective.mp (fold_injective value)

private theorem signExtend_injective : Function.Injective fun byte :
    BitVec 8 => byte.signExtend 64 := by
  intro left right same
  have numbers := congrArg BitVec.toInt same
  dsimp only at numbers
  rw [BitVec.toInt_signExtend_of_le (by omega), BitVec.toInt_signExtend_of_le (by omega)] at numbers
  exact BitVec.eq_of_toInt_eq numbers

/-- A word takes in the low byte of a value and nothing else of it. -/
theorem fold_eq_fold_iff {word : HashWord} {value other : Int} :
    word.fold value = word.fold other ↔ value % 256 = other % 256 := by
  constructor
  · intro same
    have bytes := signExtend_injective ((BitVec.add_right_inj _).mp same)
    have numbers := congrArg BitVec.toNat bytes
    rw [BitVec.toNat_ofInt, BitVec.toNat_ofInt] at numbers
    omega
  · intro same
    rw [← fold_emod, same, fold_emod]

/-! ### Taking in a sequence -/

/-- Different words stay different while they take in the same values. -/
theorem foldAll_injective (values : List Int) :
    Function.Injective fun word : HashWord => word.foldAll values := by
  induction values with
  | nil => exact fun _ _ same => same
  | cons value values ih =>
      intro left right same
      exact fold_injective value (ih same)

/-- Sequences that differ in one byte alone are the same before it and behind it. -/
theorem exists_split_of_one_place {first second : List Int} (lengths : first.length = second.length)
    {place : Nat} (differ : first[place]? ≠ second[place]?)
    (alone : ∀ other, first[other]? ≠ second[other]? → other = place) :
    ∃ before value changed after, first = before ++ value :: after ∧
      second = before ++ changed :: after ∧ value ≠ changed := by
  have inside : place < first.length := by
    by_contra outside
    rw [List.getElem?_eq_none (by omega), List.getElem?_eq_none (by omega)] at differ
    exact differ rfl
  have inside' : place < second.length := lengths ▸ inside
  have elsewhere : ∀ other, other ≠ place → first[other]? = second[other]? :=
    fun other apart => by_contra fun unlike => apart (alone other unlike)
  have before : first.take place = second.take place := by
    apply List.ext_getElem?
    intro other
    rw [List.getElem?_take, List.getElem?_take]
    split
    · next earlier => exact elsewhere other (by omega)
    · rfl
  have after : first.drop (place + 1) = second.drop (place + 1) := by
    apply List.ext_getElem?
    intro other
    rw [List.getElem?_drop, List.getElem?_drop]
    exact elsewhere _ (by omega)
  refine ⟨first.take place, first[place], second[place], first.drop (place + 1), ?_, ?_, ?_⟩
  · rw [← List.drop_eq_getElem_cons inside, List.take_append_drop]
  · rw [before, after, ← List.drop_eq_getElem_cons inside', List.take_append_drop]
  · rwa [List.getElem?_eq_getElem inside, List.getElem?_eq_getElem inside', ne_eq,
      Option.some_inj] at differ

/-- **One changed byte shows.** Sequences of one length lead to different words where they differ in
exactly one byte. -/
theorem foldAll_ne_of_one_place (word : HashWord) {values others : List Int}
    (lengths : values.length = others.length)
    (once : ∃! place : Nat, (lowBytes values)[place]? ≠ (lowBytes others)[place]?) :
    word.foldAll values ≠ word.foldAll others := by
  obtain ⟨place, differ, alone⟩ := once
  have shapes : (lowBytes values).length = (lowBytes others).length := by
    rw [lowBytes, lowBytes, List.length_map, List.length_map, lengths]
  obtain ⟨before, byte, changed, after, shape, shape', apart⟩ :=
    exists_split_of_one_place shapes differ alone
  rw [← foldAll_lowBytes word values, ← foldAll_lowBytes word others, shape, shape', foldAll_append,
    foldAll_append, foldAll_cons, foldAll_cons]
  intro same
  have bytes := fold_eq_fold_iff.mp (foldAll_injective after same)
  have small : ∀ {byte : Int} {values : List Int}, byte ∈ lowBytes values → byte % 256 = byte := by
    intro byte values listed
    obtain ⟨value, -, rfl⟩ := List.mem_map.mp listed
    exact Int.emod_emod_of_dvd value (Int.dvd_refl _)
  rw [small (shape ▸ List.mem_append_right before List.mem_cons_self),
    small (shape' ▸ List.mem_append_right before List.mem_cons_self)] at bytes
  exact apart bytes

end HashWord

/-! ### Structs -/

private theorem Struct.dependencies_eq_nil {struct : Struct}
    (flat : ∀ member ∈ struct.members, member.isPrimitive = true) : struct.dependencies = [] := by
  rw [dependencies, List.filterMap_eq_nil_iff]
  intro member listed
  have primitive := flat member listed
  rw [Member.isPrimitive] at primitive
  cases typed : member.type with
  | primitive p => rfl
  | compound name =>
      rw [typed] at primitive
      cases primitive

/-- A struct has a word for its hash wherever the hash is asked for: in every schema, on every path,
and at the first request for its fingerprint. -/
structure Struct.HashesTo (struct : Struct) (word : HashWord) : Prop where
  structuralHash : ∀ (schema : Schema) path, schema.structuralHash struct path = .ok word
  fingerprint : ∀ (schema : Schema) (cache : FingerprintCache), cache.lookup struct.name = none →
    (cache.fingerprint schema struct).1 = .ok word

/-- A struct without compound members has its turned base hash everywhere. -/
theorem Struct.hashesTo_of_flat {struct : Struct}
    (flat : ∀ member ∈ struct.members, member.isPrimitive = true) :
    struct.withSignatureHash.HashesTo struct.signatureHash.rotate := by
  have childless : struct.withSignatureHash.dependencies = [] := dependencies_eq_nil flat
  have hashed : ∀ (schema : Schema) path,
      schema.structuralHash struct.withSignatureHash path = .ok struct.signatureHash.rotate := by
    intro schema path
    rw [Schema.structuralHash_eq_foldlM, childless, List.foldlM_nil]
    change Except.ok (HashWord.ofInt struct.signatureHash.toNat).rotate = _
    rw [Schema.ofInt_toNat]
  refine ⟨hashed, fun schema cache unknown => ?_⟩
  rw [FingerprintCache.fingerprint, unknown]
  dsimp only
  rw [hashed]

/-- **One changed byte always changes the hash.** Taking in a value permutes the words of 64 bits,
and two values lead to the same word exactly if they have the same low byte. So two structs whose
signatures have the same length and differ in exactly one byte have different base hashes, and
different fingerprints if none of their members is compound. -/
theorem hashes_ne_of_one_byte :
    (∀ value, Function.Bijective fun word : HashWord => word.fold value) ∧
      (∀ (word : HashWord) (value other : Int),
        word.fold value = word.fold other ↔ value % 256 = other % 256) ∧
      ∀ left right : Struct, left.signature.length = right.signature.length →
        (∃! place : Nat, (lowBytes left.signature)[place]? ≠ (lowBytes right.signature)[place]?) →
        left.signatureHash ≠ right.signatureHash ∧
          ((∀ member ∈ left.members, member.isPrimitive = true) →
            (∀ member ∈ right.members, member.isPrimitive = true) →
            ∃ word other, word ≠ other ∧ left.withSignatureHash.HashesTo word ∧
              right.withSignatureHash.HashesTo other) := by
  refine ⟨HashWord.fold_bijective, fun _ _ _ => HashWord.fold_eq_fold_iff, ?_⟩
  intro left right lengths once
  have apart : left.signatureHash ≠ right.signatureHash :=
    HashWord.foldAll_ne_of_one_place Struct.hashSeed lengths once
  refine ⟨apart, fun flat flat' => ⟨left.signatureHash.rotate, right.signatureHash.rotate, ?_, ?_⟩⟩
  · exact fun same => apart (Schema.rotate_injective same)
  · exact ⟨Struct.hashesTo_of_flat flat, Struct.hashesTo_of_flat flat'⟩

/-- Three or four coordinates: the digit of the extent is the thirteenth value of the signature. -/
theorem hashes_ne_of_one_byte_extent :
    let left : Struct := ⟨"point", [⟨"x", .primitive .double, [.constant "3"]⟩], 0⟩
    let right : Struct := ⟨"point", [⟨"x", .primitive .double, [.constant "4"]⟩], 0⟩
    left.signature.length = right.signature.length ∧
      (lowBytes left.signature)[12]? = some 51 ∧ (lowBytes right.signature)[12]? = some 52 ∧
      left.signatureHash ≠ right.signatureHash ∧
      ∃ word other, word ≠ other ∧ left.withSignatureHash.HashesTo word ∧
        right.withSignatureHash.HashesTo other := by
  intro left right
  have lengths : left.signature.length = right.signature.length := by decide +kernel
  have digit : (lowBytes left.signature)[12]? = some 51 := by decide +kernel
  have digit' : (lowBytes right.signature)[12]? = some 52 := by decide +kernel
  have elsewhere : ∀ place < 13, place ≠ 12 →
      (lowBytes left.signature)[place]? = (lowBytes right.signature)[place]? := by decide +kernel
  have once : ∃! place : Nat,
      (lowBytes left.signature)[place]? ≠ (lowBytes right.signature)[place]? := by
    refine ⟨12, by simp [digit, digit'], fun place differ => ?_⟩
    by_contra other
    by_cases inside : place < 13
    · exact differ (elsewhere place inside other)
    · have count : (lowBytes left.signature).length = 13 := by decide +kernel
      have count' : (lowBytes right.signature).length = 13 := by decide +kernel
      exact differ (by rw [List.getElem?_eq_none (by omega), List.getElem?_eq_none (by omega)])
  obtain ⟨apart, fingerprints⟩ := hashes_ne_of_one_byte.2.2 left right lengths once
  exact ⟨lengths, digit, digit', apart,
    fingerprints (List.forall_mem_singleton.mpr rfl) (List.forall_mem_singleton.mpr rfl)⟩

end Wireform
