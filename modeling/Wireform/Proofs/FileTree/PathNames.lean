import Mathlib.Data.List.Basic
import Wireform.FileTree.Access
import Wireform.Proofs.FileSystem.View

/-! # The names of a path

A path is split at its slashes, and nothing between two of them is no name. So the names of a name
in a directory are those of the directory and that name (`Wireform.FileTree.stepsOf_join`), and so
are those of a path that is taken apart at its last name (`Wireform.FileTree.stepsOf_parent`).
-/

namespace Wireform

open Text (Raw RawChar)

/-! ### Raw texts that are texts -/

namespace Text.Raw

variable {raw first second : Raw} {text : String}

/-- A raw text is the string that it is made of. -/
theorem text?_eq_some_iff : raw.text? = some text ↔ raw = ofString text := by
  constructor
  · intro spelt
    obtain ⟨chars, all, rfl⟩ := Option.map_eq_some_iff.mp spelt
    rw [ofString, String.toList_ofList]
    clear spelt
    induction raw generalizing chars with
    | nil =>
        obtain rfl := Option.some.inj all
        rfl
    | cons c raw ih =>
        cases c with
        | byte low => cases all
        | char c =>
            rw [List.mapM_cons] at all
            change ((raw.mapM RawChar.char?).bind fun rest => some (c :: rest)) = some chars at all
            obtain ⟨rest, found, same⟩ := Option.bind_eq_some_iff.mp all
            obtain rfl := Option.some.inj same
            rw [List.map_cons, ih rest found]
  · rintro rfl
    exact text?_ofString text

/-- The parts of a text are texts. -/
theorem text?_append_eq_some (spelt : text? (first ++ second) = some text) :
    ∃ before after, first.text? = some before ∧ second.text? = some after ∧
      text = before ++ after := by
  have whole : first ++ second = text.toList.map .char := text?_eq_some_iff.mp spelt
  obtain ⟨before, after, parts, rfl, rfl⟩ := List.append_eq_map_iff.mp whole
  refine ⟨String.ofList before, String.ofList after, ?_, ?_, ?_⟩
  · rw [text?_eq_some_iff, ofString, String.toList_ofList]
  · rw [text?_eq_some_iff, ofString, String.toList_ofList]
  · rw [← String.ofList_append, ← parts, String.ofList_toList]

end Text.Raw

/-! ### Paths taken apart -/

namespace Path

/-- A path is its parent, slashes and its last part, in which there is none. Where something is left
of the parent there are slashes between, or the parent is made of them. -/
theorem parentAndName_eq {path parent name : Raw} (apart : parentAndName path = (parent, name)) :
    slash ∉ name ∧ ∃ gap, (∀ c ∈ gap, c = slash) ∧ path = parent ++ gap ++ name ∧
      (gap = [] → ∀ c ∈ parent, c = slash) := by
  have whole : path = (path.reverse.dropWhile (· ≠ slash)).reverse ++
      (path.reverse.takeWhile (· ≠ slash)).reverse := by
    rw [← List.reverse_append, List.takeWhile_append_dropWhile, List.reverse_reverse]
  have unbroken : slash ∉ (path.reverse.takeWhile (· ≠ slash)).reverse := fun member => by
    simpa using List.all_eq_true.mp List.all_takeWhile _ (List.mem_reverse.mp member)
  have start : ∀ c ∈ (path.reverse.dropWhile (· ≠ slash)).head?, c = slash := fun c first => by
    have head := List.head?_dropWhile_not (· ≠ slash) path.reverse
    rw [Option.mem_def.mp first] at head
    simpa using head
  unfold parentAndName at apart
  simp only at apart
  generalize path.reverse.dropWhile (· ≠ slash) = before at apart whole start
  generalize (path.reverse.takeWhile (· ≠ slash)).reverse = last at apart whole unbroken
  split at apart
  · next slashes =>
      obtain ⟨rfl, rfl⟩ := Prod.mk.inj apart
      have all : ∀ c ∈ before, c = slash := by simpa using slashes
      have turned : before.reverse = before := by
        rw [List.eq_replicate_of_mem all, List.reverse_replicate]
      exact ⟨unbroken, [], nofun, by rw [whole, turned, List.append_nil], fun _ => all⟩
  · next others =>
      obtain ⟨rfl, rfl⟩ := Prod.mk.inj apart
      refine ⟨unbroken, (before.takeWhile (· = slash)).reverse, fun c member => ?_, ?_, ?_⟩
      · simpa using List.all_eq_true.mp List.all_takeWhile _ (List.mem_reverse.mp member)
      · rw [whole, ← List.reverse_append, List.takeWhile_append_dropWhile]
      · intro none
        cases before with
        | nil => exact absurd rfl others
        | cons c before =>
            obtain rfl := start c rfl
            simp at none

end Path

namespace FileTree

variable {directory path : Raw} {name text : String}

/-! ### Names between slashes -/

private theorem namesOf_append_slash (before after : List Char) :
    namesOf (String.ofList (before ++ '/' :: after)) =
      namesOf (String.ofList before) ++ namesOf (String.ofList after) := by
  simp only [namesOf, String.toList_ofList]
  rw [List.splitOn, List.splitOnP_append_cons _ _ (by decide), List.filter_append, List.map_append]
  rfl

private theorem namesOf_slashes {gap : List Char} (slashes : ∀ c ∈ gap, c = '/')
    (after : List Char) : namesOf (String.ofList (gap ++ after)) =
      namesOf (String.ofList after) := by
  induction gap with
  | nil => rfl
  | cons c gap ih =>
      obtain ⟨rfl, later⟩ := List.forall_mem_cons.mp slashes
      rw [← ih later]
      exact namesOf_append_slash [] (gap ++ after)

private theorem namesOf_append_slashes {gap : List Char} (slashes : ∀ c ∈ gap, c = '/')
    (some : gap ≠ []) (before after : List Char) :
    namesOf (String.ofList (before ++ gap ++ after)) =
      namesOf (String.ofList before) ++ namesOf (String.ofList after) := by
  cases gap with
  | nil => exact absurd rfl some
  | cons c gap =>
      obtain ⟨rfl, later⟩ := List.forall_mem_cons.mp slashes
      rw [List.append_assoc, List.cons_append, namesOf_append_slash, namesOf_slashes later]

/-- A text without a slash is a name. -/
private theorem namesOf_name {cs : List Char} (unbroken : '/' ∉ cs) (nonempty : cs ≠ []) :
    namesOf (String.ofList cs) = [String.ofList cs] := by
  have whole : cs.splitOn '/' = [cs] :=
    List.splitOnP_eq_singleton fun c member => by
      simpa using fun same : c = '/' => unbroken (same ▸ member)
  rw [namesOf, String.toList_ofList, whole]
  simp [nonempty]

/-- The names of a path are those before its last name, which stands after slashes or at the start,
and that name. -/
private theorem namesOf_last {gap : List Char} (before last : List Char)
    (slashes : ∀ c ∈ gap, c = '/')
    (apart : gap = [] → before = [] ∨ before.getLast? = some '/') (unbroken : '/' ∉ last)
    (nonempty : last ≠ []) :
    namesOf (String.ofList (before ++ gap ++ last)) =
      namesOf (String.ofList before) ++ [String.ofList last] := by
  by_cases none : gap = []
  · subst none
    rcases apart rfl with rfl | ended
    · exact namesOf_name unbroken nonempty
    · obtain ⟨start, rfl⟩ := List.getLast?_eq_some_iff.mp ended
      have left := namesOf_append_slash start []
      rw [show namesOf (String.ofList []) = [] from rfl, List.append_nil] at left
      rw [List.append_nil, List.append_assoc, List.singleton_append, namesOf_append_slash,
        namesOf_name unbroken nonempty, left]
  · rw [namesOf_append_slashes slashes none, namesOf_name unbroken nonempty]

/-! ### Names in a directory -/

/-- The steps to a name in a directory are those to the directory and that name. -/
theorem stepsOf_join (plain : Path.IsPlain name)
    (spelt : (Path.join directory name).text? = some text) :
    ∃ outer, directory.text? = some outer ∧ namesOf text = namesOf outer ++ [name] ∧
      stepsOf text = namesOf outer ++ [name] := by
  have nonempty : name.toList ≠ [] := fun none => plain.nonempty (String.toList_eq_nil_iff.mp none)
  suffices known : ∃ outer gap : List Char, directory = outer.map .char ∧
      text = String.ofList (outer ++ gap ++ name.toList) ∧ (∀ c ∈ gap, c = '/') ∧
      (gap = [] → outer = [] ∨ outer.getLast? = some '/') by
    obtain ⟨outer, gap, rfl, rfl, slashes, apart⟩ := known
    have names := namesOf_last outer name.toList slashes apart plain.unbroken nonempty
    rw [String.ofList_toList] at names
    have open_ : (outer ++ gap ++ name.toList).getLast? ≠ some '/' := by
      rw [List.getLast?_append_of_ne_nil _ nonempty]
      exact fun ended => plain.unbroken (List.mem_of_getLast? ended)
    refine ⟨String.ofList outer, ?_, names, ?_⟩
    · rw [Text.Raw.text?_eq_some_iff, Text.Raw.ofString, String.toList_ofList]
    · rw [stepsOf, String.toList_ofList, if_neg open_, names]
  unfold Path.join at spelt
  split at spelt
  · next ended =>
      obtain ⟨outer, after, within, last, rfl⟩ := Text.Raw.text?_append_eq_some spelt
      obtain rfl := Text.Raw.text?_eq_some_iff.mp within
      obtain rfl := Option.some.inj ((Text.Raw.text?_ofString name).symm.trans last)
      refine ⟨outer.toList, [], rfl, ?_, by simp, fun _ => ?_⟩
      · rw [List.append_nil, String.ofList_append, String.ofList_toList, String.ofList_toList]
      · simpa [Text.Raw.ofString, Path.slash, List.getLast?_map] using ended
  · obtain ⟨outer, after, within, last, rfl⟩ := Text.Raw.text?_append_eq_some spelt
    obtain rfl := Text.Raw.text?_eq_some_iff.mp within
    have ending : (Text.Raw.ofString (String.ofList ('/' :: name.toList))).text? = some after := by
      rw [Text.Raw.ofString, String.toList_ofList]
      exact last
    obtain rfl := Option.some.inj ((Text.Raw.text?_ofString _).symm.trans ending)
    refine ⟨outer.toList, ['/'], rfl, ?_, by simp, by simp⟩
    rw [List.append_assoc, String.ofList_append, String.ofList_toList, List.singleton_append]

/-- A path is no worse by itself than one that goes on from it. -/
private theorem pathFault?_of_append {before after : String} (nonempty : before ≠ "")
    (sound : pathFault? (before ++ after) = none) : pathFault? before = none := by
  unfold pathFault? at sound ⊢
  split at sound
  · cases sound
  · next unended =>
      split at sound
      · cases sound
      · next short =>
          rw [String.utf8ByteSize_append] at short
          have shorter : ¬pathLimit < before.utf8ByteSize := by omega
          have still : ¬before.toList.contains (Char.ofNat 0) := by
            simp only [String.toList_append, List.contains_append, Bool.or_eq_true,
              not_or] at unended
            exact unended.1
          rw [if_neg still, if_neg shorter, if_neg]
          simpa using nonempty

/-- The steps of a path that is taken apart at its last name. -/
theorem stepsOf_parent {parent last : Raw} (spelt : path.text? = some text)
    (apart : Path.parentAndLastName path = (parent, last)) (inner : parent ≠ [])
    (named : last ≠ []) :
    ∃ outer name later, parent.text? = some outer ∧ stepsOf text = namesOf outer ++ name :: later ∧
      (pathFault? text = none → pathFault? outer = none) := by
  obtain ⟨gap, after, slashes, ended, unbroken, ends, rfl⟩ : ∃ gap after : Raw,
      (∀ c ∈ gap, c = Path.slash) ∧ (∀ c ∈ after, c = Path.slash) ∧ Path.slash ∉ last ∧
      (gap = [] → ∀ c ∈ parent, c = Path.slash) ∧ path = parent ++ gap ++ last ++ after := by
    unfold Path.parentAndLastName at apart
    split at apart
    · next outer whole =>
        obtain ⟨-, after, ended, rfl, -⟩ := Path.parentAndName_eq whole
        obtain ⟨unbroken, gap, slashes, rfl, ends⟩ := Path.parentAndName_eq apart
        exact ⟨gap, after, slashes, ended, unbroken, ends, by rw [List.append_nil]⟩
    · obtain ⟨unbroken, gap, slashes, rfl, ends⟩ := Path.parentAndName_eq apart
      exact ⟨gap, [], slashes, nofun, unbroken, ends, by rw [List.append_nil]⟩
  obtain ⟨_, behind, toName, last, rfl⟩ := Text.Raw.text?_append_eq_some spelt
  obtain rfl := Text.Raw.text?_eq_some_iff.mp last
  obtain ⟨_, name, toGap, last, rfl⟩ := Text.Raw.text?_append_eq_some toName
  obtain rfl := Text.Raw.text?_eq_some_iff.mp last
  obtain ⟨outer, between, first, last, rfl⟩ := Text.Raw.text?_append_eq_some toGap
  obtain rfl := Text.Raw.text?_eq_some_iff.mp last
  obtain rfl := Text.Raw.text?_eq_some_iff.mp first
  have chars {words : String} (all : ∀ c ∈ Text.Raw.ofString words, c = Path.slash) :
      ∀ c ∈ words.toList, c = '/' := fun c member =>
    RawChar.char.inj (all (.char c) (List.mem_map_of_mem member))
  have names : namesOf (outer ++ between ++ name) = namesOf outer ++ [name] := by
    have known := namesOf_last outer.toList name.toList (chars slashes)
      (fun none => .inr ?_) (fun member => unbroken (List.mem_map_of_mem member))
      (fun none => named (by rw [Text.Raw.ofString, none]; rfl))
    · simpa only [← String.toList_append, String.ofList_toList] using known
    · have all := chars (ends (by rw [Text.Raw.ofString, none]; rfl))
      cases last : outer.toList.getLast? with
      | none =>
          rw [List.getLast?_eq_none_iff] at last
          exact absurd (by rw [Text.Raw.ofString, last]; rfl) inner
      | some c => rw [all c (List.mem_of_getLast? last)]
  have whole : namesOf (outer ++ between ++ name ++ behind) = namesOf outer ++ [name] := by
    by_cases none : behind.toList = []
    · rw [String.toList_eq_nil_iff.mp none, String.append_empty, names]
    · have known := namesOf_append_slashes (chars ended) none (outer ++ between ++ name).toList []
      simp only [List.append_nil, ← String.toList_append, String.ofList_toList] at known
      rw [known, names, show namesOf (String.ofList []) = [] from rfl, List.append_nil]
  have nonempty : outer ≠ "" := fun none => inner (by rw [none]; rfl)
  refine ⟨outer, name, if (outer ++ between ++ name ++ behind).toList.getLast? = some '/' then ["."]
    else [], Text.Raw.text?_ofString outer, ?_, fun sound => ?_⟩
  · rw [stepsOf, whole]
    split <;> simp
  · rw [String.append_assoc, String.append_assoc] at sound
    exact pathFault?_of_append nonempty sound

end FileTree

end Wireform
