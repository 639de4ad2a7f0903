import Wireform.Proofs.FileSystem.Expected
import Wireform.Proofs.FileTree.Following
import Wireform.Proofs.FileTree.PathNames
import Wireform.Proofs.Outcome

/-! # The calls of a file tree

The calls of a file tree do what the calls of a file system do (`Wireform.FileTree.isLawful`). They
fail by faults that are reckoned with (`Wireform.FileTree.isExpected`), and whether they fail does
not depend on texts and stamps (`Wireform.FileTree.isRoomy`).

What a path leads to is known from `Wireform.FileTree.Leads`. A change sets one entry, of which the
path is known to lead to the place.
-/

namespace Wireform.FileTree

open Text (Raw)

variable {tree before after : FileTree} {path : Raw} {text : String} {place other node : Place}
  {entry : Entry} {target : Target}

/-! ### Where paths lead -/

private theorem resolve_eq_ok_iff :
    tree.resolve text = .ok target ↔
      pathFault? text = none ∧ Leads tree linkLimit [] (stepsOf text) target := by
  unfold resolve
  split
  · next cause faulty => simp [faulty]
  · next sound => simp [sound, follow_eq_ok_iff]

private theorem foundPlace_eq_ok_iff :
    tree.foundPlace text = .ok place ↔
      pathFault? text = none ∧ Leads tree linkLimit [] (stepsOf text) (.found place) := by
  rw [← resolve_eq_ok_iff, foundPlace]
  cases resolved : tree.resolve text with
  | error cause => simp
  | ok target => cases target <;> simp

private theorem filePlace_eq_ok_iff :
    tree.filePlace text = .ok place ↔ pathFault? text = none ∧
      (Leads tree linkLimit [] (stepsOf text) (.free place) ∨
        Leads tree linkLimit [] (stepsOf text) (.found place) ∧ (tree.text? place).isSome) := by
  rw [and_or_left, ← and_assoc, ← resolve_eq_ok_iff, ← resolve_eq_ok_iff, filePlace]
  cases resolved : tree.resolve text with
  | error cause => simp
  | ok target =>
      cases target with
      | free place => simp
      | found other =>
          simp only [Except.ok.injEq, Target.found.injEq, reduceCtorEq, false_or]
          split
          · next held =>
              rw [Except.ok.injEq]
              exact ⟨fun same => ⟨same, same ▸ held⟩, And.left⟩
          · next other =>
              refine iff_of_false nofun ?_
              rintro ⟨rfl, held⟩
              exact other held

/-- The place of what a path leads to. -/
def leadsTo (path : Raw) (tree : FileTree) : Option Place :=
  path.text?.bind fun text => (tree.foundPlace text).toOption

private theorem leadsTo_eq_some_iff :
    leadsTo path tree = some place ↔ ∃ text, path.text? = some text ∧ pathFault? text = none ∧
      Leads tree linkLimit [] (stepsOf text) (.found place) := by
  simp only [leadsTo, Option.bind_eq_some_iff, ← foundPlace_eq_ok_iff]
  refine exists_congr fun text => and_congr_right fun _ => ?_
  cases tree.foundPlace text <;> simp [Except.toOption]

/-- Whether there is an entry with the name at the end of a path, or the path leads somewhere. -/
def IsTaken (path : Raw) (tree : FileTree) : Prop :=
  (leadsTo path tree).isSome ∨ ∃ text here name, path.text? = some text ∧
    (namesOf text).getLast? = some name ∧
    Leads tree linkLimit [] ((namesOf text).dropLast ++ ["."]) (.found here) ∧
    (tree.find? (here ++ [name])).isSome

/-- What is seen of a file tree. -/
def view : FileSystem.View FileTree Place String where
  leadsTo := leadsTo
  IsTaken := IsTaken
  file? place tree := tree.file? place
  textOf text := String.ofList (unifyBreaks text.toList)
  holding _ text := text

private theorem pathText_eq_ok_iff : pathText path = .ok text ↔ path.text? = some text := by
  unfold pathText
  cases path.text? <;> simp

private theorem status_eq_ok_iff {status : Status} :
    system.status path tree = .ok status ↔ ∃ place entry, leadsTo path tree = some place ∧
      tree.find? place = some entry ∧ status = ⟨entry.isDirectory, entry.stamp⟩ := by
  constructor
  · intro told
    obtain ⟨text, spelt, told⟩ := Outcome.bind_eq_ok.mp told
    obtain ⟨place, led, told⟩ := Outcome.bind_eq_ok.mp told
    obtain ⟨sound, led⟩ := foundPlace_eq_ok_iff.mp led
    split at told
    · next entry found =>
        exact ⟨place, entry, leadsTo_eq_some_iff.mpr
          ⟨text, pathText_eq_ok_iff.mp spelt, sound, led⟩,
          found, (Except.ok.inj told).symm⟩
    · cases told
  · rintro ⟨place, entry, led, found, rfl⟩
    obtain ⟨text, spelt, known⟩ := leadsTo_eq_some_iff.mp led
    refine Outcome.bind_eq_ok.mpr ⟨text, pathText_eq_ok_iff.mpr spelt, ?_⟩
    refine Outcome.bind_eq_ok.mpr ⟨place, foundPlace_eq_ok_iff.mpr known, ?_⟩
    rw [found]
    rfl

private theorem isDirectory_iff :
    system.isDirectory path tree = true ↔ ∃ place stamp, leadsTo path tree = some place ∧
      tree.find? place = some (.directory stamp) := by
  unfold FileSystem.isDirectory
  cases told : system.status path tree with
  | error fault =>
      refine iff_of_false nofun ?_
      rintro ⟨place, stamp, led, found⟩
      rw [status_eq_ok_iff.mpr ⟨place, _, led, found, rfl⟩] at told
      cases told
  | ok status =>
      obtain ⟨place, entry, led, found, rfl⟩ := status_eq_ok_iff.mp told
      simp only [Except.toOption, Option.any_some, led, Option.some.injEq]
      cases entry <;> simp [Entry.isDirectory, found]

/-! ### What a change changes -/

/-- All entries but one are as they were, up to the stamps of directories. -/
structure KeepsRest (place : Place) (before after : FileTree) : Prop where
  shape : ∀ other ≠ place,
    (after.find? other).map Entry.shape = (before.find? other).map Entry.shape
  file? : ∀ other ≠ place, after.file? other = before.file? other

private theorem keepsRest_put (below : place ≠ []) : KeepsRest place tree
    (tree.put place entry) where
  shape other apart := by rw [find?_put below, if_neg apart]
  file? other apart := by rw [FileTree.file?, find?_put below, if_neg apart, FileTree.file?]

private theorem keepsRest_add (below : place ≠ []) {stamp : Stamp}
    (inside : tree.find? place.dropLast = some (.directory stamp)) :
    KeepsRest place tree (tree.add place entry) := by
  have noted (other : Place) : (tree.noteChange place.dropLast).find? other = tree.find? other ∨
      other = place.dropLast ∧
        (tree.noteChange place.dropLast).find? other = some (.directory .latest) := by
    unfold noteChange
    split
    · exact .inl rfl
    · next inner =>
        rw [find?_put inner]
        split
        · next same => exact .inr ⟨same, rfl⟩
        · exact .inl rfl
  have added (other : Place) (apart : other ≠ place) :
      (tree.add place entry).find? other = (tree.noteChange place.dropLast).find? other := by
    rw [add, find?_put below, if_neg apart]
  constructor
  · intro other apart
    rw [added other apart]
    rcases noted other with same | ⟨rfl, same⟩
    · rw [same]
    · rw [same, inside]
      rfl
  · intro other apart
    unfold FileTree.file?
    rw [added other apart]
    rcases noted other with same | ⟨rfl, same⟩
    · rw [same]
    · rw [same, inside]

private theorem KeepsRest.isSome_iff (kept : KeepsRest place before after) (apart : other ≠ place) :
    (after.find? other).isSome ↔ (before.find? other).isSome := by
  rw [← Option.isSome_map (f := Entry.shape), kept.shape other apart, Option.isSome_map]

/-- Where nothing was, an entry more is there. -/
private theorem KeepsRest.extends (kept : KeepsRest place before after)
    (free : before.find? place = none) : Extends before after := by
  intro other entry found
  rw [kept.shape other, found]
  · rfl
  · rintro rfl
    rw [free] at found
    cases found

/-- Where an entry of the same kind was, all is alike. -/
private theorem KeepsRest.alike (kept : KeepsRest place before after)
    (same : (before.find? place).map Entry.shape = (after.find? place).map Entry.shape) :
    Alike before after := by
  intro other
  by_cases apart : other = place
  · rw [apart, same]
  · exact (kept.shape other apart).symm

/-- A place where a text can be set: a file, or nothing in a directory. -/
private def Takes (tree : FileTree) (place : Place) : Prop :=
  (tree.text? place).isSome ∨ tree.find? place = none ∧ (Target.free place).IsOn tree

private theorem find?_of_text? (held : (tree.text? place).isSome) :
    ∃ text stamp, tree.find? place = some (.file text stamp) := by
  unfold text? file? at held
  split at held
  · next text stamp found => exact ⟨text, stamp, found⟩
  · cases held

private theorem Takes.putText (takes : tree.Takes place) (text : String) :
    KeepsRest place tree (tree.putText place text) ∧
      (tree.putText place text).find? place = some (.file text .latest) := by
  unfold FileTree.putText
  rcases takes with held | ⟨none, below, stamp, inside⟩
  · obtain ⟨text, stamp, found⟩ := find?_of_text? held
    have below : place ≠ [] := by
      rintro rfl
      cases found
    rw [if_pos (found ▸ rfl)]
    exact ⟨keepsRest_put below, by rw [find?_put below, if_pos rfl]⟩
  · rw [if_neg (none ▸ nofun)]
    exact ⟨keepsRest_add below inside, by rw [add, find?_put below, if_pos rfl]⟩

private theorem Takes.file? (takes : tree.Takes place) (text : String) :
    (tree.putText place text).file? place = some (text, .latest) := by
  rw [FileTree.file?, (takes.putText text).2]

private theorem alike_putText (held : (tree.text? place).isSome) (text : String) :
    Alike tree (tree.putText place text) := by
  obtain ⟨kept, put⟩ := Takes.putText (.inl held) text
  obtain ⟨_, _, found⟩ := find?_of_text? held
  refine kept.alike ?_
  rw [found, put]
  rfl

private theorem Takes.extends (takes : tree.Takes place) (text : String) :
    Extends tree (tree.putText place text) := by
  rcases takes with held | free
  · exact (alike_putText held text).extends
  · exact (Takes.putText (.inr free) text).1.extends free.1

private theorem takes_of_filePlace (opened : tree.filePlace text = .ok place) :
    tree.Takes place := by
  obtain ⟨-, led | ⟨led, held⟩⟩ := filePlace_eq_ok_iff.mp opened
  · exact .inr ⟨led.find?_of_free, led.isOn⟩
  · exact .inl held

/-! ### Paths after a change -/

private theorem leadsTo_of_extends (more : Extends before after)
    (led : leadsTo path before = some place) : leadsTo path after = some place := by
  obtain ⟨text, spelt, sound, led⟩ := leadsTo_eq_some_iff.mp led
  exact leadsTo_eq_some_iff.mpr ⟨text, spelt, sound, led.found_of_extends more⟩

/-- Where trees agree up to texts and stamps, a path leads to the same. -/
theorem leadsTo_of_alike (alike : Alike before after) :
    leadsTo path after = leadsTo path before := by
  refine Option.ext fun place => ⟨leadsTo_of_extends alike.symm.extends, ?_⟩
  exact leadsTo_of_extends alike.extends

/-- Names stay taken where nothing is removed. -/
theorem isTaken_of_extends (more : Extends before after) (taken : IsTaken path before) :
    IsTaken path after := by
  rcases taken with led | ⟨text, here, name, spelt, last, led, found⟩
  · obtain ⟨place, led⟩ := Option.isSome_iff_exists.mp led
    exact .inl (Option.isSome_of_eq_some (leadsTo_of_extends more led))
  · refine .inr ⟨text, here, name, spelt, last, led.found_of_extends more, ?_⟩
    obtain ⟨entry, found⟩ := Option.isSome_iff_exists.mp found
    obtain ⟨other, there, -⟩ := Option.map_eq_some_iff.mp (more _ _ found)
    exact Option.isSome_of_eq_some there

/-- Directories stay where nothing is removed. -/
theorem isDirectory_of_extends (more : Extends before after)
    (directory : system.isDirectory path before = true) : system.isDirectory path after = true := by
  obtain ⟨place, stamp, led, found⟩ := isDirectory_iff.mp directory
  obtain ⟨stamp, there⟩ := more.directory found
  exact isDirectory_iff.mpr ⟨place, stamp, leadsTo_of_extends more led, there⟩

/-- A name in a directory is taken where the directory is reached and has the name. -/
private theorem isTaken_join_iff {directory : Raw} {name : String} (plain : Path.IsPlain name) :
    IsTaken (Path.join directory name) tree ↔
      ∃ text outer here, (Path.join directory name).text? = some text ∧
        directory.text? = some outer ∧
        Leads tree linkLimit [] (namesOf outer ++ ["."]) (.found here) ∧
        (tree.find? (here ++ [name])).isSome := by
  constructor
  · rintro (led | ⟨text, here, last, spelt, ending, led, found⟩)
    · obtain ⟨place, led⟩ := Option.isSome_iff_exists.mp led
      obtain ⟨text, spelt, -, led⟩ := leadsTo_eq_some_iff.mp led
      obtain ⟨outer, within, -, steps⟩ := stepsOf_join plain spelt
      rw [steps] at led
      obtain ⟨here, onTheWay, -, taken⟩ := led.before
      refine ⟨text, outer, here, spelt, within, onTheWay, ?_⟩
      exact (taken plain.notHere plain.notBack).resolve_right nofun
    · obtain ⟨outer, within, names, -⟩ := stepsOf_join plain spelt
      rw [names] at ending led
      rw [List.dropLast_concat] at led
      rw [List.getLast?_concat] at ending
      obtain rfl := Option.some.inj ending
      exact ⟨text, outer, here, spelt, within, led, found⟩
  · rintro ⟨text, outer, here, spelt, within, led, found⟩
    obtain ⟨other, same, names, -⟩ := stepsOf_join plain spelt
    obtain rfl := Option.some.inj (within.symm.trans same)
    refine .inr ⟨text, here, name, spelt, ?_, ?_, found⟩
    · rw [names, List.getLast?_concat]
    · rwa [names, List.dropLast_concat]

/-- No name is taken in a directory without entries. -/
theorem not_isTaken_join {here : Place} {outer name : String}
    (led : tree.follow linkLimit [] (namesOf outer ++ ["."]) = .ok (.found here))
    (empty : ∀ name, tree.find? (here ++ [name]) = none) (plain : Path.IsPlain name) :
    ¬IsTaken (Path.join (Raw.ofString outer) name) tree := by
  intro taken
  obtain ⟨_, _, other, -, same, reached, found⟩ := (isTaken_join_iff plain).mp taken
  obtain rfl := Option.some.inj ((Text.Raw.text?_ofString outer).symm.trans same)
  obtain rfl := Target.found.inj (reached.unique (follow_eq_ok_iff.mp led))
  rw [empty] at found
  cases found

/-! ### Calls that succeed and calls that fail -/

private theorem atRaw_eq_ok_iff {α : Type} {change : String → Change α} {value : α} :
    atRaw path change before = .ok value after ↔
      ∃ text, path.text? = some text ∧ change text before = .ok value after := by
  unfold atRaw pathText
  cases path.text? <;> simp

private theorem atRaw_eq_error {α : Type} {change : String → Change α} {fault : FileFault}
    (failed : atRaw path change before = .error fault after) :
    path.text? = none ∧ fault.cause ≠ .nullCharacter ∧ after = before ∨
      ∃ text, path.text? = some text ∧ change text before = .error fault after := by
  unfold atRaw pathText at failed
  cases spelt : path.text? with
  | none =>
      rw [spelt] at failed
      obtain ⟨rfl, rfl⟩ := EStateM.Result.error.inj failed
      exact .inl ⟨rfl, nofun, rfl⟩
  | some text =>
      rw [spelt] at failed
      exact .inr ⟨text, rfl, failed⟩

private theorem openFile_eq_ok_iff :
    system.openFile path before = .ok node after ↔ ∃ text, path.text? = some text ∧
      before.filePlace text = .ok node ∧ after = before.putText node "" := by
  refine atRaw_eq_ok_iff.trans (exists_congr fun text => and_congr_right fun _ => ?_)
  unfold openFile
  cases before.filePlace text with
  | error fault => simp
  | ok place =>
      simp only [EStateM.Result.ok.injEq, Except.ok.injEq]
      constructor
      · rintro ⟨rfl, rfl⟩
        exact ⟨rfl, rfl⟩
      · rintro ⟨rfl, rfl⟩
        exact ⟨rfl, rfl⟩

private theorem directoryPlace_eq_ok (free : tree.directoryPlace text = .ok place) :
    ∃ here name, (namesOf text).getLast? = some name ∧ name ≠ "." ∧ name ≠ ".." ∧
      Leads tree linkLimit [] ((namesOf text).dropLast ++ ["."]) (.found here) ∧
      tree.find? (here ++ [name]) = none ∧ place = here ++ [name] := by
  unfold directoryPlace at free
  split at free
  · cases free
  obtain ⟨target, led, free⟩ := Outcome.bind_eq_ok.mp free
  cases target with
  | free place => cases free
  | found here =>
      dsimp only at free
      split at free
      · cases free
      · next plain =>
          split at free
          · cases free
          · split at free
            · cases free
            · next unoccupied =>
                obtain rfl := Except.ok.inj free
                simp only [Bool.or_eq_true, decide_eq_true_eq, not_or] at plain
                rw [List.getLastD_eq_getLast?] at plain unoccupied
                have named : ∃ name, (namesOf text).getLast? = some name := by
                  cases last : (namesOf text).getLast? with
                  | none => exact absurd (by rw [last]; rfl) plain.1
                  | some name => exact ⟨name, rfl⟩
                obtain ⟨name, named⟩ := named
                rw [named, Option.getD_some] at plain unoccupied
                exact ⟨here, name, named, plain.1, plain.2, follow_eq_ok_iff.mp led,
                  Option.not_isSome_iff_eq_none.mp unoccupied,
                  by rw [List.getLastD_eq_getLast?, named, Option.getD_some]⟩

private theorem makeDirectory_eq_ok (made : system.makeDirectory path before = .ok () after) :
    ∃ text place, path.text? = some text ∧ before.directoryPlace text = .ok place ∧
      after = before.add place (.directory .latest) := by
  obtain ⟨text, spelt, made⟩ := atRaw_eq_ok_iff.mp made
  unfold FileTree.makeDirectory at made
  split at made
  · cases made
  · next place free =>
      obtain ⟨-, rfl⟩ := EStateM.Result.ok.inj made
      exact ⟨text, place, spelt, free, rfl⟩

/-- A directory is made where nothing was. -/
private theorem not_isDirectory_of_directoryPlace (spelt : path.text? = some text)
    (free : tree.directoryPlace text = .ok place) : ¬system.isDirectory path tree = true := by
  intro directory
  obtain ⟨here, name, named, notHere, notBack, led, none, rfl⟩ := directoryPlace_eq_ok free
  obtain ⟨place, stamp, reached, -⟩ := isDirectory_iff.mp directory
  obtain ⟨other, same, -, steps⟩ := leadsTo_eq_some_iff.mp reached
  obtain rfl := Option.some.inj (spelt.symm.trans same)
  obtain ⟨start, names⟩ := List.getLast?_eq_some_iff.mp named
  obtain ⟨later, whole⟩ : ∃ later, stepsOf text = start ++ name :: later := by
    unfold stepsOf
    rw [names]
    split
    · exact ⟨["."], by simp⟩
    · exact ⟨[], rfl⟩
  rw [whole] at steps
  obtain ⟨again, onTheWay, -, taken⟩ := steps.before
  rw [names, List.dropLast_concat] at led
  obtain rfl := Target.found.inj (led.unique onTheWay)
  rcases taken notHere notBack with there | ⟨-, wrong⟩
  · rw [none] at there
    cases there
  · cases wrong

private theorem add_spec (entry : Entry) (free : tree.directoryPlace text = .ok place) :
    KeepsRest place tree (tree.add place entry) ∧ tree.find? place = none ∧
      (tree.add place entry).find? place = some entry := by
  obtain ⟨here, name, -, -, -, led, none, rfl⟩ := directoryPlace_eq_ok free
  obtain ⟨stamp, inside⟩ := led.directory_of_dot
  have below : here ++ [name] ≠ [] := List.concat_ne_nil name here
  exact ⟨keepsRest_add below (by rwa [List.dropLast_concat]), none,
    by rw [add, find?_put below, if_pos rfl]⟩

/-! ### The laws -/

private theorem opens_of_openFile (opened : system.openFile path before = .ok node after) :
    view.Opens system path node before after := by
  obtain ⟨text, spelt, placed, rfl⟩ := openFile_eq_ok_iff.mp opened
  have takes := takes_of_filePlace placed
  have more := takes.extends ""
  obtain ⟨kept, put⟩ := takes.putText ""
  obtain ⟨sound, led⟩ := filePlace_eq_ok_iff.mp placed
  have found : Leads (before.putText node "") linkLimit [] (stepsOf text) (.found node) :=
    led.elim (·.found_of_free more put) (·.1.found_of_extends more)
  have sameText {words : String} (same : path.text? = some words) : words = text :=
    Option.some.inj (same.symm.trans spelt)
  constructor
  · exact leadsTo_eq_some_iff.mpr ⟨text, spelt, sound, found⟩
  · exact Option.isSome_of_eq_some (takes.file? "")
  · exact kept.file?
  · exact fun _ _ => leadsTo_of_extends more
  · exact fun _ => isDirectory_of_extends more
  · intro other reached
    obtain ⟨words, same, -, reached⟩ := leadsTo_eq_some_iff.mp reached
    obtain rfl := sameText same
    rcases led with led | ⟨led, held⟩
    · cases reached.unique led
    · obtain rfl := Target.found.inj (reached.unique led)
      exact ⟨rfl, Option.isSome_map ▸ held⟩
  · intro unled
    rcases led with led | ⟨led, held⟩
    · change FileTree.file? before node = none
      rw [FileTree.file?, led.find?_of_free]
    · have reached : leadsTo path before = some node :=
        leadsTo_eq_some_iff.mpr ⟨text, spelt, sound, led⟩
      cases unled.symm.trans reached
  · intro path other reached apart
    obtain ⟨words, same, sound, reached⟩ := leadsTo_eq_some_iff.mp reached
    exact leadsTo_eq_some_iff.mpr ⟨words, same, sound, reached.found_before kept.shape put apart⟩
  · rintro directory name other rfl plain otherPlain apart known taken
    obtain ⟨words, outer, here, spelled, within, onTheWay, taken⟩ :=
      (isTaken_join_iff otherPlain).mp taken
    rcases led with led | ⟨led, held⟩
    · obtain ⟨again, same, -, steps⟩ := stepsOf_join plain spelt
      obtain rfl := Option.some.inj (within.symm.trans same)
      rw [steps] at led
      obtain ⟨reached, before, grounded, inside⟩ := led.before
      obtain rfl := Target.found.inj (onTheWay.unique (before.found_of_extends more))
      refine (isTaken_join_iff otherPlain).mpr ⟨words, outer, here, spelled, within, before, ?_⟩
      rcases inside plain.notHere plain.notBack with occupied | ⟨-, same⟩
      · have already := (isTaken_join_iff plain).mpr
          ⟨text, outer, here, spelt, within, before, occupied⟩
        obtain ⟨place, reached⟩ := Option.ne_none_iff_exists'.mp (known already)
        obtain ⟨again, same, -, reached⟩ := leadsTo_eq_some_iff.mp reached
        obtain rfl := sameText same
        rw [steps] at reached
        cases reached.unique led
      · obtain rfl := Target.free.inj same
        refine (kept.isSome_iff fun same => apart ?_).mp taken
        exact List.singleton_inj.mp (List.append_cancel_left same)
    · exact isTaken_of_extends (alike_putText held "").symm.extends
        ((isTaken_join_iff otherPlain).mpr ⟨words, outer, here, spelled, within, onTheWay, taken⟩)

private theorem rewrites_putText (held : (before.file? node).isSome) (text : String) :
    view.Rewrites system node before (before.putText node text) := by
  have held : (before.text? node).isSome := Option.isSome_map.trans held
  have takes : before.Takes node := .inl held
  have alike := alike_putText held text
  constructor
  · exact Option.isSome_of_eq_some (takes.file? text)
  · exact (takes.putText text).1.file?
  · exact fun _ => leadsTo_of_alike alike
  · exact fun _ => ⟨isTaken_of_extends alike.symm.extends, isTaken_of_extends alike.extends⟩
  · exact fun _ => isDirectory_of_extends alike.extends

private theorem isPresent_iff :
    system.isPresent path tree = true ↔ ∃ place, leadsTo path tree = some place := by
  constructor
  · intro present
    cases told : system.status path tree with
    | error fault =>
        rw [FileSystem.isPresent, told] at present
        cases present
    | ok status =>
        obtain ⟨place, -, led, -⟩ := status_eq_ok_iff.mp told
        exact ⟨place, led⟩
  · rintro ⟨place, led⟩
    obtain ⟨text, -, -, steps⟩ := leadsTo_eq_some_iff.mp led
    obtain ⟨entry, found⟩ := Option.isSome_iff_exists.mp steps.isOn
    rw [FileSystem.isPresent, status_eq_ok_iff.mpr ⟨place, entry, led, found, rfl⟩]
    rfl

/-- **The calls of a file tree do what they do in POSIX.** -/
theorem isLawful : view.IsLawful system where
  read_ok := by
    intro path tree text read
    obtain ⟨words, spelt, read⟩ := Outcome.bind_eq_ok.mp read
    obtain ⟨place, led, read⟩ := Outcome.bind_eq_ok.mp read
    have led : leadsTo path tree = some place := leadsTo_eq_some_iff.mpr
      ⟨words, pathText_eq_ok_iff.mp spelt, foundPlace_eq_ok_iff.mp led⟩
    split at read
    · next held =>
        obtain ⟨⟨_, stamp⟩, found, rfl⟩ := Option.map_eq_some_iff.mp held
        refine ⟨_, stamp, ?_, Except.ok.inj read⟩
        change (leadsTo path tree).bind (tree.file? ·) = _
        rw [led]
        exact found
    · cases read
  status_ok := by
    intro path tree node led
    obtain ⟨text, -, -, steps⟩ := leadsTo_eq_some_iff.mp led
    obtain ⟨entry, found⟩ := Option.isSome_iff_exists.mp steps.isOn
    refine ⟨_, status_eq_ok_iff.mpr ⟨node, entry, led, found, rfl⟩, ?_⟩
    intro contents stamp held
    change tree.file? node = _ at held
    rw [FileTree.file?, found] at held
    cases entry with
    | file text stamp =>
        obtain ⟨-, rfl⟩ := Prod.mk.inj (Option.some.inj held)
        rfl
    | _ => cases held
  leadsTo_of_status told := by
    obtain ⟨place, -, led, -⟩ := status_eq_ok_iff.mp told
    exact ⟨place, led⟩
  isTaken_of_leadsTo led := .inl (Option.isSome_of_eq_some led)
  openFile_ok := opens_of_openFile
  openFile_error failed := by
    rcases atRaw_eq_error failed with ⟨-, -, same⟩ | ⟨text, -, failed⟩
    · exact same
    · unfold FileTree.openFile at failed
      split at failed
      · exact (EStateM.Result.error.inj failed).2.symm
      · cases failed
  write_ok held written := by
    obtain ⟨-, rfl⟩ := EStateM.Result.ok.inj written
    refine ⟨rewrites_putText held _, .latest, ?_⟩
    exact Takes.file? (.inl (Option.isSome_map.trans held)) _
  write_error _ failed := nomatch failed
  makeDirectory_ok made := by
    obtain ⟨text, place, spelt, free, rfl⟩ := makeDirectory_eq_ok made
    obtain ⟨kept, none, put⟩ := add_spec (.directory .latest) free
    refine ⟨not_isDirectory_of_directoryPlace spelt free,
      fun _ _ => leadsTo_of_extends (kept.extends none), fun node => ?_⟩
    by_cases apart : node = place
    · subst apart
      change FileTree.file? _ node = FileTree.file? _ node
      rw [FileTree.file?, put, FileTree.file?, none]
    · exact kept.file? node apart
  makeDirectory_error failed := by
    rcases atRaw_eq_error failed with ⟨-, -, same⟩ | ⟨text, -, failed⟩
    · exact same
    · unfold FileTree.makeDirectory at failed
      split at failed
      · exact (EStateM.Result.error.inj failed).2.symm
      · cases failed
  parent directory apart inner named := by
    obtain ⟨place, stamp, led, -⟩ := isDirectory_iff.mp directory
    obtain ⟨text, spelt, sound, steps⟩ := leadsTo_eq_some_iff.mp led
    obtain ⟨outer, name, later, within, whole, sounder⟩ := stepsOf_parent spelt apart inner named
    rw [whole] at steps
    obtain ⟨here, onTheWay, -⟩ := steps.before
    refine isPresent_iff.mpr ⟨here, leadsTo_eq_some_iff.mpr ⟨outer, within, sounder sound, ?_⟩⟩
    unfold stepsOf
    split
    · exact onTheWay
    · exact onTheWay.of_dot

/-! ### Faults -/

private theorem pathFault?_ne (clean : path.IsClean) (spelt : path.text? = some text) :
    pathFault? text ≠ some .nullCharacter := by
  intro faulty
  unfold pathFault? at faulty
  split at faulty
  · next ended =>
      obtain rfl := Text.Raw.text?_eq_some_iff.mp spelt
      obtain ⟨c, unended, same⟩ := clean _ (List.mem_map_of_mem (List.contains_iff_mem.mp ended))
      exact unended (Text.RawChar.char.inj same).symm
  · split at faulty
    · cases faulty
    · split at faulty <;> cases faulty

private theorem resolve_ne (clean : path.IsClean) (spelt : path.text? = some text) :
    tree.resolve text ≠ .error .nullCharacter := by
  unfold resolve
  split
  · next cause faulty =>
      rintro ⟨⟩
      exact pathFault?_ne clean spelt faulty
  · exact follow_ne_nullCharacter

private theorem isExpected_of_cause {fault : FileFault} (other : fault.cause ≠ .nullCharacter) :
    Foreign.isExpected fault = true := decide_eq_true other

private theorem isExpected_of_pathText :
    Outcome.FailsWithin (Foreign.isExpected · = true) (pathText path) := by
  unfold pathText
  split
  · exact Outcome.failsWithin_ok _
  · exact Outcome.failsWithin_error rfl

private theorem isExpected_of_foundPlace (clean : path.IsClean) (spelt : path.text? = some text) :
    Outcome.FailsWithin (Foreign.isExpected · = true) (tree.foundPlace text) := by
  unfold foundPlace
  split
  · next cause failed =>
      exact Outcome.failsWithin_error (isExpected_of_cause fun same : cause = _ =>
        resolve_ne clean spelt (same ▸ failed))
  · exact Outcome.failsWithin_error rfl
  · exact Outcome.failsWithin_ok _

/-- A file of a file tree is read, or fails to be by a fault that is reckoned with. -/
theorem isExpected_of_read (clean : path.IsClean) :
    Outcome.FailsWithin (Foreign.isExpected · = true) (system.read path tree) := by
  refine Outcome.FailsWithin.bind isExpected_of_pathText fun text spelt => ?_
  refine (isExpected_of_foundPlace clean (pathText_eq_ok_iff.mp spelt)).bind fun place _ => ?_
  split
  · exact Outcome.failsWithin_ok _
  · exact Outcome.failsWithin_error rfl

private theorem directoryPlace_ne (clean : path.IsClean) (spelt : path.text? = some text) :
    tree.directoryPlace text ≠ .error .nullCharacter := by
  unfold directoryPlace
  split
  · next cause faulty =>
      rintro ⟨⟩
      exact pathFault?_ne clean spelt faulty
  · intro failed
    rcases Outcome.bind_eq_error.mp failed with failed | ⟨target, -, failed⟩
    · exact follow_ne_nullCharacter failed
    · cases target with
      | free place => cases failed
      | found here =>
          dsimp only at failed
          split at failed
          · cases failed
          · split at failed
            · cases failed
            · split at failed <;> cases failed

/-- **The calls of a file tree fail by faults that are reckoned with.** -/
theorem isExpected : system.IsExpected where
  status := by
    intro path clean tree fault failed
    refine (isExpected_of_pathText.bind fun text spelt => ?_ :
      Outcome.FailsWithin (Foreign.isExpected · = true) (system.status path tree)) fault failed
    refine (isExpected_of_foundPlace clean (pathText_eq_ok_iff.mp spelt)).bind fun place _ => ?_
    split
    · exact Outcome.failsWithin_ok _
    · exact Outcome.failsWithin_error rfl
  makeDirectory := by
    intro path clean tree fault after failed
    rcases atRaw_eq_error failed with ⟨-, other, -⟩ | ⟨text, spelt, failed⟩
    · exact isExpected_of_cause other
    · unfold FileTree.makeDirectory at failed
      split at failed
      · next cause faulty =>
          obtain ⟨rfl, -⟩ := EStateM.Result.error.inj failed
          exact isExpected_of_cause fun same : cause = _ =>
            directoryPlace_ne clean spelt (same ▸ faulty)
      · cases failed
  openFile := by
    intro path clean tree fault after failed
    rcases atRaw_eq_error failed with ⟨-, other, -⟩ | ⟨text, spelt, failed⟩
    · exact isExpected_of_cause other
    · unfold FileTree.openFile filePlace at failed
      cases led : tree.resolve text with
      | error cause =>
          rw [led] at failed
          obtain ⟨rfl, -⟩ := EStateM.Result.error.inj failed
          exact isExpected_of_cause fun same : cause = _ => resolve_ne clean spelt (same ▸ led)
      | ok target =>
          rw [led] at failed
          cases target with
          | free place => cases failed
          | found place =>
              dsimp only at failed
              split at failed
              · next refused =>
                  split at refused
                  · cases refused
                  · obtain ⟨rfl, -⟩ := EStateM.Result.error.inj failed
                    obtain rfl := Except.error.inj refused
                    rfl
              · cases failed
  write failed := nomatch failed

/-! ### Room -/

private theorem isSome_text?_of_alike (alike : Alike before after)
    (held : (before.text? place).isSome) : (after.text? place).isSome := by
  obtain ⟨text, stamp, found⟩ := find?_of_text? held
  obtain ⟨text, stamp, there⟩ := alike.extends.file found
  rw [text?, FileTree.file?, there]
  rfl

private theorem filePlace_of_alike (alike : Alike before after)
    (placed : before.filePlace text = .ok place) : after.filePlace text = .ok place := by
  obtain ⟨sound, led⟩ := filePlace_eq_ok_iff.mp placed
  refine filePlace_eq_ok_iff.mpr ⟨sound, led.imp (·.of_alike alike) fun led => ?_⟩
  exact ⟨led.1.of_alike alike, isSome_text?_of_alike alike led.2⟩

private theorem alike_putText_both (alike : Alike before after) (takes : before.Takes place)
    (again : after.Takes place) (text : String) :
    Alike (before.putText place text) (after.putText place text) := by
  intro other
  by_cases apart : other = place
  · rw [apart, (takes.putText text).2, (again.putText text).2]
  · rw [(takes.putText text).1.shape other apart, (again.putText text).1.shape other apart]
    exact alike other

/-- A file that was opened is there, so its text can be set. -/
private theorem Takes.opened (takes : tree.Takes place) : (tree.putText place "").Takes place := by
  refine .inl ?_
  rw [text?, takes.file? ""]
  rfl

/-- **Whether a text can be written is not decided by the texts in a file tree.** -/
theorem isRoomy : view.IsRoomy system Alike where
  refl := .refl
  leadsTo alike _ := leadsTo_of_alike alike
  both := by
    intro path node text first opened written second alike asked filled
    obtain ⟨words, spelt, placed, rfl⟩ := openFile_eq_ok_iff.mp asked
    obtain ⟨-, rfl⟩ := EStateM.Result.ok.inj filled
    have again := filePlace_of_alike alike placed
    have takes := takes_of_filePlace placed
    have takesAgain := takes_of_filePlace again
    refine ⟨_, _, openFile_eq_ok_iff.mpr ⟨words, spelt, again, rfl⟩, rfl, ?_⟩
    exact alike_putText_both (alike_putText_both alike takes takesAgain "") takes.opened
      takesAgain.opened text
  left := by
    intro path node text first opened written second alike asked filled led
    obtain ⟨words, spelt, placed, rfl⟩ := openFile_eq_ok_iff.mp asked
    obtain ⟨-, rfl⟩ := EStateM.Result.ok.inj filled
    obtain ⟨other, same, -, led⟩ := leadsTo_eq_some_iff.mp led
    obtain rfl := Option.some.inj (spelt.symm.trans same)
    have held : (first.text? node).isSome := by
      rcases (filePlace_eq_ok_iff.mp placed).2 with free | ⟨-, held⟩
      · cases (free.of_alike alike).unique led
      · exact held
    have emptied := alike_putText held ""
    exact (emptied.trans (alike_putText (isSome_text?_of_alike emptied held) text)).symm.trans alike

end Wireform.FileTree
