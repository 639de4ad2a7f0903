import Mathlib.Data.List.Basic
import Wireform.FileTree.Access

/-! # Following the steps of a path

Where the steps of a path lead is told by one rule for each kind of step
(`Wireform.FileTree.Leads`), and all that is known of it comes from these rules. Texts and stamps do
not matter, and a tree with more entries leads wherever a tree with fewer does
(`Wireform.FileTree.Leads.of_extends`). Before a step is taken, a directory is reached
(`Wireform.FileTree.Leads.before`), with every directory on the way back to the root
(`Wireform.FileTree.IsGrounded`).
-/

namespace Wireform.FileTree

variable {tree first second : FileTree} {here place : Place} {name : String}
  {steps rest : List String} {target : Target} {bound : Nat}

/-! ### Trees with the same entries up to their contents -/

/-- An entry without its text and its stamp. -/
def Entry.shape : Entry → Entry
  | .file _ _ => .file "" .latest
  | .directory _ => .directory .latest
  | .link target => .link target

/-- A tree has the entries of another up to texts and stamps, and perhaps more. -/
def Extends (first second : FileTree) : Prop :=
  ∀ place entry, first.find? place = some entry →
    (second.find? place).map Entry.shape = some entry.shape

/-- Two trees have entries at the same places, which differ in texts and stamps only. -/
def Alike (first second : FileTree) : Prop :=
  ∀ place, (first.find? place).map Entry.shape = (second.find? place).map Entry.shape

/-- A tree is like itself. -/
theorem Alike.refl (tree : FileTree) : Alike tree tree := fun _ => rfl

/-- Likeness goes both ways. -/
theorem Alike.symm (alike : Alike first second) : Alike second first := fun place =>
  (alike place).symm

/-- Trees that are like a third are like each other. -/
theorem Alike.trans {third : FileTree} (left : Alike first second) (right : Alike second third) :
    Alike first third :=
  fun place => (left place).trans (right place)

/-- A tree has the entries of any tree that is like it. -/
theorem Alike.extends (alike : Alike first second) : Extends first second := by
  intro place entry found
  rw [← alike place, found]
  rfl

private theorem Alike.none_iff (alike : Alike first second) :
    first.find? place = none ↔ second.find? place = none := by
  rw [← Option.map_eq_none_iff (f := Entry.shape), alike place, Option.map_eq_none_iff]

private theorem directory_of_shape {found : Option Entry} {stamp : Stamp}
    (same : found.map Entry.shape = some (Entry.directory stamp).shape) :
    ∃ stamp, found = some (.directory stamp) := by
  obtain ⟨entry, rfl, shape⟩ := Option.map_eq_some_iff.mp same
  cases entry with
  | directory stamp => exact ⟨stamp, rfl⟩
  | _ => cases shape

private theorem file_of_shape {found : Option Entry} {text : String} {stamp : Stamp}
    (same : found.map Entry.shape = some (Entry.file text stamp).shape) :
    ∃ text stamp, found = some (.file text stamp) := by
  obtain ⟨entry, rfl, shape⟩ := Option.map_eq_some_iff.mp same
  cases entry with
  | file text stamp => exact ⟨text, stamp, rfl⟩
  | _ => cases shape

private theorem link_of_shape {found : Option Entry} {path : String}
    (same : found.map Entry.shape = some (Entry.link path).shape) : found = some (.link path) := by
  obtain ⟨entry, rfl, shape⟩ := Option.map_eq_some_iff.mp same
  cases entry with
  | link other =>
      cases shape
      rfl
  | _ => cases shape

/-- Directories stay directories. -/
theorem Extends.directory (more : Extends first second) {stamp : Stamp}
    (found : first.find? place = some (.directory stamp)) :
    ∃ stamp, second.find? place = some (.directory stamp) :=
  directory_of_shape (more place _ found)

/-- Files stay files. -/
theorem Extends.file (more : Extends first second) {text : String} {stamp : Stamp}
    (found : first.find? place = some (.file text stamp)) :
    ∃ text stamp, second.find? place = some (.file text stamp) :=
  file_of_shape (more place _ found)

private theorem Extends.link (more : Extends first second) {path : String}
    (found : first.find? place = some (.link path)) : second.find? place = some (.link path) :=
  link_of_shape (more place _ found)

/-! ### Where steps lead -/

/-- Steps from a directory lead to something through a number of links at most. -/
inductive Leads (tree : FileTree) : Nat → Place → List String → Target → Prop
  | here {bound : Nat} {here : Place} : Leads tree bound here [] (.found here)
  | stay {bound : Nat} {here : Place} {rest : List String} {target : Target}
      (led : Leads tree bound here rest target) : Leads tree bound here ("." :: rest) target
  | back {bound : Nat} {here : Place} {rest : List String} {target : Target}
      (led : Leads tree bound here.dropLast rest target) :
      Leads tree bound here (".." :: rest) target
  | down {bound : Nat} {here : Place} {name : String} {rest : List String} {target : Target}
      {stamp : Stamp} (notHere : name ≠ ".") (notBack : name ≠ "..")
      (short : name.utf8ByteSize ≤ nameLimit)
      (found : tree.find? (here ++ [name]) = some (.directory stamp))
      (led : Leads tree bound (here ++ [name]) rest target) :
      Leads tree bound here (name :: rest) target
  | file {bound : Nat} {here : Place} {name text : String} {stamp : Stamp}
      (notHere : name ≠ ".") (notBack : name ≠ "..") (short : name.utf8ByteSize ≤ nameLimit)
      (found : tree.find? (here ++ [name]) = some (.file text stamp)) :
      Leads tree bound here [name] (.found (here ++ [name]))
  | free {bound : Nat} {here : Place} {name : String}
      (notHere : name ≠ ".") (notBack : name ≠ "..") (short : name.utf8ByteSize ≤ nameLimit)
      (none : tree.find? (here ++ [name]) = none) :
      Leads tree bound here [name] (.free (here ++ [name]))
  | link {bound : Nat} {here : Place} {name path : String} {rest : List String} {target : Target}
      (notHere : name ≠ ".") (notBack : name ≠ "..") (short : name.utf8ByteSize ≤ nameLimit)
      (found : tree.find? (here ++ [name]) = some (.link path))
      (led : Leads tree bound (if path.toList.head? = some '/' then [] else here)
        (stepsOf path ++ rest) target) :
      Leads tree (bound + 1) here (name :: rest) target

/-- What is done at a link by a path that can go through a number of them. -/
private def onward (tree : FileTree) : Nat → Place → List String → Except FileCause Target
  | 0 => fun _ _ => .error (.other "[Errno 40] Too many levels of symbolic links")
  | bound + 1 => tree.follow bound

private theorem follow_eq_walk (tree : FileTree) (bound : Nat) :
    tree.follow bound = tree.walk (tree.onward bound) := by
  cases bound <;> rfl

private theorem leads_of_walk {onLink : Place → List String → Except FileCause Target}
    (later : ∀ here steps, onLink here steps = .ok target →
      ∃ fewer, bound = fewer + 1 ∧ Leads tree fewer here steps target)
    (led : tree.walk onLink here steps = .ok target) : Leads tree bound here steps target := by
  fun_induction walk tree onLink here steps with
  | case1 here =>
      obtain rfl := Except.ok.inj led
      exact .here
  | case2 here rest ih => exact .stay (ih led)
  | case3 here rest other ih => exact .back (ih led)
  | case4 => cases led
  | case5 here name rest notHere notBack short place stamp found ih =>
      exact .down notHere notBack (Nat.le_of_not_lt short) found (ih led)
  | case6 here name rest notHere notBack short place text stamp found last =>
      obtain rfl := Except.ok.inj led
      obtain rfl := List.isEmpty_iff.mp last
      exact .file notHere notBack (Nat.le_of_not_lt short) found
  | case7 => cases led
  | case8 here name rest notHere notBack short place path found =>
      obtain ⟨fewer, rfl, led⟩ := later _ _ led
      exact .link notHere notBack (Nat.le_of_not_lt short) found led
  | case9 here name rest notHere notBack short place none last =>
      obtain rfl := Except.ok.inj led
      obtain rfl := List.isEmpty_iff.mp last
      exact .free notHere notBack (Nat.le_of_not_lt short) none
  | case10 => cases led

/-- **Following steps is going where they lead.** -/
theorem follow_eq_ok_iff :
    tree.follow bound here steps = .ok target ↔ Leads tree bound here steps target := by
  constructor
  · intro led
    rw [follow_eq_walk] at led
    induction bound generalizing here steps with
    | zero => exact leads_of_walk (fun _ _ none => by cases none) led
    | succ bound ih =>
        refine leads_of_walk (fun here steps led => ⟨bound, rfl, ih ?_⟩) led
        rwa [← follow_eq_walk]
  · intro led
    rw [follow_eq_walk]
    induction led with
    | here => rfl
    | stay led ih =>
        rw [walk, if_pos rfl]
        exact ih
    | back led ih =>
        rw [walk, if_neg (by decide), if_pos rfl]
        exact ih
    | down notHere notBack short found led ih =>
        rw [walk, if_neg notHere, if_neg notBack, if_neg (Nat.not_lt.mpr short)]
        simpa only [found] using ih
    | file notHere notBack short found =>
        rw [walk, if_neg notHere, if_neg notBack, if_neg (Nat.not_lt.mpr short)]
        simp only [found, List.isEmpty_nil, ↓reduceIte]
    | free notHere notBack short none =>
        rw [walk, if_neg notHere, if_neg notBack, if_neg (Nat.not_lt.mpr short)]
        simp only [none, List.isEmpty_nil, ↓reduceIte]
    | link notHere notBack short found led ih =>
        rw [walk, if_neg notHere, if_neg notBack, if_neg (Nat.not_lt.mpr short)]
        rw [← follow_eq_walk] at ih
        simpa only [found, onward] using ih

/-! ### The way back -/

/-- Every directory on the way from the root to a place is there, and so is that at the place. -/
def IsGrounded (tree : FileTree) (place : Place) : Prop :=
  ∀ earlier, earlier <+: place → ∃ stamp, tree.find? earlier = some (.directory stamp)

private theorem isGrounded_root (tree : FileTree) : tree.IsGrounded [] := by
  intro earlier start
  obtain rfl := List.prefix_nil.mp start
  exact ⟨.latest, rfl⟩

private theorem IsGrounded.dropLast (grounded : tree.IsGrounded place) :
    tree.IsGrounded place.dropLast :=
  fun earlier start => grounded earlier (start.trans (List.dropLast_prefix place))

private theorem IsGrounded.concat (grounded : tree.IsGrounded place) {stamp : Stamp}
    (found : tree.find? (place ++ [name]) = some (.directory stamp)) :
    tree.IsGrounded (place ++ [name]) := by
  intro earlier start
  rcases List.prefix_concat_iff.mp start with rfl | start
  · exact ⟨stamp, found⟩
  · exact grounded earlier start

private theorem IsGrounded.ite (grounded : tree.IsGrounded place) (condition : Prop)
    [Decidable condition] : tree.IsGrounded (if condition then [] else place) := by
  split
  · exact isGrounded_root tree
  · exact grounded

/-- A place where something is, or where something can be added. -/
def Target.IsOn (tree : FileTree) : Target → Prop
  | found place => (tree.find? place).isSome
  | free place => place ≠ [] ∧ ∃ stamp, tree.find? place.dropLast = some (.directory stamp)

namespace Leads

/-- Steps lead to one thing. -/
theorem unique {other : Target} (led : Leads tree bound here steps target)
    (again : Leads tree bound here steps other) : target = other :=
  Except.ok.inj ((follow_eq_ok_iff.mpr led).symm.trans (follow_eq_ok_iff.mpr again))

/-- A tree with more entries leads to what one with fewer leads to. -/
theorem of_extends (more : Extends first second) (led : Leads first bound here steps target)
    (stillFree : ∀ place, target = .free place → second.find? place = none) :
    Leads second bound here steps target := by
  induction led with
  | here => exact .here
  | stay led ih => exact .stay (ih stillFree)
  | back led ih => exact .back (ih stillFree)
  | down notHere notBack short found led ih =>
      obtain ⟨stamp, there⟩ := more.directory found
      exact .down notHere notBack short there (ih stillFree)
  | file notHere notBack short found =>
      obtain ⟨text, stamp, there⟩ := more.file found
      exact .file notHere notBack short there
  | free notHere notBack short none => exact .free notHere notBack short (stillFree _ rfl)
  | link notHere notBack short found led ih =>
      exact .link notHere notBack short (more.link found) (ih stillFree)

/-- What is found in a tree is found in one with more entries. -/
theorem found_of_extends (more : Extends first second)
    (led : Leads first bound here steps (.found place)) :
    Leads second bound here steps (.found place) :=
  led.of_extends more nofun

/-- What a path leads to, there is or is not. -/
theorem find?_of_free (led : Leads tree bound here steps (.free place)) :
    tree.find? place = none := by
  generalize same : Target.free place = target at led
  induction led with
  | here => cases same
  | stay led ih => exact ih same
  | back led ih => exact ih same
  | down notHere notBack short found led ih => exact ih same
  | file notHere notBack short found => cases same
  | free notHere notBack short none =>
      obtain rfl := Target.free.inj same
      exact none
  | link notHere notBack short found led ih => exact ih same

/-- A file that was made where nothing was is found by the steps to there. -/
theorem found_of_free (more : Extends first second) {text : String} {stamp : Stamp}
    (there : second.find? place = some (.file text stamp))
    (led : Leads first bound here steps (.free place)) :
    Leads second bound here steps (.found place) := by
  generalize same : Target.free place = target at led
  induction led with
  | here => cases same
  | stay led ih => exact .stay (ih same)
  | back led ih => exact .back (ih same)
  | down notHere notBack short found led ih =>
      obtain ⟨stamp, found⟩ := more.directory found
      exact .down notHere notBack short found (ih same)
  | file notHere notBack short found => cases same
  | free notHere notBack short none =>
      obtain rfl := Target.free.inj same
      exact .file notHere notBack short there
  | link notHere notBack short found led ih =>
      exact .link notHere notBack short (more.link found) (ih same)

/-- Where all entries but a file are as they were, what is found was found before, or is that file.
-/
theorem found_before {node : Place} {text : String} {stamp : Stamp}
    (kept : ∀ other ≠ node,
      (second.find? other).map Entry.shape = (first.find? other).map Entry.shape)
    (there : second.find? node = some (.file text stamp)) (apart : place ≠ node)
    (led : Leads second bound here steps (.found place)) :
    Leads first bound here steps (.found place) := by
  have same {other : Place} {entry : Entry} (found : second.find? other = some entry)
      (different : other ≠ node) : (first.find? other).map Entry.shape = some entry.shape := by
    rw [← kept other different, found]
    rfl
  have between {other : Place} {entry : Entry} (found : second.find? other = some entry)
      (passed : ∀ text stamp, entry ≠ .file text stamp) :
      (first.find? other).map Entry.shape = some entry.shape := by
    refine same found ?_
    rintro rfl
    exact passed text stamp (Option.some.inj (found.symm.trans there))
  generalize whole : Target.found place = target at led
  induction led with
  | here =>
      obtain rfl := Target.found.inj whole
      exact .here
  | stay led ih => exact .stay (ih whole)
  | back led ih => exact .back (ih whole)
  | down notHere notBack short found led ih =>
      obtain ⟨stamp, before⟩ := directory_of_shape (between found nofun)
      exact .down notHere notBack short before (ih whole)
  | file notHere notBack short found =>
      obtain rfl := Target.found.inj whole
      obtain ⟨text, stamp, before⟩ := file_of_shape (same found apart)
      exact .file notHere notBack short before
  | free notHere notBack short none => cases whole
  | link notHere notBack short found led ih =>
      exact .link notHere notBack short (link_of_shape (between found nofun)) (ih whole)

/-- Where trees agree up to texts and stamps, steps lead to the same. -/
theorem of_alike (alike : Alike first second) (led : Leads first bound here steps target) :
    Leads second bound here steps target := by
  refine led.of_extends alike.extends fun place same => ?_
  subst same
  exact alike.none_iff.mp led.find?_of_free

private theorem isSome_or_free {later : List String}
    (led : Leads tree bound here (name :: later) target) (notHere : name ≠ ".")
    (notBack : name ≠ "..") :
    (tree.find? (here ++ [name])).isSome ∨ later = [] ∧ target = .free (here ++ [name]) := by
  cases led with
  | stay led => exact absurd rfl notHere
  | back led => exact absurd rfl notBack
  | down _ _ short found led => exact .inl (Option.isSome_of_eq_some found)
  | file _ _ short found => exact .inl (Option.isSome_of_eq_some found)
  | link _ _ short found led => exact .inl (Option.isSome_of_eq_some found)
  | free _ _ short none => exact .inr ⟨rfl, rfl⟩

/-- Before a step is taken, a directory is reached. A step down leads to an entry, or it is the last
one. -/
theorem before {earlier later : List String}
    (led : Leads tree bound here (earlier ++ name :: later) target) :
    ∃ reached, Leads tree bound here (earlier ++ ["."]) (.found reached) ∧
      (tree.IsGrounded here → tree.IsGrounded reached) ∧
      (name ≠ "." → name ≠ ".." → (tree.find? (reached ++ [name])).isSome ∨
        later = [] ∧ target = .free (reached ++ [name])) := by
  -- a link gives new steps and takes from the bound, every other step is one of the earlier ones
  induction bound using Nat.strongRecOn generalizing here earlier with
  | _ bound fewer =>
  induction earlier generalizing here with
  | nil => exact ⟨here, .stay .here, id, led.isSome_or_free⟩
  | cons step earlier ih =>
      generalize more : earlier ++ name :: later = steps at led
      rw [List.cons_append, more] at led
      cases led with
      | stay led =>
          obtain ⟨reached, onTheWay, grounded, taken⟩ := ih (more ▸ led)
          exact ⟨reached, .stay onTheWay, grounded, taken⟩
      | back led =>
          obtain ⟨reached, onTheWay, grounded, taken⟩ := ih (more ▸ led)
          exact ⟨reached, .back onTheWay, fun ground => grounded ground.dropLast, taken⟩
      | down notHere notBack short found led =>
          obtain ⟨reached, onTheWay, grounded, taken⟩ := ih (more ▸ led)
          exact ⟨reached, .down notHere notBack short found onTheWay,
            fun ground => grounded (ground.concat found), taken⟩
      | file => simp at more
      | free => simp at more
      | link notHere notBack short found led =>
          subst more
          rw [← List.append_assoc] at led
          obtain ⟨reached, onTheWay, grounded, taken⟩ := fewer _ (Nat.lt_succ_self _) led
          rw [List.append_assoc] at onTheWay
          exact ⟨reached, .link notHere notBack short found onTheWay,
            fun ground => grounded (ground.ite _), taken⟩

/-- A directory that is reached is reached without a last step that stays. -/
theorem of_dot (led : Leads tree bound here (steps ++ ["."]) (.found place)) :
    Leads tree bound here steps (.found place) := by
  induction bound using Nat.strongRecOn generalizing here steps with
  | _ bound fewer =>
  induction steps generalizing here with
  | nil =>
      generalize dot : "." = name at led
      cases led with
      | stay led => exact led
      | back led => exact absurd dot (by decide)
      | down notHere | file notHere | link notHere => exact absurd dot.symm notHere
  | cons step steps ih =>
      generalize more : steps ++ ["."] = whole at led
      rw [List.cons_append, more] at led
      cases led with
      | stay led => exact .stay (ih (more ▸ led))
      | back led => exact .back (ih (more ▸ led))
      | down notHere notBack short found led =>
          exact .down notHere notBack short found (ih (more ▸ led))
      | file => simp at more
      | link notHere notBack short found led =>
          subst more
          rw [← List.append_assoc] at led
          exact .link notHere notBack short found (fewer _ (Nat.lt_succ_self _) led)

private theorem isOn_of_isGrounded (grounded : tree.IsGrounded here)
    (led : Leads tree bound here steps target) : target.IsOn tree := by
  induction led with
  | @here bound here =>
      obtain ⟨stamp, found⟩ := grounded here List.prefix_rfl
      exact Option.isSome_of_eq_some found
  | stay led ih => exact ih grounded
  | back led ih => exact ih grounded.dropLast
  | down notHere notBack short found led ih => exact ih (grounded.concat found)
  | file notHere notBack short found => exact Option.isSome_of_eq_some found
  | @free bound here name notHere notBack short none =>
      refine ⟨List.concat_ne_nil name here, ?_⟩
      rw [List.dropLast_concat]
      exact grounded here List.prefix_rfl
  | link notHere notBack short found led ih => exact ih (grounded.ite _)

/-- A path leads to something, or to a place where something can be added. -/
theorem isOn (led : Leads tree bound [] steps target) : target.IsOn tree :=
  led.isOn_of_isGrounded (isGrounded_root tree)

/-- Where the last step stays, there is a directory. -/
theorem directory_of_dot (led : Leads tree bound [] (steps ++ ["."]) (.found place)) :
    ∃ stamp, tree.find? place = some (.directory stamp) := by
  obtain ⟨reached, again, grounded, -⟩ := led.before
  obtain rfl := Target.found.inj (led.unique again)
  exact grounded (isGrounded_root tree) place List.prefix_rfl

end Leads

/-! ### Faults -/

private theorem walk_ne_nullCharacter {onLink : Place → List String → Except FileCause Target}
    (later : ∀ here steps, onLink here steps ≠ .error .nullCharacter) :
    tree.walk onLink here steps ≠ .error .nullCharacter := by
  fun_induction walk tree onLink here steps with
  | case2 here rest ih => exact ih
  | case3 here rest other ih => exact ih
  | case5 here name rest notHere notBack short place stamp found ih => exact ih
  | case8 => exact later _ _
  | _ => exact nofun

/-- The steps of a path are texts without an end. -/
theorem follow_ne_nullCharacter : tree.follow bound here steps ≠ .error .nullCharacter := by
  induction bound generalizing here steps with
  | zero => exact walk_ne_nullCharacter nofun
  | succ bound ih => exact walk_ne_nullCharacter fun _ _ => ih

end Wireform.FileTree
