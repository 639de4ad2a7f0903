import Wireform.CommandLine
import Wireform.Proofs.Outcome

/-! # Arguments are spelt out in the words

A command line gives the paths of a run by its words, or by what follows the equals sign in one of
them. So every character of a path stands in some word (`Wireform.CommandLine.paths_of_read`).
-/

namespace Wireform.CommandLine

open Text (Raw)

/-- Every character of a text stands in one of the words. -/
def Spelt (line : List Raw) (text : Raw) : Prop := ∀ c ∈ text, ∃ word ∈ line, c ∈ word

private theorem spelt_of_subset {line : List Raw} {word part : Raw} (member : word ∈ line)
    (within : part ⊆ word) : Spelt line part :=
  fun _ present => ⟨word, member, within present⟩

private theorem spelt_of_mem {line : List Raw} {word : Raw} (member : word ∈ line) :
    Spelt line word :=
  spelt_of_subset member (List.Subset.refl word)

/-! ### Words -/

/-- What a word gives is spelt out. -/
def Word.IsSpelt (line : List Raw) : Word → Prop
  | .operand text => Spelt line text
  | .switch kind (some value) => kind.takesValue = true → Spelt line value
  | _ => True

variable {line : List Raw} {word : Raw} {meaning : Word}

private theorem value_subset (text : Raw) {value : Raw}
    (found : (splitAtEquals text).2 = some value) : value ⊆ text := by
  unfold splitAtEquals at found
  simp only at found
  split at found
  · cases found
  · next sign rest shape =>
      obtain rfl := Option.some.inj found
      intro c member
      exact (List.dropWhile_sublist _).subset (shape ▸ List.mem_cons_of_mem sign member)

private theorem isSpelt_helpCluster (attached : Raw) : (helpCluster attached).IsSpelt line := by
  fun_induction helpCluster attached with
  | case1 => exact trivial
  | case2 => exact fun impossible => by cases impossible
  | case3 _ _ ih => exact ih
  | case4 => exact fun impossible => by cases impossible
  | case5 => exact trivial

private theorem isSpelt_dashedWord (member : word ∈ line) (read : dashedWord word = .ok meaning) :
    meaning.IsSpelt line := by
  have leftOver : (if isNegativeNumber word || word.contains (.char ' ')
      then Word.operand word else .unknown word).IsSpelt line := by
    split
    · exact spelt_of_mem member
    · exact trivial
  -- a value is what follows the equals sign, whether the switch is written in full or not
  have attached (kind : Switch) : (Word.switch kind (splitAtEquals word).2).IsSpelt line := by
    cases found : (splitAtEquals word).2 with
    | none => exact trivial
    | some value => exact fun _ => spelt_of_subset member (value_subset _ found)
  unfold dashedWord at read
  simp only at read
  split at read
  · next kind found _ =>
      obtain rfl := Except.ok.inj read
      exact found ▸ attached kind
  · split at read
    · split at read
      · exact Except.ok.inj read ▸ leftOver
      · exact Except.ok.inj read ▸ attached _
      · cases read
    · exact Except.ok.inj read ▸ isSpelt_helpCluster _
    · exact Except.ok.inj read ▸ leftOver

private theorem isSpelt_wordOf (member : word ∈ line) (read : wordOf word = .ok meaning) :
    meaning.IsSpelt line := by
  unfold wordOf at read
  split at read
  · split at read
    · obtain rfl := Except.ok.inj read
      exact trivial
    · exact isSpelt_dashedWord member read
  · obtain rfl := Except.ok.inj read
    exact spelt_of_mem member

private theorem isSpelt_of_words {part : List Raw} {meanings : List Word} (within : part ⊆ line)
    (read : words part = .ok meanings) : ∀ meaning ∈ meanings, meaning.IsSpelt line := by
  induction part generalizing meanings with
  | nil =>
      obtain rfl := Except.ok.inj read
      simp
  | cons word rest ih =>
      obtain ⟨here, later⟩ := List.cons_subset.mp within
      unfold words at read
      split at read
      · obtain rfl := Except.ok.inj read
        intro meaning member
        rcases List.mem_cons.mp member with rfl | operand
        · exact trivial
        · obtain ⟨text, present, rfl⟩ := List.mem_map.mp operand
          exact spelt_of_mem (later present)
      · obtain ⟨first, firstRead, read⟩ := Outcome.bind_eq_ok.mp read
        obtain ⟨others, othersRead, rfl⟩ := Outcome.returning_eq_ok.mp read
        intro meaning member
        rcases List.mem_cons.mp member with rfl | listed
        · exact isSpelt_wordOf here firstRead
        · exact ih later othersRead meaning listed

/-! ### What is gathered -/

/-- The paths that were gathered are spelt out. -/
structure Gathered.IsSpelt (line : List Raw) (gathered : Gathered) : Prop where
  inputs : ∀ path ∈ gathered.inputs, Spelt line path
  outdir : ∀ path, gathered.outdir = some path → Spelt line path
  config : ∀ path, gathered.config = some path → Spelt line path

/-- The paths of a run are spelt out. -/
structure IsSpeltRun (line : List Raw) (arguments : Arguments) : Prop where
  inputs : ∀ path ∈ arguments.inputs, Spelt line path
  outdir : Spelt line arguments.outdir
  config : ∀ path, arguments.config = some path → Spelt line path

variable {gathered : Gathered} {arguments : Arguments}

private theorem Gathered.IsSpelt.addOperand (spelt : gathered.IsSpelt line) {text : Raw}
    (operand : Spelt line text) : (gathered.addOperand text).IsSpelt line := by
  unfold Gathered.addOperand
  split
  · refine ⟨?_, spelt.outdir, spelt.config⟩
    intro path member
    rcases List.mem_append.mp member with earlier | last
    · exact spelt.inputs path earlier
    · exact List.mem_singleton.mp last ▸ operand
  · exact ⟨spelt.inputs, spelt.outdir, spelt.config⟩

private theorem Gathered.IsSpelt.addSeparator (spelt : gathered.IsSpelt line) :
    gathered.addSeparator.IsSpelt line := by
  unfold Gathered.addSeparator
  split
  · exact spelt
  · exact ⟨spelt.inputs, spelt.outdir, spelt.config⟩

private theorem Gathered.IsSpelt.addFlag (spelt : gathered.IsSpelt line) (switch : Switch) :
    (gathered.addFlag switch).IsSpelt line := by
  cases switch <;> exact ⟨spelt.inputs, spelt.outdir, spelt.config⟩

private theorem Gathered.IsSpelt.addValue (spelt : gathered.IsSpelt line) (switch : Switch)
    {value : Raw}
    (given : Spelt line value) : (gathered.addValue switch value).IsSpelt line := by
  cases switch with
  | outdir => exact ⟨spelt.inputs, fun _ same => Option.some.inj same ▸ given, spelt.config⟩
  | config => exact ⟨spelt.inputs, spelt.outdir, fun _ same => Option.some.inj same ▸ given⟩
  | _ => exact ⟨spelt.inputs, spelt.outdir, spelt.config⟩

private theorem Gathered.IsSpelt.request (spelt : gathered.IsSpelt line)
    (read : gathered.request = .ok (.run arguments)) : IsSpeltRun line arguments := by
  unfold Gathered.request at read
  split at read
  · cases read
  · cases read
  · cases read
  · next outdir placed _ =>
      split at read
      · obtain rfl := Request.run.inj (Except.ok.inj read)
        exact ⟨spelt.inputs, spelt.outdir _ placed, spelt.config⟩
      · cases read

/-- What is gathered from spelt out words is spelt out. -/
theorem isSpeltRun_of_gather {meanings : List Word}
    (known : ∀ meaning ∈ meanings, meaning.IsSpelt line) (spelt : gathered.IsSpelt line)
    (read : gather meanings gathered = .ok (.run arguments)) : IsSpeltRun line arguments := by
  fun_induction gather meanings gathered with
  | case1 => exact spelt.request read
  | case2 text rest gathered ih =>
      obtain ⟨operand, later⟩ := List.forall_mem_cons.mp known
      exact ih later (spelt.addOperand operand) read
  | case3 rest gathered ih =>
      exact ih (List.forall_mem_cons.mp known).2 spelt.addSeparator read
  | case4 text rest gathered ih =>
      exact ih (List.forall_mem_cons.mp known).2 ⟨spelt.inputs, spelt.outdir, spelt.config⟩ read
  | case5 kind value rest gathered takes ih =>
      obtain ⟨attached, later⟩ := List.forall_mem_cons.mp known
      exact ih later (spelt.addValue kind (attached takes)) read
  | case6 => cases read
  | case7 => cases read
  -- without an attached value, the value is the operand that follows
  | case8 kind value rest gathered _ takes ih =>
      obtain ⟨_, known⟩ := List.forall_mem_cons.mp known
      obtain ⟨operand, later⟩ := List.forall_mem_cons.mp known
      exact ih later (spelt.addValue kind operand) read
  | case9 kind value rest gathered _ takes ih =>
      exact ih (List.forall_mem_cons.mp known).2 (spelt.addFlag kind) read
  | case10 => cases read
  | case11 kind rest gathered _ _ takes ih =>
      exact ih (List.forall_mem_cons.mp known).2 (spelt.addFlag kind) read

/-- Every character of a path of a run stands in a word of its command line. -/
theorem paths_of_read (read : CommandLine.read line = .ok (.run arguments)) :
    IsSpeltRun line arguments := by
  obtain ⟨meanings, meant, gathered⟩ := Outcome.bind_eq_ok.mp read
  have known := isSpelt_of_words (List.Subset.refl line) meant
  exact isSpeltRun_of_gather known ⟨by simp, by simp, by simp⟩ gathered

end Wireform.CommandLine
