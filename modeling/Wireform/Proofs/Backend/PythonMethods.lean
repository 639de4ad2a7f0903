import Wireform.Proofs.Backend.PythonModules
import Wireform.Proofs.Backend.PythonNesting

/-! # Suites of generated Python methods

The methods of a generated class are suites. What stands between the fixed words of their lines
brings neither the subscript of a level nor a call that appends: the first value of a member may be
a call, but only behind the sign of an assignment (`Wireform.Backend.defaultValue_parts`), and the
entry of a type on the path of a fingerprint stands behind a blank or a parenthesis
(`Wireform.Backend.pathPair_parts`).

The constructor needs a member, or its suite would be empty. Lines that append to the list of a
level stand in the method that reads the members, which is the last
(`Wireform.Backend.suite_decodeMethods`, `Wireform.Backend.suite_decoderBody`).
-/

namespace Wireform.Backend

/-! ### Quoted texts -/

/-- What an escaped character is written with, apart from itself. -/
def isEscaped (c : Char) : Bool := c == '\\' || c.isAlphanum

private theorem mem_codePointEscape {c d : Char} (member : d ∈ Text.codePointEscape c) :
    isEscaped d = true := by
  have hex {width n : Nat} (digit : d ∈ Text.hexDigits width n) : isEscaped d = true := by
    rw [isEscaped, isAlphanum_of_mem_hexDigits digit, Bool.or_true]
  have marked {mark : Char} {width n : Nat} (escaped : isEscaped mark = true)
      (inside : d ∈ '\\' :: mark :: Text.hexDigits width n) : isEscaped d = true := by
    rcases List.mem_cons.mp inside with rfl | inside
    · rfl
    · rcases List.mem_cons.mp inside with rfl | digit
      · exact escaped
      · exact hex digit
  unfold Text.codePointEscape at member
  split at member
  · exact marked rfl member
  · split at member
    · exact marked rfl member
    · exact marked rfl member

private theorem mem_escape {mark c d : Char} (member : d ∈ Text.escape mark c) :
    d = c ∨ isEscaped d = true := by
  have letter {short : Char} (escaped : isEscaped short = true) (inside : d ∈ ['\\', short]) :
      isEscaped d = true := by
    rcases List.mem_pair.mp inside with rfl | rfl
    · rfl
    · exact escaped
  unfold Text.escape at member
  split at member
  · rcases List.mem_pair.mp member with rfl | same
    · exact .inr rfl
    · exact .inl same
  · split at member
    · exact .inr (letter rfl member)
    · split at member
      · exact .inr (letter rfl member)
      · split at member
        · exact .inr (letter rfl member)
        · split at member
          · exact .inl (List.mem_singleton.mp member)
          · exact .inr (mem_codePointEscape member)

/-- Quoting adds quotes, backslashes, letters and digits. -/
theorem mem_quote {text : String} {d : Char} (member : d ∈ (Text.quote text).toList) :
    d ∈ text.toList ∨ isEscaped d = true ∨ d = '\'' ∨ d = '"' := by
  have mark {c : Char} (same : c = Text.quoteMark text.toList) : c = '\'' ∨ c = '"' := by
    unfold Text.quoteMark at same
    split at same
    · exact .inr same
    · exact .inl same
  simp only [Text.quote, Text.quoteChars, String.toList_ofList, List.mem_cons, List.mem_append,
    List.mem_flatMap, List.not_mem_nil, or_false] at member
  rcases member with opening | ⟨c, inside, escaped⟩ | closing
  · exact .inr (.inr (mark opening))
  · rcases mem_escape escaped with rfl | added
    · exact .inl inside
    · exact .inr (.inl added)
  · exact .inr (.inr (mark closing))

/-! ### Parts of lines -/

section Texts

variable {scope : List String}

/-- Hexadecimal numerals are tame. -/
theorem Tame.hexText (width : Nat) (value : Int) : Tame scope (Text.hexText width value) :=
  .of_forall (fun _ member => isAlphanum_or_sign_of_mem_hexText member) (by decide) (by decide)

private theorem Tame.quote {text : String} (dotted : Source.Dotted text) :
    Tame scope (Text.quote text) :=
  .of_forall (fun c member => (mem_quote member).imp_left (dotted c)) (by decide) (by decide)

/-- An assignment is settled: what is assigned may start with a call. -/
theorem settled_assignment {target : String} (tame : Tame scope target) :
    callFrame.Settled IsOtherCall (target ++ " = ") :=
  tame.calls.fits.anchor ⟨(Frame.settled_ofList rfl), ⟨rfl, by decide⟩⟩

/-- The first value of a member. It closes no bracket that was open before it. -/
theorem defaultValue_parts {type : FieldType}
    (dotted : ∀ name, type = .compound name → Source.Dotted name) {dimensions : List Dimension}
    {text : String} (written : defaultValue type dimensions = .ok text) :
    subscriptFrame.Quiet (IsCounted scope) text ∧ callFrame.Fits IsOtherCall text := by
  have fixed {chars : List Char} (checked : isTame chars = true) :
      subscriptFrame.Quiet (IsCounted scope) (String.ofList chars) ∧
        callFrame.Fits IsOtherCall (String.ofList chars) :=
    have tame : Tame scope (String.ofList chars) := .ofList checked
    ⟨tame.subscripts, tame.calls.fits⟩
  induction dimensions generalizing text with
  | nil =>
      obtain rfl := Outcome.pure_eq_ok.mp written
      unfold defaultScalar
      split
      · exact fixed (by decide)
      · exact fixed (by decide)
      · exact fixed (by decide)
      · exact fixed (by decide)
      · exact fixed (by decide)
      · next name =>
          have own : Tame scope (flatName name) := .flatName (dotted name rfl)
          have undotted : callFrame.Settled IsOtherCall (flatName name) :=
            Frame.settled_of_forall fun c member => beq_eq_false_iff_ne.mpr
              fun same => not_mem_flatName_dot name (same ▸ member)
          have call : callFrame.Settled IsOtherCall "()" := Frame.settled_ofList rfl
          exact ⟨own.subscripts.append (Frame.quiet_ofList rfl), undotted.then call.fits⟩
  | cons dimension dimensions ih =>
      rcases defaultValue_cons_eq_ok written with
        ⟨inner, value, extent, innerWritten, numeral, rfl⟩ | rfl
      · obtain ⟨bound, calls⟩ := ih innerWritten
        have opening : Tame scope "[" := .ofList (by decide)
        have settled : callFrame.Settled IsOtherCall "[" := Frame.settled_ofList rfl
        have loop : Tame scope " for _ in range(" := .ofList (by decide)
        have count : Tame scope extent := .write numeral
        have closing : Tame scope ")]" := .ofList (by decide)
        constructor
        · exact opening.subscripts.append bound |>.append loop.subscripts
            |>.append count.subscripts |>.append closing.subscripts
        · exact settled.then calls |>.append loop.calls.fits loop.calls.unclosed
            |>.append count.calls.fits count.calls.unclosed
            |>.append closing.calls.fits closing.calls.unclosed
      · exact fixed (by decide)

end Texts

section Methods

variable {quiet : Bool} {scope : List String}

private theorem InMethod.opened {header : String} (opens : isMethodHeader header = true) :
    InMethod (header :: scope) :=
  ⟨[], header, scope, rfl, opens, List.forall_mem_nil _⟩

/-- A text without colons leaves a line without a suite. -/
theorem last_append_of_not_mem {first second : String} {c : Char}
    (ends : first.toList.getLast? = some c) (other : c ≠ ':') (plain : ':' ∉ second.toList) :
    ∃ c, (first ++ second).toList.getLast? = some c ∧ c ≠ ':' := by
  rw [String.toList_append, List.getLast?_append]
  cases final : second.toList.getLast? with
  | none => exact ⟨c, ends, other⟩
  | some d => exact ⟨d, rfl, fun same => plain (same ▸ List.mem_of_getLast? final)⟩

/-- Lines none of which opens a suite. -/
theorem Suite.statements {texts : List Line}
    (each : ∀ line ∈ texts, ∃ text c, line = plain text ∧ text.toList.getLast? = some c ∧
      c ≠ ':' ∧ Stands quiet scope text) : Suite quiet 0 scope texts := by
  induction texts with
  | nil => exact .nil
  | cons line texts ih =>
      obtain ⟨⟨text, c, rfl, ends, other, stands⟩, later⟩ := List.forall_mem_cons.mp each
      exact .statement ends other (fun _ => stands) (ih later)

/-! ### Values -/

private theorem last_defaultValue {type : FieldType} {dimensions : List Dimension} {text : String}
    (written : defaultValue type dimensions = .ok text) :
    ∃ c, text.toList.getLast? = some c ∧ c ≠ ':' := by
  cases dimensions with
  | nil =>
      obtain rfl := Outcome.pure_eq_ok.mp written
      unfold defaultScalar
      split
      · exact ⟨'0', rfl, by decide⟩
      · exact ⟨'0', rfl, by decide⟩
      · exact ⟨'e', rfl, by decide⟩
      · exact ⟨'"', rfl, by decide⟩
      · exact ⟨'0', rfl, by decide⟩
      · exact ⟨')', last_fixed _ rfl, by decide⟩
  | cons dimension dimensions =>
      rcases defaultValue_cons_eq_ok written with ⟨inner, value, extent, -, -, rfl⟩ | rfl
      · exact ⟨']', last_fixed _ rfl, by decide⟩
      · exact ⟨']', rfl, by decide⟩

/-- The constructor of a struct with members is a suite. -/
theorem suite_initMethod {struct : Struct} (read : struct.ReadFrom Source.Dotted)
    (some : struct.members ≠ []) {lines : List Line} (written : initMethod struct = .ok lines) :
    Suite quiet 0 scope lines := by
  obtain ⟨assignments, rfl, kept, assigned⟩ := initMethod_eq_ok written
  have each (scope : List String) : ∀ line ∈ assignments, ∃ text c, line = plain text ∧
      text.toList.getLast? = .some c ∧ c ≠ ':' ∧ Stands quiet scope text := by
    intro line present
    obtain ⟨member, listed, value, valueWritten, rfl⟩ := assigned line present
    have fields := read.members member listed
    obtain ⟨c, ends, other⟩ := last_defaultValue valueWritten
    obtain ⟨bound, calls⟩ : subscriptFrame.Quiet (IsCounted scope) value ∧ _ :=
      defaultValue_parts fields.type valueWritten
    have target : Tame scope ("self." ++ member.name) :=
      (Tame.ofList (by decide)).append (.dotted fields.name)
    have assigns : Tame scope " = " := .ofList (by decide)
    have ends := last_append ("self." ++ member.name ++ " = ") ends
    refine ⟨_, c, rfl, ends, other, ne_empty_of_last ends, ?_, fun _ => ?_⟩
    · exact (target.append assigns).subscripts.append bound |>.fits
    · exact not_hasAppend_of_fits ((settled_assignment target).then calls)
  have filled : ∃ line ∈ assignments, line.text ≠ "" := by
    obtain ⟨line, present⟩ := List.exists_mem_of_ne_nil assignments (kept some)
    obtain ⟨text, c, rfl, ends, -⟩ := each [] line present
    exact ⟨_, present, ne_empty_of_last ends⟩
  exact .append (.fixedUnder (by decide) filled (.statements (each _))) (.blank .nil)

/-- The methods that compare and show values are suites. -/
theorem suite_valueMethods {struct : Struct} (dotted : Source.Dotted struct.name) :
    Suite quiet 0 scope (valueMethods struct) := by
  have instances (scope : List String) :
      Tame scope ("if not isinstance(other, " ++ flatName struct.name ++ "):") :=
    Tame.ofList (by decide) |>.append (.flatName dotted) |>.append (.ofList (by decide))
  have compare (scope : List String) :
      Tame scope ("return all(getattr(self, s) == getattr(other, s) "
        ++ "for s in self.__slots__)") :=
    (Tame.ofList (by decide)).append (.ofList (by decide))
  have fields (scope : List String) :
      Tame scope ("fields = \", \".join(f\"\x7bs\x7d=\x7bgetattr(self, s)!r\x7d\" "
        ++ "for s in self.__slots__)") :=
    (Tame.ofList (by decide)).append (.ofList (by decide))
  refine .append (.append (.append ?_ (.blank .nil)) ?_) (.blank .nil)
  · refine .fixedUnder (by decide) (by simp [plain]) (.append (.under (last_fixed _ rfl)
      (instances _).stands (by simp [plain]) (.fixed (by decide) .nil)) ?_)
    exact .statement (last_fixed _ rfl) (by decide) (compare _).stands .nil
  · refine .fixedUnder (by decide) (by simp [plain]) ?_
    exact .statement (last_fixed _ rfl) (by decide) (fields _).stands (.fixed (by decide) .nil)

/-! ### Fingerprints -/

/-- The entry of a type on a path starts with a parenthesis. -/
theorem pathPair_parts {name : String} (dotted : Source.Dotted name) :
    subscriptFrame.Quiet (IsCounted scope) (pathPair name) ∧
      callFrame.Fits IsOtherCall (pathPair name) := by
  have opening : callFrame.Settled IsOtherCall "(" := Frame.settled_ofList rfl
  have bracket : subscriptFrame.Quiet (IsCounted scope) "(" := Frame.quiet_ofList rfl
  have size : Tame scope (toString name.length) := .toString _
  have comma : Tame scope ", " := .ofList (by decide)
  have text : Tame scope (Text.quote name) := .quote dotted
  have closing : Tame scope ")" := .ofList (by decide)
  constructor
  · exact bracket.append size.subscripts |>.append comma.subscripts |>.append text.subscripts
      |>.append closing.subscripts
  · exact opening.then size.calls.fits |>.append comma.calls.fits comma.calls.unclosed
      |>.append text.calls.fits text.calls.unclosed
      |>.append closing.calls.fits closing.calls.unclosed

/-- The entry of a type on a path, between words. -/
theorem stands_pathPair {first last : List Char} (before : isTame first = true)
    (settled : callFrame.leavesOpen first = false) (behind : isTame last = true)
    {name : String} (dotted : Source.Dotted name)
    (written : String.ofList first ++ pathPair name ++ String.ofList last ≠ "") :
    Stands quiet scope (String.ofList first ++ pathPair name ++ String.ofList last) := by
  have start : Tame scope (String.ofList first) := .ofList before
  have rest : Tame scope (String.ofList last) := .ofList behind
  obtain ⟨bound, calls⟩ : subscriptFrame.Quiet (IsCounted scope) (pathPair name) ∧ _ :=
    pathPair_parts dotted
  have shut : callFrame.leavesOpen (String.ofList first).toList = false := by
    rwa [String.toList_ofList]
  refine ⟨written, (start.subscripts.append bound |>.append rest.subscripts).fits, fun _ => ?_⟩
  have opened : callFrame.Settled IsOtherCall (String.ofList first) := ⟨start.calls.fits, shut⟩
  exact not_hasAppend_of_fits ((opened.then calls).append rest.calls.fits rest.calls.unclosed)

/-- The lines that add the fingerprint of another type. -/
theorem suite_visit {dependency : String} (dotted : Source.Dotted dependency) :
    Suite quiet 0 scope (block ("if " ++ pathPair dependency ++ " not in parents:")
      [plain ("tmphash = (tmphash + " ++ flatName dependency
        ++ "._compute_hash(parents)) & _MASK64")]) := by
  have call (scope : List String) :
      Tame scope ("tmphash = (tmphash + " ++ flatName dependency
        ++ "._compute_hash(parents)) & _MASK64") :=
    Tame.ofList (by decide) |>.append (.flatName dotted) |>.append (.ofList (by decide))
  exact .under (last_fixed _ rfl) (stands_pathPair (by decide) (by decide) (by decide) dotted)
    ⟨_, List.mem_cons_self, ne_empty_of_last (last_fixed _ rfl)⟩
    (.statement (last_fixed _ rfl) (by decide) (call _).stands .nil)

/-- The methods of the fingerprint are suites. -/
theorem suite_hashMethods {plan : TypePlan} (dotted : Source.Dotted plan.struct.name)
    (types : ∀ dependency ∈ plan.dependencies, Source.Dotted dependency) :
    Suite quiet 0 scope (hashMethods plan) := by
  have word (scope : List String) :
      Tame scope ("tmphash = 0x" ++ Text.hexText 16 plan.struct.baseHash) :=
    (Tame.ofList (by decide)).append (.hexText _ _)
  have mark : "tmphash = 0x".toList.getLast? = some 'x' := last_ofList rfl
  have digits : ':' ∉ (Text.hexText 16 plan.struct.baseHash).toList :=
    fun member => absurd (isAlphanum_or_sign_of_mem_hexText member) (by decide)
  obtain ⟨c, ends, other⟩ := last_append_of_not_mem mark (by decide) digits
  refine .append (.append (.append (.append (.fixed (by decide) .nil) ?compute)
    (.blank (.fixed (by decide) .nil))) ?cached) (.blank .nil)
  case compute =>
    refine .fixedUnder (by decide) (by simp [plain]) (.append (.append ?_ ?_) ?_)
    · exact .statement (last_fixed _ rfl) (by decide)
        (stands_pathPair (by decide) (by decide) (by decide) dotted)
        (.statement ends other (word _).stands .nil)
    · refine .flatten fun lines present => ?_
      obtain ⟨dependency, listed, rfl⟩ := List.mem_map.mp present
      exact suite_visit (types dependency listed)
    · exact .fixed (by decide) .nil
  case cached =>
    refine .fixedUnder (by decide) (by simp [plain]) (.append ?_ (.fixed (by decide) .nil))
    exact .fixedUnder (by decide) (by simp [plain]) (.fixed (by decide) .nil)

/-! ### Codecs -/

private theorem suite_sizeStart {plan : SizePlan} {line : Line}
    (dotted : ∀ term ∈ plan.terms, Source.Dotted term.member.name)
    (written : sizeStart plan = .ok line) : Suite quiet 0 scope [line] := by
  let names := String.intercalate ", " (plan.constantTerms.map (·.member.name))
  have absent {c : Char} (apart : c ∉ ", ".toList) (outside : Source.isNamePart c = false) :
      c ∉ names.toList := by
    refine not_mem_intercalate apart fun text present => ?_
    obtain ⟨term, kept, rfl⟩ := List.mem_map.mp present
    exact not_mem_of_dotted (dotted term (List.mem_filter.mp kept).1) outside
  rcases sizeStart_eq_ok written with rfl | ⟨bytes, bytesWritten, rfl⟩
  · exact .fixed (by decide) .nil
  · have folded : Tame scope names :=
      .of_not_mem (absent (by decide) (by decide)) (absent (by decide) (by decide))
    have sum : Tame scope ("size = " ++ bytes ++ "  # " ++ names) :=
      Tame.ofList (by decide) |>.append (.write bytesWritten) |>.append (.ofList (by decide))
        |>.append folded
    have mark : ("size = " ++ bytes ++ "  # ").toList.getLast? = some ' ' := last_fixed _ rfl
    have plain : ':' ∉ names.toList := absent (by decide) (by decide)
    obtain ⟨c, ends, other⟩ := last_append_of_not_mem mark (by decide) plain
    exact .statement ends other sum.stands .nil

/-- The methods of the size are suites. -/
theorem suite_sizeMethods {plan : TypePlan} (known : ReadPlan plan) {lines : List Line}
    (written : sizeMethods plan = .ok lines) : Suite quiet 0 scope lines := by
  obtain ⟨start, steps, startWritten, stepsWritten, rfl⟩ := sizeMethods_eq_ok written
  have startNested (scope : List String) : Suite quiet 0 scope [start] :=
    suite_sizeStart known.dotted_term startWritten
  have stepsNested {scope : List String} (within : InMethod scope) :
      Suite quiet 0 scope steps.flatten := by
    refine .flatten fun step present => ?_
    obtain ⟨owner, term, read, found, stepWritten⟩ := known.exists_of_mem_sizes stepsWritten present
    exact suite_sizeStep within known.read.name read found stepWritten
  refine .append (.append (.append ?_ (.blank .nil)) ?_) (.blank .nil)
  · exact .fixedUnder (by decide) (by simp [plain]) (.fixed (by decide) .nil)
  · refine .fixedUnder (by decide) (by simp [plain]) ?_
    exact .append (.append (startNested _) (stepsNested (.opened (by decide))))
      (.fixed (by decide) .nil)

private theorem Suite.steps {Fault : Type} {members : List Member}
    {write : FieldStep → Except Fault (List Line)} {steps : List (List Line)}
    (each : ∀ member ∈ members, ∀ lines, write (.ofMember member) = .ok lines →
      Suite quiet 0 scope lines)
    (written : (members.map FieldStep.ofMember).mapM write = .ok steps) :
    Suite quiet 0 scope steps.flatten := by
  refine .flatten fun step present => ?_
  obtain ⟨member, listed, stepWritten⟩ := exists_of_mem_steps written present
  exact each member listed step stepWritten

/-- The lines that refuse a whole buffer. -/
theorem suite_refusal {name : String} (dotted : Source.Dotted name) {reason : List Char}
    (checked : isTame reason = true) (ends : reason.getLast? = some ')') :
    Suite quiet 0 scope (block "if pos < 0:"
      [plain ("raise ValueError(\"" ++ name ++ String.ofList reason)]) := by
  have raised (scope : List String) :
      Tame scope ("raise ValueError(\"" ++ name ++ String.ofList reason) :=
    Tame.ofList (by decide) |>.append (.dotted dotted) |>.append (.ofList checked)
  exact .fixedUnder (by decide) ⟨_, List.mem_cons_self, ne_empty_of_last (last_fixed _ ends)⟩
    (.statement (last_fixed _ ends) (by decide) (raised _).stands .nil)

/-- The methods that encode are suites. -/
theorem suite_encodeMethods {plan : TypePlan} (known : ReadPlan plan) {lines : List Line}
    (written : encodeMethods plan = .ok lines) : Suite quiet 0 scope lines := by
  obtain ⟨steps, stepsWritten, rfl⟩ := Outcome.returning_eq_ok.mp written
  rw [known.belongs.encode] at stepsWritten
  have call (scope : List String) : Tame scope ("return " ++ flatName plan.struct.name ++
      "._encode_nohash(buf, pos, maxlen, [self], 1)") :=
    Tame.ofList (by decide) |>.append (.flatName known.read.name) |>.append (.ofList (by decide))
  have stepsNested {scope : List String} (within : InMethod scope) :
      Suite quiet 0 scope steps.flatten :=
    .steps (fun member listed lines => suite_encodeStep within (known.read.members member listed))
      stepsWritten
  refine .append (.append (.append (.append (.append ?whole (.blank .nil)) ?buffer)
    (.blank (.fixed (by decide) .nil))) ?members) (.blank .nil)
  case whole =>
    refine .fixedUnder (by decide) (by simp [plain]) (.append (.append ?_ ?_) ?_)
    · exact .fixed (by decide) (.fixed (by decide) .nil)
    · exact suite_refusal known.read.name (by decide) rfl
    · exact .fixed (by decide) .nil
  case buffer =>
    refine .fixedUnder (by decide) (by simp [plain]) ?_
    refine .append (.append (.append (.append (.fixed (by decide) .nil) ?_)
      (.fixed (by decide) .nil)) ?_) ?_
    · exact .positionCheck (by decide)
    · exact .positionCheck (by decide)
    · exact .statement (last_fixed _ rfl) (by decide) (call _).stands .nil
  case members =>
    refine .fixedUnder (by decide) (by simp [plain]) (.append ?_ (.fixed (by decide) .nil))
    exact .fixedUnder (by decide) ⟨_, List.mem_cons_self, by simp [plain]⟩
      (.fixed (by decide) (stepsNested (.cons (by decide) (.opened (by decide)))))

/-- The method that reads the members stands behind the methods for whole buffers. -/
theorem suite_decodeMethods {plan : TypePlan} (known : ReadPlan plan) {lines : List Line}
    (written : decodeMethods plan = .ok lines) :
    ∃ outer steps, plan.decode.steps.mapM decodeStep = .ok steps ∧
      (∀ quiet scope, Suite quiet 0 scope outer) ∧
      lines = outer ++
        block (pythonHeader .decode) (decoderBody (flatName plan.struct.name) steps) := by
  obtain ⟨steps, stepsWritten, rfl⟩ := Outcome.returning_eq_ok.mp written
  refine ⟨_, steps, stepsWritten, fun quiet scope => ?_, rfl⟩
  refine .append (.append (.append (.append (.fixed (by decide) .nil) ?whole)
    (.blank (.fixed (by decide) .nil))) ?buffer) (.blank (.fixed (by decide) .nil))
  case whole =>
    refine .fixedUnder (by decide) (by simp [plain]) (.append (.append ?_ ?_) ?_)
    · exact .fixed (by decide) .nil
    · exact suite_refusal known.read.name (by decide) rfl
    · exact .fixed (by decide) .nil
  case buffer =>
    refine .fixedUnder (by decide) (by simp [plain]) (.append ?_ (.fixed (by decide) .nil))
    refine .append (.append (.append (.append (.append (.fixed (by decide) .nil) ?_)
      (.fixed (by decide) .nil)) ?_) (.fixed (by decide) .nil)) ?_
    · exact .positionCheck (by decide)
    · exact .fixedUnder (by decide) (by simp [plain]) (.fixed (by decide) .nil)
    · exact .positionCheck (by decide)

/-- The method that reads the members gathers the messages in a list of its own. -/
theorem suite_decoderBody {plan : TypePlan} (known : ReadPlan plan) {steps : List (List Line)}
    (written : plan.decode.steps.mapM decodeStep = .ok steps) :
    Suite false 0 scope (decoderBody (flatName plan.struct.name) steps) := by
  rw [known.belongs.decode] at written
  have stepsNested (scope : List String) : Suite false 0 scope steps.flatten :=
    .steps (fun member listed lines => suite_decodeStep (known.read.members member listed)) written
  have message (scope : List String) : subscriptFrame.Fits (IsCounted scope)
      ("msg = " ++ flatName plan.struct.name ++ "()") :=
    have start : Tame scope ("msg = " ++ flatName plan.struct.name) :=
      (Tame.ofList (by decide)).append (.flatName known.read.name)
    (start.subscripts.append (Frame.quiet_ofList rfl)).fits
  have gathered (scope : List String) : Suite false 0 scope [plain "msgs.append(msg)"] :=
    .statement (last_ofList rfl) (by decide)
      (fun written => ⟨written, counted_ofList rfl, fun quiet => absurd quiet Bool.false_ne_true⟩)
      .nil
  refine .append (.append (.fixed (by decide) .nil) ?_) (.fixed (by decide) .nil)
  refine .fixedUnder (by decide) (by simp [plain]) (.append ?_ (gathered _))
  exact .statement (last_fixed _ rfl) (by decide)
    (fun written => ⟨written, message _, fun quiet => absurd quiet Bool.false_ne_true⟩)
    (stepsNested _)

/-- The names of the members stand between quotes. -/
theorem suite_slots {members : List Member}
    (dotted : ∀ member ∈ members, Source.Dotted member.name) (some : members ≠ []) :
    Suite quiet 0 scope [plain ("__slots__ = [" ++
      String.intercalate ", " (members.map fun member => "\"" ++ member.name ++ "\"") ++ "]")] := by
  let names := String.intercalate ", " (members.map fun member => "\"" ++ member.name ++ "\"")
  have absent {c : Char} (apart : c ∉ ['"', ',', ' ']) (outside : Source.isNamePart c = false) :
      c ∉ names.toList := by
    simp only [List.mem_cons, List.not_mem_nil, or_false, not_or] at apart
    refine not_mem_intercalate (by simpa using apart.2) fun text present => ?_
    obtain ⟨member, listed, rfl⟩ := List.mem_map.mp present
    have named := not_mem_of_dotted (dotted member listed) outside
    simp [named, apart.1]
  have quoted : ¬ names.toList.all subscriptFrame.inner = true := by
    obtain ⟨member, rest, rfl⟩ := List.exists_cons_of_ne_nil some
    intro inner
    have mark : '"' ∈ names.toList := by
      cases rest <;> simp [names]
    exact absurd (List.all_eq_true.mp inner '"' mark) (by decide)
  have listed : subscriptFrame.Quiet (IsCounted scope) (names ++ "]") := by
    refine ⟨(Frame.settled_of_forall fun c member => beq_eq_false_iff_ne.mpr ?_).fits, ?_⟩
    · rintro rfl
      rw [String.toList_append, List.mem_append] at member
      exact member.elim (absent (by decide) (by decide)) (by decide)
    · rw [String.toList_append, Frame.closesFirst_append, if_neg quoted]
      exact Frame.closesFirst_eq_false fun c member => beq_eq_false_iff_ne.mpr fun same =>
        absent (by decide) (by decide) (same ▸ member)
  have start : Tame scope "__slots__ = [" := .ofList (by decide)
  refine .statement (last_fixed _ rfl) (by decide) (fun written => ⟨written, ?_, fun _ => ?_⟩) .nil
  · rw [String.append_assoc]
    exact (start.subscripts.append listed).fits
  · refine not_hasAppend_of_not_mem (.inr (.inr rfl)) ?_
    rw [String.toList_append, String.toList_append, List.mem_append, List.mem_append]
    rintro ((opening | name) | closing)
    · exact absurd opening (by decide)
    · exact absent (by decide) (by decide) name
    · exact absurd closing (by decide)

end Methods

end Wireform.Backend
