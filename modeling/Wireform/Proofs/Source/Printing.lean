import Wireform.Proofs.Source.Names
import Wireform.Proofs.Source.Scanning

/-! # Printed definitions read back

The structs of a file can be printed as a file: the package clause where there is a package, then
each struct with one member a line and the stored names of types. Reading the printed file gives the
same structs (`Wireform.Source.structs_print`). Qualified names are words again, they are neither
primitives nor keywords, and qualifying them once more changes nothing
(`Wireform.Parser.qualify_qualify`); what a piece of a file derives, its printed form derives
(`Wireform.Grammar.IsMember.prints`).
-/

namespace Wireform

def Dimension.source (dimension : Dimension) : String :=
  "[" ++ dimension.size ++ "]"

private theorem Dimension.toList_source (dimension : Dimension) :
    dimension.source.toList = '[' :: (dimension.size.toList ++ [']']) := by
  simp [source]

/-- The line of a member. -/
def Member.source (member : Member) : String :=
  member.type.name ++ " " ++ member.name ++
    String.join (member.dimensions.map Dimension.source) ++ ";"

/-- The lines of a struct. -/
def Struct.source (struct : Struct) : List String :=
  ("struct " ++ struct.shortName ++ " \x7b") :: (struct.members.map Member.source ++ ["\x7d"])

namespace Source

/-- The package of the structs of a file, which they have in common. -/
def packageOf : List Struct → String
  | [] => ""
  | struct :: _ => struct.package

/-- The text of some lines. -/
def joinLines (lines : List String) : String :=
  String.join (lines.map (· ++ "\n"))

/-- The clause of a package, where there is one. -/
def packageLines (package : String) : List String :=
  if package.isEmpty then [] else ["package " ++ package ++ ";"]

/-- The file that defines some structs. -/
def print (structs : List Struct) : String :=
  joinLines (packageLines (packageOf structs) ++ structs.flatMap Struct.source)

private theorem toList_joinLines (lines : List String) :
    (joinLines lines).toList = lines.flatMap fun line => line.toList ++ ['\n'] := by
  simp [joinLines, List.flatMap_map]

/-! ### Names -/

/-- A name is read whole where the text after it cannot go on in a name. -/
theorem Scans.name {line next : Nat} {name : String} {text : List Char} {tokens : List Token}
    (scanned : Scans line text tokens next) (named : Named name) (stops : StopsName text) :
    Scans line (name.toList ++ text) (⟨.identifier, name, line⟩ :: tokens) next := by
  have other : ¬keywords.contains name = true := by
    rw [List.contains_iff_mem]
    exact named.2
  have whole := scanned.word named.1 stops
  rwa [String.ofList_toList, wordToken, if_neg other] at whole

private theorem hasDanglingDot_cons {c : Char} {rest : List Char} :
    hasDanglingDot (c :: rest) = false ↔
      (c = '.' → ∃ d more, rest = d :: more ∧ d ≠ '.') ∧ hasDanglingDot rest = false := by
  rw [hasDanglingDot.eq_def]
  split
  · next empty => cases empty
  · next single =>
      obtain ⟨rfl, rfl⟩ := List.cons.inj single
      simp
  · next more double =>
      obtain ⟨rfl, rfl⟩ := List.cons.inj double
      simp
  · next first others notSingle notDouble same =>
      obtain ⟨rfl, rfl⟩ := List.cons.inj same
      refine ⟨fun clean => ⟨?_, clean⟩, And.right⟩
      rintro rfl
      cases rest with
      | nil => exact absurd rfl (notSingle rfl)
      | cons d more => exact ⟨d, more, rfl, by rintro rfl; exact notDouble _ rfl rfl⟩

private theorem hasDanglingDot_append {first second : List Char}
    (left : hasDanglingDot first = false)
    (right : hasDanglingDot second = false) (start : ∃ c rest, second = c :: rest ∧ c ≠ '.') :
    hasDanglingDot (first ++ '.' :: second) = false := by
  induction first with
  | nil => exact hasDanglingDot_cons.mpr ⟨fun _ => start, right⟩
  | cons c first ih =>
      obtain ⟨followed, rest⟩ := hasDanglingDot_cons.mp left
      refine hasDanglingDot_cons.mpr ⟨fun dot => ?_, ih rest⟩
      obtain ⟨d, more, rfl, other⟩ := followed dot
      exact ⟨d, more ++ '.' :: second, rfl, other⟩

/-- Words joined by a dot are a word. -/
theorem Word.append {first second : List Char} (left : Word first) (right : Word second) :
    Word (first ++ '.' :: second) := by
  obtain ⟨c, rest, rfl, start⟩ := left.start
  obtain ⟨d, more, rfl, begins⟩ := right.start
  refine ⟨⟨c, _, rfl, start⟩, ?_, ?_⟩
  · intro e inside
    rcases List.mem_append.mp inside with earlier | later
    · exact left.parts e earlier
    · rcases List.mem_cons.mp later with rfl | later
      · decide
      · exact right.parts e later
  · refine hasDanglingDot_append left.dots right.dots ⟨d, more, rfl, ?_⟩
    rintro rfl
    cases begins

private theorem not_mem_keywords_of_dot {name : String} (dotted : '.' ∈ name.toList) :
    name ∉ keywords := by
  intro keyword
  simp only [keywords, List.mem_cons, List.not_mem_nil, or_false] at keyword
  rcases keyword with rfl | rfl <;> exact absurd dotted (by decide)

end Source

namespace Parser

open Source

private theorem qualify_of_dot {package name : String} (dotted : '.' ∈ name.toList) :
    qualify package name = name := by
  rw [qualify, if_pos]
  rw [isQualified, List.contains_iff_mem.mpr dotted]
  rfl

private theorem qualify_empty (name : String) : qualify "" name = name := by
  rw [qualify, if_pos]
  simp

private theorem qualify_plain {package name : String} (occupied : package ≠ "")
    (plain : '.' ∉ name.toList) : qualify package name = package ++ "." ++ name := by
  rw [qualify, if_neg]
  simpa [isQualified] using ⟨plain, occupied⟩

private theorem dot_mem_join (package name : String) : '.' ∈ (package ++ "." ++ name).toList := by
  simp

/-- Qualifying a qualified name changes nothing. -/
theorem qualify_qualify (package name : String) :
    qualify package (qualify package name) = qualify package name := by
  by_cases dotted : '.' ∈ name.toList
  · rw [qualify_of_dot dotted, qualify_of_dot dotted]
  · by_cases unnamed : package = ""
    · rw [unnamed, qualify_empty, qualify_empty]
    · rw [qualify_plain unnamed dotted, qualify_of_dot (dot_mem_join package name)]

private theorem named_qualify_of_named {package name : String}
    (inside : package = "" ∨ Named package)
    (named : Named name) : Named (qualify package name) := by
  by_cases dotted : '.' ∈ name.toList
  · rwa [qualify_of_dot dotted]
  · rcases inside with rfl | owner
    · rwa [qualify_empty]
    · have occupied : package ≠ "" := by
        rintro rfl
        obtain ⟨c, rest, impossible, -⟩ := owner.1.start
        cases impossible
      rw [qualify_plain occupied dotted]
      refine ⟨?_, not_mem_keywords_of_dot (dot_mem_join package name)⟩
      simpa using owner.1.append named.1

/-- The last part of a qualified name is the name, and its first part the package. -/
theorem parts_qualify (package : String) {name : String} (plain : '.' ∉ name.toList) :
    lastPart (qualify package name).toList = name.toList ∧
      packagePart (qualify package name).toList = package.toList := by
  have absent : '.' ∉ name.toList.reverse := fun inside => plain (List.mem_reverse.mp inside)
  by_cases unnamed : package = ""
  · rw [unnamed, qualify_empty, lastPart, packagePart,
      List.takeWhile_eq_self_iff.mpr (Text.forall_bne absent),
      List.dropWhile_eq_nil_iff.mpr (Text.forall_bne absent)]
    simp
  · have shape : (package ++ "." ++ name).toList.reverse =
        name.toList.reverse ++ '.' :: package.toList.reverse := by simp
    obtain ⟨taken, left⟩ := Text.takeWhile_bne absent package.toList.reverse
    rw [qualify_plain unnamed plain, lastPart, packagePart, shape, taken, left]
    simp

/-- No primitive has a dot in its name. -/
theorem ofName?_of_dot {name : String} (dotted : '.' ∈ name.toList) :
    Primitive.ofName? name = none := by
  cases found : Primitive.ofName? name with
  | none => rfl
  | some p =>
      rw [← Primitive.name_of_ofName? found] at dotted
      cases p <;> exact absurd dotted (by decide)

private theorem ofName?_qualify {package name : String} (other : Primitive.ofName? name = none) :
    Primitive.ofName? (qualify package name) = none := by
  by_cases dotted : '.' ∈ name.toList
  · rwa [qualify_of_dot dotted]
  · by_cases unnamed : package = ""
    · rwa [unnamed, qualify_empty]
    · rw [qualify_plain unnamed dotted]
      exact ofName?_of_dot (dot_mem_join package name)

end Parser

namespace Grammar

open Wireform.Source Wireform.Parser

/-! ### Printed pieces -/

private theorem name_typeOf_of_named {package name : String} (inside : package = "" ∨ Named package)
    (named : Named name) : Named (typeOf package name).name := by
  unfold typeOf
  split
  · next p known => rwa [FieldType.name, Primitive.name_of_ofName? known]
  · exact named_qualify_of_named inside named

/-- The stored name of a type means the same type. -/
theorem typeOf_name (package name : String) :
    typeOf package (typeOf package name).name = typeOf package name := by
  cases known : Primitive.ofName? name with
  | some p => simp only [typeOf, known, FieldType.name, Primitive.ofName?_name]
  | none => simp only [typeOf, known, FieldType.name, ofName?_qualify known, qualify_qualify]

private theorem IsSize.size {text : String} {dimension : Dimension} (size : IsSize text dimension) :
    dimension.size = text := by
  cases size <;> rfl

private theorem IsSize.parts {text : String} {dimension : Dimension}
    (size : IsSize text dimension) :
    ∀ c ∈ text.toList, Text.isWordChar c = true ∨ c = '_' := by
  cases size with
  | constant occupied digits =>
      intro c inside
      exact .inl (Text.isWordChar_of_isDigit (digits c inside))
  | dynamic spelling start parts => exact parts

/-- A text that is read as tokens from which a rule derives a value. -/
def Prints {α : Type} (item : List Token → α → Prop) (text : List Char) (value : α) : Prop :=
  ∀ line, ∃ printed next, Scans line text printed next ∧ item printed value

private theorem Star.prints {α : Type} {item : List Token → α → Prop} {source : α → List Char}
    {tokens : List Token} {values : List α} (derived : Star item tokens values)
    (each : ∀ first value, first ⊆ tokens → item first value → Prints item (source value) value) :
    Prints (Star item) (values.flatMap source) values := by
  induction derived with
  | nil => exact fun line => ⟨[], line, .nil, .nil⟩
  | @cons first rest value values head tail ih =>
      intro line
      obtain ⟨printed, middle, scanned, derives⟩ :=
        each first value (List.subset_append_left _ _) head line
      obtain ⟨others, next, scannedRest, derivesRest⟩ :=
        ih (fun later value inside =>
          each later value (List.Subset.trans inside (List.subset_append_right _ _))) middle
      exact ⟨printed ++ others, next, scanned.append scannedRest, .cons derives derivesRest⟩

private theorem IsDimension.prints {tokens : List Token} {dimension : Dimension}
    (derived : IsDimension tokens dimension) :
    Prints IsDimension dimension.source.toList dimension := by
  intro line
  cases derived with
  | @mk token _ kind size =>
      refine ⟨[⟨.dimension, token.value, line⟩], line, ?_, .mk rfl size⟩
      have scanned : Scans line ('[' :: (token.value.toList ++ [']']))
          [⟨.dimension, String.ofList token.value.toList, line⟩] line := scans_dimension size.parts
      rw [String.ofList_toList] at scanned
      rwa [Dimension.toList_source, size.size]

private theorem stopsName_sizes (dimensions : List Dimension) :
    StopsName (dimensions.flatMap (·.source.toList) ++ [';']) := by
  cases dimensions with
  | nil => exact ⟨';', [], rfl, by decide⟩
  | cons dimension others =>
      rw [List.flatMap_cons, dimension.toList_source]
      exact ⟨'[', _, rfl, by decide⟩

private theorem IsMember.prints {package : String} {tokens : List Token} {member : Member}
    (derived : IsMember package tokens member) (inside : package = "" ∨ Named package)
    (named : ∀ token ∈ tokens, token.kind = .identifier → Named token.value) :
    Prints (IsMember package) member.source.toList member := by
  intro line
  cases derived with
  | @mk type name stop sizes dimensions typed identifier plain sized stopped =>
      have typeNamed : Named (typeOf package type.value).name :=
        name_typeOf_of_named inside (named type (by simp) typed)
      have nameNamed : Named name.value := named name (by simp) identifier
      obtain ⟨printed, next, scanned, derives⟩ :=
        sized.prints (fun _ _ _ dimension => dimension.prints) line
      have semicolon : Scans next [';'] [⟨.symbol, ";", next⟩] next := scans_symbol (by decide)
      have fromName := (scanned.append semicolon).name nameNamed (stopsName_sizes dimensions)
      have whole := (scans_space.append fromName).name typeNamed ⟨' ', _, rfl, by decide⟩
      have rule : IsMember package
          (⟨.identifier, (typeOf package type.value).name, line⟩ ::
            ⟨.identifier, name.value, line⟩ :: (printed ++ [⟨.symbol, ";", next⟩]))
          ⟨name.value, typeOf package (typeOf package type.value).name, dimensions⟩ :=
        .mk rfl rfl plain derives ⟨rfl, rfl⟩
      rw [typeOf_name] at rule
      refine ⟨_, next, ?_, rule⟩
      simpa [Member.source, List.flatMap_map] using whole

private theorem Prints.line {α : Type} {item : List Token → α → Prop} {text : List Char} {value : α}
    (printed : Prints item text value) : Prints item (text ++ ['\n']) value := by
  intro line
  obtain ⟨tokens, next, scanned, derived⟩ := printed line
  have whole := scanned.append scans_break
  rw [List.append_nil] at whole
  exact ⟨tokens, next + 1, whole, derived⟩

private theorem scans_keyword {line next : Nat} {text : List Char} {tokens : List Token}
    {keyword : String}
    (scanned : Scans line (' ' :: text) tokens next) (known : keyword ∈ keywords) :
    Scans line (keyword.toList ++ ' ' :: text) (⟨.keyword, keyword, line⟩ :: tokens) next := by
  have spelt : Word keyword.toList := by
    simp only [keywords, List.mem_cons, List.not_mem_nil, or_false] at known
    rcases known with rfl | rfl
    · exact ⟨⟨'p', _, rfl, by decide⟩, List.all_eq_true.mp (by decide), by decide⟩
    · exact ⟨⟨'s', _, rfl, by decide⟩, List.all_eq_true.mp (by decide), by decide⟩
  have whole := scanned.word spelt ⟨' ', text, rfl, by decide⟩
  rwa [String.ofList_toList, wordToken, if_pos (List.contains_iff_mem.mpr known)] at whole

private theorem IsStruct.prints {package : String} {tokens : List Token} {struct : Struct}
    (derived : IsStruct EndsStruct package tokens struct) (inside : package = "" ∨ Named package)
    (named : ∀ token ∈ tokens, token.kind = .identifier → Named token.value) :
    Prints (IsStruct EndsStruct package) (joinLines struct.source).toList struct := by
  intro line
  cases derived with
  | @mk keyword name opening closing body ending members defined identifier plain opened filled
      occupied closed ended =>
    have nameNamed : Named name.value := named name (by simp) identifier
    have bodyNamed : ∀ token ∈ body, token.kind = .identifier → Named token.value :=
      fun token member => named token (by simp [member])
    obtain ⟨printed, next, scanned, derives⟩ := filled.prints
      (fun first member taken derived =>
        (derived.prints inside fun token listed => bodyNamed token (taken listed)).line) (line + 1)
    have brace : Scans next ['\x7d'] [⟨.symbol, "\x7d", next⟩] next := scans_symbol (by decide)
    have opens : Scans line ['\x7b'] [⟨.symbol, "\x7b", line⟩] line := scans_symbol (by decide)
    have fromBrace := opens.append (scans_break.append (scanned.append (brace.append scans_break)))
    have fromName := (scans_space.append fromBrace).name nameNamed ⟨' ', _, rfl, by decide⟩
    have whole := scans_keyword (scans_space.append fromName) (show "struct" ∈ keywords by decide)
    have rule : IsStruct EndsStruct package
        (⟨.keyword, "struct", line⟩ :: ⟨.identifier, name.value, line⟩ ::
          ⟨.symbol, "\x7b", line⟩ :: (printed ++ ⟨.symbol, "\x7d", next⟩ :: []))
        (Struct.withSignatureHash { name := qualify package name.value, members }) :=
      .mk ⟨rfl, rfl⟩ rfl plain ⟨rfl, rfl⟩ derives occupied ⟨rfl, rfl⟩ (.inl rfl)
    have short : Struct.shortName (.withSignatureHash ⟨qualify package name.value, members, 0⟩) =
        name.value := by
      rw [Struct.shortName, Struct.withSignatureHash, (parts_qualify package plain).1,
        String.ofList_toList]
    refine ⟨_, next + 1, ?_, rule⟩
    rw [toList_joinLines, Struct.source, short]
    simpa [Struct.withSignatureHash, List.flatMap_map] using whole

private theorem prints_header {package : String} (inside : package = "" ∨ Named package) :
    Prints IsHeader (joinLines (packageLines package)).toList package := by
  intro line
  rcases inside with rfl | named
  · exact ⟨[], line, .nil, .absent⟩
  · have occupied : ¬package.isEmpty = true := by
      rw [String.isEmpty_iff]
      rintro rfl
      obtain ⟨c, rest, impossible, -⟩ := named.1.start
      cases impossible
    have stop : Scans line [';'] [⟨.symbol, ";", line⟩] line := scans_symbol (by decide)
    have fromName := (stop.append scans_break).name named ⟨';', _, rfl, by decide⟩
    have whole := scans_keyword (scans_space.append fromName) (show "package" ∈ keywords by decide)
    have rule : IsHeader [⟨.keyword, "package", line⟩, ⟨.identifier, package, line⟩,
        ⟨.symbol, ";", line⟩] package := .clause ⟨rfl, rfl⟩ rfl ⟨rfl, rfl⟩
    refine ⟨_, line + 1, ?_, rule⟩
    rw [toList_joinLines, packageLines, if_neg occupied]
    simpa using whole

/-! ### Printed files -/

private theorem IsStruct.package {package : String} {ends : Token → Prop} {tokens : List Token}
    {struct : Struct} (derived : IsStruct ends package tokens struct) :
    struct.package = package := by
  cases derived with
  | mk _ _ plain =>
      rw [Struct.package, Struct.withSignatureHash, (parts_qualify package plain).2,
        String.ofList_toList]

end Grammar

namespace Source

open Grammar

/-- A printed package clause and printed structs are read as a file. -/
theorem structs_of_prints {package : String} {body : List Char} {structs : List Struct}
    (inside : package = "" ∨ Named package)
    (printed : Prints (Star (IsStruct Parser.EndsStruct package)) body structs) :
    Source.structs (joinLines (packageLines package) ++ String.ofList body) = .ok structs := by
  obtain ⟨header, middle, scannedHeader, headed⟩ := prints_header inside 1
  obtain ⟨tokens, last, scannedBody, derived⟩ := printed middle
  have lexed : tokenize (joinLines (packageLines package) ++ String.ofList body) =
      .ok (header ++ tokens ++ [⟨.endOfText, "", last⟩]) := by
    rw [tokenize, String.toList_append, String.toList_ofList]
    exact (scannedHeader.append scannedBody).read
  have file : IsFile Parser.EndsStruct (header ++ tokens ++ [⟨.endOfText, "", last⟩]) structs := by
    rw [List.append_assoc]
    exact .mk headed derived rfl
  exact Parser.structs_eq_ok_iff.mpr ⟨_, lexed, (Parser.definitions_eq_ok_iff lexed).mpr file⟩

private theorem print_eq (structs : List Struct) :
    print structs = joinLines (packageLines (packageOf structs)) ++
      String.ofList (structs.flatMap fun struct => (joinLines struct.source).toList) := by
  apply String.toList_inj.mp
  rw [String.toList_append, String.toList_ofList, print]
  simp only [toList_joinLines, List.flatMap_append, List.flatMap_assoc]

/-- **Printed structs read back.** The structs of a file have one package. Printing them as a file
and reading it gives them again, and the base hash of each is the hash of its signature. -/
theorem structs_print {text : String} {structs : List Struct}
    (read : Source.structs text = .ok structs) :
    Source.structs (print structs) = .ok structs ∧
      (∀ struct ∈ structs, struct.package = packageOf structs) ∧
      ∀ struct ∈ structs, struct.baseHash = struct.signatureHash.toNat := by
  obtain ⟨tokens, lexed, run⟩ := Parser.structs_eq_ok_iff.mp read
  have hashes : ∀ struct ∈ structs, struct.baseHash = struct.signatureHash.toNat :=
    fun struct member => (Schema.readFrom_of_structs read struct member).baseHash
  have named := named_of_mem_tokenizeFrom lexed
  cases (Parser.definitions_eq_ok_iff lexed).mp run with
  | @mk header body package structs stop headed filled stopped =>
      have inside : package = "" ∨ Named package :=
        inside_of_isHeader headed fun token member => named token (List.mem_append_left _ member)
      have bodyNamed : ∀ token ∈ body, token.kind = .identifier → Named token.value :=
        fun token member => named token (by simp [member])
      have common : ∀ struct ∈ structs, struct.package = package := by
        intro struct member
        obtain ⟨first, -, derived⟩ := filled.exists_of_mem struct member
        exact derived.package
      have printed := filled.prints fun first struct taken derived =>
        derived.prints inside fun token listed => bodyNamed token (taken listed)
      -- a file without structs is printed without its package
      cases structs with
      | nil =>
          refine ⟨?_, by simp, hashes⟩
          rw [print_eq]
          exact structs_of_prints (.inl rfl) fun line => ⟨[], line, .nil, .nil⟩
      | cons first others =>
          have same : packageOf (first :: others) = package := common first List.mem_cons_self
          refine ⟨?_, ?_, hashes⟩
          · rw [print_eq, same]
            exact structs_of_prints inside printed
          · rw [same]
            exact common

/-- A struct with types of its own package and of another one. -/
theorem structs_print_leaf :
    ∃ structs,
      Source.structs "package p; struct a \x7b byte n; b x[ n ] [2]; q.c y; \x7d;" = .ok structs ∧
      print structs = "package p;\nstruct a \x7b\nbyte n;\np.b x[n][2];\nq.c y;\n\x7d\n" ∧
      Source.structs (print structs) = .ok structs := by
  let structs := [Struct.withSignatureHash ⟨"p.a", [⟨"n", .primitive .byte, []⟩,
    ⟨"x", .compound "p.b", [.dynamic "n", .constant "2"]⟩, ⟨"y", .compound "q.c", []⟩], 0⟩]
  have read : Source.structs "package p; struct a \x7b byte n; b x[ n ] [2]; q.c y; \x7d;" =
      .ok structs := by decide +kernel
  have text : print structs =
      "package p;\nstruct a \x7b\nbyte n;\np.b x[n][2];\nq.c y;\n\x7d\n" := by decide +kernel
  obtain ⟨again, -⟩ := structs_print read
  exact ⟨structs, read, text, again⟩

end Source

end Wireform
