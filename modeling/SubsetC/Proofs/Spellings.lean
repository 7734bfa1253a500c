import Mathlib.Data.Set.Finite.Basic
import SubsetC.Proofs.Delivery
import SubsetC.Proofs.ParsedTrees
import SubsetC.Proofs.RenamedFrames
import SubsetC.Proofs.TokenSpans

/-!
# How identifiers are spelled

The spelling of identifiers does not matter to a compilation: with other identifiers in its place, a
tree is refused alike, or has the same code and frames with the other names in them
(`Program.translate_renamed`). This holds even if the identifiers are those from which names of
temporaries, strings and labels are made.

The argument has two parts. A change of identifiers does the same to a tree as a permutation of all
identifiers, and permutations carry over to the symbols, the code and the frames, pass by pass. Then,
since permutations that leave the identifiers of a source alone leave its code alone, the code has no
names but those that the change is about.
-/

namespace SubsetC

open Pass (Mirrored)

/-! ### Names in code and frames -/

/-- The name that an item of an initializer points at, if it does. -/
def StaticItem.mentioned : StaticItem → List Text
  | .pointer name => [name]
  | _ => []

/-- The names of the objects and of the function that an instruction mentions. -/
def Instruction.mentioned (instruction : Instruction) : List Text :=
  instruction.names ++ (Code.callee? instruction).toList

/-- The name of an item, and the names that are mentioned in it. -/
def TopLevel.mentioned : TopLevel → List Text
  | .function item => item.name :: (item.params ++ item.body.flatMap Instruction.mentioned)
  | .object item => item.name :: item.items.flatMap StaticItem.mentioned
  | .constant item => item.name :: item.item.mentioned

/-- The name of an item, the names that are mentioned in it, and those of its slots. -/
def AssemblyItem.mentioned : AssemblyItem → List Text
  | .function item => (TopLevel.function item.function).mentioned ++ item.frame.slots.map Slot.name
  | .object item => (TopLevel.object item).mentioned
  | .constant item => (TopLevel.constant item).mentioned

section

variable (change other : Text → Text)

/-- Changes do the same to a list if they do the same to the names in it. -/
theorem map_rename_eq_iff {α β : Type} {change other : Text → Text}
    {rename : (Text → Text) → α → β} {mentioned : α → List Text}
    (each : ∀ item, rename change item = rename other item ↔
      ∀ name ∈ mentioned item, change name = other name) (items : List α) :
    items.map (rename change) = items.map (rename other) ↔
      ∀ name ∈ items.flatMap mentioned, change name = other name := by
  rw [List.map_inj_left, List.forall_mem_flatMap]
  exact forall₂_congr fun item _ => each item

theorem StaticItem.rename_eq_iff (item : StaticItem) :
    item.rename change = item.rename other ↔ ∀ name ∈ item.mentioned, change name = other name := by
  cases item <;> simp [rename, mentioned]

theorem Operand.rename_eq_iff (operand : Operand) :
    operand.rename change = operand.rename other ↔
      ∀ name ∈ operand.name?, change name = other name := by
  cases operand <;> simp [rename, name?]

theorem Instruction.rename_eq_iff (instruction : Instruction) :
    instruction.rename change = instruction.rename other ↔
      ∀ name ∈ instruction.mentioned, change name = other name := by
  have objects : (∀ name ∈ instruction.names, change name = other name) ↔
      ∀ operand ∈ instruction.operands, operand.rename change = operand.rename other := by
    simp only [names, List.mem_filterMap, Operand.rename_eq_iff change other]
    refine ⟨fun all operand mem name isName => all name ⟨operand, mem, isName⟩,
      fun all name named => ?_⟩
    obtain ⟨operand, mem, isName⟩ := named
    exact all operand mem name isName
  rw [mentioned, List.forall_mem_append, objects]
  cases instruction <;>
    simp [rename, operands, Code.callee?, Operand.rename, or_imp, forall_and, and_comm]

theorem TopLevel.rename_eq_iff (item : TopLevel) :
    item.rename change = item.rename other ↔ ∀ name ∈ item.mentioned, change name = other name := by
  cases item with
  | function item =>
      have body := map_rename_eq_iff (Instruction.rename_eq_iff change other) item.body
      simp only [rename, mentioned, Function.rename, Code.rename, body, function.injEq,
        Function.mk.injEq, List.map_inj_left, List.forall_mem_cons, List.forall_mem_append,
        true_and]
  | object item =>
      have items := map_rename_eq_iff (StaticItem.rename_eq_iff change other) item.items
      simp [rename, mentioned, StaticObject.rename, items]
  | constant item =>
      simp [rename, mentioned, StaticConstant.rename, StaticItem.rename_eq_iff change other]

theorem AssemblyItem.rename_eq_iff (item : AssemblyItem) :
    item.rename change = item.rename other ↔ ∀ name ∈ item.mentioned, change name = other name := by
  cases item with
  | function item =>
      have code := TopLevel.rename_eq_iff change other (.function item.function)
      simp only [TopLevel.rename, TopLevel.function.injEq] at code
      simp only [rename, mentioned, Frame.rename, code, function.injEq, FramedFunction.mk.injEq,
        Frame.mk.injEq, and_true, List.map_inj_left, List.forall_mem_append, List.forall_mem_map,
        Slot.rename, Slot.mk.injEq]
  | object item =>
      have same := TopLevel.rename_eq_iff change other (.object item)
      simp only [TopLevel.rename, TopLevel.object.injEq] at same
      simp only [rename, mentioned, same, object.injEq]
  | constant item =>
      have same := TopLevel.rename_eq_iff change other (.constant item)
      simp only [TopLevel.rename, TopLevel.constant.injEq] at same
      simp only [rename, mentioned, same, constant.injEq]

theorem LinearProgram.rename_eq_iff (program : LinearProgram) :
    program.rename change = program.rename other ↔
      ∀ name ∈ program.flatMap TopLevel.mentioned, change name = other name :=
  map_rename_eq_iff (TopLevel.rename_eq_iff change other) program

theorem Assembly.rename_eq_iff (assembly : Assembly) :
    assembly.rename change = assembly.rename other ↔
      ∀ name ∈ assembly.flatMap AssemblyItem.mentioned, change name = other name :=
  map_rename_eq_iff (AssemblyItem.rename_eq_iff change other) assembly

end

/-! ### Translation -/

namespace Program

/-- The code of a compilation unit and its frames. -/
def translate (program : Program) : Pass (LinearProgram × Assembly) := do
  let analysed ← program.analyze
  let linear ← analysed.lower
  let table := (← get).symbols
  let assembly ← (linear.assemble table : Except Failure Assembly)
  pure (linear, assembly)

/-- What follows once the names of a compilation unit are resolved. -/
def translateResolved (resolved : Program) : Pass (LinearProgram × Assembly) := do
  let labelled ← resolved.label
  let analysed ← labelled.check
  let linear ← analysed.lower
  let table := (← get).symbols
  let assembly ← (linear.assemble table : Except Failure Assembly)
  pure (linear, assembly)

theorem translate_eq (program : Program) :
    program.translate = program.resolve >>= translateResolved := by
  simp only [translate, analyze, bind_assoc]
  rfl

/-- Code and frames with changed names. -/
def renameCode (change : Text → Text) : LinearProgram × Assembly → LinearProgram × Assembly :=
  Prod.map (LinearProgram.rename change) (Assembly.rename change)

theorem translateResolved_mirrored {names : NameChange} (spares : names.Spares)
    (resolved : Program) :
    Mirrored names resolved.translateResolved
      (resolved.mapParts (.renamed names.internal)).translateResolved
      (renameCode names.internal) :=
  (label_mirrored resolved).bind fun labelled =>
    (check_mirrored spares labelled).bind fun analysed =>
      (lower_mirrored spares analysed).bind fun linear =>
        Mirrored.get.bind fun context =>
          (linear.assemble_mirrored spares.injective context.symbols).lift.bind fun _ => .pure rfl

variable {program : Program} {change : Text → Text}

/-- A permutation of identifiers leads to the permuted code. The numbers of names that resolution has
drawn belong to objects of the source, and so do no later ones. -/
theorem translate_permuted (isPlain : program.Forall Origin.plain.parts)
    (permutes : Text.Permutes change) (lastId : Nat) :
    match program.translate.run (parsedContext lastId) with
    | .ok (made, _) => ∃ resolved context final,
        program.resolve.run (parsedContext lastId) = .ok (resolved, context) ∧
          (program.mapParts (.renamed change)).translate.run (parsedContext lastId) =
            .ok (renameCode (Text.internal change context.nextName) made, final)
    | .error failure => ∃ other,
        (program.mapParts (.renamed change)).translate.run (parsedContext lastId) = .error other ∧
          other.Resembles failure := by
  rw [translate_eq, translate_eq, StateT.run_bind, StateT.run_bind]
  have resolves (names : NameChange) (carries : names.Carries change) (isLow : names.low = 0) :=
    program.resolve_mirrored carries isPlain (parsedContext lastId) (isLow ▸ Nat.zero_le _)
  cases runs : program.resolve.run (parsedContext lastId) with
  | error failure =>
      -- Resolution that fails may have drawn any number, so all numbered names change along.
      have carries : NameChange.Carries ⟨Text.restem change, 0, fun _ => True⟩ change :=
        ⟨permutes, fun _ => Text.restem_of_isPlain permutes.empty,
          fun _ number isPlain _ => Text.restem_numbered permutes.empty isPlain number⟩
      have fails := resolves _ carries rfl
      rw [runs] at fails
      rcases fails fun _ => trivial with ⟨other, fails, alike⟩
      have renamedFails : (program.mapParts (.renamed change)).resolve.run (parsedContext lastId) =
        .error other := fails
      rw [renamedFails]
      exact ⟨other, rfl, alike⟩
  | ok made =>
      rcases made with ⟨resolved, context⟩
      -- Once resolution ends, the numbers of objects of the source are those drawn so far.
      have carries : NameChange.Carries
          ⟨Text.internal change context.nextName, 0, (· < context.nextName)⟩ change :=
        ⟨permutes, fun _ => Text.internal_of_isPlain permutes.empty,
          fun _ _ isPlain => Text.internal_numbered_of_lt permutes.empty isPlain⟩
      have renames := resolves _ carries rfl
      rw [runs] at renames
      have renamedRuns : (program.mapParts (.renamed change)).resolve.run (parsedContext lastId) =
          .ok (resolved.mapParts (.renamed (Text.internal change context.nextName)),
            context.rename (Text.internal change context.nextName)) :=
        renames.2 fun _ => id
      rw [renamedRuns]
      have spares : NameChange.Spares
          ⟨Text.internal change context.nextName, context.nextName, fun _ => True⟩ :=
        ⟨permutes.internal_injective _,
          carries.empty,
          fun _ _ isPlain => Text.internal_numbered_of_le isPlain, fun _ => trivial⟩
      have continues := translateResolved_mirrored spares resolved context (Nat.le_refl _)
      change match resolved.translateResolved.run context with
        | .ok (made, _) => _
        | .error failure => _
      cases ends : resolved.translateResolved.run context with
      | error failure =>
          rw [ends] at continues
          exact continues fun _ => trivial
      | ok result =>
          rcases result with ⟨result, final⟩
          rw [ends] at continues
          exact ⟨resolved, context, _, rfl, continues.2 fun _ _ => trivial⟩

theorem renameCode_eq_iff (change other : Text → Text) (made : LinearProgram × Assembly) :
    renameCode change made = renameCode other made ↔
      ∀ name ∈ made.1.flatMap TopLevel.mentioned ++ made.2.flatMap AssemblyItem.mentioned,
        change name = other name := by
  rw [renameCode, renameCode, Prod.map, Prod.map, Prod.mk.injEq, LinearProgram.rename_eq_iff,
    Assembly.rename_eq_iff, List.forall_mem_append]

/-- Permutations that leave the identifiers of a tree alone leave its code alone. So the code has no
names but those of identifiers, those made from them, and those of temporaries and strings, and
changes that agree on the identifiers do the same to it. -/
theorem renameCode_congr {identifiers : List Text} {lastId : Nat} {made : LinearProgram × Assembly}
    {resolved : Program} {context final : Context} (isPlain : program.Forall Origin.plain.parts)
    (stays : ∀ permuted, (∀ name ∈ identifiers, permuted name = name) →
      program.mapParts (.renamed permuted) = program)
    (translates : program.translate.run (parsedContext lastId) = .ok (made, final))
    (resolves : program.resolve.run (parsedContext lastId) = .ok (resolved, context))
    {other : Text → Text} (agree : ∀ name ∈ identifiers, change name = other name) :
    renameCode (Text.internal change context.nextName) made =
      renameCode (Text.internal other context.nextName) made := by
  have fixed : ∀ permuted, Text.Permutes permuted → (∀ name ∈ identifiers, permuted name = name) →
      renameCode (Text.internal permuted context.nextName) made = made := by
    intro permuted permutes leaves
    have alike := translate_permuted isPlain permutes lastId
    rw [stays permuted leaves, translates] at alike
    rcases alike with ⟨_, _, _, same, runs⟩
    rw [resolves] at same
    cases same
    injection runs with runs
    exact (congrArg Prod.fst runs).symm
  have unchanged : renameCode (Text.internal id context.nextName) made = made :=
    fixed id ⟨Function.injective_id, fun _ isPlain => isPlain, rfl⟩ fun _ _ => rfl
  rw [renameCode_eq_iff]
  intro name mem
  refine Text.internal_congr (fun permuted permutes leaves => ?_) agree
  have same := (fixed permuted permutes leaves).trans unchanged.symm
  rw [renameCode_eq_iff] at same
  rw [same name mem, Text.internal_id]

end Program

/-! ### Sources -/

/-- The identifiers of a source, in order. -/
def Lexer.identifiers (source : Text) : List Text :=
  ((Lexer.lex source).tokens.filter (·.kind = .identifier)).map Token.literal

/-- The identifiers among the tokens are not empty, and the end of a source is none of them. -/
theorem Lexer.ne_nil_of_mem_lexFrom (cursor : Cursor) :
    (∀ token ∈ (lexFrom cursor).tokens, token.kind = .identifier → token.literal ≠ []) ∧
      ∀ token, (lexFrom cursor).ending = .ok token → token.kind ≠ .identifier := by
  fun_induction lexFrom cursor with
  | case1 cursor token next reads shorter lexed ih =>
      refine ⟨List.forall_mem_cons.2 ⟨fun isIdentifier => ?_, ih.1⟩, ih.2⟩
      rcases Cursor.exists_of_read_token reads with ⟨lead, rest, lexeme, -, found, -, rfl⟩
      have isKind : lexeme.kind = .identifier := isIdentifier
      have fits := fits_of_lexeme? found
      change lexeme.literal ≠ []
      rw [fits.literal, isKind]
      exact List.cons_ne_nil _ _
  | case2 cursor token next reads =>
      refine ⟨by simp, fun other same => ?_⟩
      cases same
      rw [(Cursor.rest_of_read_endOfInput reads).2]
      simp
  | case3 cursor next reads => exact ⟨by simp, by simp⟩

namespace Program

variable {source : Text} {program : Program} {lastId : Nat}

/-- What holds of the identifiers of a source holds of the names in its tree. -/
theorem named_of_parse (parses : parse source = .ok (program, lastId)) {isName : Text → Prop}
    (areNames : ∀ name ∈ Lexer.identifiers source, isName name) :
    program.Forall (Origin.parts ⟨fun _ => True, isName⟩) := by
  have ending := (Lexer.ne_nil_of_mem_lexFrom (.start source)).2
  have isFrom : (⟨(Lexer.lex source).tokens, (Lexer.lex source).ending, 0⟩ : ParseState).IsFrom
      ⟨fun _ => True, isName⟩ := by
    refine ⟨fun token mem => ⟨trivial, fun isIdentifier => areNames _ ?_⟩, fun _ _ _ _ => trivial,
      fun token isEnd => ⟨trivial, fun isIdentifier => absurd isIdentifier (ending token isEnd)⟩,
      (Lexer.lex_isLexed source).ending_ne_string⟩
    exact List.mem_map_of_mem (List.mem_filter.2 ⟨mem, by simpa using isIdentifier⟩)
  rw [parse_eq_ofLexed] at parses
  exact ((written_of_ofLexed isFrom).1 program lastId parses).1

/-- A compilation of a source with other identifiers fails alike, or gives the same code and frames
with the other names in them. The names drawn by resolution are those of the objects in the source
that have no linkage, so a name with a number changes along if its number is below those that are
left then. Later numbers are those of temporaries, strings and labels, which stay. -/
theorem translate_renamed (parses : parse source = .ok (program, lastId)) {change : Text → Text}
    (areNames : ∀ name ∈ Lexer.identifiers source, (change name).IsPlain ∧ change name ≠ [])
    (apart : ∀ left ∈ Lexer.identifiers source, ∀ right ∈ Lexer.identifiers source,
      change left = change right → left = right) :
    match program.translate.run (parsedContext lastId) with
    | .ok ((linear, assembly), _) => ∃ resolved context final,
        program.resolve.run (parsedContext lastId) = .ok (resolved, context) ∧
          (program.mapParts (.renamed change)).translate.run (parsedContext lastId) =
            .ok ((linear.rename (Text.internal change context.nextName),
              assembly.rename (Text.internal change context.nextName)), final)
    | .error failure => ∃ other,
        (program.mapParts (.renamed change)).translate.run (parsedContext lastId) = .error other ∧
          other.Resembles failure := by
  have isIdentifier : ∀ name ∈ Lexer.identifiers source, name.IsPlain ∧ name ≠ [] := by
    intro name mem
    rcases List.mem_map.1 mem with ⟨token, isToken, rfl⟩
    rcases List.mem_filter.1 isToken with ⟨mem, isIdentifier⟩
    exact ⟨(Lexer.isPlain_of_mem_lexFrom (.start source)).1 token mem (by simpa using isIdentifier),
      (Lexer.ne_nil_of_mem_lexFrom (.start source)).1 token mem (by simpa using isIdentifier)⟩
  have isPlain : program.Forall Origin.plain.parts :=
    named_of_parse parses fun name mem => (isIdentifier name mem).1
  have agrees {first second : Text → Text}
      (agree : ∀ name ∈ Lexer.identifiers source, first name = second name) :
      program.mapParts (.renamed first) = program.mapParts (.renamed second) :=
    (TreeMap.renamed_agrees agree).program (named_of_parse parses fun _ => id)
  rcases Text.exists_permutes isIdentifier areNames apart with ⟨permuted, permutes, agree⟩
  have alike := translate_permuted isPlain permutes lastId
  rw [agrees agree] at alike
  cases translates : program.translate.run (parsedContext lastId) with
  | error failure =>
      rw [translates] at alike
      exact alike
  | ok made =>
      rcases made with ⟨made, after⟩
      rw [translates] at alike
      rcases alike with ⟨resolved, context, final, resolves, runs⟩
      have stays : ∀ permuted, (∀ name ∈ Lexer.identifiers source, permuted name = name) →
          program.mapParts (.renamed permuted) = program := by
        intro permuted leaves
        have same : program.mapParts (.renamed permuted) = program.mapParts (.renamed id) :=
          agrees leaves
        rw [same, TreeMap.renamed_id, mapParts_identity]
      rw [renameCode_congr isPlain stays translates resolves agree] at runs
      exact ⟨resolved, context, final, resolves, runs⟩

/-- Objects that are called like temporaries and strings trade their names. -/
theorem translate_renamed_tmp :
    ∃ (change : Text → Text) (program : Program) (lastId : Nat) (linear : LinearProgram)
      (assembly : Assembly) (after context final : Context) (resolved : Program),
      change "tmp" = "string" ∧ change "string" = "tmp" ∧ change "loop" = "loop" ∧
        parse "char *tmp = \"a\"; int loop(int string) \x7b return -string; \x7d" =
          .ok (program, lastId) ∧
        program.translate.run (parsedContext lastId) = .ok ((linear, assembly), after) ∧
        program.resolve.run (parsedContext lastId) = .ok (resolved, context) ∧
        (program.mapParts (.renamed change)).translate.run (parsedContext lastId) =
          .ok ((linear.rename (Text.internal change context.nextName),
            assembly.rename (Text.internal change context.nextName)), final) := by
  let change : Text → Text := Equiv.swap (Text.ofString "tmp") "string"
  let source : Text := "char *tmp = \"a\"; int loop(int string) \x7b return -string; \x7d"
  have succeeds : succeedsWith
      (fun parsed => succeedsWith (fun _ => true)
        (parsed.1.translate.run (parsedContext parsed.2)))
      (parse source) := by
    decide +kernel
  have areNames : ∀ name ∈ Lexer.identifiers source,
      (change name).IsPlain ∧ change name ≠ [] := by
    unfold Text.IsPlain
    decide +kernel
  rcases exists_of_succeedsWith succeeds with ⟨⟨program, lastId⟩, parses, translated⟩
  rcases exists_of_succeedsWith translated with ⟨⟨⟨linear, assembly⟩, after⟩, translates, -⟩
  have alike := translate_renamed parses areNames fun _ _ _ _ => (Equiv.injective _ ·)
  rw [translates] at alike
  rcases alike with ⟨resolved, context, final, resolves, runs⟩
  exact ⟨change, program, lastId, linear, assembly, after, context, final, resolved,
    by decide +kernel, by decide +kernel, by decide +kernel, parses, translates, resolves, runs⟩

end Program

end SubsetC
