import SubsetC.Proofs.UsedObjects

/-!
# Definite assignment

What the code of a function reads on a path is a string, or has been declared in the source, or has
been written before on the path. A temporary is neither of the first two, so it is never read before
it is written. The paths include those that a switch takes into the middle of a loop, and those that
leave out one branch of a conditional.
-/

namespace SubsetC

/-! ### The functions of a compilation unit -/

namespace Context

variable {context after : Context} {definitions : List (FunDecl × List Item)}
  {functions : List Function}

theorem DeliversFunction.appends {definition : FunDecl × List Item} {function : Function}
    (delivers : context.DeliversFunction definition function after) : context.Appends after :=
  delivers.body.appends

theorem DeliversAll.appends (delivers : context.DeliversAll definitions functions after) :
    context.Appends after := by
  induction delivers with
  | nil => exact .refl _
  | cons head _ ih => exact head.appends.trans ih

/-- Every function has been made from a definition, at some point between the two contexts. -/
theorem DeliversAll.exists_of_mem (delivers : context.DeliversAll definitions functions after)
    {function : Function} (mem : function ∈ functions) :
    ∃ definition ∈ definitions, ∃ first second, context.Appends first ∧
      first.DeliversFunction definition function second ∧ second.Appends after := by
  induction delivers with
  | nil => cases mem
  | @cons first second third definition head definitions functions own rest ih =>
      rcases List.mem_cons.1 mem with rfl | mem
      · exact ⟨definition, List.mem_cons_self, first, second, .refl _, own, rest.appends⟩
      · rcases ih mem with ⟨found, isDefinition, before, behind, appends, delivers, more⟩
        exact ⟨found, List.mem_cons_of_mem _ isDefinition, before, behind,
          own.appends.trans appends, delivers, more⟩

end Context

theorem Program.labels_subset {program : Program} {definition : FunDecl × List Item}
    (mem : definition ∈ program.definitions) : Item.labelsList definition.2 ⊆ program.labels := by
  rcases List.mem_filterMap.1 mem with ⟨decl, declMem, isDefinition⟩
  cases decl with
  | object | function => cases isDefinition
  | definition decl bodyLoc body =>
      cases isDefinition
      exact fun label isLabel => List.mem_flatMap.2 ⟨_, declMem, isLabel⟩

/-! ### Paths -/

/-- At the labels of a tree no more need be written than is known from the start, as lowering draws
other labels. -/
theorem Context.Delivers.exists_defines {low high : Nat}
    {labels marked inputs calls outputs : List Text} {context after : Context} {code : Code}
    (delivers : context.Delivers labels inputs calls code outputs after) (known : Set Text)
    (isMarked : Text.Marked low high marked) (subset : labels ⊆ marked)
    (le : high ≤ context.nextName) (strings : Text.strings ⊆ known)
    (given : ∀ name ∈ inputs, name ∈ known) :
    ∃ owed, Code.Defines owed (known ∪ {name | name ∈ outputs}) known code := by
  classical
  rcases delivers.defines known strings given with ⟨own, defines⟩
  refine ⟨fun label => if label ∈ labels then known else own label, defines _ ?_ ?_⟩
  · intro number label above _ marks
    refine if_neg fun isLabel => ?_
    rcases isMarked.marks label (subset isLabel) with ⟨other, _, below, others⟩
    have same := marks.unique others
    omega
  · exact fun label isLabel => if_pos isLabel

namespace Program

/-- What is read on a path through a function is a string, has a symbol since before lowering, or
is written before on the path. -/
theorem Analysed.written_of_path {program : Program} {context final : Context}
    {linear : LinearProgram} (analysed : program.Analysed context)
    (lowers : program.lower.run context = .ok (linear, final)) {function : Function}
    (mem : function ∈ linear.functions) {trace : List Instruction} {instruction : Instruction}
    {rest : Code} (path : Code.Path function.body trace (instruction :: rest)) :
    ∀ name ∈ instruction.reads, name ∈ Text.strings ∨ (context.symbols.find? name).isSome ∨
      ∃ earlier ∈ trace, name ∈ earlier.writes := by
  intro name isRead
  rcases (analysed.lower_delivers.of_ok lowers).exists_of_mem mem with
    ⟨definition, isDefinition, first, second, appends, delivers, _⟩
  rcases analysed.marked with ⟨low, marked⟩
  let known := Text.strings ∪ {name | name ∈ Item.usesList definition.2}
  rcases delivers.body.exists_defines known marked (labels_subset isDefinition)
    appends.le Set.subset_union_left fun name mem => .inr mem with ⟨owed, defines⟩
  rcases defines.written_of_path path isRead with (isString | isUsed) | written
  · exact .inl isString
  · rcases Explicit.uses analysed.explicit definition isDefinition name isUsed with
      ⟨type, hasType, _⟩
    exact .inr (.inl hasType.isSome)
  · exact .inr (.inr written)

end Program

/-- The name is that of a temporary drawn in the context or later. -/
def Context.IsTemporary (context : Context) (name : Text) : Prop :=
  ∃ number, context.nextName ≤ number ∧ name = Text.numbered "tmp" number

theorem Context.IsTemporary.not_string {context : Context} {name : Text}
    (isTemporary : context.IsTemporary name) : name ∉ Text.strings := by
  rcases isTemporary with ⟨number, _, rfl⟩
  rintro ⟨other, same⟩
  exact absurd (Text.numbered_inj same).1 (by decide)

/-- Names in the symbol table have been drawn before. -/
theorem Context.IsTemporary.find? {context : Context} {name : Text}
    (isTemporary : context.IsTemporary name) (tidy : context.Tidy) :
    context.symbols.find? name = none := by
  rcases isTemporary with ⟨number, le, rfl⟩
  have isNumbered := Text.isNumbered_numbered "tmp" number
  by_contra present
  rcases tidy _ (Option.isSome_iff_ne_none.2 present) with plain | earlier
  · exact isNumbered.not_plain plain
  · exact earlier.ne isNumbered le rfl

namespace Program

/-- On every path through a function that a parsed and accepted source is lowered to, a temporary
that is read has been written before. -/
theorem temporary_written_of_lower {source : Text} {program analysed : Program} {lastId : Nat}
    {context final : Context} {linear : LinearProgram}
    (parses : Program.parse source = .ok (program, lastId))
    (accepts : program.analyze.run (parsedContext lastId) = .ok (analysed, context))
    (lowers : analysed.lower.run context = .ok (linear, final)) {function : Function}
    (mem : function ∈ linear.functions) {trace : List Instruction} {instruction : Instruction}
    {rest : Code} (path : Code.Path function.body trace (instruction :: rest)) {name : Text}
    (isRead : name ∈ instruction.reads) (isTemporary : context.IsTemporary name) :
    ∃ earlier ∈ trace, name ∈ earlier.writes := by
  have isAnalysed := analysed_of_parse parses accepts
  rcases isAnalysed.written_of_path lowers mem path name isRead with
    isString | isDeclared | written
  · exact absurd isString isTemporary.not_string
  · rw [isTemporary.find? isAnalysed.valid.tidy] at isDeclared
    cases isDeclared
  · exact written

/-- A case inside a loop: the switch goes past the test of the loop, and the result of the
conditional is written on the way that leaves out its first branch. -/
theorem temporary_written_of_lower_loop :
    ∃ program lastId analysed context linear final function trace instruction rest name,
      Program.parse
          "int f(int a, int b) { switch (a) { default: while (b) case 1: b = a ? b - 1 : a; } }" =
          .ok (program, lastId) ∧
        program.analyze.run (parsedContext lastId) = .ok (analysed, context) ∧
        analysed.lower.run context = .ok (linear, final) ∧ function ∈ linear.functions ∧
        Code.Path function.body trace (instruction :: rest) ∧ trace.length = 5 ∧
        name ∈ instruction.reads ∧ context.IsTemporary name ∧
        ∃ earlier ∈ trace, name ∈ earlier.writes := by
  let code : Code :=
    [.binary (.compare .equal) (.var "a.0") (.constant (.int 1)) (.var "tmp.4"),
      .jumpIfNotZero (.var "tmp.4") "case_loop_2_1",
      .jump "default_loop_2",
      .label "default_loop_2",
      .label "continue_loop_3",
      .jumpIfZero (.var "b.1") "break_loop_3",
      .label "case_loop_2_1",
      .jumpIfZero (.var "a.0") "cond_else_5",
      .binary (.arith .sub) (.var "b.1") (.constant (.int 1)) (.var "tmp.7"),
      .copy (.var "tmp.7") (.var "tmp.6"),
      .jump "cond_end_5",
      .label "cond_else_5",
      .copy (.var "a.0") (.var "tmp.6"),
      .label "cond_end_5",
      .copy (.var "tmp.6") (.var "b.1"),
      .jump "continue_loop_3",
      .label "break_loop_3",
      .label "break_loop_2",
      .ret (.constant (.int 0))]
  have computed : succeedsWith (fun parsed => succeedsWith (fun analysed => succeedsWith
        (fun lowered => analysed.2.nextName = 4 ∧ lowered.1.functions.map Function.body = [code])
        (analysed.1.lower.run analysed.2)) (parsed.1.analyze.run (parsedContext parsed.2)))
      (Program.parse
        "int f(int a, int b) { switch (a) { default: while (b) case 1: b = a ? b - 1 : a; } }")
      := by
    decide +kernel
  rcases exists_of_succeedsWith computed with ⟨⟨program, lastId⟩, parses, computed⟩
  rcases exists_of_succeedsWith computed with ⟨⟨analysed, context⟩, accepts, computed⟩
  rcases exists_of_succeedsWith computed with ⟨⟨linear, final⟩, lowers, computed⟩
  rcases of_decide_eq_true computed with ⟨four, bodies⟩
  rcases List.map_eq_singleton_iff.1 bodies with ⟨function, single, same⟩
  have mem : function ∈ linear.functions := by simp [single]
  have path : Code.Path code
      [.label "cond_end_5", .copy (.var "a.0") (.var "tmp.6"),
        .jumpIfZero (.var "a.0") "cond_else_5", .jumpIfNotZero (.var "tmp.4") "case_loop_2_1",
        .binary (.compare .equal) (.var "a.0") (.constant (.int 1)) (.var "tmp.4")]
      (.copy (.var "tmp.6") (.var "b.1") :: code.drop 15) :=
    ((((Code.Path.start.step (.next rfl)).step (.jump rfl rfl)).step (.jump rfl rfl)).step
      (.next rfl)).step (.next rfl)
  have isTemporary : context.IsTemporary "tmp.6" :=
    ⟨6, (Nat.le_of_eq four).trans (by decide), by decide⟩
  have isRead : ("tmp.6" : Text) ∈ (Instruction.copy (.var "tmp.6") (.var "b.1")).reads := by
    decide
  rw [← same] at path
  exact ⟨program, lastId, analysed, context, linear, final, function, _, _, _, _, parses, accepts,
    lowers, mem, path, rfl, isRead, isTemporary,
    temporary_written_of_lower parses accepts lowers mem path isRead isTemporary⟩

end Program

end SubsetC
