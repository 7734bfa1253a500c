import SubsetC.Proofs.DefiniteAssignment
import SubsetC.Proofs.LinkedSymbols
import SubsetC.Proofs.ResolvedCalls

/-!
# Calls are made once and in order

The code of a function calls exactly the functions that the body of its definition calls, in the
order in which a reader meets them. Lowering keeps the calls of an analysed tree, and so do the
check of types and labelling. Resolution might replace the name of what is called by that of an
object, which has a dot; but the check of types refuses a call of what is no function.
-/

namespace SubsetC

/-! ### Definitions and functions -/

/-- The functions that each function of a compilation unit calls, in order. -/
def Program.calls (program : Program) : List (Text × List Text) :=
  program.definitions.map fun definition => (definition.1.name, Item.callsList definition.2)

/-- The functions that the code of each function calls, in order. -/
def LinearProgram.calls (program : LinearProgram) : List (Text × List Text) :=
  program.functions.map fun function => (function.name, Code.callees function.body)

theorem LinearProgram.mem_functions {linear : LinearProgram} {function : Function} :
    function ∈ linear.functions ↔ .function function ∈ linear := by
  simp only [LinearProgram.functions, List.mem_filterMap]
  constructor
  · rintro ⟨item, mem, isFunction⟩
    cases item with
    | function own =>
        cases isFunction
        exact mem
    | object | constant => cases isFunction
  · exact fun mem => ⟨_, mem, rfl⟩

namespace FunDecl.Resolved

variable {definitions resolved checked : List (FunDecl × List Item)}

theorem all_alike (areResolved : List.Forall₂ Resolved definitions resolved)
    (alike : List.Forall₂ Alike resolved checked) : List.Forall₂ Resolved definitions checked := by
  induction areResolved generalizing checked with
  | nil =>
      cases alike
      exact .nil
  | cons head _ ih =>
      rcases alike with _ | ⟨headAlike, alike⟩
      exact .cons ⟨headAlike.name.trans head.name, headAlike.body.calls ▸ head.calls⟩ (ih alike)

/-- Definitions whose calls are plain have kept them. -/
theorem all_eq (areResolved : List.Forall₂ Resolved definitions resolved)
    (plain : ∀ definition ∈ resolved, ∀ name ∈ Item.callsList definition.2, name.IsPlain) :
    resolved.map (fun definition => (definition.1.name, Item.callsList definition.2)) =
      definitions.map fun definition => (definition.1.name, Item.callsList definition.2) := by
  induction areResolved with
  | nil => rfl
  | cons head _ ih =>
      rcases List.forall_mem_cons.1 plain with ⟨isPlain, plain⟩
      rw [List.map_cons, List.map_cons, head.name, Text.ResolvesTo.all_eq head.calls isPlain,
        ih plain]

end FunDecl.Resolved

/-- The code of each function calls what the body of its definition calls. -/
theorem Context.DeliversAll.calls {context after : Context}
    {definitions : List (FunDecl × List Item)} {functions : List Function}
    (delivers : context.DeliversAll definitions functions after) :
    functions.map (fun function => (function.name, Code.callees function.body)) =
      definitions.map fun definition => (definition.1.name, Item.callsList definition.2) := by
  induction delivers with
  | nil => rfl
  | cons head _ ih => rw [List.map_cons, List.map_cons, head.name, head.body.callees, ih]

/-- Well-typed code calls functions. -/
theorem Code.WellTyped.callees {table : SymbolTable} {result : CType} {code : Code}
    (wellTyped : Code.WellTyped table result code) :
    ∀ name ∈ Code.callees code, ∃ parameters callResult,
      table.HasFunction name parameters callResult := by
  intro name mem
  rcases List.mem_filterMap.1 mem with ⟨instruction, isInstruction, isCall⟩
  have isWellTyped := wellTyped instruction isInstruction
  cases instruction with
  | call function arguments target =>
      cases isCall
      rcases isWellTyped with ⟨parameters, callResult, hasFunction, _⟩
      exact ⟨parameters, callResult, hasFunction⟩
  | _ => cases isCall

/-! ### Lowered compilation units -/

namespace Program

/-- The definitions that are checked are those of the source, up to the choice of internal names. -/
theorem prepare_definitions (program : Program) {context : Context} :
    Yields (program.resolve >>= label) context fun labelled _ =>
      List.Forall₂ FunDecl.Resolved program.definitions labelled.definitions := by
  have resolves : Yields program.resolve context fun resolved _ =>
      List.Forall₂ FunDecl.Resolved program.definitions resolved.definitions :=
    resolveFrom_definitions program nofun
  refine resolves.bind ?_
  intro resolved between areResolved
  refine (label_definitions resolved).mono ?_
  exact fun labelled after alike => FunDecl.Resolved.all_alike areResolved alike

/-- What is known of a lowered compilation unit and its symbol table. -/
structure Lowered (program analysed : Program) (context : Context) (linear : LinearProgram)
    (final : Context) : Prop where
  /-- The tree is analysed. -/
  isAnalysed : analysed.Analysed context
  /-- Its definitions are those of the source. -/
  resolved : List.Forall₂ FunDecl.Resolved program.definitions analysed.definitions
  /-- The declarations of the checked tree are in the table. -/
  settled : ∃ labelled, program.Settled context labelled analysed
  /-- What the functions mention, call and write. -/
  delivers : context.DeliversAll analysed.definitions linear.functions final
  /-- Their code is well typed. -/
  wellTyped : ∀ function ∈ linear.functions, function.WellTyped final.symbols

theorem lowered_of_parse {source : Text} {program analysed : Program} {lastId : Nat}
    {context final : Context} {linear : LinearProgram}
    (parses : Program.parse source = .ok (program, lastId))
    (accepts : program.analyze.run (parsedContext lastId) = .ok (analysed, context))
    (lowers : analysed.lower.run context = .ok (linear, final)) :
    program.Lowered analysed context linear final := by
  have isAnalysed := analysed_of_parse parses accepts
  have fresh : (parsedContext lastId).symbols = .empty := rfl
  rcases (analyze_settles (isSource_of_parse parses) fresh).of_ok accepts with
    ⟨labelled, middle, prepares, settled⟩
  refine ⟨isAnalysed, ?_, ⟨labelled, settled⟩, isAnalysed.lower_delivers.of_ok lowers, ?_⟩
  · exact FunDecl.Resolved.all_alike ((prepare_definitions program).of_ok prepares) settled.alike
  · intro function mem
    exact (lower_yields isAnalysed.valid.tidy isAnalysed.explicit).of_ok lowers function
      (LinearProgram.mem_functions.1 mem)

namespace Lowered

variable {program analysed : Program} {context final : Context} {linear : LinearProgram}

/-- The table is in order behind lowering as well. -/
theorem linked (lowered : program.Lowered analysed context linear final) : final.Linked := by
  rcases lowered.settled with ⟨labelled, settled⟩
  exact lowered.delivers.appends.linked settled.linked

/-- What is called is a function of the symbol table. -/
theorem callees (lowered : program.Lowered analysed context linear final) {function : Function}
    (mem : function ∈ linear.functions) {name : Text}
    (isCalled : name ∈ Code.callees function.body) :
    ∃ parameters result, final.symbols.HasFunction name parameters result := by
  rcases lowered.wellTyped function mem with ⟨_, _, _, _, wellTyped⟩
  exact wellTyped.callees name isCalled

theorem calls_plain (lowered : program.Lowered analysed context linear final) :
    ∀ definition ∈ analysed.definitions, ∀ name ∈ Item.callsList definition.2, name.IsPlain := by
  intro definition mem name isCalled
  have isListed : (definition.1.name, Item.callsList definition.2) ∈ linear.calls := by
    rw [LinearProgram.calls, lowered.delivers.calls]
    exact List.mem_map_of_mem mem
  rcases List.mem_map.1 isListed with ⟨function, isFunction, same⟩
  rw [← (Prod.mk.inj same).2] at isCalled
  rcases lowered.callees isFunction isCalled with ⟨_, _, symbol, found, _, isFunctionKind⟩
  rcases (SymbolTable.find?_eq_some_iff lowered.linked.nodup).1 found with ⟨isRow, rfl⟩
  exact ((lowered.linked.rows symbol isRow).function isFunctionKind).2

end Lowered

/-- The functions that a parsed and accepted source is lowered to are those it defines, and each
calls the functions that its body calls in the source, as often and in that order. -/
theorem calls_of_lower {source : Text} {program analysed : Program} {lastId : Nat}
    {context final : Context} {linear : LinearProgram}
    (parses : Program.parse source = .ok (program, lastId))
    (accepts : program.analyze.run (parsedContext lastId) = .ok (analysed, context))
    (lowers : analysed.lower.run context = .ok (linear, final)) :
    linear.calls = analysed.calls ∧ analysed.calls = program.calls := by
  have lowered := lowered_of_parse parses accepts lowers
  exact ⟨lowered.delivers.calls, FunDecl.Resolved.all_eq lowered.resolved lowered.calls_plain⟩

/-- Calls in all clauses of a loop and in both branches of a conditional. The call in the operand of
sizeof is not made. -/
theorem calls_of_lower_loop :
    ∃ program lastId analysed context linear final,
      Program.parse
          "int f(int); int g(int a) { for (f(0); g(a); g(f(1))) a = a ? g(sizeof f(2)) : f(3); }" =
          .ok (program, lastId) ∧
        program.analyze.run (parsedContext lastId) = .ok (analysed, context) ∧
        analysed.lower.run context = .ok (linear, final) ∧
        linear.calls = ([("g", ["f", "g", "g", "f", "f", "g"])] : List (Text × List Text)) ∧
        linear.calls = analysed.calls ∧ analysed.calls = program.calls := by
  have computed : succeedsWith (fun parsed => succeedsWith (fun analysed => succeedsWith
        (fun lowered => LinearProgram.calls lowered.1 =
          ([("g", ["f", "g", "g", "f", "f", "g"])] : List (Text × List Text)))
        (analysed.1.lower.run analysed.2)) (parsed.1.analyze.run (parsedContext parsed.2)))
      (Program.parse
        "int f(int); int g(int a) { for (f(0); g(a); g(f(1))) a = a ? g(sizeof f(2)) : f(3); }")
      := by
    decide +kernel
  rcases exists_of_succeedsWith computed with ⟨⟨program, lastId⟩, parses, computed⟩
  rcases exists_of_succeedsWith computed with ⟨⟨analysed, context⟩, accepts, computed⟩
  rcases exists_of_succeedsWith computed with ⟨⟨linear, final⟩, lowers, computed⟩
  exact ⟨program, lastId, analysed, context, linear, final, parses, accepts, lowers,
    of_decide_eq_true computed, calls_of_lower parses accepts lowers⟩

end Program

end SubsetC
