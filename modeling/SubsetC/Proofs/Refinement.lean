import SubsetC.Proofs.ControlFlow
import SubsetC.Proofs.FunctionSimulation

/-!
# Lowering keeps the meaning of functions

The lowered form of a function with a structured body returns, from every store, what the execution
of the body ends with. That holds whatever happens at an operation without a result, as long as the
same happens in both.
-/

namespace SubsetC

/-- The function and its body, if the declaration is a definition. -/
def Decl.definition? : Decl → Option (FunDecl × List Item)
  | .definition decl _ body => some (decl, body)
  | .object _ | .function _ => none

/-- The functions that a compilation unit defines, in order. -/
def Program.definitions (program : Program) : List (FunDecl × List Item) :=
  program.filterMap Decl.definition?

/-- A lowered function does what a definition says, if its body is structured. -/
structure Function.Implements (table : SymbolTable) (definition : FunDecl × List Item)
    (function : Function) : Prop where
  name : function.name = definition.1.name
  params : function.params = definition.1.params.map Param.name
  /-- The function returns what the execution of the body ends with. -/
  returns : Item.areStructured false definition.2 → ∀ (gaps : Gaps) (store : Store)
    (answer : Answer), (Machine.mk table gaps).Returns function.body store answer ↔
      definition.1.Returns gaps definition.2 store answer

theorem FunDecl.lower_signature {decl : FunDecl} {body : List Item} {context : Context} :
    Yields (decl.lower body) context fun function _ =>
      function.name = decl.name ∧ function.params = decl.params.map Param.name := by
  unfold FunDecl.lower
  exact Ensures.bind_any fun _ _ => Ensures.bind_any fun _ _ => Ensures.bind_any fun _ _ =>
    Ensures.pure ⟨rfl, rfl⟩

/-- The lowered function implements its definition, once its labels are known to be different. -/
theorem FunDecl.lower_implements {context : Context} (tidy : context.Tidy) {decl : FunDecl}
    {bodyLoc : Loc} {body : List Item}
    (explicit : (Decl.definition decl bodyLoc body).Explicit context.symbols)
    (bound : Item.BoundList SwitchCase.Denotes .none body) :
    Yields (decl.lower body) context fun function after => function.labels.Nodup →
      ∀ table : SymbolTable, table.Extends after.symbols →
        function.Implements table (decl, body) := by
  by_cases structured : Item.areStructured false body
  · refine (FunDecl.lower_signature.and
      (FunDecl.lower_returns tidy explicit structured bound)).mono ?_
    rintro function after ⟨⟨name, params⟩, returns⟩ nodup table extension
    exact ⟨name, params, fun _ gaps => returns nodup ⟨table, gaps⟩ extension⟩
  · refine FunDecl.lower_signature.mono ?_
    rintro function after ⟨name, params⟩ _ table _
    exact ⟨name, params, fun isStructured => absurd isStructured structured⟩

namespace Program

theorem lowerFunctions_implements : ∀ (program : Program) {context : Context}, context.Tidy →
    program.Explicit context.symbols → program.Bound SwitchCase.Denotes →
    Yields program.lowerFunctions context fun functions after =>
      (functions.flatMap Function.labels).Nodup → ∀ table : SymbolTable,
        table.Extends after.symbols →
        List.Forall₂ (Function.Implements table) program.definitions functions
  | [], context, _, _, _ => by
      rw [lowerFunctions]
      exact Ensures.pure fun _ _ _ => .nil
  | .definition decl bodyLoc body :: decls, context, tidy, explicit, bound => by
      rcases List.forall_mem_cons.1 explicit with ⟨head, tail⟩
      rcases List.forall_mem_cons.1 bound with ⟨bodyBound, declsBound⟩
      rw [lowerFunctions]
      refine ((FunDecl.lower_yields tidy head).and
        (FunDecl.lower_implements tidy head bodyBound)).bind ?_
      rintro function between ⟨⟨grows, _⟩, implements⟩
      have tidy' : between.Tidy := grows.tidy tidy (by simp)
      have rest : Program.Explicit between.symbols decls :=
        fun decl mem => (tail decl mem).extend grows.extends_
      refine ((lowerFunctions_yields decls tidy' rest).and
        (lowerFunctions_implements decls tidy' rest declsBound)).bind ?_
      rintro functions after ⟨⟨restGrows, _⟩, restImplement⟩
      refine Ensures.pure ?_
      intro nodup table extension
      rw [List.flatMap_cons, List.nodup_append] at nodup
      exact .cons (implements nodup.1 table (extension.trans restGrows.extends_))
        (restImplement nodup.2.1 table extension)
  | .object decl :: decls, context, tidy, explicit, bound
  | .function decl :: decls, context, tidy, explicit, bound => by
      rcases List.forall_mem_cons.1 explicit with ⟨_, tail⟩
      rcases List.forall_mem_cons.1 bound with ⟨_, declsBound⟩
      rw [lowerFunctions]
      · exact lowerFunctions_implements decls tidy tail declsBound
      · simp

theorem Analysed.lower_implements {program : Program} {context : Context}
    (analysed : program.Analysed context) :
    Yields program.lower context fun linear final =>
      List.Forall₂ (Function.Implements final.symbols) program.definitions linear.functions := by
  have implement := lower_functions (lowerFunctions_implements program analysed.valid.tidy
    analysed.explicit analysed.bound)
  refine (analysed.lower_closed.and implement).mono ?_
  rintro linear final ⟨⟨nodup, _⟩, implement⟩
  exact implement nodup final.symbols (.refl _)

/-- The functions that a parsed and accepted source is lowered to implement its definitions, one
after the other: a structured body, executed from any store, ends with an answer if and only if the
code returns that answer. -/
theorem implements_of_lower {source : Text} {program analysed : Program} {lastId : Nat}
    {context final : Context} {linear : LinearProgram}
    (parses : Program.parse source = .ok (program, lastId))
    (accepts : program.analyze.run (parsedContext lastId) = .ok (analysed, context))
    (lowers : analysed.lower.run context = .ok (linear, final)) :
    List.Forall₂ (Function.Implements final.symbols) analysed.definitions linear.functions :=
  (analysed_of_parse parses accepts).lower_implements.of_ok lowers

/-- A loop around a switch with stacked cases that fall through to the default. -/
theorem implements_of_lower_loop :
    ∃ program lastId analysed context linear final,
      Program.parse
        "int f(int a) { do switch (a) { case 1: case 2: a += 2; default: a++; } while (a < 9); }" =
          .ok (program, lastId) ∧
        program.analyze.run (parsedContext lastId) = .ok (analysed, context) ∧
        analysed.lower.run context = .ok (linear, final) ∧
        (∃ decl body, analysed.definitions = [(decl, body)] ∧ Item.areStructured false body) ∧
        List.Forall₂ (Function.Implements final.symbols) analysed.definitions
          linear.functions := by
  have computed : succeedsWith (fun parsed => succeedsWith (fun analysed => succeedsWith
        (fun _ => analysed.1.definitions.length = 1 ∧
          ∀ definition ∈ analysed.1.definitions, Item.areStructured false definition.2)
        (analysed.1.lower.run analysed.2)) (parsed.1.analyze.run (parsedContext parsed.2)))
      (Program.parse
        "int f(int a) { do switch (a) { case 1: case 2: a += 2; default: a++; } while (a < 9); }")
      := by
    decide +kernel
  rcases exists_of_succeedsWith computed with ⟨⟨program, lastId⟩, parses, computed⟩
  rcases exists_of_succeedsWith computed with ⟨⟨analysed, context⟩, accepts, computed⟩
  rcases exists_of_succeedsWith computed with ⟨⟨linear, final⟩, lowers, computed⟩
  rcases of_decide_eq_true computed with ⟨single, structured⟩
  rcases List.length_eq_one_iff.1 single with ⟨⟨decl, body⟩, single⟩
  have structured : Item.areStructured false body := by
    simpa using structured (decl, body) (by simp [single])
  exact ⟨program, lastId, analysed, context, linear, final, parses, accepts, lowers,
    ⟨decl, body, single, structured⟩, implements_of_lower parses accepts lowers⟩

end Program

end SubsetC
