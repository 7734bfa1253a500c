import SubsetC.Proofs.MergedDeclarations
import SubsetC.Proofs.ProgramClosure

/-!
# The functions that code calls

Whether a function is defined is known only behind its last declaration, and calls are checked as
they are met. So a call is accepted of any function that is declared, and its symbol says in the end
whether the compilation unit defines it and whether other ones know it (`Program.callees_linked`).
A static function that is called and never defined is not refused
(`Program.calls_undefined_static`).
-/

namespace SubsetC

open LinkedDecl (original)

/-! ### Definitions among the linked declarations -/

namespace LinkedDecl

def defined (decls : List LinkedDecl) : List Text := (decls.filter isDefinition).map name

theorem defined_append (front back : List LinkedDecl) :
    defined (front ++ back) = defined front ++ defined back := by
  rw [defined, List.filter_append, List.map_append]
  rfl

theorem defined_map_original (decls : List LinkedDecl) :
    defined (decls.map original) = (defined decls).map Text.stem := by
  simp [defined, List.filter_map, Function.comp_def, isDefinition_original, name_original]

/-- A name is defined exactly if one of its declarations is a definition. -/
theorem countP_isDefinition_pos {decls : List LinkedDecl} {name : Text} :
    0 < (declaring name decls).countP isDefinition ↔ name ∈ defined decls := by
  simp only [List.countP_pos_iff, declaring, defined, List.mem_filter, List.mem_map,
    decide_eq_true_eq]
  constructor
  · rintro ⟨decl, ⟨mem, same⟩, isDefinition⟩
    exact ⟨decl, ⟨mem, isDefinition⟩, same⟩
  · rintro ⟨decl, ⟨mem, isDefinition⟩, same⟩
    exact ⟨decl, ⟨mem, same⟩, isDefinition⟩

end LinkedDecl

theorem VarDecl.defined_linkedDecls (decl : VarDecl) :
    LinkedDecl.defined decl.linkedDecls = [] := by
  unfold linkedDecls
  split <;> rfl

theorem ForInit.defined_linkedDecls (init : ForInit) :
    LinkedDecl.defined init.linkedDecls = [] := by
  cases init with
  | expression => rfl
  | declarations loc decls =>
      rw [linkedDecls]
      induction decls with
      | nil => rfl
      | cons decl decls ih =>
          rw [List.flatMap_cons, LinkedDecl.defined_append, decl.defined_linkedDecls, ih]
          rfl

mutual

/-- A flat statement declares functions and defines none. -/
theorem Stmt.defined_linkedDecls : ∀ stmt : Stmt, stmt.isFlat →
    LinkedDecl.defined stmt.linkedDecls = []
  | .ifThen _ _ body, isFlat | .whileLoop _ _ _ body, isFlat | .doWhile _ _ body _, isFlat
  | .switch _ _ _ body _, isFlat | .case _ _ _ body, isFlat | .default _ _ body, isFlat =>
      Stmt.defined_linkedDecls body isFlat
  | .ifElse _ _ thenBranch elseBranch, isFlat => by
      rw [Stmt.isFlat, Bool.and_eq_true] at isFlat
      rw [Stmt.linkedDecls, LinkedDecl.defined_append, Stmt.defined_linkedDecls thenBranch isFlat.1,
        Stmt.defined_linkedDecls elseBranch isFlat.2, List.append_nil]
  | .block _ items, areFlat => Item.defined_linkedDecls items areFlat
  | .forLoop _ _ init _ _ body, isFlat => by
      rw [Stmt.linkedDecls, LinkedDecl.defined_append, init.defined_linkedDecls,
        Stmt.defined_linkedDecls body isFlat, List.append_nil]
  | .ret _ _, _ | .expr _ _, _ | .break _ _, _ | .continue _ _, _ | .null _, _ => rfl

theorem Item.defined_linkedDecls : ∀ items : List Item, Item.areFlat items →
    LinkedDecl.defined (Item.linkedDecls items) = []
  | [], _ => rfl
  | .stmt stmt :: items, areFlat => by
      rw [Item.areFlat, Bool.and_eq_true] at areFlat
      rw [Item.linkedDecls, LinkedDecl.defined_append, Stmt.defined_linkedDecls stmt areFlat.1,
        Item.defined_linkedDecls items areFlat.2, List.append_nil]
  | .decl (.object decl) :: items, areFlat => by
      rw [Item.linkedDecls, LinkedDecl.defined_append, Item.defined_linkedDecls items areFlat,
        List.append_nil]
      exact decl.defined_linkedDecls
  | .decl (.function decl) :: items, areFlat => Item.defined_linkedDecls items areFlat
  | .decl (.definition _ _ _) :: _, areFlat => by cases areFlat

end

/-- The definitions of a compilation unit are those among its linked declarations. -/
theorem Program.defined_linkedDecls : ∀ program : Program,
    (∀ definition ∈ program.definitions, Item.areFlat definition.2) →
      LinkedDecl.defined program.linkedDecls =
        program.definitions.map fun definition => definition.1.name
  | [], _ => rfl
  | .object _ :: program, areFlat | .function _ :: program, areFlat =>
      Program.defined_linkedDecls program areFlat
  | .definition decl bodyLoc body :: program, areFlat => by
      have split : Program.definitions (.definition decl bodyLoc body :: program) =
          (decl, body) :: Program.definitions program := rfl
      rw [split, List.forall_mem_cons] at areFlat
      rw [split, List.map_cons, ← Program.defined_linkedDecls program areFlat.2, linkedDecls,
        List.flatMap_cons, LinkedDecl.defined_append, Decl.linkedDecls]
      have outside : LinkedDecl.defined (.function decl true :: Item.linkedDecls body) =
          decl.name :: LinkedDecl.defined (Item.linkedDecls body) := rfl
      rw [outside, Item.defined_linkedDecls body areFlat.1]
      rfl

/-! ### Symbols of functions -/

/-- The symbol of a function is not one that lowering enters, and its name is plain. -/
theorem Context.Appends.find?_of_function {context after : Context}
    (appends : context.Appends after) (linked : context.Linked) {name : Text} {symbol : Symbol}
    (found : after.symbols.find? name = some symbol)
    (isFunction : symbol.storage.kind = .function) :
    context.symbols.find? name = some symbol ∧ name.IsPlain := by
  rcases (SymbolTable.find?_eq_some_iff (appends.linked linked).nodup).1 found with ⟨isRow, rfl⟩
  rcases appends.rows linked.tidy with ⟨rows, same, -, auxiliary⟩
  rw [same, List.mem_append] at isRow
  have isOld : symbol ∈ context.symbols.symbols := by
    refine isRow.resolve_right fun isNew => ?_
    have isAuxiliary := auxiliary symbol isNew
    rcases symbol with ⟨name, type, storage⟩
    cases storage with
    | function => cases isAuxiliary
    | static | constant | automatic => cases isFunction
  exact ⟨(SymbolTable.find?_eq_some_iff linked.nodup).2 ⟨isOld, rfl⟩,
    ((linked.rows symbol isOld).function isFunction).2⟩

/-- What the visits to the declarations of a name declare in the source. -/
theorem Visit.declaring_source {visits : List Visit} (declare : ∀ visit ∈ visits, visit.Declares)
    (name : Text) :
    LinkedDecl.declaring name (visits.map fun visit => visit.decl.original) =
      (Visit.declaring name visits).map fun visit => visit.decl.original := by
  rw [LinkedDecl.declaring, List.filter_map, Visit.declaring]
  refine congrArg _ (List.filter_congr fun visit mem => ?_)
  rw [Function.comp_apply, LinkedDecl.name_original,
    Text.stem_of_isPlain (declare visit mem).isPlain]

/-- A function has declarations. It is defined exactly if one of them is a definition, and global
exactly if the first of them is not static. -/
theorem Symbol.Sums.function {visits : List Visit} {symbol : Symbol} (sums : symbol.Sums visits)
    (isFunction : symbol.storage.kind = .function) :
    ∃ isDefined first, symbol.storage = .function isDefined !first.decl.isStatic ∧
      (isDefined = true ↔ 0 < visits.countP fun visit => visit.decl.isDefinition) ∧
        visits.head? = some first := by
  rcases symbol with ⟨name, type, storage⟩
  cases storage with
  | static | constant | automatic => cases isFunction
  | function isDefined isGlobal =>
      rcases Option.map_eq_some_iff.1 sums.linkage.symm with ⟨first, isFirst, rfl⟩
      refine ⟨isDefined, first, rfl, ?_, isFirst⟩
      rw [sums.storage.2]
      cases isDefined <;> simp

namespace Program

variable {source : Text} {program analysed : Program} {lastId : Nat} {context final : Context}
  {linear : LinearProgram}

/-- The check of types visits all linked declarations of a source, from no symbols at all. -/
theorem symbols_sum (parses : parse source = .ok (program, lastId))
    (accepts : program.analyze.run (parsedContext lastId) = .ok (analysed, context)) :
    ∃ visits labelled, context.symbols.Sums visits ∧ (∀ visit ∈ visits, visit.Declares) ∧
      program.linkedDecls = visits.map (fun visit => visit.decl.original) ∧
      program.Settled context labelled analysed ∧
      program.linkedDecls = labelled.linkedDecls.map original := by
  have isSource := isSource_of_parse parses
  rcases (analyze_settles isSource rfl).of_ok accepts with ⟨labelled, start, prepares, settled⟩
  have checks : labelled.check.run start = .ok (analysed, context) := by
    rw [analyze_eq, StateT.run_bind, prepares] at accepts
    exact accepts
  rcases visitsAll_of_prepare parses prepares checks with ⟨all, sameDecls, nothing⟩
  refine ⟨_, labelled, all.passes.sums nothing, all.passes.declares, ?_, settled, sameDecls.symm⟩
  rw [← sameDecls, ← all.decls, List.nil_append, List.map_map]
  rfl

/-- What is defined among the linked declarations is what the definitions define. -/
theorem Settled.defined {labelled : Program} (settled : program.Settled context labelled analysed)
    (same : program.linkedDecls = labelled.linkedDecls.map original) :
    LinkedDecl.defined program.linkedDecls =
      labelled.definitions.map fun definition => definition.1.name := by
  rcases settled.prepared with ⟨_, prepared⟩
  rw [same, LinkedDecl.defined_map_original, defined_linkedDecls labelled settled.areFlat,
    List.map_map]
  refine List.map_congr_left fun definition mem => ?_
  rcases List.mem_filterMap.1 mem with ⟨decl, isDecl, isDefinition⟩
  have isPlain := (prepared.isSource decl isDecl).2
  cases decl with
  | object | function => cases isDefinition
  | definition =>
      cases isDefinition
      exact Text.stem_of_isPlain isPlain

/-- Whatever code calls has the symbol of a function. It is marked as defined exactly if it is among
the functions of the compilation unit, and as global exactly if its first declaration in the source
is not static. So what is called and not defined is a function that other compilation units know,
unless it is declared as static at first. -/
theorem callees_linked (parses : parse source = .ok (program, lastId))
    (accepts : program.analyze.run (parsedContext lastId) = .ok (analysed, context))
    (lowers : analysed.lower.run context = .ok (linear, final)) :
    ∀ function ∈ linear.functions, ∀ name ∈ Code.callees function.body,
      ∃ type isDefined first,
        final.symbols.find? name = some ⟨name, type, .function isDefined !first.isStatic⟩ ∧
        (isDefined = true ↔ name ∈ linear.functions.map Function.name) ∧
        (LinkedDecl.declaring name program.linkedDecls).head? = some first := by
  intro function mem name isCalled
  have lowered := lowered_of_parse parses accepts lowers
  rcases symbols_sum parses accepts with
    ⟨visits, labelled, sums, declare, isVisited, settled, sameDecls⟩
  rcases lowered.callees mem isCalled with ⟨_, _, symbol, found, -, isFunction⟩
  rcases lowered.delivers.appends.find?_of_function settled.linked found isFunction with
    ⟨known, isPlain⟩
  have declared := sums name isPlain
  rw [known] at declared
  rcases declared.function isFunction with ⟨isDefined, first, storage, defined, isFirst⟩
  rcases (SymbolTable.find?_eq_some_iff lowered.linked.nodup).1 found with ⟨-, rfl⟩
  have declares : LinkedDecl.declaring symbol.name program.linkedDecls =
      (Visit.declaring symbol.name visits).map fun visit => visit.decl.original := by
    rw [isVisited, Visit.declaring_source declare]
  refine ⟨symbol.type, isDefined, first.decl.original, ?_, ?_, ?_⟩
  · rw [found, LinkedDecl.isStatic_original, ← storage]
  · have counts : (LinkedDecl.declaring symbol.name program.linkedDecls).countP
        LinkedDecl.isDefinition =
          (Visit.declaring symbol.name visits).countP fun visit => visit.decl.isDefinition := by
      rw [declares, List.countP_map]
      simp only [Function.comp_def, LinkedDecl.isDefinition_original]
    rw [defined, ← counts, LinkedDecl.countP_isDefinition_pos, settled.defined sameDecls,
      lowered.names_analysed,
      map_eq_of_forall₂ settled.alike fun _ _ => FunDecl.Alike.name]
  · rw [declares, List.head?_map, isFirst]
    rfl

/-- A function that calls a static one that nobody defines, itself, and one that other compilation
units define. -/
theorem callees_linked_mixed :
    ∃ program lastId analysed context linear final,
      parse "static int f(void); int h(void); int g(void) \x7b return f() + g() + h(); \x7d" =
          .ok (program, lastId) ∧
        program.analyze.run (parsedContext lastId) = .ok (analysed, context) ∧
        analysed.lower.run context = .ok (linear, final) ∧
        linear.calls = ([("g", ["f", "g", "h"])] : List (Text × List Text)) ∧
        ∀ function ∈ linear.functions, ∀ name ∈ Code.callees function.body,
          ∃ type isDefined first,
            final.symbols.find? name = some ⟨name, type, .function isDefined !first.isStatic⟩ ∧
            (isDefined = true ↔ name ∈ linear.functions.map Function.name) ∧
            (LinkedDecl.declaring name program.linkedDecls).head? = some first := by
  have computed : succeedsWith (fun parsed => succeedsWith (fun analysed => succeedsWith
        (fun lowered => LinearProgram.calls lowered.1 =
          ([("g", ["f", "g", "h"])] : List (Text × List Text)))
        (analysed.1.lower.run analysed.2)) (parsed.1.analyze.run (parsedContext parsed.2)))
      (parse "static int f(void); int h(void); int g(void) \x7b return f() + g() + h(); \x7d") := by
    decide +kernel
  rcases exists_of_succeedsWith computed with ⟨⟨program, lastId⟩, parses, computed⟩
  rcases exists_of_succeedsWith computed with ⟨⟨analysed, context⟩, accepts, computed⟩
  rcases exists_of_succeedsWith computed with ⟨⟨linear, final⟩, lowers, computed⟩
  exact ⟨program, lastId, analysed, context, linear, final, parses, accepts, lowers,
    of_decide_eq_true computed, callees_linked parses accepts lowers⟩

/-- The call of a static function that is never defined is accepted and lowered. -/
theorem calls_undefined_static :
    ∃ program lastId analysed context linear final,
      parse "static int f(void); int main(void) \x7b return f(); \x7d" = .ok (program, lastId) ∧
        program.analyze.run (parsedContext lastId) = .ok (analysed, context) ∧
        analysed.lower.run context = .ok (linear, final) ∧
        linear.calls = ([("main", ["f"])] : List (Text × List Text)) ∧
        final.symbols.find? "f" = some ⟨"f", .function [] .int, .function false false⟩ := by
  have computed : succeedsWith (fun parsed => succeedsWith (fun analysed => succeedsWith
        (fun lowered => LinearProgram.calls lowered.1 =
            ([("main", ["f"])] : List (Text × List Text)) ∧
          lowered.2.symbols.find? "f" = some ⟨"f", .function [] .int, .function false false⟩)
        (analysed.1.lower.run analysed.2)) (parsed.1.analyze.run (parsedContext parsed.2)))
      (parse "static int f(void); int main(void) \x7b return f(); \x7d") := by
    decide +kernel
  rcases exists_of_succeedsWith computed with ⟨⟨program, lastId⟩, parses, computed⟩
  rcases exists_of_succeedsWith computed with ⟨⟨analysed, context⟩, accepts, computed⟩
  rcases exists_of_succeedsWith computed with ⟨⟨linear, final⟩, lowers, computed⟩
  rcases of_decide_eq_true computed with ⟨calls, found⟩
  exact ⟨program, lastId, analysed, context, linear, final, parses, accepts, lowers, calls, found⟩

end Program

end SubsetC
