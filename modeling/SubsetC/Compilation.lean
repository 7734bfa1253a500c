import SubsetC.Analysis
import SubsetC.Assembly
import SubsetC.Ast.Parser
import SubsetC.Ast.Printer
import SubsetC.Lowering

/-!
# Compilation

A compilation takes a source through the stages one after the other, up to the stage it is asked
to stop after. It reports the stages that were completed, and either what the last stage made or
why a stage failed. All of a source is lexed before any of it is parsed.
-/

namespace SubsetC

inductive Stage where
  | lex
  | parse
  | validate
  | lower
  | assemble
  | emit
  deriving DecidableEq, Repr

namespace Stage

def text : Stage → Text
  | .lex => "lex"
  | .parse => "parse"
  | .validate => "validate"
  | .lower => "tacky"
  | .assemble => "codegen"
  | .emit => "emit"

/-- All stages in order. -/
def all : List Stage := [.lex, .parse, .validate, .lower, .assemble, .emit]

end Stage

/-- What stages start from and make. -/
inductive Artifact where
  /-- The source, before any stage. -/
  | source (bytes : Text)
  /-- The tokens and the end of the source, after lexing. -/
  | tokens (front : List Token) (ending : Token)
  /-- The tree, after parsing. -/
  | tree (program : Program)
  /-- The analysed tree, after validation. -/
  | analysed (program : Program)
  /-- The lowered compilation unit. -/
  | linear (program : LinearProgram)
  /-- The assembled compilation unit, before and after it is emitted. -/
  | assembly (items : Assembly)

/-- The line that shows a token. -/
def Token.line (token : Token) : Text :=
  token.span.text ++ " " ++ token.kind.text ++ " " ++ Text.quote token.literal ++ "\n"

namespace Artifact

/-- The tokens of a source, none of which is illegal. -/
def ofSource (source : Text) : Except Failure Artifact :=
  let lexed := Lexer.lex source
  match lexed.illegal?, lexed.ending with
  | some illegal, _ =>
    .error (.user illegal.span (.syntactic (.invalidToken illegal.literal)))
  | none, .error overrun => .error (.fault (.overrun overrun.length))
  | none, .ok ending => .ok (.tokens lexed.tokens ending)

/-- The tree of tokens, whose nodes are the first in the context. -/
def ofTokens (tokens : List Token) (ending : Token) : Pass Artifact := do
  let stream := TokenStream.ofTokens (tokens ++ [ending])
  let (program, lastId) ← (Program.ofStream stream : Except Failure (Program × Nat))
  modify fun context => { context with lastId }
  pure (.tree program)

/-- What the next stage makes of an artifact. Emission adds nothing to assembly. -/
def next : Artifact → Pass Artifact
  | .source bytes => (ofSource bytes : Except Failure Artifact)
  | .tokens front ending => ofTokens front ending
  | .tree program => do pure (.analysed (← program.analyze))
  | .analysed program => do pure (.linear (← program.lower))
  | .linear program => do
    let table := (← get).symbols
    pure (.assembly (← (program.assemble table : Except Failure Assembly)))
  | .assembly items => pure (.assembly items)

/-- The text that shows an artifact. -/
def text : Artifact → Text
  | .source bytes => bytes
  | .tokens front ending => (front ++ [ending]).flatMap Token.line
  | .tree program | .analysed program => Program.text program
  | .linear program => LinearProgram.text program
  | .assembly items => Assembly.text items

/-- The texts of the frames, once they are laid out. -/
def frameTexts? : Artifact → Option (List Text)
  | .assembly items => some (Assembly.frameTexts items)
  | _ => none

end Artifact

/-- What a compilation leaves behind. -/
structure Product where
  stage : Stage
  artifact : Artifact
  /-- The shared state after it. -/
  context : Context

/-- The course of a compilation. -/
structure Compilation where
  /-- The completed stages, in order. -/
  stages : List Stage
  /-- What the last stage left behind, or why a stage failed. -/
  outcome : Except Failure Product

namespace Compilation

/-- Runs stages in order through the one to stop after. -/
def run (stop : Stage) : List Stage → Product → Compilation
  | [], product => ⟨[], .ok product⟩
  | stage :: stages, product =>
    match product.artifact.next.run product.context with
    | .error failure => ⟨[], .error failure⟩
    | .ok (artifact, context) =>
      let product := ⟨stage, artifact, context⟩
      if stage = stop then ⟨[stage], .ok product⟩
      else
        let rest := run stop stages product
        { rest with stages := stage :: rest.stages }

end Compilation

/-- Compiles a source through the stage to stop after. -/
def compile (stop : Stage) (source : Text) : Compilation :=
  Compilation.run stop Stage.all ⟨.lex, .source source, .empty⟩

end SubsetC
