import SubsetC.Token.Stream
import SubsetC.Main
import SubsetC.Proofs.Outcome
import SubsetC.Proofs.Explicit
import SubsetC.Proofs.TreeNames
import SubsetC.Proofs.Parsing
import SubsetC.Proofs.Scoping
import SubsetC.Proofs.Labelling
import SubsetC.Proofs.ExprTyping
import SubsetC.Proofs.InitTyping
import SubsetC.Proofs.DeclTyping
import SubsetC.Proofs.StmtTyping
import SubsetC.Proofs.Acceptance
import SubsetC.Proofs.TypedCode
import SubsetC.Proofs.ExprCode
import SubsetC.Proofs.StmtCode
import SubsetC.Proofs.Arithmetic
import SubsetC.Proofs.Machine
import SubsetC.Proofs.TreeSemantics
import SubsetC.Proofs.ExprSimulation
import SubsetC.Proofs.StmtSimulation
import SubsetC.Proofs.SwitchSimulation
import SubsetC.Proofs.FunctionSimulation
import SubsetC.Proofs.LabelNames
import SubsetC.Proofs.CodeLabels
import SubsetC.Proofs.CompilationFailures
import SubsetC.Proofs.BoundLabels
import SubsetC.Proofs.CheckedLabels
import SubsetC.Proofs.Folding
import SubsetC.Proofs.FoldedValues
import SubsetC.Proofs.ControlFlow
import SubsetC.Proofs.Refinement
import SubsetC.Proofs.ExprProgress
import SubsetC.Proofs.Progress
import SubsetC.Proofs.ConstantCode
import SubsetC.Proofs.Visibility
import SubsetC.Proofs.LexicalScoping
import SubsetC.Proofs.Sizes
import SubsetC.Proofs.Mentions
import SubsetC.Proofs.FrameLayout
import SubsetC.Proofs.Entries
import SubsetC.Proofs.StaticLayout
import SubsetC.Proofs.ByteImage
import SubsetC.Proofs.InitialImage
import SubsetC.Proofs.Reading
import SubsetC.Proofs.TypeSpelling
import SubsetC.Proofs.DeclaratorSpelling
import SubsetC.Proofs.ExprSpelling
import SubsetC.Proofs.ExprReading
import SubsetC.Proofs.StmtSpelling
import SubsetC.Proofs.DeclReading
import SubsetC.Proofs.StmtReading
import SubsetC.Proofs.TokenSpans
import SubsetC.Proofs.JoinedSources
import SubsetC.Proofs.Consumption
import SubsetC.Proofs.TokenLists
import SubsetC.Proofs.TokenStreams
import SubsetC.Proofs.StreamParsing
import SubsetC.Proofs.ParserRounds
import SubsetC.Proofs.EagerLexing
import SubsetC.Proofs.LiteralForms
import SubsetC.Proofs.ParserLoops
import SubsetC.Proofs.ConstantExpressions
import SubsetC.Proofs.WrittenNames
import SubsetC.Proofs.AppendedSymbols
import SubsetC.Proofs.Delivery
import SubsetC.Proofs.ExprDelivery
import SubsetC.Proofs.StmtDelivery
import SubsetC.Proofs.UsedObjects
import SubsetC.Proofs.DefiniteAssignment
import SubsetC.Proofs.Erasure
import SubsetC.Proofs.SymbolSteps
import SubsetC.Proofs.CheckSteps
import SubsetC.Proofs.LinkedSymbols
import SubsetC.Proofs.ResolvedCalls
import SubsetC.Proofs.CallOrder
import SubsetC.Proofs.LocalObjects
import SubsetC.Proofs.ProgramClosure
import SubsetC.Proofs.TreeParts
import SubsetC.Proofs.NodeNumbers
import SubsetC.Proofs.WrittenTrees
import SubsetC.Proofs.ParsedTrees
import SubsetC.Proofs.DiagnosticPlaces
import SubsetC.Proofs.Renaming
import SubsetC.Proofs.NamePermutations
import SubsetC.Proofs.AddedNodes
import SubsetC.Proofs.NodeSupply
import SubsetC.Proofs.JumpTargets
import SubsetC.Proofs.LinkedDeclarations
import SubsetC.Proofs.MergedDeclarations
import SubsetC.Proofs.MirroredPasses
import SubsetC.Proofs.RenamedScopes
import SubsetC.Proofs.RenamedTypes
import SubsetC.Proofs.RenamedSymbols
import SubsetC.Proofs.RenamedCode
import SubsetC.Proofs.RenamedFrames
import SubsetC.Proofs.Spellings
import SubsetC.Proofs.ExactFolding
import SubsetC.Proofs.CaseDispatch
import SubsetC.Proofs.ArrayTiling
import SubsetC.Proofs.Separators
import SubsetC.Proofs.NumberTokens
import SubsetC.Proofs.Overruns
import SubsetC.Proofs.Escapes
import SubsetC.Proofs.EscapedStrings
import SubsetC.Proofs.Lookahead
import SubsetC.Proofs.CalledFunctions
import SubsetC.Proofs.PrintedTypes
import SubsetC.Proofs.PrintedInstructions
import SubsetC.Proofs.FreshNames
import SubsetC.Proofs.ArtifactPaths
import SubsetC.Proofs.FileLaws
import SubsetC.Proofs.FileEffects
