import SystemsLang.Analysis
import SystemsLang.Layout.Outline
import SystemsLang.Layout.Source
import SystemsLang.Token.Listing
import SystemsLang.Proofs.Grammar.Expr
import SystemsLang.Proofs.Parsing.Run
import SystemsLang.Proofs.Grammar.Program
import SystemsLang.Proofs.Parsing.CompleteType
import SystemsLang.Proofs.Parsing.Extensions
import SystemsLang.Proofs.Parsing.CompleteExpr
import SystemsLang.Proofs.Parsing.CompleteStmt
import SystemsLang.Proofs.Parsing.CompleteProgram
import SystemsLang.Proofs.Parsing.SoundType
import SystemsLang.Proofs.Parsing.SoundExpr
import SystemsLang.Proofs.Parsing.SoundStmt
import SystemsLang.Proofs.Parsing.SoundProgram
import SystemsLang.Proofs.Parsing.Recognition
import SystemsLang.Proofs.Layout.Nesting
import SystemsLang.Proofs.Layout.Spellable
import SystemsLang.Proofs.Layout.Spelling
import SystemsLang.Proofs.Layout.DerivesExpr
import SystemsLang.Proofs.Layout.DerivesProgram
import SystemsLang.Proofs.Layout.Joined
import SystemsLang.Proofs.Layout.JoinedExpr
import SystemsLang.Proofs.Layout.JoinedLines
import SystemsLang.Proofs.Layout.RoundTrip
import SystemsLang.Proofs.Typing.Decisions
import SystemsLang.Proofs.Typing.RuleChecks
import SystemsLang.Proofs.Typing.TypedExpr
import SystemsLang.Proofs.Typing.Passes
import SystemsLang.Proofs.Typing.TypedStmt
import SystemsLang.Proofs.Typing.FirstPass
import SystemsLang.Proofs.Typing.KnownTypes
import SystemsLang.Proofs.Typing.SecondPass
import SystemsLang.Proofs.Typing.WellTyped
import SystemsLang.Proofs.Parsing.Height
import SystemsLang.Proofs.Typing.Faultless
import SystemsLang.Proofs.Typing.Relabeling
import SystemsLang.Proofs.Typing.RelabeledExpr
import SystemsLang.Proofs.Typing.RelabeledProgram
import SystemsLang.Proofs.Typing.Unplacing
import SystemsLang.Proofs.Layout.Diagnostics
import SystemsLang.Proofs.Layout.ThinningProgram
import SystemsLang.Proofs.Typing.Blurred
import SystemsLang.Proofs.Typing.Misnamed
import SystemsLang.Proofs.Typing.MisnamedStmt
import SystemsLang.Proofs.Typing.MisnamedProgram
import SystemsLang.Proofs.Scanning.Gaps
import SystemsLang.Proofs.Scanning.Lossless
import SystemsLang.Proofs.Scanning.Munch
import SystemsLang.Proofs.Parsing.Lockstep
import SystemsLang.Proofs.Parsing.Moved
import SystemsLang.Proofs.Parsing.Respaced
import SystemsLang.Proofs.Scanning.Restarts
import SystemsLang.Proofs.Scanning.Escaped
import SystemsLang.Proofs.Layout.Concatenated
import SystemsLang.Proofs.Outline.Identified
import SystemsLang.Proofs.Typing.Agreeing
import SystemsLang.Proofs.Typing.Renamed
import SystemsLang.Proofs.Typing.Reordered
import SystemsLang.Proofs.Typing.Independent
import SystemsLang.Proofs.Typing.SessionProgram
import SystemsLang.Proofs.Typing.ControlFlow
import SystemsLang.Proofs.Typing.LexicalExpr
import SystemsLang.Proofs.Typing.LexicalDecl
import SystemsLang.Proofs.Typing.LexicalProgram
import SystemsLang.Proofs.Typing.LexicalReports
import SystemsLang.Proofs.Typing.Components
import SystemsLang.Proofs.Typing.Coercions
import SystemsLang.Proofs.Typing.DefiniteTypes
import SystemsLang.Proofs.Parsing.Settled
import SystemsLang.Proofs.Parsing.SettledExpr
import SystemsLang.Proofs.Parsing.SettledProgram
import SystemsLang.Proofs.Parsing.FirstError
import SystemsLang.Proofs.Parsing.FirstEnding
import SystemsLang.Proofs.Parsing.Room
import SystemsLang.Proofs.Scanning.OpenLiterals
import SystemsLang.Proofs.Typing.Names
import SystemsLang.Proofs.Typing.SameNames
import SystemsLang.Proofs.Typing.StructLiterals
import SystemsLang.Proofs.Layout.Indentation
import SystemsLang.Proofs.Parsing.Walk
import SystemsLang.Proofs.Parsing.Tracks
import SystemsLang.Proofs.Parsing.TracksExpr
import SystemsLang.Proofs.Parsing.TracksProgram
import SystemsLang.Proofs.Typing.Grounded
import SystemsLang.Proofs.Typing.Points
import SystemsLang.Proofs.Typing.GroundedProgram
