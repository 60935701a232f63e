import ScriptSyntax.Command.FileTree
import ScriptSyntax.Command.LogSettings
import ScriptSyntax.Main
import ScriptSyntax.Problem.Json
import ScriptSyntax.Scope.Binding
import ScriptSyntax.Scope.Json
import ScriptSyntax.Text.Name
import ScriptSyntax.Token.Precedence
import ScriptSyntax.Tree.Build
import ScriptSyntax.Tree.Constancy
import ScriptSyntax.Proofs.Lexeme.LineBreaks
import ScriptSyntax.Proofs.Lexeme.Flaws
import ScriptSyntax.Proofs.Lexeme.Faults
import ScriptSyntax.Proofs.Lexeme.Fences
import ScriptSyntax.Proofs.Lexeme.Lookahead
import ScriptSyntax.Proofs.Lexeme.Slashes
import ScriptSyntax.Proofs.Lexeme.Comments
import ScriptSyntax.Proofs.Lexeme.Strictness
import ScriptSyntax.Proofs.Lexeme.StringUnits
import ScriptSyntax.Proofs.Lexeme.Spellings
import ScriptSyntax.Proofs.Lexeme.Patterns
import ScriptSyntax.Proofs.Lexeme.Pieces
import ScriptSyntax.Proofs.Lexeme.Alone
import ScriptSyntax.Proofs.Source.Resumption
import ScriptSyntax.Proofs.Source.Locating
import ScriptSyntax.Proofs.Scanner.Run
import ScriptSyntax.Proofs.Scanner.Lines
import ScriptSyntax.Proofs.Scanner.Lossless
import ScriptSyntax.Proofs.Scanner.Trivia
import ScriptSyntax.Proofs.Scanner.Strictness
import ScriptSyntax.Proofs.Scanner.Located
import ScriptSyntax.Proofs.Scanner.Lookahead
import ScriptSyntax.Proofs.Scanner.Abreast
import ScriptSyntax.Proofs.Scanner.InStep
import ScriptSyntax.Proofs.Scanner.Translation
import ScriptSyntax.Proofs.Scanner.Chunks
import ScriptSyntax.Proofs.Scanner.Resumption
import ScriptSyntax.Proofs.Scanner.StringLiterals
import ScriptSyntax.Proofs.Scanner.Patterns
import ScriptSyntax.Proofs.Scanner.Alone
import ScriptSyntax.Proofs.Tree.Links
import ScriptSyntax.Proofs.Tree.Owned
import ScriptSyntax.Proofs.Tree.Moves
import ScriptSyntax.Proofs.Tree.Building
import ScriptSyntax.Proofs.Tree.Ancestors
import ScriptSyntax.Proofs.Tree.Operations
import ScriptSyntax.Proofs.Tree.Refusal
import ScriptSyntax.Proofs.Tree.Spans
import ScriptSyntax.Proofs.Tree.Fitting
import ScriptSyntax.Proofs.Tree.Refitting
import ScriptSyntax.Proofs.Tree.Making
import ScriptSyntax.Proofs.Tree.Coverage
import ScriptSyntax.Proofs.Tree.Traversal
import ScriptSyntax.Proofs.Tree.Walking
import ScriptSyntax.Proofs.Tree.Pruning
import ScriptSyntax.Proofs.Tree.Replacement
import ScriptSyntax.Proofs.Tree.Insertion
import ScriptSyntax.Proofs.Tree.Joining
import ScriptSyntax.Proofs.Tree.Tightening
import ScriptSyntax.Proofs.Tree.Hulls
import ScriptSyntax.Proofs.Tree.Strays
import ScriptSyntax.Proofs.Tree.Nesting
import ScriptSyntax.Proofs.Tree.Constancy
import ScriptSyntax.Proofs.Scope.Binding
import ScriptSyntax.Proofs.Scope.Reordering
import ScriptSyntax.Proofs.Scope.Pass
import ScriptSyntax.Proofs.Scope.Nearest
import ScriptSyntax.Proofs.Scope.VariableScope
import ScriptSyntax.Proofs.Number.Accumulation
import ScriptSyntax.Proofs.Lexeme.Numerals
import ScriptSyntax.Proofs.Lexeme.Radixes
import ScriptSyntax.Proofs.Scanner.Numerals
import ScriptSyntax.Proofs.Scanner.Sorts
import ScriptSyntax.Proofs.Lexeme.Maximal
import ScriptSyntax.Proofs.Scanner.Reports
import ScriptSyntax.Proofs.Scanner.LineBreaks
import ScriptSyntax.Proofs.Scanner.Maximal
import ScriptSyntax.Proofs.Scanner.Covers
import ScriptSyntax.Proofs.Text.Quoted
import ScriptSyntax.Proofs.Command.Listing
