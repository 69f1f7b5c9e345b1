import InjectionGrammar.Config.Printer
import InjectionGrammar.Main
import InjectionGrammar.Proofs.Builder.Ambiguity
import InjectionGrammar.Proofs.Builder.Distinction
import InjectionGrammar.Proofs.Builder.Targets
import InjectionGrammar.Proofs.Program.Check
import InjectionGrammar.Proofs.Program.ExitStatus
import InjectionGrammar.Proofs.Program.Frame
import InjectionGrammar.Proofs.Program.Isolation
import InjectionGrammar.Proofs.Builder.Order
import InjectionGrammar.Proofs.Grammar.Stability
import InjectionGrammar.Proofs.Registry.Precedence
import InjectionGrammar.Proofs.Pattern.Capture
import InjectionGrammar.Proofs.Program.Layering
import InjectionGrammar.Proofs.Grammar.Writing
import InjectionGrammar.Proofs.Registry.Faults
import InjectionGrammar.Proofs.Selector.Clauses
import InjectionGrammar.Proofs.Loading.Fallback
import InjectionGrammar.Proofs.Json.Lines
import InjectionGrammar.Proofs.Grammar.Canonical
import InjectionGrammar.Proofs.Grammar.MemberOrder
import InjectionGrammar.Proofs.CommandLine.Writing
import InjectionGrammar.Proofs.Program.Warnings
import InjectionGrammar.Proofs.Yaml.Lexing
import InjectionGrammar.Proofs.Yaml.Scalar.Quoted
import InjectionGrammar.Proofs.Config.RoundTrip
import InjectionGrammar.Proofs.Registry.RoundTrip
