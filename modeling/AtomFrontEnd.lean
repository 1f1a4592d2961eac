import AtomFrontEnd.Token.Kind
import AtomFrontEnd.Token
import AtomFrontEnd.Token.Sequence
import AtomFrontEnd.Text.CharClass
import AtomFrontEnd.Source.Piece
import AtomFrontEnd.Source.Lexer
import AtomFrontEnd.Grammar
import AtomFrontEnd.Recognizer.Rules
import AtomFrontEnd.Recognizer.Run
import AtomFrontEnd.Recognizer.Totality
import AtomFrontEnd.Recognizer.Machine
import AtomFrontEnd.Verdict
import AtomFrontEnd.Parser
import AtomFrontEnd.Report
import AtomFrontEnd.Report.Event
import AtomFrontEnd.Report.Console
import AtomFrontEnd.CommandLine
import AtomFrontEnd.Main
import AtomFrontEnd.Proofs.Refusal
import AtomFrontEnd.Proofs.Recall
import AtomFrontEnd.Proofs.Language
import AtomFrontEnd.Proofs.Opening
import AtomFrontEnd.Proofs.Slice
import AtomFrontEnd.Proofs.Execution
import AtomFrontEnd.Proofs.DanglingElse
import AtomFrontEnd.Proofs.Prediction
import AtomFrontEnd.Proofs.Declaration
import AtomFrontEnd.Proofs.Exactness
import AtomFrontEnd.Proofs.Acceptance
import AtomFrontEnd.Proofs.Farthest
import AtomFrontEnd.Proofs.Stall
import AtomFrontEnd.Proofs.Independence
import AtomFrontEnd.Proofs.Reachable
import AtomFrontEnd.Proofs.Confinement
import AtomFrontEnd.Proofs.Lockstep
import AtomFrontEnd.Proofs.Termination
import AtomFrontEnd.Proofs.Lexeme
import AtomFrontEnd.Proofs.StructTypes
import AtomFrontEnd.Proofs.Munch
import AtomFrontEnd.Proofs.Printing
import AtomFrontEnd.Proofs.Composition
import AtomFrontEnd.Proofs.Lines
import AtomFrontEnd.Proofs.Operators
import AtomFrontEnd.Proofs.Probe
import AtomFrontEnd.Proofs.Rest
import AtomFrontEnd.Proofs.Retreat
import AtomFrontEnd.Proofs.Thrift
import AtomFrontEnd.Proofs.Amortization
import AtomFrontEnd.Proofs.Blanking
import AtomFrontEnd.Proofs.ExternalForm
import AtomFrontEnd.Proofs.Completion
import AtomFrontEnd.Proofs.Contract
import AtomFrontEnd.Proofs.Maximality
import AtomFrontEnd.Proofs.Memory
