import TinyLisp.Main
import TinyLisp.Value.Sequence
import TinyLisp.Proofs.Console.Ending
import TinyLisp.Proofs.Console.Lines
import TinyLisp.Proofs.Evaluation.Arithmetic
import TinyLisp.Proofs.Evaluation.Clauses
import TinyLisp.Proofs.Evaluation.Congruence
import TinyLisp.Proofs.Evaluation.Hygiene
import TinyLisp.Proofs.Evaluation.Operands
import TinyLisp.Proofs.Evaluation.Termination
import TinyLisp.Proofs.Heap.Log
import TinyLisp.Proofs.Interpreter.Chunks
import TinyLisp.Proofs.Interpreter.Grounded
import TinyLisp.Proofs.Interpreter.Objects
import TinyLisp.Proofs.Reading.Layout
import TinyLisp.Proofs.Reading.Numbers
import TinyLisp.Proofs.Reading.Places
import TinyLisp.Proofs.Reading.Quoting
import TinyLisp.Proofs.Reading.Viable
