import LineBasic.Main
import LineBasic.Proofs.Session.Scripted
import LineBasic.Token.Cursor
import LineBasic.Tree.Reader
import LineBasic.Proofs.Tree.Parsing
import LineBasic.Proofs.Session.NestedAnswer
import LineBasic.Proofs.Session.Interruption
import LineBasic.Proofs.Session.Compiling
import LineBasic.Proofs.Session.Jump
import LineBasic.Proofs.Session.Bisection
import LineBasic.Proofs.Session.Transcript
import LineBasic.Proofs.Session.Sound
import LineBasic.Proofs.Session.Calls
import LineBasic.Proofs.Runner.Deadline
import LineBasic.Proofs.Driver.FileRun
import LineBasic.Proofs.Runner.Cancelling
import LineBasic.Proofs.Token.Rendering
import LineBasic.Proofs.Token.Account
import LineBasic.Proofs.Session.Answering
import LineBasic.Proofs.Session.Interjection
import LineBasic.Proofs.Session.Typing
import LineBasic.Proofs.Session.Listing
import LineBasic.Proofs.Session.Edits
import LineBasic.Proofs.Session.Evaluating
import LineBasic.Proofs.Session.Faulting
import LineBasic.Proofs.Session.Forward
import LineBasic.Proofs.Driver.Prompting
import LineBasic.Proofs.Runner.Blocking
import LineBasic.Proofs.Session.LetterCase
import LineBasic.Proofs.Tree.Refusal
import LineBasic.Proofs.Driver.Console
import LineBasic.Proofs.Driver.Timeout
import LineBasic.Proofs.Driver.Loading
import LineBasic.Proofs.Number.Retyping
