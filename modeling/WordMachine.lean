import WordMachine.Main
import WordMachine.Tool.Folder
import WordMachine.Proofs.Assembly.BareLabels
import WordMachine.Proofs.Assembly.Disassembled
import WordMachine.Proofs.Assembly.Edited
import WordMachine.Proofs.Assembly.Joined
import WordMachine.Proofs.Assembly.Labels
import WordMachine.Proofs.Assembly.Numbers
import WordMachine.Proofs.Assembly.Overrun
import WordMachine.Proofs.Assembly.Recased
import WordMachine.Proofs.Assembly.Relocated
import WordMachine.Proofs.Assembly.Tokens
import WordMachine.Proofs.Assembly.Unseen
import WordMachine.Proofs.Encoding.Parts
import WordMachine.Proofs.Machine.Session
import WordMachine.Proofs.Machine.Fibonacci
import WordMachine.Proofs.Machine.Shift
import WordMachine.Proofs.Machine.Unread
import WordMachine.Proofs.Source.Spelling
import WordMachine.Proofs.Tool.Address
import WordMachine.Proofs.Tool.Showing
