import ByteMachine.Byte
import ByteMachine.Text.WhiteSpace
import ByteMachine.Text.Lines
import ByteMachine.Text.Escape
import ByteMachine.Journal
import ByteMachine.Memory
import ByteMachine.Memory.Dump
import ByteMachine.Registers
import ByteMachine.Flags
import ByteMachine.Instruction
import ByteMachine.Code
import ByteMachine.Sink
import ByteMachine.Fault
import ByteMachine.Machine
import ByteMachine.Machine.Deed
import ByteMachine.Machine.Outcome
import ByteMachine.Machine.Step
import ByteMachine.Machine.Run
import ByteMachine.Listing.Numeral
import ByteMachine.Listing.Defect
import ByteMachine.Listing.Line
import ByteMachine.Listing.Reader
import ByteMachine.Listing
import ByteMachine.Storage
import ByteMachine.Storage.Folder
import ByteMachine.Listing.Loading
import ByteMachine.Text.Integer
import ByteMachine.Text.Paragraph
import ByteMachine.CommandLine.Usage
import ByteMachine.CommandLine.Token
import ByteMachine.CommandLine.Arguments
import ByteMachine.Session
import ByteMachine.CommandLine
import ByteMachine.Demo
import ByteMachine.Main
import ByteMachine.Proofs.Listing.Line
import ByteMachine.Proofs.Text.Lines
import ByteMachine.Proofs.Text.Words
import ByteMachine.Proofs.Listing.Reading
import ByteMachine.Proofs.Machine.Execute
import ByteMachine.Proofs.Machine.Step
import ByteMachine.Proofs.Sink
import ByteMachine.Proofs.Machine.Failure
import ByteMachine.Proofs.Machine.Steps
import ByteMachine.Proofs.Machine.Table
import ByteMachine.Proofs.Machine.Commands
import ByteMachine.Proofs.Machine.Run
import ByteMachine.Proofs.Machine.Stack
import ByteMachine.Proofs.Machine.StraightLine
import ByteMachine.Proofs.Machine.Result
import ByteMachine.Proofs.Machine.Calls
import ByteMachine.Proofs.Machine.Halting
import ByteMachine.Proofs.Machine.Limit
import ByteMachine.Proofs.Machine.Iteration
import ByteMachine.Proofs.Machine.Stores
import ByteMachine.Proofs.Machine.Footprint
import ByteMachine.Proofs.Machine.Comparisons
import ByteMachine.Proofs.Listing.Layout
import ByteMachine.Proofs.Listing.Rendering
import ByteMachine.Proofs.Listing.Transcript
import ByteMachine.Proofs.Machine.Printing
import ByteMachine.Proofs.Session
import ByteMachine.Proofs.Loading
import ByteMachine.Proofs.CommandLine
import ByteMachine.Proofs.CommandLine.Arguments
import ByteMachine.Proofs.Listing.Concatenation
import ByteMachine.Proofs.Machine.Journal
import ByteMachine.Proofs.Machine.Output
import ByteMachine.Proofs.Machine.Arithmetic
import ByteMachine.Proofs.Machine.Encoding
import ByteMachine.Proofs.Memory.Dump
