import ProgramControl.Completion.Courier
import ProgramControl.Completion.Envelope
import ProgramControl.Completion.JobPosition
import ProgramControl.Completion.LineOutput
import ProgramControl.Completion.Queue
import ProgramControl.Completion.Traffic
import ProgramControl.Console.Arguments
import ProgramControl.Console.Command
import ProgramControl.Console.Session
import ProgramControl.Console.Storage
import ProgramControl.Console.Visit
import ProgramControl.Directive
import ProgramControl.Dispatch.System
import ProgramControl.Dispatch.Unwinding
import ProgramControl.Floor
import ProgramControl.Json.Numeral
import ProgramControl.Json.Reader
import ProgramControl.Json.Value
import ProgramControl.Log
import ProgramControl.Main
import ProgramControl.Motion
import ProgramControl.Program.Course
import ProgramControl.Program.Transition
import ProgramControl.Proofs.Completion.Attempts
import ProgramControl.Proofs.Completion.Backoff
import ProgramControl.Proofs.Completion.Conservation
import ProgramControl.Proofs.Completion.Death
import ProgramControl.Proofs.Completion.Draining
import ProgramControl.Proofs.Completion.EnvelopeCodec
import ProgramControl.Proofs.Completion.EnvelopeText
import ProgramControl.Proofs.Completion.ExactlyOnce
import ProgramControl.Proofs.Completion.JobHistory
import ProgramControl.Proofs.Completion.Lines
import ProgramControl.Proofs.Completion.Order
import ProgramControl.Proofs.Completion.Redelivery
import ProgramControl.Proofs.Completion.Restart
import ProgramControl.Proofs.Console.Decoding
import ProgramControl.Proofs.Console.Duties
import ProgramControl.Proofs.Console.InOrder
import ProgramControl.Proofs.Console.Passage
import ProgramControl.Proofs.Console.Reader
import ProgramControl.Proofs.Console.Rest
import ProgramControl.Proofs.Dispatch.Aftermath
import ProgramControl.Proofs.Dispatch.Burial
import ProgramControl.Proofs.Dispatch.Linearization
import ProgramControl.Proofs.Dispatch.SingleCall
import ProgramControl.Proofs.Dispatch.Standstill
import ProgramControl.Proofs.Json.Grammar
import ProgramControl.Proofs.Json.Spelling
import ProgramControl.Proofs.Motion.Counting
import ProgramControl.Proofs.Program.Barrier
import ProgramControl.Proofs.Program.Completions
import ProgramControl.Proofs.Program.Edges
import ProgramControl.Proofs.Program.FailingOutputs
import ProgramControl.Proofs.Program.History
import ProgramControl.Proofs.Program.Interruption
import ProgramControl.Proofs.Program.OptionalStop
import ProgramControl.Proofs.Program.Play
import ProgramControl.Proofs.Program.Record
import ProgramControl.Proofs.Program.Watch
import ProgramControl.Proofs.Roster.Admission
import ProgramControl.Proofs.Settings.Arrangement
import ProgramControl.Proofs.Settings.Registration
import ProgramControl.Proofs.Text.Words
import ProgramControl.Proofs.Toml.DocumentText
import ProgramControl.Proofs.Toml.QuotedText
import ProgramControl.Refusal
import ProgramControl.Rehearsal.Bench
import ProgramControl.Rehearsal.Consignee
import ProgramControl.Rehearsal.DeliveryRun
import ProgramControl.Rehearsal.DispatchRun
import ProgramControl.Rehearsal.ProgramRun
import ProgramControl.Roster
import ProgramControl.RunState
import ProgramControl.Settings.Basic
import ProgramControl.Settings.Document
import ProgramControl.Settings.Source
import ProgramControl.Settings.Written
import ProgramControl.Simulation
import ProgramControl.StepSet
import ProgramControl.Text.Blank
import ProgramControl.Text.Number
import ProgramControl.Text.Quoted
import ProgramControl.Toml.Quoted
import ProgramControl.Toml.Reader
import ProgramControl.Toml.Scalar
import ProgramControl.Toml.Table
import ProgramControl.Wire
import ProgramControl.Workshop
import ProgramControl.Proofs.Console.Settling
