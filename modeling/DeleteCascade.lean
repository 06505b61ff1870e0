import DeleteCascade.CommandLine.Run
import DeleteCascade.Host.Scripted
import DeleteCascade.Json.Printer
import DeleteCascade.Main
import DeleteCascade.Proofs.Schema.Bridges
import DeleteCascade.Proofs.Synthesis.Draft
import DeleteCascade.Run.Delete
import DeleteCascade.Store.Document
import DeleteCascade.Text.Case
import DeleteCascade.Proofs.Synthesis.Plan
import DeleteCascade.Proofs.Synthesis.Body
import DeleteCascade.Proofs.Function.Registry
import DeleteCascade.Proofs.Synthesis.Program
import DeleteCascade.Proofs.Store.Statements
import DeleteCascade.Proofs.Run.Steps
import DeleteCascade.Proofs.Deletion.Closure
import DeleteCascade.Proofs.Deletion.Doom
import DeleteCascade.Proofs.Deletion.Ownership
import DeleteCascade.Proofs.Deletion.Intact
import DeleteCascade.Proofs.Deletion.Bonds
import DeleteCascade.Proofs.Deletion.Composition
import DeleteCascade.Proofs.Synthesis.Owners
import DeleteCascade.Proofs.Deletion.Sharing
import DeleteCascade.Proofs.Deletion.Depth
import DeleteCascade.Proofs.Ownership.Records
import DeleteCascade.Proofs.Synthesis.Closed
import DeleteCascade.Proofs.Synthesis.Sections
import DeleteCascade.Proofs.Deletion.Keeps
import DeleteCascade.Proofs.Deletion.Later
import DeleteCascade.Proofs.Deletion.Repetition
import DeleteCascade.Proofs.Deletion.Report
import DeleteCascade.Proofs.Deletion.Safety
import DeleteCascade.Proofs.Deletion.Visits
import DeleteCascade.Proofs.Deletion.Foresight
import DeleteCascade.Proofs.Deletion.Handover
import DeleteCascade.Proofs.Deletion.Passage
import DeleteCascade.Proofs.Deletion.SelfContained
import DeleteCascade.Proofs.Deletion.Causes
import DeleteCascade.Proofs.Deletion.Reported
import DeleteCascade.Proofs.Script.Installed
import DeleteCascade.Proofs.Deletion.Holding
import DeleteCascade.Proofs.Deletion.Confined
import DeleteCascade.Proofs.Deletion.Release
import DeleteCascade.Proofs.Deletion.Entry
import DeleteCascade.Proofs.Run.Calls
import DeleteCascade.Proofs.Run.Issued
import DeleteCascade.Proofs.Script.Calls
import DeleteCascade.Proofs.Schema.Inheritance
import DeleteCascade.Proofs.Synthesis.Inheritance
import DeleteCascade.Proofs.Synthesis.Cuts
import DeleteCascade.Proofs.Synthesis.Spelling
import DeleteCascade.Proofs.Synthesis.Roots
import DeleteCascade.Proofs.Synthesis.Blocks
import DeleteCascade.Proofs.Synthesis.Detaching
import DeleteCascade.Proofs.Synthesis.OwnerCalls
import DeleteCascade.Proofs.Deletion.Owned
import DeleteCascade.Proofs.Synthesis.CaseInsensitive
import DeleteCascade.Proofs.Synthesis.Layout
import DeleteCascade.Proofs.Synthesis.Recursion
import DeleteCascade.Proofs.Synthesis.Keys
import DeleteCascade.Proofs.Synthesis.Dispatch
import DeleteCascade.Proofs.Function.FirstFree
import DeleteCascade.Proofs.Store.Cascade
import DeleteCascade.Proofs.Store.Reordered
import DeleteCascade.Proofs.Store.Changes
import DeleteCascade.Proofs.Run.Reachable
import DeleteCascade.Proofs.Ownership.Overrides
import DeleteCascade.Proofs.Schema.Recognition
import DeleteCascade.Proofs.Function.History
import DeleteCascade.Proofs.Function.Lifecycle
import DeleteCascade.Proofs.Catalog.Placement
import DeleteCascade.Proofs.Script.Variables
import DeleteCascade.Proofs.Schema.Snapshot
import DeleteCascade.Proofs.Synthesis.CallPaths
import DeleteCascade.Proofs.Schema.ClassMaps
import DeleteCascade.Proofs.Script.Patterns
import DeleteCascade.Proofs.Catalog.Probes
import DeleteCascade.Proofs.Script.Tokens
