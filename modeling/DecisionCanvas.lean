import DecisionCanvas.Canvas.Collection
import DecisionCanvas.Directory.Lookup
import DecisionCanvas.Main
import DecisionCanvas.Proofs.Compiled.Relocation
import DecisionCanvas.Proofs.Store.Integrity
import DecisionCanvas.Proofs.Store.Persist
import DecisionCanvas.Proofs.Compiled.Reading
import DecisionCanvas.Proofs.Compiled.References
import DecisionCanvas.Proofs.Store.RoundTrip
import DecisionCanvas.Proofs.Store.Interruption
import DecisionCanvas.Proofs.Store.ScratchIds
import DecisionCanvas.Proofs.Tree.Selection
import DecisionCanvas.Proofs.Store.Decisions
import DecisionCanvas.Proofs.Canvas.Layout
import DecisionCanvas.Proofs.Canvas.Lines
import DecisionCanvas.Proofs.Canvas.WellFormed
import DecisionCanvas.Proofs.Canvas.Moves
import DecisionCanvas.Proofs.Canvas.Reorder
import DecisionCanvas.Proofs.Canvas.NodeDrag
import DecisionCanvas.Proofs.Canvas.Ownership
import DecisionCanvas.Proofs.Canvas.Addition
import DecisionCanvas.Proofs.Canvas.Reloading
import DecisionCanvas.Proofs.Compiled.Failure
import DecisionCanvas.Proofs.Decimal.PlainText
import DecisionCanvas.Proofs.Tree.Decision
import DecisionCanvas.Proofs.Compiled.Stabilization
import DecisionCanvas.Proofs.Store.Histories
import DecisionCanvas.Proofs.Store.Stabilization
import DecisionCanvas.Proofs.Canvas.SessionCalls
import DecisionCanvas.Proofs.Canvas.OpenRows
import DecisionCanvas.Proofs.Canvas.DropPreview
import DecisionCanvas.Proofs.Store.NamedSaves
import DecisionCanvas.Proofs.Store.Script
import DecisionCanvas.Proofs.Store.Filling
import DecisionCanvas.Proofs.Store.Interleaving
import DecisionCanvas.Proofs.Compiled.RebuildChecks
import DecisionCanvas.Proofs.Compiled.Renaming
import DecisionCanvas.Proofs.Store.Attempts
import DecisionCanvas.Proofs.Store.Stored
import DecisionCanvas.Proofs.Store.Preservation
import DecisionCanvas.Proofs.Compiled.Meaning
import DecisionCanvas.Proofs.Compiled.Refusal
import DecisionCanvas.Proofs.Compiled.Faults
import DecisionCanvas.Proofs.Json.Text
import DecisionCanvas.Proofs.Compiled.Documents
import DecisionCanvas.Proofs.Canvas.Locality
import DecisionCanvas.Proofs.Canvas.Undo
import DecisionCanvas.Proofs.Canvas.RowHistory
import DecisionCanvas.Proofs.Store.StatementReferences
import DecisionCanvas.Proofs.Canvas.Refusal
import DecisionCanvas.Proofs.Store.RefusedWrites
import DecisionCanvas.Proofs.Canvas.Nearest
import DecisionCanvas.Proofs.Canvas.Snapping
import DecisionCanvas.Proofs.Canvas.Slots
import DecisionCanvas.Proofs.Canvas.KeyHistory
import DecisionCanvas.Proofs.Canvas.Panning
