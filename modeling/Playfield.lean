import Playfield.Saved
import Playfield.Tick
import Playfield.View.Edit
import Playfield.View.Text
import Playfield.Proofs.Board
import Playfield.Proofs.Bookkeeping
import Playfield.Proofs.Motion
import Playfield.Proofs.Reachability
import Playfield.Proofs.GreatestMove
import Playfield.Proofs.Tapes
import Playfield.Proofs.Layout
import Playfield.Proofs.RoundTrip
import Playfield.Proofs.Alike
import Playfield.Proofs.Simulation
import Playfield.Proofs.Materialise
import Playfield.Proofs.RuleBooks
import Playfield.Proofs.Expansion
import Playfield.Proofs.Packing
import Playfield.Proofs.Grammar
import Playfield.Proofs.Sheets
import Playfield.Proofs.Acceptance
import Playfield.Proofs.Equivariance
import Playfield.Proofs.Authoring
import Playfield.Proofs.Reload
import Playfield.Proofs.Idle
import Playfield.Proofs.Frames
import Playfield.Proofs.SavedRuns
import Playfield.Proofs.Histories
import Playfield.Proofs.Editing
import Playfield.Proofs.Removal
import Playfield.Proofs.Exchange
import Playfield.Proofs.Readings
import Playfield.Proofs.Course
import Playfield.Proofs.Reports
import Playfield.Proofs.Muting
import Playfield.Proofs.Suspension
import Playfield.Proofs.Delimiting
import Playfield.Proofs.Writings
import Playfield.Proofs.Readback
import Playfield.Proofs.LoadOrder
import Playfield.Proofs.Reckonings
import Playfield.Proofs.SavedRules
import Playfield.Proofs.Faultless
import Playfield.Proofs.Guards
import Playfield.Proofs.Firings
import Playfield.Proofs.Arrivals
import Playfield.Proofs.Candidates
import Playfield.Proofs.Turning
import Playfield.Proofs.TurnedMotion
import Playfield.Proofs.Reinterpretation
import Playfield.Proofs.Sweeps
import Playfield.Proofs.Rearrangement
import Playfield.Proofs.Locality
import Playfield.Proofs.Coasting
import Playfield.Proofs.SpriteIds
import Playfield.Proofs.Ceilings
import Playfield.Proofs.Portals
import Playfield.Proofs.Deeds
import Playfield.Proofs.Confinement
import Playfield.Proofs.Announcements
import Playfield.Proofs.Counts
import Playfield.Proofs.Playback
import Playfield.Proofs.PackedDemands
import Playfield.Proofs.Backgrounds
