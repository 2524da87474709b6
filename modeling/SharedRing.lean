import SharedRing.Exchange
import SharedRing.Main
import SharedRing.Session
import SharedRing.Proofs.Places
import SharedRing.Proofs.Plans
import SharedRing.Proofs.Unread
import SharedRing.Proofs.Bounds
import SharedRing.Proofs.Handover
import SharedRing.Proofs.Interleaving
import SharedRing.Proofs.Queue
import SharedRing.Proofs.SharedHeader
import SharedRing.Proofs.Stream
import SharedRing.Proofs.Agreement
import SharedRing.Proofs.Isolation
import SharedRing.Proofs.Fields
import SharedRing.Proofs.FileFormat
import SharedRing.Proofs.Tampering
import SharedRing.Proofs.Restart
import SharedRing.Proofs.Laps
import SharedRing.Proofs.Recovery
import SharedRing.Proofs.Notices
import SharedRing.Proofs.Progress
import SharedRing.Proofs.Amounts
import SharedRing.Proofs.Footprint
import SharedRing.Proofs.InPlace
import SharedRing.Proofs.Pieces
import SharedRing.Proofs.Turns
import SharedRing.Proofs.Promises
import SharedRing.Proofs.Configuration
import SharedRing.Proofs.Bindings
import SharedRing.Proofs.Verdicts
import SharedRing.Proofs.Overlay
import SharedRing.Proofs.FlowControl
import SharedRing.Proofs.Cleanup
import SharedRing.Proofs.Tiling
