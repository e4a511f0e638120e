import ParseListeners.Session
import ParseListeners.Proofs.Sequencing
import ParseListeners.Proofs.Turns
import ParseListeners.Proofs.Accounting
import ParseListeners.Proofs.Uniform
import ParseListeners.Proofs.Delivery
import ParseListeners.Proofs.Construction
import ParseListeners.Proofs.Nesting
import ParseListeners.Proofs.Flattening
import ParseListeners.Proofs.Memories
import ParseListeners.Proofs.Success
import ParseListeners.Proofs.Echo
import ParseListeners.Proofs.Courses
import ParseListeners.Proofs.Agreement
import ParseListeners.Proofs.Footprint
import ParseListeners.Proofs.Rewriting
import ParseListeners.Proofs.Neutral
import ParseListeners.Proofs.Steps
import ParseListeners.Proofs.Collecting
import ParseListeners.Proofs.Acceptance
import ParseListeners.Proofs.Exactness
import ParseListeners.Proofs.Tracing
import ParseListeners.Proofs.Lines
import ParseListeners.Proofs.Histories
import ParseListeners.Proofs.TokenText
import ParseListeners.Proofs.Messages
import ParseListeners.Proofs.Records
import ParseListeners.Proofs.Sources
import ParseListeners.Proofs.Listings
import ParseListeners.Proofs.Gathering
import ParseListeners.Proofs.Reordering
import ParseListeners.Proofs.Pushes
import ParseListeners.Proofs.PlacedText
