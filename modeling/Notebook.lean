import Notebook.Main
import Notebook.Scan.Nesting
import Notebook.Session.Manager
import Notebook.Staleness.Tracker
import Notebook.Proofs.Scan.Cut
import Notebook.Proofs.Scan.UnitText
import Notebook.Proofs.Segment.Partition
import Notebook.Proofs.Guest.Cascade
import Notebook.Proofs.Guest.Chronicle
import Notebook.Proofs.Guest.Namespace
import Notebook.Proofs.Guest.Safety
import Notebook.Proofs.Guest.Standing
import Notebook.Proofs.Guest.Truth
import Notebook.Proofs.Scan.Marks
import Notebook.Proofs.Segment.Statements
import Notebook.Proofs.Session.Output
import Notebook.Proofs.Session.Problems
import Notebook.Proofs.Staleness.History
import Notebook.Proofs.Artifact.Closure
import Notebook.Proofs.Guest.Importing
import Notebook.Proofs.Session.Completion
import Notebook.Proofs.Guest.Notified
import Notebook.Proofs.Guest.Refusal
import Notebook.Proofs.Session.Activation
import Notebook.Proofs.Terminal.Prompting
import Notebook.Proofs.Artifact.Addresses
import Notebook.Proofs.Session.Instances
import Notebook.Proofs.Staleness.Causes
import Notebook.Proofs.Staleness.Removal
import Notebook.Proofs.Capability.Adding
import Notebook.Proofs.Segment.Composition
import Notebook.Proofs.Scan.Nesting
import Notebook.Proofs.Sheet.Cells
import Notebook.Proofs.Scan.Tiling
import Notebook.Proofs.Scan.Completing
import Notebook.Proofs.Text.Places
import Notebook.Proofs.Text.Blanks
import Notebook.Proofs.Syntax.Laying
import Notebook.Proofs.Syntax.Ending
import Notebook.Proofs.Syntax.Dividing
import Notebook.Proofs.Guest.Slices
import Notebook.Proofs.Display.Markup
import Notebook.Proofs.Terminal.Running
import Notebook.Proofs.Session.Offering
import Notebook.Proofs.Session.Performing
import Notebook.Proofs.Scan.Groups
import Notebook.Proofs.Guest.Templates
import Notebook.Proofs.Guest.Views
import Notebook.Proofs.Guest.Balance
import Notebook.Proofs.Guest.Arithmetic
