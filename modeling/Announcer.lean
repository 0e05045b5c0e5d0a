import Announcer.Descriptor.Written
import Announcer.Simulation.Rehearsal
import Announcer.Simulation.SenderRun
import Announcer.Store
import Announcer.Settings.File
import Announcer.Proofs.Decimal
import Announcer.Proofs.Backoff
import Announcer.Proofs.Json.Printed
import Announcer.Proofs.Json.Strings
import Announcer.Proofs.Json.Numbers
import Announcer.Proofs.Json.Shape
import Announcer.Proofs.Json.Reader
import Announcer.Proofs.Json.Reread
import Announcer.Proofs.Json.Sound
import Announcer.Proofs.Config
import Announcer.Proofs.Config.Registration
import Announcer.Proofs.Config.Identity
import Announcer.Proofs.Event
import Announcer.Proofs.Event.Sendable
import Announcer.Proofs.Event.Ceiling
import Announcer.Proofs.Table.Records
import Announcer.Proofs.Table.Runs
import Announcer.Proofs.Table.Batches
import Announcer.Proofs.Table.Target
import Announcer.Proofs.Table.Keeps
import Announcer.Proofs.Table.Group
import Announcer.Proofs.Table.Permanence
import Announcer.Proofs.Table.Together
import Announcer.Proofs.Table.Bootstrap
import Announcer.Proofs.Table.Budget
import Announcer.Proofs.Worker
import Announcer.Proofs.Worker.Invariant
import Announcer.Proofs.Worker.Outstanding
import Announcer.Proofs.Worker.Stranded
import Announcer.Proofs.Worker.Deeds
import Announcer.Proofs.Worker.Together
import Announcer.Proofs.Worker.Gathering
import Announcer.Proofs.Worker.Persistence
import Announcer.Proofs.Worker.Republish
import Announcer.Proofs.Sender.Progress
import Announcer.Proofs.Exchange
import Announcer.Proofs.Exchange.Crew
import Announcer.Proofs.Exchange.History
import Announcer.Proofs.Exchange.Agreement
import Announcer.Proofs.Sender.Journal
import Announcer.Proofs.Sender.Delivery
import Announcer.Proofs.Table.Admission
import Announcer.Proofs.Table.Departures
import Announcer.Proofs.Store
import Announcer.Proofs.Sender.Reports
import Announcer.Proofs.Sender.Managed
import Announcer.Proofs.Sender.Stopping
import Announcer.Proofs.Sender.Acknowledged
import Announcer.Proofs.Sender.Delays
import Announcer.Proofs.Table.Selection
import Announcer.Proofs.SubBatch.Fewest
import Announcer.Proofs.Json.Canonical
import Announcer.Proofs.Config.Order
import Announcer.Proofs.Event.Verbatim
import Announcer.Proofs.Hub
