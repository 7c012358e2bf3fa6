import Provenance.Main
import Provenance.Position.Offset
import Provenance.Proofs.Atlas.Written
import Provenance.Proofs.Focus.Coverage
import Provenance.Proofs.Transform.Reply
import Provenance.Proofs.Session.LastGood
import Provenance.Proofs.Session.Superseded
import Provenance.Proofs.Worker.Protocol
import Provenance.Proofs.Scheduler.Staleness
import Provenance.Proofs.Scheduler.Debounce
import Provenance.Proofs.LineLayout.Lengths
import Provenance.Proofs.Scheduler.Inputs
import Provenance.Proofs.Json.Numerals
import Provenance.Proofs.Binary64.Shortest
import Provenance.Proofs.Json.Documents
import Provenance.Proofs.Json.Reading
import Provenance.Proofs.SourceMap.RoundTrip
import Provenance.Proofs.Transform.Echo
import Provenance.Proofs.Markup.Pieces
import Provenance.Proofs.LiveSession.Course
import Provenance.Proofs.Atlas.Forward
import Provenance.Proofs.Mappings.Foreign
import Provenance.Proofs.Atlas.Exact
import Provenance.Proofs.Atlas.Foreign
import Provenance.Proofs.CommandLine.Compile
import Provenance.Proofs.Atlas.Reverse
import Provenance.Proofs.Run.Enclosure
import Provenance.Proofs.Atlas.Resolution
import Provenance.Proofs.Worker.Ahead
import Provenance.Proofs.Worker.OneByOne
import Provenance.Proofs.Worker.OwnResponse
import Provenance.Proofs.Position.Reading
