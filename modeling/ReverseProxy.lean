import ReverseProxy.Main
import ReverseProxy.Proofs.Kdl.CanonicalText
import ReverseProxy.Proofs.Config.Acceptance
import ReverseProxy.Proofs.Config.Diagnostics
import ReverseProxy.Proofs.Config.ReadBack
import ReverseProxy.Proofs.Config.RoundTrip
import ReverseProxy.Proofs.Service.Answers
import ReverseProxy.Proofs.Config.Agreement
import ReverseProxy.Proofs.Settings.Layers
import ReverseProxy.Proofs.Settings.Priority
import ReverseProxy.Proofs.Kdl.Concatenation
import ReverseProxy.Proofs.Output.Console
import ReverseProxy.Proofs.Output.Format
import ReverseProxy.Proofs.Kdl.SpanOrder
import ReverseProxy.Proofs.Kdl.Joining
import ReverseProxy.Proofs.Kdl.Slashdash
import ReverseProxy.Proofs.Kdl.Spacing
import ReverseProxy.Proofs.Schema.Conservation
import ReverseProxy.Proofs.Config.Accepted.Connectors
import ReverseProxy.Proofs.Config.Accepted.Listeners
import ReverseProxy.Proofs.Config.Accepted.Chain
import ReverseProxy.Proofs.Names.Fqdn
import ReverseProxy.Proofs.Names.SocketAddress
import ReverseProxy.Proofs.Names.Components
import ReverseProxy.Proofs.Config.Accepted.KeyProfile
import ReverseProxy.Proofs.Kdl.Spellings
import ReverseProxy.Proofs.Kdl.Numbers
import ReverseProxy.Proofs.Diagnostic.Pointer
import ReverseProxy.Proofs.Service.Separately
import ReverseProxy.Proofs.Schema.Ranges
import ReverseProxy.Proofs.Kdl.Nesting
import ReverseProxy.Proofs.Files.Suffix
import ReverseProxy.Proofs.Output.Failure
