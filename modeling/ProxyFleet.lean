import ProxyFleet.Api.Service
import ProxyFleet.CommandLine.Run
import ProxyFleet.Fleet.Archive
import ProxyFleet.Fleet.Overwrite
import ProxyFleet.Main
import ProxyFleet.Proofs.Agent.Addressing
import ProxyFleet.Proofs.Engine.Language
import ProxyFleet.Proofs.Engine.Missing
import ProxyFleet.Proofs.Engine.Roundtrip
import ProxyFleet.Proofs.Fleet.Orphans
import ProxyFleet.Proofs.Fleet.Passes
import ProxyFleet.Proofs.Fleet.Quota
import ProxyFleet.Proofs.Fleet.Rising
import ProxyFleet.Proofs.Net.Domain
import ProxyFleet.Proofs.Nodes.Correspondence
import ProxyFleet.Proofs.Nodes.Creation
import ProxyFleet.Proofs.Nodes.Recorded
import ProxyFleet.Proofs.Nodes.Recovery
import ProxyFleet.Proofs.Nodes.Renewal
import ProxyFleet.Proofs.Ports.Metrics
import ProxyFleet.Proofs.Ports.Overlap
import ProxyFleet.Proofs.Ports.Scan
import ProxyFleet.Proofs.Protocol.Hidden
import ProxyFleet.Proofs.Subscription.Bodies
import ProxyFleet.Proofs.Subscription.Groups
import ProxyFleet.Proofs.Subscription.Obfuscation
import ProxyFleet.Proofs.Subscription.Secrecy
import ProxyFleet.Proofs.Subscription.Transport
import ProxyFleet.Proofs.Traffic.Order
import ProxyFleet.Proofs.Traffic.Run
