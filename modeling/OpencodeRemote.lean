import OpencodeRemote.Stub.Confinement
import OpencodeRemote.Stub.Authorisation
import OpencodeRemote.Stub.Retention
import OpencodeRemote.Stub.Failures
import OpencodeRemote.Stub.Interchange
import OpencodeRemote.Stub.Isolation
import OpencodeRemote.Stub.Reload
import OpencodeRemote.Stub.Deletion
import OpencodeRemote.Stub.Mirror
import OpencodeRemote.Stub.RoundTrip
import OpencodeRemote.Stub.Listening
import OpencodeRemote.Stub.Coverage
import OpencodeRemote.Stub.Streaming
import OpencodeRemote.Stub.Awareness
import OpencodeRemote.Service.Admission
import OpencodeRemote.Service.Publishing
import OpencodeRemote.Data.Assignment
import OpencodeRemote.Plugin.Config
import OpencodeRemote.Plugin.Leases
import OpencodeRemote.Plugin.Provider
import OpencodeRemote.Plugin.HostSelection
import OpencodeRemote.Plugin.Operations
import OpencodeRemote.Plugin.Index
import OpencodeRemote.Plugin.Exclusivity
import OpencodeRemote.Plugin.Reuse
import OpencodeRemote.Plugin.Protocol
import OpencodeRemote.Plugin.Removal
import OpencodeRemote.Plugin.Recovery
import OpencodeRemote.Plugin.Tunnels
import OpencodeRemote.Plugin.Sharing
import OpencodeRemote.Plugin.Endpoints
import OpencodeRemote.Plugin.Coexistence
import OpencodeRemote.Plugin.StateFile
import OpencodeRemote.Plugin.Leaks
import OpencodeRemote.Plugin.PortSearch
import OpencodeRemote.Plugin.Quoting
import OpencodeRemote.Plugin.Selection
import OpencodeRemote.Plugin.Targets
import OpencodeRemote.Plugin.Provenance
import OpencodeRemote.Plugin.Secrecy
import OpencodeRemote.Plugin.TokenFile
import OpencodeRemote.Plugin.Starting
import OpencodeRemote.Plugin.Configured
import OpencodeRemote.Link.Reuse
import OpencodeRemote.Link.Admission
import OpencodeRemote.Link.Teardown
import OpencodeRemote.Cli.Algebra
