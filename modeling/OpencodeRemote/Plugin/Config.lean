import OpencodeRemote.Data.OrderedMap

/-! # Configuration of the plugin

`PluginConfig` is what the user writes, with everything optional; `resolveConfig` fills in
the defaults and drops hosts and providers that cannot be connected to. A resolved host
carries the proof that its name, ssh host and ssh user are not empty.
-/

namespace OpencodeRemote.Plugin

open Data

inductive SelectionStrategy where
  | firstAvailable
  deriving DecidableEq

inductive LeaseMode where
  | exclusive
  | shared
  deriving DecidableEq

structure SSHConfig where
  host : String
  user : String
  port : Option Nat
  identityFile : Option String
  proxyJump : Option String
  hostGiven : host ≠ ""
  userGiven : user ≠ ""
  deriving DecidableEq

structure HostConfig where
  name : String
  aliases : Option (List String)
  ssh : SSHConfig
  labels : Option (List String)
  named : name ≠ ""
  deriving DecidableEq

structure ProviderConfig where
  strategy : Option SelectionStrategy
  labels : Option (List String)
  hosts : List HostConfig
  inhabited : hosts ≠ []
  deriving DecidableEq

structure TunnelConfig where
  localPortRange : Int × Int
  connectTimeoutMs : Nat
  healthTimeoutMs : Nat
  deriving DecidableEq

structure DefaultsConfig where
  selectionStrategy : SelectionStrategy
  leaseMode : LeaseMode
  stubPort : Nat
  deriving DecidableEq

structure ResolvedPluginConfig where
  installRoot : String
  stubBinaryPath : String
  tunnel : TunnelConfig
  defaults : DefaultsConfig
  providers : OrderedMap String ProviderConfig

/-! ## User input -/

structure SSHInput where
  host : Option String
  user : Option String
  port : Option Nat
  identityFile : Option String
  proxyJump : Option String

structure HostInput where
  name : Option String
  aliases : Option (List String)
  ssh : Option SSHInput
  labels : Option (List String)

structure ProviderInput where
  strategy : Option SelectionStrategy
  labels : Option (List String)
  hosts : Option (List HostInput)

structure TunnelInput where
  localPortRange : Option (Int × Int)
  connectTimeoutMs : Option Nat
  healthTimeoutMs : Option Nat

structure DefaultsInput where
  selectionStrategy : Option SelectionStrategy
  leaseMode : Option LeaseMode
  stubPort : Option Nat

/-- The providers are in the order in which JavaScript enumerates the properties. -/
structure PluginConfig where
  installRoot : Option String
  stubBinaryPath : Option String
  tunnel : Option TunnelInput
  defaults : Option DefaultsInput
  providers : Option (OrderedMap String ProviderInput)

def defaultTunnel : TunnelConfig := ⟨(39000, 39999), 15000, 5000⟩

def defaultDefaults : DefaultsConfig := ⟨.firstAvailable, .exclusive, 39217⟩

/-- JavaScript's test of an optional string: the empty one counts as missing. -/
def truthy (s : Option String) : Option String := s.filter (· ≠ "")

@[simp] theorem truthy_empty : truthy (some "") = none := rfl

theorem truthy_some {s : String} (given : s ≠ "") : truthy (some s) = some s := by
  simp [truthy, given]

/-- `h.name && h.ssh?.host && h.ssh?.user`. -/
def validHost (h : HostInput) : Option HostConfig := do
  let name ← h.name
  let ssh ← h.ssh
  let host ← ssh.host
  let user ← ssh.user
  if given : name ≠ "" ∧ host ≠ "" ∧ user ≠ "" then
    some ⟨name, h.aliases, ⟨host, user, ssh.port, ssh.identityFile, ssh.proxyJump, given.2.1, given.2.2⟩,
      h.labels, given.1⟩
  else none

def validProvider (provider : ProviderInput) : Option ProviderConfig :=
  let validHosts := (provider.hosts.getD []).filterMap validHost
  if inhabited : validHosts ≠ [] then some ⟨provider.strategy, provider.labels, validHosts, inhabited⟩
  else none

/-- Without any provider the rest of the input is ignored as well. `resolve` and
    `defaultStubBinary` are the platform's. -/
def resolveConfig (resolve : String → String) (defaultStubBinary : String)
    (input : PluginConfig) : ResolvedPluginConfig :=
  match input.providers with
  | none => ⟨"~/.opencode-remote", defaultStubBinary, defaultTunnel, defaultDefaults, .empty⟩
  | some providers =>
      if providers.keys = [] then
        ⟨"~/.opencode-remote", defaultStubBinary, defaultTunnel, defaultDefaults, .empty⟩
      else
        { installRoot := input.installRoot.getD "~/.opencode-remote"
          stubBinaryPath := ((truthy input.stubBinaryPath).map resolve).getD defaultStubBinary
          tunnel :=
            { localPortRange := (input.tunnel.bind (·.localPortRange)).getD defaultTunnel.localPortRange
              connectTimeoutMs :=
                (input.tunnel.bind (·.connectTimeoutMs)).getD defaultTunnel.connectTimeoutMs
              healthTimeoutMs :=
                (input.tunnel.bind (·.healthTimeoutMs)).getD defaultTunnel.healthTimeoutMs }
          defaults :=
            { selectionStrategy :=
                (input.defaults.bind (·.selectionStrategy)).getD defaultDefaults.selectionStrategy
              leaseMode := (input.defaults.bind (·.leaseMode)).getD defaultDefaults.leaseMode
              stubPort := (input.defaults.bind (·.stubPort)).getD defaultDefaults.stubPort }
          providers := providers.entries.foldl (fun validProviders (providerName, provider) =>
            match validProvider provider with
            | some valid => validProviders.set providerName valid
            | none => validProviders) .empty }

/-! ## A small configuration

Hosts and a provider for runs on fixed inputs. -/

/-- A host with a name and an address and nothing else. -/
def plainHost (name address : String) (named : name ≠ "") (given : address ≠ "") : HostConfig :=
  ⟨name, none, ⟨address, "ops", none, none, none, given, by decide⟩, none, named⟩

def web : HostConfig := plainHost "web" "10.0.0.2" (by decide) (by decide)

def db : HostConfig := plainHost "db" "10.0.0.3" (by decide) (by decide)

/-- A single provider, with everything else at its default. -/
def oneProvider (name : String) (hosts : List HostConfig) (inhabited : hosts ≠ []) :
    ResolvedPluginConfig :=
  ⟨"~/.opencode-remote", "/opt/stub", defaultTunnel, defaultDefaults,
    OrderedMap.empty.set name ⟨none, none, hosts, inhabited⟩⟩

end OpencodeRemote.Plugin
