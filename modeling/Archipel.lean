import Archipel.Polkadot.Flows
import Archipel.Pallet.Leadership
import Archipel.Federation.Safety
import Archipel.Federation.Silence
import Archipel.Orchestrator.Listener
import Archipel.Async.Shared
import Archipel.Docker.Healthy
import Archipel.Polkadot.Convergence
import Archipel.Heartbeats
import Archipel.Chain
import Archipel.Orchestrator.Rules
import Archipel.Orchestrator.Demotion
import Archipel.Orchestrator.Readiness
import Archipel.Orchestrator.Takeover
import Archipel.Runs
import Archipel.Pallet.Record
import Archipel.Pallet.Registry
import Archipel.Pallet.Commute
import Archipel.Orchestrator.Mirror
import Archipel.Orchestrator.Decision
import Archipel.Orchestrator.Sentinel
import Archipel.Chain.Rpc
import Archipel.Chain.Settle
import Archipel.Chain.Nonce
import Archipel.Orchestrator.Disable
import Archipel.Polkadot.Exit
import Archipel.Chain.Stall
import Archipel.Orchestrator.Grace
import Archipel.Polkadot.Keys
import Archipel.Polkadot.Passes
import Archipel.Async.Agree
import Archipel.Orchestrator.Info
import Archipel.Orchestrator.NoService
import Archipel.Async.Log
import Archipel.Docker.Trace
import Archipel.Orchestrator.Liveness
import Archipel.Polkadot.Switch
import Archipel.Orchestrator.Boot
import Archipel.Json
import Archipel.Json.Scan
import Archipel.Polkadot.Health
import Archipel.Async.Success
import Archipel.ConfigFile
import Archipel.Orchestrator.ConfigFile
import Archipel.Polkadot.ConfigFile
import Archipel.Front
import Archipel.Cli.Basic
import Archipel.Cli.Service
import Archipel.Cli.Generate
import Archipel.Cli.Effects
import Archipel.Cli.Federation
import Archipel.Cli.Totality
import Archipel.Cli.Init
import Archipel.Heartbeats.Latest
import Archipel.Text
import Archipel.Cli.Lists
import Archipel.Pallet.Overflow
import Archipel.Docker.Refusal
import Archipel.Polkadot.Refusal
import Archipel.Async.Focus
import Archipel.ServiceMode
import Archipel.Shell
import Archipel.Deployer.Wireguard
import Archipel.Deployer.Peers
import Archipel.FileSystem
import Archipel.Stateful
import Archipel.TempDirectory
import Archipel.Federation.Acts
import Archipel.Federation.Stability
import Archipel.Federation.Healthy
import Archipel.Federation.Failover
import Archipel.Federation.Detector
import Archipel.Environment
import Archipel.Orchestrator.Configuration
import Archipel.Polkadot.Configuration
import Archipel.Cli.Keyring
import Archipel.Federation.Launch
import Archipel.Federation.Switchover
import Archipel.Federation.Timely
import Archipel.Federation.Recovery
import Archipel.Deployer.Genesis
