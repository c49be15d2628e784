import Preopt.Main
import Preopt.Proofs.Once.Ledger
import Preopt.Proofs.Once.Script
import Preopt.Proofs.Once.FirstStore
import Preopt.Proofs.Once.Accounting
import Preopt.Proofs.Once.Commuting
import Preopt.Proofs.Build.Resolution
import Preopt.Proofs.Build.Growth
import Preopt.Proofs.Build.Failure
import Preopt.Proofs.Build.Prospect
import Preopt.Proofs.Build.Accounts
import Preopt.Proofs.Build.Tallies
import Preopt.Proofs.Session.Coherence
import Preopt.Proofs.Session.Provenance
import Preopt.Proofs.Session.Retries
import Preopt.Proofs.Session.Success
import Preopt.Proofs.Session.Injections
import Preopt.Proofs.Session.Tallies
import Preopt.Proofs.Session.Foretold
import Preopt.Proofs.Session.Order
import Preopt.Proofs.Session.Export
import Preopt.Proofs.Assoc
import Preopt.Proofs.Config.Validity
import Preopt.Proofs.Config.Faults
import Preopt.Proofs.Image.Joins
import Preopt.Proofs.Image.Collisions
import Preopt.Proofs.Image.Containment
import Preopt.Proofs.Classpath.ReadBack
import Preopt.Proofs.Image.Separation
import Preopt.Proofs.Session.Noninterference
import Preopt.Proofs.Image.Partition
import Preopt.Proofs.Image.Layout
import Preopt.Proofs.Image.Architectures
import Preopt.Proofs.Session.Images
import Preopt.Proofs.Classpath.Layers
import Preopt.Proofs.Session.Profiles
import Preopt.Proofs.Classpath.Servers
import Preopt.Proofs.Yaml.Bare
import Preopt.Proofs.Config.Keys
import Preopt.Proofs.Json.Loading
import Preopt.Proofs.Settings.Layers
import Preopt.Proofs.CommandLine.Spelling
import Preopt.Proofs.Run.Agreement
import Preopt.Proofs.Run.Logs
import Preopt.Proofs.Run.Precedence
import Preopt.Proofs.Once.Recording
import Preopt.Proofs.Build.Recording
import Preopt.Proofs.Session.Dependencies
import Preopt.Proofs.Number.Nearest
import Preopt.Proofs.Counters
