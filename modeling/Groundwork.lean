import Groundwork.Main
import Groundwork.Proofs.Boot.Decision
import Groundwork.Proofs.CommandLine.Target
import Groundwork.Proofs.Encryption.Order
import Groundwork.Proofs.Encryption.Requests
import Groundwork.Proofs.Install.Layout
import Groundwork.Proofs.Install.Selection
import Groundwork.Proofs.Reboot.Gate
import Groundwork.Proofs.Registry.Layers
import Groundwork.Proofs.Reset.Atomicity
import Groundwork.Proofs.Reset.Order
import Groundwork.Proofs.Reset.Seeds
import Groundwork.Proofs.Seed.Cut
import Groundwork.Proofs.Base64
import Groundwork.Proofs.Encryption.Backup
import Groundwork.Proofs.Encryption.Unlock
import Groundwork.Proofs.Seed.Names
import Groundwork.Proofs.Copy.Chunks
import Groundwork.Proofs.Install.Identity
import Groundwork.Proofs.Disk.Listing
import Groundwork.Proofs.Disk.Partitions
import Groundwork.Proofs.Encryption.Namespace
import Groundwork.Proofs.Registry.Stack
import Groundwork.Proofs.Registry.Lookup
import Groundwork.Proofs.Pool.Poll
import Groundwork.Proofs.Pool.Progress
import Groundwork.Proofs.Reset.Payload
import Groundwork.Proofs.Numbers
