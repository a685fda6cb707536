
import BlockVolume.Proofs.Volume.Accounting
import BlockVolume.Proofs.Volume.ByteArray
import BlockVolume.Proofs.Volume.Isolation
import BlockVolume.Proofs.Volume.Names
import BlockVolume.Ata.Drive
import BlockVolume.Ata.Script
import BlockVolume.Ata.Trace
import BlockVolume.Device.ImageFile
import BlockVolume.Main
import BlockVolume.Proofs.Action.Respects
import BlockVolume.Proofs.Volume.Frame
import BlockVolume.Proofs.Volume.Move
import BlockVolume.Proofs.Volume.Turnover
import BlockVolume.Proofs.Volume.Tenure
import BlockVolume.Proofs.Volume.Exclusion
import BlockVolume.Proofs.Volume.Lag
import BlockVolume.Proofs.Volume.Crash
import BlockVolume.Proofs.Device.Reading
import BlockVolume.Proofs.Volume.Remount
import BlockVolume.Proofs.Namespace.Hierarchy
import BlockVolume.Proofs.Volume.Ancestry
import BlockVolume.Proofs.Volume.Listing
import BlockVolume.Proofs.Format.Accepted
import BlockVolume.Proofs.Format.Kept
import BlockVolume.Proofs.Space.Reserved
import BlockVolume.Proofs.Volume.Reload
import BlockVolume.Proofs.Volume.Mountable
import BlockVolume.Proofs.Volume.Refusal
import BlockVolume.Proofs.Volume.Ledger
import BlockVolume.Proofs.Device.RunDry
import BlockVolume.Proofs.Volume.Stale
import BlockVolume.Proofs.Volume.Confinement
import BlockVolume.Proofs.Volume.Bounds
import BlockVolume.Proofs.Volume.Resume
import BlockVolume.Proofs.Volume.Leaving
import BlockVolume.Proofs.Volume.Room
import BlockVolume.Proofs.Ata.BlockArray
import BlockVolume.Proofs.Ata.Faults
import BlockVolume.Proofs.Ata.Bounded
import BlockVolume.Proofs.Ata.Readiness
import BlockVolume.Proofs.Volume.Spared
import BlockVolume.Proofs.Volume.Listed
import BlockVolume.Proofs.Volume.StoredNames
import BlockVolume.Proofs.Tool.Memory
import BlockVolume.Proofs.Namespace.Canonical
import BlockVolume.Proofs.Volume.Coherence
