import ColdStart.Boot
import ColdStart.Interrupts
import ColdStart.Machine.Model
import ColdStart.Machine.Simulated
import ColdStart.Translation.Walk
import ColdStart.Proofs.Boot.Ground
import ColdStart.Proofs.Boot.Independence
import ColdStart.Proofs.Boot.Session
import ColdStart.Proofs.Boot.Sequencing
import ColdStart.Proofs.Privilege.Descending
import ColdStart.Proofs.Machine.Mirroring
import ColdStart.Proofs.Translation.Walker
import ColdStart.Proofs.Boot.Hardware
import ColdStart.Proofs.Interrupts.Nesting
import ColdStart.Proofs.Translation.Census
import ColdStart.Proofs.Translation.FailSafe
import ColdStart.Proofs.Partition.FirstDefect
import ColdStart.Proofs.Boot.Repetition
import ColdStart.Proofs.Translation.Decoding
import ColdStart.Proofs.Address.Canonical
import ColdStart.Proofs.Address.Splitting
import ColdStart.Proofs.Register.TranslationControl
import ColdStart.Proofs.Register.Masks
import ColdStart.Proofs.Translation.Extents
