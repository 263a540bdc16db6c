import BootConfig.Main
import BootConfig.Proofs.Checked.Patch
import BootConfig.Proofs.Command.Generator
import BootConfig.Proofs.Command.Patcher
import BootConfig.Proofs.Config.Agreement
import BootConfig.Proofs.Config.Cache
import BootConfig.Proofs.Config.Concatenation
import BootConfig.Proofs.Config.Form
import BootConfig.Proofs.Config.Outline
import BootConfig.Proofs.Config.Room
import BootConfig.Proofs.Config.Spelling
import BootConfig.Proofs.Elf.Acceptance
import BootConfig.Proofs.Elf.Entries
import BootConfig.Proofs.Elf.Extent
import BootConfig.Proofs.Elf.File
import BootConfig.Proofs.Elf.Independence
import BootConfig.Proofs.Elf.Placement
import BootConfig.Proofs.Elf.RoundTrip
import BootConfig.Proofs.Elf.Truncation
import BootConfig.Proofs.Text.Conversion
import BootConfig.Proofs.Text.Division
