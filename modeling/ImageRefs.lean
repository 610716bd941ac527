import ImageRefs.Image.File
import ImageRefs.Image.Session
import ImageRefs.Proofs.Address.Inverse
import ImageRefs.Proofs.Branch.Form
import ImageRefs.Proofs.Branch.Gap
import ImageRefs.Proofs.Branch.PlainScan
import ImageRefs.Proofs.Branch.Walk
import ImageRefs.Proofs.Bytes.Field
import ImageRefs.Proofs.Header.Read
import ImageRefs.Proofs.Image.Format
import ImageRefs.Proofs.Image.Grammar
import ImageRefs.Proofs.Image.Overlay
import ImageRefs.Proofs.Image.Parsed
import ImageRefs.Proofs.Reference.Apart
import ImageRefs.Proofs.Reference.Location
import ImageRefs.Proofs.Reference.Reach
import ImageRefs.Proofs.Reference.Retarget
import ImageRefs.Proofs.Reference.Unchanged
import ImageRefs.Proofs.Reference.Word
import ImageRefs.Proofs.Reference.WriteEach
import ImageRefs.Proofs.Reloc.Table
import ImageRefs.Proofs.Section.Table
import ImageRefs.Proofs.Reference.Relative
import ImageRefs.Proofs.Reference.Absolute
import ImageRefs.Proofs.Reloc.Format
import ImageRefs.Proofs.Image.Patched
import ImageRefs.Proofs.Address.Lookup
import ImageRefs.Proofs.Section.Order
import ImageRefs.Proofs.Image.Session
import ImageRefs.Proofs.Checked.Address
import ImageRefs.Proofs.Checked.Reloc
import ImageRefs.Proofs.Checked.Location
import ImageRefs.Proofs.Checked.Scan
import ImageRefs.Proofs.Checked.Extraction
import ImageRefs.Proofs.Image.SameCode
import ImageRefs.Proofs.Branch.Conditional
import ImageRefs.Proofs.Reference.Effect
import ImageRefs.Proofs.Branch.Complement
import ImageRefs.Proofs.Branch.Proposals
import ImageRefs.Proofs.Reference.Window
import ImageRefs.Proofs.Section.FirstFault
import ImageRefs.Proofs.Header.Format
import ImageRefs.Proofs.Checked.Header
import ImageRefs.Proofs.Branch.Disjoint
import ImageRefs.Proofs.Json.RoundTrip
