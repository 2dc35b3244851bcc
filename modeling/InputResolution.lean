import InputResolution.Disk.Tree
import InputResolution.Main
import InputResolution.Proofs.Lexical.WellFormed
import InputResolution.Proofs.Native.Moves
import InputResolution.Proofs.Disk.Leads
import InputResolution.Proofs.Disk.Place
import InputResolution.Proofs.Disk.Standing
import InputResolution.Proofs.Disk.Locating
import InputResolution.Proofs.Text.Occurrences
import InputResolution.Proofs.Request.Planning
import InputResolution.Proofs.Source.LoadRun
import InputResolution.Proofs.Source.Lenient
import InputResolution.Proofs.Native.DirectorySet
import InputResolution.Proofs.Source.ResolutionRun
import InputResolution.Proofs.Source.Precedence
import InputResolution.Proofs.Source.Independence
import InputResolution.Proofs.Source.Taken
import InputResolution.Proofs.Source.Contents
import InputResolution.Proofs.Disk.WeaklyCanonical
import InputResolution.Proofs.Source.Confinement
import InputResolution.Proofs.Source.Admission
import InputResolution.Proofs.Source.Naming
import InputResolution.Proofs.Source.Reopening
import InputResolution.Proofs.Source.Preservation
import InputResolution.Proofs.Lexical.Printing
import InputResolution.Proofs.Source.Restating
import InputResolution.Proofs.Source.Modes
import InputResolution.Proofs.Native.Spelling
import InputResolution.Proofs.Source.Respelling
import InputResolution.Proofs.Request.Remapping
import InputResolution.Proofs.Request.Classification
import InputResolution.Proofs.Request.TargetDirectory
import InputResolution.Proofs.Request.PlanContents
import InputResolution.Proofs.Command.Given
import InputResolution.Proofs.Settings.Validity
import InputResolution.Proofs.Text.Lines
import InputResolution.Proofs.Report.Diagnostics
import InputResolution.Proofs.Lexical.Portable
import InputResolution.Proofs.Lexical.Containment
import InputResolution.Proofs.Lexical.Construction
import InputResolution.Proofs.Lexical.Joining
import InputResolution.Proofs.Native.Parent
import InputResolution.Proofs.Native.Parts
import InputResolution.Proofs.Disk.Footing
import InputResolution.Proofs.Disk.Straight
import InputResolution.Proofs.Disk.WeakResolution
import InputResolution.Proofs.Source.WorkDir
import InputResolution.Proofs.Source.Identity
import InputResolution.Proofs.Source.PortableForm
import InputResolution.Proofs.Lexical.Drives
import InputResolution.Proofs.Lexical.Resuming
import InputResolution.Proofs.Source.Drives
import InputResolution.Proofs.Source.Opening
