import ImageStaging.Main
import ImageStaging.Proofs.Atomicity
import ImageStaging.Proofs.Build.Priority
import ImageStaging.Proofs.Build.Reference
import ImageStaging.Proofs.Build.Survival
import ImageStaging.Proofs.Executable
import ImageStaging.Proofs.ExitCode
import ImageStaging.Proofs.Staging.Agreement
import ImageStaging.Proofs.Staging.Emptying
import ImageStaging.Proofs.Template.Containment
import ImageStaging.Proofs.Template.Directory
import ImageStaging.Proofs.Template.Intact
import ImageStaging.Proofs.Template.Occurrences
import ImageStaging.Proofs.Template.Search
import ImageStaging.Proofs.Text.Quoting
import ImageStaging.Proofs.TreeCopy.Faithful
import ImageStaging.Proofs.Variable.FlatFile
import ImageStaging.Proofs.Variable.Listing
import ImageStaging.Proofs.Variable.Making
import ImageStaging.Proofs.Variable.Precedence
