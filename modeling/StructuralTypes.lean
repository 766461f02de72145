import StructuralTypes.Compilation.Synthesis
import StructuralTypes.Proofs.Growth
import StructuralTypes.Proofs.Outcome
import StructuralTypes.Proofs.Reference
import StructuralTypes.Proofs.Circle
import StructuralTypes.Proofs.Readonly.Descent
import StructuralTypes.Proofs.Readonly.Site
import StructuralTypes.Proofs.Readonly.Construction
import StructuralTypes.Proofs.Readonly.Visit
import StructuralTypes.Proofs.Readonly.Step
import StructuralTypes.Proofs.Readonly.Closure
import StructuralTypes.Proofs.Readonly.Termination
import StructuralTypes.Proofs.Readonly.Shape
import StructuralTypes.Proofs.Readonly.World
import StructuralTypes.Proofs.Readonly.Provenance
import StructuralTypes.Proofs.Readonly.Trace
import StructuralTypes.Proofs.Readonly.Run
import StructuralTypes.Proofs.Readonly.Mirror
import StructuralTypes.Proofs.Readonly.Sharing
import StructuralTypes.Proofs.Readonly.Visibility
import StructuralTypes.Proofs.Readonly.Frame
import StructuralTypes.Proofs.Readonly.Stability
import StructuralTypes.Proofs.Initializer
import StructuralTypes.Proofs.Readonly.Deep
import StructuralTypes.Proofs.Readonly.Failure
import StructuralTypes.Proofs.Attachment.Run
import StructuralTypes.Proofs.Readonly.Registry
import StructuralTypes.Proofs.Readonly.Naming
import StructuralTypes.Proofs.Display.Plain
import StructuralTypes.Proofs.Range.Run
import StructuralTypes.Proofs.Writing.Scopes
import StructuralTypes.Proofs.Writing.Registry
import StructuralTypes.Proofs.Deferral
import StructuralTypes.Proofs.StuckDetail
import StructuralTypes.Proofs.Population.Field
import StructuralTypes.Proofs.Population.Run
import StructuralTypes.Proofs.Population.Structure
import StructuralTypes.Proofs.Population.Plain
import StructuralTypes.Proofs.Population.Recall
import StructuralTypes.Proofs.Population.Again
import StructuralTypes.Proofs.Population.Failure
import StructuralTypes.Proofs.Population.NewScope
import StructuralTypes.Proofs.Anonymous.Session
import StructuralTypes.Proofs.Anonymous.Registration
import StructuralTypes.Proofs.Anonymous.Failure
import StructuralTypes.Proofs.Attachment.Anatomy
import StructuralTypes.Proofs.Unison.Alike
import StructuralTypes.Proofs.Unison.Session
import StructuralTypes.Proofs.Unison.Field
import StructuralTypes.Proofs.Unison.Clone
import StructuralTypes.Proofs.Unison.Run
import StructuralTypes.Proofs.Attachment.Failure
import StructuralTypes.Proofs.Composition
import StructuralTypes.Proofs.Readonly.Opening
import StructuralTypes.Proofs.Faithful.Session
import StructuralTypes.Proofs.Faithful.Synthesis
import StructuralTypes.Proofs.Faithful.Run
import StructuralTypes.Proofs.Faithful.Sealing
import StructuralTypes.Proofs.Faithful.Qualification
import StructuralTypes.Proofs.Ownership.Table
import StructuralTypes.Proofs.Ownership.Session
import StructuralTypes.Proofs.Ownership.Clone
import StructuralTypes.Proofs.Ownership.Run
import StructuralTypes.Proofs.Lookup.Table
import StructuralTypes.Proofs.Lookup.Session
import StructuralTypes.Proofs.Lookup.Run
import StructuralTypes.Proofs.Numbering
import StructuralTypes.Proofs.Declaration.Session
import StructuralTypes.Proofs.Declaration.Run
