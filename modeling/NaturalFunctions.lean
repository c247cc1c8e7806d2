import NaturalFunctions.Schema.Structural
import NaturalFunctions.Types.ArenaModel
import NaturalFunctions.Types.OpenApi
import NaturalFunctions.Source.Rewriting
import NaturalFunctions.Descriptor.Summary
import NaturalFunctions.Call.Client
import NaturalFunctions.Proofs.Derivation.Agreement
import NaturalFunctions.Proofs.Subtyping.Soundness
import NaturalFunctions.Proofs.Answer.ErrorMember
import NaturalFunctions.Proofs.Source.Rewriting
import NaturalFunctions.Proofs.Source.Contract
import NaturalFunctions.Proofs.Subtyping.ErrorType
import NaturalFunctions.Proofs.Source.Returns
import NaturalFunctions.Proofs.Source.Extraction
import NaturalFunctions.Proofs.Source.ExactEdits
import NaturalFunctions.Proofs.Source.SecondRun
import NaturalFunctions.Proofs.Subtyping.JsonType
import NaturalFunctions.Proofs.Source.Collection
import NaturalFunctions.Proofs.Derivation.Hoisting
import NaturalFunctions.Proofs.Source.Hoisting
import NaturalFunctions.Proofs.Derivation.Components
import NaturalFunctions.Proofs.Derivation.Acceptance
import NaturalFunctions.Proofs.Schema.NormalForm
import NaturalFunctions.Proofs.Derivation.Guard
import NaturalFunctions.Proofs.Source.References
import NaturalFunctions.Proofs.Source.ReadingBack
import NaturalFunctions.Proofs.Subtyping.Nesting
import NaturalFunctions.Proofs.Subtyping.Inversion
import NaturalFunctions.Proofs.Subtyping.Transitivity
import NaturalFunctions.Proofs.Subtyping.Nominal
import NaturalFunctions.Proofs.Subtyping.Aliases
import NaturalFunctions.Proofs.Schema.Metadata
import NaturalFunctions.Proofs.Schema.Relaxation
import NaturalFunctions.Proofs.Derivation.Inhabitants
import NaturalFunctions.Proofs.Derivation.RecordFields
import NaturalFunctions.Proofs.Descriptor.Correspondence
import NaturalFunctions.Proofs.Answer.ErrorRemoval
import NaturalFunctions.Proofs.Descriptor.Nilability
import NaturalFunctions.Proofs.Json.CanonicalText
import NaturalFunctions.Proofs.Prompt.Template
import NaturalFunctions.Proofs.Descriptor.FieldListing
import NaturalFunctions.Proofs.Source.ForeignTags
import NaturalFunctions.Proofs.Resolution
