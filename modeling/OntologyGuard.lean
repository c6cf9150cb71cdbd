import OntologyGuard.Main
import OntologyGuard.Proofs.Command.Serialize
import OntologyGuard.Proofs.Constraint.Accumulation
import OntologyGuard.Proofs.Constraint.LastRestriction
import OntologyGuard.Proofs.Constraint.RoundTrip
import OntologyGuard.Proofs.Constraint.Vocabulary
import OntologyGuard.Proofs.Context.Preference
import OntologyGuard.Proofs.Context.QualifiedName
import OntologyGuard.Proofs.Inheritance.SingleParent
import OntologyGuard.Proofs.Inheritance.Termination
import OntologyGuard.Proofs.Json.Ontology
import OntologyGuard.Proofs.Ontology.Compatibility
import OntologyGuard.Proofs.Ontology.Extension
import OntologyGuard.Proofs.Ontology.Ownership
import OntologyGuard.Proofs.Ontology.Splitting
import OntologyGuard.Proofs.Rdf.Grouping
import OntologyGuard.Proofs.Storage.Coverage
import OntologyGuard.Proofs.Storage.Readers
import OntologyGuard.Proofs.Validation.Breaches
import OntologyGuard.Proofs.Validation.Locality
import OntologyGuard.Proofs.Validation.Rearrangement
import OntologyGuard.Proofs.Validation.Substitution
import OntologyGuard.Proofs.Xsd.Ascii
import OntologyGuard.Proofs.Xsd.DateTime
import OntologyGuard.Proofs.Xsd.Derivation
import OntologyGuard.Proofs.Xsd.Duration
import OntologyGuard.Proofs.Xsd.EndOfDay
import OntologyGuard.Proofs.Xsd.History
