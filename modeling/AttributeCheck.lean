import AttributeCheck.Proofs.BuiltValues
import AttributeCheck.Proofs.ClassAncestry
import AttributeCheck.Proofs.Conformance
import AttributeCheck.Proofs.Containment
import AttributeCheck.Proofs.DeclarationBuilding
import AttributeCheck.Proofs.DeclaredView
import AttributeCheck.Proofs.DistinctMessages
import AttributeCheck.Proofs.EnvironmentOverlay
import AttributeCheck.Proofs.Fates
import AttributeCheck.Proofs.FewestDigits
import AttributeCheck.Proofs.FirstFault
import AttributeCheck.Proofs.Interpolation
import AttributeCheck.Proofs.JsonData
import AttributeCheck.Proofs.JsonGrammar
import AttributeCheck.Proofs.JsonReading
import AttributeCheck.Proofs.JsonText
import AttributeCheck.Proofs.KeyOrder
import AttributeCheck.Proofs.Loosening
import AttributeCheck.Proofs.Modes
import AttributeCheck.Proofs.NamingContext
import AttributeCheck.Proofs.NearestDouble
import AttributeCheck.Proofs.NumberTexts
import AttributeCheck.Proofs.Reporting
import AttributeCheck.Proofs.SettingsDocuments
import AttributeCheck.Proofs.Similarity
import AttributeCheck.Proofs.UnionRewriting
import AttributeCheck.Proofs.Visits
import AttributeCheck.Proofs.WarningContract
import AttributeCheck.Session
import AttributeCheck.Settings.Document
import AttributeCheck.Settings.Environment
