import CutsceneCatalog.Libraries.Standard
import CutsceneCatalog.Registry
import CutsceneCatalog.Workspace
import CutsceneCatalog.Proofs.Vocabulary
import CutsceneCatalog.Proofs.Offender
import CutsceneCatalog.Proofs.EntryReading
import CutsceneCatalog.Proofs.ImportOutcome
import CutsceneCatalog.Proofs.RegistryCalls
import CutsceneCatalog.Proofs.RegistryHistory
import CutsceneCatalog.Proofs.Assembly
import CutsceneCatalog.Proofs.NodeNumbers
import CutsceneCatalog.Proofs.FileOrder
import CutsceneCatalog.Proofs.FolderLoading
import CutsceneCatalog.Proofs.DecimalText
import CutsceneCatalog.Proofs.NestedRules
import CutsceneCatalog.Proofs.RuleReading
import CutsceneCatalog.Proofs.FieldReading
import CutsceneCatalog.Proofs.RuleMirror
import CutsceneCatalog.Proofs.DepthLimits
import CutsceneCatalog.Proofs.RuleEdits
import CutsceneCatalog.Proofs.EntryOrder
import CutsceneCatalog.Proofs.RuleComparison
import CutsceneCatalog.Proofs.RuleRendering
import CutsceneCatalog.Proofs.NamesOnly
import CutsceneCatalog.Proofs.DoubleOrder
import CutsceneCatalog.Proofs.NumberRange
import CutsceneCatalog.Proofs.ErrorAttribution
import CutsceneCatalog.Proofs.SettingValues
import CutsceneCatalog.Proofs.ValueConversion
import CutsceneCatalog.Proofs.VariableOverlay
import CutsceneCatalog.Proofs.EnvReferences
import CutsceneCatalog.Proofs.SettingsHistory
import CutsceneCatalog.Proofs.CodeLines
import CutsceneCatalog.Proofs.CodeSettling
import CutsceneCatalog.Proofs.ParameterReading
import CutsceneCatalog.Proofs.Rounding
import CutsceneCatalog.Proofs.ColorText
import CutsceneCatalog.Proofs.NearestDouble
import CutsceneCatalog.Proofs.ColorWriting
import CutsceneCatalog.Proofs.WholeNumeral
import CutsceneCatalog.Proofs.DecimalNumeral
import CutsceneCatalog.Proofs.DecimalValue
import CutsceneCatalog.Proofs.LexicalForm
import CutsceneCatalog.Proofs.LocationText
import CutsceneCatalog.Proofs.AbsoluteLocation
import CutsceneCatalog.Proofs.PathSpelling
import CutsceneCatalog.Proofs.ImportLocation
import CutsceneCatalog.Proofs.IconIdentity
import CutsceneCatalog.Proofs.Containment
import CutsceneCatalog.Proofs.SettingsInUse
