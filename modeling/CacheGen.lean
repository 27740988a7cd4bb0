import CacheGen.Main
import CacheGen.Config.Readers
import CacheGen.Plugin.Run
import CacheGen.Proofs.Confinement
import CacheGen.Proofs.DocBlock
import CacheGen.Proofs.FilesKept
import CacheGen.Proofs.ImportUse
import CacheGen.Proofs.PluginRun
import CacheGen.Proofs.TopLevel
import CacheGen.Proofs.Wiring
import CacheGen.Wire.Exchange
import CacheGen.Proofs.Joined
import CacheGen.Proofs.Settings
import CacheGen.Proofs.ConfigFile
import CacheGen.Proofs.CommandRun
import CacheGen.Proofs.Frame
import CacheGen.Proofs.Agreement
import CacheGen.Proofs.Independence
import CacheGen.Proofs.OneLine
import CacheGen.Proofs.PrintableNames
import CacheGen.Proofs.DeclaredLines
import CacheGen.Proofs.TargetSettings
import CacheGen.Proofs.Layers
import CacheGen.Proofs.Globals
import CacheGen.Proofs.RelativeWays
import CacheGen.Proofs.MessageModules
import CacheGen.Proofs.ExportedNames
import CacheGen.Proofs.CommentPaths
import CacheGen.Proofs.DeclaredMessages
import CacheGen.Proofs.TidyPaths
import CacheGen.Proofs.Specifiers
import CacheGen.Proofs.ConstructorNames
import CacheGen.Proofs.GoNesting
import CacheGen.Proofs.Candidates
import CacheGen.Proofs.GoScan
import CacheGen.Proofs.PackageNames
import CacheGen.Proofs.PackageDirectories
import CacheGen.Proofs.ParameterKeys
import CacheGen.Proofs.WrittenParameters
import CacheGen.Proofs.ConfigRoundTrip
import CacheGen.Proofs.Precedence
import CacheGen.Proofs.FirstPlace
import CacheGen.Proofs.ConfigIssues
import CacheGen.Proofs.OptionSettings
import CacheGen.Proofs.AppendedPlans
import CacheGen.Proofs.UnitOrder
import CacheGen.Proofs.ImportOrder
import CacheGen.Proofs.GoComments
import CacheGen.Plugin.Logging
import CacheGen.Proofs.RunLog
import CacheGen.Proofs.AliasSearch
import CacheGen.Proofs.QuotedText
import CacheGen.Proofs.FreshConfig
import CacheGen.Proofs.EmbeddedLiterals
