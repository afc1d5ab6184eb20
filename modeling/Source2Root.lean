import Source2Root.Transition
import Source2Root.Identity
import Source2Root.WorkQueue
import Source2Root.JobLife
import Source2Root.WorkQueueProtocol
import Source2Root.HttpRequests
import Source2Root.HttpCourse
import Source2Root.HttpInvariant
import Source2Root.HttpScripts
import Source2Root.HttpLifecycle
import Source2Root.Voice
import Source2Root.VoiceProtocol
import Source2Root.VoiceRestore
import Source2Root.Prefs
import Source2Root.PrefsLedger
import Source2Root.PrefsDurability
import Source2Root.PrefsErrors
import Source2Root.VoiceBooks
import Source2Root.VoiceEnforcement
import Source2Root.VoiceSuspension
import Source2Root.Reentrant
import Source2Root.Handles
import Source2Root.HandlesRefinement
import Source2Root.Json
import Source2Root.Decimal
import Source2Root.Utc
import Source2Root.Bans
import Source2Root.BansAtomic
import Source2Root.BansAgree
import Source2Root.KeyValues
import Source2Root.KeyValuesGrammar
import Source2Root.Http
import Source2Root.HttpRedirects
import Source2Root.HandlesMap
import Source2Root.Tables
import Source2Root.Foundation.Types
import Source2Root.Foundation.State
import Source2Root.Foundation.Code
import Source2Root.Foundation.Menus
import Source2Root.Foundation.Lifecycle
import Source2Root.Foundation.Players
import Source2Root.Foundation.Natives
import Source2Root.Foundation.Extensions
import Source2Root.Foundation.Dispatch
import Source2Root.Foundation.Runs
import Source2Root.Foundation.Acts
import Source2Root.Ownership
import Source2Root.Foundation.Life
import Source2Root.Foundation.Living
import Source2Root.Foundation.Holdings
import Source2Root.Foundation.Registrations
import Source2Root.Foundation.ConVars
import Source2Root.Foundation.Screens
import Source2Root.Chronicle
import Source2Root.Foundation.MapChange
import Source2Root.Foundation.Control
import Source2Root.Foundation.CodeKeeps
import Source2Root.Foundation.MenusKeep
import Source2Root.Foundation.PlayersKeep
import Source2Root.Foundation.NativesKeep
import Source2Root.Foundation.ExtensionsKeep
import Source2Root.Foundation.DispatchKeep
import Source2Root.Foundation.CleanupKeep
import Source2Root.Foundation.LifecycleKeep
import Source2Root.Foundation.Reached
import Source2Root.Foundation.Leases
import Source2Root.Foundation.Histories
import Source2Root.Foundation.Safety
import Source2Root.Foundation.Sessions
import Source2Root.Foundation.PlayerHandles
import Source2Root.Foundation.Commands
import Source2Root.Foundation.EventDelivery
import Source2Root.Foundation.Journal
import Source2Root.Foundation.Consumers
import Source2Root.Foundation.Callbacks
import Source2Root.Foundation.Generations
import Source2Root.Python.Utf8
import Source2Root.Python.Json
import Source2Root.Python.JsonRoundTrip
import Source2Root.CrashSafe
import Source2Root.Snapshots
import Source2Root.SnapshotsIndex
import Source2Root.SnapshotsSafe
import Source2Root.SdkHooks
import Source2Root.SdkHooksMatching
import Source2Root.DHooks
import Source2Root.DHooksLifetime
import Source2Root.UtcExact
import Source2Root.SteamFormats
import Source2Root.Loading
import Source2Root.Permissions
import Source2Root.PermissionsMeaning
import Source2Root.PermissionsExact
import Source2Root.PermissionsTargeting
import Source2Root.Arguments
import Source2Root.Settings
import Source2Root.SettingsExact
import Source2Root.Format
import Source2Root.FormatExact
import Source2Root.Postgres
import Source2Root.ConnectionInfo
import Source2Root.MemoryBudget
import Source2Root.Integers
import Source2Root.NativeIntegers
import Source2Root.HookFrame
import Source2Root.EntityFields
import Source2Root.IntegersAgree
import Source2Root.HookDispatch
import Source2Root.Pieces
import Source2Root.TopMenus
import Source2Root.TopMenusPages
import Source2Root.ByteMemory
import Source2Root.CallbackArguments
import Source2Root.Markup
import Source2Root.Foundation.Rendering
import Source2Root.Foundation.MenuRefinement
import Source2Root.Migration
import Source2Root.MigrationTexts
import Source2Root.MigrationLoads
import Source2Root.MigrationReads
import Source2Root.MigrationAgrees
