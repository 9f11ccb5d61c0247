import ThesadaApp.WebConfigWriteExclusive
import ThesadaApp.EnrollLifecycle
import ThesadaApp.EnrollFirstClaim
import ThesadaApp.EnrollVerify
import ThesadaApp.EnrollClaimLock
import ThesadaApp.EnrollClaimCode
import ThesadaApp.RetainedManifest
import ThesadaApp.BrokerRecord
import ThesadaApp.DeviceRights
import ThesadaApp.SessionCookie
import ThesadaApp.SecondFactor
import ThesadaApp.TopicAttribution
import ThesadaApp.BrokerNames
import ThesadaApp.SessionLogout
import ThesadaApp.CertRevocation
import ThesadaApp.StagedWriteAtomic
import ThesadaApp.BrokerExclusive
import ThesadaApp.EnrollUniform
import ThesadaApp.EnrollMint
import ThesadaApp.CertPaired
import ThesadaApp.CertSequential
import ThesadaApp.TotpSingleUse
import ThesadaApp.LinkSingleWinner
import ThesadaApp.ClientAddress
import ThesadaApp.AlertDelivered
import ThesadaApp.AbsenceNoticed
import ThesadaApp.AlertDedup
import ThesadaApp.TenantQuotas
import ThesadaApp.SecretSemantics
import ThesadaApp.KekRotation
import ThesadaApp.SecretTargets
import ThesadaApp.ConfigBackfill
import ThesadaApp.FileHistory
import ThesadaApp.TenantCache
import ThesadaApp.RetainedIngest
import ThesadaApp.DeleteCascade
import ThesadaApp.AbsenceEpisodes
import ThesadaApp.CleanupSequential
import ThesadaApp.TempStreak
import ThesadaApp.RulesVerbatim
import ThesadaApp.RuleKeys
import ThesadaApp.RulesIndependent
import ThesadaApp.AlertAccepted
import ThesadaApp.ReturnPath
import ThesadaApp.CliReplies
import ThesadaApp.IdentityBinding
import ThesadaApp.IdentityUnlink
import ThesadaApp.MigrationsOnce
import ThesadaApp.TenantDeleteSafe
import ThesadaApp.TapFilter
import ThesadaApp.StatusFresh
import ThesadaApp.CliPages
import ThesadaApp.SensorReadings
import ThesadaApp.DynsecReply
import ThesadaApp.WsHubSafe
import ThesadaApp.MailCapped
import ThesadaApp.LikePattern
import ThesadaApp.SelectText
import ThesadaApp.AuditQuery
import ThesadaApp.AuditSearch
import ThesadaApp.SortComparator
import ThesadaApp.DevicesTable
import ThesadaApp.DevicesOrder
import ThesadaApp.Utf8Chunks
import ThesadaApp.SnapshotExact
import ThesadaApp.EnrollClaimLookup
import ThesadaApp.CertSerial
import ThesadaApp.CAKeyTotal
import ThesadaApp.CABootstrapSafe
import ThesadaApp.RateLimiterExact
import ThesadaApp.TenantIsolation
import ThesadaApp.OidcBound
import ThesadaApp.AdminJobPage
import ThesadaApp.PairTruth
import ThesadaApp.MqttShellSettles
