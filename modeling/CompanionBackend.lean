import CompanionBackend.GraceInstant
import CompanionBackend.ObservationBounds
import CompanionBackend.TimelineBackfill
import CompanionBackend.FinalizationOnce
import CompanionBackend.ChatWindow
import CompanionBackend.ChatRounds
import CompanionBackend.GenerationFutures
import CompanionBackend.PlaybackSoundness
import CompanionBackend.EndingPolicy
import CompanionBackend.ClosingOutput
import CompanionBackend.ReconnectSafety
import CompanionBackend.ContextInvariant
import CompanionBackend.EvidenceAgreement
import CompanionBackend.NormalizationRuns
import CompanionBackend.RetentionExactness
import CompanionBackend.MetricSurvival
import CompanionBackend.MemoryJobSafety
import CompanionBackend.FollowupSafety
import CompanionBackend.GrowthLedger
import CompanionBackend.GrowthCaps
import CompanionBackend.PublishSerial
import CompanionBackend.FutureSlots
import CompanionBackend.AgentCaps
import CompanionBackend.ImportAtomicity
import CompanionBackend.PublishAgreement
import CompanionBackend.ForcedSources
import CompanionBackend.AwareRules
import CompanionBackend.FeedLikes
import CompanionBackend.FeedComments
import CompanionBackend.AdminRevocation
import CompanionBackend.UserLogin
import CompanionBackend.SummaryAttempts
import CompanionBackend.SingleUse
import CompanionBackend.ReadyPlans
import CompanionBackend.LoginStreaks
import CompanionBackend.DailyExactness
import CompanionBackend.Timelines
import CompanionBackend.FeedPages
import CompanionBackend.PromptTexts
import CompanionBackend.BargeVerdicts
import CompanionBackend.BargeOutcomes
import CompanionBackend.SummaryStaging
import CompanionBackend.IdentityRoundTrips
import CompanionBackend.ContextBudgets
import CompanionBackend.PriceLabels
import CompanionBackend.EvidenceOrder
import CompanionBackend.MonthDays
import CompanionBackend.ResendQuota
import CompanionBackend.FrameEncoder
