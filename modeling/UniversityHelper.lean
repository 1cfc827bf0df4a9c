import UniversityHelper.Machine
import UniversityHelper.Threads
import UniversityHelper.OrderedDict
import UniversityHelper.PythonText
import UniversityHelper.Ranking
import UniversityHelper.TicketedWriter
import UniversityHelper.TopSelection
import UniversityHelper.TenantPool
import UniversityHelper.TenantPoolSafety
import UniversityHelper.Registration
import UniversityHelper.RegistrationSafety
import UniversityHelper.TaskAdmission
import UniversityHelper.TaskManager
import UniversityHelper.TaskLookup
import UniversityHelper.LogPolling
import UniversityHelper.LearningTask
import UniversityHelper.PersistSequencer
import UniversityHelper.LearningManager
import UniversityHelper.LearningTerminal
import UniversityHelper.Binary64
import UniversityHelper.ZhihuishuWatch
import UniversityHelper.ZhihuishuAdapter
import UniversityHelper.ZhihuishuWorker
import UniversityHelper.ZhihuishuActive
import UniversityHelper.ZhihuishuCancel
import UniversityHelper.ProgressCipher
import UniversityHelper.SigninHistory
import UniversityHelper.SigninHistorySafety
import UniversityHelper.JobProcessor
import UniversityHelper.JobProcessorSafety
import UniversityHelper.InlineRunner
import UniversityHelper.AnswerBank
import UniversityHelper.AnswerBankTrust
import UniversityHelper.QrLogin
import UniversityHelper.QrLoginSafety
import UniversityHelper.CourseTasks
import UniversityHelper.CourseTasksLogout
import UniversityHelper.SigninManager
import UniversityHelper.SigninAdmission
import UniversityHelper.LearningWorker
import UniversityHelper.LogTail
import UniversityHelper.LogTailSafety
import UniversityHelper.AutoSignin
import UniversityHelper.AutoSigninReach
import UniversityHelper.LogView
import UniversityHelper.LogViewPrefix
import UniversityHelper.ActiveTasks
import UniversityHelper.Throttle
import UniversityHelper.ZhihuishuPlayback
import UniversityHelper.ZhihuishuPopup
import UniversityHelper.StatusView
import UniversityHelper.StatusViewFinal
import UniversityHelper.QrExpiry
import UniversityHelper.QrExpirySafety
import UniversityHelper.ZhihuishuAi
import UniversityHelper.ZhihuishuAiWritten
import UniversityHelper.ZhihuishuAiFailure
import UniversityHelper.Quiz
import UniversityHelper.QuizOptions
import UniversityHelper.QuizForm
import UniversityHelper.QuizProcessor
import UniversityHelper.QuizFilled
import UniversityHelper.VideoStudy
import UniversityHelper.VideoReports
import UniversityHelper.VideoEnding
import UniversityHelper.AnswerChain
import UniversityHelper.JudgementNegation
import UniversityHelper.IpAddress
import UniversityHelper.ClientIdentity
import UniversityHelper.RateLimiter
import UniversityHelper.TaskRetention
import UniversityHelper.NewestFirst
import UniversityHelper.CredentialStore
import UniversityHelper.ChapterOnce
import UniversityHelper.UpdateCheck
import UniversityHelper.SemVer
import UniversityHelper.VersionOrder
import UniversityHelper.CourseSelection
import UniversityHelper.JavaScriptText
import UniversityHelper.CourseDict
import UniversityHelper.SelectorAgreement
import UniversityHelper.RecordedRun
import UniversityHelper.ZhihuishuCalls
import UniversityHelper.ZhihuishuAccounts
import UniversityHelper.LocationServices
import UniversityHelper.LocationIntents
import UniversityHelper.JavaScriptRegExp
import UniversityHelper.ChapterLog
import UniversityHelper.ChapterLogReading
import UniversityHelper.TaskInsights
import UniversityHelper.LearningRun
import UniversityHelper.TaskLines
import UniversityHelper.HeardCourse
import UniversityHelper.RetryingChapters
import UniversityHelper.RetryingNames
import UniversityHelper.Simulation
import UniversityHelper.CourseRunners
import UniversityHelper.TaskProgress
import UniversityHelper.TaskProgressSafety
import UniversityHelper.CancellableRun
import UniversityHelper.CancellableRunSafety
import UniversityHelper.CancellableRunShutdown
import UniversityHelper.CancellableRunTermination
import UniversityHelper.NewestFeed
import UniversityHelper.StoredHistory
import UniversityHelper.StoredTask
import UniversityHelper.SharedLimiter
import UniversityHelper.DesktopStartup
import UniversityHelper.DesktopStartupSafety
import UniversityHelper.DesktopStartupSettles
import UniversityHelper.DesktopProbe
import UniversityHelper.UpdateChecker
import UniversityHelper.UpdateCheckerSafety
import UniversityHelper.DatabaseBootstrap
import UniversityHelper.DatabaseBootstrapSafety
import UniversityHelper.DatabaseBootstrapRepair
