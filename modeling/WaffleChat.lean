import WaffleChat.Library.EventSystem
import WaffleChat.Library.CallbackProgram
import WaffleChat.Library.Executions
import WaffleChat.Library.Observers
import WaffleChat.Library.CombineLatest
import WaffleChat.Library.Gather
import WaffleChat.Library.Interleaving
import WaffleChat.Library.KeyedBag
import WaffleChat.Library.VersionedBag
import WaffleChat.Library.KeySorted
import WaffleChat.Library.Patterns
import WaffleChat.Library.Refinement
import WaffleChat.Library.RequestMap
import WaffleChat.Library.Draining
import WaffleChat.Library.Throttle
import WaffleChat.Firestore.Documents
import WaffleChat.Firestore.Snapshots
import WaffleChat.Model.Records
import WaffleChat.Extensions.EmailAddress
import WaffleChat.Service.UploadMessage
import WaffleChat.Service.Delivery
import WaffleChat.Service.StoredMessages
import WaffleChat.Service.InterleavedLookups
import WaffleChat.Service.IssuedWrites
import WaffleChat.Service.UploadProgress
import WaffleChat.Service.MessageCopies
import WaffleChat.Service.MessageLogs
import WaffleChat.Service.Acknowledgement
import WaffleChat.Service.WriteOrder
import WaffleChat.Service.FetchMessages
import WaffleChat.Service.OrderAgreement
import WaffleChat.Service.FetchConversations
import WaffleChat.Service.ConversationHistory
import WaffleChat.Service.ConversationVersions
import WaffleChat.Service.FailedLookups
import WaffleChat.Service.SequentialLookups
import WaffleChat.Service.LookupOrder
import WaffleChat.Service.RecentMessages
import WaffleChat.Service.Authentication
import WaffleChat.Service.FetchUsers
import WaffleChat.Service.Directory
import WaffleChat.Service.OneShotRequests
import WaffleChat.ViewModel.Registration
import WaffleChat.ViewModel.ProfileWrites
import WaffleChat.ViewModel.RegistrationReports
import WaffleChat.ViewModel.NewMessage
import WaffleChat.ViewModel.NewMessageSteps
import WaffleChat.ViewModel.NewMessageFailures
import WaffleChat.ViewModel.RefreshSpinner
import WaffleChat.ViewModel.FriendList
import WaffleChat.ViewModel.FriendSearch
import WaffleChat.ViewModel.RefetchCount
import WaffleChat.ViewModel.Chat
import WaffleChat.Controller.Session
import WaffleChat.Controller.CaughtUp
import WaffleChat.Controller.Chat
import WaffleChat.Controller.UserLookups
import WaffleChat.Controller.Chats
import WaffleChat.Controller.SnapshotListeners
import WaffleChat.Controller.AuthForms
import WaffleChat.Controller.ChatLayout
import WaffleChat.ViewModel.Login
import WaffleChat.View.Cells
import WaffleChat.View.ProgressHUD
import WaffleChat.Controller.WaitingScreens
import WaffleChat.ViewModel.ThrottledSearch
import WaffleChat.Controller.ActivityIndicator
import WaffleChat.Controller.Passwords
import WaffleChat.Controller.SessionProgress
import WaffleChat.Controller.ValidatedAccounts
import WaffleChat.Controller.OpenChats
import WaffleChat.Controller.OpenConversations
import WaffleChat.Service.SharedStore
import WaffleChat.Controller.RegisteredSessions
import WaffleChat.Controller.Devices
import WaffleChat.Controller.ConversationLists
import WaffleChat.Controller.AgreeingScreens
import WaffleChat.Service.Rewording
import WaffleChat.Controller.PrivateTexts
import WaffleChat.View.ImageLoading
import WaffleChat.View.ProfileImages
import WaffleChat.View.LoadProgress
import WaffleChat.Controller.CaughtUpLists
